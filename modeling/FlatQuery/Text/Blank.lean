/-!
# Blanks and trimming

A literal is written between quotes, and what counts is the text between them
without the blanks at its two ends. "Blank" is the wide notion of white space:
the control characters that separate fields and lines, and every space of
Unicode, so that a value pasted from a document does not differ from the same
value typed by hand.

Trimming drops the longest run of blanks on each side and nothing else. The facts
that pin it down stand below: a text without blanks at its ends is left alone,
what comes out has none, and no character is invented.
-/

set_option autoImplicit false

namespace FlatQuery.Text

/-! ## 1. The class -/

/-- A blank is a tab, a line or file separator, the space, or a space of Unicode
of any width. -/
def isBlank (c : Char) : Bool :=
  let n := c.toNat
  (0x09 ≤ n && n ≤ 0x0d) || (0x1c ≤ n && n ≤ 0x20) || n == 0x85 || n == 0xa0 || n == 0x1680 ||
    (0x2000 ≤ n && n ≤ 0x200a) || n == 0x2028 || n == 0x2029 || n == 0x202f || n == 0x205f ||
    n == 0x3000

/-- The class holds every character that the core library calls white space. -/
theorem isBlank_of_isWhitespace {c : Char} (h : c.isWhitespace = true) : isBlank c = true := by
  simp only [Char.isWhitespace, Bool.or_eq_true, decide_eq_true_eq] at h
  rcases h with ((rfl | rfl) | rfl) | rfl <;> decide

/-! ## 2. Trimming -/

/-- The characters from the first that is not blank on. -/
def trimStart (cs : List Char) : List Char := cs.dropWhile isBlank

/-- The characters up to the last that is not blank. -/
def trimEnd (cs : List Char) : List Char := (cs.reverse.dropWhile isBlank).reverse

/-- A text without the blanks at its two ends. -/
def trim (cs : List Char) : List Char := trimEnd (trimStart cs)

@[simp] theorem trim_nil : trim [] = [] := rfl

/-- Trimming invents no character. -/
theorem mem_of_mem_trim {c : Char} {cs : List Char} (h : c ∈ trim cs) : c ∈ cs := by
  have h₁ : c ∈ trimStart cs := by
    have := (List.dropWhile_sublist isBlank).subset (List.mem_reverse.1 h)
    exact List.mem_reverse.1 this
  exact (List.dropWhile_sublist isBlank).subset h₁

private theorem isBlank_head?_dropWhile (cs : List Char) :
    ∀ c ∈ (cs.dropWhile isBlank).head?, isBlank c = false := by
  induction cs with
  | nil => simp
  | cons d cs ih =>
    cases h : isBlank d with
    | false => simp [h]
    | true => simpa [h] using ih

private theorem dropWhile_eq_self {cs : List Char} (h : ∀ c ∈ cs.head?, isBlank c = false) :
    cs.dropWhile isBlank = cs := by
  cases cs with
  | nil => rfl
  | cons d cs => simp [h d (by simp)]

/-- A text that neither starts nor ends with a blank is left alone. -/
theorem trim_eq_self {cs : List Char} (hs : ∀ c ∈ cs.head?, isBlank c = false)
    (he : ∀ c ∈ cs.getLast?, isBlank c = false) : trim cs = cs := by
  rw [trim, trimStart, dropWhile_eq_self hs, trimEnd, dropWhile_eq_self, List.reverse_reverse]
  simpa using he

/-- What trimming leaves does not end with a blank. -/
theorem isBlank_getLast?_trim (cs : List Char) : ∀ c ∈ (trim cs).getLast?, isBlank c = false := by
  intro c hc
  rw [trim, trimEnd, List.getLast?_reverse] at hc
  exact isBlank_head?_dropWhile _ c hc

private theorem getLast?_dropWhile_append (u : List Char) {d : Char} (hd : isBlank d = false) :
    ((u ++ [d]).dropWhile isBlank).getLast? = some d := by
  induction u with
  | nil => simp [hd]
  | cons x u ih =>
    by_cases hx : isBlank x = true
    · simpa [hx] using ih
    · simp only [List.cons_append, List.dropWhile_cons, hx]
      rw [← List.cons_append]
      exact List.getLast?_concat

/-- What trimming leaves does not start with a blank: dropping the blanks at the end
stops at the first character at the latest. -/
theorem isBlank_head?_trim (cs : List Char) : ∀ c ∈ (trim cs).head?, isBlank c = false := by
  intro c hc
  have hstart := isBlank_head?_dropWhile cs
  rw [trim, trimEnd, List.head?_reverse, trimStart] at hc
  generalize cs.dropWhile isBlank = t at hstart hc
  cases t with
  | nil => simp at hc
  | cons d t =>
    have hd := hstart d (by simp)
    rw [List.reverse_cons, getLast?_dropWhile_append _ hd] at hc
    simp only [Option.mem_def, Option.some.injEq] at hc
    exact hc ▸ hd

/-- Trimming twice changes nothing more. -/
theorem trim_trim (cs : List Char) : trim (trim cs) = trim cs :=
  trim_eq_self (isBlank_head?_trim cs) (isBlank_getLast?_trim cs)

end FlatQuery.Text
