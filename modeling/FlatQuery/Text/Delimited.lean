/-!
# Delimited text

Fields joined by a delimiter, without any escape. Splitting undoes joining as
long as no field holds the delimiter and there is at least one field; joining
undoes splitting always. The empty text is one empty field, so splitting never
gives the empty list, and a line of a table file always has at least one value.
-/

set_option autoImplicit false

namespace FlatQuery.Text

/-! ## 1. Splitting -/

/-- The first field of a text and the fields after it. -/
def splitFirst (d : Char) : List Char → List Char × List (List Char)
  | [] => ([], [])
  | c :: cs =>
    let (field, fields) := splitFirst d cs
    if c = d then ([], field :: fields) else (c :: field, fields)

/-- The fields of a text, cut at every delimiter. -/
def split (d : Char) (cs : List Char) : List (List Char) :=
  (splitFirst d cs).1 :: (splitFirst d cs).2

/-- The text of some fields, with a delimiter between neighbours. -/
def join (d : Char) : List (List Char) → List Char
  | [] => []
  | [f] => f
  | f :: g :: fs => f ++ d :: join d (g :: fs)

@[simp] theorem split_nil (d : Char) : split d [] = [[]] := rfl

theorem split_ne_nil (d : Char) (cs : List Char) : split d cs ≠ [] := by simp [split]

theorem split_cons_self (d : Char) (cs : List Char) : split d (d :: cs) = [] :: split d cs := by
  simp [split, splitFirst]

theorem split_cons_of_ne {d c : Char} (h : c ≠ d) (cs : List Char) :
    split d (c :: cs) = (c :: (splitFirst d cs).1) :: (splitFirst d cs).2 := by
  simp [split, splitFirst, h]

/-! ## 2. Splitting and joining -/

/-- Every text is its fields joined. -/
theorem join_split (d : Char) (cs : List Char) : join d (split d cs) = cs := by
  induction cs with
  | nil => rfl
  | cons c cs ih =>
    by_cases h : c = d
    · subst h
      rw [split_cons_self]
      simpa [split, join] using ih
    · rw [split_cons_of_ne h]
      revert ih
      rw [split]
      cases (splitFirst d cs).2 <;> simp [join]

/-- A field without delimiters, ended by one, is the first field. -/
theorem split_append_cons {d : Char} {f : List Char} (hf : d ∉ f) (cs : List Char) :
    split d (f ++ d :: cs) = f :: split d cs := by
  induction f with
  | nil => exact split_cons_self d cs
  | cons c f ih =>
    simp only [List.mem_cons, not_or] at hf
    rw [List.cons_append, split_cons_of_ne (Ne.symm hf.1)]
    have := ih hf.2
    rw [split] at this
    injection this with h₁ h₂
    rw [h₁, h₂]

theorem split_of_notMem {d : Char} {f : List Char} (hf : d ∉ f) : split d f = [f] := by
  induction f with
  | nil => rfl
  | cons c f ih =>
    simp only [List.mem_cons, not_or] at hf
    rw [split_cons_of_ne (Ne.symm hf.1)]
    have := ih hf.2
    rw [split] at this
    injection this with h₁ h₂
    rw [h₁, h₂]

/-- Fields come back from their joined text when there is one at least and none holds
the delimiter. -/
theorem split_join {d : Char} {fs : List (List Char)} (hne : fs ≠ [])
    (hfs : ∀ f ∈ fs, d ∉ f) : split d (join d fs) = fs := by
  match fs, hne with
  | [f], _ => exact split_of_notMem (hfs f (by simp))
  | f :: g :: fs, _ =>
    rw [join, split_append_cons (hfs f (by simp)),
      split_join (by simp) (fun x hx => hfs x (List.mem_cons_of_mem _ hx))]

/-- No field of a split text holds the delimiter. -/
theorem notMem_of_mem_split {d : Char} {cs f : List Char} (h : f ∈ split d cs) : d ∉ f := by
  induction cs generalizing f with
  | nil => simp_all
  | cons c cs ih =>
    by_cases hc : c = d
    · subst hc
      rw [split_cons_self, List.mem_cons] at h
      rcases h with rfl | h
      · simp
      · exact ih h
    · rw [split_cons_of_ne hc, List.mem_cons] at h
      rcases h with rfl | h
      · have := ih (f := (splitFirst d cs).1) (by simp [split])
        simp [Ne.symm hc, this]
      · exact ih (by simp [split, h])

/-- A text has one field more than it has delimiters. -/
theorem length_split (d : Char) (cs : List Char) : (split d cs).length = cs.count d + 1 := by
  induction cs with
  | nil => rfl
  | cons c cs ih =>
    by_cases hc : c = d
    · subst hc
      rw [split_cons_self]
      simp [ih]
    · rw [split_cons_of_ne hc]
      simpa [split, List.count_cons, hc] using ih

/-! ## 3. On strings -/

/-- The fields of a string, cut at every delimiter. -/
def fields (d : Char) (s : String) : List String := (split d s.toList).map String.ofList

/-- The string of some fields, with a delimiter between neighbours. -/
def joined (d : Char) (fs : List String) : String := String.ofList (join d (fs.map String.toList))

end FlatQuery.Text
