import FlatQuery.Error
import Mathlib.Data.List.Basic
import Mathlib.Data.List.TakeWhile

/-!
# Cutting a text behind a line end

Command text reaches the scanner one line at a time, so the scanner must not care where
a text is cut as long as it is cut behind a line end. It does not: no lexeme but the line
end itself reaches over one. A name, a relation and a mark stop before it, a literal is
closed or faulty on its own line, a line comment ends there, and inside a block comment
every character but the closing mark is passed alone.

`next_extend` says this for one event and `events_extend` for all of them. Reading the
text behind the cut from the scanner at the end of the text before it differs from
reading it alone in one respect only: the line numbers go on from where they were, and
`events_delay` says by how much.
-/

set_option autoImplicit false

namespace FlatQuery

/-! ## 1. Texts whose last line is ended -/

/-- Whether a text is empty or ends with a line feed. -/
def EndsLine (cs : List Char) : Prop := ∀ c ∈ cs.getLast?, c = '\n'

/-- What is left of a text that ends its line ends it too, or is nothing. -/
theorem endsLine_drop {cs : List Char} (h : EndsLine cs) (n : Nat) : EndsLine (cs.drop n) := by
  intro c hc
  rw [List.getLast?_drop] at hc
  split at hc
  · simp at hc
  · exact h c hc

/-- Behind a character that is not the line feed the line goes on, up to a line feed. -/
theorem mem_of_endsLine_cons {c : Char} {rest : List Char} (h : EndsLine (c :: rest))
    (hc : c ≠ '\n') : '\n' ∈ rest := by
  rcases hr : rest.getLast? with _ | d
  · rw [List.getLast?_eq_none_iff] at hr
    rw [hr] at h
    exact absurd (h c rfl) hc
  · have hne : rest ≠ [] := by
      intro hnil
      rw [hnil] at hr
      simp at hr
    have hd := h d (by rw [List.getLast?_cons_of_ne_nil hne]; exact hr)
    rw [hd] at hr
    exact List.mem_of_getLast? hr

/-- A run of characters that breaks off within a text is shorter than the text. -/
theorem length_takeWhile_lt {p : Char → Bool} {xs : List Char} {a : Char} (ha : a ∈ xs)
    (hp : p a = false) : (xs.takeWhile p).length < xs.length := by
  refine Nat.lt_of_le_of_ne (List.takeWhile_prefix p).length_le fun hlen => ?_
  have hall := List.takeWhile_eq_self_iff.1 ((List.takeWhile_prefix p).eq_of_length hlen)
  rw [hall a ha] at hp
  exact Bool.noConfusion hp

/-- Such a run does not see what follows the text. -/
theorem takeWhile_append_of_mem {p : Char → Bool} {xs : List Char} {a : Char} (ha : a ∈ xs)
    (hp : p a = false) (ys : List Char) : (xs ++ ys).takeWhile p = xs.takeWhile p := by
  rw [List.takeWhile_append, if_neg (Nat.ne_of_lt (length_takeWhile_lt ha hp))]

/-! ## 2. One lexeme -/

namespace Lexeme

/-- The lexeme at the front of an ended text is the same whatever follows the text. -/
theorem outside_append {c : Char} {rest : List Char} (h : EndsLine (c :: rest))
    (ys : List Char) : outside c (rest ++ ys) = outside c rest := by
  by_cases hc : c = '\n'
  · subst hc
    rfl
  have hmem := mem_of_endsLine_cons h hc
  -- The line is ended within the text, so whatever is looked at ends there too.
  have hne : rest ≠ [] := List.ne_nil_of_mem hmem
  have hname : (rest ++ ys).takeWhile isNamePart = rest.takeWhile isNamePart :=
    takeWhile_append_of_mem hmem (by decide) ys
  have hbody : (rest ++ ys).takeWhile isLiteralBody = rest.takeWhile isLiteralBody :=
    takeWhile_append_of_mem hmem (by decide) ys
  have hlt : (rest.takeWhile isLiteralBody).length < rest.length :=
    length_takeWhile_lt hmem (by decide)
  have hclose : ((rest ++ ys).drop (rest.takeWhile isLiteralBody).length).head? =
      (rest.drop (rest.takeWhile isLiteralBody).length).head? := by
    rw [List.drop_append_of_le_length (Nat.le_of_lt hlt), List.head?_append_of_ne_nil]
    rw [ne_eq, List.drop_eq_nil_iff]
    omega
  have hhead : (rest ++ ys).head? = rest.head? := List.head?_append_of_ne_nil rest hne
  -- A line comment is looked at from its second dash on.
  have hline : rest.head? = some '-' →
      ((rest ++ ys).drop 1).takeWhile isWithinLine = (rest.drop 1).takeWhile isWithinLine := by
    intro hd
    rcases rest with _ | ⟨d, r⟩
    · exact absurd rfl hne
    · rw [List.head?_cons, Option.some.injEq] at hd
      subst hd
      have hmem' : '\n' ∈ r := by
        rcases List.mem_cons.1 hmem with he | hr
        · exact absurd he (by decide)
        · exact hr
      exact takeWhile_append_of_mem hmem' (by decide) ys
  by_cases hd : rest.head? = some '-'
  · simp only [outside, hname, hbody, hclose, hhead, hline hd]
  · simp only [outside, hname, hbody, hclose, hhead, hd, and_false, if_false]

private theorem of_ite {p : Prop} [Decidable p] {P : Lexeme × Nat → Prop}
    {x y : Lexeme × Nat} (hx : p → P x) (hy : ¬p → P y) : P (if p then x else y) := by
  by_cases hp : p
  · rw [if_pos hp]
    exact hx hp
  · rw [if_neg hp]
    exact hy hp

/-- The ways in which a text outside comments can begin. -/
theorem outside_cases {P : Lexeme × Nat → Prop} {c : Char} {rest : List Char}
    (blank : (isSeparator c || c == '\n') = true → P (.silent, 0))
    (name : isNameStart c = true → P (.token .identifier, (rest.takeWhile isNamePart).length))
    (literal : c = '\'' →
      (rest.drop (rest.takeWhile isLiteralBody).length).head? = some '\'' →
      P (.token .literal, (rest.takeWhile isLiteralBody).length + 1))
    (unterminated : c = '\'' →
      (rest.drop (rest.takeWhile isLiteralBody).length).head? ≠ some '\'' →
      P (.unterminatedLiteral, (rest.takeWhile isLiteralBody).length))
    (sign : c = '<' ∨ c = '>' →
      P (.token .relation, if rest.head? = some '=' then 1 else 0))
    (different : c = '!' → rest.head? = some '=' → P (.token .relation, 1))
    (equal : c = '=' → P (.token .relation, 0))
    (lineComment : c = '-' → rest.head? = some '-' →
      P (.silent, 1 + ((rest.drop 1).takeWhile isWithinLine).length))
    (commentStart : c = '/' → rest.head? = some '*' → P (.commentStart, 1))
    (leftParen : c = '(' → P (.token .leftParen, 0))
    (rightParen : c = ')' → P (.token .rightParen, 0))
    (comma : c = ',' → P (.token .comma, 0))
    (semicolon : c = ';' → P (.token .semicolon, 0))
    (dot : c = '.' → P (.token .dot, 0))
    (illegal : P (.illegalCharacter, 0)) : P (outside c rest) := by
  unfold outside
  refine of_ite blank fun _ => ?_
  refine of_ite name fun _ => ?_
  refine of_ite (fun hc => of_ite (literal hc) (unterminated hc)) fun _ => ?_
  refine of_ite sign fun _ => ?_
  refine of_ite (fun h => different h.1 h.2) fun _ => ?_
  refine of_ite equal fun _ => ?_
  refine of_ite (fun h => lineComment h.1 h.2) fun _ => ?_
  refine of_ite (fun h => commentStart h.1 h.2) fun _ => ?_
  refine of_ite leftParen fun _ => ?_
  refine of_ite rightParen fun _ => ?_
  refine of_ite comma fun _ => ?_
  refine of_ite semicolon fun _ => ?_
  exact of_ite dot fun _ => illegal

/-- A lexeme has no more characters than there are. -/
theorem outside_le (c : Char) (rest : List Char) : (outside c rest).2 ≤ rest.length := by
  have hname := (List.takeWhile_prefix isNamePart (l := rest)).length_le
  have hbody := (List.takeWhile_prefix isLiteralBody (l := rest)).length_le
  have hline := (List.takeWhile_prefix isWithinLine (l := rest.drop 1)).length_le
  have hpos : ∀ d, rest.head? = some d → 1 ≤ rest.length := by
    intro d hd
    rcases rest with _ | ⟨e, r⟩
    · simp at hd
    · simp
  refine outside_cases (P := fun r => r.2 ≤ rest.length) (fun _ => Nat.zero_le _) (fun _ => hname)
    (fun _ hq => ?_) (fun _ _ => hbody) (fun _ => ?_) (fun _ => hpos _) (fun _ => Nat.zero_le _)
    (fun _ hq => ?_) (fun _ => hpos _) (fun _ => Nat.zero_le _) (fun _ => Nat.zero_le _)
    (fun _ => Nat.zero_le _) (fun _ => Nat.zero_le _) (fun _ => Nat.zero_le _) (Nat.zero_le _)
  · -- The closing quote stands behind the body.
    refine Nat.lt_of_le_of_ne hbody fun he => ?_
    rw [he, List.drop_length] at hq
    simp at hq
  · dsimp only
    split
    · rename_i hq
      exact hpos _ hq
    · exact Nat.zero_le _
  · have := hpos _ hq
    rw [List.length_drop] at hline
    dsimp only
    omega

/-- What a lexeme at the front is does not depend on what is added behind the line. -/
theorem front_append {b : Bool} {c : Char} {rest : List Char} (h : EndsLine (c :: rest))
    (ys : List Char) : front b c (rest ++ ys) = front b c rest := by
  rcases b with _ | _
  · exact outside_append h ys
  · change inside c (rest ++ ys) = inside c rest
    by_cases hc : c = '*'
    · subst hc
      have hne := List.ne_nil_of_mem (mem_of_endsLine_cons h (by decide))
      rw [inside, inside, List.head?_append_of_ne_nil rest hne]
    · rw [inside, inside, if_neg fun hq => hc hq.1, if_neg fun hq => hc hq.1]

/-- A lexeme is no longer than the text. -/
theorem front_le (b : Bool) (c : Char) (rest : List Char) :
    (front b c rest).2 ≤ rest.length := by
  rcases b with _ | _
  · exact outside_le c rest
  · change (inside c rest).2 ≤ rest.length
    unfold inside
    split
    · rename_i hq
      rcases rest with _ | ⟨d, r⟩
      · simp at hq
      · simp
    · exact Nat.zero_le _

end Lexeme

/-! ## 3. Scanning from another line -/

/-- The fault that the same text has so many lines further down. -/
def LexicalFault.delay (k : Nat) : LexicalFault → LexicalFault
  | .unterminatedLiteral text => .unterminatedLiteral text
  | .illegalCharacter c line => .illegalCharacter c (line + k)

/-- A lexical error counts the lines before it, and no other error does. -/
def Error.delay (k : Nat) : Error → Error
  | .lexical f => .lexical (f.delay k)
  | e => e

def Found.delay (k : Nat) : Found → Found
  | .token t => .token t
  | .fault f => .fault (f.delay k)

/-- An event so many lines and characters further down. -/
def Event.delay (k n : Nat) (e : Event) : Event where
  found := e.found.delay k
  line := e.line + k
  position := e.position + n

theorem LexicalFault.delay_zero (f : LexicalFault) : f.delay 0 = f := by
  rcases f with _ | _ <;> rfl

theorem Error.delay_zero (e : Error) : e.delay 0 = e := by
  unfold Error.delay
  split
  · rw [LexicalFault.delay_zero]
  · rfl

/-- Where an error stands does not matter to what it concerns. -/
theorem Error.isStatementError_delay (k : Nat) (e : Error) :
    (e.delay k).isStatementError = e.isStatementError := by
  unfold Error.delay
  split <;> rfl

/-- What is found on a later line is found so many lines later. -/
theorem Lexeme.found?_delay (x : Lexeme) (text : List Char) (line k : Nat) :
    x.found? text (line + k) = (x.found? text line).map (Found.delay k) := by
  rcases x with _ | _ | _ | _ | _ | _ <;> try rfl
  rcases text with _ | _ <;> rfl

namespace Scanner

/-- The scanner so many lines and characters further down. -/
def delay (k n : Nat) (s : Scanner) : Scanner :=
  { s with line := s.line + k, position := s.position + n }

/-- What the scanner finds at the first character. -/
theorem next_of_cons {s : Scanner} {c : Char} {rest : List Char} (h : s.rest = c :: rest) :
    s.next =
      match (Lexeme.front s.inComment c rest).1.found?
        (c :: rest.take (Lexeme.front s.inComment c rest).2) s.line with
      | some f => (some ⟨f, s.line, s.position⟩,
          s.behind c rest (Lexeme.front s.inComment c rest).1
            (Lexeme.front s.inComment c rest).2)
      | none => (s.behind c rest (Lexeme.front s.inComment c rest).1
          (Lexeme.front s.inComment c rest).2).next := by
  rw [next]
  split
  · rename_i hnil
    rw [h] at hnil
    exact absurd hnil (by simp)
  · rename_i d r hcons
    rw [h] at hcons
    injection hcons with hc hr
    subst hc hr
    rfl

/-- Passing a lexeme commutes with counting the lines and places from elsewhere. -/
theorem behind_delay (s : Scanner) (k n : Nat) (c : Char) (rest : List Char) (x : Lexeme)
    (m : Nat) : (s.delay k n).behind c rest x m = (s.behind c rest x m).delay k n := by
  simp only [behind, delay, Scanner.mk.injEq, true_and, and_true]
  omega

/-- Further down the scanner finds the same, further down. -/
theorem next_delay (s : Scanner) (k n : Nat) :
    (s.delay k n).next = (s.next.1.map (Event.delay k n), s.next.2.delay k n) := by
  fun_induction next s with
  | case1 s h => exact next_of_nil h
  | case2 s c rest h x f hf =>
    rw [next_of_cons (s := s.delay k n) h]
    change (match x.1.found? (c :: rest.take x.2) (s.line + k) with
      | some f => _
      | none => _) = _
    rw [Lexeme.found?_delay, hf, behind_delay]
    rfl
  | case3 s c rest h x hf ih =>
    rw [next_of_cons (s := s.delay k n) h]
    change (match x.1.found? (c :: rest.take x.2) (s.line + k) with
      | some f => _
      | none => _) = _
    rw [Lexeme.found?_delay, hf]
    change ((s.delay k n).behind c rest x.1 x.2).next = _
    rw [behind_delay, ih]

/-- Of no event there is nothing behind it, and of an event there is all that follows. -/
theorem events_of_none {s t : Scanner} (h : s.next = (none, t)) : s.events = ([], t) := by
  unfold events
  split
  · rename_i u hu
    rw [h] at hu
    rw [Prod.mk.injEq] at hu
    rw [hu.2]
  · rename_i e u hu
    rw [h] at hu
    simp at hu

/-- The first event is the next one, and the others come behind it. -/
theorem events_of_some {s t : Scanner} {e : Event} (h : s.next = (some e, t)) :
    s.events = (e :: t.events.1, t.events.2) := by
  rw [events]
  split
  · rename_i u hu
    rw [h] at hu
    simp at hu
  · rename_i d u hu
    rw [h, Prod.mk.injEq, Option.some.injEq] at hu
    rw [hu.1, hu.2]

/-- Scanners that go on alike find the same events. -/
theorem events_congr {s t : Scanner} (h : s.next = t.next) : s.events = t.events := by
  rcases ht : t.next with ⟨_ | e, u⟩
  · rw [events_of_none (h.trans ht), events_of_none ht]
  · rw [events_of_some (h.trans ht), events_of_some ht]

/-- Counted from elsewhere, the events are the same at other lines and places. -/
theorem events_delay (s : Scanner) (k n : Nat) :
    (s.delay k n).events = (s.events.1.map (Event.delay k n), s.events.2.delay k n) := by
  fun_induction events s with
  | case1 s t h =>
    have hd := next_delay s k n
    rw [h] at hd
    exact events_of_none hd
  | case2 s e t h es u hu ih =>
    have hd := next_delay s k n
    rw [h] at hd
    rw [events_of_some hd, ih, hu]
    rfl

/-! ## 4. Scanning past a cut -/

/-- The scanner with more text behind what is ahead. -/
def extend (s : Scanner) (ys : List Char) : Scanner := { s with rest := s.rest ++ ys }

/-- Behind a lexeme the text still ends its line. -/
theorem endsLine_behind {s : Scanner} {c : Char} {rest : List Char} (h : EndsLine (c :: rest))
    (x : Lexeme) (m : Nat) : EndsLine (s.behind c rest x m).rest := by
  have := endsLine_drop h (m + 1)
  rwa [List.drop_succ_cons] at this

/-- Passing a lexeme commutes with adding text at the end. -/
theorem behind_extend (s : Scanner) {c : Char} {rest : List Char} {m : Nat}
    (hm : m ≤ rest.length) (ys : List Char) (x : Lexeme) :
    (s.extend ys).behind c (rest ++ ys) x m = (s.behind c rest x m).extend ys := by
  simp only [behind, extend, List.take_append_of_le_length hm,
    List.drop_append_of_le_length hm]

/-- Where the lexeme at the front does not see what follows a text, neither does the scanner
at its first character. -/
theorem next_extend_of_front {s : Scanner} {c : Char} {rest : List Char} (hs : s.rest = c :: rest)
    {ys : List Char}
    (hfront : Lexeme.front s.inComment c (rest ++ ys) = Lexeme.front s.inComment c rest) :
    (s.extend ys).next =
      match (Lexeme.front s.inComment c rest).1.found?
        (c :: rest.take (Lexeme.front s.inComment c rest).2) s.line with
      | some f => (some ⟨f, s.line, s.position⟩,
          (s.behind c rest (Lexeme.front s.inComment c rest).1
            (Lexeme.front s.inComment c rest).2).extend ys)
      | none => ((s.behind c rest (Lexeme.front s.inComment c rest).1
          (Lexeme.front s.inComment c rest).2).extend ys).next := by
  have hrest : (s.extend ys).rest = c :: (rest ++ ys) := by rw [extend, hs, List.cons_append]
  have hcomment : (s.extend ys).inComment = s.inComment := rfl
  have hle := Lexeme.front_le s.inComment c rest
  rw [next_of_cons hrest, hcomment, hfront, List.take_append_of_le_length hle, behind_extend s hle]
  rfl

/-- At the first character of an ended text the scanner does not see what follows it. -/
theorem next_extend_of_cons {s : Scanner} {c : Char} {rest : List Char} (hs : s.rest = c :: rest)
    (h : EndsLine (c :: rest)) (ys : List Char) :
    (s.extend ys).next =
      match (Lexeme.front s.inComment c rest).1.found?
        (c :: rest.take (Lexeme.front s.inComment c rest).2) s.line with
      | some f => (some ⟨f, s.line, s.position⟩,
          (s.behind c rest (Lexeme.front s.inComment c rest).1
            (Lexeme.front s.inComment c rest).2).extend ys)
      | none => ((s.behind c rest (Lexeme.front s.inComment c rest).1
          (Lexeme.front s.inComment c rest).2).extend ys).next :=
  next_extend_of_front hs (Lexeme.front_append h ys)

/-- **Scanning past a cut.** As long as the text before the cut holds an event, it is the
next one; where it holds none, scanning goes on behind the cut. -/
theorem next_extend {s : Scanner} (h : EndsLine s.rest) (ys : List Char) :
    (s.extend ys).next =
      match s.next with
      | (some e, t) => (some e, t.extend ys)
      | (none, t) => (t.extend ys).next := by
  fun_induction next s with
  | case1 s hs => rfl
  | case2 s c rest hs x f hf =>
    rw [hs] at h
    rw [next_extend_of_cons hs h]
    change (match x.1.found? (c :: rest.take x.2) s.line with
      | some f => _
      | none => _) = _
    rw [hf]
  | case3 s c rest hs x hf ih =>
    rw [hs] at h
    rw [next_extend_of_cons hs h]
    change (match x.1.found? (c :: rest.take x.2) s.line with
      | some f => _
      | none => _) = _
    rw [hf]
    exact ih (endsLine_behind h _ _)

/-- Behind an event the text still ends its line. -/
theorem endsLine_next {s t : Scanner} {e? : Option Event} (h : EndsLine s.rest)
    (hn : s.next = (e?, t)) : EndsLine t.rest := by
  fun_induction next s with
  | case1 s hs =>
    rw [Prod.mk.injEq] at hn
    rwa [← hn.2]
  | case2 s c rest hs x f hf =>
    rw [Prod.mk.injEq] at hn
    rw [← hn.2]
    exact endsLine_behind (hs ▸ h) _ _
  | case3 s c rest hs x hf ih => exact ih (endsLine_behind (hs ▸ h) _ _) hn

/-- The events of a text are those before a cut and those behind it. -/
theorem events_extend {s : Scanner} (h : EndsLine s.rest) (ys : List Char) :
    (s.extend ys).events =
      (s.events.1 ++ (s.events.2.extend ys).events.1, (s.events.2.extend ys).events.2) := by
  fun_induction events s with
  | case1 s t hn =>
    have hx := next_extend h ys
    rw [hn] at hx
    exact events_congr hx
  | case2 s e t hn es u hu ih =>
    have hx := next_extend h ys
    rw [hn] at hx
    rw [events_of_some hx, ih (endsLine_next h hn), hu]
    rfl

/-- With nothing behind the cut it need not be at a line end. -/
theorem next_extend_or {s : Scanner} {ys : List Char} (h : EndsLine s.rest ∨ ys = []) :
    (s.extend ys).next =
      match s.next with
      | (some e, t) => (some e, t.extend ys)
      | (none, t) => (t.extend ys).next := by
  rcases h with h | rfl
  · exact next_extend h ys
  · have hself : ∀ u : Scanner, u.extend [] = u := by
      intro u
      rw [extend, List.append_nil]
    simp only [hself]
    rcases hn : s.next with ⟨_ | e, t⟩
    · exact (next_of_nil (next_none_rest hn)).symm
    · rfl

/-! ## 5. The end of a text -/

/-- What the line number has gained is the line feeds that were passed. -/
theorem line_next (s : Scanner) :
    s.next.2.line + s.next.2.rest.count '\n' = s.line + s.rest.count '\n' := by
  fun_induction next s with
  | case1 s hs => rfl
  | case2 s c rest hs x f hf =>
    rw [hs, behind]
    change s.line + _ + (rest.drop x.2).count '\n' = _
    rw [Nat.add_assoc, ← List.count_append, List.cons_append, List.take_append_drop]
  | case3 s c rest hs x hf ih =>
    rw [ih, hs, behind]
    change s.line + _ + (rest.drop x.2).count '\n' = _
    rw [Nat.add_assoc, ← List.count_append, List.cons_append, List.take_append_drop]

/-- At the end of a text the scanner has counted its line feeds. -/
theorem events_end (s : Scanner) :
    s.events.2.rest = [] ∧ s.events.2.line = s.line + s.rest.count '\n' := by
  fun_induction events s with
  | case1 s t h =>
    have hline := line_next s
    have hrest := next_none_rest h
    rw [h, hrest] at hline
    exact ⟨hrest, hline⟩
  | case2 s e t h es u hu ih =>
    have hline := line_next s
    rw [h] at hline
    rw [hu] at ih
    exact ⟨ih.1, ih.2.trans hline⟩

end Scanner

end FlatQuery
