import FlatQuery.Proofs.Queue
import FlatQuery.Query.Condition

/-!
# What tokens look like

A reader compares a token by its text where the grammar has a keyword or a mark, and by
its kind elsewhere. The two never disagree, because the kind of a token that comes out of
a text is decided by its characters: a name begins with a letter or an underscore, a
literal with a quote, and the signs and marks are single texts. `Token.IsLexical` says so
for one token, and every token that a stream hands out is of this form
(`coming_isLexical`). So a token with the text of a keyword is a name, and a token with
the text of a mark is that mark.
-/

set_option autoImplicit false

namespace FlatQuery

namespace Token

/-- Whether a token is written as its kind is. -/
def IsLexical (t : Token) : Prop :=
  match t.kind with
  | .identifier => ∃ c cs, t.text = String.ofList (c :: cs) ∧ isNameStart c = true ∧
      ∀ d ∈ cs, isNamePart d = true
  | .literal => ∃ body, t.text = String.ofList ('\'' :: (body ++ ['\''])) ∧
      ∀ d ∈ body, isLiteralBody d = true
  | .relation => ∃ r : Relation, t.text = r.symbol
  | .leftParen => t.text = "("
  | .rightParen => t.text = ")"
  | .comma => t.text = ","
  | .semicolon => t.text = ";"
  | .dot => t.text = "."

/-- The kind of the tokens of a text. Only the first character matters. -/
def kindOf (text : String) : Kind :=
  match text.toList with
  | [] => .identifier
  | c :: _ =>
    if c = '\'' then .literal
    else if c ∈ ['<', '>', '!', '='] then .relation
    else if c = '(' then .leftParen
    else if c = ')' then .rightParen
    else if c = ',' then .comma
    else if c = ';' then .semicolon
    else if c = '.' then .dot
    else .identifier

theorem kindOf_of_isNameStart {c : Char} (h : isNameStart c = true) (cs : List Char) :
    kindOf (String.ofList (c :: cs)) = .identifier := by
  have hne : ∀ d, isNameStart d = false → c ≠ d := by
    intro d hd hc
    rw [hc, hd] at h
    exact Bool.noConfusion h
  rw [kindOf, String.toList_ofList]
  dsimp only
  rw [if_neg (hne '\'' (by decide)), if_neg, if_neg (hne '(' (by decide)),
    if_neg (hne ')' (by decide)), if_neg (hne ',' (by decide)), if_neg (hne ';' (by decide)),
    if_neg (hne '.' (by decide))]
  intro hmem
  simp only [List.mem_cons, List.not_mem_nil, or_false] at hmem
  rcases hmem with rfl | rfl | rfl | rfl <;> exact absurd h (by decide)

/-- The characters of a token decide its kind. -/
theorem IsLexical.kind_eq {t : Token} (h : t.IsLexical) : t.kind = kindOf t.text := by
  obtain ⟨k, text⟩ := t
  rcases k with _ | _ | _ | _ | _ | _ | _ | _
  · obtain ⟨c, cs, htext, hc, -⟩ := h
    change _ = kindOf text
    rw [show text = _ from htext, kindOf_of_isNameStart hc]
  · obtain ⟨body, htext, -⟩ := h
    change _ = kindOf text
    rw [show text = _ from htext, kindOf, String.toList_ofList]
    rfl
  · obtain ⟨r, hr⟩ := h
    change _ = kindOf text
    rw [show text = _ from hr]
    rcases r with _ | _ | _ | _ | _ | _ <;> rfl
  all_goals
    change _ = kindOf text
    rw [show text = _ from h]
    rfl

/-- So tokens of one text are one token. -/
theorem IsLexical.eq_of_text {t : Token} (h : t.IsLexical) {text : String}
    (ht : t.text = text) : t = ⟨kindOf text, text⟩ := by
  rw [← ht, ← h.kind_eq]

end Token

/-! ## 1. What the scanner finds -/

namespace Lexeme

private theorem take_of_head? {d : Char} {rest : List Char} (h : rest.head? = some d) :
    rest.take 1 = [d] := by
  rcases rest with _ | ⟨e, r⟩
  · simp at h
  · rw [List.head?_cons, Option.some.injEq] at h
    rw [h]
    rfl

/-- A token at the front of a text is written as its kind is. -/
theorem outside_isLexical {c : Char} {rest : List Char} {k : Token.Kind} {n : Nat}
    (h : outside c rest = (.token k, n)) :
    Token.IsLexical ⟨k, String.ofList (c :: rest.take n)⟩ := by
  have hname : rest.take (rest.takeWhile isNamePart).length = rest.takeWhile isNamePart :=
    (List.prefix_iff_eq_take.1 (List.takeWhile_prefix isNamePart)).symm
  have hbody : rest.take (rest.takeWhile isLiteralBody).length = rest.takeWhile isLiteralBody :=
    (List.prefix_iff_eq_take.1 (List.takeWhile_prefix isLiteralBody)).symm
  revert h
  refine outside_cases (P := fun r => r = (.token k, n) → _) ?_ ?_ ?_ ?_ ?_ ?_ ?_ ?_ ?_ ?_ ?_ ?_
    ?_ ?_ ?_
  · intro _ h
    simp at h
  · rintro hc h
    injection h with hk hn
    injection hk with hk
    subst hk hn
    rw [hname]
    exact ⟨c, _, rfl, hc, fun d hd => List.mem_takeWhile_imp hd⟩
  · rintro rfl hq h
    injection h with hk hn
    injection hk with hk
    subst hk hn
    rw [List.head?_drop] at hq
    rw [List.take_add_one, hbody, hq]
    exact ⟨_, rfl, fun d hd => List.mem_takeWhile_imp hd⟩
  · intro _ _ h
    simp at h
  · rintro hc h
    injection h with hk hn
    injection hk with hk
    subst hk hn
    by_cases hq : rest.head? = some '='
    · rw [if_pos hq, take_of_head? hq]
      rcases hc with rfl | rfl
      · exact ⟨.atMost, rfl⟩
      · exact ⟨.atLeast, rfl⟩
    · rw [if_neg hq, List.take_zero]
      rcases hc with rfl | rfl
      · exact ⟨.less, rfl⟩
      · exact ⟨.greater, rfl⟩
  · rintro rfl hq h
    injection h with hk hn
    injection hk with hk
    subst hk hn
    rw [take_of_head? hq]
    exact ⟨.different, rfl⟩
  · rintro rfl h
    injection h with hk hn
    injection hk with hk
    subst hk hn
    exact ⟨.equal, rfl⟩
  · intro _ _ h
    simp at h
  · intro _ _ h
    simp at h
  -- The five marks.
  iterate 5
    · rintro rfl h
      injection h with hk hn
      injection hk with hk
      subst hk hn
      rfl
  · intro h
    simp at h

end Lexeme

/-- Only a token of a text is found as one. -/
theorem found?_eq_token {x : Lexeme} {text : List Char} {line : Nat} {t : Token}
    (h : x.found? text line = some (.token t)) :
    ∃ k, x = .token k ∧ t = ⟨k, String.ofList text⟩ := by
  rcases x with _ | _ | _ | k | _ | _
  · simp [Lexeme.found?] at h
  · simp [Lexeme.found?] at h
  · simp [Lexeme.found?] at h
  · injection h with h
    injection h with h
    exact ⟨k, rfl, h.symm⟩
  · simp [Lexeme.found?] at h
  · rcases text with _ | _ <;> simp [Lexeme.found?] at h

theorem front_isLexical {b : Bool} {c : Char} {rest : List Char} {k : Token.Kind} {n : Nat}
    (h : Lexeme.front b c rest = (.token k, n)) :
    Token.IsLexical ⟨k, String.ofList (c :: rest.take n)⟩ := by
  rcases b with _ | _
  · exact Lexeme.outside_isLexical h
  -- Inside a comment there are no tokens.
  · change Lexeme.inside c rest = _ at h
    unfold Lexeme.inside at h
    split at h <;> simp at h

namespace Scanner

theorem isLexical_of_next {s t : Scanner} {e : Event} {k : Token} (h : s.next = (some e, t))
    (hk : e.found = .token k) : k.IsLexical := by
  fun_induction next s with
  | case1 s hs => simp at h
  | case3 s c rest hs x hf ih => exact ih h
  | case2 s c rest hs x f hf =>
    rw [Prod.mk.injEq, Option.some.injEq] at h
    rw [← h.1] at hk
    change f = .token k at hk
    rw [hk] at hf
    obtain ⟨kind, hx, hkind⟩ := found?_eq_token hf
    rw [hkind]
    exact front_isLexical (Prod.ext hx rfl)

end Scanner

/-! ## 2. What a stream hands out -/

namespace TokenStream

theorem read_isLexical {s t : TokenStream} {k : Token} (h : s.read = .ok (.token k) t) :
    k.IsLexical := by
  fun_induction read s with
  | case1 s e scanner hn d hf =>
    injection h with hd
    injection hd with hd
    rw [← hd]
    exact Scanner.isLexical_of_next hn hf
  | case2 s e scanner hn f hf => simp at h
  | case3 s scanner hn u hx => simp at h
  | case4 s scanner hn u hx text source hl ih => exact ih h
  | case5 s scanner hn u hx hl => simp at h
  | case6 s scanner hn u hx f hl => simp at h

/-- Every token to come is written as its kind is. -/
theorem coming_isLexical (s : TokenStream) {k : Token} (h : .ok k ∈ s.coming) :
    k.IsLexical := by
  fun_induction coming s with
  | case1 s d t hr ih =>
    rcases List.mem_cons.1 h with hd | h
    · injection hd with hd
      rw [hd]
      exact read_isLexical hr
    · exact ih h
  | case2 s t hr => simp at h
  | case3 s e t hr he ih =>
    rcases List.mem_cons.1 h with hd | h
    · simp at hd
    · exact ih h
  | case4 s e t hr he => simp at h

end TokenStream

end FlatQuery
