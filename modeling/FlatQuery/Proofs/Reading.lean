import FlatQuery.Proofs.Lockstep
import FlatQuery.Proofs.Phrase

/-!
# What is read was spelled

Whatever a parser of the grammar accepts is the spelling of some phrase, and the result is
what the phrase means. The parser has consumed the tokens of the phrase and no others. That
is `Parser.Finds`, which holds of each rule because it is kept by the ways in which rules are
put together. `Statement.next?_finds` says it of a whole statement.

The side conditions of the grammar need no mention here. They are part of what it is for a
phrase to mean something, and the parsers that check them accept nothing else.
-/

set_option autoImplicit false

namespace FlatQuery

/-! ## 1. Taking tokens off a stream -/

/-- Tokens as they come. -/
def arrivals (toks : List Token) : List Arrival := toks.map .ok

theorem arrivals_append (l l' : List Token) : arrivals (l ++ l') = arrivals l ++ arrivals l' :=
  List.map_append

/-- What stands in front of the semicolon is to come. -/
theorem mem_of_spelled {toks : List Token} {q rest : List Arrival}
    (hq : q = arrivals (toks ++ [.terminator]) ++ rest) {k : Token} (hk : k ∈ toks) :
    .ok k ∈ q := by
  rw [hq]
  exact List.mem_append_left _ (List.mem_map_of_mem (List.mem_append_left _ hk))

namespace TokenStream

/-- Whether some tokens are all that lies between two places of a stream. -/
structure Takes (s : TokenStream) (toks : List Token) (t : TokenStream) : Prop where
  queue_eq : s.queue = arrivals toks ++ t.queue
  consumed_eq : t.consumed = s.consumed + toks.length

/-- Tokens that are taken one after the other are taken together. -/
theorem Takes.trans {s t u : TokenStream} {l l' : List Token} (h : s.Takes l t)
    (h' : t.Takes l' u) : s.Takes (l ++ l') u := by
  refine ⟨?_, ?_⟩
  · rw [h.queue_eq, h'.queue_eq, arrivals_append, List.append_assoc]
  · rw [h'.consumed_eq, h.consumed_eq, List.length_append, Nat.add_assoc]

/-- Behind tokens that were known to come, what follows them comes. -/
theorem Takes.queue_rest {s t : TokenStream} {l : List Token} {rest : List Arrival}
    (h : s.Takes l t) (hq : s.queue = arrivals l ++ rest) : t.queue = rest := by
  rw [h.queue_eq] at hq
  exact List.append_cancel_left hq

/-- Whether all tokens to come are written as their kinds are. -/
def IsLexical (s : TokenStream) : Prop := ∀ k, .ok k ∈ s.queue → k.IsLexical

/-- Before anything is looked at, the tokens that come are those that the scanner makes. -/
theorem isLexical_of_none {s : TokenStream} (h : s.ahead? = none) : s.IsLexical := by
  intro k hk
  rw [queue_of_none h] at hk
  exact s.coming_isLexical hk

/-- What is left behind some tokens is made of tokens as well. -/
theorem Takes.isLexical {s t : TokenStream} {l : List Token} (h : s.Takes l t)
    (hs : s.IsLexical) : t.IsLexical := by
  intro k hk
  apply hs k
  rw [h.queue_eq]
  exact List.mem_append_right _ hk

/-- What looking ahead shows, and what consuming it does. -/
theorem lookahead_takes {s t : TokenStream} {a : Lookahead} (h : s.lookahead = .ok a t) :
    s.Takes [] t ∧ (a = .endOfInput ∧ t.queue = [] ∧ t.consume = t ∨
      ∃ k, a = .token k ∧ .ok k ∈ s.queue ∧ t.Takes [k] t.consume) := by
  rcases lookahead_cases s with ⟨u, hl, hq, hu, ha, hp⟩ | ⟨k, u, hl, hq, ha, hp⟩ | ⟨e, u, hl, -⟩ <;>
    rw [hl] at h
  · injection h with ha' ht
    subst ha' ht
    exact ⟨⟨hq.trans hu.symm, hp.1⟩, .inl ⟨rfl, hu, consume_of_end ha⟩⟩
  · injection h with ha' ht
    subst ha' ht
    obtain ⟨hcq, -, hc, -⟩ := consume_of_token ha
    refine ⟨⟨?_, hp.1⟩, .inr ⟨k, rfl, ?_, ?_, hc⟩⟩
    · rw [hq, queue_of_token ha]
      rfl
    · rw [hq]
      exact List.mem_cons_self ..
    · rw [queue_of_token ha, hcq]
      rfl
  · simp at h

end TokenStream

namespace Parser

variable {α β γ : Type}

/-- A chain of two parsers that succeeds is a success of the first and one of the second. -/
theorem run_bind_ok {p : Parser α} {f : α → Parser β} {s u : TokenStream} {b : β}
    (h : (p >>= f).run s = .ok b u) : ∃ a t, p.run s = .ok a t ∧ (f a).run t = .ok b u := by
  rw [run_bind] at h
  rcases hp : p.run s with ⟨a, t⟩ | ⟨e, t⟩ <;> rw [hp] at h
  · exact ⟨a, t, rfl, h⟩
  · simp at h

/-! ## 2. What is accepted -/

/-- Whether a parser only accepts spellings of phrases, with results that the phrases
mean. -/
def Finds (p : Parser α) (spell : β → List Token) (R : β → α → Prop) : Prop :=
  ∀ s a t, s.IsLexical → p.run s = .ok a t → ∃ x, R x a ∧ s.Takes (spell x) t

/-- What stands next is consumed where it has some property. -/
theorem take_ok {c : Lookahead → Prop} [DecidablePred c] {f : Lookahead → α}
    {p : Lookahead → Parser α} (hend : ¬c .endOfInput) {s t : TokenStream} {a : α}
    (h : (do
      let x ← lookahead
      if c x then
        consume
        return f x
      else p x).run s = .ok a t) :
    (∃ k, c (.token k) ∧ a = f (.token k) ∧ .ok k ∈ s.queue ∧ s.Takes [k] t) ∨
    (∃ x u, ¬c x ∧ s.Takes [] u ∧ (p x).run u = .ok a t) := by
  obtain ⟨x, u, hl, h⟩ := run_bind_ok h
  obtain ⟨hu, hx⟩ := TokenStream.lookahead_takes hl
  by_cases hc : c x
  · rw [if_pos hc] at h
    rcases hx with ⟨rfl, -⟩ | ⟨k, rfl, hk, hku⟩
    · exact absurd hc hend
    · injection h with ha ht
      subst ha ht
      exact .inl ⟨k, hc, rfl, hk, hu.trans hku⟩
  · rw [if_neg hc] at h
    exact .inr ⟨x, u, hc, hu, h⟩

/-- A word that was there has been taken. -/
theorem nextIf_true {text : String} (htext : text ≠ Lookahead.endOfInput.text)
    {s t : TokenStream} (hs : s.IsLexical) (h : (nextIf text).run s = .ok true t) :
    s.Takes [.ofText text] t := by
  rcases take_ok (c := fun x => x.text = text) (f := fun _ => true) (fun he => htext he.symm) h
    with ⟨k, hk, -, hmem, ht⟩ | ⟨x, u, -, -, hr⟩
  · rw [(hs k hmem).eq_of_text hk] at ht
    exact ht
  · injection hr with hb
    exact Bool.noConfusion hb

/-- Where a word was not there nothing was taken. -/
theorem nextIf_false {text : String} (htext : text ≠ Lookahead.endOfInput.text)
    {s t : TokenStream} (h : (nextIf text).run s = .ok false t) : s.Takes [] t := by
  rcases take_ok (c := fun x => x.text = text) (f := fun _ => true) (fun he => htext he.symm) h
    with ⟨k, -, hb, -⟩ | ⟨x, u, -, hu, hr⟩
  · exact Bool.noConfusion hb
  · injection hr with _ ht
    exact ht ▸ hu

/-- A word that was expected and there has been taken. -/
theorem expect_ok {text x : String} (htext : text ≠ Lookahead.endOfInput.text)
    {s t : TokenStream} (hs : s.IsLexical) (h : (expect text).run s = .ok x t) :
    s.Takes [.ofText text] t := by
  rcases take_ok (c := fun x => x.text = text) (f := Lookahead.text) (fun he => htext he.symm) h
    with ⟨k, hk, -, hmem, ht⟩ | ⟨x, u, -, -, hr⟩
  · rw [(hs k hmem).eq_of_text hk] at ht
    exact ht
  · exact absurd hr (by simp [fail])

/-- Kinds of tokens have different names. -/
theorem kind_name_injective {k k' : Token.Kind} (h : k.name = k'.name) : k = k' := by
  rcases k with _ | _ | _ | _ | _ | _ | _ | _ <;> rcases k' with _ | _ | _ | _ | _ | _ | _ | _ <;>
    first | rfl | exact absurd h (by decide)

/-- A token that was expected by its kind has been taken, with whatever text it has. -/
theorem expectKind_ok {kind : Token.Kind} {x : String} {s t : TokenStream}
    (h : (expectKind kind).run s = .ok x t) : .ok ⟨kind, x⟩ ∈ s.queue ∧ s.Takes [⟨kind, x⟩] t := by
  have hend : ¬Lookahead.endOfInput.kindName = kind.name := by
    rcases kind with _ | _ | _ | _ | _ | _ | _ | _ <;> decide
  rcases take_ok (c := fun x => x.kindName = kind.name) (f := Lookahead.text) hend h
    with ⟨k, hk, rfl, hmem, ht⟩ | ⟨x, u, -, -, hr⟩
  · obtain ⟨k, text⟩ := k
    obtain rfl := kind_name_injective hk
    exact ⟨hmem, ht⟩
  · exact absurd hr (by simp [fail])

/-- What was looked up has taken nothing. -/
theorem ofExcept_ok {x : Except Error α} {a : α} {s t : TokenStream}
    (h : (ofExcept x).run s = .ok a t) : x = .ok a ∧ t = s := by
  rcases x with e | b
  · exact absurd h (by simp [ofExcept, fail])
  · injection h with ha ht
    exact ⟨congrArg _ ha, ht.symm⟩

theorem ofExcept_bind_ok {x : Except Error α} {f : α → Parser β} {b : β} {s t : TokenStream}
    (h : (ofExcept x >>= f).run s = .ok b t) : ∃ a, x = .ok a ∧ (f a).run s = .ok b t := by
  obtain ⟨a, u, hx, h⟩ := run_bind_ok h
  obtain ⟨ha, hu⟩ := ofExcept_ok hx
  exact ⟨a, ha, hu ▸ h⟩

/-- Every further item stands behind a separator. The induction is on what remains of the stream. -/
theorem more_finds {separator : String} (hsep : separator ≠ Lookahead.endOfInput.text)
    {p : Parser α} {spell : β → List Token} {R : β → α → Prop} (hp : p.Finds spell R) :
    (more separator p hsep).Finds
      (fun xs : List β => xs.flatMap fun x => .ofText separator :: spell x)
      (List.Forall₂ R) := by
  intro s
  refine more_induction hsep (p := p) (motive := fun s => ∀ as t, s.IsLexical →
    (more separator p hsep).run s = .ok as t → ∃ xs, List.Forall₂ R xs as ∧
      s.Takes (xs.flatMap fun x => .ofText separator :: spell x) t) (fun s ih as t hs h => ?_) s
  rw [more_eq] at h
  obtain ⟨b, u, hn, h⟩ := run_bind_ok h
  rcases b with _ | _
  · injection h with ha ht
    subst ha ht
    exact ⟨[], .nil, nextIf_false hsep hn⟩
  · rw [if_pos rfl] at h
    have hu := nextIf_true hsep hs hn
    obtain ⟨a, v, hv, h⟩ := run_bind_ok h
    obtain ⟨x, hx, hxv⟩ := hp u a v (hu.isLexical hs) hv
    have huv := hu.trans hxv
    obtain ⟨as', w, hw, h⟩ := run_bind_ok h
    injection h with ha ht
    subst ha ht
    obtain ⟨xs, hxs, hvw⟩ := ih u v a hn hv as' w (huv.isLexical hs) hw
    exact ⟨x :: xs, .cons hx hxs, huv.trans hvw⟩

/-- A list with its first item is spelled with a separator between any two. -/
theorem separated_finds {separator : String} (hsep : separator ≠ Lookahead.endOfInput.text)
    {p : Parser α} {spell : β → List Token} {R : β → α → Prop} (hp : p.Finds spell R) :
    (separated separator p hsep).Finds (OneOrMore.spell separator spell)
      fun xs as => List.Forall₂ R xs.toList as := by
  intro s as t hs h
  obtain ⟨a, u, hu, h⟩ := run_bind_ok h
  obtain ⟨x, hx, hxu⟩ := hp s a u hs hu
  obtain ⟨as', v, hv, h⟩ := run_bind_ok h
  injection h with ha ht
  subst ha ht
  obtain ⟨xs, hxs, huv⟩ := more_finds hsep hp u as' v (hxu.isLexical hs) hv
  exact ⟨⟨x, xs⟩, .cons hx hxs, hxu.trans huv⟩

end Parser

/-! ## 3. The rules of the grammar -/

namespace Statement

open FlatQuery.Parser FlatQuery.Phrase

theorem name_finds : name.Finds (fun n => [Token.ofName n]) Eq :=
  fun _ n _ _ h => ⟨n, rfl, (expectKind_ok h).2⟩

/-- A literal stands for the text between its quotes. -/
theorem literal_finds :
    literal.Finds (fun v => [⟨.literal, v⟩]) fun v a => literalValue v = a := by
  intro s a t _ h
  obtain ⟨v, u, hv, h⟩ := run_bind_ok h
  injection h with ha ht
  subst ha ht
  exact ⟨v, rfl, (expectKind_ok hv).2⟩

/-- A reference is one name, or two with a dot between them. -/
theorem columnRef_finds : columnRef.Finds ColumnRef.spell Eq := by
  intro s r t hs h
  obtain ⟨first, u, hu, h⟩ := run_bind_ok h
  obtain ⟨_, rfl, hsu⟩ := name_finds s first u hs hu
  obtain ⟨b, v, hv, h⟩ := run_bind_ok h
  rcases b with _ | _
  · injection h with hr ht
    subst hr ht
    exact ⟨_, rfl, hsu.trans (nextIf_false (by decide) hv)⟩
  · rw [if_pos rfl] at h
    have hsv := hsu.trans (nextIf_true (by decide) (hsu.isLexical hs) hv)
    obtain ⟨second, w, hw, h⟩ := run_bind_ok h
    obtain ⟨_, rfl, hvw⟩ := name_finds v second w (hsv.isLexical hs) hw
    injection h with hr ht
    subst hr ht
    exact ⟨_, rfl, hsv.trans hvw⟩

/-- What is found under a name is an entry of the catalog. -/
theorem tableName_finds (c : Catalog) :
    (tableName c).Finds (fun n => [Token.ofName n]) fun n e => c.lookup n = .ok e := by
  intro s e t hs h
  obtain ⟨n, u, hn, h⟩ := run_bind_ok h
  obtain ⟨_, rfl, hsu⟩ := name_finds s n u hs hn
  obtain ⟨he, rfl⟩ := ofExcept_ok h
  exact ⟨_, he, hsu⟩

/-- A reference that is found can be resolved among the sources. -/
theorem boundColumn_finds (sources : List Table) :
    (boundColumn sources).Finds ColumnRef.spell fun r b =>
      ColumnRef.columnOf sources r = .ok b := by
  intro s b t hs h
  obtain ⟨r, u, hr, h⟩ := run_bind_ok h
  obtain ⟨_, rfl, hsu⟩ := columnRef_finds s r u hs hr
  obtain ⟨hb, rfl⟩ := ofExcept_ok h
  exact ⟨_, hb, hsu⟩

/-- An operand that is found is a literal or a reference. -/
theorem operand_finds (sources : List Table) :
    (operand sources).Finds Side.spell (Side.Reads sources) := by
  intro s o t hs h
  obtain ⟨kind, u, hk, h⟩ := run_bind_ok h
  obtain ⟨x, u', hl, hk⟩ := run_bind_ok hk
  injection hk with hkind hu
  subst hkind hu
  have hsu := (TokenStream.lookahead_takes hl).1
  split at h
  · obtain ⟨v, w, hv, h⟩ := run_bind_ok h
    obtain ⟨text, rfl, huw⟩ := literal_finds _ v w (hsu.isLexical hs) hv
    injection h with ho ht
    subst ho ht
    exact ⟨.literal text, .literal text, hsu.trans huw⟩
  · obtain ⟨b, w, hb, h⟩ := run_bind_ok h
    obtain ⟨r, hr, huw⟩ := boundColumn_finds sources _ b w (hsu.isLexical hs) hb
    injection h with ho ht
    subst ho ht
    exact ⟨.column r, .column hr, hsu.trans huw⟩

/-- A sign that stands for a relation is that relation's sign. -/
theorem symbol_of_ofSymbol? {symbol : String} {r : Relation}
    (h : Relation.ofSymbol? symbol = some r) : r.symbol = symbol := by
  unfold Relation.ofSymbol? at h
  split at h
  all_goals first | injection h with h; rw [← h]; rfl | simp at h

/-- A comparison is read from left to right: a reference, a sign, an operand. -/
theorem condition_finds (sources : List Table) :
    (condition sources).Finds Comparison.spell (Comparison.Reads sources) := by
  intro s c t hs h
  obtain ⟨left, u, hu, h⟩ := run_bind_ok h
  obtain ⟨r, hr, hsu⟩ := boundColumn_finds sources s left u hs hu
  obtain ⟨symbol, v, hv, h⟩ := run_bind_ok h
  have hsv := hsu.trans (expectKind_ok hv).2
  obtain ⟨right, w, hw, h⟩ := run_bind_ok h
  obtain ⟨side, hside, hvw⟩ := operand_finds sources v right w (hsv.isLexical hs) hw
  obtain ⟨hc, rfl⟩ := ofExcept_ok h
  unfold Condition.ofSymbol at hc
  rcases hsymbol : Relation.ofSymbol? symbol with _ | relation <;> rw [hsymbol] at hc
  · simp at hc
  · injection hc with hc
    rw [← symbol_of_ofSymbol? hsymbol] at hsv
    have hst := hsv.trans hvw
    rw [List.append_assoc] at hst
    subst hc
    exact ⟨⟨r, relation, side⟩, ⟨hr, rfl, hside⟩, hst⟩

/-- Where the word is missing there are no conditions. -/
theorem whereClause_finds (sources : List Table) :
    (whereClause sources).Finds spellWhere fun cs? cs =>
      List.Forall₂ (Comparison.Reads sources) (comparisons cs?) cs := by
  intro s cs t hs h
  obtain ⟨b, u, hu, h⟩ := run_bind_ok h
  rcases b with _ | _
  · injection h with hc ht
    subst hc ht
    exact ⟨none, .nil, nextIf_false (by decide) hu⟩
  · rw [if_pos rfl] at h
    have hsu := nextIf_true (by decide) hs hu
    obtain ⟨ps, hps, hut⟩ := separated_finds (by decide) (condition_finds sources) u cs t
      (hsu.isLexical hs) h
    exact ⟨some ps, hps, hsu.trans hut⟩

/-- A map that may fail succeeds exactly where each of its elements does. -/
theorem mapM_eq_ok_iff {α β : Type} {f : α → Except Error β} {xs : List α} {ys : List β} :
    xs.mapM f = .ok ys ↔ List.Forall₂ (fun x y => f x = .ok y) xs ys := by
  induction xs generalizing ys with
  | nil =>
    rw [List.mapM_nil, List.forall₂_nil_left_iff]
    exact ⟨fun h => (Except.ok.inj h).symm, fun h => h ▸ rfl⟩
  | cons x xs ih =>
    rw [List.mapM_cons]
    rcases hx : f x with e | y
    · refine ⟨fun h => by simp [bind, Except.bind] at h, fun h => ?_⟩
      obtain ⟨_, _, hy, -⟩ := List.forall₂_cons_left_iff.1 h
      rw [hx] at hy
      simp at hy
    · rcases hxs : xs.mapM f with e | zs
      · refine ⟨fun h => by simp [bind, Except.bind] at h, fun h => ?_⟩
        obtain ⟨_, us, -, hus, -⟩ := List.forall₂_cons_left_iff.1 h
        rw [ih.2 hus] at hxs
        simp at hxs
      · refine ⟨fun h => ?_, fun h => ?_⟩
        · injection h with h
          rw [← h]
          exact .cons hx (ih.1 hxs)
        · obtain ⟨z, us, hz, hus, rfl⟩ := List.forall₂_cons_left_iff.1 h
          rw [hx] at hz
          injection hz with hz
          rw [ih.2 hus] at hxs
          injection hxs with hxs
          rw [hz, hxs]
          rfl

/-- A query that is found lists columns and tables, and may have conditions. -/
theorem query_finds (c : Catalog) (resultName : String) :
    (query c resultName).Finds Clause.spell (Clause.Reads c resultName) := by
  intro s q t hs h
  obtain ⟨refs, u, hu, h⟩ := run_bind_ok h
  obtain ⟨columns, hcolumns, hsu⟩ := separated_finds (by decide) columnRef_finds s refs u hs hu
  rw [List.forall₂_eq_eq_eq] at hcolumns
  obtain ⟨result, hresult, h⟩ := ofExcept_bind_ok h
  obtain ⟨_, v, hv, h⟩ := run_bind_ok h
  have hsv := hsu.trans (expect_ok (by decide) (hsu.isLexical hs) hv)
  obtain ⟨entries, w, hw, h⟩ := run_bind_ok h
  obtain ⟨sources, hsources, hvw⟩ := separated_finds (by decide) (tableName_finds c) v entries w
    (hsv.isLexical hs) hw
  have hsw := hsv.trans hvw
  -- A query with too many sources has been refused.
  split at h
  · exact absurd h (by simp [fail])
  · rename_i hle
    obtain ⟨conditions, x, hx, h⟩ := run_bind_ok h
    obtain ⟨cs?, hcs, hwx⟩ := whereClause_finds _ w conditions x (hsw.isLexical hs) hx
    obtain ⟨bound, hbound, h⟩ := ofExcept_bind_ok h
    injection h with hq ht
    subst hq ht
    refine ⟨⟨columns, sources, cs?⟩, ⟨?_, ?_, ?_, ?_, hcs⟩, ?_⟩
    · rw [hcolumns]
      exact hresult
    · exact ⟨entries, hsources, rfl⟩
    · rw [List.length_map]
      exact Nat.le_of_not_lt hle
    · rw [hcolumns]
      exact mapM_eq_ok_iff.1 hbound
    · have hst := hsw.trans hwx
      rw [List.append_assoc, List.append_assoc] at hst
      exact hst

/-- A definition that is found is a list of titles, in parentheses, or a query behind its word. -/
theorem definition_finds (c : Catalog) (tableName : String) :
    (definition c tableName).Finds Body.spell (Body.Reads c tableName) := by
  intro s d t hs h
  obtain ⟨b, u, hu, h⟩ := run_bind_ok h
  rcases b with _ | _
  -- There was no parenthesis, so the definition is a query.
  · have hsu := nextIf_false (by decide) hu
    obtain ⟨_, v, hv, h⟩ := run_bind_ok h
    have hsv := hsu.trans (expect_ok (by decide) (hsu.isLexical hs) hv)
    obtain ⟨_, w, hw, h⟩ := run_bind_ok h
    have hsw := hsv.trans (expect_ok (by decide) (hsv.isLexical hs) hw)
    obtain ⟨q, x, hx, h⟩ := run_bind_ok h
    obtain ⟨p, hp, hwx⟩ := query_finds c tableName w q x (hsw.isLexical hs) hx
    injection h with hd ht
    subst hd ht
    exact ⟨.query p, .query hp, hsw.trans hwx⟩
  -- The parenthesis opens a list of titles.
  · rw [if_pos rfl] at h
    have hsu := nextIf_true (by decide) hs hu
    obtain ⟨titles, v, hv, h⟩ := run_bind_ok h
    obtain ⟨ts, hts, huv⟩ := separated_finds (by decide) name_finds u titles v
      (hsu.isLexical hs) hv
    rw [List.forall₂_eq_eq_eq] at hts
    have hsv := hsu.trans huv
    obtain ⟨_, w, hw, h⟩ := run_bind_ok h
    have hsw := hsv.trans (expect_ok (by decide) (hsv.isLexical hs) hw)
    obtain ⟨table, htable, h⟩ := ofExcept_bind_ok h
    injection h with hd ht
    subst hd ht
    refine ⟨.titles ts, .titles (by rw [hts]; exact htable), ?_⟩
    rw [List.append_assoc] at hsw
    exact hsw

/-- Values that are found stand in parentheses, both of them, or in none. -/
theorem values_finds :
    values.Finds (fun p : OneOrMore String × Bool => spellValues p.1 p.2) fun p vs =>
      p.1.toList.map literalValue = vs := by
  intro s vs t hs h
  obtain ⟨b, u, hu, h⟩ := run_bind_ok h
  obtain ⟨vs', v, hv, h⟩ := run_bind_ok h
  have hvalues : ∀ {us : OneOrMore String},
      List.Forall₂ (fun x a => literalValue x = a) us.toList vs' →
        us.toList.map literalValue = vs' := fun hus => by
    rw [← List.forall₂_eq_eq_eq, List.forall₂_map_left_iff]
    exact hus
  rcases b with _ | _
  · have hsu := nextIf_false (by decide) hu
    obtain ⟨us, hus, huv⟩ := separated_finds (by decide) literal_finds u vs' v
      (hsu.isLexical hs) hv
    injection h with ha ht
    subst ha ht
    exact ⟨⟨us, false⟩, hvalues hus, hsu.trans huv⟩
  · have hsu := nextIf_true (by decide) hs hu
    obtain ⟨us, hus, huv⟩ := separated_finds (by decide) literal_finds u vs' v
      (hsu.isLexical hs) hv
    have hsv := hsu.trans huv
    rw [if_pos rfl] at h
    obtain ⟨_, w, hw, h⟩ := run_bind_ok h
    have hsw := hsv.trans (expect_ok (by decide) (hsv.isLexical hs) hw)
    injection h with ha ht
    subst ha ht
    refine ⟨⟨us, true⟩, hvalues hus, ?_⟩
    rw [List.append_assoc] at hsw
    exact hsw

/-! ### Statements behind their keywords -/

/-- Whether what stands behind a keyword is only accepted as the rest of a command that
begins with it. -/
def BodyFinds (c : Catalog) (keyword : String) (p : Parser Statement) : Prop :=
  ∀ s st t, s.IsLexical → p.run s = .ok st t → ∃ (cmd : Command) (toks : List Token),
    cmd.Reads c st ∧ cmd.spell = .ofText keyword :: toks ∧ s.Takes (toks ++ [.terminator]) t

theorem terminator_ok {x : String} {s t : TokenStream} (hs : s.IsLexical)
    (h : (expect ";").run s = .ok x t) : s.Takes [.terminator] t :=
  expect_ok (by decide) hs h

/-- What is found behind the word is a name, a definition and the semicolon. -/
theorem createBody_finds (c : Catalog) : BodyFinds c "create" (createBody c) := by
  intro s st t hs h
  obtain ⟨_, u, hu, h⟩ := run_bind_ok h
  have hsu := expect_ok (by decide) hs hu
  obtain ⟨n, v, hv, h⟩ := run_bind_ok h
  obtain ⟨_, rfl, huv⟩ := name_finds u n v (hsu.isLexical hs) hv
  have hsv := hsu.trans huv
  obtain ⟨d, w, hw, h⟩ := run_bind_ok h
  obtain ⟨body, hbody, hvw⟩ := definition_finds c _ v d w (hsv.isLexical hs) hw
  have hsw := hsv.trans hvw
  obtain ⟨_, x, hx, h⟩ := run_bind_ok h
  injection h with hst ht
  subst hst ht
  exact ⟨_, _, .create hbody, rfl, hsw.trans (terminator_ok (hsw.isLexical hs) hx)⟩

/-- What is found behind the word is the name of a table, values that are as many as its columns,
and the semicolon. -/
theorem insertBody_finds (c : Catalog) : BodyFinds c "insert" (insertBody c) := by
  intro s st t hs h
  obtain ⟨_, u, hu, h⟩ := run_bind_ok h
  have hsu := expect_ok (by decide) hs hu
  obtain ⟨e, v, hv, h⟩ := run_bind_ok h
  obtain ⟨n, he, huv⟩ := tableName_finds c u e v (hsu.isLexical hs) hv
  have hsv := hsu.trans huv
  obtain ⟨_, w, hw, h⟩ := run_bind_ok h
  have hsw := hsv.trans (expect_ok (by decide) (hsv.isLexical hs) hw)
  obtain ⟨vs, x, hx, h⟩ := run_bind_ok h
  obtain ⟨⟨us, parenthesized⟩, rfl, hwx⟩ := values_finds w vs x (hsw.isLexical hs) hx
  have hsx := hsw.trans hwx
  obtain ⟨_, y, hy, h⟩ := run_bind_ok h
  injection h with hst ht
  subst hst ht
  exact ⟨.insert n us parenthesized, _, .insert he, rfl,
    hsx.trans (terminator_ok (hsx.isLexical hs) hy)⟩

/-- Loads, stores and prints are found by a name and the semicolon. -/
theorem namedBody_finds {c : Catalog} {keyword : String} {build : String → Statement}
    {command : String → Command} (hreads : ∀ n, (command n).Reads c (build n))
    (hspell : ∀ n, (command n).spell = [.ofText keyword, .ofName n]) :
    BodyFinds c keyword (namedBody build) := by
  intro s st t hs h
  obtain ⟨n, u, hu, h⟩ := run_bind_ok h
  obtain ⟨_, rfl, hsu⟩ := name_finds s n u hs hu
  obtain ⟨_, v, hv, h⟩ := run_bind_ok h
  injection h with hst ht
  subst hst ht
  exact ⟨_, _, hreads _, hspell _, hsu.trans (terminator_ok (hsu.isLexical hs) hv)⟩

/-- A query that is shown is given no name of its own. -/
theorem selectBody_finds (c : Catalog) : BodyFinds c "select" (selectBody c) := by
  intro s st t hs h
  obtain ⟨q, u, hu, h⟩ := run_bind_ok h
  obtain ⟨p, hp, hsu⟩ := query_finds c selectionName s q u hs hu
  obtain ⟨_, v, hv, h⟩ := run_bind_ok h
  injection h with hst ht
  subst hst ht
  exact ⟨_, _, .select hp, rfl, hsu.trans (terminator_ok (hsu.isLexical hs) hv)⟩

theorem exitBody_finds {c : Catalog} {keyword : String} {command : Command}
    (hreads : command.Reads c .exit) (hspell : command.spell = [.ofText keyword]) :
    BodyFinds c keyword exitBody := by
  intro s st t hs h
  obtain ⟨_, v, hv, h⟩ := run_bind_ok h
  injection h with hst ht
  subst hst ht
  exact ⟨_, _, hreads, hspell, terminator_ok hs hv⟩

/-- Whatever the keyword, what is found behind it is the rest of a command with that keyword. -/
theorem body_finds {c : Catalog} {keyword : String} {p : Parser Statement}
    (h : body? c keyword = some p) : BodyFinds c keyword p := by
  unfold body? at h
  split at h
  all_goals first | injection h with h; rw [← h] | exact absurd h (by simp)
  · exact createBody_finds c
  · exact insertBody_finds c
  · exact namedBody_finds .load fun _ => rfl
  · exact namedBody_finds .store fun _ => rfl
  · exact namedBody_finds .print fun _ => rfl
  · exact selectBody_finds c
  · exact exitBody_finds .exit rfl
  · exact exitBody_finds .quit rfl

/-- **What is accepted is spelled by a command.** A statement that has been read is what
some command means, and the tokens read are those of the command and its semicolon. -/
theorem next?_finds {c : Catalog} {s t : TokenStream} {st : Statement} (hs : s.IsLexical)
    (h : (next? c).run s = .ok (some st) t) :
    ∃ cmd : Command, cmd.Reads c st ∧ s.Takes (cmd.spell ++ [.terminator]) t := by
  obtain ⟨a, u, hl, h⟩ := run_bind_ok h
  obtain ⟨hsu, ⟨rfl, -⟩ | ⟨k, rfl, hk, hku⟩⟩ := TokenStream.lookahead_takes hl
  · injection h with hst
    simp at hst
  · dsimp only at h
    rcases hbody : body? c k.text with _ | p <;> rw [hbody] at h
    · exact absurd h (by simp [fail])
    · have hsk := hsu.trans hku
      obtain ⟨_, v, hv, h⟩ := run_bind_ok h
      injection hv with _ hv
      subst hv
      obtain ⟨st', w, hw, h⟩ := run_bind_ok h
      injection h with hst ht
      injection hst with hst
      subst hst ht
      obtain ⟨cmd, toks, hreads, hspell, htoks⟩ :=
        body_finds hbody _ st' w (hsk.isLexical hs) hw
      refine ⟨cmd, hreads, ?_⟩
      rw [(hs k hk).eq_of_text rfl] at hsk
      rw [hspell]
      exact hsk.trans htoks

end Statement

end FlatQuery
