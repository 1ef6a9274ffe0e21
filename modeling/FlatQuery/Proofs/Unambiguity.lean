import FlatQuery.Proofs.Phrase

/-!
# A command can be told from its tokens

No two commands are spelled alike (`Phrase.Command.spell_injective`). No word is reserved, so
the token of a keyword in one place is that of a name in another, and it is the place that
tells them apart: a list of columns goes on where a comma follows and a column where a dot
does, whatever the name before it was.

So the spelling of a phrase in front of other tokens has to be looked at together with the
token behind it. Where that token cannot go on with the phrase (`Token.Stops`), both the phrase
and what stands behind it are determined, and this passes from the parts of a phrase to the
whole.
-/

set_option autoImplicit false

namespace FlatQuery

/-- Whether the next token, if there is one, has none of some texts. -/
def Token.Stops (texts : List String) (l : List Token) : Prop := ∀ k ∈ l.head?, k.text ∉ texts

theorem Token.stops_nil (texts : List String) : Stops texts [] := fun _ hk => by cases hk

/-- A token of none of some texts stops a list that goes on with one of them. -/
theorem Token.stops_cons {texts : List String} {k : Token} (h : k.text ∉ texts)
    (l : List Token) : Stops texts (k :: l) := by
  rintro k' ⟨⟩
  exact h

/-! ## 1. Lists -/

namespace OneOrMore

open FlatQuery.Token

variable {α : Type} {separator : String} {texts : List String} {item : α → List Token}

/-- What stops a list stops its items, be there more of them or not. -/
theorem stops_others (hsep : separator ∉ texts) {l : List Token}
    (hl : Stops (separator :: texts) l) (xs : List α) :
    Stops texts ((xs.flatMap fun x => .ofText separator :: item x) ++ l) := by
  rcases xs with _ | ⟨x, xs⟩
  · exact fun k hk hmem => hl k hk (List.mem_cons_of_mem _ hmem)
  · exact stops_cons hsep _

variable (hsep : separator ∉ texts)
  (hitem : ∀ x y l m, Stops texts l → Stops texts m → item x ++ l = item y ++ m → x = y ∧ l = m)
include hsep hitem

/-- The further items of a list are determined, and so is what stands behind them. The induction is
on the first list. -/
theorem others_inj {xs ys : List α} {l m : List Token} (hl : Stops (separator :: texts) l)
    (hm : Stops (separator :: texts) m)
    (h : (xs.flatMap fun x => .ofText separator :: item x) ++ l =
      (ys.flatMap fun y => .ofText separator :: item y) ++ m) : xs = ys ∧ l = m := by
  induction xs generalizing ys with
  | nil =>
    rcases ys with _ | ⟨y, ys⟩
    · exact ⟨rfl, h⟩
    · rw [show l = _ from h] at hl
      exact absurd List.mem_cons_self (hl _ rfl)
  | cons x xs ih =>
    rcases ys with _ | ⟨y, ys⟩
    · rw [show m = _ from h.symm] at hm
      exact absurd List.mem_cons_self (hm _ rfl)
    · rw [List.flatMap_cons, List.flatMap_cons, List.append_assoc, List.append_assoc] at h
      obtain ⟨rfl, hrest⟩ := hitem x y _ _ (stops_others hsep hl xs) (stops_others hsep hm ys)
        (List.cons.inj h).2
      obtain ⟨rfl, hlm⟩ := ih hrest
      exact ⟨rfl, hlm⟩

/-- Where its items can be told from their tokens, so can a list. -/
theorem spell_inj {xs ys : OneOrMore α} {l m : List Token} (hl : Stops (separator :: texts) l)
    (hm : Stops (separator :: texts) m)
    (h : xs.spell separator item ++ l = ys.spell separator item ++ m) : xs = ys ∧ l = m := by
  obtain ⟨x, xs⟩ := xs
  obtain ⟨y, ys⟩ := ys
  rw [spell, spell, List.append_assoc, List.append_assoc] at h
  obtain ⟨rfl, hrest⟩ := hitem x y _ _ (stops_others hsep hl xs) (stops_others hsep hm ys) h
  obtain ⟨rfl, hlm⟩ := others_inj hsep hitem hl hm hrest
  exact ⟨rfl, hlm⟩

end OneOrMore

/-- A list of single tokens goes on as long as there are commas. -/
theorem OneOrMore.spell_single_inj {token : String → Token} (htoken : Function.Injective token)
    {xs ys : OneOrMore String} {l m : List Token} (hl : Token.Stops [","] l)
    (hm : Token.Stops [","] m)
    (h : xs.spell "," (fun x => [token x]) ++ l = ys.spell "," (fun x => [token x]) ++ m) :
    xs = ys ∧ l = m := by
  refine spell_inj List.not_mem_nil (fun x y l m _ _ h => ?_) hl hm h
  obtain ⟨hxy, hlm⟩ := List.cons.inj h
  exact ⟨htoken hxy, hlm⟩

/-- Names are written as they are. -/
theorem Token.ofName_injective : Function.Injective Token.ofName :=
  fun _ _ h => congrArg Token.text h

theorem Token.literal_injective : Function.Injective (Token.mk .literal) :=
  fun _ _ h => congrArg Token.text h

/-! ## 2. Clauses -/

/-- A column goes on where a dot follows. -/
theorem ColumnRef.spell_inj (r s : ColumnRef) (l m : List Token) (hl : Token.Stops ["."] l)
    (hm : Token.Stops ["."] m) (h : r.spell ++ l = s.spell ++ m) : r = s ∧ l = m := by
  obtain ⟨n, _ | q⟩ := r
  · obtain ⟨n', _ | q'⟩ := s
    · obtain ⟨hn, hlm⟩ := List.cons.inj h
      obtain rfl : n = n' := Token.ofName_injective hn
      exact ⟨rfl, hlm⟩
    · rw [show l = _ from (List.cons.inj h).2] at hl
      exact absurd (List.mem_singleton.2 rfl) (hl _ rfl)
  · obtain ⟨n', _ | q'⟩ := s
    · rw [show m = _ from (List.cons.inj h).2.symm] at hm
      exact absurd (List.mem_singleton.2 rfl) (hm _ rfl)
    · obtain ⟨hq, h⟩ := List.cons.inj h
      obtain ⟨hn, hlm⟩ := List.cons.inj (List.cons.inj h).2
      obtain rfl : q = q' := Token.ofName_injective hq
      obtain rfl : n = n' := Token.ofName_injective hn
      exact ⟨rfl, hlm⟩

/-- Relations have different signs. -/
theorem Relation.symbol_injective : Function.Injective Relation.symbol := by
  intro r s h
  have hsome := congrArg Relation.ofSymbol? h
  rw [ofSymbol?_symbol, ofSymbol?_symbol] at hsome
  exact Option.some.inj hsome

namespace Phrase

open FlatQuery.Token

/-- The kind of its first token says whether the right side of a comparison is a literal. -/
theorem Side.spell_inj (p q : Side) (l m : List Token) (hl : Stops ["."] l)
    (hm : Stops ["."] m) (h : p.spell ++ l = q.spell ++ m) : p = q ∧ l = m := by
  have hcolumn : ∀ (text : String) (r : ColumnRef) (l m : List Token),
      (Side.literal text).spell ++ l ≠ (Side.column r).spell ++ m := by
    rintro text ⟨n, _ | q⟩ l m h
    · exact Kind.noConfusion (congrArg Token.kind (List.cons.inj h).1)
    · exact Kind.noConfusion (congrArg Token.kind (List.cons.inj h).1)
  rcases p with text | r
  · rcases q with text' | s
    · obtain ⟨htext, hlm⟩ := List.cons.inj h
      rw [literal_injective htext]
      exact ⟨rfl, hlm⟩
    · exact absurd h (hcolumn text s l m)
  · rcases q with text' | s
    · exact absurd h.symm (hcolumn text' r m l)
    · obtain ⟨rfl, hlm⟩ := ColumnRef.spell_inj r s l m hl hm h
      exact ⟨rfl, hlm⟩

/-- A comparison is determined by its spelling and what follows, and so is that. -/
theorem Comparison.spell_inj (p q : Comparison) (l m : List Token) (hl : Stops ["."] l)
    (hm : Stops ["."] m) (h : p.spell ++ l = q.spell ++ m) : p = q ∧ l = m := by
  have hrelation : ∀ r : Relation, r.symbol ∉ ["."] := by
    intro r
    rcases r with _ | _ | _ | _ | _ | _ <;> decide
  obtain ⟨left, r, right⟩ := p
  obtain ⟨left', r', right'⟩ := q
  rw [spell, spell, List.append_assoc, List.append_assoc] at h
  obtain ⟨rfl, h⟩ := ColumnRef.spell_inj left left' _ _ (stops_cons (hrelation r) _)
    (stops_cons (hrelation r') _) h
  obtain ⟨hsymbol, h⟩ := List.cons.inj h
  obtain rfl := Relation.symbol_injective (congrArg Token.text hsymbol)
  obtain ⟨rfl, hlm⟩ := Side.spell_inj right right' l m hl hm h
  exact ⟨rfl, hlm⟩

/-- Conditions begin with their word, or there are none. -/
theorem stops_spellWhere (cs : Option (OneOrMore Comparison)) : Stops [","] (spellWhere cs) := by
  rcases cs with _ | cs
  · exact stops_nil _
  · exact stops_cons (by decide) _

/-- Conditions are determined by their spelling. -/
theorem spellWhere_injective : Function.Injective spellWhere := by
  intro cs ds h
  rcases cs with _ | cs
  · rcases ds with _ | ds
    · rfl
    · cases h
  · rcases ds with _ | ds
    · cases h
    · have hsame := (List.cons.inj h).2
      rw [← List.append_nil (cs.spell _ _), ← List.append_nil (ds.spell _ _)] at hsame
      obtain ⟨rfl, -⟩ := OneOrMore.spell_inj (by decide) Comparison.spell_inj (stops_nil _)
        (stops_nil _) hsame
      rfl

/-- A clause is determined by its spelling: the words in it stop each of its lists. -/
theorem Clause.spell_injective : Function.Injective Clause.spell := by
  intro p q h
  obtain ⟨columns, sources, comparisons?⟩ := p
  obtain ⟨columns', sources', comparisons?'⟩ := q
  rw [spell, spell] at h
  obtain ⟨rfl, h⟩ := OneOrMore.spell_inj (by decide) ColumnRef.spell_inj
    (stops_cons (by decide) _) (stops_cons (by decide) _) h
  obtain ⟨rfl, hwhere⟩ := OneOrMore.spell_single_inj ofName_injective
    (stops_spellWhere comparisons?) (stops_spellWhere comparisons?') (List.cons.inj h).2
  obtain rfl : comparisons? = comparisons?' := spellWhere_injective hwhere
  rfl

/-! ## 3. Commands -/

/-- What a table is created from is determined by its spelling. -/
theorem Body.spell_injective : Function.Injective Body.spell := by
  intro b b' h
  rcases b with ts | p
  · rcases b' with ts' | p'
    · obtain ⟨rfl, -⟩ := OneOrMore.spell_single_inj ofName_injective
        (stops_cons (by decide) []) (stops_cons (by decide) []) (List.cons.inj h).2
      rfl
    · exact absurd (congrArg Token.text (List.cons.inj h).1) (by decide)
  · rcases b' with ts' | p'
    · exact absurd (congrArg Token.text (List.cons.inj h).1) (by decide)
    · rw [Clause.spell_injective (List.cons.inj (List.cons.inj h).2).2]

/-- Its first token says whether a list of values stands in parentheses. -/
theorem spellValues_inj {vs vs' : OneOrMore String} {b b' : Bool}
    (h : spellValues vs b = spellValues vs' b') : vs = vs' ∧ b = b' := by
  have hparenthesis : (Token.ofText "(").kind ≠ .literal := by decide
  rcases b with _ | _
  · rcases b' with _ | _
    · rw [spellValues, spellValues, if_neg Bool.false_ne_true, if_neg Bool.false_ne_true,
        ← List.append_nil (vs.spell _ _), ← List.append_nil (vs'.spell _ _)] at h
      exact ⟨(OneOrMore.spell_single_inj literal_injective (stops_nil _) (stops_nil _) h).1, rfl⟩
    · exact absurd (congrArg Token.kind (List.cons.inj h).1).symm hparenthesis
  · rcases b' with _ | _
    · exact absurd (congrArg Token.kind (List.cons.inj h).1) hparenthesis
    · rw [spellValues, spellValues, if_pos rfl, if_pos rfl] at h
      exact ⟨(OneOrMore.spell_single_inj literal_injective (stops_cons (by decide) [])
        (stops_cons (by decide) []) (List.cons.inj h).2).1, rfl⟩

/-- The word that opens a command. -/
def Command.keyword : Command → String
  | .create _ _ => "create"
  | .insert _ _ _ => "insert"
  | .load _ => "load"
  | .store _ => "store"
  | .print _ => "print"
  | .select _ => "select"
  | .exit => "exit"
  | .quit => "quit"

/-- Commands that are spelled alike have one keyword, which is their first token. -/
theorem Command.keyword_eq {a b : Command} (h : a.spell = b.spell) : a.keyword = b.keyword := by
  have hhead : ∀ cmd : Command, cmd.spell.head? = some (.ofText cmd.keyword) := by
    intro cmd
    rcases cmd with _ | _ | _ | _ | _ | _ | _ | _ <;> rfl
  have hsome := hhead a
  rw [h, hhead b] at hsome
  exact (congrArg Token.text (Option.some.inj hsome)).symm

/-- **No two commands have the same tokens.** -/
theorem Command.spell_injective : Function.Injective Command.spell := by
  intro a b h
  -- The keywords agree, so only commands with one keyword are left to compare.
  have hkeyword := keyword_eq h
  cases a with
  | create n body =>
    cases b with
    | create n' body' =>
      obtain ⟨hn, h⟩ := List.cons.inj (List.cons.inj (List.cons.inj h).2).2
      rw [ofName_injective hn, Body.spell_injective h]
    | _ => exact absurd hkeyword (by simp [keyword])
  | insert n vs parenthesized =>
    cases b with
    | insert n' vs' parenthesized' =>
      obtain ⟨hn, h⟩ := List.cons.inj (List.cons.inj (List.cons.inj h).2).2
      obtain ⟨rfl, rfl⟩ := spellValues_inj (List.cons.inj h).2
      rw [ofName_injective hn]
    | _ => exact absurd hkeyword (by simp [keyword])
  | load n =>
    cases b with
    | load n' => rw [ofName_injective (List.cons.inj (List.cons.inj h).2).1]
    | _ => exact absurd hkeyword (by simp [keyword])
  | store n =>
    cases b with
    | store n' => rw [ofName_injective (List.cons.inj (List.cons.inj h).2).1]
    | _ => exact absurd hkeyword (by simp [keyword])
  | print n =>
    cases b with
    | print n' => rw [ofName_injective (List.cons.inj (List.cons.inj h).2).1]
    | _ => exact absurd hkeyword (by simp [keyword])
  | select p =>
    cases b with
    | select p' => rw [Clause.spell_injective (List.cons.inj h).2]
    | _ => exact absurd hkeyword (by simp [keyword])
  | exit =>
    cases b with
    | exit => rfl
    | _ => exact absurd hkeyword (by simp [keyword])
  | quit =>
    cases b with
    | quit => rfl
    | _ => exact absurd hkeyword (by simp [keyword])

end Phrase

end FlatQuery
