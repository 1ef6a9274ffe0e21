import FlatQuery.Proofs.Reading

/-!
# What is spelled is read

The spelling of a phrase that means something is accepted, with its meaning for the result,
and the tokens of the phrase are consumed and no others. That is `Parser.Accepts`, and
`Statement.next?_accepts` says it of a whole statement. Together with `Statement.next?_finds`
it settles what the grammar accepts.

This direction has to look behind the phrase, because a parser for a list goes on where a
separator follows, and a parser for a column where a dot does. What may follow is a condition
on the rest of the queue. It is met inside a statement by the phrase's neighbour and at its
end by the semicolon.
-/

set_option autoImplicit false

namespace FlatQuery

/-! ## 1. What may follow -/

/-- Whether the next thing to come is a token of none of the given texts. -/
def Before (texts : List String) (rest : List Arrival) : Prop :=
  ∃ k rest', rest = .ok k :: rest' ∧ k.text ∉ texts

theorem Before.mono {texts texts' : List String} {rest : List Arrival} (h : Before texts rest)
    (hsub : texts' ⊆ texts) : Before texts' rest := by
  obtain ⟨k, rest', hrest, hk⟩ := h
  exact ⟨k, rest', hrest, fun hk' => hk (hsub hk')⟩

theorem before_ofText {texts : List String} {text : String} (h : text ∉ texts)
    (rest : List Arrival) : Before texts (.ok (.ofText text) :: rest) := ⟨_, rest, rfl, h⟩

/-! ## 2. What is accepted -/

namespace Parser

variable {α β γ : Type}

/-- Whether a parser accepts some tokens with a result, where the rest of the queue is as
`F` says. -/
def Accepts (p : Parser α) (F : List Arrival → Prop) (toks : List Token) (a : α) : Prop :=
  ∀ s rest, s.queue = arrivals toks ++ rest → F rest → ∃ t, p.run s = .ok a t ∧ s.Takes toks t

/-- Nothing is asked of the rest. -/
abbrev Anything (_ : List Arrival) : Prop := True

theorem Accepts.pure (a : α) (F : List Arrival → Prop) :
    (pure a : Parser α).Accepts F [] a := fun s _ _ _ => ⟨s, rfl, rfl, rfl⟩

/-- What is accepted before many things is accepted before fewer. -/
theorem Accepts.mono {p : Parser α} {F G : List Arrival → Prop} {toks : List Token} {a : α}
    (h : p.Accepts F toks a) (hFG : ∀ rest, G rest → F rest) : p.Accepts G toks a :=
  fun s rest hq hG => h s rest hq (hFG rest hG)

/-- Two spellings are accepted one after the other, where the second may follow the first. -/
theorem Accepts.bind {p : Parser α} {f : α → Parser β} {F G : List Arrival → Prop}
    {l r : List Token} {a : α} {b : β} (hp : p.Accepts F l a) (hf : (f a).Accepts G r b)
    (hFG : ∀ rest, G rest → F (arrivals r ++ rest)) : (p >>= f).Accepts G (l ++ r) b := by
  intro s rest hq hrest
  rw [arrivals_append, List.append_assoc] at hq
  obtain ⟨t, ht, hst⟩ := hp s _ hq (hFG rest hrest)
  obtain ⟨u, hu, htu⟩ := hf t rest (hst.queue_rest hq) hrest
  refine ⟨u, ?_, hst.trans htu⟩
  rw [run_bind, ht]
  exact hu

/-- A result can be made of what was accepted. -/
theorem Accepts.map {p : Parser α} {F : List Arrival → Prop} {l : List Token} {a : α}
    (hp : p.Accepts F l a) (f : α → β) :
    Accepts (do let a ← p; return f a) F l (f a) := by
  intro s rest hq hrest
  obtain ⟨t, ht, hst⟩ := hp s rest hq hrest
  refine ⟨t, ?_, hst⟩
  rw [run_bind, ht]
  rfl

/-- What can be looked up is accepted without a token. -/
theorem Accepts.ofExcept {x : Except Error α} {a : α} (hx : x = .ok a)
    (F : List Arrival → Prop) : (ofExcept x).Accepts F [] a := by
  rw [hx]
  exact .pure a F

/-- A token that is first in the queue stands next, and consuming takes it. -/
theorem lookahead_of_arrival {s : TokenStream} {k : Token} {rest : List Arrival}
    (h : s.queue = .ok k :: rest) :
    ∃ t, s.lookahead = .ok (.token k) t ∧ s.Takes [] t ∧ t.Takes [k] t.consume := by
  obtain ⟨t, hl, -⟩ := TokenStream.lookahead_of_ok h
  obtain ⟨hst, ⟨hk, -⟩ | ⟨k', hk, -, htk⟩⟩ := TokenStream.lookahead_takes hl
  · simp at hk
  · injection hk with hk
    exact ⟨t, hl, hst, hk ▸ htk⟩

/-- A choice for the next token takes it. -/
theorem take_accepts {c : Lookahead → Prop} [DecidablePred c] {f : Lookahead → α}
    {p : Lookahead → Parser α} {k : Token} (hk : c (.token k)) (F : List Arrival → Prop) :
    Accepts (do
      let x ← lookahead
      if c x then
        consume
        return f x
      else p x) F [k] (f (.token k)) := by
  intro s rest hq _
  obtain ⟨t, hl, hst, htk⟩ := lookahead_of_arrival hq
  refine ⟨t.consume, ?_, hst.trans htk⟩
  rw [run_lookahead_bind, hl]
  dsimp only
  rw [if_pos hk]
  rfl

/-- A word that may be there is taken if it is. -/
theorem nextIf_accepts (text : String) (F : List Arrival → Prop) :
    (nextIf text).Accepts F [.ofText text] true :=
  take_accepts (c := fun x => x.text = text) (f := fun _ => true) (k := .ofText text) rfl F

/-- Where another token stands next, the word counts as missing. -/
theorem nextIf_accepts_none (text : String) : (nextIf text).Accepts (Before [text]) [] false := by
  rintro s rest hq ⟨k, rest', rfl, hk⟩
  obtain ⟨t, hl, hst, -⟩ := lookahead_of_arrival hq
  refine ⟨t, ?_, hst⟩
  rw [nextIf, run_lookahead_bind, hl]
  dsimp only
  rw [if_neg (show Lookahead.text (.token k) ≠ text from fun he => hk (List.mem_singleton.2 he))]
  rfl

theorem expect_accepts (text : String) (F : List Arrival → Prop) :
    (expect text).Accepts F [.ofText text] text :=
  take_accepts (c := fun x => x.text = text) (f := Lookahead.text) (k := .ofText text) rfl F

/-- A token of the kind that is expected is taken, whatever its text. -/
theorem expectKind_accepts (kind : Token.Kind) (text : String) (F : List Arrival → Prop) :
    (expectKind kind).Accepts F [⟨kind, text⟩] text :=
  take_accepts (c := fun x => x.kindName = kind.name) (f := Lookahead.text) (k := ⟨kind, text⟩)
    rfl F

/-- Further items are accepted with their separators, where none follows the last. The induction is
on the items. -/
theorem more_accepts {separator : String} (hsep : separator ≠ Lookahead.endOfInput.text)
    {p : Parser α} {spell : β → List Token} {R : β → α → Prop} {F : List Arrival → Prop}
    (hF : ∀ rest, F (.ok (.ofText separator) :: rest))
    (hp : ∀ x a, R x a → p.Accepts F (spell x) a) {xs : List β} {as : List α}
    (h : List.Forall₂ R xs as) :
    (more separator p hsep).Accepts (fun rest => F rest ∧ Before [separator] rest)
      (xs.flatMap fun x => .ofText separator :: spell x) as := by
  induction h with
  | nil =>
    rw [more_eq]
    exact (nextIf_accepts_none separator).bind (.pure [] _) fun rest h => h.2
  | @cons x a xs as hx _ ih =>
    rw [more_eq]
    refine (nextIf_accepts separator Anything).bind ?_ fun _ _ => trivial
    refine (hp x a hx).bind (ih.map _) fun rest hrest => ?_
    -- Behind an item stands the next separator, or what is behind the list.
    rcases xs with _ | ⟨y, ys⟩
    · exact hrest.1
    · exact hF _

/-- A list is accepted where no separator follows it. -/
theorem separated_accepts {separator : String} (hsep : separator ≠ Lookahead.endOfInput.text)
    {p : Parser α} {spell : β → List Token} {R : β → α → Prop} {F : List Arrival → Prop}
    (hF : ∀ rest, F (.ok (.ofText separator) :: rest))
    (hp : ∀ x a, R x a → p.Accepts F (spell x) a) {xs : OneOrMore β} {as : List α}
    (h : List.Forall₂ R xs.toList as) :
    (separated separator p hsep).Accepts (fun rest => F rest ∧ Before [separator] rest)
      (xs.spell separator spell) as := by
  obtain ⟨first, others⟩ := xs
  obtain ⟨a, as', ha, has, rfl⟩ := List.forall₂_cons_left_iff.1 h
  refine (hp first a ha).bind ((more_accepts hsep hF hp has).map _) fun rest hrest => ?_
  rcases others with _ | ⟨y, ys⟩
  · exact hrest.1
  · exact hF _

end Parser

/-! ## 3. The rules of the grammar -/

namespace Statement

open FlatQuery.Parser FlatQuery.Phrase

theorem name_accepts (n : String) (F : List Arrival → Prop) :
    name.Accepts F [.ofName n] n := expectKind_accepts .identifier n F

theorem literal_accepts (text : String) (F : List Arrival → Prop) :
    literal.Accepts F [⟨.literal, text⟩] (literalValue text) :=
  (expectKind_accepts .literal text F).map _

/-- A reference is accepted where no dot follows, which would make a longer one of it. -/
theorem columnRef_accepts (r : ColumnRef) : columnRef.Accepts (Before ["."]) r.spell r := by
  obtain ⟨n, _ | q⟩ := r
  · refine (name_accepts n (Before ["."])).bind ?_ fun _ h => h
    exact (nextIf_accepts_none ".").bind (.pure _ _) fun _ h => h
  · refine (name_accepts q Anything).bind ?_ fun _ _ => trivial
    refine (nextIf_accepts "." Anything).bind ?_ fun _ _ => trivial
    exact (name_accepts n _).map _

theorem tableName_accepts {c : Catalog} {n : String} {e : Catalog.Entry}
    (h : c.lookup n = .ok e) : (tableName c).Accepts Anything [.ofName n] e :=
  (name_accepts n Anything).bind (.ofExcept h _) fun _ _ => trivial

/-- A reference that can be resolved is accepted like any other. -/
theorem boundColumn_accepts {sources : List Table} {r : ColumnRef}
    {b : BoundColumn sources.length} (h : ColumnRef.columnOf sources r = .ok b) :
    (boundColumn sources).Accepts (Before ["."]) r.spell b := by
  have hbind := (columnRef_accepts r).bind
    (f := fun r => ofExcept (ColumnRef.columnOf sources r)) (.ofExcept h (Before ["."]))
    fun _ hr => hr
  rw [List.append_nil] at hbind
  exact hbind

/-- The right side of a comparison shows by its first token what it is. -/
theorem operand_accepts {sources : List Table} {p : Side} {o : Operand sources.length}
    (h : p.Reads sources o) : (operand sources).Accepts (Before ["."]) p.spell o := by
  intro s rest hq hrest
  -- Which branch is taken is seen from the first token.
  have hkind : ∃ k rest', s.queue = .ok k :: rest' ∧
      (k.kind.name = Token.Kind.literal.name ↔ ∃ text, p = .literal text) := by
    rcases h with text | ⟨hb⟩
    · exact ⟨_, _, hq, by simp⟩
    · rename_i r b
      obtain ⟨n, _ | q⟩ := r
      · exact ⟨_, _, hq, by simp [Token.ofName, Token.Kind.name]⟩
      · exact ⟨_, _, hq, by simp [Token.ofName, Token.Kind.name]⟩
  obtain ⟨k, rest', hq', hk⟩ := hkind
  obtain ⟨t, hl, hst, -⟩ := lookahead_of_arrival hq'
  have hqt := hst.queue_rest (l := []) hq
  have hpeek : peekKind.run s = .ok k.kind.name t := by
    rw [peekKind, run_lookahead_bind, hl]
    rfl
  rw [operand, run_bind, hpeek]
  dsimp only
  rcases h with text | ⟨hb⟩
  · rw [if_pos (hk.2 ⟨text, rfl⟩)]
    obtain ⟨u, hu, htu⟩ := (literal_accepts text _).map (Operand.literal (m := sources.length))
      t rest hqt hrest
    exact ⟨u, hu, hst.trans htu⟩
  · rw [if_neg fun h => by simpa using hk.1 h]
    obtain ⟨u, hu, htu⟩ := (boundColumn_accepts hb).map Operand.column t rest hqt hrest
    exact ⟨u, hu, hst.trans htu⟩

/-- A comparison is accepted where its operand is. -/
theorem condition_accepts {sources : List Table} {p : Comparison}
    {c : Condition sources.length} (h : p.Reads sources c) :
    (condition sources).Accepts (Before ["."]) p.spell c := by
  obtain ⟨left, relation, right⟩ := c
  obtain ⟨hleft, rfl, hright⟩ := h
  have hsymbol : Condition.ofSymbol left p.relation.symbol right =
      .ok ⟨left, p.relation, right⟩ := by
    rw [Condition.ofSymbol, Relation.ofSymbol?_symbol]
  have hend := (operand_accepts hright).bind (f := fun o => ofExcept
    (Condition.ofSymbol left p.relation.symbol o)) (.ofExcept hsymbol (Before ["."])) fun _ h => h
  rw [List.append_nil] at hend
  refine (boundColumn_accepts hleft).bind
    ((expectKind_accepts .relation p.relation.symbol Anything).bind hend fun _ _ => trivial) ?_
  intro rest _
  rcases p.relation with _ | _ | _ | _ | _ | _ <;> exact ⟨_, _, rfl, by decide⟩

/-- Conditions are accepted where no further one follows. -/
theorem whereClause_accepts {sources : List Table} {ps? : Option (OneOrMore Comparison)}
    {cs : List (Condition sources.length)}
    (h : List.Forall₂ (Comparison.Reads sources) (comparisons ps?) cs) :
    (whereClause sources).Accepts (Before ["where", "and", "."]) (spellWhere ps?) cs := by
  rcases ps? with _ | ps
  · rw [List.forall₂_nil_left_iff.1 h]
    exact (nextIf_accepts_none "where").bind (.pure [] _) fun _ hrest => hrest.mono (by simp)
  · have hps : (conjunction sources).Accepts
        (fun rest => Before ["."] rest ∧ Before ["and"] rest)
        (ps.spell "and" Comparison.spell) cs :=
      separated_accepts (R := Comparison.Reads sources) (by decide) (before_ofText (by decide))
        (fun _ _ => condition_accepts) h
    refine (nextIf_accepts "where" Anything).bind (hps.mono fun _ hrest => ⟨?_, ?_⟩)
      fun _ _ => trivial
    · exact hrest.mono (by simp)
    · exact hrest.mono (by simp)

/-- A list of names is accepted where no comma follows. -/
theorem names_accept {ns : OneOrMore String} :
    (separated "," name).Accepts (Before [","]) (ns.spell "," fun n => [.ofName n]) ns.toList := by
  refine (separated_accepts (F := Anything) (R := Eq) (by decide) (fun _ => trivial) ?_
    (List.forall₂_eq_eq_eq (α := String) ▸ rfl)).mono fun rest h => ⟨trivial, h⟩
  rintro n _ rfl
  exact name_accepts n Anything

/-- What can stand behind a query without going on with it. -/
abbrev AfterQuery : List Arrival → Prop := Before ["where", "and", ",", "."]

/-- A query is accepted where nothing follows that could go on with it. -/
theorem query_accepts {c : Catalog} {resultName : String} {p : Clause} {q : Query}
    (h : p.Reads c resultName q) : (query c resultName).Accepts AfterQuery p.spell q := by
  obtain ⟨result, sources, columns, conditions⟩ := q
  obtain ⟨hresult, ⟨entries, hentries, rfl⟩, hle, hcolumns, hconditions⟩ := h
  -- The parts of the clause are accepted one by one, each with what may follow it.
  have hrefs : (separated "," columnRef).Accepts
      (fun rest => Before ["."] rest ∧ Before [","] rest)
      (p.columns.spell "," ColumnRef.spell) p.columns.toList := by
    refine separated_accepts (R := Eq) (by decide) (before_ofText (by decide)) ?_
      (List.forall₂_eq_eq_eq (α := ColumnRef) ▸ rfl)
    rintro r _ rfl
    exact columnRef_accepts r
  have hnames : (separated "," (tableName c)).Accepts
      (fun rest => Anything rest ∧ Before [","] rest)
      (p.sources.spell "," fun n => [.ofName n]) entries :=
    separated_accepts (R := fun n e => c.lookup n = .ok e) (by decide) (fun _ => trivial)
      (fun _ _ => tableName_accepts) hentries
  have hresolve : ColumnRef.resolveAll (Workspace.ofTables (entries.map Catalog.Entry.table))
      (Query.cursorsOf (entries.map Catalog.Entry.table)) p.columns.toList = .ok columns :=
    mapM_eq_ok_iff.2 hcolumns
  have hwhere : (whereClause (entries.map Catalog.Entry.table)).Accepts AfterQuery
      (spellWhere p.comparisons?) conditions :=
    (whereClause_accepts hconditions).mono fun _ hrest => hrest.mono (by simp)
  have hend := hwhere.bind (f := fun cs => do
      let bs ← ofExcept (ColumnRef.resolveAll
        (Workspace.ofTables (entries.map Catalog.Entry.table))
        (Query.cursorsOf (entries.map Catalog.Entry.table)) p.columns.toList)
      return Query.mk result (entries.map Catalog.Entry.table) bs cs)
    ((Accepts.ofExcept hresolve AfterQuery).map _) fun _ hrest => hrest
  rw [List.append_nil] at hend
  -- Each part may follow the one before: its first word is none that could go on with that.
  refine hrefs.bind ((Accepts.ofExcept hresult Anything).bind
    ((expect_accepts "from" Anything).bind (hnames.bind (G := AfterQuery) ?_ ?_)
      fun _ _ => trivial) fun _ _ => trivial) fun rest _ => ⟨?_, ?_⟩
  · rw [if_neg (Nat.not_lt.2 ?_)]
    · exact hend
    · rw [List.length_map] at hle
      exact hle
  -- A table's name is followed by the word for conditions, or by whatever follows the query.
  · intro rest hrest
    refine ⟨trivial, ?_⟩
    rcases p.comparisons? with _ | cs
    · exact hrest.mono (by simp)
    · exact before_ofText (by decide) _
  · exact before_ofText (by decide) _
  · exact before_ofText (by decide) _

/-- A definition is accepted where its query is, or behind its parenthesis. -/
theorem definition_accepts {c : Catalog} {name : String} {body : Body} {d : Definition}
    (h : body.Reads c name d) : (definition c name).Accepts AfterQuery body.spell d := by
  rcases h with @⟨ts, t, ht⟩ | @⟨p, q, hq⟩
  · refine (nextIf_accepts "(" Anything).bind ?_ fun _ _ => trivial
    refine names_accept.bind ?_ fun rest _ => before_ofText (by decide) _
    refine (expect_accepts ")" Anything).bind ?_ fun _ _ => trivial
    exact (Accepts.ofExcept ht AfterQuery).map _
  · refine (nextIf_accepts_none "(").bind (l := []) ?_ fun rest _ => before_ofText (by decide) _
    refine (expect_accepts "as" Anything).bind ?_ fun _ _ => trivial
    refine (expect_accepts "select" Anything).bind ?_ fun _ _ => trivial
    exact (query_accepts hq).map _

/-- Values without parentheses are accepted where no comma follows. None of them is written like a
parenthesis, which would be taken for the opening one. -/
theorem values_accept {vs : OneOrMore String} {parenthesized : Bool}
    (h : ∀ v ∈ vs.toList, v ≠ "(") :
    values.Accepts (Before [","]) (spellValues vs parenthesized) (vs.toList.map literalValue) := by
  have hvs : (separated "," literal).Accepts (fun rest => Anything rest ∧ Before [","] rest)
      (vs.spell "," fun v => [⟨.literal, v⟩]) (vs.toList.map literalValue) := by
    refine separated_accepts (R := fun v a => literalValue v = a) (by decide) (fun _ => trivial)
      ?_ ?_
    · rintro v _ rfl
      exact literal_accepts v Anything
    · rw [List.forall₂_map_right_iff]
      exact List.forall₂_same.2 fun _ _ => rfl
  rcases parenthesized with _ | _
  · refine (nextIf_accepts_none "(").bind (l := []) ?_ fun rest _ => ?_
    · have hmap := (hvs.mono fun rest hrest => ⟨trivial, hrest⟩).map (β := Row) id
      exact hmap
    · exact ⟨_, _, rfl, by simpa using h vs.first (List.mem_cons_self ..)⟩
  · refine (nextIf_accepts "(" Anything).bind ?_ fun _ _ => trivial
    refine hvs.bind (r := [.ofText ")"]) ?_ fun rest _ => ⟨trivial, before_ofText (by decide) _⟩
    exact (expect_accepts ")" _).map fun _ => vs.toList.map literalValue

/-! ### Statements behind their keywords -/

/-- A semicolon may follow whatever it is not a part of. -/
theorem before_terminator {texts : List String} (h : ";" ∉ texts) (rest : List Arrival) :
    Before texts (arrivals [.terminator] ++ rest) := ⟨.terminator, rest, rfl, h⟩

theorem terminator_accepts (F : List Arrival → Prop) :
    (expect ";").Accepts F [.terminator] ";" := expect_accepts ";" F

/-- The name of a table and a semicolon are accepted before anything. -/
theorem namedBody_accepts (build : String → Statement) (n : String) :
    (namedBody build).Accepts Anything [.ofName n, .terminator] (build n) :=
  (name_accepts n Anything).bind ((terminator_accepts Anything).map fun _ => build n)
    fun _ _ => trivial

/-- A literal is written with its quote, so it is no parenthesis. -/
theorem ne_of_isLexical {v : String} (h : Token.IsLexical ⟨.literal, v⟩) : v ≠ "(" := by
  rintro rfl
  exact absurd h.kind_eq (by decide)

/-- What stands behind a command's keyword is accepted there. -/
theorem body_accepts {c : Catalog} {cmd : Command} {st : Statement} (h : cmd.Reads c st)
    (hlex : ∀ k ∈ cmd.spell, k.IsLexical) :
    ∃ keyword p toks, cmd.spell = .ofText keyword :: toks ∧ body? c keyword = some p ∧
      p.Accepts Anything (toks ++ [.terminator]) st := by
  rcases h with @⟨n, body, d, hd⟩ | @⟨n, vs, parenthesized, e, he⟩ | n | n | n | @⟨p, q, hq⟩ | _ | _
  · refine ⟨"create", _, _, rfl, rfl, ?_⟩
    refine (expect_accepts "table" Anything).bind ?_ fun _ _ => trivial
    refine (name_accepts n Anything).bind ?_ fun _ _ => trivial
    exact (definition_accepts hd).bind ((terminator_accepts Anything).map fun _ =>
      Statement.create n d)
      fun _ _ => before_terminator (by decide) _
  · refine ⟨"insert", _, _, rfl, rfl, ?_⟩
    -- A value without parentheses is taken for a literal because it is none.
    have hvs : ∀ v ∈ vs.toList, v ≠ "(" := by
      intro v hv
      have hlist : (⟨.literal, v⟩ : Token) ∈ vs.spell "," fun v => [⟨.literal, v⟩] :=
        OneOrMore.mem_spell hv (List.mem_singleton.2 rfl)
      have hmem : (⟨.literal, v⟩ : Token) ∈ spellValues vs parenthesized := by
        rcases parenthesized with _ | _
        · exact hlist
        · exact List.mem_cons_of_mem _ (List.mem_append_left _ hlist)
      exact ne_of_isLexical (hlex _ (by simp [Command.spell, hmem]))
    refine (expect_accepts "into" Anything).bind ?_ fun _ _ => trivial
    refine (tableName_accepts he).bind ?_ fun _ _ => trivial
    refine (expect_accepts "values" Anything).bind ?_ fun _ _ => trivial
    exact (values_accept hvs).bind ((terminator_accepts Anything).map fun _ =>
      Statement.insert e (vs.toList.map literalValue)) fun _ _ => before_terminator (by decide) _
  · exact ⟨"load", _, _, rfl, rfl, namedBody_accepts .load n⟩
  · exact ⟨"store", _, _, rfl, rfl, namedBody_accepts .store n⟩
  · exact ⟨"print", _, _, rfl, rfl, namedBody_accepts .print n⟩
  · refine ⟨"select", _, _, rfl, rfl, ?_⟩
    exact (query_accepts hq).bind ((terminator_accepts Anything).map fun _ => Statement.select q)
      fun _ _ => before_terminator (by decide) _
  · exact ⟨"exit", _, _, rfl, rfl, (terminator_accepts Anything).map fun _ => Statement.exit⟩
  · exact ⟨"quit", _, _, rfl, rfl, (terminator_accepts Anything).map fun _ => Statement.exit⟩

/-- A keyword is taken, and what it opens is read behind it. -/
theorem exists_run_next? {c : Catalog} {keyword : String} {p : Parser Statement}
    (hbody : body? c keyword = some p) {s : TokenStream} {rest : List Arrival}
    (hq : s.queue = .ok (.ofText keyword) :: rest) :
    ∃ t, s.Takes [.ofText keyword] t ∧
      (next? c).run s = (do let st ← p; return some st : Parser (Option Statement)).run t := by
  obtain ⟨t, hl, hst, htk⟩ := lookahead_of_arrival hq
  refine ⟨t.consume, hst.trans htk, ?_⟩
  rw [next?, run_lookahead_bind, hl]
  dsimp only [Token.ofText]
  rw [hbody]
  rfl

/-- **What a command spells is accepted.** Where the tokens of a command that means
something are the next to come, with its semicolon, the statement that it means is read. -/
theorem next?_accepts {c : Catalog} {cmd : Command} {st : Statement} (h : cmd.Reads c st)
    (hlex : ∀ k ∈ cmd.spell, k.IsLexical) :
    (next? c).Accepts Anything (cmd.spell ++ [.terminator]) (some st) := by
  obtain ⟨keyword, p, toks, hspell, hbody, hp⟩ := body_accepts h hlex
  intro s rest hq _
  rw [hspell] at hq ⊢
  obtain ⟨t, hst, hrun⟩ := exists_run_next? hbody hq
  obtain ⟨u, hu, htu⟩ := hp.map some t rest (hst.queue_rest (l := [.ofText keyword]) hq) trivial
  exact ⟨u, hrun.trans hu, hst.trans htu⟩

end Statement

end FlatQuery
