import FlatQuery.Parser
import FlatQuery.Statement.Basic
import FlatQuery.Text.Blank

/-!
# Reading statements

The grammar of the shell, one parser for each of its rules:

    statement   ::= create | load | insert | print | select | store | exit
    create      ::= "create" "table" name ( "(" name ("," name)* ")" | "as" "select" query ) ";"
    insert      ::= "insert" "into" name "values" ["("] literal ("," literal)* [")"] ";"
    load        ::= "load" name ";"
    store       ::= "store" name ";"
    print       ::= "print" name ";"
    select      ::= "select" query ";"
    exit        ::= ("exit" | "quit") ";"
    query       ::= column ("," column)* "from" name ("," name)* ["where" conjunction]
    column      ::= name ["." name]
    conjunction ::= condition ("and" condition)*
    condition   ::= column relation (literal | column)

An insertion has both of its parentheses or neither. Names are looked up as soon as
they are read: a source of a query or the target of an insertion must be registered,
the titles of a new table must differ, and the two sides of a condition must mean
columns of the sources. The columns to show come before the sources and are looked up
after the conditions. So of several mistakes in one statement the first in this order
is the one reported.
-/

set_option autoImplicit false

namespace FlatQuery

open FlatQuery.Parser

namespace Statement

/-! ## 1. Words -/

/-- The name of something, which need not exist. -/
def name : Parser String := expectKind .identifier

/-- The value that a literal stands for: what is between the quotes, without the blanks
at its ends. -/
def literalValue (text : String) : String :=
  String.ofList (Text.trim (text.toList.drop 1).dropLast)

/-- A literal's value. -/
def literal : Parser String := do return literalValue (← expectKind .literal)

/-- A column as it is written, with its table's name in front or alone. -/
def columnRef : Parser ColumnRef := do
  let first ← name
  if ← nextIf "." then return ⟨← name, some first⟩ else return ⟨first, none⟩

/-- The entry of a registered table. -/
def tableName (c : Catalog) : Parser Catalog.Entry := do ofExcept (c.lookup (← name))

/-! ## 2. Queries -/

/-- A column that has to mean something among some sources. -/
def boundColumn (sources : List Table) : Parser (BoundColumn sources.length) := do
  let ref ← columnRef
  ofExcept (ref.resolve (Workspace.ofTables sources) (Query.cursorsOf sources))

/-- The right side of a condition. -/
def operand (sources : List Table) : Parser (Operand sources.length) := do
  if (← peekKind) = Token.Kind.literal.name then return .literal (← literal)
  else return .column (← boundColumn sources)

/-- A condition on some sources. -/
def condition (sources : List Table) : Parser (Condition sources.length) := do
  let left ← boundColumn sources
  let symbol ← expectKind .relation
  let right ← operand sources
  ofExcept (Condition.ofSymbol left symbol right)

/-- Conditions that all have to hold. -/
def conjunction (sources : List Table) : Parser (List (Condition sources.length)) :=
  separated "and" (condition sources)

/-- The conditions of a query, if it has any. -/
def whereClause (sources : List Table) : Parser (List (Condition sources.length)) := do
  if ← nextIf "where" then conjunction sources else return []

/-- A query, from its columns on. The answer is to fill a table of the given name. -/
def query (c : Catalog) (resultName : String) : Parser Query := do
  let refs ← separated "," columnRef
  -- Titles that repeat are refused before the sources are read.
  let result ← ofExcept (Table.withTitles resultName (refs.map ColumnRef.name))
  let _ ← expect "from"
  let entries ← separated "," (tableName c)
  if Workspace.maxSources < entries.length then fail (.tooManySources Workspace.maxSources)
  else
    let sources := entries.map Catalog.Entry.table
    let conditions ← whereClause sources
    -- The columns are what was read first, and are looked up last.
    let columns ← ofExcept
      (ColumnRef.resolveAll (Workspace.ofTables sources) (Query.cursorsOf sources) refs)
    return { result, sources, columns, conditions }

/-- What a new table is to be. -/
def definition (c : Catalog) (tableName : String) : Parser Definition := do
  if ← nextIf "(" then
    let titles ← separated "," name
    let _ ← expect ")"
    return .columns (← ofExcept (Table.withTitles tableName titles))
  else
    let _ ← expect "as"
    let _ ← expect "select"
    return .query (← query c tableName)

/-! ## 3. Statements behind their keywords -/

/-- The values of an insertion, in both parentheses or in none. -/
def values : Parser Row := do
  let parenthesized ← nextIf "("
  let vs ← separated "," literal
  if parenthesized then
    let _ ← expect ")"
    return vs
  else return vs

/-- A creation, behind its keyword. -/
def createBody (c : Catalog) : Parser Statement := do
  let _ ← expect "table"
  let tableName ← name
  let d ← definition c tableName
  let _ ← expect ";"
  return .create tableName d

/-- An insertion, behind its keyword. -/
def insertBody (c : Catalog) : Parser Statement := do
  let _ ← expect "into"
  let target ← tableName c
  let _ ← expect "values"
  let vs ← values
  let _ ← expect ";"
  return .insert target vs

/-- A statement that is a keyword and a name, behind the keyword. -/
def namedBody (build : String → Statement) : Parser Statement := do
  let n ← name
  let _ ← expect ";"
  return build n

/-- The name of the table that a plain selection fills. -/
def selectionName : String := "select"

/-- A selection, behind its keyword. -/
def selectBody (c : Catalog) : Parser Statement := do
  let q ← query c selectionName
  let _ ← expect ";"
  return .select q

/-- A leave, behind its keyword. -/
def exitBody : Parser Statement := do
  let _ ← expect ";"
  return .exit

/-- The statement that a keyword opens. -/
def body? (c : Catalog) : String → Option (Parser Statement)
  | "create" => some (createBody c)
  | "insert" => some (insertBody c)
  | "load" => some (namedBody .load)
  | "store" => some (namedBody .store)
  | "print" => some (namedBody .print)
  | "select" => some (selectBody c)
  | "exit" => some exitBody
  | "quit" => some exitBody
  | _ => none

/-! ## 4. Whole statements -/

/-- A statement that has to begin with a given keyword. -/
def beginning (keyword : String) (body : Parser Statement) : Parser Statement := do
  let _ ← expect keyword
  body

/-- A leave, by either of its keywords. -/
def leave : Parser Statement := do
  if ← nextIf "quit" then exitBody else beginning "exit" exitBody

/-- The next statement, or nothing at the end of the input. -/
def next? (c : Catalog) : Parser (Option Statement) := do
  match ← lookahead with
  | .endOfInput => return none
  | .token t =>
    match body? c t.text with
    | none => fail (.unrecognizedCommand t.text)
    | some body =>
      consume
      return some (← body)

/-! ## 5. What reading a statement consumes -/

/-- A statement consumes a token at least. An error leaves three possibilities: a token
was consumed, a fault took characters off the input, or a token stands next. -/
theorem next?_spec (c : Catalog) (s : TokenStream) :
    match (next? c).run s with
    | .ok none _ => True
    | .ok (some _) t => s.consumed < t.consumed
    | .fail e t => s.consumed < t.consumed ∨
        (e.isStatementError = true → t.remaining < s.remaining) ∨
        ∃ k, t.ahead? = some (.token k) := by
  have hs := TokenStream.lookahead_spec s
  simp only [next?, run_bind, lookahead]
  cases hl : s.lookahead with
  | fail e t =>
    rw [hl] at hs
    exact .inr (.inl hs.2.2)
  | ok a t =>
    rw [hl] at hs
    cases a with
    | endOfInput => trivial
    | token k =>
      simp only
      cases body? c k.text with
      | none => exact .inr (.inr ⟨k, hs.1⟩)
      | some body =>
        have hc : s.consumed < t.consume.consumed := by
          rw [TokenStream.consumed_consume hs.1]
          omega
        simp only [consume, run_bind]
        cases hb : body.run t.consume with
        | ok st u => exact Nat.lt_of_lt_of_le hc (precedes_of_ok hb).1
        | fail e u => exact .inl (Nat.lt_of_lt_of_le hc (precedes_of_fail hb).1)

end Statement

namespace Parser

/-- Passing the rest of a statement consumes the token that stands next. -/
theorem consumed_skip {s : TokenStream} {k : Token} (h : s.ahead? = some (.token k)) :
    s.consumed < (skip.run s).rest.consumed := by
  have hl : lookahead.run s = .ok (.token k) s := by
    simp [lookahead, TokenStream.lookahead, h]
  have hc := TokenStream.consumed_consume h
  change s.consumed < (readSkip s).1.rest.consumed
  rw [readSkip]
  split <;> rename_i h₂ <;> rw [hl] at h₂
  · simp at h₂
  · simp at h₂
  · injection h₂ with ha hs
    injection ha with ha
    subst ha hs
    split
    · simp only [Reply.rest]
      omega
    · have := (readSkip s.consume).2.1
      simp only
      omega

end Parser

end FlatQuery
