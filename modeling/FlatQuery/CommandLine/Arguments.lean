import FlatQuery.Text.Digit

/-!
# The argument line

The shell is started with at most one plain word, the directory of the table files, and
with options: `-c` or `--command` and `-f` or `--file`, each with a value, and `-h` or
`--help`. A long option may be cut short as long as it can be only one, its value may
follow an equals sign, and the value of a short one may follow at once. Two dashes that
are given to an option as its value are dropped like the mark they look like, and leave
the option without a value.

First every word is classified by itself. A word is an option if it starts with a dash
and can be read as one; a number or a text with a space in it is a value all the same.
Behind the first word `--` every word is a value. Only then are the words taken from
left to right. The request for help takes effect when it is reached, mistakes in what
options are given take effect when they are reached, and words that nothing takes are
found to be a mistake at the end.
-/

set_option autoImplicit false

namespace FlatQuery.CommandLine

/-! ## 1. Words -/

/-- What can be asked for by an option. -/
inductive Flag where
  | help
  | command
  | script
deriving DecidableEq

namespace Flag

/-- All options. -/
def all : List Flag := [.help, .command, .script]

/-- The letter of an option's short form. -/
def letter : Flag → Char
  | .help => 'h'
  | .command => 'c'
  | .script => 'f'

/-- An option's short form. -/
def short (f : Flag) : List Char := ['-', f.letter]

/-- An option's long form. -/
def long : Flag → List Char
  | .help => "--help".toList
  | .command => "--command".toList
  | .script => "--file".toList

/-- The option of a letter. -/
def ofLetter? (c : Char) : Option Flag := all.find? fun f => f.letter = c

/-- The option of a form, written in full. -/
def ofForm? (cs : List Char) : Option Flag := all.find? fun f => f.short = cs ∨ f.long = cs

end Flag

/-- A word of the argument line. -/
inductive Word where
  /-- A value. -/
  | value (text : List Char)
  /-- The mark behind which all words are values. -/
  | separator
  /-- An option by itself. -/
  | option (f : Flag)
  /-- An option in long form and what follows its equals sign. -/
  | assigned (f : Flag) (tail : List Char)
  /-- An option in short form and what follows its letter, at once or behind an equals
  sign. -/
  | attached (f : Flag) (tail : List Char)
  /-- Something that looks like an option and is none. -/
  | unknown
deriving DecidableEq

namespace Word

/-- A text cut at its first equals sign, if it has one. -/
def cutAtEquals? (cs : List Char) : Option (List Char × List Char) :=
  match cs.dropWhile (· != '=') with
  | [] => none
  | _ :: behind => some (cs.takeWhile (· != '='), behind)

/-- The word of an option written in full with an equals sign and a text behind it. -/
def assignment? (cs : List Char) : Option Word := do
  let (form, tail) ← cutAtEquals? cs
  let f ← Flag.ofForm? form
  return if form = f.short then .attached f tail else .assigned f tail

/-- Whether a text behind a dash is a number: digits, or a point with digits behind it and
perhaps before it. One line end behind it does not matter. -/
def isNumeral (cs : List Char) : Bool :=
  let body := if cs.getLast? = some '\n' then cs.dropLast else cs
  let rest := body.dropWhile Text.isDigit
  match rest with
  | [] => !body.isEmpty
  | '.' :: fraction => !fraction.isEmpty && fraction.all Text.isDigit
  | _ => false

/-- The readings of a word that is no option in full: a long option cut short, or a short
one with something attached. -/
def readings (cs : List Char) : List Word :=
  match cs with
  | '-' :: '-' :: _ =>
    match cutAtEquals? cs with
    | some (form, tail) =>
      (Flag.all.filter fun f => form.isPrefixOf f.long).map fun f => .assigned f tail
    | none => (Flag.all.filter fun f => cs.isPrefixOf f.long).map .option
  | '-' :: c :: tail => (Flag.ofLetter? c).toList.map fun f => .attached f tail
  | _ => []

/-- What a word is that stands before any separator. A word with several readings is
nothing. -/
def classify? (cs : List Char) : Option Word :=
  if cs.head? ≠ some '-' ∨ cs = ['-'] then some (.value cs)
  else
    -- An option in full wins over one that is cut short or has something attached.
    match Flag.ofForm? cs with
    | some f => some (.option f)
    | none =>
      match assignment? cs with
      | some w => some w
      | none =>
        match readings cs with
        | [w] => some w
        | [] =>
          -- A dash alone does not make an option of a number or a sentence.
          if isNumeral (cs.drop 1) ∨ ' ' ∈ cs then some (.value cs) else some .unknown
        | _ => none

/-- What the words of an argument line are. -/
def classifyAll? : List String → Option (List Word)
  | [] => some []
  | s :: ss =>
    if s = "--" then some (.separator :: ss.map fun s => .value s.toList)
    else do
      let w ← classify? s.toList
      let ws ← classifyAll? ss
      return w :: ws

end Word

/-! ## 2. Arguments -/

/-- What the shell is started with. -/
structure Arguments where
  /-- The directory of the table files. -/
  directory? : Option String := none
  /-- Statements to carry out. -/
  command? : Option String := none
  /-- A file of statements to carry out. -/
  script? : Option String := none
deriving DecidableEq

/-- What an argument line asks for. -/
inductive Usage where
  /-- To start. -/
  | start (a : Arguments)
  /-- To be told what can be asked for. -/
  | help
  /-- Nothing that makes sense. -/
  | misuse
deriving DecidableEq

namespace Arguments

/-- The text that an option is given by a value. -/
def given? (value : List Char) : Option String :=
  if value = ['-', '-'] then none else some (String.ofList value)

/-- The arguments with the value of an option. -/
def set (a : Arguments) (f : Flag) (value : List Char) : Arguments :=
  match f with
  | .help => a
  | .command => { a with command? := given? value }
  | .script => { a with script? := given? value }

/-- How far the words have been taken: the arguments so far, whether the directory's turn
is over, and whether a word was left that nothing takes. -/
structure Progress where
  /-- The arguments so far. -/
  arguments : Arguments := {}
  /-- Whether the directory has been given, or can no longer be. -/
  directoryTaken : Bool := false
  /-- Whether there was a word that nothing takes. -/
  leftover : Bool := false

/-- The directory is given. -/
def Progress.take (p : Progress) (value : List Char) : Progress :=
  { p with
    arguments := { p.arguments with directory? := some (String.ofList value) }
    directoryTaken := true }

/-- Letters behind a short request for help, given the word after them. Each of them has to
be an option's, and one that needs a value has to get it from what follows it or else
from the next word. Where all is well help comes first, whatever else is asked for. -/
def cluster (next? : Option Word) : List Char → Usage
  | [] => .help
  | c :: cs =>
    match Flag.ofLetter? c, cs, next? with
    | none, _, _ => .misuse
    | some .help, cs, _ => cluster next? cs
    | some _, _ :: _, _ => .help
    | some _, [], some (.value _) => .help
    | some _, [], _ => .misuse

/-- Takes the words from left to right. -/
def takeWords (p : Progress) : List Word → Usage
  | [] => if p.leftover then .misuse else .start p.arguments
  | .value v :: ws =>
    if p.directoryTaken then takeWords { p with leftover := true } ws
    else
      -- A separator right behind the directory goes with it.
      match ws with
      | .separator :: ws => takeWords (p.take v) ws
      | ws => takeWords (p.take v) ws
  | .separator :: ws =>
    if p.directoryTaken then takeWords { p with leftover := true } ws
    else
      -- So does one right before it, and one with nothing behind it.
      match ws with
      | .value v :: ws => takeWords (p.take v) ws
      | ws => takeWords { p with directoryTaken := true } ws
  | .unknown :: ws => takeWords { p with leftover := true } ws
  | .option .help :: _ => .help
  | .assigned .help _ :: _ => .misuse
  | .attached .help [] :: _ => .misuse
  | .attached .help tail :: ws => cluster ws.head? tail
  | .assigned f v :: ws => takeWords { p with arguments := p.arguments.set f v } ws
  | .attached f v :: ws => takeWords { p with arguments := p.arguments.set f v } ws
  | .option f :: .value v :: ws => takeWords { p with arguments := p.arguments.set f v } ws
  | .option _ :: _ => .misuse
termination_by ws => ws.length

/-- What an argument line asks for. -/
def read (line : List String) : Usage :=
  match Word.classifyAll? line with
  | some ws => takeWords {} ws
  | none => .misuse

end Arguments

end FlatQuery.CommandLine
