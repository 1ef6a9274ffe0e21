/-!
# Tokens

Command text is made of names, literals in single quotes, the six relation signs and
five marks of punctuation. No name is reserved: `create` and `select` are names like
any other, and only their place in a statement makes them keywords. That is why a
token is compared by its text where the grammar has a keyword or a mark, and by its
kind where it has a name, a literal or a relation.
-/

set_option autoImplicit false

namespace FlatQuery

namespace Token

/-- The kinds of token. -/
inductive Kind where
  | identifier
  | literal
  | relation
  | leftParen
  | rightParen
  | comma
  | semicolon
  | dot
deriving DecidableEq

/-- The name of a kind, as it is shown and asked for. -/
def Kind.name : Kind → String
  | .identifier => "IDENTIFIER"
  | .literal => "LITERAL"
  | .relation => "RELATION"
  | .leftParen => "LPAREN"
  | .rightParen => "RPAREN"
  | .comma => "COMMA"
  | .semicolon => "SEMICOLON"
  | .dot => "DOT"

end Token

/-- A token: its kind and the text it was written with, quotes of a literal included. -/
structure Token where
  /-- The kind. -/
  kind : Token.Kind
  /-- The text, exactly as it stands in the input. -/
  text : String
deriving DecidableEq

/-- What stands next in the input: a token, or the end, which is never used up. -/
inductive Lookahead where
  | token (t : Token)
  | endOfInput
deriving DecidableEq

namespace Lookahead

/-- The text of what stands next; the end of the input has one too. -/
def text : Lookahead → String
  | .token t => t.text
  | .endOfInput => "*EOF*"

/-- The name of the kind of what stands next. -/
def kindName : Lookahead → String
  | .token t => t.kind.name
  | .endOfInput => "EOF"

end Lookahead

end FlatQuery
