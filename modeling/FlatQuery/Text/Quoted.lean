import FlatQuery.Text.Hexadecimal
import FlatQuery.Text.Printable

/-!
# Quoted texts

Where a name or a value is shown to a reader who must see exactly what it is, it is
shown in quotes. The quotes are single unless the text holds a single quote and no
double one. Inside, the backslash and the quote in use are escaped, the three
common control characters have a letter, every other character that cannot be
printed is written by its code point in two, four or eight digits, and all else
stands for itself.
-/

set_option autoImplicit false

namespace FlatQuery.Text.Quoted

/-! ## 1. Code points -/

/-- A code point as an escape of two, four or eight digits, the fewest that hold it. -/
def codePoint (n : Nat) : List Char :=
  if n < 0x100 then '\\' :: 'x' :: hexDigits 2 n
  else if n < 0x10000 then '\\' :: 'u' :: hexDigits 4 n
  else '\\' :: 'U' :: hexDigits 8 n

/-! ## 2. Texts -/

/-- The quote around a text: a single one, unless the text holds single ones and no
double one. -/
def quoteFor (cs : List Char) : Char :=
  if cs.contains '\'' && !cs.contains '"' then '"' else '\''

/-- How a character is written between two given quotes. -/
def character (quote c : Char) : List Char :=
  -- The other quote needs no escape.
  if c = quote ∨ c = '\\' then ['\\', c]
  else if c = '\n' then ['\\', 'n']
  else if c = '\r' then ['\\', 'r']
  else if c = '\t' then ['\\', 't']
  else if isPrintable c then [c]
  else codePoint c.toNat

/-- A text in quotes. -/
def quoted (s : String) : String :=
  let cs := s.toList
  let q := quoteFor cs
  String.ofList (q :: cs.flatMap (character q) ++ [q])

/-- Several texts, each in quotes, as a list in brackets. -/
def quotedList (ss : List String) : String :=
  "[" ++ ", ".intercalate (ss.map quoted) ++ "]"

end FlatQuery.Text.Quoted
