import LoxGraph.Text.Printable

/-!
Quoted text: one line of printable characters that stands for any text.

The text is enclosed in single quotes, or in double quotes if it holds single
quotes and no double ones. The enclosing mark and the backslash are written
after a backslash, line feed, carriage return and tab by a letter after one,
and other characters that are not printable by their code point in
hexadecimal. Lone surrogates, which would be written so as well, are in no
text.
-/

namespace LoxGraph

/-- The mark that encloses a text when it is quoted. -/
def quoteMark (cs : List Char) : Char :=
  if '\'' ∈ cs ∧ '"' ∉ cs then '"' else '\''

/-- The last `width` hexadecimal digits of `n`, in lower case. -/
def hexDigits (width n : Nat) : List Char :=
  (List.range width).reverse.map fun i => Nat.digitChar (n / Nat.pow 16 i % 16)

/-- A code point in hexadecimal, with as many digits as its size asks for. -/
def hexEscape (c : Char) : List Char :=
  if c.toNat ≤ 0xff then '\\' :: 'x' :: hexDigits 2 c.toNat
  else if c.toNat ≤ 0xffff then '\\' :: 'u' :: hexDigits 4 c.toNat
  else '\\' :: 'U' :: hexDigits 8 c.toNat

/-- How one character is written between marks of the given kind. -/
def quotedChar (mark c : Char) : List Char :=
  if c = mark ∨ c = '\\' then ['\\', c]
  else if c = '\n' then ['\\', 'n']
  else if c = '\r' then ['\\', 'r']
  else if c = '\t' then ['\\', 't']
  else if isPrintable c then [c]
  else hexEscape c

/-- The quoted form of a text. -/
def quoted (text : String) : String :=
  let mark := quoteMark text.toList
  String.ofList (mark :: (text.toList.flatMap (quotedChar mark) ++ [mark]))

end LoxGraph
