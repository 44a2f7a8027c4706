import LoxGraph.Text.Letter
import LoxGraph.Text.Lines

/-!
Numbers as people write them.

White space may surround a number, its digits may be those of any script, and
a single underscore may stand between two digits. `plainNumber?` takes all this
away, so that the digits `0` to `9` are the only ones left to read.
`integerOfText` reads the numbers that are a sign and digits.
-/

namespace LoxGraph

/-- The number that a list of decimal digits writes. -/
def digitsValue (cs : List Char) : Nat :=
  cs.foldl (fun n c => 10 * n + (c.toNat - '0'.toNat)) 0

/-- A decimal digit of any script as one of `0` to `9`; other characters stay.
The digits of a script follow each other from zero to nine. -/
def plainDigit (c : Char) : Char :=
  match decimalDigitRanges.find? (fun range => inRanges [range] c) with
  | some range => Nat.digitChar ((c.toNat - range.1) % 10)
  | none => c

/-- The separators of records, which are white space between words but not
around numbers. -/
def recordSeparatorRanges : List (Nat × Nat) := [(0x1c, 0x1f)]

/-- White space that may surround a number. -/
def isNumberMargin (c : Char) : Bool := isWhiteSpace c && !inRanges recordSeparatorRanges c

/-- The characters between the margins at both ends. -/
def dropMargins (cs : List Char) : List Char :=
  ((cs.dropWhile isNumberMargin).reverse.dropWhile isNumberMargin).reverse

/-- The characters without the underscores between digits, if no underscore
stands anywhere else. -/
def ungroup? : List Char → Option (List Char)
  | [] => some []
  | '_' :: _ => none
  | c :: '_' :: d :: cs =>
    if c.isDigit ∧ d.isDigit then (ungroup? (d :: cs)).map (c :: ·) else none
  | c :: cs => (ungroup? cs).map (c :: ·)

/-- A written number without margins, foreign digits and underscores. -/
def plainNumber? (text : String) : Option (List Char) :=
  ungroup? ((dropMargins text.toList).map plainDigit)

/-- Whether a minus sign comes first, and what follows the sign if there is
one. -/
def splitSign : List Char → Bool × List Char
  | '-' :: cs => (true, cs)
  | '+' :: cs => (false, cs)
  | cs => (false, cs)

/-- Why a text is not read as an integer. -/
inductive IntegerFault where
  | notDigits
  | tooManyDigits (count : Nat)
deriving DecidableEq

/-- More digits than this are not read as an integer, even if they are zeros. -/
def integerDigitLimit : Nat := 4300

/-- The integer that a sign and digits write. The digits are counted before it
is asked what follows them. -/
def integerOfText (text : String) : Except IntegerFault Int :=
  match plainNumber? text with
  | none => .error .notDigits
  | some plain =>
    let (negative, cs) := splitSign plain
    let digits := cs.takeWhile Char.isDigit
    if integerDigitLimit < digits.length then .error (.tooManyDigits digits.length)
    else if digits = [] ∨ cs.dropWhile Char.isDigit ≠ [] then .error .notDigits
    else .ok (if negative then -(digitsValue digits : Int) else digitsValue digits)

end LoxGraph
