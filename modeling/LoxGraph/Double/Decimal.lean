import LoxGraph.Double.Basic
import LoxGraph.Text.Number

/-!
Decimal numbers and the doubles they stand for.

A `Decimal` is a digit string with a power of ten. `Decimal.toDouble` rounds
one to the nearest double; `Decimal.shortest` goes the other way and picks,
for a finite magnitude, the fewest digits that read back to it and among
those the nearest. `Double.ofText?` reads the usual written forms, with and
without a power of ten.
-/

namespace LoxGraph

/-- `digits` times ten to the power `exponent`. -/
structure Decimal where
  digits : Nat
  exponent : Int
deriving DecidableEq

/-- The decimal digits of `n`, most significant first. -/
def decimalDigits (n : Nat) : List Char := Nat.toDigits 10 n

namespace Decimal

/-- Ten to a power of either sign, as a quotient. -/
def powerOfTen (exponent : Int) : Nat × Nat :=
  if 0 ≤ exponent then (Nat.pow 10 exponent.toNat, 1) else (1, Nat.pow 10 (-exponent).toNat)

/-- Decimals outside `10 ^ -400 .. 10 ^ 400` are infinite or zero as doubles
whatever their digits, so no power beyond this is ever computed. -/
def farthestExponent : Int := 400

/-- The double nearest to a decimal, with the given sign. -/
def toDouble (negative : Bool) (d : Decimal) : Double :=
  let leading := d.exponent + (decimalDigits d.digits).length
  if d.digits = 0 ∨ leading < -farthestExponent then .finite negative .zero
  else if farthestExponent < leading then .infinite negative
  else
    let (up, down) := powerOfTen d.exponent
    .ofRatio negative (d.digits * up) down

/-- The exponent of the first digit of a magnitude that is not zero. -/
def leadingExponent (m : Magnitude) : Int :=
  if unitsPerOne ≤ m.units then
    (decimalDigits (m.units / unitsPerOne)).length - 1
  else
    -(decimalDigits ((unitsPerOne - 1) / m.units)).length

/-- The two neighbours of a magnitude among the multiples of ten to the power
`exponent`, the nearer one first; of two equally near ones the even one. -/
def neighbours (m : Magnitude) (exponent : Int) : List Decimal :=
  let (up, down) := powerOfTen exponent
  let p := m.units * down
  let q := unitsPerOne * up
  let nearest := roundQuotient p q
  let other := if nearest = p / q then nearest + 1 else p / q
  [⟨nearest, exponent⟩, ⟨other, exponent⟩]

/-- Every digit of a magnitude, of which there may be hundreds. -/
def exact (m : Magnitude) : Decimal := ⟨m.units * Nat.pow 5 1074, -1074⟩

/-- The fewest digits that read back to a magnitude, the nearest of those. -/
def shortest (m : Magnitude) : Decimal :=
  let readsBack (d : Decimal) : Bool := d.toDouble false == .finite false m
  let withDigits (n : Nat) : Option Decimal :=
    (neighbours m (leadingExponent m - n)).find? readsBack
  ((List.range 17).findSome? withDigits).getD (exact m)

end Decimal

namespace Double

/-- The exponent part of a written number: nothing, or `e`, a sign and digits. -/
def exponentOfText? : List Char → Option Int
  | [] => some 0
  | mark :: cs =>
    let (negative, digits) := splitSign cs
    if (mark = 'e' ∨ mark = 'E') ∧ digits ≠ [] ∧ digits.all Char.isDigit then
      some (if negative then -(digitsValue digits : Int) else digitsValue digits)
    else none

/-- A number written without a sign: digits with at most one point among them
and an exponent, or the name of an infinity or of `nan`. -/
def unsignedOfText? (negative : Bool) (cs : List Char) : Option Double :=
  let lower := String.ofList (cs.map Char.toLower)
  if lower = "inf" ∨ lower = "infinity" then some (.infinite negative)
  else if lower = "nan" then some .nan
  else
    let whole := cs.takeWhile Char.isDigit
    let (fraction, tail) := match cs.dropWhile Char.isDigit with
      | '.' :: ds => (ds.takeWhile Char.isDigit, ds.dropWhile Char.isDigit)
      | ds => ([], ds)
    if whole = [] ∧ fraction = [] then none
    else (exponentOfText? tail).map fun e =>
      Decimal.toDouble negative ⟨digitsValue (whole ++ fraction), e - fraction.length⟩

/-- The double that a written number stands for, if the text is one. -/
def ofText? (text : String) : Option Double := do
  let (negative, cs) := splitSign (← plainNumber? text)
  unsignedOfText? negative cs

end Double

end LoxGraph
