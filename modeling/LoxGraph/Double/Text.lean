import LoxGraph.Double.Decimal

/-!
The written form of a double.

A finite double is written with the fewest digits that read back to it. The
point stands among the digits while the first of them is worth at least
`10 ^ -4` and less than `10 ^ 16`, and there is always a digit after it;
outside that range one digit stands before the point and a power of ten
follows, with a sign and at least two digits.
-/

namespace LoxGraph.Double

/-- The digits with the point after the one that is worth `10 ^ 0`. -/
def positional (digits : List Char) (leading : Int) : List Char :=
  if leading < 0 then
    '0' :: '.' :: (List.replicate (-leading - 1).toNat '0' ++ digits)
  else
    let whole := leading.toNat + 1
    let padding := List.replicate (whole - digits.length) '0'
    let fraction := digits.drop whole
    digits.take whole ++ padding ++ '.' :: (if fraction = [] then ['0'] else fraction)

/-- The digits with the point after the first one, then the power of ten. -/
def scientific (digits : List Char) (leading : Int) : List Char :=
  let power := decimalDigits leading.natAbs
  let padded := if power.length < 2 then '0' :: power else power
  let mantissa := match digits with
    | first :: second :: others => first :: '.' :: second :: others
    | _ => digits
  mantissa ++ 'e' :: (if leading < 0 then '-' else '+') :: padded

/-- Powers of ten at and above this one are written with an exponent. -/
def positionalEnd : Int := 16

/-- Powers of ten below this one are written with an exponent. -/
def positionalStart : Int := -4

/-- The written form of a decimal with at least one digit that is not zero. -/
def decimalText (d : Decimal) : List Char :=
  let digits := decimalDigits d.digits
  let leading := d.exponent + digits.length - 1
  let significant := (digits.reverse.dropWhile (· = '0')).reverse
  if positionalStart ≤ leading ∧ leading < positionalEnd then positional significant leading
  else scientific significant leading

/-- The written form of a magnitude. -/
def magnitudeText (m : Magnitude) : List Char :=
  if m.units = 0 then ['0', '.', '0'] else decimalText (Decimal.shortest m)

/-- The written form of a double. -/
def text : Double → String
  | .finite negative m => String.ofList ((if negative then ['-'] else []) ++ magnitudeText m)
  | .infinite negative => if negative then "-inf" else "inf"
  | .nan => "nan"

end LoxGraph.Double
