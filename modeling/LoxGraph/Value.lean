import LoxGraph.Double.Text
import LoxGraph.Text.Quoted

/-!
The values that tokens and literals carry.

A scanned token carries a name, a text, a number or nothing; tokens from
elsewhere may carry any value. Numbers are equal when they are equal as
numbers, and a truth value counts as `0` or `1`.
-/

namespace LoxGraph

/-- A value carried by a token or a literal. -/
inductive Value where
  | none
  | bool (b : Bool)
  | text (s : String)
  | int (i : Int)
  | double (d : Double)
deriving DecidableEq

namespace Value

/-- The integer that a truth value or an integer counts as. -/
def integer? : Value → Option Int
  | bool b => some (if b then 1 else 0)
  | int i => some i
  | _ => Option.none

/-- Equality of values: numbers compare as numbers whatever their kind, and
`nan` equals nothing. -/
def same : Value → Value → Bool
  | none, none => true
  | text a, text b => a == b
  | double a, double b => a.numericallyEqual b
  | double a, b => b.integer?.any a.equalsInteger
  | a, double b => a.integer?.any b.equalsInteger
  | a, b => a.integer?.isSome && a.integer? == b.integer?

/-- A value as it stands in a listing, where text is quoted. -/
def inspect : Value → String
  | none => "None"
  | bool b => if b then "True" else "False"
  | text s => quoted s
  | int i => toString i
  | double d => d.text

/-- A value as plain text. -/
def display : Value → String
  | text s => s
  | v => v.inspect

end Value

end LoxGraph
