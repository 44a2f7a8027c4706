import LoxGraph.Expr.Basic

/-!
Labels: what a node of a drawn tree is called.

Operators are labelled by their text, groups by a pair of parentheses, and
literals as they are written, where a number that is an integer has all its
digits and no point. `Expr.labels` gives the drawn shape of a tree: its labels
without anything else. A literal has no label only when it is a number literal
that holds no number, one that no double can hold, or a text that writes an
integer in another way than by its digits.
-/

namespace LoxGraph

/-- Why a number literal has no label. -/
inductive LabelFault where
  | missing
  | notANumber (text : String)
  | tooLarge
  | notAnInteger (text : String) (fault : IntegerFault)
deriving DecidableEq

/-- A message shows no more of a text than this many characters of its quoted
form, when the text is a number. -/
def shownNumberLength : Nat := 200

/-- What is said of a number literal that has no label. -/
def LabelFault.message : LabelFault → String
  | missing => "float() argument must be a string or a real number, not 'NoneType'"
  | notANumber text => "could not convert string to float: " ++ quoted text
  | tooLarge => "int too large to convert to float"
  | notAnInteger text .notDigits =>
    "invalid literal for int() with base 10: " ++
      String.ofList ((quoted text).toList.take shownNumberLength)
  | notAnInteger _ (.tooManyDigits count) =>
    "Exceeds the limit (" ++ toString integerDigitLimit ++
      " digits) for integer string conversion: value has " ++ toString count ++
      " digits; use sys.set_int_max_str_digits() to increase the limit"

/-- The label of a number that is held as text: an integer by its digits, any
other number as quoted text. -/
def textNumberLabel (text : String) : Except LabelFault String :=
  match Double.ofText? text with
  | none => .error (.notANumber text)
  | some d =>
    if d.integer? = none then .ok (quoted text)
    else ((integerOfText text).map toString).mapError (.notAnInteger text)

/-- The label of a value that a number literal holds. -/
def Value.numberLabel (value : Value) : Except LabelFault String :=
  match value with
  | .double d => .ok (match d.integer? with
    | .some i => toString i
    | .none => d.text)
  | .int i => if Double.overflows i then .error .tooLarge else .ok (toString i)
  | .bool b => .ok (if b then "1" else "0")
  | .text s => textNumberLabel s
  | .none => .error .missing

/-- The label of a literal. -/
def Literal.label : Literal → Except LabelFault String
  | .number v => v.numberLabel
  | .string v => .ok ("\"" ++ v.display ++ "\"")
  | .truth b => .ok (if b then "true" else "false")
  | .nothing => .ok "nil"

/-- The label of the root of a tree. -/
def Expr.label : Expr → Except LabelFault String
  | .binary _ operator _ => .ok operator.lexeme
  | .unary operator _ => .ok operator.lexeme
  | .grouping _ => .ok "()"
  | .literal l => l.label
  | .error => .ok "ERROR"

/-- A tree of labels in which a node has at most two children. -/
inductive LabelTree where
  | leaf (label : String)
  | one (label : String) (child : LabelTree)
  | two (label : String) (left right : LabelTree)
deriving DecidableEq

namespace LabelTree

/-- The label of the root. -/
def label : LabelTree → String
  | leaf label => label
  | one label _ => label
  | two label _ _ => label

/-- The children of the root, from left to right. -/
def children : LabelTree → List LabelTree
  | leaf _ => []
  | one _ child => [child]
  | two _ left right => [left, right]

/-- The number of nodes. -/
def size : LabelTree → Nat
  | leaf _ => 1
  | one _ child => 1 + child.size
  | two _ left right => 1 + left.size + right.size

/-- The number of nodes of several trees. -/
def totalSize : List LabelTree → Nat
  | [] => 0
  | t :: ts => t.size + totalSize ts

/-- A tree is its root and its children. -/
theorem size_eq (t : LabelTree) : t.size = 1 + totalSize t.children := by
  cases t <;> simp [size, children, totalSize, Nat.add_assoc]

end LabelTree

/-- The labels of a tree. Of several faults the first in pre-order counts. -/
def Expr.labels : Expr → Except LabelFault LabelTree
  | .binary left operator right => do
    let l ← left.labels
    let r ← right.labels
    pure (.two operator.lexeme l r)
  | .unary operator child => do
    let c ← child.labels
    pure (.one operator.lexeme c)
  | .grouping child => do
    let c ← child.labels
    pure (.one "()" c)
  | .literal l => do
    let label ← l.label
    pure (.leaf label)
  | .error => pure (.leaf "ERROR")

end LoxGraph
