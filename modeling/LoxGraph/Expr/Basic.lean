import LoxGraph.Token.Basic

/-!
Expression trees.

A tree is built from operators, parentheses and literals; an error node stands
where a part of the text could not be read. `Expr.inspect` shows every part of
a tree.
-/

namespace LoxGraph

/-- A literal. Numbers and strings hold a value, which in a scanned text is a
double and a text; truth values and `nil` are their own values. -/
inductive Literal where
  | number (value : Value)
  | string (value : Value)
  | truth (b : Bool)
  | nothing
deriving DecidableEq

namespace Literal

/-- The kind of token that writes a literal. -/
def kind : Literal → TokenKind
  | number _ => .number
  | string _ => .string
  | truth true => .trueWord
  | truth false => .falseWord
  | nothing => .nilWord

/-- The value of a literal. -/
def value : Literal → Value
  | number v => v
  | string v => v
  | truth b => .bool b
  | nothing => .none

/-- The literal of a kind, if it is a kind of literals. The value counts for
numbers and strings alone. -/
def ofKind? (kind : TokenKind) (value : Value) : Option Literal :=
  match kind with
  | .number => some (.number value)
  | .string => some (.string value)
  | .trueWord => some (.truth true)
  | .falseWord => some (.truth false)
  | .nilWord => some .nothing
  | _ => none

/-- The literal that a token writes, if it writes one. -/
def ofToken? (t : Token) : Option Literal := ofKind? t.kind t.literal

/-- What is said of a kind whose tokens are no literals. -/
def refusal (kind : TokenKind) : String := kind.name ++ " is not a literal token type"

theorem ofKind?_isSome (kind : TokenKind) (value : Value) :
    (ofKind? kind value).isSome = kind.isLiteral := by
  cases kind <;> rfl

/-- All parts of a literal. -/
def inspect (l : Literal) : String :=
  "Literal(value=" ++ l.value.inspect ++ ", kind=<TokenType." ++ l.kind.name ++ ": " ++
    toString l.kind.ordinal ++ ">)"

end Literal

/-- An expression tree. Every node owns its children. -/
inductive Expr where
  | binary (left : Expr) (operator : Token) (right : Expr)
  | unary (operator : Token) (child : Expr)
  | grouping (child : Expr)
  | literal (literal : Literal)
  | error
deriving DecidableEq

/-- The children of the root, from left to right. -/
def Expr.children : Expr → List Expr
  | binary left _ right => [left, right]
  | unary _ child => [child]
  | grouping child => [child]
  | literal _ => []
  | error => []

/-- All parts of a tree, on one line. -/
def Expr.inspect : Expr → String
  | binary left operator right =>
    "Binary(left=" ++ left.inspect ++ ", operator=" ++ operator.inspect ++ ", right=" ++
      right.inspect ++ ")"
  | unary operator child =>
    "Unary(operator=" ++ operator.inspect ++ ", child=" ++ child.inspect ++ ")"
  | grouping child => "Grouping(child=" ++ child.inspect ++ ")"
  | literal l => l.inspect
  | error => "ErrorExpr()"

end LoxGraph
