import LoxGraph.Expr.Basic
import LoxGraph.Report

/-!
Reading an expression from a list of tokens.

Binary operators stand on four levels. On each, operands of the next tighter
level are joined from left to right; the operands of the tightest level are
literals, signs before an operand, and expressions in parentheses. Signs and
parentheses may nest as deep as a budget allows. One token past the budget
gives up the whole expression; every other mistake leaves an error node and
the reading goes on. `Outcome` keeps the mistakes in the order in which they
were met, together with the tokens that were left unread.

The stack of calls is taken as unlimited. Eleven calls for each level of the
budget and eleven more are all that is needed (`Stepwise.openRules_bounded`), so
a stack of a thousand calls is enough up to a budget of about ninety. Under a
larger one, tokens that nest deeper than such a stack allows would end in an
error of the stack, which is left out here.
-/

namespace LoxGraph

/-- What can be wrong with a token where it stands. -/
inductive SyntaxFault where
  | expectedExpression
  | expectedClosing
  | nestedTooDeep
deriving DecidableEq

/-- What a syntax fault is called. -/
def SyntaxFault.message : SyntaxFault → String
  | .expectedExpression => "expected expression"
  | .expectedClosing => "expected ')' after expression"
  | .nestedTooDeep => "expression nesting too deep"

/-- A syntax fault and the token it is found at. -/
structure SyntaxError where
  token : Token
  fault : SyntaxFault
deriving DecidableEq

/-- A syntax error is reported at its token, or at the end of the text. -/
def SyntaxError.report (e : SyntaxError) : Report :=
  { line := e.token.line
    location := if e.token.kind = .endOfText then "at end" else "at '" ++ e.token.lexeme ++ "'"
    message := e.fault.message }

/-- What comes of reading a part of the tokens: a value, the mistakes met on
the way and the tokens left; or, when the nesting was too deep, no value. -/
inductive Outcome (α : Type) where
  | done (value : α) (errors : List SyntaxError) (rest : List Token)
  | tooDeep (errors : List SyntaxError) (rest : List Token)

namespace Outcome

variable {α β : Type}

/-- The mistakes met, in order. -/
def errors : Outcome α → List SyntaxError
  | done _ errors _ => errors
  | tooDeep errors _ => errors

/-- The tokens left unread. -/
def rest : Outcome α → List Token
  | done _ _ rest => rest
  | tooDeep _ rest => rest

/-- The same outcome after earlier mistakes. -/
def after (earlier : List SyntaxError) : Outcome α → Outcome α
  | done value errors rest => done value (earlier ++ errors) rest
  | tooDeep errors rest => tooDeep (earlier ++ errors) rest

/-- Reads on from the tokens left, unless the nesting was too deep. -/
def andThen (o : Outcome α) (f : α → List Token → Outcome β) : Outcome β :=
  match o with
  | done value errors rest => (f value rest).after errors
  | tooDeep errors rest => tooDeep errors rest

@[simp] theorem errors_done (value : α) (errors : List SyntaxError) (rest : List Token) :
    (done value errors rest).errors = errors := rfl

@[simp] theorem errors_tooDeep (errors : List SyntaxError) (rest : List Token) :
    (tooDeep errors rest : Outcome α).errors = errors := rfl

@[simp] theorem rest_done (value : α) (errors : List SyntaxError) (rest : List Token) :
    (done value errors rest).rest = rest := rfl

@[simp] theorem rest_tooDeep (errors : List SyntaxError) (rest : List Token) :
    (tooDeep errors rest : Outcome α).rest = rest := rfl

@[simp] theorem after_nil (o : Outcome α) : o.after [] = o := by
  cases o <;> rfl

@[simp] theorem errors_after (earlier : List SyntaxError) (o : Outcome α) :
    (o.after earlier).errors = earlier ++ o.errors := by
  cases o <;> rfl

@[simp] theorem rest_after (earlier : List SyntaxError) (o : Outcome α) :
    (o.after earlier).rest = o.rest := by
  cases o <;> rfl

end Outcome

/-- The levels of binary operators, from the loosest to the tightest. -/
inductive Level where
  | equality
  | comparison
  | addition
  | multiplication
deriving DecidableEq

/-- Whether a kind of token is a binary operator of the level. -/
def Level.hasOperator : Level → TokenKind → Bool
  | .equality, kind => kind == .bangEqual || kind == .equalEqual
  | .comparison, kind =>
    kind == .greater || kind == .greaterEqual || kind == .less || kind == .lessEqual
  | .addition, kind => kind == .minus || kind == .plus
  | .multiplication, kind => kind == .slash || kind == .star

/-- Whether a kind of token is an operator that stands before its operand. -/
def TokenKind.isSign (kind : TokenKind) : Bool := kind == .bang || kind == .minus

/-- A way to read an expression or an operand from the front of a list of tokens. -/
abbrev Reader := List Token → Outcome Expr

namespace Expr

/-- Joins operands to the tree `left` as long as an operator of the level comes
next. The tokens at hand when the chain begins bound the number of operators. -/
def links (level : Level) (operand : Reader) : List Token → Expr → Reader
  | [], left, tokens => .done left [] tokens
  | _ :: clock, left, tokens =>
    match tokens with
    | [] => .done left [] []
    | operator :: rest =>
      if level.hasOperator operator.kind then
        (operand rest).andThen fun right rest =>
          links level operand clock (.binary left operator right) rest
      else .done left [] tokens

/-- Operands joined by operators of the level, from left to right. -/
def chain (level : Level) (operand : Reader) : Reader := fun tokens =>
  (operand tokens).andThen fun left rest => links level operand rest left rest

/-- An expression: chains of all levels, the loosest outermost. -/
def expression (operand : Reader) : Reader :=
  chain .equality (chain .comparison (chain .addition (chain .multiplication operand)))

/-- The parenthesis that closes a group. Without one the group is an error, and
the token in its place is left unread. -/
def closing (ending : Token) (inner : Expr) : Reader
  | [] => .done .error [⟨ending, .expectedClosing⟩] []
  | t :: rest =>
    if t.kind = .rightParen then .done (.grouping inner) [] rest
    else .done .error [⟨t, .expectedClosing⟩] (t :: rest)

/-- An operand. `nested` reads the operands inside it, and is missing when they
would be nested too deep. A token that begins no operand is passed over; at the
end of the text, marked by `ending`, there is nothing to pass over. -/
def operandWith (ending : Token) (nested : Option Reader) : Reader
  | [] => .done .error [⟨ending, .expectedExpression⟩] []
  | t :: rest =>
    if let some l := Literal.ofToken? t then .done (.literal l) [] rest
    else if t.kind.isSign then
      match nested with
      | none => .tooDeep [⟨t, .nestedTooDeep⟩] rest
      | some operand => (operand rest).andThen fun child rest => .done (.unary t child) [] rest
    else if t.kind = .leftParen then
      match nested with
      | none => .tooDeep [⟨t, .nestedTooDeep⟩] rest
      | some operand => (expression operand rest).andThen (closing ending)
    else .done .error [⟨t, .expectedExpression⟩] rest

/-- An operand with at most `budget` signs and parentheses around each other. -/
def operand (ending : Token) : Nat → Reader
  | 0 => operandWith ending none
  | budget + 1 => operandWith ending (some (operand ending budget))

/-- Reads an expression with at most `budget` signs and parentheses around each
other from the front of the tokens that `ending` follows. -/
def parse (ending : Token) (budget : Nat) : Reader := expression (operand ending budget)

end Expr

end LoxGraph
