import LoxGraph.Token.Kind
import LoxGraph.Value

/-!
Tokens: a kind, the text it was written with, what it carries, and its line.

A token is listed with its carried value only where that differs from its
text; inspecting one shows every part.
-/

namespace LoxGraph

/-- A token and the line on which it ends. -/
structure Token where
  kind : TokenKind
  lexeme : String
  literal : Value
  line : Int
deriving DecidableEq

namespace Token

/-- The token that ends a text. -/
def endOfText (line : Int) : Token := ⟨.endOfText, "", .none, line⟩

/-- Equality of tokens, where carried numbers compare as numbers. -/
def same (a b : Token) : Bool :=
  a.kind == b.kind && a.lexeme == b.lexeme && a.literal.same b.literal && a.line == b.line

/-- The name of the kind and the quoted lexeme, then the carried value if it
says more than the lexeme does. -/
def listing (t : Token) : String :=
  let plain := t.kind.name ++ " " ++ quoted t.lexeme
  if t.literal = .none ∨ t.literal = .text t.lexeme then plain
  else plain ++ " " ++ t.literal.inspect

/-- All four parts of a token. -/
def inspect (t : Token) : String :=
  "Token(" ++ t.kind.name ++ ", " ++ quoted t.lexeme ++ ", " ++ t.literal.inspect ++ ", " ++
    toString t.line ++ ")"

end Token

end LoxGraph
