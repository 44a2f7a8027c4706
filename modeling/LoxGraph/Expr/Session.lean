import LoxGraph.Cursor
import LoxGraph.Expr.Parse

/-!
Parsing sessions: expressions read one after another from a token stream.

A session remembers how many tokens it has consumed, the mistakes of all its
parses, and how deep the nesting still counts: a parse that gives up for too
deep nesting leaves its open signs and parentheses counted, so that later
parses have less to spare. Any limit on nesting may be given; that the stack of
calls would run out under one of about ninety or more, far above the usual one,
is left out (`LoxGraph.Expr.Parse`).
-/

namespace LoxGraph

/-- How deep signs and parentheses may nest unless a limit is given. -/
def defaultNestingLimit : Int := 50

/-- A stream that is being parsed, and what its parses have left behind. -/
structure ParseSession where
  ahead : List Token
  ending : Token
  limit : Int
  consumed : Nat
  nesting : Int
  errors : List SyntaxError
deriving DecidableEq

namespace ParseSession

/-- A session at the start of a stream. -/
def start (stream : TokenStream) (limit : Int) : ParseSession :=
  { ahead := stream.tokens, ending := stream.ending, limit := limit,
    consumed := 0, nesting := 0, errors := [] }

/-- How much deeper signs and parentheses may still nest. -/
def budget (s : ParseSession) : Nat := (s.limit - s.nesting).toNat

/-- The session after some more mistakes, with fewer tokens ahead. -/
def proceed (s : ParseSession) (errors : List SyntaxError) (rest : List Token) : ParseSession :=
  { s with
    ahead := rest
    consumed := s.consumed + (s.ahead.length - rest.length)
    errors := s.errors ++ errors }

/-- Reads one expression from the front of the tokens ahead. -/
def parse (s : ParseSession) : Expr × ParseSession :=
  match Expr.parse s.ending s.budget s.ahead with
  | .done tree errors rest => (tree, s.proceed errors rest)
  | .tooDeep errors rest =>
    (.error, { s.proceed errors rest with nesting := s.nesting + s.budget + 1 })

end ParseSession

/-- The tree of a text or a token list, and the mistakes in it. -/
structure ParseResult where
  tree : Expr
  errors : List SyntaxError
deriving DecidableEq

/-- The tree at the front of a stream, under the default limit on nesting. -/
def TokenStream.parse (stream : TokenStream) : ParseResult :=
  let (tree, session) := (ParseSession.start stream defaultNestingLimit).parse
  ⟨tree, session.errors⟩

/-- The tree at the front of a text, unless the text has a lexical fault. -/
def parseText (text : String) : Except LexicalError ParseResult :=
  (tokenize text).map TokenStream.parse

end LoxGraph
