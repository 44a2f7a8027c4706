import LoxGraph.Token.Basic

/-!
Token streams: the tokens of a text up to its end, and the token that marks it.

A list of tokens gives a stream when its last token marks an end. Marks may
stand among the other tokens too; the stream then stops at the first of them.
-/

namespace LoxGraph

/-- Tokens up to the first that ends a text, and that token. -/
structure TokenStream where
  tokens : List Token
  ending : Token
  tokens_kind : ∀ t ∈ tokens, t.kind ≠ .endOfText
  ending_kind : ending.kind = .endOfText

namespace TokenStream

/-- All tokens of a stream, the last of which marks the end. -/
def toList (stream : TokenStream) : List Token := stream.tokens ++ [stream.ending]

/-- What is said of a list that does not end with an end token. -/
def refusal : String := "token stream must end with an EOF token"

/-- The stream of a list of tokens whose last one is an end token. -/
def ofTokens? (ts : List Token) : Option TokenStream :=
  if ts.getLast?.any (·.kind == .endOfText) then
    match h : ts.find? (·.kind == .endOfText) with
    | none => none
    | some ending =>
      some
        { tokens := ts.takeWhile (·.kind != .endOfText)
          ending := ending
          tokens_kind := fun t ht => by
            have hall := List.all_takeWhile (p := (·.kind != .endOfText)) (l := ts)
            rw [List.all_eq_true] at hall
            simpa using hall t ht
          ending_kind := by simpa using List.find?_some h }
  else none

end TokenStream

end LoxGraph
