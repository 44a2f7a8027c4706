import LoxGraph.Proofs.Expr.FirstParse
import LoxGraph.Proofs.Expr.Writing

/-!
Parsing without lines.

No rule of reading looks at the line of a token; lines only go with the tokens into operators
and mistakes. So what comes of tokens without their lines is what comes of the tokens, without
lines (`Expr.parse_withoutLines`), and streams that differ in lines alone have trees and mistakes
that do (`TokenStream.parse_withoutLines`).
-/

namespace LoxGraph

/-- A mistake on no line in particular. -/
def SyntaxError.withoutLine (e : SyntaxError) : SyntaxError :=
  { e with token := e.token.withoutLine }

/-- A report that names no line. -/
def Report.withoutLine (r : Report) : Report := { r with line := 0 }

theorem SyntaxError.report_withoutLine (e : SyntaxError) :
    e.withoutLine.report = e.report.withoutLine := rfl

namespace Outcome

/-- What comes of a reading, without lines. -/
def withoutLines : Outcome Expr → Outcome Expr
  | done tree errors rest =>
    done tree.withoutLines (errors.map SyntaxError.withoutLine) (rest.map Token.withoutLine)
  | tooDeep errors rest =>
    tooDeep (errors.map SyntaxError.withoutLine) (rest.map Token.withoutLine)

theorem withoutLines_after (earlier : List SyntaxError) (o : Outcome Expr) :
    (o.after earlier).withoutLines =
      o.withoutLines.after (earlier.map SyntaxError.withoutLine) := by
  cases o <;> simp [after, withoutLines]

theorem tree_withoutLines (o : Outcome Expr) : o.withoutLines.tree = o.tree.withoutLines := by
  cases o <;> rfl

theorem errors_withoutLines (o : Outcome Expr) :
    o.withoutLines.errors = o.errors.map SyntaxError.withoutLine := by
  cases o <;> rfl

end Outcome

/-- The same part of an expression, without lines in what was read before it. -/
def Part.withoutLines : Part → Part
  | links level left => links level left.withoutLines
  | chain level => chain level
  | operand => operand

theorem Level.withoutLines_operandPart (level : Level) :
    level.operandPart.withoutLines = level.operandPart := by
  cases level <;> rfl

/-- The rules of reading apply to tokens whatever lines they are on. -/
theorem Reads.withoutLines {ending : Token} {budget : Nat} {part : Part} {tokens : List Token}
    {outcome : Outcome Expr} (h : Reads ending budget part tokens outcome) :
    Reads ending.withoutLine budget part.withoutLines (tokens.map Token.withoutLine)
      outcome.withoutLines := by
  have hhead {p : TokenKind → Prop} {tokens : List Token} (h : ∀ t ∈ tokens.head?, p t.kind) :
      ∀ t ∈ (tokens.map Token.withoutLine).head?, p t.kind := by
    cases tokens with
    | nil => simp
    | cons t tokens =>
      intro t' ht'
      obtain rfl := Option.some.inj ht'
      exact h t rfl
  induction h with
  | chain first others ihFirst ihOthers =>
    rw [Level.withoutLines_operandPart] at ihFirst
    rw [Outcome.withoutLines_after]
    exact .chain ihFirst ihOthers
  | chainTooDeep first ih =>
    rw [Level.withoutLines_operandPart] at ih
    exact .chainTooDeep ih
  | noLink stop => exact .noLink (hhead (p := fun kind => Level.hasOperator _ kind = false) stop)
  | link here next others ihNext ihOthers =>
    rw [Level.withoutLines_operandPart] at ihNext
    rw [Outcome.withoutLines_after]
    exact .link here ihNext ihOthers
  | linkTooDeep here next ih =>
    rw [Level.withoutLines_operandPart] at ih
    exact .linkTooDeep here ih
  | nothing => exact .nothing
  | literal here => exact .literal here
  | sign here inner ih => exact .sign here ih
  | signTooDeep here inner ih => exact .signTooDeep here ih
  | group here inner closed ih => exact .group here ih closed
  | @openGroup budget t tokens inside errors rest here inner unclosed ih =>
    have hending : (rest.map Token.withoutLine).headD ending.withoutLine =
        (rest.headD ending).withoutLine := by
      cases rest <;> rfl
    have hgroup := @Reads.openGroup ending.withoutLine budget t.withoutLine _ _ _ _ here ih
      (hhead (p := (· ≠ .rightParen)) unclosed)
    rw [hending] at hgroup
    rw [Outcome.withoutLines, List.map_append]
    exact hgroup
  | groupTooDeep here inner ih => exact .groupTooDeep here ih
  | pastLimit here => exact .pastLimit here
  | unexpected noLiteral noSign noGroup => exact .unexpected noLiteral noSign noGroup

/-- Parsing tokens without lines gives what parsing the tokens gives, without lines. -/
theorem Expr.parse_withoutLines (ending : Token) (budget : Nat) (tokens : List Token) :
    Expr.parse ending.withoutLine budget (tokens.map Token.withoutLine) =
      (Expr.parse ending budget tokens).withoutLines := by
  rw [Expr.parse_eq_reader, Expr.parse_eq_reader]
  exact (Reads.of_reader ending budget (.chain .equality) tokens).withoutLines.reader_eq

/-- Streams that differ in lines alone have the same tree and the same mistakes, but for their
lines. -/
theorem TokenStream.parse_withoutLines {stream stream' : TokenStream}
    (htokens : stream.tokens.map Token.withoutLine = stream'.tokens.map Token.withoutLine)
    (hending : stream.ending.withoutLine = stream'.ending.withoutLine) :
    stream.parse.tree.withoutLines = stream'.parse.tree.withoutLines ∧
      stream.parse.errors.map SyntaxError.withoutLine =
        stream'.parse.errors.map SyntaxError.withoutLine := by
  have hsame := Expr.parse_withoutLines stream.ending defaultNestingLimit.toNat stream.tokens
  rw [htokens, hending, Expr.parse_withoutLines] at hsame
  rw [stream.parse_eq, stream'.parse_eq]
  constructor
  · rw [← Outcome.tree_withoutLines, ← Outcome.tree_withoutLines, hsame]
  · rw [← Outcome.errors_withoutLines, ← Outcome.errors_withoutLines, hsame]

end LoxGraph
