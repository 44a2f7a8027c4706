import LoxGraph.Run.Source
import LoxGraph.Proofs.Cursor.Spacing
import LoxGraph.Proofs.Expr.Built
import LoxGraph.Proofs.Stepwise.Drawing
import LoxGraph.Proofs.Stepwise.Parsing
import LoxGraph.Proofs.Stepwise.Scanning

/-!
Running a text step by step.

The stages rely on each other: a scan marks the end of its tokens, which a parser asks
for, and its numbers are doubles, which the labels of a graph ask for. So a text either
has a lexical fault, which is reported, or goes through all stages without a mishap and
without an error that leaves a stage, and comes to what `Run.ofSource` says
(`run_without_mishap`).
-/

namespace LoxGraph

/-- Whether a token that writes a number carries a double. -/
def Token.HoldsDouble (t : Token) : Prop := t.kind = .number → ∃ d, t.literal = .double d

/-- The numbers of a tree are those of the tokens. -/
theorem Expr.holdsDoubles_of_built : HoldsOfBuilt Token.HoldsDouble Expr.HoldsDoubles where
  binary _ _ hleft hright := ⟨hleft, hright⟩
  unary _ _ hchild := hchild
  grouping hchild := hchild
  literal {t l} here ht := by
    cases l with
    | number v =>
      have hvalue : v = t.literal := Literal.value_of_ofToken? here (.inl rfl)
      rw [hvalue]
      exact ht (Literal.kind_of_ofToken? here)
    | string | truth | nothing => trivial
  error := trivial

namespace Stepwise

/-- The parse of a list of tokens by a parser of its own. The list has to end in a mark,
and so many rules may be inside each other that none is missing. -/
def parseTokens (tokens : List Token) : Except (Raised SyntaxError) ParseResult :=
  if tokens.getLast?.any (·.kind == .endOfText) then
    match (parse tokens defaultNestingLimit (11 * (defaultNestingLimit.toNat + 1))).run
      ⟨0, 0, []⟩ with
    | .ok tree progress => .ok ⟨tree, progress.errors⟩
    | .error raised _ => .error raised
  else .error (.mishap .unmarkedEnd)

/-- The record of a scan of so many tokens. -/
def scanRecord (count : Nat) (name : String) : LogRecord :=
  { severity := .debug
    logger := "loxc.lexer.scanner"
    text := "Scanned " ++ toString count ++ " tokens from " ++ name }

/-- Runs a source text. A lexical fault is reported; nothing else that is raised is. -/
def run (text name : String) (showTokens : Bool) : Except (Raised SyntaxError) Run :=
  match (scanTokens text.toList).run ⟨0, 0, 1⟩ with
  | .error (.report e) _ => .ok ⟨[e.report.event], false⟩
  | .error (.mishap m) _ => .error (.mishap m)
  | .ok tokens _ =>
    let scanned : Event := .log (scanRecord tokens.length name)
    if showTokens then .ok ⟨scanned :: tokens.map (fun t => .out (t.listing ++ "\n")), true⟩
    else do
      let result ← parseTokens tokens
      let graph ← (draw .plain result.tree).mapError .mishap
      return ⟨scanned :: (result.records.map .log ++ result.errors.map (·.report.event) ++
        [.out graph]), result.errors.isEmpty⟩

theorem parseTokens_eq (stream : TokenStream) : parseTokens stream.toList = .ok stream.parse := by
  have hmarked : stream.toList.getLast?.any (·.kind == .endOfText) = true := by
    simp [TokenStream.toList, stream.ending_kind]
  have htracks : Tracks stream.toList (.start stream defaultNestingLimit) ⟨0, 0, []⟩ :=
    ⟨⟨⟨[], rfl⟩, stream.tokens_kind, stream.ending_kind⟩, rfl, rfl, rfl⟩
  obtain ⟨later, hrun, hlater⟩ := parse_run htracks (Nat.le_refl _)
  have hparse : (parse stream.toList defaultNestingLimit (11 * (defaultNestingLimit.toNat + 1))).run
      ⟨0, 0, []⟩ = .ok (ParseSession.start stream defaultNestingLimit).parse.1 later := hrun
  rw [parseTokens, if_pos hmarked, hparse]
  show Except.ok (ParseResult.mk _ later.errors) = _
  rw [hlater.errors]
  rfl

theorem holdsDoubles_parse {text : String} {stream : TokenStream}
    (h : tokenize text = .ok stream) : stream.parse.tree.HoldsDoubles := by
  apply TokenStream.parse_holds Expr.holdsDoubles_of_built
  intro t ht hkind
  have hlexeme := (tokenize_eq_ok_iff.mp h).1.ofLexeme t ht
  rw [Token.OfLexeme, hkind] at hlexeme
  obtain ⟨n, -, -, hliteral⟩ := hlexeme.of_number
  exact ⟨_, hliteral⟩

/-- What a text comes to, step by step: a lexical fault that is raised to be reported, or
tokens, their tree and its graph. -/
theorem stages_eq (text : String) :
    (∃ e place, tokenize text = .error e ∧
      (scanTokens text.toList).run ⟨0, 0, 1⟩ = .error (.report e) place) ∨
    ∃ stream place, tokenize text = .ok stream ∧
      (scanTokens text.toList).run ⟨0, 0, 1⟩ = .ok stream.toList place ∧
      parseTokens stream.toList = .ok stream.parse ∧
      ∀ style, ∃ graph, draw style stream.parse.tree = .ok graph ∧
        stream.parse.tree.graph style = .ok graph := by
  have hscan := scanTokens_run text.toList
  have htokenize : tokenize text = (Cursor.atStart text.toList).exhaust.1 := rfl
  generalize (Cursor.atStart text.toList).exhaust = result at hscan htokenize
  obtain ⟨result, after⟩ := result
  cases result with
  | error e => exact .inl ⟨e, _, htokenize, hscan⟩
  | ok stream =>
    exact .inr ⟨stream, _, htokenize, hscan, parseTokens_eq stream,
      draw_eq (holdsDoubles_parse htokenize)⟩

theorem run_eq_ofSource (text name : String) (showTokens : Bool) :
    run text name showTokens = .ok (Run.ofSource text name showTokens) := by
  rcases stages_eq text with
    ⟨e, place, htokenize, hscan⟩ | ⟨stream, place, htokenize, hscan, hparse, hdraw⟩
  · rw [run, hscan, Run.ofSource, htokenize]
  · obtain ⟨graph, hpainted, hgraph⟩ := hdraw .plain
    rw [run, hscan, Run.ofSource, htokenize]
    cases showTokens with
    | true => rfl
    | false =>
      simp only [Bool.false_eq_true, if_false, hparse, bind, Except.bind, hpainted, Except.mapError,
        Expr.graphEvents, hgraph]
      rfl

/-- No text meets a mishap in any stage. It has a lexical fault, which is raised to be
reported, or it is scanned, its tokens are parsed and the tree is drawn, and nothing is
raised on the way; so each run ends with what `Run.ofSource` says. -/
theorem run_without_mishap (text : String) :
    ((∃ e place, tokenize text = .error e ∧
        (scanTokens text.toList).run ⟨0, 0, 1⟩ = .error (.report e) place) ∨
      ∃ stream place, tokenize text = .ok stream ∧
        (scanTokens text.toList).run ⟨0, 0, 1⟩ = .ok stream.toList place ∧
        parseTokens stream.toList = .ok stream.parse ∧
        ∀ style, ∃ graph, draw style stream.parse.tree = .ok graph ∧
          stream.parse.tree.graph style = .ok graph) ∧
    ∀ name showTokens, run text name showTokens = .ok (Run.ofSource text name showTokens) :=
  ⟨stages_eq text, run_eq_ofSource text⟩

end Stepwise

end LoxGraph
