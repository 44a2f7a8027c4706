import LoxGraph.Proofs.Expr.Lineless
import LoxGraph.Proofs.Run.Streams

/-!
Runs do not depend on layout.

Texts that write the same tokens with whatever blanks and comments between them have the same
tokens but for their lines, and lines are shown in reports alone. So their runs end alike, write
the same output, and report the same mistakes, on other lines (`Run.ofSource_spaced`).
-/

namespace LoxGraph

theorem Token.listing_withoutLine (t : Token) : t.withoutLine.listing = t.listing := rfl

theorem Expr.graph_withoutLines (e : Expr) (style : DotStyle) :
    e.withoutLines.graph style = e.graph style := by
  rw [graph, graph, labels_withoutLines]

/-- Texts that write the same tokens have these tokens, on whatever lines, and one mark. -/
theorem Spaced.toList_tokenize {ts : List Token} {text : String} (h : Spaced ts text.toList) :
    ∃ stream, LoxGraph.tokenize text = .ok stream ∧
      stream.toList.map Token.withoutLine =
        ts.map Token.withoutLine ++ [Token.endOfText 0] := by
  obtain ⟨stream, hscan, htokens⟩ := h.tokenize
  obtain ⟨-, hending⟩ := tokenize_eq_ok_iff.mp hscan
  refine ⟨stream, hscan, ?_⟩
  rw [TokenStream.toList, List.map_append, htokens, hending]
  rfl

namespace Run

variable {stream stream' : TokenStream}

theorem listing_eq_of_withoutLine
    (h : stream.toList.map Token.withoutLine = stream'.toList.map Token.withoutLine) :
    listing stream = listing stream' := by
  have hlines (s : TokenStream) : (s.toList.map fun t => t.listing ++ "\n") =
      (s.toList.map Token.withoutLine).map fun t => t.listing ++ "\n" := by
    simp [Function.comp_def, Token.listing_withoutLine]
  rw [listing, listing, hlines, hlines, h]

/-- How the runs of two texts agree whose tokens differ in lines alone. -/
structure Alike (run run' : Run) (stream stream' : TokenStream) (showTokens : Bool) : Prop where
  /-- Both end well or neither does. -/
  ok_eq : run.ok = run'.ok
  /-- They write the same output. -/
  out_eq : run.textOn .out = run'.textOn .out
  /-- It is the graph of the text, unless tokens are listed. -/
  graph : showTokens = false → stream.parse.tree.graph .plain = .ok (run.textOn .out)
  /-- Nothing is reported of tokens. -/
  listing : showTokens = true → run.textOn .diagnostics = "" ∧ run'.textOn .diagnostics = ""
  /-- Otherwise both report their mistakes. -/
  mistakes : showTokens = false → run.textOn .diagnostics = reports stream.parse.errors ∧
    run'.textOn .diagnostics = reports stream'.parse.errors
  /-- The reports are the same but for their lines. -/
  reports_eq : stream.parse.errors.map (·.report.withoutLine) =
    stream'.parse.errors.map (·.report.withoutLine)

theorem alike_of_withoutLine {text text' : String} (hscan : tokenize text = .ok stream)
    (hscan' : tokenize text' = .ok stream')
    (h : stream.toList.map Token.withoutLine = stream'.toList.map Token.withoutLine)
    (name name' : String) (showTokens : Bool) :
    Alike (ofSource text name showTokens) (ofSource text' name' showTokens) stream stream'
      showTokens := by
  obtain ⟨htokens, hending⟩ : stream.tokens.map Token.withoutLine =
      stream'.tokens.map Token.withoutLine ∧
        [stream.ending.withoutLine] = [stream'.ending.withoutLine] := by
    rw [TokenStream.toList, TokenStream.toList, List.map_append, List.map_append] at h
    exact List.append_inj' h rfl
  obtain ⟨htree, herrors⟩ :=
    TokenStream.parse_withoutLines htokens (List.singleton_inj.mp hending)
  have hreports : stream.parse.errors.map (·.report.withoutLine) =
      stream'.parse.errors.map (·.report.withoutLine) := by
    have hreport (s : TokenStream) : s.parse.errors.map (·.report.withoutLine) =
        (s.parse.errors.map SyntaxError.withoutLine).map SyntaxError.report := by
      simp [Function.comp_def, SyntaxError.report_withoutLine]
    rw [hreport, hreport, herrors]
  cases showTokens with
  | true =>
    have hgives := ofSource_listing hscan name
    have hgives' := ofSource_listing hscan' name'
    exact {
      ok_eq := by rw [hgives.ok, hgives'.ok]
      out_eq := by rw [hgives.out, hgives'.out, listing_eq_of_withoutLine h]
      graph := by simp
      listing := fun _ => ⟨hgives.diagnostics, hgives'.diagnostics⟩
      mistakes := by simp
      reports_eq := hreports }
  | false =>
    obtain ⟨t, -, hgraph⟩ := exists_graph hscan
    have hgraph' : stream'.parse.tree.graph .plain = .ok (DotStyle.plain.graph t.statements) := by
      rw [← Expr.graph_withoutLines, ← htree, Expr.graph_withoutLines, hgraph]
    have hgives := ofSource_graph hscan hgraph name
    have hgives' := ofSource_graph hscan' hgraph' name'
    have hcount : stream.parse.errors.length = stream'.parse.errors.length := by
      simpa using congrArg List.length herrors
    exact {
      ok_eq := by
        rw [hgives.ok, hgives'.ok, Bool.eq_iff_iff, List.isEmpty_iff_length_eq_zero,
          List.isEmpty_iff_length_eq_zero, hcount]
      out_eq := by rw [hgives.out, hgives'.out]
      graph := fun _ => by rw [hgives.out, hgraph]
      listing := by simp
      mistakes := fun _ => ⟨hgives.diagnostics, hgives'.diagnostics⟩
      reports_eq := hreports }

/-- Layout does not count. Texts that write the same tokens, with any separators in front of them,
between them and behind them, have these tokens and nothing else, and their runs write the same
output, end alike, and differ in the lines of their reports alone. -/
theorem ofSource_spaced {ts : List Token} {text text' : String} (h : Spaced ts text.toList)
    (h' : Spaced ts text'.toList) (name name' : String) (showTokens : Bool) :
    ∃ stream stream', tokenize text = .ok stream ∧ tokenize text' = .ok stream' ∧
      stream.toList.map Token.withoutLine = ts.map Token.withoutLine ++ [Token.endOfText 0] ∧
      stream'.toList.map Token.withoutLine = ts.map Token.withoutLine ++ [Token.endOfText 0] ∧
      Alike (ofSource text name showTokens) (ofSource text' name' showTokens) stream stream'
        showTokens := by
  obtain ⟨stream, hscan, htokens⟩ := h.toList_tokenize
  obtain ⟨stream', hscan', htokens'⟩ := h'.toList_tokenize
  exact ⟨stream, stream', hscan, hscan', htokens, htokens',
    alike_of_withoutLine hscan hscan' (htokens.trans htokens'.symm) name name' showTokens⟩

/-- Signs that would be other tokens, or a comment, if nothing kept them apart. -/
def looseSigns : List Token :=
  [⟨.bang, "!", .none, 0⟩, ⟨.equal, "=", .none, 0⟩, ⟨.slash, "/", .none, 0⟩]

theorem looseSigns_alike :
    Spaced looseSigns "! = /".toList ∧
    Spaced looseSigns "// start\n!\t=\n/ // end".toList ∧
    ∃ stream stream', tokenize "! = /" = .ok stream ∧
      tokenize "// start\n!\t=\n/ // end" = .ok stream' ∧
      stream'.toList.map Token.withoutLine =
        looseSigns.map Token.withoutLine ++ [Token.endOfText 0] ∧
      Alike (ofSource "! = /" "<stdin>" false)
        (ofSource "// start\n!\t=\n/ // end" "<stdin>" false) stream stream' false := by
  have hspaces : Spaced looseSigns "! = /".toList :=
    @Spaced.token [] _ _ _ .nil (.operator rfl)
      (.token rfl .nil (.operator rfl) (.token rfl .nil (.operator rfl) .nothing))
  have hstart : Separator "// start\n".toList :=
    @Separator.comment " start".toList [] (by decide) .nil
  have hend : Gap [] "// end".toList := @Gap.comment [] " end".toList [] (by decide) (by simp) .nil
  have hcomments : Spaced looseSigns "// start\n!\t=\n/ // end".toList :=
    @Spaced.token "// start\n".toList _ _ _ hstart (.operator rfl)
      (.token rfl .nil (.operator rfl) (.token rfl .nil (.operator rfl) (.gap rfl hend)))
  obtain ⟨stream, stream', hscan, hscan', -, htokens, halike⟩ :=
    ofSource_spaced hspaces hcomments "<stdin>" "<stdin>" false
  exact ⟨hspaces, hcomments, stream, stream', hscan, hscan', htokens, halike⟩

end Run

end LoxGraph
