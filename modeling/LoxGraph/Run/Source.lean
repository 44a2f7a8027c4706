import LoxGraph.Expr.Session
import LoxGraph.Graph.Dot
import LoxGraph.Run.Transcript

/-!
Running a source text: its tokens or its graph, and the mistakes in it.

The text is scanned; a lexical fault is the only thing then reported. Otherwise
either the tokens are listed, one on a line, or the text is parsed, its
mistakes are reported and its graph is written, however damaged. What the
stages do is logged as they go. A file is run as the text it holds, and a
prompt runs its lines one by one.
-/

namespace LoxGraph

/-- The events of a run, and whether it found no mistake. -/
structure Run where
  events : List Event
  ok : Bool
deriving DecidableEq

/-- The record of a scan that succeeded. -/
def TokenStream.record (stream : TokenStream) (name : String) : LogRecord :=
  { severity := .debug
    logger := "loxc.lexer.scanner"
    text := "Scanned " ++ toString stream.toList.length ++ " tokens from " ++ name }

/-- A record of the parsing of a text. -/
def parsingRecord (text : String) : LogRecord := ⟨.debug, "loxc.parser.parser", text⟩

/-- The records of a parse: one for each mistake, then their number if there are
any. -/
def ParseResult.records (result : ParseResult) : List LogRecord :=
  if result.errors = [] then []
  else
    result.errors.map (fun e => parsingRecord ("Syntax error: " ++ e.report.text)) ++
      [parsingRecord ("Parse finished with " ++ toString result.errors.length ++ " error(s)")]

/-- One line of diagnostics. -/
def Report.event (r : Report) : Event := .err (r.text ++ "\n")

/-- The graph of a tree as output. The trees of texts always have one. -/
def Expr.graphEvents (tree : Expr) : List Event :=
  match tree.graph .plain with
  | .ok graph => [.out graph]
  | .error _ => []

namespace Run

/-- Runs a source text; `name` is what the text is called in the log. -/
def ofSource (text name : String) (showTokens : Bool) : Run :=
  match tokenize text with
  | .error e => ⟨[e.report.event], false⟩
  | .ok stream =>
    let scanned : Event := .log (stream.record name)
    if showTokens then
      ⟨scanned :: stream.toList.map (fun t => .out (t.listing ++ "\n")), true⟩
    else
      let result := stream.parse
      ⟨scanned :: (result.records.map .log ++ result.errors.map (·.report.event) ++
        result.tree.graphEvents), result.errors.isEmpty⟩

/-- The record of an attempt to read a file. -/
def readingRecord (path : Path) : LogRecord := ⟨.info, "loxc.cli", "Reading " ++ path.text⟩

/-- Reports that there is nothing to run. -/
def ofFailure (failure : IoFailure) : Run := ⟨[.err (failure.text ++ "\n")], false⟩

/-- Runs what was read from a file, or reports why nothing was. -/
def ofRead (path : Path) (showTokens : Bool) : Except FileFault String → Run
  | .ok text => ofSource text path.text showTokens
  | .error fault => ofFailure ⟨fault.kind, path.text⟩

/-- What a file run is called when it ends: success or failure. -/
def status (run : Run) : Nat := if run.ok then 0 else 1

end Run

/-- Runs a file. That it is going to be read is logged before it is read. -/
def Surroundings.runFile {σ φ : Type} [FileSystem σ φ] (s : Surroundings σ φ) (path : Path)
    (showTokens : Bool) : Surroundings σ φ × Nat :=
  let s := s.perform (.log (Run.readingRecord path))
  let run := Run.ofRead path showTokens (FileSystem.readText s.files path)
  (s.performAll run.events, run.status)

end LoxGraph
