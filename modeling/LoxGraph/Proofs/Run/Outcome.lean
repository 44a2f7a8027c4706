import LoxGraph.Proofs.Graph.Marked
import LoxGraph.Proofs.Run.Streams

/-!
The outcome of a run, its output and its diagnostics agree.

A run ends well just when it has nothing to report (`Run.Agrees`), and a graph shows an error
just when a mistake was reported. A file run ends with zero or one accordingly, and a file that
cannot be read or scanned leaves the output alone (`Run.outcome_agrees`). What it writes is told by
the tokens or the tree that the library finds in the file (`Surroundings.runFile_shows`).
-/

namespace LoxGraph

/-- Files that can only be read, each path as a function tells. -/
structure ReadOnly where
  bytes : Path → Except FileFault ByteArray

instance : FileSystem ReadOnly Empty where
  readBytes files path := files.bytes path
  openAtEnd _ _ := .error (.ofErrorNumber 30)
  append _ file _ := nomatch file

namespace Run

/-- How the outcome of a run of a text agrees with what it writes. -/
structure Agrees (run : Run) (text : String) (showTokens : Bool) : Prop where
  /-- The run ends well if nothing is reported, and only then. -/
  ok_iff : run.ok = true ↔ run.textOn .diagnostics = ""
  /-- A text that cannot be scanned gives one line of diagnostics. -/
  of_fault : ∀ e, tokenize text = .error e →
    run.textOn .out = "" ∧ run.textOn .diagnostics = e.report.text ++ "\n"
  /-- The output is the whole graph of the tree, and no more than that. -/
  graph : ∀ stream, tokenize text = .ok stream → showTokens = false →
    stream.parse.tree.graph .plain = .ok (run.textOn .out) ∧
      ∃ statements, run.textOn .out = DotStyle.plain.graph statements ∧
        stream.parse.tree.DrawnBy statements
  /-- Every mistake is reported on a line of its own. -/
  mistakes : ∀ stream, tokenize text = .ok stream → showTokens = false →
    run.textOn .diagnostics = reports stream.parse.errors
  /-- The run ends badly if the graph shows an error, and only then. -/
  error_iff : ∀ stream, tokenize text = .ok stream → showTokens = false →
    (run.ok = false ↔ "[label=\"ERROR\"]".toList <:+: (run.textOn .out).toList)

theorem reports_eq_empty_iff {errors : List SyntaxError} : reports errors = "" ↔ errors = [] := by
  cases errors <;> simp [reports]

theorem ofSource_agrees (text name : String) (showTokens : Bool) :
    (ofSource text name showTokens).Agrees text showTokens := by
  cases hscan : tokenize text with
  | error e =>
    have hgives := ofSource_of_error hscan name showTokens
    refine ⟨?_, ?_, by simp [hscan], by simp [hscan], by simp [hscan]⟩
    · rw [hgives.ok, hgives.diagnostics]
      simp
    · intro e' he'
      obtain rfl : e = e' := by simpa [hscan] using he'
      exact ⟨hgives.out, hgives.diagnostics⟩
  | ok stream =>
    cases showTokens with
    | true =>
      have hgives := ofSource_listing hscan name
      refine ⟨?_, by simp [hscan], by simp, by simp, by simp⟩
      rw [hgives.ok, hgives.diagnostics]
      simp
    | false =>
      obtain ⟨t, ht, hgraph⟩ := exists_graph hscan
      have hgives := ofSource_graph hscan hgraph name
      have hdrawn := Expr.drawnBy_statements ht
      have hstream {stream' : TokenStream} (h : tokenize text = .ok stream') :
          stream = stream' := Except.ok.inj (hscan.symm.trans h)
      refine ⟨?_, by simp [hscan], ?_, ?_, ?_⟩
      · rw [hgives.ok, hgives.diagnostics, reports_eq_empty_iff, List.isEmpty_iff]
      · intro stream' h _
        obtain rfl := hstream h
        rw [hgives.out]
        exact ⟨hgraph, _, rfl, hdrawn⟩
      · intro stream' h _
        obtain rfl := hstream h
        exact hgives.diagnostics
      · intro stream' h _
        obtain rfl := hstream h
        rw [hgives.ok, hgives.out, Expr.parse_errorLabel_infix_iff hscan hdrawn]
        simp

theorem ofRead_ok_iff (path : Path) (showTokens : Bool) (read : Except FileFault String) :
    (ofRead path showTokens read).ok = true ↔
      (ofRead path showTokens read).textOn .diagnostics = "" := by
  cases read with
  | error fault =>
    have hgives : (ofRead path showTokens (.error fault)).Gives "" _ false := gives_err _
    rw [hgives.ok, hgives.diagnostics]
    simp
  | ok text => exact (ofSource_agrees text path.text showTokens).ok_iff

variable {σ φ : Type} [FileSystem σ φ]

/-- The outcome of a run agrees with what it writes, for every text, and for every path in
whatever surroundings, be it a file system of any kind in any state. -/
theorem outcome_agrees (showTokens : Bool) :
    (∀ text name, (ofSource text name showTokens).Agrees text showTokens) ∧
      ∀ (s : Surroundings σ φ) (path : Path), ∃ out diagnostics,
        s.Writes (s.runFile path showTokens).1 out diagnostics ∧
        ((s.runFile path showTokens).2 = 0 ↔ diagnostics = "") ∧
        (diagnostics ≠ "" → (s.runFile path showTokens).2 = 1) ∧
        ∀ failure, FileSystem.tokenize (s.filesRead path) path = .error failure → out = "" := by
  refine ⟨fun text name => ofSource_agrees text name showTokens, fun s path => ?_⟩
  have hok := ofRead_ok_iff path showTokens (FileSystem.readText (s.filesRead path) path)
  obtain ⟨hwrites, hstatus⟩ := Surroundings.runFile_of_gives (gives_self
    (ofRead path showTokens (FileSystem.readText (s.filesRead path) path)))
  refine ⟨_, _, hwrites, ?_, ?_, ?_⟩
  · rw [hstatus, ← hok]
    split <;> simp_all
  · intro hreported
    rw [hstatus, if_neg (mt hok.mp hreported)]
  · intro failure hfailure
    exact (ofRead_of_error hfailure showTokens).out

/-- A file that nobody may read. -/
def deniedFile : Surroundings ReadOnly Empty := .start ⟨fun _ => .error (.ofErrorNumber 13)⟩ ""

/-- A character of no token, an operand that is missing behind a string that looks like a label,
and a file that may not be read. -/
theorem faults_outcome :
    (∃ e, tokenize "1 @" = .error e ∧ (ofSource "1 @" "<stdin>" false).textOn .out = "") ∧
    (∃ stream, tokenize "\"[label=\" +" = .ok stream ∧
      (ofSource "\"[label=\" +" "<stdin>" false).ok = false ∧ "[label=\"ERROR\"]".toList <:+:
        ((ofSource "\"[label=\" +" "<stdin>" false).textOn .out).toList) ∧
    deniedFile.Writes (deniedFile.runFile ⟨"/a", by decide⟩ false).1 ""
      "IO error: PermissionError (/a)\n" ∧
    (deniedFile.runFile ⟨"/a", by decide⟩ false).2 = 1 := by
  obtain ⟨htexts, hfiles⟩ := outcome_agrees (σ := ReadOnly) false
  obtain ⟨e, hfault⟩ := exists_fault_of_toBool
    (show (tokenize "1 @").toBool = false by decide +kernel)
  obtain ⟨stream, hstream⟩ := exists_stream_of_toBool
    (show (tokenize "\"[label=\" +").toBool = true by decide +kernel)
  have hbad : (ofSource "\"[label=\" +" "<stdin>" false).ok = false := by decide +kernel
  refine ⟨⟨e, hfault, ((htexts "1 @" "<stdin>").of_fault e hfault).1⟩, ⟨stream, hstream, hbad,
    ((htexts _ "<stdin>").error_iff stream hstream rfl).mp hbad⟩, ?_⟩
  obtain ⟨out, diagnostics, hwrites, -, hone, hout⟩ := hfiles deniedFile ⟨"/a", by decide⟩
  have hdenied : FileSystem.tokenize (deniedFile.filesRead ⟨"/a", by decide⟩) ⟨"/a", by decide⟩ =
      .error (.unreadable ⟨"PermissionError", "/a"⟩) := by
    rw [Surroundings.filesRead_eq (fun _ hhandler => absurd hhandler List.not_mem_nil)]
    rfl
  obtain rfl := hout _ hdenied
  obtain rfl : diagnostics = "IO error: PermissionError (/a)\n" :=
    (String.empty_append.symm.trans hwrites.diagnostics.symm).trans (by decide +kernel)
  exact ⟨hwrites, hone (by decide)⟩

end Run

namespace Surroundings

variable {σ φ : Type} [FileSystem σ φ] {s : Surroundings σ φ} {path : Path} {stream : TokenStream}

theorem runFile_listing (h : FileSystem.tokenize (s.filesRead path) path = .ok stream) :
    s.Writes (s.runFile path true).1 (Run.listing stream) "" ∧ (s.runFile path true).2 = 0 := by
  obtain ⟨text, hscan, hrun⟩ := Run.ofRead_of_ok h true
  exact runFile_of_gives (hrun ▸ Run.ofSource_listing hscan path.text)

theorem runFile_graph (h : FileSystem.tokenize (s.filesRead path) path = .ok stream) :
    ∃ graph, stream.parse.tree.graph .plain = .ok graph ∧
      s.Writes (s.runFile path false).1 graph (Run.reports stream.parse.errors) ∧
      (s.runFile path false).2 = if stream.parse.errors.isEmpty then 0 else 1 := by
  obtain ⟨text, hscan, hrun⟩ := Run.ofRead_of_ok h false
  obtain ⟨t, -, hgraph⟩ := Run.exists_graph hscan
  exact ⟨_, hgraph, runFile_of_gives (hrun ▸ Run.ofSource_graph hscan hgraph path.text)⟩

/-- A run of a file shows what the library finds in the file: why it has no tokens, or else its
tokens, or its graph and its mistakes. That holds in any file system, whatever is read from it or
keeps it from being read. The files count as they are when the file is read; they are what they
were before the run unless a log that is kept in a file takes the record of the reading. -/
theorem runFile_shows (s : Surroundings σ φ) (path : Path) (showTokens : Bool) :
    let files := s.filesRead path
    let s' := (s.runFile path showTokens).1
    let status := (s.runFile path showTokens).2
    ((∀ handler ∈ s.logging.handlers, Severity.info.reaches handler.threshold →
      handler.sink = .console) → files = s.files) ∧
    (∀ failure, FileSystem.tokenize files path = .error failure →
      s.Writes s' "" (failure.text ++ "\n") ∧ status = 1) ∧
    ∀ stream, FileSystem.tokenize files path = .ok stream →
      (showTokens = true → s.Writes s' (Run.listing stream) "" ∧ status = 0) ∧
      (showTokens = false → ∃ result graph, FileSystem.parse files path = .ok result ∧
        result.tree.graph .plain = .ok graph ∧
        s.Writes s' graph (Run.reports result.errors) ∧
        (status = 0 ↔ result.errors = []) ∧ (status = 0 ∨ status = 1)) := by
  refine ⟨fun hconsole => filesRead_eq hconsole path, ?_, ?_⟩
  · intro failure h
    exact runFile_of_gives (Run.ofRead_of_error h showTokens)
  · intro stream h
    constructor
    · rintro rfl
      exact runFile_listing h
    · rintro rfl
      obtain ⟨graph, hgraph, hwrites, hstatus⟩ := runFile_graph h
      refine ⟨stream.parse, graph, by rw [FileSystem.parse, h]; rfl, hgraph, hwrites, ?_, ?_⟩
      · rw [hstatus]
        cases stream.parse.errors <;> simp
      · rw [hstatus]
        cases stream.parse.errors <;> simp

/-- A file whose text lacks an operand, among others that may not be read. -/
def damagedFile : Surroundings ReadOnly Empty :=
  .start
    ⟨fun path => if path.text = "/a" then .ok "1 +\r".toUTF8 else .error (.ofErrorNumber 13)⟩ ""

theorem damagedFile_shows :
    (∃ stream, FileSystem.tokenize damagedFile.files ⟨"/a", by decide⟩ = .ok stream ∧
      damagedFile.Writes (damagedFile.runFile ⟨"/a", by decide⟩ true).1 (Run.listing stream) "") ∧
    (∃ result graph, FileSystem.parse damagedFile.files ⟨"/a", by decide⟩ = .ok result ∧
      result.tree.graph .plain = .ok graph ∧
      damagedFile.Writes (damagedFile.runFile ⟨"/a", by decide⟩ false).1 graph
        (Run.reports result.errors) ∧
      (damagedFile.runFile ⟨"/a", by decide⟩ false).2 = 1) ∧
    damagedFile.Writes (damagedFile.runFile ⟨"b", by decide⟩ false).1 ""
      "IO error: PermissionError (b)\n" := by
  have hconsole : ∀ handler ∈ damagedFile.logging.handlers,
      Severity.info.reaches handler.threshold → handler.sink = .console := by decide
  have hread : FileSystem.readText damagedFile.files ⟨"/a", by decide⟩ = .ok "1 +\n" := rfl
  obtain ⟨stream, hscan⟩ := exists_stream_of_toBool
    (show (tokenize "1 +\n").toBool = true by decide +kernel)
  obtain ⟨hfilesA, -, hlisted⟩ := runFile_shows damagedFile ⟨"/a", by decide⟩ true
  obtain ⟨-, -, hgraph⟩ := runFile_shows damagedFile ⟨"/a", by decide⟩ false
  obtain ⟨hfilesB, hfailed, -⟩ := runFile_shows damagedFile ⟨"b", by decide⟩ false
  have htokens : FileSystem.tokenize damagedFile.files ⟨"/a", by decide⟩ = .ok stream := by
    rw [FileSystem.tokenize, hread]
    simp only [hscan, Except.mapError]
  have hdenied : FileSystem.tokenize damagedFile.files ⟨"b", by decide⟩ =
      .error (.unreadable ⟨"PermissionError", "b"⟩) := rfl
  have hdamaged : stream.parse.errors ≠ [] := by
    have herrors : (parseText "1 +\n").toOption.map (·.errors.isEmpty) = some false := by
      decide +kernel
    rw [parseText, hscan] at herrors
    intro hnone
    simp [Except.map, Except.toOption, hnone] at herrors
  rw [← hfilesA hconsole] at htokens
  rw [← hfilesB hconsole] at hdenied
  obtain ⟨result, graph, hresult, hdrawn, hwrites, hzero, hstatus⟩ :=
    (hgraph stream htokens).2 rfl
  have hparse : result = stream.parse := by
    rw [FileSystem.parse, htokens] at hresult
    exact (Except.ok.inj hresult).symm
  refine ⟨⟨stream, ?_, ((hlisted stream htokens).1 rfl).1⟩, ⟨result, graph, ?_, hdrawn, hwrites,
    ?_⟩, (hfailed _ hdenied).1⟩
  · rw [← hfilesA hconsole]
    exact htokens
  · rw [← hfilesA hconsole]
    exact hresult
  · refine hstatus.resolve_left (mt hzero.mp ?_)
    rw [hparse]
    exact hdamaged

end Surroundings

end LoxGraph
