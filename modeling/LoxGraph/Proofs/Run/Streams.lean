import LoxGraph.Proofs.Graph.Scanned
import LoxGraph.Run.File

/-!
What a run writes, channel by channel.

The events of a run say what is written on the output and what on the diagnostics. The
surroundings pass both on as they are: log lines have a channel of their own or go to files, and
complaints about such files have another one (`Surroundings.performAll_textOn`). So a run of a
file writes what its text, as it is read after the first log record, makes it write
(`Surroundings.runFile_of_gives`).
-/

namespace LoxGraph

namespace Written

/-- The text on one channel. -/
def textOn (channel : Channel) (pieces : List Written) : String :=
  String.join ((pieces.filter (·.channel == channel)).map text)

@[simp] theorem textOn_nil (channel : Channel) : textOn channel [] = "" := String.join_nil

@[simp] theorem textOn_cons (channel : Channel) (piece : Written) (pieces : List Written) :
    textOn channel (piece :: pieces) =
      (if piece.channel = channel then piece.text else "") ++ textOn channel pieces := by
  by_cases h : piece.channel = channel <;> simp [textOn, h]

@[simp] theorem textOn_append (channel : Channel) (pieces pieces' : List Written) :
    textOn channel (pieces ++ pieces') = textOn channel pieces ++ textOn channel pieces' := by
  simp [textOn]

@[simp] theorem textOn_map {α : Type} (channel channel' : Channel) (write : α → String)
    (items : List α) : textOn channel (items.map fun a => ⟨channel', write a⟩) =
      if channel' = channel then String.join (items.map write) else "" := by
  induction items with
  | nil => simp
  | cons a items ih =>
    rw [List.map_cons, textOn_cons, ih]
    split <;> simp

/-- The pieces that are no complaints of the log. -/
def told (pieces : List Written) : List Written := pieces.filter (·.channel != .complaint)

theorem told_append (pieces pieces' : List Written) :
    told (pieces ++ pieces') = told pieces ++ told pieces' := List.filter_append ..

theorem textOn_told {channel : Channel} (h : channel ≠ .complaint) (pieces : List Written) :
    textOn channel (told pieces) = textOn channel pieces := by
  have hchannel : ∀ piece : Written,
      (piece.channel == channel && piece.channel != .complaint) = (piece.channel == channel) := by
    intro piece
    by_cases hsame : piece.channel = channel <;> simp [hsame, h]
  simp only [textOn, told, List.filter_filter, hchannel]

end Written

variable {σ φ : Type}

/-- What a line of the log writes; in a file it is not on show. -/
def Sink.pieces : Sink φ × String → List Written
  | (.console, text) => [⟨.log, text⟩]
  | (.file _, _) => []

/-- What an event writes, where the lines of a record depend on the log and the time. -/
def Event.pieces (logging : Logging φ) (time : String) : Event → List Written
  | .out text => [⟨.out, text⟩]
  | .err text => [⟨.diagnostics, text⟩]
  | .log record => (logging.deliveries time record).flatMap Sink.pieces

/-- What an event writes by itself. The lines of a record depend on the log. -/
def Event.written? : Event → Option Written
  | .out text => some ⟨.out, text⟩
  | .err text => some ⟨.diagnostics, text⟩
  | .log _ => none

/-- What some events write by themselves, in order. -/
def Event.written (events : List Event) : List Written := events.filterMap written?

namespace Event

variable {α : Type}

@[simp] theorem written_nil : written [] = [] := rfl

@[simp] theorem written_out (text : String) (events : List Event) :
    written (.out text :: events) = ⟨.out, text⟩ :: written events := rfl

@[simp] theorem written_err (text : String) (events : List Event) :
    written (.err text :: events) = ⟨.diagnostics, text⟩ :: written events := rfl

@[simp] theorem written_log (record : LogRecord) (events : List Event) :
    written (.log record :: events) = written events := rfl

@[simp] theorem written_append (events events' : List Event) :
    written (events ++ events') = written events ++ written events' := List.filterMap_append

@[simp] theorem written_map_out (write : α → String) (items : List α) :
    written (items.map fun a => .out (write a)) = items.map fun a => ⟨.out, write a⟩ := by
  induction items with
  | nil => rfl
  | cons a items ih => rw [List.map_cons, written_out, ih, List.map_cons]

@[simp] theorem written_map_err (write : α → String) (items : List α) :
    written (items.map fun a => .err (write a)) = items.map fun a => ⟨.diagnostics, write a⟩ := by
  induction items with
  | nil => rfl
  | cons a items ih => rw [List.map_cons, written_err, ih, List.map_cons]

@[simp] theorem written_map_log (records : List LogRecord) : written (records.map log) = [] := by
  induction records with
  | nil => rfl
  | cons record records ih => rw [List.map_cons, written_log, ih]

/-- Log lines are written on no other channel. -/
theorem textOn_deliveries (deliveries : List (Sink φ × String)) {channel : Channel}
    (h : channel ≠ .log) : Written.textOn channel (deliveries.flatMap Sink.pieces) = "" := by
  induction deliveries with
  | nil => rfl
  | cons delivery deliveries ih =>
    obtain ⟨sink, text⟩ := delivery
    rw [List.flatMap_cons, Written.textOn_append, ih]
    cases sink with
    | console => simp [Sink.pieces, h.symm]
    | file file => rfl

theorem textOn_pieces (logging : Logging φ) (time : String) (events : List Event)
    {channel : Channel} (h : channel ≠ .log) :
    Written.textOn channel (events.flatMap (pieces logging time)) =
      Written.textOn channel (written events) := by
  induction events with
  | nil => rfl
  | cons event events ih =>
    rw [List.flatMap_cons, Written.textOn_append, ih]
    cases event with
    | out text => simp [pieces]
    | err text => simp [pieces]
    | log record => rw [written_log, pieces, textOn_deliveries _ h, String.empty_append]

end Event

namespace Run

/-- The text that a run writes on a channel. -/
def textOn (channel : Channel) (run : Run) : String :=
  Written.textOn channel (Event.written run.events)

/-- What a run writes on the output and on the diagnostics, and whether it ends well. -/
structure Gives (run : Run) (out diagnostics : String) (ok : Bool) : Prop where
  out : run.textOn .out = out
  diagnostics : run.textOn .diagnostics = diagnostics
  ok : run.ok = ok

theorem gives_self (run : Run) :
    run.Gives (run.textOn .out) (run.textOn .diagnostics) run.ok := ⟨rfl, rfl, rfl⟩

theorem gives_of_written {run : Run} {pieces : List Written}
    (h : Event.written run.events = pieces) :
    run.Gives (Written.textOn .out pieces) (Written.textOn .diagnostics pieces) run.ok where
  out := congrArg (Written.textOn .out) h
  diagnostics := congrArg (Written.textOn .diagnostics) h
  ok := rfl

theorem gives_err (text : String) : (⟨[.err text], false⟩ : Run).Gives "" text false := by
  have hwritten : Event.written (⟨[.err text], false⟩ : Run).events = [⟨.diagnostics, text⟩] := rfl
  simpa using gives_of_written hwritten

/-- The diagnostics of some mistakes, one on a line. -/
def reports (errors : List SyntaxError) : String :=
  String.join (errors.map fun e => e.report.text ++ "\n")

/-- The list of the tokens of a stream, one on a line. -/
def listing (stream : TokenStream) : String :=
  String.join (stream.toList.map fun t => t.listing ++ "\n")

variable {text : String} {stream : TokenStream}

/-- A lexical fault is the only thing that is reported. -/
theorem ofSource_of_error {e : LexicalError} (h : tokenize text = .error e) (name : String)
    (showTokens : Bool) :
    (ofSource text name showTokens).Gives "" (e.report.text ++ "\n") false := by
  have hrun : ofSource text name showTokens = ⟨[e.report.event], false⟩ := by rw [ofSource, h]
  rw [hrun]
  exact gives_err _

/-- Tokens are listed without a mistake. -/
theorem ofSource_listing (h : tokenize text = .ok stream) (name : String) :
    (ofSource text name true).Gives (listing stream) "" true := by
  have hwritten : Event.written (ofSource text name true).events =
      stream.toList.map fun t => ⟨.out, t.listing ++ "\n"⟩ := by
    simp [ofSource, h]
  have hok : (ofSource text name true).ok = true := by simp [ofSource, h]
  simpa [hok, listing] using gives_of_written hwritten

/-- A text that can be scanned has a graph, however damaged. -/
theorem exists_graph (h : tokenize text = .ok stream) :
    ∃ t, stream.parse.tree.labels = .ok t ∧
      stream.parse.tree.graph .plain = .ok (DotStyle.plain.graph t.statements) := by
  obtain ⟨t, ht⟩ := (Expr.scanned_parse h).exists_labels
  exact ⟨t, ht, by rw [Expr.graph, ht]; rfl⟩

/-- The mistakes are reported and the graph is written. -/
theorem ofSource_graph {graph : String} (h : tokenize text = .ok stream)
    (hgraph : stream.parse.tree.graph .plain = .ok graph) (name : String) :
    (ofSource text name false).Gives graph (reports stream.parse.errors)
      stream.parse.errors.isEmpty := by
  have hwritten : Event.written (ofSource text name false).events =
      (stream.parse.errors.map fun e => ⟨.diagnostics, e.report.text ++ "\n"⟩) ++
        [⟨.out, graph⟩] := by
    simp [ofSource, h, Expr.graphEvents, hgraph, Report.event]
  have hok : (ofSource text name false).ok = stream.parse.errors.isEmpty := by simp [ofSource, h]
  simpa [hok, reports] using gives_of_written hwritten

variable [FileSystem σ φ] {files : σ} {path : Path}

/-- A file without tokens is reported, whether it cannot be read or cannot be scanned. -/
theorem ofRead_of_error {failure : SourceFailure}
    (h : FileSystem.tokenize files path = .error failure) (showTokens : Bool) :
    (ofRead path showTokens (FileSystem.readText files path)).Gives "" (failure.text ++ "\n")
      false := by
  unfold FileSystem.tokenize at h
  cases hread : FileSystem.readText files path with
  | error fault =>
    obtain rfl : SourceFailure.unreadable ⟨fault.kind, path.text⟩ = failure := by
      simpa [hread] using h
    exact gives_err _
  | ok text =>
    cases hscan : LoxGraph.tokenize text with
    | error e =>
      obtain rfl : SourceFailure.lexical e = failure := by
        simpa [hread, hscan, Except.mapError] using h
      exact ofSource_of_error hscan path.text showTokens
    | ok stream => simp [hread, hscan, Except.mapError] at h

/-- A file with tokens is run as the text it holds. -/
theorem ofRead_of_ok (h : FileSystem.tokenize files path = .ok stream) (showTokens : Bool) :
    ∃ text, tokenize text = .ok stream ∧
      ofRead path showTokens (FileSystem.readText files path) =
        ofSource text path.text showTokens := by
  unfold FileSystem.tokenize at h
  cases hread : FileSystem.readText files path with
  | error fault => simp [hread] at h
  | ok text =>
    refine ⟨text, ?_, rfl⟩
    cases hscan : LoxGraph.tokenize text with
    | error e => simp [hread, hscan, Except.mapError] at h
    | ok stream' => simpa [hread, hscan, Except.mapError] using h

end Run

/-- A record goes where a handler that it reaches writes, or to the console. -/
theorem Logging.deliveries_sink {logging : Logging φ} {time : String} {r : LogRecord}
    {delivery : Sink φ × String} (h : delivery ∈ logging.deliveries time r) :
    delivery.1 = .console ∨ ∃ handler ∈ logging.handlers,
      r.severity.reaches handler.threshold = true ∧ handler.sink = delivery.1 := by
  have hhandlers : ∀ handler ∈ logging.handlersOf r.logger, handler ∈ logging.handlers := by
    intro handler hhandler
    unfold handlersOf at hhandler
    split at hhandler
    · exact hhandler
    · simp at hhandler
  unfold deliveries at h
  split at h
  · split at h
    · split at h
      · exact .inl (by rw [List.mem_singleton.mp h])
      · simp at h
    · obtain ⟨handler, hhandler, rfl⟩ := List.mem_map.mp h
      obtain ⟨hmem, hreaches⟩ := List.mem_filter.mp hhandler
      exact .inr ⟨handler, hhandlers handler hmem, hreaches, rfl⟩
  · simp at h

/-- A record goes to the console when the handlers that it reaches write there. -/
theorem Logging.deliveries_console {logging : Logging φ} {time : String} {r : LogRecord}
    (h : ∀ handler ∈ logging.handlers,
      r.severity.reaches handler.threshold → handler.sink = .console) :
    ∀ delivery ∈ logging.deliveries time r, delivery.1 = .console := by
  intro delivery hdelivery
  rcases deliveries_sink hdelivery with hconsole | ⟨handler, hhandler, hreaches, hsink⟩
  · exact hconsole
  · rw [← hsink]
    exact h handler hhandler hreaches

namespace Surroundings

/-- The text that was written on a channel so far. -/
def textOn (channel : Channel) (s : Surroundings σ φ) : String :=
  Written.textOn channel s.written.toList

/-- Whether these texts were written on the output and the diagnostics from one state of the
surroundings to another. -/
structure Writes (s s' : Surroundings σ φ) (out diagnostics : String) : Prop where
  out : s'.textOn .out = s.textOn .out ++ out
  diagnostics : s'.textOn .diagnostics = s.textOn .diagnostics ++ diagnostics

/-- Whether some pieces were written from one state of the surroundings to another, besides
complaints of the log, and both go on logging alike. -/
structure Adds (s s' : Surroundings σ φ) (pieces : List Written) : Prop where
  told : Written.told s'.written.toList = Written.told s.written.toList ++ pieces
  logging : s'.logging = s.logging
  time : s'.time = s.time

theorem Adds.nothing (s : Surroundings σ φ) : s.Adds s [] := ⟨(List.append_nil _).symm, rfl, rfl⟩

theorem Adds.trans {s s' s'' : Surroundings σ φ} {pieces pieces' : List Written}
    (h : s.Adds s' pieces) (h' : s'.Adds s'' pieces') : s.Adds s'' (pieces ++ pieces') where
  told := by rw [h'.told, h.told, List.append_assoc]
  logging := h'.logging.trans h.logging
  time := h'.time.trans h.time

theorem write_adds (s : Surroundings σ φ) (channel : Channel) (text : String) :
    s.Adds (s.write channel text) (Written.told [⟨channel, text⟩]) where
  told := by rw [write, Array.toList_push, Written.told_append]
  logging := rfl
  time := rfl

variable [FileSystem σ φ]

theorem deliver_adds (s : Surroundings σ φ) (delivery : Sink φ × String) :
    s.Adds (s.deliver delivery) (Sink.pieces delivery) := by
  obtain ⟨sink, text⟩ := delivery
  cases sink with
  | console => exact write_adds s .log text
  | file file =>
    rw [deliver]
    split
    · exact ⟨(List.append_nil _).symm, rfl, rfl⟩
    · rename_i files complaint _
      have hfiles : s.Adds { s with files := files } [] := ⟨(List.append_nil _).symm, rfl, rfl⟩
      exact hfiles.trans (write_adds _ .complaint complaint)

theorem foldl_deliver_adds (deliveries : List (Sink φ × String)) (s : Surroundings σ φ) :
    s.Adds (deliveries.foldl deliver s) (deliveries.flatMap Sink.pieces) := by
  induction deliveries generalizing s with
  | nil => exact .nothing s
  | cons delivery deliveries ih => exact (deliver_adds s delivery).trans (ih _)

theorem perform_adds (s : Surroundings σ φ) (event : Event) :
    s.Adds (s.perform event) (event.pieces s.logging s.time) := by
  cases event with
  | out text => exact write_adds s .out text
  | err text => exact write_adds s .diagnostics text
  | log record => exact foldl_deliver_adds _ s

/-- Events write their pieces in order, whatever was written before. -/
theorem performAll_adds (s : Surroundings σ φ) (events : List Event) :
    s.Adds (s.performAll events) (events.flatMap (Event.pieces s.logging s.time)) := by
  induction events generalizing s with
  | nil => exact .nothing s
  | cons event events ih =>
    have hfirst := perform_adds s event
    have hothers := ih (s.perform event)
    rw [hfirst.logging, hfirst.time] at hothers
    exact hfirst.trans hothers

/-- What events write is written, and log records add nothing to it. -/
theorem performAll_textOn (s : Surroundings σ φ) (events : List Event) {channel : Channel}
    (h : channel ≠ .log) (h' : channel ≠ .complaint) :
    (s.performAll events).textOn channel = s.textOn channel ++ Written.textOn channel
      (Event.written events) := by
  rw [textOn, textOn, ← Written.textOn_told h', (s.performAll_adds events).told,
    Written.textOn_append, Written.textOn_told h', Event.textOn_pieces _ _ _ h]

theorem foldl_deliver_files {deliveries : List (Sink φ × String)}
    (h : ∀ delivery ∈ deliveries, delivery.1 = .console) (s : Surroundings σ φ) :
    (deliveries.foldl deliver s).files = s.files := by
  induction deliveries generalizing s with
  | nil => rfl
  | cons delivery deliveries ih =>
    obtain ⟨hfirst, hrest⟩ := List.forall_mem_cons.mp h
    obtain ⟨sink, text⟩ := delivery
    obtain rfl : sink = .console := hfirst
    rw [List.foldl_cons, ih hrest, deliver, write]

/-- The files as they are when a file is read, after this was logged. -/
def filesRead (s : Surroundings σ φ) (path : Path) : σ :=
  (s.perform (.log (Run.readingRecord path))).files

/-- The files are as before unless that record goes to one of them. -/
theorem filesRead_eq {s : Surroundings σ φ}
    (h : ∀ handler ∈ s.logging.handlers,
      Severity.info.reaches handler.threshold → handler.sink = .console) (path : Path) :
    s.filesRead path = s.files :=
  foldl_deliver_files (Logging.deliveries_console h) s

/-- A run of a file is one of events, of which the first is logged before the file is read. -/
theorem runFile_eq (s : Surroundings σ φ) (path : Path) (showTokens : Bool) :
    s.runFile path showTokens =
      let run := Run.ofRead path showTokens (FileSystem.readText (s.filesRead path) path)
      (s.performAll (.log (Run.readingRecord path) :: run.events), run.status) := rfl

/-- A file run writes what the run of the text that is read does, and ends as that one does. -/
theorem runFile_of_gives {s : Surroundings σ φ} {path : Path} {showTokens ok : Bool}
    {out diagnostics : String}
    (h : (Run.ofRead path showTokens (FileSystem.readText (s.filesRead path) path)).Gives
      out diagnostics ok) :
    s.Writes (s.runFile path showTokens).1 out diagnostics ∧
      (s.runFile path showTokens).2 = if ok then 0 else 1 := by
  obtain ⟨rfl, rfl, rfl⟩ := h
  rw [runFile_eq]
  exact ⟨⟨s.performAll_textOn _ (by decide) (by decide),
    s.performAll_textOn _ (by decide) (by decide)⟩, rfl⟩

end Surroundings

end LoxGraph
