import LoxGraph.Proofs.Files.Laws
import LoxGraph.Proofs.Run.Streams

/-!
What logging leaves alone.

The only file that events write to is the one that the log goes to, if there is one. As long as it
takes what is written to it, log lines are the only thing that depends on the log: without them,
events write what they write by themselves (`Surroundings.performAll_keeps`).
-/

namespace LoxGraph

variable {σ φ : Type}

/-- The pieces that are no log lines. -/
def Written.shown (pieces : List Written) : List Written := pieces.filter (·.channel != .log)

namespace Written

@[simp] theorem shown_append (pieces pieces' : List Written) :
    shown (pieces ++ pieces') = shown pieces ++ shown pieces' := List.filter_append ..

/-- The output is among what is shown. -/
theorem outText_shown (pieces : List Written) : outText (shown pieces) = outText pieces := by
  have hchannel : ∀ piece : Written,
      (piece.channel == .out && piece.channel != .log) = (piece.channel == .out) := by
    intro piece
    cases piece.channel <;> rfl
  simp only [outText, shown, List.filter_filter, hchannel]

end Written

/-- Whether the log goes to no file but one, if there is one. -/
def Logging.Within (file : Option φ) (logging : Logging φ) : Prop :=
  ∀ handler ∈ logging.handlers, ∀ f, handler.sink = .file f → f ∈ file

/-- A record goes to no other file. -/
theorem Logging.Within.deliveries {file : Option φ} {logging : Logging φ}
    (h : logging.Within file) (time : String) (r : LogRecord) :
    ∀ delivery ∈ logging.deliveries time r, ∀ f, delivery.1 = .file f → f ∈ file := by
  intro delivery hdelivery f hfile
  rcases deliveries_sink hdelivery with hconsole | ⟨handler, hhandler, -, hsink⟩
  · rw [hconsole] at hfile
    cases hfile
  · exact h handler hhandler f (hsink.trans hfile)

namespace Surroundings

/-- What was written so far, without the log lines. -/
def shown (s : Surroundings σ φ) : List Written := Written.shown s.written.toList

variable [FileSystem σ φ] {file : Option φ}

/-- Whether from one state of the surroundings to another no file was written to but one, if there
is one, and nothing but some pieces was shown, if this file took what was written to it. -/
structure Keeps (file : Option φ) (s s' : Surroundings σ φ) (pieces : List Written) : Prop where
  files : FileSystem.WrittenTo file s.files s'.files
  shown : FileSystem.Takes file s.files → s'.shown = s.shown ++ pieces

theorem Keeps.nothing (file : Option φ) (s : Surroundings σ φ) : s.Keeps file s [] :=
  ⟨.nothing, fun _ => (List.append_nil _).symm⟩

theorem Keeps.trans {s s' s'' : Surroundings σ φ} {pieces pieces' : List Written}
    (h : s.Keeps file s' pieces) (h' : s'.Keeps file s'' pieces') :
    s.Keeps file s'' (pieces ++ pieces') where
  files := h.files.trans h'.files
  shown htakes := by
    rw [h'.shown (htakes.of_writtenTo h.files), h.shown htakes, List.append_assoc]

theorem write_keeps (file : Option φ) (s : Surroundings σ φ) (channel : Channel) (text : String) :
    s.Keeps file (s.write channel text) (Written.shown [⟨channel, text⟩]) where
  files := .nothing
  shown _ := by rw [shown, write, Array.toList_push, Written.shown_append, shown]

/-- A log line is not shown, and a file that takes it is the only one that changes. -/
theorem deliver_keeps {delivery : Sink φ × String} (h : ∀ f, delivery.1 = .file f → f ∈ file)
    (s : Surroundings σ φ) : s.Keeps file (s.deliver delivery) [] := by
  obtain ⟨sink, text⟩ := delivery
  cases sink with
  | console => exact write_keeps file s .log text
  | file f =>
    have hf := h f rfl
    have hwritten : FileSystem.WrittenTo file s.files (FileSystem.append s.files f text).1 :=
      .append .nothing hf text
    have htaken (htakes : FileSystem.Takes file s.files) :
        (FileSystem.append s.files f text).2 = none := htakes s.files .nothing f hf text
    rw [deliver]
    generalize FileSystem.append s.files f text = result at hwritten htaken ⊢
    obtain ⟨files, _ | complaint⟩ := result
    · exact ⟨hwritten, fun _ => (List.append_nil _).symm⟩
    · exact ⟨hwritten, fun htakes => absurd (htaken htakes) (Option.some_ne_none complaint)⟩

theorem foldl_deliver_keeps {deliveries : List (Sink φ × String)}
    (h : ∀ delivery ∈ deliveries, ∀ f, delivery.1 = .file f → f ∈ file) (s : Surroundings σ φ) :
    s.Keeps file (deliveries.foldl deliver s) [] := by
  induction deliveries generalizing s with
  | nil => exact .nothing file s
  | cons delivery deliveries ih =>
    obtain ⟨hfirst, hrest⟩ := List.forall_mem_cons.mp h
    exact (deliver_keeps hfirst s).trans (ih hrest _)

theorem perform_keeps {s : Surroundings σ φ} (h : s.logging.Within file) (event : Event) :
    s.Keeps file (s.perform event) (Event.written [event]) := by
  cases event with
  | out text => exact write_keeps file s .out text
  | err text => exact write_keeps file s .diagnostics text
  | log record => exact foldl_deliver_keeps (h.deliveries s.time record) s

/-- Events write to no file but that of the log, and show what they write by themselves. -/
theorem performAll_keeps {s : Surroundings σ φ} (h : s.logging.Within file) (events : List Event) :
    s.Keeps file (s.performAll events) (Event.written events) := by
  induction events generalizing s with
  | nil => exact .nothing file s
  | cons event events ih =>
    have hlater : (s.perform event).logging.Within file := by
      rw [(s.perform_adds event).logging]
      exact h
    have hboth := (perform_keeps h event).trans (ih hlater)
    rwa [← Event.written_append] at hboth

end Surroundings

end LoxGraph
