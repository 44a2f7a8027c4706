import LoxGraph.Run.Prompt
import LoxGraph.Proofs.Stepwise.Run
import LoxGraph.Proofs.Text.Lines

/-!
A prompt step by step.

A session asks for one line after another until there are none, and runs each of them by stages
of its own; an interrupt may come in place of a line. Whatever the lines hold, the session ends,
nothing but the interrupt is raised on the way, and it has done what `Surroundings.runPrompt` says
(`runPrompt_eq`).
-/

namespace LoxGraph

namespace Prompt

/-- The lines of a session that are read before an interrupt, if there is one. -/
def kept (interruptAfter : Option Nat) (lines : List (List Char)) : List (List Char) :=
  match interruptAfter with
  | none => lines
  | some n => lines.take n

theorem kept_nil (interruptAfter : Option Nat) : kept interruptAfter [] = [] := by
  cases interruptAfter with
  | none => rfl
  | some n => exact List.take_nil

theorem kept_cons {interruptAfter : Option Nat} (h : interruptAfter ≠ some 0) (line : List Char)
    (lines : List (List Char)) :
    kept interruptAfter (line :: lines) = line :: kept (interruptAfter.map (· - 1)) lines := by
  cases interruptAfter with
  | none => rfl
  | some n =>
    cases n with
    | zero => exact absurd rfl h
    | succ n => rfl

/-- The events of some lines, each of which was asked for. -/
def linesEvents (showTokens : Bool) (lines : List (List Char)) : List Event :=
  lines.flatMap fun line => .out mark :: lineEvents showTokens line

theorem linesEvents_cons (showTokens : Bool) (line : List Char) (lines : List (List Char)) :
    linesEvents showTokens (line :: lines) =
      (.out mark :: lineEvents showTokens line) ++ linesEvents showTokens lines := rfl

/-- The events of the end of a session, where the last mark gets no line. -/
def lastEvents : List Event := [.out mark, .out "\n"]

theorem linesRead_eq_kept {input : String} {lines : List (List Char)}
    (h : InLines input.toList lines) (interruptAfter : Option Nat) :
    linesRead input interruptAfter = kept interruptAfter lines := by
  rw [← h.splitLines_eq]
  cases interruptAfter <;> rfl

end Prompt

variable {σ φ : Type}

theorem Surroundings.performAll_append [FileSystem σ φ] (s : Surroundings σ φ)
    (events events' : List Event) :
    s.performAll (events ++ events') = (s.performAll events).performAll events' :=
  List.foldl_append

namespace Stepwise

/-- A session at a prompt: what has not been read, how many reads come before an interrupt if
there is one, and what the session acts on. -/
structure Session (σ φ : Type) where
  unread : List Char
  patience : Option Nat
  around : Surroundings σ φ

namespace Session

/-- The session when the next line is read. -/
def behindLine (session : Session σ φ) : Session σ φ :=
  { session with
    unread := session.unread.drop (frontLength session.unread)
    patience := session.patience.map (· - 1) }

variable [FileSystem σ φ]

def perform (session : Session σ φ) (events : List Event) : Session σ φ :=
  { session with around := session.around.performAll events }

theorem perform_unread (session : Session σ φ) (events : List Event) :
    (session.perform events).unread = session.unread := rfl

theorem perform_perform (session : Session σ φ) (events events' : List Event) :
    (session.perform events).perform events' = session.perform (events ++ events') := by
  rw [perform, perform, perform, Surroundings.performAll_append]

theorem behindLine_perform (session : Session σ φ) (events : List Event) :
    (session.perform events).behindLine = session.behindLine.perform events := rfl

end Session

/-- What may be raised to end a session: an interrupt, or a mistake that was not reported. -/
inductive Departure where
  | interrupt
  | unreported (e : SyntaxError)

abbrev Prompting (σ φ : Type) := Action Departure (Session σ φ)

/-- Reads a line, which is empty at the end. An interrupt takes its place. -/
def readLine : Prompting σ φ (List Char) := do
  let session ← get
  if session.patience = some 0 then throw (.report .interrupt)
  else
    set session.behindLine
    return session.unread.take (frontLength session.unread)

theorem readLine_run_of_interrupt (session : Session σ φ) (h : session.patience = some 0) :
    readLine.run session = .error (.report .interrupt) session := by
  rw [readLine, Action.run_bind_get, if_pos h]
  rfl

theorem readLine_run (session : Session σ φ) (h : session.patience ≠ some 0) :
    readLine.run session =
      .ok (session.unread.take (frontLength session.unread)) session.behindLine := by
  rw [readLine, Action.run_bind_get, if_neg h]
  rfl

variable [FileSystem σ φ]

def say (text : String) : Prompting σ φ Unit := modify (·.perform [.out text])

/-- Runs a line, unless it is blank. -/
def answer (showTokens : Bool) (line : List Char) : Prompting σ φ Unit :=
  if isBlankLine line then pure ()
  else match run (String.ofList line) Prompt.sourceName showTokens with
    | .ok run => modify (·.perform run.events)
    | .error (.report e) => throw (.report (.unreported e))
    | .error (.mishap m) => throw (.mishap m)

/-- Asks for lines and answers them until there are none. The clock bounds the number of
rounds. -/
def answerLines (showTokens : Bool) : Nat → Prompting σ φ Unit
  | 0 => throw (.mishap .endlessLoop)
  | clock + 1 => do
    say Prompt.mark
    let line ← readLine
    if line = [] then say "\n"
    else
      answer showTokens line
      answerLines showTokens clock

/-- An interrupt ends a session as the end of the lines does. -/
def depart : Raised Departure → Prompting σ φ Unit
  | .report .interrupt => say "\n"
  | raised => throw raised

/-- A session from some round on. -/
def goOn (showTokens : Bool) (clock : Nat) : Prompting σ φ Unit :=
  tryCatch (answerLines showTokens clock) depart

/-- Runs a session. Each of its rounds but the last one reads a character. -/
def runPrompt (s : Surroundings σ φ) (input : String) (interruptAfter : Option Nat)
    (showTokens : Bool) : Except (Raised Departure) (Surroundings σ φ × Nat) :=
  match (goOn showTokens (input.toList.length + 1)).run ⟨input.toList, interruptAfter, s⟩ with
  | .ok _ session => .ok (session.around, 0)
  | .error raised _ => .error raised

section Rounds

variable (session : Session σ φ) (showTokens : Bool)

theorem say_run (text : String) :
    (say text).run session = .ok () (session.perform [.out text]) := rfl

theorem answer_run (line : List Char) : (answer showTokens line).run session =
    .ok () (session.perform (Prompt.lineEvents showTokens line)) := by
  unfold answer Prompt.lineEvents
  by_cases hblank : isBlankLine line = true
  · rw [if_pos hblank, if_pos hblank]
    rfl
  · rw [if_neg hblank, if_neg hblank, run_eq_ofSource]
    rfl

/-- An interrupt in place of a line ends the session. -/
theorem goOn_run_of_interrupt (h : session.patience = some 0) (clock : Nat) :
    (goOn showTokens (clock + 1)).run session = .ok () (session.perform Prompt.lastEvents) := by
  have hread := readLine_run_of_interrupt (session.perform [.out Prompt.mark]) h
  rw [goOn, answerLines, Action.run_tryCatch_bind_of_ok (say_run session Prompt.mark),
    Action.run_tryCatch_of_error (Action.run_bind_of_error hread)]
  rfl

/-- So does the end of the lines. -/
theorem goOn_run_of_ended (h : session.patience ≠ some 0) (hunread : session.unread = [])
    (clock : Nat) : (goOn showTokens (clock + 1)).run session =
      .ok () (session.behindLine.perform Prompt.lastEvents) := by
  have hread := readLine_run (session.perform [.out Prompt.mark]) h
  rw [Session.perform_unread, hunread, List.take_nil, Session.behindLine_perform] at hread
  rw [goOn, answerLines, Action.run_tryCatch_bind_of_ok (say_run session Prompt.mark),
    Action.run_tryCatch_bind_of_ok hread, if_pos rfl]
  rfl

/-- A line is answered in one round, and nothing but what it did goes over to the next one. -/
theorem goOn_run_of_line {line : List Char} (h : session.patience ≠ some 0)
    (hline : session.unread.take (frontLength session.unread) = line) (hne : line ≠ [])
    (clock : Nat) : (goOn showTokens (clock + 1)).run session = (goOn showTokens clock).run
      (session.behindLine.perform (.out Prompt.mark :: Prompt.lineEvents showTokens line)) := by
  have hread := readLine_run (session.perform [.out Prompt.mark]) h
  rw [Session.perform_unread, hline, Session.behindLine_perform] at hread
  rw [goOn, answerLines, Action.run_tryCatch_bind_of_ok (say_run session Prompt.mark),
    Action.run_tryCatch_bind_of_ok hread, if_neg hne,
    Action.run_tryCatch_bind_of_ok (answer_run _ showTokens line), Session.perform_perform]
  rfl

/-- A session answers the lines that it is to read, one after another, and ends. The induction is
on the lines, and each takes one round. -/
theorem goOn_run {lines : List (List Char)} (hunread : InLines session.unread lines) {clock : Nat}
    (hclock : session.unread.length < clock) :
    ∃ after, (goOn showTokens clock).run session = .ok () after ∧
      after.around = session.around.performAll
        (Prompt.linesEvents showTokens (Prompt.kept session.patience lines) ++
          Prompt.lastEvents) := by
  induction lines generalizing session clock with
  | nil =>
    obtain _ | clock := clock
    · exact absurd hclock (Nat.not_lt_zero _)
    rw [Prompt.kept_nil]
    by_cases hpatience : session.patience = some 0
    · exact ⟨_, goOn_run_of_interrupt session showTokens hpatience clock, rfl⟩
    · exact ⟨_, goOn_run_of_ended session showTokens hpatience hunread.flatten_eq.symm clock, rfl⟩
  | cons line lines ih =>
    obtain _ | clock := clock
    · exact absurd hclock (Nat.not_lt_zero _)
    by_cases hpatience : session.patience = some 0
    · refine ⟨_, goOn_run_of_interrupt session showTokens hpatience clock, ?_⟩
      rw [hpatience]
      rfl
    · obtain ⟨hline, hothers, hne⟩ := hunread.take_front
      have hshorter : (session.unread.drop (frontLength session.unread)).length < clock := by
        have hlength := congrArg List.length (List.take_append_drop
          (frontLength session.unread) session.unread)
        rw [hline, List.length_append] at hlength
        have hpositive := List.length_pos_iff.mpr hne
        omega
      obtain ⟨after, hrun, haround⟩ := ih
        (session.behindLine.perform (.out Prompt.mark :: Prompt.lineEvents showTokens line))
        hothers hshorter
      refine ⟨after, (goOn_run_of_line session showTokens hpatience hline hne clock).trans hrun, ?_⟩
      rw [haround, Prompt.kept_cons hpatience, Prompt.linesEvents_cons, List.append_assoc,
        Surroundings.performAll_append _ (.out Prompt.mark :: _)]
      rfl

end Rounds

/-- A session comes to its end, whatever its lines hold and whenever it is interrupted, and has
done then what its lines do one by one. -/
theorem runPrompt_eq (s : Surroundings σ φ) (input : String) (interruptAfter : Option Nat)
    (showTokens : Bool) : runPrompt s input interruptAfter showTokens =
      .ok (s.runPrompt input interruptAfter showTokens) := by
  have hlines := inLines_splitLines input.toList
  obtain ⟨after, hrun, haround⟩ := goOn_run ⟨input.toList, interruptAfter, s⟩ showTokens hlines
    (Nat.lt_succ_self _)
  rw [runPrompt, hrun, Surroundings.runPrompt, Prompt.events,
    Prompt.linesRead_eq_kept hlines interruptAfter]
  exact congrArg (fun around => Except.ok (around, 0)) haround

end Stepwise

end LoxGraph
