import LoxGraph.Files.Tree
import LoxGraph.Proofs.Run.Streams
import LoxGraph.Proofs.Stepwise.Prompting

/-!
The lines of a session are independent.

What a session writes, on the output and on the error stream with its log lines, is what its lines
write one by one, each run by itself (`Surroundings.runPrompt_shows_lines`). So sessions can be put
one behind another, a line can be replaced without a change to what the others write, and an
interrupt is like the end of the input (`Surroundings.runPrompt_line_by_line`).
-/

namespace LoxGraph

namespace Written

/-- The text on some of the channels. -/
def textOf (shown : Channel → Bool) (pieces : List Written) : String :=
  String.join ((pieces.filter fun piece => shown piece.channel).map text)

theorem outText_eq (pieces : List Written) : outText pieces = textOf (· == .out) pieces := rfl

/-- Whether a channel is one of the error stream, complaints left out. -/
def onError (channel : Channel) : Bool := channel == .diagnostics || channel == .log

theorem errText_eq (pieces : List Written) : errText pieces = textOf onError pieces := rfl

variable (shown : Channel → Bool)

theorem textOf_nil : textOf shown [] = "" := rfl

theorem textOf_cons (piece : Written) (pieces : List Written) :
    textOf shown (piece :: pieces) =
      (if shown piece.channel then piece.text else "") ++ textOf shown pieces := by
  by_cases h : shown piece.channel <;> simp [textOf, h]

theorem textOf_append (pieces pieces' : List Written) :
    textOf shown (pieces ++ pieces') = textOf shown pieces ++ textOf shown pieces' := by
  simp [textOf]

theorem textOf_flatMap {α : Type} (write : α → List Written) (items : List α) :
    textOf shown (items.flatMap write) = String.join (items.map fun a => textOf shown (write a)) := by
  induction items with
  | nil => rfl
  | cons a items ih =>
    rw [List.flatMap_cons, textOf_append, ih, List.map_cons, String.join_cons]

/-- Complaints of the log make no difference to other text. -/
theorem textOf_told (h : shown .complaint = false) (pieces : List Written) :
    textOf shown (told pieces) = textOf shown pieces := by
  have hchannel : ∀ piece : Written,
      (shown piece.channel && piece.channel != .complaint) = shown piece.channel := by
    intro piece
    by_cases hcomplaint : piece.channel = .complaint <;> simp [hcomplaint, h]
  simp only [textOf, told, List.filter_filter, hchannel]

theorem outText_told (pieces : List Written) : outText (told pieces) = outText pieces :=
  textOf_told (· == .out) rfl pieces

theorem errText_told (pieces : List Written) : errText (told pieces) = errText pieces :=
  textOf_told onError rfl pieces

end Written

namespace Surroundings

variable {σ φ : Type}

/-- Whether these texts were written on the output and on the error stream from one state of the
surroundings to another. -/
structure Shows (s s' : Surroundings σ φ) (out err : String) : Prop where
  out : Written.outText s'.written.toList = Written.outText s.written.toList ++ out
  err : Written.errText s'.written.toList = Written.errText s.written.toList ++ err

theorem Adds.shows {s s' : Surroundings σ φ} {pieces : List Written} (h : s.Adds s' pieces) :
    s.Shows s' (Written.outText pieces) (Written.errText pieces) where
  out := by
    rw [← Written.outText_told, h.told, Written.outText_eq, Written.textOf_append,
      ← Written.outText_eq, ← Written.outText_eq, Written.outText_told]
  err := by
    rw [← Written.errText_told, h.told, Written.errText_eq, Written.textOf_append,
      ← Written.errText_eq, ← Written.errText_eq, Written.errText_told]

variable [FileSystem σ φ]

/-- What events write where nothing has been written before. -/
def alone (s : Surroundings σ φ) (events : List Event) : List Written :=
  ({ s with written := #[] }.performAll events).written.toList

theorem told_alone (s : Surroundings σ φ) (events : List Event) :
    Written.told (s.alone events) = events.flatMap (Event.pieces s.logging s.time) :=
  ({ s with written := #[] }.performAll_adds events).told

/-- What a line writes that is run by itself. A blank line is not run. -/
def lineAlone (s : Surroundings σ φ) (showTokens : Bool) (line : List Char) : List Written :=
  if isBlankLine line then []
  else s.alone (Run.ofSource (String.ofList line) Prompt.sourceName showTokens).events

/-- What some lines write on the output, each after the mark that asks for it. -/
def linesOut (s : Surroundings σ φ) (showTokens : Bool) (lines : List (List Char)) : String :=
  String.join (lines.map fun line => Prompt.mark ++ Written.outText (s.lineAlone showTokens line))

/-- What some lines write on the error stream. -/
def linesErr (s : Surroundings σ φ) (showTokens : Bool) (lines : List (List Char)) : String :=
  String.join (lines.map fun line => Written.errText (s.lineAlone showTokens line))

variable (s : Surroundings σ φ) (showTokens : Bool)

theorem linesOut_cons (line : List Char) (lines : List (List Char)) :
    s.linesOut showTokens (line :: lines) = Prompt.mark ++
      Written.outText (s.lineAlone showTokens line) ++ s.linesOut showTokens lines := by
  simp [linesOut]

theorem linesErr_cons (line : List Char) (lines : List (List Char)) :
    s.linesErr showTokens (line :: lines) =
      Written.errText (s.lineAlone showTokens line) ++ s.linesErr showTokens lines := by
  simp [linesErr]

theorem linesOut_append (lines lines' : List (List Char)) :
    s.linesOut showTokens (lines ++ lines') =
      s.linesOut showTokens lines ++ s.linesOut showTokens lines' := by
  simp [linesOut]

theorem linesErr_append (lines lines' : List (List Char)) :
    s.linesErr showTokens (lines ++ lines') =
      s.linesErr showTokens lines ++ s.linesErr showTokens lines' := by
  simp [linesErr]

theorem pieces_lineEvents (line : List Char) :
    (Prompt.lineEvents showTokens line).flatMap (Event.pieces s.logging s.time) =
      Written.told (s.lineAlone showTokens line) := by
  rw [Prompt.lineEvents, lineAlone]
  split
  · rfl
  · rw [told_alone]

theorem pieces_linesEvents (lines : List (List Char)) :
    (Prompt.linesEvents showTokens lines).flatMap (Event.pieces s.logging s.time) =
      lines.flatMap fun line =>
        ⟨.out, Prompt.mark⟩ :: Written.told (s.lineAlone showTokens line) := by
  simp only [Prompt.linesEvents, List.flatMap_assoc, List.flatMap_cons, pieces_lineEvents]
  rfl

/-- A session writes what the lines do that are read in it, each by itself, and ends with a mark
that gets no line. -/
theorem runPrompt_shows_lines {input : String} {lines : List (List Char)}
    (h : InLines input.toList lines) (interruptAfter : Option Nat) :
    let kept := Prompt.kept interruptAfter lines
    s.Shows (s.runPrompt input interruptAfter showTokens).1
      (s.linesOut showTokens kept ++ Prompt.mark ++ "\n") (s.linesErr showTokens kept) := by
  intro kept
  have hevents : Prompt.events input interruptAfter showTokens =
      Prompt.linesEvents showTokens kept ++ Prompt.lastEvents := by
    rw [Prompt.events, Prompt.linesRead_eq_kept h]
    rfl
  have hlast : Prompt.lastEvents.flatMap (Event.pieces s.logging s.time) =
      [⟨.out, Prompt.mark⟩, ⟨.out, "\n"⟩] := rfl
  have hmark : Written.onError .out = false := rfl
  have hshows := (s.performAll_adds (Prompt.events input interruptAfter showTokens)).shows
  rw [hevents, List.flatMap_append, pieces_linesEvents, hlast] at hshows
  simp only [Written.outText_eq, Written.errText_eq, Written.textOf_append,
    Written.textOf_flatMap, Written.textOf_cons, Written.textOf_nil,
    Written.textOf_told (· == .out) rfl, Written.textOf_told Written.onError rfl, hmark,
    beq_self_eq_true, Bool.false_eq_true, if_true, if_false, String.empty_append,
    String.append_empty, ← String.append_assoc] at hshows
  rw [runPrompt, hevents]
  exact hshows

/-- A session for a text behind whole lines goes on like a session of its own, but for the last
mark of the session for those lines. -/
theorem runPrompt_append {first : String} (h : EndsLine first.toList) (second : String) :
    ∃ out out' err err',
      s.Shows (s.runPrompt first none showTokens).1 (out ++ Prompt.mark ++ "\n") err ∧
      s.Shows (s.runPrompt second none showTokens).1 out' err' ∧
      s.Shows (s.runPrompt (first ++ second) none showTokens).1 (out ++ out') (err ++ err') := by
  have hfirst := inLines_splitLines first.toList
  have hsecond := inLines_splitLines second.toList
  have hboth := hfirst.append h hsecond
  rw [← String.toList_append] at hboth
  have hshows := s.runPrompt_shows_lines showTokens hboth none
  simp only [Prompt.kept, linesOut_append, linesErr_append, String.append_assoc] at hshows
  refine ⟨_, _, _, _, s.runPrompt_shows_lines showTokens hfirst none,
    s.runPrompt_shows_lines showTokens hsecond none, ?_⟩
  simpa only [Prompt.kept, String.append_assoc] using hshows

/-- What stands before and behind a line writes the same, whatever the line holds. -/
theorem runPrompt_replace {before : String} (h : EndsLine before.toList) (after : String) :
    ∃ out out' err err', ∀ line, '\n' ∉ line →
      let shown := s.lineAlone showTokens (line ++ ['\n'])
      s.Shows (s.runPrompt (before ++ String.ofList (line ++ ['\n']) ++ after) none showTokens).1
        (out ++ (Prompt.mark ++ Written.outText shown) ++ out')
        (err ++ Written.errText shown ++ err') := by
  have hbefore := inLines_splitLines before.toList
  have hafter := inLines_splitLines after.toList
  refine ⟨s.linesOut showTokens (splitLines before.toList),
    s.linesOut showTokens (splitLines after.toList) ++ Prompt.mark ++ "\n",
    s.linesErr showTokens (splitLines before.toList),
    s.linesErr showTokens (splitLines after.toList), ?_⟩
  intro line hline shown
  have hlines : InLines (before ++ String.ofList (line ++ ['\n']) ++ after).toList
      (splitLines before.toList ++ (line ++ ['\n']) :: splitLines after.toList) := by
    have hwhole := hbefore.append h (.line hline hafter)
    simpa using hwhole
  have hshows := s.runPrompt_shows_lines showTokens hlines none
  simpa only [Prompt.kept, linesOut_append, linesErr_append, linesOut_cons, linesErr_cons,
    String.append_assoc] using hshows

/-- An interrupt is like the end of the input after the lines that were read. -/
theorem runPrompt_interrupt {input : String} {lines : List (List Char)}
    (h : InLines input.toList lines) (n : Nat) :
    s.runPrompt input (some n) showTokens =
      s.runPrompt (String.ofList (lines.take n).flatten) none showTokens := by
  have htaken : InLines (String.ofList (lines.take n).flatten).toList (lines.take n) := by
    rw [String.toList_ofList]
    exact h.take n
  rw [runPrompt, runPrompt, Prompt.events, Prompt.events, Prompt.linesRead_eq_kept h,
    Prompt.linesRead_eq_kept htaken]
  rfl

/-- The lines of a session are independent. For any input and any interrupt, a session ends well,
and it has written what the lines that were read write when each is run by itself. So sessions can
be put one behind another, lines write the same whatever line stands between them, and an
interrupt is like the end of the input. -/
theorem runPrompt_line_by_line :
    (∀ input, ∃ lines, InLines input.toList lines ∧
      (∀ interruptAfter, ∃ s',
        Stepwise.runPrompt s input interruptAfter showTokens = .ok (s', 0) ∧
        s.runPrompt input interruptAfter showTokens = (s', 0) ∧
        let kept := Prompt.kept interruptAfter lines
        s.Shows s' (s.linesOut showTokens kept ++ Prompt.mark ++ "\n")
          (s.linesErr showTokens kept)) ∧
      ∀ n, s.runPrompt input (some n) showTokens =
        s.runPrompt (String.ofList (lines.take n).flatten) none showTokens) ∧
    (∀ first second : String, EndsLine first.toList → ∃ out out' err err',
      s.Shows (s.runPrompt first none showTokens).1 (out ++ Prompt.mark ++ "\n") err ∧
      s.Shows (s.runPrompt second none showTokens).1 out' err' ∧
      s.Shows (s.runPrompt (first ++ second) none showTokens).1 (out ++ out') (err ++ err')) ∧
    ∀ before after : String, EndsLine before.toList → ∃ out out' err err', ∀ line, '\n' ∉ line →
      let shown := s.lineAlone showTokens (line ++ ['\n'])
      s.Shows (s.runPrompt (before ++ String.ofList (line ++ ['\n']) ++ after) none showTokens).1
        (out ++ (Prompt.mark ++ Written.outText shown) ++ out')
        (err ++ Written.errText shown ++ err') := by
  refine ⟨?_, fun first second h => s.runPrompt_append showTokens h second,
    fun before after h => s.runPrompt_replace showTokens h after⟩
  intro input
  have hlines := inLines_splitLines input.toList
  refine ⟨splitLines input.toList, hlines, ?_, s.runPrompt_interrupt showTokens hlines⟩
  intro interruptAfter
  exact ⟨(s.runPrompt input interruptAfter showTokens).1,
    Stepwise.runPrompt_eq s input interruptAfter showTokens, rfl,
    s.runPrompt_shows_lines showTokens hlines interruptAfter⟩

/-- Three lines, of which the first is missing a parenthesis, the second one is blank, and the last
one has a character of no token. -/
def brokenLines : List (List Char) := ["(1\n".toList, " \n".toList, "@".toList]

theorem brokenLines_line_by_line :
    let s : Surroundings Files (List String) := .start .empty ""
    (∃ s', Stepwise.runPrompt s "(1\n \n@" (some 2) false = .ok (s', 0) ∧
      s.Shows s' (s.linesOut false (brokenLines.take 2) ++ Prompt.mark ++ "\n")
        (s.linesErr false (brokenLines.take 2))) ∧
    (EndsLine "(1\n \n".toList ∧ ∃ out out' err err',
      s.Shows (s.runPrompt "(1\n \n" none false).1 (out ++ Prompt.mark ++ "\n") err ∧
      s.Shows (s.runPrompt "@" none false).1 out' err' ∧
      s.Shows (s.runPrompt ("(1\n \n" ++ "@") none false).1 (out ++ out') (err ++ err')) ∧
    '\n' ∉ [' '] ∧ ∃ out out' err err',
      let shown := s.lineAlone false ([' '] ++ ['\n'])
      s.Shows (s.runPrompt ("(1\n" ++ String.ofList ([' '] ++ ['\n']) ++ "@") none false).1
        (out ++ (Prompt.mark ++ Written.outText shown) ++ out')
        (err ++ Written.errText shown ++ err') := by
  intro s
  obtain ⟨hinputs, happend, hreplace⟩ := s.runPrompt_line_by_line false
  obtain ⟨lines, hlines, hsession, -⟩ := hinputs "(1\n \n@"
  obtain rfl : brokenLines = lines := (show brokenLines = _ by decide).trans hlines.splitLines_eq
  obtain ⟨s', hrun, -, hshows⟩ := hsession (some 2)
  obtain ⟨out, out', err, err', hline⟩ := hreplace "(1\n" "@" (by simp [EndsLine])
  have hends : EndsLine "(1\n \n".toList := by simp [EndsLine]
  exact ⟨⟨s', hrun, hshows⟩, ⟨hends, happend _ _ hends⟩, by decide, out, out', err, err',
    hline [' '] (by decide)⟩

end Surroundings

end LoxGraph
