import LoxGraph.Cursor
import LoxGraph.Proofs.Lexeme.Munch

/-!
The layout of a text.

A text that has tokens is gaps and lexemes in turn, where every lexeme is the
longest that stands at its place; and a text that is laid out so has these
tokens (`tokenize_eq_ok_iff`). The line of a token is counted up to its end.
-/

namespace LoxGraph

/-- Blanks and comments in front of a text. A comment runs to the next line
feed or to the end. -/
inductive Gap (after : List Char) : List Char → Prop
  | nil : Gap after []
  | blank {c : Char} {gap : List Char} (hblank : isBlank c) (hgap : Gap after gap) :
      Gap after (c :: gap)
  | comment {body gap : List Char} (hbody : '\n' ∉ body)
      (hends : ∀ c ∈ (gap ++ after).head?, c = '\n') (hgap : Gap after gap) :
      Gap after ('/' :: '/' :: (body ++ gap))

theorem Gap.prepend {after gap taken rest : List Char} (hgap : Gap after gap)
    (hfound : Reading.Found ⟨.gap, taken, rest⟩) (hrest : rest = gap ++ after) :
    Gap after (taken ++ gap) := by
  cases hfound with
  | blank hblank => exact .blank hblank hgap
  | comment hbody hends =>
    rw [hrest] at hends
    exact .comment hbody hends hgap

/-- The line that a place is on, by the text before it. -/
def lineAfter (before : List Char) : Int := 1 + (before.count '\n' : Int)

theorem lineAfter_append (before more : List Char) :
    lineAfter (before ++ more) = lineAfter before + (more.count '\n' : Int) := by
  simp [lineAfter, List.count_append, Int.add_assoc]

/-- The tokens of a text that stands behind another one. -/
inductive Layout : List Char → List Char → List Token → Prop
  | ended {before gap : List Char} (hgap : Gap [] gap) : Layout before gap []
  | token {before gap text rest : List Char} {kind : TokenKind} {literal : Value}
      {tokens : List Token} (hgap : Gap (text ++ rest) gap) (htext : IsLexeme text kind literal)
      (hmunch : Munch text rest) (hrest : Layout (before ++ gap ++ text) rest tokens) :
      Layout before (gap ++ (text ++ rest))
        (⟨kind, String.ofList text, literal, lineAfter (before ++ gap ++ text)⟩ :: tokens)

namespace Cursor

theorem line_pass_append (cursor : Cursor) (reading : Reading) (more : List Char) :
    (cursor.pass reading).line + (more.count '\n' : Int) =
      cursor.line + ((reading.taken ++ more).count '\n' : Int) := by
  simp [pass, List.count_append, Int.add_assoc]

/-- What an advance meets: behind a gap a lexeme, the end of the text, or a fault. -/
inductive Meets (cursor : Cursor) : Step → Cursor → Prop
  | token {gap text : List Char} {kind : TokenKind} {literal : Value} {next : Cursor}
      (hahead : cursor.ahead = gap ++ (text ++ next.ahead)) (hgap : Gap (text ++ next.ahead) gap)
      (htext : IsLexeme text kind literal) (hmunch : Munch text next.ahead)
      (hline : next.line = cursor.line + ((gap ++ text).count '\n' : Int)) :
      Meets cursor (.token ⟨kind, String.ofList text, literal, next.line⟩) next
  | ended {next : Cursor} (hgap : Gap [] cursor.ahead) (hnext : next.ahead = [])
      (hline : next.line = cursor.line + (cursor.ahead.count '\n' : Int)) :
      Meets cursor (.ended (Token.endOfText next.line)) next
  | failed {gap text : List Char} {fault : LexicalFault} {next : Cursor}
      (hahead : cursor.ahead = gap ++ (text ++ next.ahead)) (hgap : Gap (text ++ next.ahead) gap)
      (hfault : Reading.Found ⟨.fault fault, text, next.ahead⟩)
      (hline : next.line = cursor.line + ((gap ++ text).count '\n' : Int)) :
      Meets cursor (.failed ⟨next.line, fault⟩) next

/-- A gap that was passed belongs to what is met after it. -/
theorem Meets.pass {cursor next : Cursor} {step : Step} {reading : Reading}
    (h : (cursor.pass reading).Meets step next) (hpiece : reading.piece = .gap)
    (hfound : reading.Found) (hahead : cursor.ahead = reading.taken ++ reading.rest) :
    cursor.Meets step next := by
  obtain ⟨piece, taken, rest⟩ := reading
  obtain rfl : piece = .gap := hpiece
  cases h with
  | @token gap text kind literal _ hrest hgap htext hmunch hline =>
    refine .token ?_ (hgap.prepend hfound hrest) htext hmunch ?_
    · rw [hahead, List.append_assoc]
      exact congrArg (taken ++ ·) hrest
    · rw [hline, line_pass_append, List.append_assoc]
  | ended hgap hnext hline =>
    refine .ended ?_ hnext ?_
    · rw [hahead]
      exact hgap.prepend hfound (List.append_nil _).symm
    · rw [hline, line_pass_append, hahead]
      rfl
  | @failed gap text fault _ hrest hgap hfault hline =>
    refine .failed ?_ (hgap.prepend hfound hrest) hfault ?_
    · rw [hahead, List.append_assoc]
      exact congrArg (taken ++ ·) hrest
    · rw [hline, line_pass_append, List.append_assoc]

theorem advance_meets (cursor : Cursor) : cursor.Meets cursor.advance.1 cursor.advance.2 := by
  fun_induction advance cursor with
  | case1 cursor hahead =>
    apply Meets.ended
    · rw [hahead]
      exact .nil
    · exact hahead
    · simp [hahead]
  | case2 cursor c cs hahead reading after hgap ih =>
    obtain ⟨hfound, hsplit⟩ := Reading.next_eq_iff.mp (show Reading.next c cs = reading from rfl)
    exact ih.pass hgap hfound (by rw [hahead, hsplit])
  | case3 cursor c cs hahead reading after kind literal hpiece =>
    obtain ⟨hfound, hsplit⟩ := Reading.next_eq_iff.mp (show Reading.next c cs = reading from rfl)
    obtain ⟨htext, hmunch⟩ := hfound.of_lexeme hpiece
    have htaken : cursor.ahead = [] ++ (reading.taken ++ after.ahead) := hahead.trans hsplit.symm
    exact .token htaken .nil htext hmunch rfl
  | case4 cursor c cs hahead reading after fault hpiece =>
    obtain ⟨hfound, hsplit⟩ := Reading.next_eq_iff.mp (show Reading.next c cs = reading from rfl)
    have htaken : cursor.ahead = [] ++ (reading.taken ++ after.ahead) := hahead.trans hsplit.symm
    refine .failed htaken .nil ?_ rfl
    rw [← hpiece]
    exact hfound

theorem meets_of_advance {cursor next : Cursor} {step : Step}
    (h : cursor.advance = (step, next)) : cursor.Meets step next := by
  have hmeets := advance_meets cursor
  rw [h] at hmeets
  exact hmeets

theorem advance_nil {cursor : Cursor} (hahead : cursor.ahead = []) :
    cursor.advance = (.ended (Token.endOfText cursor.line), cursor) := by
  obtain ⟨start, current, line, ahead⟩ := cursor
  obtain rfl : ahead = [] := hahead
  rw [advance]

theorem advance_cons {cursor : Cursor} {c : Char} {cs : List Char} {reading : Reading}
    (hahead : cursor.ahead = c :: cs) (hnext : Reading.next c cs = reading) :
    cursor.advance = match reading.piece with
      | .gap => (cursor.pass reading).advance
      | .lexeme kind literal =>
        (.token ⟨kind, String.ofList reading.taken, literal, (cursor.pass reading).line⟩,
          cursor.pass reading)
      | .fault fault => (.failed ⟨(cursor.pass reading).line, fault⟩, cursor.pass reading) := by
  obtain ⟨start, current, line, ahead⟩ := cursor
  obtain rfl : ahead = c :: cs := hahead
  subst hnext
  exact advance.eq_def _

/-- An advance passes a gap. -/
theorem advance_gap {after gap : List Char} (hgap : Gap after gap) {cursor : Cursor}
    (hahead : cursor.ahead = gap ++ after) :
    ∃ behind : Cursor, cursor.advance = behind.advance ∧ behind.ahead = after ∧
      behind.line = cursor.line + (gap.count '\n' : Int) := by
  induction hgap generalizing cursor with
  | nil => exact ⟨cursor, rfl, hahead, by simp⟩
  | @blank c gap hblank hgap ih =>
    have hnext : Reading.next c (gap ++ after) = ⟨.gap, [c], gap ++ after⟩ :=
      Reading.next_eq_iff.mpr ⟨.blank hblank, rfl⟩
    have hrest : (cursor.pass ⟨.gap, [c], gap ++ after⟩).ahead = gap ++ after := rfl
    obtain ⟨behind, hadvance, hbehind, hline⟩ := ih hrest
    refine ⟨behind, (advance_cons hahead hnext).trans hadvance, hbehind, ?_⟩
    exact hline.trans (line_pass_append cursor _ gap)
  | @comment body gap hbody hends hgap ih =>
    have hnext : Reading.next '/' ('/' :: (body ++ (gap ++ after))) =
        ⟨.gap, '/' :: '/' :: body, gap ++ after⟩ :=
      Reading.next_eq_iff.mpr ⟨.comment hbody hends, rfl⟩
    have hrest : (cursor.pass ⟨.gap, '/' :: '/' :: body, gap ++ after⟩).ahead = gap ++ after := rfl
    obtain ⟨behind, hadvance, hbehind, hline⟩ := ih hrest
    have hcomment : cursor.ahead = '/' :: '/' :: (body ++ (gap ++ after)) := by
      rw [hahead]
      simp
    refine ⟨behind, (advance_cons hcomment hnext).trans hadvance, hbehind, ?_⟩
    exact hline.trans (line_pass_append cursor _ gap)

theorem advance_end {cursor : Cursor} (hgap : Gap [] cursor.ahead) :
    ∃ after : Cursor, cursor.advance = (.ended (Token.endOfText after.line), after) ∧
      after.line = cursor.line + (cursor.ahead.count '\n' : Int) := by
  obtain ⟨after, hadvance, hnil, hline⟩ := advance_gap hgap (List.append_nil _).symm
  exact ⟨after, hadvance.trans (advance_nil hnil), hline⟩

theorem advance_lexeme {gap text rest : List Char} {kind : TokenKind} {literal : Value}
    {cursor : Cursor} (hgap : Gap (text ++ rest) gap) (htext : IsLexeme text kind literal)
    (hmunch : Munch text rest) (hahead : cursor.ahead = gap ++ (text ++ rest)) :
    ∃ next : Cursor,
      cursor.advance = (.token ⟨kind, String.ofList text, literal, next.line⟩, next) ∧
      next.ahead = rest ∧ next.line = cursor.line + ((gap ++ text).count '\n' : Int) := by
  obtain ⟨behind, hadvance, hbehind, hline⟩ := advance_gap hgap hahead
  obtain ⟨c, cs, htextCons, -⟩ := htext.continues
  have hnext : Reading.next c (cs ++ rest) = ⟨.lexeme kind literal, text, rest⟩ :=
    Reading.next_eq_iff.mpr ⟨.lexeme htext hmunch, by rw [htextCons]; rfl⟩
  refine ⟨behind.pass ⟨.lexeme kind literal, text, rest⟩, ?_, rfl, ?_⟩
  · rw [htextCons] at hbehind
    exact hadvance.trans (advance_cons hbehind hnext)
  · simp only [pass, hline, List.count_append]
    omega

theorem advance_fault {gap taken rest : List Char} {fault : LexicalFault} {cursor : Cursor}
    (hgap : Gap (taken ++ rest) gap) (hfound : Reading.Found ⟨.fault fault, taken, rest⟩)
    (hahead : cursor.ahead = gap ++ (taken ++ rest)) :
    ∃ after : Cursor, cursor.advance = (.failed ⟨after.line, fault⟩, after) ∧
      after.ahead = rest ∧ after.line = cursor.line + ((gap ++ taken).count '\n' : Int) := by
  obtain ⟨behind, hadvance, hbehind, hline⟩ := advance_gap hgap hahead
  obtain ⟨c, cs, hcons⟩ : ∃ c cs, taken ++ rest = c :: cs := by
    cases hfound with
    | openQuotation | unknown => exact ⟨_, _, rfl⟩
  have hnext : Reading.next c cs = ⟨.fault fault, taken, rest⟩ :=
    Reading.next_eq_iff.mpr ⟨hfound, hcons⟩
  refine ⟨_, hadvance.trans (advance_cons (hbehind.trans hcons) hnext), rfl, ?_⟩
  simp only [pass, hline, List.count_append]
  omega

/-- The tokens that are met on the way to the end are those of a layout. -/
theorem layout_of_exhaustAfter {met : List Token} {hmet : ∀ t ∈ met, t.kind ≠ .endOfText}
    {cursor : Cursor} {before : List Char} {stream : TokenStream}
    (hline : cursor.line = lineAfter before) (h : (cursor.exhaustAfter met hmet).1 = .ok stream) :
    ∃ tokens, Layout before cursor.ahead tokens ∧ stream.tokens = met.reverse ++ tokens ∧
      stream.ending = Token.endOfText (lineAfter (before ++ cursor.ahead)) := by
  fun_induction exhaustAfter met hmet cursor generalizing before with
  | case1 met hmet cursor t next hstep ih =>
    cases meets_of_advance hstep with
    | @token gap text kind literal _ hahead hgap htext hmunch hnext =>
      have hbehind : next.line = lineAfter (before ++ gap ++ text) := by
        rw [hnext, hline, List.append_assoc, lineAfter_append]
      obtain ⟨tokens, hlayout, htokens, hending⟩ := ih hbehind h
      refine ⟨⟨kind, String.ofList text, literal, next.line⟩ :: tokens, ?_, ?_, ?_⟩
      · rw [hahead, hbehind]
        exact .token hgap htext hmunch hlayout
      · simp [htokens]
      · rw [hending, hahead]
        simp
  | case2 met hmet cursor t next hstep =>
    cases meets_of_advance hstep with
    | ended hgap _ hnext =>
      obtain rfl := Except.ok.inj h
      refine ⟨[], .ended hgap, (List.append_nil _).symm, ?_⟩
      show Token.endOfText next.line = _
      rw [hnext, hline, lineAfter_append]
  | case3 met hmet cursor e next hstep => exact nomatch h

theorem exhaustAfter_token {met : List Token} {hmet : ∀ t ∈ met, t.kind ≠ .endOfText}
    {cursor next : Cursor} {t : Token} (hstep : cursor.advance = (.token t, next)) :
    ∃ hmet', cursor.exhaustAfter met hmet = next.exhaustAfter (t :: met) hmet' := by
  refine ⟨List.forall_mem_cons.mpr ⟨advance_kind_ne_endOfText hstep, hmet⟩, ?_⟩
  rw [exhaustAfter]
  split
  · rename_i hstep'
    rw [hstep] at hstep'
    cases hstep'
    rfl
  · rename_i hstep'
    rw [hstep] at hstep'
    cases hstep'
  · rename_i hstep'
    rw [hstep] at hstep'
    cases hstep'

theorem exhaustAfter_ended {met : List Token} {hmet : ∀ t ∈ met, t.kind ≠ .endOfText}
    {cursor next : Cursor} {t : Token} (hstep : cursor.advance = (.ended t, next)) :
    ∃ stream, (cursor.exhaustAfter met hmet).1 = .ok stream ∧ stream.tokens = met.reverse ∧
      stream.ending = t := by
  rw [exhaustAfter]
  split
  · rename_i hstep'
    rw [hstep] at hstep'
    cases hstep'
  · rename_i hstep'
    rw [hstep] at hstep'
    cases hstep'
    exact ⟨_, rfl, rfl, rfl⟩
  · rename_i hstep'
    rw [hstep] at hstep'
    cases hstep'

/-- A text that is laid out is read to its end. -/
theorem exhaustAfter_of_layout {before ahead : List Char} {tokens : List Token}
    (hlayout : Layout before ahead tokens) (met : List Token)
    (hmet : ∀ t ∈ met, t.kind ≠ .endOfText) {cursor : Cursor} (hahead : cursor.ahead = ahead)
    (hline : cursor.line = lineAfter before) :
    ∃ stream, (cursor.exhaustAfter met hmet).1 = .ok stream ∧
      stream.tokens = met.reverse ++ tokens ∧
      stream.ending = Token.endOfText (lineAfter (before ++ ahead)) := by
  induction hlayout generalizing met cursor with
  | @ended before gap hgap =>
    obtain ⟨after, hstep, hlineAfter⟩ := advance_end (hahead ▸ hgap)
    obtain ⟨stream, hstream, htokens, hending⟩ := exhaustAfter_ended hstep
    refine ⟨stream, hstream, ?_, ?_⟩
    · rw [htokens, List.append_nil]
    · rw [hending, hlineAfter, hahead, hline, lineAfter_append]
  | @token before gap text rest kind literal tokens hgap htext hmunch hrest ih =>
    obtain ⟨next, hstep, hnext, hlineNext⟩ := advance_lexeme hgap htext hmunch hahead
    have hlineText : next.line = lineAfter (before ++ gap ++ text) := by
      rw [hlineNext, hline, List.append_assoc, lineAfter_append]
    obtain ⟨hmet', hexhaust⟩ := exhaustAfter_token hstep
    obtain ⟨stream, hstream, htokens, hending⟩ := ih _ hmet' hnext hlineText
    refine ⟨stream, ?_, ?_, ?_⟩
    · rw [hexhaust]
      exact hstream
    · rw [htokens, hlineText]
      simp
    · rw [hending]
      simp

end Cursor

/-- A text has tokens exactly if it is laid out as gaps and longest lexemes, and
the tokens are those of its lexemes. -/
theorem tokenize_eq_ok_iff {text : String} {stream : TokenStream} :
    tokenize text = .ok stream ↔ Layout [] text.toList stream.tokens ∧
      stream.ending = Token.endOfText (lineAfter text.toList) := by
  have hline : (Cursor.atStart text.toList).line = lineAfter [] := rfl
  constructor
  · intro h
    obtain ⟨tokens, hlayout, htokens, hending⟩ := Cursor.layout_of_exhaustAfter hline h
    rw [htokens]
    exact ⟨hlayout, hending⟩
  · rintro ⟨hlayout, hending⟩
    obtain ⟨read, hread, htokens, hendingRead⟩ :=
      Cursor.exhaustAfter_of_layout hlayout [] (by simp) rfl hline
    have hsame : read = stream := by
      cases read
      cases stream
      simp_all
    rw [← hsame]
    exact hread

theorem lineAfter_le_append (before more : List Char) :
    lineAfter before ≤ lineAfter (before ++ more) := by
  rw [lineAfter_append]
  omega

/-- Tokens are on the lines of their text, and none is on an earlier line than one before it. -/
theorem Layout.lines_rise {before text : List Char} {tokens : List Token}
    (h : Layout before text tokens) :
    tokens.Pairwise (·.line ≤ ·.line) ∧
      ∀ t ∈ tokens, lineAfter before ≤ t.line ∧ t.line ≤ lineAfter (before ++ text) := by
  induction h with
  | ended hgap => exact ⟨.nil, by simp⟩
  | @token before gap text rest kind literal tokens hgap htext hmunch hrest ih =>
    obtain ⟨hrises, hlines⟩ := ih
    have hfirst : lineAfter before ≤ lineAfter (before ++ gap ++ text) := by
      rw [List.append_assoc]
      exact lineAfter_le_append before (gap ++ text)
    have hlast := lineAfter_le_append (before ++ gap ++ text) rest
    have htext : before ++ (gap ++ (text ++ rest)) = before ++ gap ++ text ++ rest := by simp
    rw [htext]
    refine ⟨List.pairwise_cons.mpr ⟨fun t ht => (hlines t ht).1, hrises⟩, ?_⟩
    rw [List.forall_mem_cons]
    exact ⟨⟨hfirst, hlast⟩, fun t ht => ⟨Int.le_trans hfirst (hlines t ht).1, (hlines t ht).2⟩⟩

/-- The lines of the tokens of a text rise from the first line to that of the mark. -/
theorem tokenize_lines_rise {text : String} {stream : TokenStream}
    (h : tokenize text = .ok stream) :
    stream.toList.Pairwise (·.line ≤ ·.line) ∧
      ∀ t ∈ stream.toList, 1 ≤ t.line ∧ t.line ≤ stream.ending.line := by
  obtain ⟨hlayout, hending⟩ := tokenize_eq_ok_iff.mp h
  obtain ⟨hrises, hlines⟩ := hlayout.lines_rise
  have hlast : stream.ending.line = lineAfter ([] ++ text.toList) := by rw [hending]; rfl
  have hfirst : lineAfter [] = 1 := rfl
  rw [hfirst, ← hlast] at hlines
  rw [TokenStream.toList, List.pairwise_append, List.forall_mem_append, List.forall_mem_singleton]
  refine ⟨⟨hrises, List.pairwise_singleton _ _, ?_⟩, hlines, ?_, Int.le_refl _⟩
  · intro t ht ending hmem
    rw [List.mem_singleton.mp hmem]
    exact (hlines t ht).2
  · rw [hlast]
    exact lineAfter_le_append [] text.toList

/-- That a text has tokens can be computed. -/
theorem exists_stream_of_toBool {text : String} (h : (tokenize text).toBool = true) :
    ∃ stream, tokenize text = .ok stream := by
  cases htokenize : tokenize text with
  | error e => simp [htokenize, Except.toBool] at h
  | ok stream => exact ⟨stream, rfl⟩

theorem exists_fault_of_toBool {text : String} (h : (tokenize text).toBool = false) :
    ∃ e, tokenize text = .error e := by
  cases htokenize : tokenize text with
  | error e => exact ⟨e, rfl⟩
  | ok stream => simp [htokenize, Except.toBool] at h

/-- The list of the tokens of a text: those of the layout, and one mark on the
line on which the text ends. -/
theorem tokenize_toList_iff (text : String) (ts : List Token) :
    (tokenize text).map TokenStream.toList = .ok ts ↔
      ∃ tokens, Layout [] text.toList tokens ∧ (∀ t ∈ tokens, t.kind ≠ .endOfText) ∧
        ts = tokens ++ [⟨.endOfText, "", .none, 1 + (text.toList.count '\n' : Int)⟩] := by
  constructor
  · intro h
    cases htokenize : tokenize text with
    | error e => simp [htokenize, Except.map] at h
    | ok stream =>
      obtain ⟨hlayout, hending⟩ := tokenize_eq_ok_iff.mp htokenize
      rw [htokenize, Except.map, Except.ok.injEq, TokenStream.toList, hending] at h
      exact ⟨stream.tokens, hlayout, stream.tokens_kind, h.symm⟩
  · rintro ⟨tokens, hlayout, hkinds, rfl⟩
    have htokenize : tokenize text =
        .ok ⟨tokens, Token.endOfText (lineAfter text.toList), hkinds, rfl⟩ :=
      tokenize_eq_ok_iff.mpr ⟨hlayout, rfl⟩
    rw [htokenize]
    rfl

end LoxGraph
