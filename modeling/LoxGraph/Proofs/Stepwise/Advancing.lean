import LoxGraph.Proofs.Stepwise.Bounds

/-!
Parsing on to the first mark.

A parse takes a token if there is any, and none that stands behind the first mark. So the calls on
one parser, each of which comes to an end, bring it to this mark, and there they find nothing to
parse (`parses_advance`).
-/

namespace LoxGraph

/-- A stream ends at the first mark of its list. -/
theorem TokenStream.length_tokens {stream : TokenStream} {ts : List Token}
    (h : ofTokens? ts = some stream) :
    stream.tokens.length = ts.findIdx (·.kind == .endOfText) := by
  obtain ⟨after, hts⟩ := ofTokens?_eq_some h
  have hbefore : stream.tokens.findIdx (·.kind == .endOfText) = stream.tokens.length := by
    apply List.findIdx_eq_length.mpr
    intro t ht
    simpa using stream.tokens_kind t ht
  have hmark : (stream.ending :: after).findIdx (·.kind == .endOfText) = 0 := by
    rw [List.findIdx_cons, stream.ending_kind]
    rfl
  rw [hts, List.findIdx_append, hbefore, if_neg (Nat.lt_irrefl _), hmark, Nat.zero_add]

namespace ParseSession

variable (s : ParseSession)

/-- What is consumed is no longer ahead. -/
theorem parse_consumed_add_ahead :
    s.parse.2.consumed + s.parse.2.ahead.length = s.consumed + s.ahead.length := by
  have hrest := (Expr.reads_parse s.ending s.budget s.ahead).rest_suffix.length_le
  rw [parse_consumed, parse_ahead]
  omega

theorem afterParses_consumed_add_ahead (calls : Nat) :
    (s.afterParses calls).consumed + (s.afterParses calls).ahead.length =
      s.consumed + s.ahead.length := by
  induction calls with
  | zero => rfl
  | succ calls ih => exact (parse_consumed_add_ahead _).trans ih

variable {s}

/-- A parse takes a token if there is any. -/
theorem parse_ahead_length_lt (h : s.ahead ≠ []) :
    s.parse.2.ahead.length < s.ahead.length := by
  rw [parse_ahead]
  exact (Expr.reads_parse s.ending s.budget s.ahead).rest_length_lt (fun _ _ => Part.noConfusion) h

/-- At the end of its stream, a parse finds nothing. -/
theorem parse_of_ahead_eq_nil (h : s.ahead = []) :
    s.parse.1 = .error ∧ s.parse.2.ahead = [] ∧
      s.parse.2.errors = s.errors ++ [⟨s.ending, .expectedExpression⟩] := by
  have hnothing : Expr.parse s.ending s.budget [] =
      .done .error [⟨s.ending, .expectedExpression⟩] [] := by
    cases s.budget <;> rfl
  rw [parse_fst, parse_ahead, parse_errors, h, hnothing]
  exact ⟨rfl, rfl, rfl⟩

/-- As many parses as there are tokens ahead take all of them. -/
theorem afterParses_ahead_length_le (s : ParseSession) (calls : Nat) :
    (s.afterParses calls).ahead.length ≤ s.ahead.length - calls := by
  induction calls with
  | zero => exact Nat.le_refl _
  | succ calls ih =>
    rw [afterParses]
    by_cases h : (s.afterParses calls).ahead = []
    · rw [(parse_of_ahead_eq_nil h).2.1]
      exact Nat.zero_le _
    · have hless := parse_ahead_length_lt h
      omega

end ParseSession

namespace Stepwise

/-- Whatever calls a parser has had, the next one comes to an end, and on the way the index stays
in the list, at its first mark or before it. Before the mark the call takes a token; at the mark it
takes none and has one mistake to report. So the parser is at the mark after as many calls as there
are tokens before it. -/
theorem parses_advance {ts : List Token} (h : EndsInMark ts) (limit : Int) (calls : Nat) :
    ∃ stream, TokenStream.ofTokens? ts = some stream ∧
      let mark := ts.findIdx (·.kind == .endOfText)
      let s := (ParseSession.start stream limit).afterParses calls
      s.consumed ≤ mark ∧ (mark ≤ calls → s.consumed = mark) ∧
      (∀ steps, ∃ m, Machine.run ts limit steps (.start s.progress) = .ok m ∧
        m.progress.current ≤ mark ∧ m.progress.current < ts.length) ∧
      Machine.Reaches ts limit (.start s.progress)
        ⟨.finished s.parse.1, [], s.parse.2.progress⟩ ∧
      (∀ depth, 11 * (s.budget + 1) ≤ depth →
        (parse ts limit depth).run s.progress = .ok s.parse.1 s.parse.2.progress) ∧
      (s.consumed < mark → s.consumed < s.parse.2.consumed) ∧
      (s.consumed = mark → s.parse.1 = .error ∧ s.parse.2.consumed = mark ∧
        ∃ e, s.parse.2.errors = s.errors ++ [e] ∧ e.report.message = "expected expression" ∧
          e.report.location = "at end") := by
  obtain ⟨stream, hstream⟩ := TokenStream.ofTokens?_of_endsInMark h
  refine ⟨stream, hstream, ?_⟩
  intro mark s
  have htracks : Tracks ts s s.progress := tracks_afterParses (tracks_start hstream limit) calls
  have hlimit : s.limit = limit := ParseSession.afterParses_limit _ calls
  have hlength : stream.tokens.length = mark := TokenStream.length_tokens hstream
  have hmark : s.consumed + s.ahead.length = mark := by
    rw [← hlength]
    exact ((ParseSession.start stream limit).afterParses_consumed_add_ahead calls).trans
      (Nat.zero_add _)
  have hbound : mark < ts.length := hmark ▸ htracks.faces.length_lt
  have hparse := s.parse_consumed_add_ahead
  rw [hmark] at hparse
  refine ⟨by omega, ?_, ?_, ?_, ?_, ?_, ?_⟩
  · intro hcalls
    have hahead : s.ahead.length ≤ stream.tokens.length - calls :=
      ParseSession.afterParses_ahead_length_le (.start stream limit) calls
    omega
  · intro steps
    obtain ⟨m, hrun, hsound⟩ := htracks.sound steps
    rw [hlimit] at hrun
    have hcurrent := hsound.current_le
    exact ⟨m, hrun, by omega, by omega⟩
  · have hreaches := Machine.reaches_parse htracks
    rwa [hlimit] at hreaches
  · intro depth hdepth
    have hrun := (parse_run_progress htracks hdepth).1
    rwa [hlimit] at hrun
  · intro hbefore
    have hless := ParseSession.parse_ahead_length_lt
      (List.ne_nil_of_length_pos (show 0 < s.ahead.length by omega))
    omega
  · intro hat
    have hnone : s.ahead = [] := List.eq_nil_of_length_eq_zero (by omega)
    obtain ⟨htree, hstays, herrors⟩ := ParseSession.parse_of_ahead_eq_nil hnone
    rw [hstays, List.length_nil, Nat.add_zero] at hparse
    refine ⟨htree, hparse, _, herrors, rfl, if_pos ?_⟩
    exact htracks.faces.ending_kind

/-- Two groups that nothing closes before the first mark, with more tokens and a second mark
behind it. -/
def markedRow : List Token :=
  [⟨.leftParen, "(", .none, 1⟩, ⟨.minus, "-", .none, 1⟩, ⟨.leftParen, "(", .none, 1⟩,
   ⟨.comma, ",", .none, 2⟩, .endOfText 2, ⟨.nilWord, "nil", .none, 3⟩, .endOfText 3]

/-- Under a limit of one, the first call is given up at the sign, and the second one at the group
behind it. The third one comes to the mark, at the index four, where the calls after it stay. -/
def markedRowLeft : ParseSession :=
  { ahead := [], ending := .endOfText 2, limit := 1, consumed := 4, nesting := 3
    errors := [⟨⟨.minus, "-", .none, 1⟩, .nestedTooDeep⟩,
      ⟨⟨.leftParen, "(", .none, 1⟩, .nestedTooDeep⟩, ⟨⟨.comma, ",", .none, 2⟩, .expectedExpression⟩,
      ⟨.endOfText 2, .expectedExpression⟩] }

/-- The second call takes a token, and the fifth one takes none. -/
theorem markedRow_parses_advance : EndsInMark markedRow ∧
    markedRow.findIdx (·.kind == .endOfText) = 4 ∧
    ∃ stream, TokenStream.ofTokens? markedRow = some stream ∧
      ((ParseSession.start stream 1).afterParses 1).consumed = 2 ∧
      2 < ((ParseSession.start stream 1).afterParses 1).parse.2.consumed ∧
      (ParseSession.start stream 1).afterParses 4 = markedRowLeft ∧
      (∀ steps, ∃ m, Machine.run markedRow 1 steps (.start markedRowLeft.progress) = .ok m ∧
        m.progress.current ≤ 4 ∧ m.progress.current < 7) ∧
      Machine.Reaches markedRow 1 (.start markedRowLeft.progress)
        ⟨.finished .error, [], markedRowLeft.parse.2.progress⟩ ∧
      (∀ depth, 11 ≤ depth → (parse markedRow 1 depth).run markedRowLeft.progress =
        .ok .error markedRowLeft.parse.2.progress) ∧
      markedRowLeft.parse.1 = .error ∧ markedRowLeft.parse.2.consumed = 4 ∧
      ∃ e, markedRowLeft.parse.2.errors = markedRowLeft.errors ++ [e] ∧
        e.report.message = "expected expression" ∧ e.report.location = "at end" := by
  obtain ⟨stream, hstream, -, -, -, -, -, htakes, -⟩ :=
    parses_advance (show EndsInMark markedRow by decide) 1 1
  obtain ⟨stream', hstream', -, -, hsteps, hreaches, hdepths, -, hstays⟩ :=
    parses_advance (show EndsInMark markedRow by decide) 1 4
  cases hstream.symm.trans hstream'
  have hcalls : (TokenStream.ofTokens? markedRow).map (fun stream =>
      (((ParseSession.start stream 1).afterParses 1).consumed,
        (ParseSession.start stream 1).afterParses 4)) = some (2, markedRowLeft) := by
    decide +kernel
  rw [hstream] at hcalls
  obtain ⟨hfirst, hleft⟩ := Prod.mk.inj (Option.some.inj hcalls)
  rw [hfirst] at htakes
  rw [hleft] at hsteps hreaches hdepths hstays
  exact ⟨by decide, rfl, stream, hstream, hfirst, htakes (by decide), hleft, hsteps, hreaches,
    hdepths, hstays rfl⟩

end Stepwise

end LoxGraph
