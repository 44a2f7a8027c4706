import LoxGraph.Proofs.Stepwise.Parsing
import LoxGraph.Proofs.Text.Span

/-!
Parsing on from where a parse has stopped.

A parser that is called again goes on at its index, with the signs and parentheses that a
given up expression has left open, and after the mistakes it has recorded. What it does from
there is what a new parser does with the tokens from this index on and with the rest of the
limit (`parse_resumes`): index, open levels and mistakes only add up.
-/

namespace LoxGraph

namespace ParseSession

/-- The session after some more parses. -/
def afterParses (s : ParseSession) : Nat → ParseSession
  | 0 => s
  | calls + 1 => (s.afterParses calls).parse.2

/-- How far a parser has come when the session has come so far. -/
def progress (s : ParseSession) : Stepwise.Progress := ⟨s.consumed, s.nesting, s.errors⟩

theorem parse_limit (s : ParseSession) : s.parse.2.limit = s.limit := by
  unfold parse
  split <;> rfl

theorem afterParses_limit (s : ParseSession) (calls : Nat) :
    (s.afterParses calls).limit = s.limit := by
  induction calls with
  | zero => rfl
  | succ calls ih => rw [afterParses, parse_limit, ih]

end ParseSession

theorem EndsInMark.drop {ts : List Token} (h : EndsInMark ts) {count : Nat}
    (hcount : count < ts.length) : EndsInMark (ts.drop count) := by
  obtain ⟨t, hlast, hkind⟩ := h
  refine ⟨t, ?_, hkind⟩
  rw [List.getLast?_drop, if_neg (Nat.not_le.mpr hcount)]
  exact hlast

/-- There is one way to split a list at its first mark. -/
theorem TokenStream.eq_of_split {stream : TokenStream} {tokens after after' : List Token}
    {ending : Token} (htokens : ∀ t ∈ tokens, t.kind ≠ .endOfText)
    (hending : ending.kind = .endOfText)
    (h : stream.tokens ++ stream.ending :: after = tokens ++ ending :: after') :
    stream.tokens = tokens ∧ stream.ending = ending := by
  obtain ⟨hsame, hrest⟩ := split_unique h
    (p := fun t : Token => t.kind != .endOfText)
    (by simpa using stream.tokens_kind) (by simp [stream.ending_kind])
    (by simpa using htokens) (by simp [hending])
  exact ⟨hsame, (List.cons.inj hrest).1⟩

namespace Stepwise

variable {ts : List Token} {s : ParseSession} {progress : Progress} {depth : Nat}

theorem Tracks.progress_eq (h : Tracks ts s progress) : progress = s.progress := by
  obtain ⟨current, nesting, errors⟩ := progress
  obtain ⟨-, rfl, rfl, rfl⟩ := h
  rfl

/-- One more call on a parser that has come as far as a session. -/
theorem parse_run_progress (h : Tracks ts s s.progress)
    (hdepth : 11 * (s.budget + 1) ≤ depth) :
    (parse ts s.limit depth).run s.progress = .ok s.parse.1 s.parse.2.progress ∧
      Tracks ts s.parse.2 s.parse.2.progress := by
  obtain ⟨later, hrun, hlater⟩ := parse_run h hdepth
  rw [hlater.progress_eq] at hrun hlater
  exact ⟨hrun, hlater⟩

theorem tracks_start {stream : TokenStream} (h : TokenStream.ofTokens? ts = some stream)
    (limit : Int) : Tracks ts (.start stream limit) ⟨0, 0, []⟩ := by
  obtain ⟨after, hts⟩ := TokenStream.ofTokens?_eq_some h
  exact ⟨⟨⟨after, hts⟩, stream.tokens_kind, stream.ending_kind⟩, rfl, rfl, rfl⟩

theorem tracks_afterParses (h : Tracks ts s s.progress) (calls : Nat) :
    Tracks ts (s.afterParses calls) (s.afterParses calls).progress := by
  induction calls with
  | zero => exact h
  | succ calls ih => exact (parse_run_progress ih (Nat.le_refl _)).2

/-- The tokens that a session has not consumed make a stream of their own. -/
theorem Tracks.ofTokens?_drop (h : Tracks ts s s.progress) (hmark : EndsInMark ts) :
    ∃ stream, TokenStream.ofTokens? (ts.drop s.consumed) = some stream ∧
      stream.tokens = s.ahead ∧ stream.ending = s.ending := by
  have hlength : s.consumed + s.ahead.length < ts.length := h.faces.length_lt
  obtain ⟨stream, hstream⟩ := TokenStream.ofTokens?_of_endsInMark
    (hmark.drop (show s.consumed < ts.length by omega))
  obtain ⟨after, hsplit⟩ := TokenStream.ofTokens?_eq_some hstream
  obtain ⟨after', hdrop⟩ := h.faces.drop_eq
  exact ⟨stream, hstream,
    TokenStream.eq_of_split h.faces.ahead_kind h.faces.ending_kind (hsplit.symm.trans hdrop)⟩

/-- A session that begins where another one has stopped, with what is left of its limit,
parses the same tokens under the same budget. -/
theorem parse_start_eq {stream : TokenStream} (htokens : stream.tokens = s.ahead)
    (hending : stream.ending = s.ending) :
    let fresh := (ParseSession.start stream (s.limit - s.nesting)).parse
    s.parse.1 = fresh.1 ∧ s.parse.2.errors = s.errors ++ fresh.2.errors ∧
      s.parse.2.consumed = s.consumed + fresh.2.consumed ∧
      s.parse.2.nesting = s.nesting + fresh.2.nesting := by
  have hbudget : (ParseSession.start stream (s.limit - s.nesting)).budget = s.budget :=
    ParseSession.budget_start stream _
  refine ⟨?_, ?_, ?_, ?_⟩
  · rw [ParseSession.parse_fst, ParseSession.parse_fst, hbudget]
    simp only [ParseSession.start, htokens, hending]
  · rw [ParseSession.parse_errors, ParseSession.parse_errors, hbudget]
    simp only [ParseSession.start, htokens, hending, List.nil_append]
  · rw [ParseSession.parse_consumed, ParseSession.parse_consumed, hbudget]
    simp only [ParseSession.start, htokens, hending, Nat.zero_add]
  · rw [ParseSession.parse_nesting, ParseSession.parse_nesting, hbudget]
    simp only [ParseSession.start, htokens, hending, Int.zero_add]

/-- Whatever number of calls a parser has had, the next one makes the tree that the first
parse of the tokens from its index on makes with what is left of the limit, and adds this
parse's mistakes, tokens and open levels to its own. The parser that reads by index and
counters does so too: from where it stands it comes to the same tree as a new one on these
tokens, and each of its numbers has grown by that of the new one. -/
theorem parse_resumes (h : EndsInMark ts) (limit : Int) (calls : Nat) :
    ∃ stream, TokenStream.ofTokens? ts = some stream ∧
      let s := (ParseSession.start stream limit).afterParses calls
      ∃ tree fresh, firstParse? (ts.drop s.consumed) (limit - s.nesting) = some (tree, fresh) ∧
        s.parse.1 = tree ∧ s.parse.2.errors = s.errors ++ fresh.errors ∧
        s.parse.2.consumed = s.consumed + fresh.consumed ∧
        s.parse.2.nesting = s.nesting + fresh.nesting ∧
        ∀ depth, 11 * (s.budget + 1) ≤ depth →
          (parse (ts.drop s.consumed) (limit - s.nesting) depth).run ⟨0, 0, []⟩ =
            .ok tree ⟨fresh.consumed, fresh.nesting, fresh.errors⟩ ∧
          (parse ts limit depth).run ⟨s.consumed, s.nesting, s.errors⟩ =
            .ok tree ⟨s.consumed + fresh.consumed, s.nesting + fresh.nesting,
              s.errors ++ fresh.errors⟩ := by
  obtain ⟨stream, hstream⟩ := TokenStream.ofTokens?_of_endsInMark h
  refine ⟨stream, hstream, ?_⟩
  intro s
  have htracks : Tracks ts s s.progress := tracks_afterParses (tracks_start hstream limit) calls
  have hlimit : s.limit = limit := ParseSession.afterParses_limit _ calls
  obtain ⟨rest, hrest, htokens, hending⟩ := htracks.ofTokens?_drop h
  obtain ⟨htree, herrors, hconsumed, hnesting⟩ := parse_start_eq htokens hending
  rw [hlimit] at htree herrors hconsumed hnesting
  let fresh := ParseSession.start rest (limit - s.nesting)
  have hfirst : firstParse? (ts.drop s.consumed) (limit - s.nesting) =
      some (fresh.parse.1, fresh.parse.2) := by
    rw [firstParse?, hrest, Option.map_some]
  refine ⟨_, _, hfirst, htree, herrors, hconsumed, hnesting, ?_⟩
  intro depth hdepth
  constructor
  · have hfresh : 11 * (fresh.budget + 1) ≤ depth := by
      rw [ParseSession.budget_start, ← hlimit]
      exact hdepth
    exact (parse_run_progress (tracks_start hrest _) hfresh).1
  · have hrun := (parse_run_progress htracks hdepth).1
    rw [hlimit, ParseSession.progress, ParseSession.progress, htree, herrors, hconsumed,
      hnesting] at hrun
    exact hrun

/-- A group that nothing closes, two signs, which are nested too deep under a limit of one, and
what follows them. -/
def brokenRow : List Token :=
  [⟨.leftParen, "(", .none, 1⟩, ⟨.nilWord, "nil", .none, 1⟩, ⟨.comma, ",", .none, 1⟩,
   ⟨.minus, "-", .none, 2⟩, ⟨.bang, "!", .none, 2⟩, ⟨.minus, "-", .none, 3⟩,
   ⟨.trueWord, "true", .none, 3⟩, .endOfText 3]

/-- Two calls leave three mistakes behind, the last of which leaves two levels counted as open. -/
def brokenRowLeft : ParseSession :=
  { ahead := [⟨.trueWord, "true", .none, 3⟩], ending := .endOfText 3, limit := 1, consumed := 6
    nesting := 2
    errors := [⟨⟨.comma, ",", .none, 1⟩, .expectedClosing⟩,
      ⟨⟨.comma, ",", .none, 1⟩, .expectedExpression⟩, ⟨⟨.minus, "-", .none, 3⟩, .nestedTooDeep⟩] }

/-- The third call begins behind the two signs, which were given up, and has nothing to spare. A
word is all that is left to read. -/
theorem brokenRow_resumes : EndsInMark brokenRow ∧
    ∃ stream, TokenStream.ofTokens? brokenRow = some stream ∧
      (ParseSession.start stream 1).afterParses 2 = brokenRowLeft ∧
      ∃ fresh, firstParse? [⟨.trueWord, "true", .none, 3⟩, .endOfText 3] (-1) =
          some (.literal (.truth true), fresh) ∧
        fresh.errors = [] ∧ fresh.consumed = 1 ∧ fresh.nesting = 0 ∧
        brokenRowLeft.parse.1 = .literal (.truth true) ∧
        brokenRowLeft.parse.2.errors = brokenRowLeft.errors ∧
        brokenRowLeft.parse.2.consumed = 6 + 1 ∧ brokenRowLeft.parse.2.nesting = 2 + 0 ∧
        ∀ depth, 11 ≤ depth →
          (parse [⟨.trueWord, "true", .none, 3⟩, .endOfText 3] (-1) depth).run ⟨0, 0, []⟩ =
            .ok (.literal (.truth true)) ⟨1, 0, []⟩ ∧
          (parse brokenRow 1 depth).run ⟨6, 2, brokenRowLeft.errors⟩ =
            .ok (.literal (.truth true)) ⟨7, 2, brokenRowLeft.errors⟩ := by
  obtain ⟨stream, hstream, tree, fresh, hfresh, hresumes⟩ :=
    parse_resumes (show EndsInMark brokenRow by decide) 1 2
  have hcalls : (TokenStream.ofTokens? brokenRow).map
      (fun stream => (ParseSession.start stream 1).afterParses 2) = some brokenRowLeft := by
    decide +kernel
  rw [hstream] at hcalls
  have hleft : (ParseSession.start stream 1).afterParses 2 = brokenRowLeft := Option.some.inj hcalls
  rw [hleft] at hfresh hresumes
  have hword : firstParse? (brokenRow.drop 6) (1 - 2) = some (.literal (.truth true),
      { ahead := [], ending := .endOfText 3, limit := -1, consumed := 1, nesting := 0
        errors := [] }) := by decide +kernel
  cases hfresh.symm.trans hword
  exact ⟨by decide, stream, hstream, hleft, _, hword, rfl, rfl, rfl, hresumes⟩

end Stepwise

end LoxGraph
