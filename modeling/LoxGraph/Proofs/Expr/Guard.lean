import LoxGraph.Proofs.Expr.Budget
import LoxGraph.Proofs.Expr.Diagnostics

/-!
The guard against deep nesting.

A reading that is done has made no mistake of too deep nesting. One that is given up has made
exactly one, which is its last, at the sign or the parenthesis that it has just taken
(`Reads.guarded`). So the first parse of a list either closes all that it opens, or leaves open all
that the limit allows and one more.
-/

namespace LoxGraph

/-- How an outcome bears witness to the guard. -/
def Outcome.Guarded {α : Type} (tokens : List Token) : Outcome α → Prop
  | .done _ errors _ => ∀ e ∈ errors, e.fault ≠ .nestedTooDeep
  | .tooDeep errors rest => ∃ earlier t, errors = earlier ++ [⟨t, .nestedTooDeep⟩] ∧
      (∀ e ∈ earlier, e.fault ≠ .nestedTooDeep) ∧
      (t.kind.isSign = true ∨ t.kind = .leftParen) ∧ t :: rest <:+ tokens

namespace Outcome.Guarded

variable {α : Type} {tokens rest : List Token} {errors : List SyntaxError} {o : Outcome α}

/-- Other mistakes may come before. -/
theorem after (h : o.Guarded rest) (hrest : rest <:+ tokens)
    (herrors : ∀ e ∈ errors, e.fault ≠ .nestedTooDeep) : (o.after errors).Guarded tokens := by
  cases o with
  | done value later rest' =>
    intro e he
    rcases List.mem_append.mp he with hbefore | hlater
    · exact herrors e hbefore
    · exact h e hlater
  | tooDeep later rest' =>
    obtain ⟨earlier, t, rfl, hearlier, hopens, hsuffix⟩ := h
    refine ⟨errors ++ earlier, t, (List.append_assoc _ _ _).symm, ?_, hopens,
      hsuffix.trans hrest⟩
    intro e he
    rcases List.mem_append.mp he with hbefore | hlater
    · exact herrors e hbefore
    · exact hearlier e hlater

theorem tooDeep_of_tooDeep {β : Type} (h : (tooDeep errors rest : Outcome α).Guarded tokens)
    (t : Token) : (tooDeep errors rest : Outcome β).Guarded (t :: tokens) := by
  obtain ⟨earlier, t', herrors, hearlier, hopens, hsuffix⟩ := h
  exact ⟨earlier, t', herrors, hearlier, hopens, hsuffix.trans (List.suffix_cons _ _)⟩

end Outcome.Guarded

theorem Reads.guarded {ending : Token} {budget : Nat} {part : Part} {tokens : List Token}
    {outcome : Outcome Expr} (h : Reads ending budget part tokens outcome) :
    outcome.Guarded tokens := by
  induction h with
  | chain first others ihFirst ihOthers => exact ihOthers.after first.rest_suffix ihFirst
  | chainTooDeep first ih => exact ih
  | noLink stop => intro e he; cases he
  | link here next others ihNext ihOthers =>
    exact ihOthers.after (next.rest_suffix.trans (List.suffix_cons _ _)) ihNext
  | linkTooDeep here next ih => exact Outcome.Guarded.tooDeep_of_tooDeep ih _
  | nothing => simp [Outcome.Guarded]
  | literal here => intro e he; cases he
  | sign here inner ih => exact ih
  | signTooDeep here inner ih => exact Outcome.Guarded.tooDeep_of_tooDeep ih _
  | group here inner closed ih => exact ih
  | openGroup here inner unclosed ih =>
    intro e he
    rcases List.mem_append.mp he with hinside | hclosing
    · exact ih e hinside
    · rw [List.mem_singleton.mp hclosing]
      exact SyntaxFault.noConfusion
  | groupTooDeep here inner ih => exact Outcome.Guarded.tooDeep_of_tooDeep ih _
  | pastLimit here => exact ⟨[], _, rfl, by simp, here, List.suffix_refl _⟩
  | unexpected noLiteral noSign noGroup => simp [Outcome.Guarded]

/-- Whether a parse has closed all that it has opened, and was not given up. -/
structure ParseSession.Closed (session : ParseSession) : Prop where
  errors : ∀ e ∈ session.errors, ¬ e.IsTooDeep
  nesting : session.nesting = 0

/-- Whether a parse of some tokens was given up: what it has recorded last, and of this kind only
then, names the token that it has taken last, a sign or a parenthesis. -/
structure ParseSession.GivenUp (session : ParseSession) (tokens : List Token) (limit : Int)
    (tree : Expr) : Prop where
  errors : ∃ earlier e, session.errors = earlier ++ [e] ∧ e.IsTooDeep ∧
    (∀ e' ∈ earlier, ¬ e'.IsTooDeep) ∧ 0 < session.consumed ∧
    ∃ t ∈ tokens[session.consumed - 1]?, e.PointsAt t ∧
      (t.kind = .bang ∨ t.kind = .minus ∨ t.kind = .leftParen)
  tree : tree = .error
  nesting : session.nesting = max limit 0 + 1

/-- A parse that has closed everything was not given up. -/
theorem ParseSession.Closed.not_givenUp {session : ParseSession} (h : session.Closed)
    {tokens : List Token} {limit : Int} {tree : Expr} : ¬ session.GivenUp tokens limit tree := by
  rintro ⟨⟨earlier, e, herrors, hdeep, -⟩, -⟩
  exact h.errors e (herrors ▸ List.mem_append_right _ (List.mem_singleton_self e)) hdeep

/-- The first parse of a stream ends in one of two ways. -/
theorem ParseSession.parse_start_guarded (stream : TokenStream) (after : List Token)
    (limit : Int) :
    let parsed := (ParseSession.start stream limit).parse
    parsed.2.Closed ∨
      parsed.2.GivenUp (stream.tokens ++ stream.ending :: after) limit parsed.1 := by
  have hguarded := (Expr.reads_parse stream.ending limit.toNat stream.tokens).guarded
  obtain ⟨htree, herrors, hconsumed, hnesting⟩ := ParseSession.parse_start stream limit
  cases hread : Expr.parse stream.ending limit.toNat stream.tokens with
  | done tree errors rest =>
    rw [hread] at hguarded herrors hnesting
    refine .inl ⟨?_, hnesting⟩
    rw [herrors]
    exact fun e he hdeep => hguarded e he (SyntaxError.isTooDeep_iff.mp hdeep)
  | tooDeep errors rest =>
    rw [hread] at hguarded htree herrors hconsumed hnesting
    obtain ⟨earlier, t, rfl, hearlier, hopens, before, hbefore⟩ := hguarded
    have hlast : (ParseSession.start stream limit).parse.2.consumed = before.length + 1 := by
      rw [hconsumed, ← hbefore]
      simp only [Outcome.rest_tooDeep, List.length_append, List.length_cons]
      omega
    refine .inr ⟨⟨earlier, ⟨t, .nestedTooDeep⟩, herrors, ?_, ?_, ?_, t, ?_, ?_, ?_⟩, htree, ?_⟩
    · exact SyntaxError.isTooDeep_iff.mpr rfl
    · exact fun e he hdeep => hearlier e he (SyntaxError.isTooDeep_iff.mp hdeep)
    · omega
    · rw [hlast, ← hbefore]
      simp
    · exact SyntaxError.pointsAt_token _
    · simpa [TokenKind.isSign, or_assoc] using hopens
    · rw [hnesting, Outcome.leftOpen]
      omega

end LoxGraph
