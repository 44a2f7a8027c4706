import LoxGraph.Proofs.Expr.Guard
import LoxGraph.Proofs.Stepwise.Bounds

/-!
How deep the first parse of a list goes.

The limit on nesting holds at every moment, but for the sign or the parenthesis that is found to be
past it, and whatever a parse opens it closes again unless it is given up (`nesting_guarded`). So
the limit bounds the rules inside each other too, however long the list is
(`openRules_bounded`): a parser that is given no more depth than that comes to what the machine
comes to, whose stack has no bound.
-/

namespace LoxGraph.Stepwise

/-- The first parse of a list that ends in a mark, as the machine and the rules within a depth
do it, and what holds in the course of it. -/
theorem firstParse?_sound {ts : List Token} (h : EndsInMark ts) (limit : Int) :
    ∃ (stream : TokenStream) (after : List Token),
      ts = stream.tokens ++ stream.ending :: after ∧
      let parsed := (ParseSession.start stream limit).parse
      firstParse? ts limit = some parsed ∧
      Machine.Reaches ts limit (.start ⟨0, 0, []⟩) ⟨.finished parsed.1, [], parsed.2.progress⟩ ∧
      (∀ steps, ∃ m, Machine.run ts limit steps (.start ⟨0, 0, []⟩) = .ok m ∧
        m.Sound stream.tokens.length 0 limit.toNat) ∧
      ∀ depth, 11 * (limit.toNat + 1) ≤ depth →
        (parse ts limit depth).run ⟨0, 0, []⟩ = .ok parsed.1 parsed.2.progress := by
  obtain ⟨stream, hstream⟩ := TokenStream.ofTokens?_of_endsInMark h
  obtain ⟨after, hts⟩ := TokenStream.ofTokens?_eq_some hstream
  have htracks := tracks_start hstream limit
  have hbudget := ParseSession.budget_start stream limit
  refine ⟨stream, after, hts, ?_, Machine.reaches_parse htracks, ?_, ?_⟩
  · rw [firstParse?, hstream, Option.map_some]
  · intro steps
    obtain ⟨m, hrun, hsound⟩ := Tracks.sound htracks steps
    rw [hbudget] at hsound
    have hmark : (ParseSession.start stream limit).consumed +
        (ParseSession.start stream limit).ahead.length = stream.tokens.length := Nat.zero_add _
    rw [hmark] at hsound
    exact ⟨m, hrun, hsound⟩
  · intro depth hdepth
    rw [← hbudget] at hdepth
    exact (parse_run_progress htracks hdepth).1

/-- The first parse of a list that ends in a mark ends in one of two ways, and not in both. Either
it has closed all that it opened and was not given up, or it was given up at the sign or the
parenthesis that is past the limit. In the course of it, no more is open than the limit allows
and one more. -/
theorem nesting_guarded {ts : List Token} (h : EndsInMark ts) (limit : Int) :
    ∃ tree session, firstParse? ts limit = some (tree, session) ∧
      (session.Closed ∨ session.GivenUp ts limit tree) ∧
      ¬ (session.Closed ∧ session.GivenUp ts limit tree) ∧
      Machine.Reaches ts limit (.start ⟨0, 0, []⟩) ⟨.finished tree, [], session.progress⟩ ∧
      ∀ steps, ∃ m, Machine.run ts limit steps (.start ⟨0, 0, []⟩) = .ok m ∧
        0 ≤ m.progress.nesting ∧ m.progress.nesting ≤ max limit 0 + 1 := by
  obtain ⟨stream, after, hts, hfirst, hreaches, hsound, -⟩ := firstParse?_sound h limit
  have hends := ParseSession.parse_start_guarded stream after limit
  rw [← hts] at hends
  refine ⟨_, _, hfirst, hends, fun hboth => hboth.1.not_givenUp hboth.2, hreaches, ?_⟩
  intro steps
  obtain ⟨m, hrun, hm⟩ := hsound steps
  obtain ⟨hbase, hdeepest⟩ := hm.nesting_le
  exact ⟨m, hrun, hbase, by omega⟩

/-- The operand of a sign is a group that nothing closes, and a second group in it, behind an
operator, has one sign too many for a limit of three. -/
def deepRow : List Token :=
  [⟨.minus, "-", .none, 1⟩, ⟨.leftParen, "(", .none, 1⟩, ⟨.comma, ",", .none, 1⟩,
   ⟨.star, "*", .none, 1⟩, ⟨.leftParen, "(", .none, 2⟩, ⟨.bang, "!", .none, 2⟩,
   ⟨.nilWord, "nil", .none, 2⟩, .endOfText 3]

/-- The sign that is too deep is taken, and what it would stand before is left. -/
def deepRowLeft : ParseSession :=
  { ahead := [⟨.nilWord, "nil", .none, 2⟩], ending := .endOfText 3, limit := 3, consumed := 6
    nesting := 4
    errors := [⟨⟨.comma, ",", .none, 1⟩, .expectedExpression⟩,
      ⟨⟨.bang, "!", .none, 2⟩, .nestedTooDeep⟩] }

/-- The parse is given up. After 46 steps one more is open than the limit allows. -/
theorem deepRow_nesting_guarded : EndsInMark deepRow ∧
    firstParse? deepRow 3 = some (.error, deepRowLeft) ∧
    deepRowLeft.GivenUp deepRow 3 .error ∧ ¬ deepRowLeft.Closed ∧
    Machine.Reaches deepRow 3 (.start ⟨0, 0, []⟩) ⟨.finished .error, [], deepRowLeft.progress⟩ ∧
    (∃ m, Machine.run deepRow 3 46 (.start ⟨0, 0, []⟩) = .ok m ∧ m.progress.nesting = 4) ∧
    ∀ steps, ∃ m, Machine.run deepRow 3 steps (.start ⟨0, 0, []⟩) = .ok m ∧
      0 ≤ m.progress.nesting ∧ m.progress.nesting ≤ 4 := by
  obtain ⟨tree, session, hparse, hends, hboth, hreaches, hsteps⟩ :=
    nesting_guarded (show EndsInMark deepRow by decide) 3
  have hread : firstParse? deepRow 3 = some (.error, deepRowLeft) := by decide +kernel
  cases hparse.symm.trans hread
  have hopen : ¬ deepRowLeft.Closed := fun hclosed => absurd hclosed.nesting (by decide)
  have hgiven := hends.resolve_left hopen
  exact ⟨by decide, hread, hgiven, hopen, hreaches, ⟨_, rfl, rfl⟩, hsteps⟩

/-- In the first parse of a list that ends in a mark, no more rules are ever open than eleven for
each level that the limit allows, and eleven more. With this depth, or with any more, the rules
make the tree, the mistakes and the index that the machine comes to without a bound. -/
theorem openRules_bounded {ts : List Token} (h : EndsInMark ts) (limit : Int) :
    ∃ tree session, firstParse? ts limit = some (tree, session) ∧
      Machine.Reaches ts limit (.start ⟨0, 0, []⟩) ⟨.finished tree, [], session.progress⟩ ∧
      (∀ steps, ∃ m, Machine.run ts limit steps (.start ⟨0, 0, []⟩) = .ok m ∧
        (m.openRules : Int) ≤ 11 * (max limit 0 + 1)) ∧
      ∀ depth : Nat, 11 * (max limit 0 + 1) ≤ depth →
        (parse ts limit depth).run ⟨0, 0, []⟩ = .ok tree session.progress := by
  obtain ⟨stream, after, -, hfirst, hreaches, hsound, hparse⟩ := firstParse?_sound h limit
  refine ⟨_, _, hfirst, hreaches, ?_, ?_⟩
  · intro steps
    obtain ⟨m, hrun, hm⟩ := hsound steps
    have hopen := hm.openRules_le
    exact ⟨m, hrun, by omega⟩
  · intro depth hdepth
    exact hparse depth (by omega)

/-- A limit of three allows 44 rules. After 45 steps 33 of them are open. -/
theorem deepRow_openRules_bounded : EndsInMark deepRow ∧
    firstParse? deepRow 3 = some (.error, deepRowLeft) ∧
    Machine.Reaches deepRow 3 (.start ⟨0, 0, []⟩) ⟨.finished .error, [], deepRowLeft.progress⟩ ∧
    (∃ m, Machine.run deepRow 3 45 (.start ⟨0, 0, []⟩) = .ok m ∧ m.openRules = 33) ∧
    (∀ steps, ∃ m, Machine.run deepRow 3 steps (.start ⟨0, 0, []⟩) = .ok m ∧
      (m.openRules : Int) ≤ 44) ∧
    ∀ depth : Nat, 44 ≤ depth →
      (parse deepRow 3 depth).run ⟨0, 0, []⟩ = .ok .error deepRowLeft.progress := by
  obtain ⟨tree, session, hparse, hreaches, hsteps, hdepths⟩ :=
    openRules_bounded (show EndsInMark deepRow by decide) 3
  have hread : firstParse? deepRow 3 = some (.error, deepRowLeft) := by decide +kernel
  cases hparse.symm.trans hread
  exact ⟨by decide, hread, hreaches, ⟨_, rfl, rfl⟩, hsteps,
    fun depth hdepth => hdepths depth (by omega)⟩

end LoxGraph.Stepwise
