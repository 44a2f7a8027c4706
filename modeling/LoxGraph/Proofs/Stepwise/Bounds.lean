import LoxGraph.Proofs.Expr.Grammar
import LoxGraph.Proofs.Stepwise.Machine

/-!
What holds in the course of a parse.

Each step keeps four things (`Sound.step`). The index does not go past the first mark, so that
there is always a token to look at. The nesting is that of the signs and parentheses which the
rules that wait have opened, until the expression is given up. These are never more than the
budget. And a rule that waits has at most eleven rules around it for each of them, and as many
more as its rank says: ranks rise from a rule to the one that it applies, but for what is opened,
where they begin anew.
-/

namespace LoxGraph.Stepwise

/-- The number of rules around a rule on its level of nesting. -/
def Rule.rank : Rule → Nat
  | .expression => 0
  | .level l => 2 * l.rank + 1
  | .leftAssociative l => 2 * l.rank + 2
  | .unary => 9
  | .primary => 10

theorem rank_operandRule (level : Level) :
    level.operandRule.rank = (Rule.leftAssociative level).rank + 1 := by
  cases level <;> rfl

/-- The rule that waits. -/
def Waiting.rule : Waiting → Rule
  | .expression => .expression
  | .level l => .level l
  | .first l => .leftAssociative l
  | .link l _ _ => .leftAssociative l
  | .signed _ => .unary
  | .unsigned => .unary
  | .group => .primary

/-- The signs and parentheses that some rules have opened. -/
def openLevels : List Waiting → Nat
  | [] => 0
  | .signed _ :: waiting => openLevels waiting + 1
  | .group :: waiting => openLevels waiting + 1
  | _ :: waiting => openLevels waiting

theorem openLevels_opening (opening : Opening) (t : Token) (waiting : List Waiting) :
    openLevels (opening.waiting t :: waiting) = openLevels waiting + 1 := by
  cases opening <;> rfl

/-- Whether the rules that wait are no more than their levels and their ranks allow. -/
def Stacked : List Waiting → Prop
  | [] => True
  | waits :: waiting =>
    waiting.length ≤ 11 * openLevels waiting + waits.rule.rank ∧ Stacked waiting

theorem Stacked.length_le {waiting : List Waiting} (h : Stacked waiting) :
    waiting.length ≤ 11 * openLevels waiting + 10 := by
  have hrank (level : Level) : level.rank ≤ 3 := by cases level <;> decide
  cases waiting with
  | nil => exact Nat.zero_le _
  | cons waits waiting =>
    have hplaced := h.1
    cases waits with
    | expression | unsigned | group | signed =>
      simp only [Waiting.rule, Rule.rank] at hplaced
      simp only [List.length_cons, openLevels]
      omega
    | level level | first level | link level =>
      have hlevel := hrank level
      simp only [Waiting.rule, Rule.rank] at hplaced
      simp only [List.length_cons, openLevels]
      omega

namespace Task

/-- The rank of the rule at work. One that is done may have any rank. -/
def rank : Task → Nat
  | apply rule => rule.rank
  | join level _ => (Rule.leftAssociative level).rank
  | enter .sign _ => Rule.unary.rank
  | _ => Rule.primary.rank

theorem rank_enter (opening : Opening) (t : Token) :
    (enter opening t).rank = (opening.waiting t).rule.rank := by
  cases opening <;> rfl

/-- How the nesting stands to what it was before the parse, when so many levels are open. An
expression that is given up leaves the budget behind, and one more. -/
def Counts (base : Int) (budget levels : Nat) (nesting : Int) : Task → Prop
  | giveUp _ => nesting = base + budget + 1
  | finished _ => nesting = base ∨ nesting = base + budget + 1
  | _ => nesting = base + levels

end Task

namespace Machine

/-- What holds of a parse at any moment, when `mark` is the index of the first mark. -/
structure Sound (mark : Nat) (base : Int) (budget : Nat) (m : Machine) : Prop where
  current_le : m.progress.current ≤ mark
  stacked : Stacked m.waiting
  placed : m.waiting.length ≤ 11 * openLevels m.waiting + m.task.rank
  levels_le : openLevels m.waiting ≤ budget
  counts : m.task.Counts base budget (openLevels m.waiting) m.progress.nesting

section Sound

variable {tokens : List Token} {limit base : Int} {mark budget : Nat} {m : Machine}
  {waiting : List Waiting} {progress : Progress}

theorem sound_start (h : progress.current ≤ mark) :
    Sound mark progress.nesting budget (start progress) :=
  ⟨h, trivial, Nat.zero_le _, Nat.zero_le _, (Int.add_zero _).symm⟩

/-- There is a token to look at, and it may be passed unless it is the mark. -/
theorem exists_ahead (hmark : ∃ t ∈ tokens[mark]?, t.kind = .endOfText)
    (h : progress.current ≤ mark) : ∃ t, ahead tokens progress = .ok t ∧
      (t.kind ≠ .endOfText → progress.passed.current ≤ mark) := by
  obtain ⟨ending, hending, hkind⟩ := hmark
  have hlength := (List.getElem?_eq_some_iff.mp hending).1
  have hcurrent : progress.current < tokens.length := Nat.lt_of_le_of_lt h hlength
  refine ⟨tokens[progress.current], ?_, ?_⟩
  · rw [ahead, List.getElem?_eq_getElem hcurrent]
  · intro hpassed
    have hne : progress.current ≠ mark := by
      intro heq
      have hsame : tokens[progress.current] = ending := by
        rw [← Option.some_inj, ← List.getElem?_eq_getElem hcurrent, heq]
        exact hending
      exact hpassed (hsame ▸ hkind)
    simp only [Progress.passed]
    omega

/-- Literals are given for tokens of their kinds. -/
theorem giveLiteral_eq {t : Token} (h : t.kind.isLiteral = true) (waiting : List Waiting)
    (progress : Progress) : ∃ l, giveLiteral t waiting progress =
      .ok ⟨.give (.literal l), waiting, progress⟩ := by
  rw [← Literal.ofKind?_isSome t.kind t.literal] at h
  obtain ⟨l, hl⟩ := Option.isSome_iff_exists.mp h
  refine ⟨l, ?_⟩
  rw [giveLiteral, Literal.ofToken?, hl]

/-- The innermost of the rules that wait goes on with its own rank and its own levels. -/
theorem sound_goOn {tree : Expr}
    (h : Sound mark base budget ⟨.give tree, waiting, progress⟩) :
    Sound mark base budget (goOn tree progress waiting) := by
  obtain ⟨hcurrent, hstacked, -, hlevels, hcounts⟩ := h
  simp only [Task.Counts] at hcounts
  cases waiting with
  | nil =>
    have hbase := hcounts.trans (Int.add_zero base)
    exact ⟨hcurrent, trivial, Nat.zero_le _, Nat.zero_le _, .inl hbase⟩
  | cons waits waiting =>
    obtain ⟨hplaced, hstacked⟩ := hstacked
    cases waits with
    | expression | level | unsigned =>
      exact ⟨hcurrent, hstacked, hstacked.length_le, hlevels, hcounts⟩
    | first | link => exact ⟨hcurrent, hstacked, hplaced, hlevels, hcounts⟩
    | signed | group =>
      refine ⟨hcurrent, hstacked, hstacked.length_le, Nat.le_of_succ_le hlevels, ?_⟩
      simp only [Machine.goOn, Task.Counts, Progress.left, openLevels] at hcounts ⊢
      omega

/-- A sign or a parenthesis is counted before it is found to be past the limit. -/
theorem sound_enter (hbudget : budget = (limit - base).toNat) {opening : Opening} {t : Token}
    (h : Sound mark base budget ⟨.enter opening t, waiting, progress⟩) :
    ∃ m', step tokens limit ⟨.enter opening t, waiting, progress⟩ = .ok m' ∧
      Sound mark base budget m' := by
  obtain ⟨hcurrent, hstacked, hplaced, hlevels, hcounts⟩ := h
  dsimp only [Task.Counts] at hlevels hcounts
  have hentered : progress.entered.nesting = progress.nesting + 1 := rfl
  rw [step]
  by_cases hpast : limit < progress.entered.nesting
  · refine ⟨_, if_pos hpast, hcurrent, hstacked, hstacked.length_le, hlevels, ?_⟩
    simp only [Task.Counts]
    omega
  · have hopened := openLevels_opening opening t waiting
    have hrank := hplaced
    rw [Task.rank_enter] at hrank
    refine ⟨_, if_neg hpast, hcurrent, ⟨hrank, hstacked⟩, ?_, ?_, ?_⟩
    · have hlength := hstacked.length_le
      dsimp only at hlength ⊢
      rw [List.length_cons, hopened]
      omega
    · dsimp only
      omega
    · dsimp only [Task.Counts]
      omega

/-- A sign is no mark, so it may be passed. -/
theorem sound_unary (hmark : ∃ t ∈ tokens[mark]?, t.kind = .endOfText)
    (h : Sound mark base budget ⟨.apply .unary, waiting, progress⟩) :
    ∃ m', step tokens limit ⟨.apply .unary, waiting, progress⟩ = .ok m' ∧
      Sound mark base budget m' := by
  obtain ⟨hcurrent, hstacked, hplaced, hlevels, hcounts⟩ := h
  obtain ⟨t, hahead, hpass⟩ := exists_ahead hmark hcurrent
  rw [step, begin, hahead]
  by_cases hsign : t.kind ∈ [TokenKind.bang, .minus]
  · refine ⟨_, if_pos hsign, hpass ?_, hstacked, hplaced, hlevels, hcounts⟩
    intro hkind
    simp [hkind] at hsign
  · exact ⟨_, if_neg hsign, hcurrent, ⟨hplaced, hstacked⟩, Nat.succ_le_succ hplaced, hlevels,
      hcounts⟩

/-- Only the mark is left where it is. -/
theorem sound_primary (hmark : ∃ t ∈ tokens[mark]?, t.kind = .endOfText)
    (h : Sound mark base budget ⟨.apply .primary, waiting, progress⟩) :
    ∃ m', step tokens limit ⟨.apply .primary, waiting, progress⟩ = .ok m' ∧
      Sound mark base budget m' := by
  obtain ⟨hcurrent, hstacked, -, hlevels, hcounts⟩ := h
  have hlength := hstacked.length_le
  obtain ⟨t, hahead, hpass⟩ := exists_ahead hmark hcurrent
  rw [step, begin, hahead]
  by_cases hword : t.kind ∈ [TokenKind.falseWord, .trueWord, .nilWord]
  · have hliteral : t.kind.isLiteral = true ∧ t.kind ≠ .endOfText := by
      revert hword
      cases t.kind <;> decide
    obtain ⟨l, hl⟩ := giveLiteral_eq hliteral.1 waiting progress.passed
    exact ⟨_, (if_pos hword).trans hl, hpass hliteral.2, hstacked, hlength, hlevels, hcounts⟩
  · by_cases hkind : t.kind = .endOfText
    · exact ⟨_, (if_neg hword).trans (if_pos hkind), hcurrent, hstacked, hlength, hlevels, hcounts⟩
    · exact ⟨_, (if_neg hword).trans (if_neg hkind), hpass hkind, hstacked, hlength, hlevels,
        hcounts⟩

theorem sound_begin (hmark : ∃ t ∈ tokens[mark]?, t.kind = .endOfText) {rule : Rule}
    (h : Sound mark base budget ⟨.apply rule, waiting, progress⟩) :
    ∃ m', step tokens limit ⟨.apply rule, waiting, progress⟩ = .ok m' ∧
      Sound mark base budget m' := by
  cases rule with
  | expression | level =>
    obtain ⟨hcurrent, hstacked, hplaced, hlevels, hcounts⟩ := h
    exact ⟨_, rfl, hcurrent, ⟨hplaced, hstacked⟩, Nat.succ_le_succ hplaced, hlevels, hcounts⟩
  | leftAssociative level =>
    obtain ⟨hcurrent, hstacked, hplaced, hlevels, hcounts⟩ := h
    refine ⟨_, rfl, hcurrent, ⟨hplaced, hstacked⟩, ?_, hlevels, hcounts⟩
    rw [Task.rank, rank_operandRule]
    exact Nat.succ_le_succ hplaced
  | unary => exact sound_unary hmark h
  | primary => exact sound_primary hmark h

theorem sound_join (hmark : ∃ t ∈ tokens[mark]?, t.kind = .endOfText)
    {level : Level} {left : Expr}
    (h : Sound mark base budget ⟨.join level left, waiting, progress⟩) :
    ∃ m', step tokens limit ⟨.join level left, waiting, progress⟩ = .ok m' ∧
      Sound mark base budget m' := by
  obtain ⟨hcurrent, hstacked, hplaced, hlevels, hcounts⟩ := h
  obtain ⟨t, hahead, hpass⟩ := exists_ahead hmark hcurrent
  rw [step, hahead]
  by_cases hoperator : t.kind ∈ level.operators
  · refine ⟨_, if_pos hoperator, hpass ?_, ⟨hplaced, hstacked⟩, ?_, hlevels, hcounts⟩
    · intro hkind
      rw [hkind] at hoperator
      revert hoperator
      cases level <;> decide
    · rw [Task.rank, rank_operandRule]
      exact Nat.succ_le_succ hplaced
  · exact ⟨_, if_neg hoperator, hcurrent, hstacked, hstacked.length_le, hlevels, hcounts⟩

/-- A token that is examined has been passed, so no token is looked at. -/
theorem sound_examine {t : Token}
    (h : Sound mark base budget ⟨.examine t, waiting, progress⟩) :
    ∃ m', step tokens limit ⟨.examine t, waiting, progress⟩ = .ok m' ∧
      Sound mark base budget m' := by
  obtain ⟨hcurrent, hstacked, -, hlevels, hcounts⟩ := h
  have hlength := hstacked.length_le
  rw [step]
  by_cases hvalue : t.kind = .number ∨ t.kind = .string
  · have hliteral : t.kind.isLiteral = true := by
      rcases hvalue with hkind | hkind <;> rw [hkind] <;> rfl
    obtain ⟨l, hl⟩ := giveLiteral_eq hliteral waiting progress
    exact ⟨_, (if_pos hvalue).trans hl, hcurrent, hstacked, hlength, hlevels, hcounts⟩
  · by_cases hparen : t.kind = .leftParen
    · exact ⟨_, (if_neg hvalue).trans (if_pos hparen), hcurrent, hstacked, hlength, hlevels,
        hcounts⟩
    · exact ⟨_, (if_neg hvalue).trans (if_neg hparen), hcurrent, hstacked, hlength, hlevels,
        hcounts⟩

theorem sound_close (hmark : ∃ t ∈ tokens[mark]?, t.kind = .endOfText) {inner : Expr}
    (h : Sound mark base budget ⟨.close inner, waiting, progress⟩) :
    ∃ m', step tokens limit ⟨.close inner, waiting, progress⟩ = .ok m' ∧
      Sound mark base budget m' := by
  obtain ⟨hcurrent, hstacked, -, hlevels, hcounts⟩ := h
  have hlength := hstacked.length_le
  obtain ⟨t, hahead, hpass⟩ := exists_ahead hmark hcurrent
  rw [step, hahead]
  by_cases hclosed : t.kind = .rightParen
  · exact ⟨_, if_pos hclosed, hpass (by simp [hclosed]), hstacked, hlength, hlevels, hcounts⟩
  · exact ⟨_, if_neg hclosed, hcurrent, hstacked, hlength, hlevels, hcounts⟩

/-- An abandoned rule may have been the one that opened a level, so the levels only fall. -/
theorem sound_giveUp {e : SyntaxError}
    (h : Sound mark base budget ⟨.giveUp e, waiting, progress⟩) :
    ∃ m', step tokens limit ⟨.giveUp e, waiting, progress⟩ = .ok m' ∧
      Sound mark base budget m' := by
  obtain ⟨hcurrent, hstacked, -, hlevels, hcounts⟩ := h
  cases waiting with
  | nil => exact ⟨_, rfl, hcurrent, trivial, Nat.zero_le _, Nat.zero_le _, .inr hcounts⟩
  | cons waits waiting =>
    have hfewer : openLevels waiting ≤ openLevels (waits :: waiting) := by
      cases waits <;> simp [openLevels]
    exact ⟨_, rfl, hcurrent, hstacked.2, hstacked.2.length_le, Nat.le_trans hfewer hlevels,
      hcounts⟩

/-- Each step keeps all of it, and there is always a next step: no index is out of range, and
literals are made of their tokens alone. -/
theorem Sound.step (hmark : ∃ t ∈ tokens[mark]?, t.kind = .endOfText)
    (hbudget : budget = (limit - base).toNat) (h : Sound mark base budget m) :
    ∃ m', step tokens limit m = .ok m' ∧ Sound mark base budget m' := by
  obtain ⟨task, waiting, progress⟩ := m
  cases task with
  | apply rule => exact sound_begin hmark h
  | join level left => exact sound_join hmark h
  | enter opening t => exact sound_enter hbudget h
  | examine t => exact sound_examine h
  | close inner => exact sound_close hmark h
  | give tree => exact ⟨_, rfl, sound_goOn h⟩
  | giveUp e => exact sound_giveUp h
  | finished tree => exact ⟨_, rfl, h⟩

/-- So it holds after any number of steps. -/
theorem Sound.run (hmark : ∃ t ∈ tokens[mark]?, t.kind = .endOfText)
    (hbudget : budget = (limit - base).toNat) (h : Sound mark base budget m) (steps : Nat) :
    ∃ m', Machine.run tokens limit steps m = .ok m' ∧ Sound mark base budget m' := by
  induction steps generalizing m with
  | zero => exact ⟨m, rfl, h⟩
  | succ steps ih =>
    obtain ⟨next, hstep, hnext⟩ := h.step hmark hbudget
    rw [run_succ_of_step hstep]
    exact ih hnext

theorem Sound.nesting_le (h : Sound mark base budget m) :
    base ≤ m.progress.nesting ∧ m.progress.nesting ≤ base + budget + 1 := by
  have hlevels := h.levels_le
  have hcounts := h.counts
  cases htask : m.task <;> simp only [htask, Task.Counts] at hcounts <;> omega

theorem Sound.openRules_le (h : Sound mark base budget m) :
    m.openRules ≤ 11 * (budget + 1) := by
  have hlength := h.stacked.length_le
  have hlevels := h.levels_le
  unfold openRules
  split <;> omega

end Sound

end Machine

/-- What a parse faces ends at the index of a mark. -/
theorem Faces.mark {tokens ahead : List Token} {ending : Token} {progress : Progress}
    (h : Faces tokens ending ahead progress) :
    ∃ t ∈ tokens[progress.current + ahead.length]?, t.kind = .endOfText := by
  obtain ⟨after, hdrop⟩ := h.drop_eq
  refine ⟨ending, ?_, h.ending_kind⟩
  rw [Option.mem_def, ← List.getElem?_drop, hdrop, List.getElem?_append_right (Nat.le_refl _),
    Nat.sub_self]
  rfl

/-- So it holds at every moment of each parse of a session. -/
theorem Tracks.sound {tokens : List Token} {s : ParseSession} (h : Tracks tokens s s.progress)
    (steps : Nat) : ∃ m, Machine.run tokens s.limit steps (.start s.progress) = .ok m ∧
      m.Sound (s.consumed + s.ahead.length) s.nesting s.budget :=
  (Machine.sound_start (Nat.le_add_right _ _)).run h.faces.mark rfl steps

end LoxGraph.Stepwise
