import LoxGraph.Proofs.Stepwise.Resuming

/-!
A parse as a machine.

The rules that are open in a parse stand on a stack: one is at work, and each of the others waits
for what the one above it reads. A step of the machine does one thing, a look at the next token
and one change to what is counted, so that between two steps everything can be seen that holds in
the course of a parse. The stack is as deep as it needs to be: no depth is given to the machine.

What the rules of reading say of a part is what the machine comes to when it reads that part
(`Reads.arrives`), whatever waits for it, and so each parse of a session is a run of the machine
from its beginning to its end (`reaches_parse`).
-/

namespace LoxGraph

namespace Stepwise

/-- A rule that waits for another one, with what it has read so far. -/
inductive Waiting where
  | expression
  | level (level : Level)
  | first (level : Level)
  | link (level : Level) (left : Expr) (operator : Token)
  | signed (operator : Token)
  | unsigned
  | group

/-- What nests an operand deeper. -/
inductive Opening where
  | sign
  | parenthesis

/-- How the rule goes to wait that has met an opening. -/
def Opening.waiting : Opening → Token → Waiting
  | sign, t => .signed t
  | parenthesis, _ => .group

/-- The rule for what is opened. -/
def Opening.inner : Opening → Rule
  | sign => .unary
  | parenthesis => .expression

/-- What comes next in a parse. Nothing comes after `finished`. -/
inductive Task where
  | apply (rule : Rule)
  | join (level : Level) (left : Expr)
  | enter (opening : Opening) (t : Token)
  | examine (t : Token)
  | close (inner : Expr)
  | give (tree : Expr)
  | giveUp (e : SyntaxError)
  | finished (tree : Expr)

/-- A parse at some moment: what the rule at work does next, the rules that wait, the innermost
first, and how far the parse has come. -/
structure Machine where
  task : Task
  waiting : List Waiting
  progress : Progress

namespace Progress

/-- Past the next token. -/
def passed (progress : Progress) : Progress := { progress with current := progress.current + 1 }

/-- With one more sign or parenthesis open. -/
def entered (progress : Progress) : Progress := { progress with nesting := progress.nesting + 1 }

/-- With one of them closed. -/
def left (progress : Progress) : Progress := { progress with nesting := progress.nesting - 1 }

/-- With one more mistake. -/
def noted (progress : Progress) (e : SyntaxError) : Progress :=
  { progress with errors := progress.errors ++ [e] }

end Progress

namespace Machine

/-- A parse that is about to begin. -/
def start (progress : Progress) : Machine := ⟨.apply .expression, [], progress⟩

/-- The number of rules that are open: the one at work and those that wait. -/
def openRules (m : Machine) : Nat :=
  match m.task with
  | .finished _ => 0
  | _ => m.waiting.length + 1

section Steps

variable (tokens : List Token) (limit : Int)

/-- The token that comes next, if the index is one of the list. -/
def ahead (progress : Progress) : Except Mishap Token :=
  match tokens[progress.current]? with
  | some t => .ok t
  | none => .error (.outOfRange progress.current)

/-- The rule at work gives the literal that a token writes. Other tokens must not come here. -/
def giveLiteral (t : Token) (waiting : List Waiting) (progress : Progress) :
    Except Mishap Machine :=
  match Literal.ofToken? t with
  | some l => .ok ⟨.give (.literal l), waiting, progress⟩
  | none => .error (.notALiteral t.kind)

/-- What a rule does first: it applies another one, or it looks at the next token. -/
def begin (waiting : List Waiting) (progress : Progress) : Rule → Except Mishap Machine
  | .expression => .ok ⟨.apply (.level .equality), .expression :: waiting, progress⟩
  | .level level => .ok ⟨.apply (.leftAssociative level), .level level :: waiting, progress⟩
  | .leftAssociative level => .ok ⟨.apply level.operandRule, .first level :: waiting, progress⟩
  | .unary => do
    let t ← ahead tokens progress
    if t.kind ∈ [TokenKind.bang, .minus] then .ok ⟨.enter .sign t, waiting, progress.passed⟩
    else .ok ⟨.apply .primary, .unsigned :: waiting, progress⟩
  | .primary => do
    let t ← ahead tokens progress
    if t.kind ∈ [TokenKind.falseWord, .trueWord, .nilWord] then
      giveLiteral t waiting progress.passed
    else if t.kind = .endOfText then
      .ok ⟨.give .error, waiting, progress.noted ⟨t, .expectedExpression⟩⟩
    else .ok ⟨.examine t, waiting, progress.passed⟩

/-- How the innermost of the rules that wait goes on with a tree. -/
def goOn (tree : Expr) (progress : Progress) : List Waiting → Machine
  | [] => ⟨.finished tree, [], progress⟩
  | .expression :: waiting => ⟨.give tree, waiting, progress⟩
  | .level _ :: waiting => ⟨.give tree, waiting, progress⟩
  | .first level :: waiting => ⟨.join level tree, waiting, progress⟩
  | .link level left operator :: waiting =>
    ⟨.join level (.binary left operator tree), waiting, progress⟩
  | .signed operator :: waiting => ⟨.give (.unary operator tree), waiting, progress.left⟩
  | .unsigned :: waiting => ⟨.give tree, waiting, progress⟩
  | .group :: waiting => ⟨.close tree, waiting, progress.left⟩

/-- One step of a parse. An expression that is given up takes with it all rules that wait, one
after another. -/
def step : Machine → Except Mishap Machine
  | ⟨.apply rule, waiting, progress⟩ => begin tokens waiting progress rule
  | ⟨.join level left, waiting, progress⟩ => do
    let t ← ahead tokens progress
    if t.kind ∈ level.operators then
      .ok ⟨.apply level.operandRule, .link level left t :: waiting, progress.passed⟩
    else .ok ⟨.give left, waiting, progress⟩
  | ⟨.enter opening t, waiting, progress⟩ =>
    if limit < progress.entered.nesting then
      .ok ⟨.giveUp ⟨t, .nestedTooDeep⟩, waiting, progress.entered⟩
    else .ok ⟨.apply opening.inner, opening.waiting t :: waiting, progress.entered⟩
  | ⟨.examine t, waiting, progress⟩ =>
    if t.kind = .number ∨ t.kind = .string then giveLiteral t waiting progress
    else if t.kind = .leftParen then .ok ⟨.enter .parenthesis t, waiting, progress⟩
    else .ok ⟨.give .error, waiting, progress.noted ⟨t, .expectedExpression⟩⟩
  | ⟨.close inner, waiting, progress⟩ => do
    let t ← ahead tokens progress
    if t.kind = .rightParen then .ok ⟨.give (.grouping inner), waiting, progress.passed⟩
    else .ok ⟨.give .error, waiting, progress.noted ⟨t, .expectedClosing⟩⟩
  | ⟨.give tree, waiting, progress⟩ => .ok (goOn tree progress waiting)
  | ⟨.giveUp e, [], progress⟩ => .ok ⟨.finished .error, [], progress.noted e⟩
  | ⟨.giveUp e, _ :: waiting, progress⟩ => .ok ⟨.giveUp e, waiting, progress⟩
  | ⟨.finished tree, waiting, progress⟩ => .ok ⟨.finished tree, waiting, progress⟩

/-- The machine after some steps. -/
def run : Nat → Machine → Except Mishap Machine
  | 0, m => .ok m
  | steps + 1, m => do run steps (← step tokens limit m)

/-- Whether a machine comes to be another one. -/
def Reaches (m m' : Machine) : Prop := ∃ steps, run tokens limit steps m = .ok m'

end Steps

section Reaching

variable {tokens : List Token} {limit : Int} {m m' m'' : Machine}

theorem run_succ_of_step (h : step tokens limit m = .ok m') (steps : Nat) :
    run tokens limit (steps + 1) m = run tokens limit steps m' := by
  rw [run, h]
  rfl

theorem run_add {steps : Nat} (h : run tokens limit steps m = .ok m') (more : Nat) :
    run tokens limit (steps + more) m = run tokens limit more m' := by
  induction steps generalizing m with
  | zero =>
    cases h
    rw [Nat.zero_add]
  | succ steps ih =>
    cases hstep : step tokens limit m with
    | error mishap =>
      rw [run, hstep] at h
      cases h
    | ok next =>
      rw [run_succ_of_step hstep] at h
      rw [Nat.succ_add, run_succ_of_step hstep]
      exact ih h

theorem Reaches.refl (m : Machine) : Reaches tokens limit m m := ⟨0, rfl⟩

theorem Reaches.trans (h : Reaches tokens limit m m') (h' : Reaches tokens limit m' m'') :
    Reaches tokens limit m m'' := by
  obtain ⟨steps, hsteps⟩ := h
  obtain ⟨more, hmore⟩ := h'
  exact ⟨steps + more, (run_add hsteps more).trans hmore⟩

theorem Reaches.step (h : step tokens limit m = .ok m') : Reaches tokens limit m m' :=
  ⟨1, run_succ_of_step h 0⟩

theorem reaches_giveUp (e : SyntaxError) (waiting : List Waiting) (progress : Progress) :
    Reaches tokens limit ⟨.giveUp e, waiting, progress⟩ ⟨.giveUp e, [], progress⟩ := by
  induction waiting with
  | nil => exact .refl _
  | cons _ waiting ih => exact (Reaches.step rfl).trans ih

end Reaching

end Machine

end Stepwise

open Stepwise

/-- The task that reads a part. -/
def Part.task : Part → Task
  | .chain level => .apply (.level level)
  | .links level left => .join level left
  | .operand => .apply .unary

theorem Level.task_operandPart (level : Level) :
    level.operandPart.task = .apply level.operandRule := by
  cases level <;> rfl

namespace Stepwise

namespace Machine

variable {tokens : List Token} {limit : Int} {ending : Token} {budget : Nat}
  {waiting : List Waiting} {progress : Progress} {ahead : List Token}

/-- Whether a machine comes to what an outcome says, as the rules that are to wait see it: a tree
that is given to them, or an error that has taken all of them away. -/
def Arrives (tokens : List Token) (limit : Int) (budget : Nat) (waiting : List Waiting)
    (ahead : List Token) (m : Machine) : Outcome Expr → Prop
  | .done tree errors rest => ∃ later, Moved m.progress later ahead rest 0 errors ∧
      Reaches tokens limit m ⟨.give tree, waiting, later⟩
  | .tooDeep errors rest => ∃ earlier e later, errors = earlier ++ [e] ∧
      Moved m.progress later ahead rest (budget + 1) earlier ∧
      Reaches tokens limit m ⟨.giveUp e, [], later⟩

namespace Arrives

variable {m m' : Machine} {between rest : List Token} {errors : List SyntaxError}
  {outcome : Outcome Expr} {tree : Expr} {later : Progress}

/-- What comes of the rest, after a part of the tokens has been passed. -/
theorem after (h : Arrives tokens limit budget waiting between m' outcome)
    (hreaches : Reaches tokens limit m m')
    (hmoved : Moved m.progress m'.progress ahead between 0 errors) :
    Arrives tokens limit budget waiting ahead m (outcome.after errors) := by
  cases outcome with
  | done tree errors' rest =>
    obtain ⟨later, hlater, harrives⟩ := h
    exact ⟨later, hmoved.trans hlater, hreaches.trans harrives⟩
  | tooDeep errors' rest =>
    obtain ⟨earlier, e, later, rfl, hlater, harrives⟩ := h
    refine ⟨errors ++ earlier, e, later, (List.append_assoc _ _ _).symm, ?_,
      hreaches.trans harrives⟩
    simpa using hmoved.trans hlater

theorem passed (h : Arrives tokens limit budget waiting between m' outcome)
    (hreaches : Reaches tokens limit m m')
    (hmoved : Moved m.progress m'.progress ahead between 0 []) :
    Arrives tokens limit budget waiting ahead m outcome := by
  have hafter := h.after hreaches hmoved
  rwa [Outcome.after_nil] at hafter

/-- A rule that gives on what it gets is no more than a step. -/
theorem given {waits : Waiting}
    (h : Arrives tokens limit budget (waits :: waiting) ahead m outcome)
    (hwaits : ∀ tree later, Machine.goOn tree later (waits :: waiting) =
      ⟨.give tree, waiting, later⟩) :
    Arrives tokens limit budget waiting ahead m outcome := by
  cases outcome with
  | done tree errors rest =>
    obtain ⟨later, hmoved, harrives⟩ := h
    refine ⟨later, hmoved, harrives.trans (.step ?_)⟩
    rw [step, hwaits]
  | tooDeep errors rest => exact h

/-- An expression is a chain of the loosest level. -/
theorem expression (h : Arrives tokens limit budget (.expression :: waiting) ahead
      ⟨.apply (.level .equality), .expression :: waiting, progress⟩ outcome) :
    Arrives tokens limit budget waiting ahead ⟨.apply .expression, waiting, progress⟩ outcome :=
  (h.given fun _ _ => rfl).passed (.step rfl) (.refl progress ahead)

end Arrives

section Paths

variable {t : Token} {rest : List Token}

theorem ahead_eq (h : Faces tokens ending ahead progress) :
    Machine.ahead tokens progress = .ok (ahead.headD ending) := by
  rw [Machine.ahead, h.getElem?]

/-- What is read without a sign is given on. -/
theorem reaches_unsigned (tree : Expr) : Reaches tokens limit
    ⟨.give tree, .unsigned :: waiting, progress⟩ ⟨.give tree, waiting, progress⟩ :=
  .step rfl

theorem reaches_level (level : Level) : Reaches tokens limit
    ⟨.apply (.level level), waiting, progress⟩
    ⟨.apply level.operandRule, .first level :: .level level :: waiting, progress⟩ :=
  ⟨2, rfl⟩

theorem reaches_link {level : Level} (h : Faces tokens ending (t :: rest) progress)
    (here : level.hasOperator t.kind = true) (left : Expr) : Reaches tokens limit
      ⟨.join level left, waiting, progress⟩
      ⟨.apply level.operandRule, .link level left t :: waiting, progress.passed⟩ := by
  apply Reaches.step
  rw [step, ahead_eq h]
  exact if_pos (Level.mem_operators_iff.mpr here)

theorem reaches_noLink {level : Level} (h : Faces tokens ending ahead progress)
    (stop : ∀ t ∈ ahead.head?, level.hasOperator t.kind = false) (left : Expr) :
    Reaches tokens limit ⟨.join level left, waiting, progress⟩ ⟨.give left, waiting, progress⟩ := by
  apply Reaches.step
  rw [step, ahead_eq h]
  apply if_neg
  rw [Level.mem_operators_iff]
  cases ahead with
  | nil =>
    rw [List.headD_nil, h.ending_kind]
    cases level <;> decide
  | cons t rest => simp [stop t rfl]

theorem reaches_sign (h : Faces tokens ending (t :: rest) progress)
    (here : t.kind.isSign = true) : Reaches tokens limit ⟨.apply .unary, waiting, progress⟩
      ⟨.enter .sign t, waiting, progress.passed⟩ := by
  apply Reaches.step
  rw [step, begin, ahead_eq h]
  exact if_pos (mem_signs_iff.mpr here)

/-- Without a sign, an operand is what the rule behind it reads. -/
theorem reaches_primary (h : Faces tokens ending ahead progress)
    (hsign : ∀ t ∈ ahead.head?, t.kind.isSign = false) :
    Reaches tokens limit ⟨.apply .unary, waiting, progress⟩
      ⟨.apply .primary, .unsigned :: waiting, progress⟩ := by
  apply Reaches.step
  rw [step, begin, ahead_eq h]
  apply if_neg
  rw [mem_signs_iff]
  cases ahead with
  | nil => simp [h.ending_kind, TokenKind.isSign]
  | cons t rest => simp [hsign t rfl]

theorem reaches_nothing (h : Faces tokens ending [] progress) :
    Reaches tokens limit ⟨.apply .unary, waiting, progress⟩
      ⟨.give .error, waiting, progress.noted ⟨ending, .expectedExpression⟩⟩ := by
  have hmistake : step tokens limit ⟨.apply .primary, .unsigned :: waiting, progress⟩ =
      .ok ⟨.give .error, .unsigned :: waiting,
        progress.noted ⟨ending, .expectedExpression⟩⟩ := by
    rw [step, begin, ahead_eq h]
    exact (if_neg (by simp [h.ending_kind])).trans (if_pos h.ending_kind)
  exact ((reaches_primary h (by simp)).trans (.step hmistake)).trans (reaches_unsigned _)

/-- A token that is no reserved word for a literal is passed, then looked at. -/
theorem reaches_examine (h : Faces tokens ending (t :: rest) progress)
    (hsign : t.kind.isSign = false)
    (hword : t.kind ∉ [TokenKind.falseWord, .trueWord, .nilWord]) :
    Reaches tokens limit ⟨.apply .unary, waiting, progress⟩
      ⟨.examine t, .unsigned :: waiting, progress.passed⟩ := by
  refine (reaches_primary h (by simpa using hsign)).trans (.step ?_)
  have hkind : t.kind ≠ .endOfText := h.ahead_kind t List.mem_cons_self
  rw [step, begin, ahead_eq h]
  exact (if_neg hword).trans (if_neg hkind)

theorem reaches_literal (h : Faces tokens ending (t :: rest) progress) {l : Literal}
    (here : Literal.ofToken? t = some l) : Reaches tokens limit
      ⟨.apply .unary, waiting, progress⟩ ⟨.give (.literal l), waiting, progress.passed⟩ := by
  have hsign : t.kind.isSign = false := by
    cases hsign : t.kind.isSign with
    | false => rfl
    | true => rw [Literal.ofToken?_eq_none_of_isSign hsign] at here; cases here
  have hgives (waiting : List Waiting) (progress : Progress) :
      giveLiteral t waiting progress = .ok ⟨.give (.literal l), waiting, progress⟩ := by
    rw [giveLiteral, here]
  refine Reaches.trans ?_ (reaches_unsigned _)
  by_cases hword : t.kind ∈ [TokenKind.falseWord, .trueWord, .nilWord]
  · refine (reaches_primary h (by simpa using hsign)).trans (.step ?_)
    rw [step, begin, ahead_eq h]
    exact (if_pos hword).trans (hgives _ _)
  · refine (reaches_examine h hsign hword).trans (.step ?_)
    rw [step, if_pos (number_or_string_of_ofToken? here hword), hgives]

/-- A parenthesis is passed before it is counted. -/
theorem reaches_parenthesis (h : Faces tokens ending (t :: rest) progress)
    (here : t.kind = .leftParen) : Reaches tokens limit ⟨.apply .unary, waiting, progress⟩
      ⟨.enter .parenthesis t, .unsigned :: waiting, progress.passed⟩ := by
  refine (reaches_examine h (by simp [here, TokenKind.isSign_leftParen]) (by simp [here])).trans
    (.step ?_)
  rw [step, if_neg (by simp [here]), if_pos here]

theorem reaches_unexpected (h : Faces tokens ending (t :: rest) progress)
    (noLiteral : Literal.ofToken? t = none) (noSign : t.kind.isSign = false)
    (noGroup : t.kind ≠ .leftParen) : Reaches tokens limit ⟨.apply .unary, waiting, progress⟩
      ⟨.give .error, waiting, progress.passed.noted ⟨t, .expectedExpression⟩⟩ := by
  obtain ⟨hword, hvalue⟩ := no_word_of_ofToken?_eq_none noLiteral
  refine (reaches_examine h noSign hword).trans (Reaches.trans (.step ?_) (reaches_unsigned _))
  rw [step, if_neg hvalue, if_neg noGroup]

theorem reaches_inner (hwithin : progress.nesting < limit) (opening : Opening) (t : Token) :
    Reaches tokens limit ⟨.enter opening t, waiting, progress⟩
      ⟨.apply opening.inner, opening.waiting t :: waiting, progress.entered⟩ := by
  apply Reaches.step
  rw [step]
  apply if_neg
  simp only [Progress.entered]
  omega

/-- A sign or a parenthesis past the limit gives up the expression. -/
theorem reaches_pastLimit (hpast : limit ≤ progress.nesting) (opening : Opening) (t : Token) :
    Reaches tokens limit ⟨.enter opening t, waiting, progress⟩
      ⟨.giveUp ⟨t, .nestedTooDeep⟩, [], progress.entered⟩ := by
  refine Reaches.trans (.step ?_) (reaches_giveUp _ waiting _)
  rw [step]
  apply if_pos
  simp only [Progress.entered]
  omega

theorem reaches_closed (h : Faces tokens ending (t :: rest) progress)
    (closed : t.kind = .rightParen) (inner : Expr) : Reaches tokens limit
      ⟨.close inner, waiting, progress⟩ ⟨.give (.grouping inner), waiting, progress.passed⟩ := by
  apply Reaches.step
  rw [step, ahead_eq h]
  exact if_pos closed

theorem reaches_unclosed (h : Faces tokens ending ahead progress)
    (unclosed : ∀ t ∈ ahead.head?, t.kind ≠ .rightParen) (inner : Expr) : Reaches tokens limit
      ⟨.close inner, waiting, progress⟩
      ⟨.give .error, waiting, progress.noted ⟨ahead.headD ending, .expectedClosing⟩⟩ := by
  apply Reaches.step
  rw [step, ahead_eq h]
  apply if_neg
  cases ahead with
  | nil => simp [h.ending_kind]
  | cons t rest => exact unclosed t rfl

end Paths

/-- A sign or a parenthesis takes one from the budget, if there is any. -/
theorem nesting_lt_of_budget (h : budget + 1 = (limit - progress.nesting).toNat) :
    progress.nesting < limit := by
  omega

theorem budget_entered (h : budget + 1 = (limit - progress.nesting).toNat) :
    budget = (limit - progress.entered.nesting).toNat := by
  simp only [Progress.entered]
  omega

theorem faces_entered (h : Faces tokens ending ahead progress) :
    Faces tokens ending ahead progress.entered :=
  (Moved.level progress ahead 1).faces h

/-- What was open around an operand is open behind it. -/
theorem moved_left {later : Progress} {rest : List Token} {errors : List SyntaxError}
    (h : Moved progress.entered later ahead rest 0 errors) :
    Moved progress later.left ahead rest 0 errors := by
  have hout := ((Moved.level progress ahead 1).trans h).trans (Moved.level later rest (-1))
  simp only [List.nil_append, List.append_nil, Int.add_zero, Int.add_right_neg] at hout
  exact hout

/-- A level that was entered is not left by an error that gives up. -/
theorem Arrives.entered {rest : List Token} {errors : List SyntaxError} (opening : Opening)
    {t : Token} (hwithin : progress.nesting < limit)
    (h : Arrives tokens limit budget (opening.waiting t :: waiting) ahead
      ⟨.apply opening.inner, opening.waiting t :: waiting, progress.entered⟩
      (.tooDeep errors rest)) :
    Arrives tokens limit (budget + 1) waiting ahead ⟨.enter opening t, waiting, progress⟩
      (.tooDeep errors rest) := by
  obtain ⟨earlier, e, later, herrors, hmoved, harrives⟩ := h
  refine ⟨earlier, e, later, herrors, ?_, (reaches_inner hwithin opening t).trans harrives⟩
  have hdeep := (Moved.level progress ahead 1).trans hmoved
  have hlevels : (1 : Int) + (budget + 1) = (budget + 1 : Nat) + 1 := by omega
  rwa [List.nil_append, hlevels] at hdeep

end Machine

end Stepwise

open Machine

/-- What the rules of reading say of a part is what the machine does that reads this part, whatever
waits for it. -/
theorem Reads.arrives {tokens : List Token} {limit : Int} {ending : Token} {budget : Nat}
    {part : Part} {ahead : List Token} {outcome : Outcome Expr}
    (h : Reads ending budget part ahead outcome) (waiting : List Waiting) (progress : Progress)
    (hfaces : Faces tokens ending ahead progress)
    (hbudget : budget = (limit - progress.nesting).toNat) :
    Arrives tokens limit budget waiting ahead ⟨part.task, waiting, progress⟩ outcome := by
  induction h generalizing waiting progress with
  | @chain budget level ahead left errors rest outcome first others ihFirst ihOthers =>
    have hfirst := ihFirst (.first level :: .level level :: waiting) progress hfaces hbudget
    rw [Level.task_operandPart] at hfirst
    obtain ⟨later, hmoved, hreaches⟩ := hfirst
    have hothers := ihOthers (.level level :: waiting) later (hmoved.faces hfaces)
      (hmoved.budget_eq hbudget)
    exact (hothers.given fun _ _ => rfl).after
      ((reaches_level level).trans (hreaches.trans (.step rfl))) hmoved
  | @chainTooDeep budget level ahead errors rest first ih =>
    have hfirst := ih (.first level :: .level level :: waiting) progress hfaces hbudget
    rw [Level.task_operandPart] at hfirst
    exact Arrives.passed hfirst (reaches_level level) (.refl progress ahead)
  | noLink stop => exact ⟨progress, .refl progress _, reaches_noLink hfaces stop _⟩
  | @link budget level left operator ahead right errors rest outcome here next others ihNext
      ihOthers =>
    have hnext := ihNext (.link level left operator :: waiting) progress.passed hfaces.next hbudget
    rw [Level.task_operandPart] at hnext
    obtain ⟨later, hmoved, hreaches⟩ := hnext
    have hothers := ihOthers waiting later (hmoved.faces hfaces.next) (hmoved.budget_eq hbudget)
    have hmovedNext := (Moved.next progress operator ahead).trans hmoved
    rw [List.nil_append, Int.add_zero] at hmovedNext
    exact hothers.after ((reaches_link hfaces here left).trans (hreaches.trans (.step rfl)))
      hmovedNext
  | @linkTooDeep budget level left operator ahead errors rest here next ih =>
    have hnext := ih (.link level left operator :: waiting) progress.passed hfaces.next hbudget
    rw [Level.task_operandPart] at hnext
    exact Arrives.passed hnext (reaches_link hfaces here left) (.next progress operator ahead)
  | nothing => exact ⟨_, .record progress [] _, reaches_nothing hfaces⟩
  | @literal budget t rest l here =>
    exact ⟨_, .next progress t rest, reaches_literal hfaces here⟩
  | @sign budget t ahead child errors rest here inner ih =>
    have hwithin : progress.passed.nesting < limit := nesting_lt_of_budget hbudget
    obtain ⟨later, hmoved, hreaches⟩ := ih (.signed t :: waiting) progress.passed.entered
      (faces_entered hfaces.next) (budget_entered hbudget)
    refine Arrives.passed ⟨later.left, moved_left hmoved, ?_⟩ (reaches_sign hfaces here)
      (.next progress t ahead)
    exact (reaches_inner hwithin .sign t).trans (hreaches.trans (.step rfl))
  | @signTooDeep budget t ahead errors rest here inner ih =>
    have hwithin : progress.passed.nesting < limit := nesting_lt_of_budget hbudget
    have hinner := ih (.signed t :: waiting) progress.passed.entered (faces_entered hfaces.next)
      (budget_entered hbudget)
    exact (hinner.entered .sign hwithin).passed (reaches_sign hfaces here)
      (.next progress t ahead)
  | @group budget t ahead inside errors close rest here inner closed ih =>
    have hwithin : progress.passed.nesting < limit := nesting_lt_of_budget hbudget
    have hinner := ih (.expression :: .group :: .unsigned :: waiting) progress.passed.entered
      (faces_entered hfaces.next) (budget_entered hbudget)
    obtain ⟨later, hmoved, hreaches⟩ := hinner.expression
    have hinside := moved_left hmoved
    have hbehind := hinside.trans (.next later.left close rest)
    rw [List.append_nil] at hbehind
    refine Arrives.passed ⟨later.left.passed, hbehind, ?_⟩ (reaches_parenthesis hfaces here)
      (.next progress t ahead)
    exact (reaches_inner hwithin .parenthesis t).trans ((hreaches.trans (.step rfl)).trans
      ((reaches_closed (hinside.faces hfaces.next) closed inside).trans (reaches_unsigned _)))
  | @openGroup budget t ahead inside errors rest here inner unclosed ih =>
    have hwithin : progress.passed.nesting < limit := nesting_lt_of_budget hbudget
    have hinner := ih (.expression :: .group :: .unsigned :: waiting) progress.passed.entered
      (faces_entered hfaces.next) (budget_entered hbudget)
    obtain ⟨later, hmoved, hreaches⟩ := hinner.expression
    have hinside := moved_left hmoved
    refine Arrives.passed ⟨_, hinside.trans (.record later.left rest _), ?_⟩
      (reaches_parenthesis hfaces here) (.next progress t ahead)
    exact (reaches_inner hwithin .parenthesis t).trans ((hreaches.trans (.step rfl)).trans
      ((reaches_unclosed (hinside.faces hfaces.next) unclosed inside).trans (reaches_unsigned _)))
  | @groupTooDeep budget t ahead errors rest here inner ih =>
    have hwithin : progress.passed.nesting < limit := nesting_lt_of_budget hbudget
    have hinner := ih (.expression :: .group :: .unsigned :: waiting) progress.passed.entered
      (faces_entered hfaces.next) (budget_entered hbudget)
    exact (hinner.expression.entered .parenthesis hwithin).passed
      (reaches_parenthesis hfaces here) (.next progress t ahead)
  | @pastLimit t rest here =>
    have hpast : limit ≤ progress.passed.nesting := by
      simp only [Progress.passed]
      omega
    have hmoved := (Moved.next progress t rest).trans (Moved.level progress.passed rest 1)
    rcases here with hsign | hparen
    · exact ⟨[], ⟨t, .nestedTooDeep⟩, _, rfl, hmoved,
        (reaches_sign hfaces hsign).trans (reaches_pastLimit hpast .sign t)⟩
    · exact ⟨[], ⟨t, .nestedTooDeep⟩, _, rfl, hmoved,
        (reaches_parenthesis hfaces hparen).trans (reaches_pastLimit hpast .parenthesis t)⟩
  | @unexpected budget t rest noLiteral noSign noGroup =>
    have hmoved := (Moved.next progress t rest).trans (Moved.record progress.passed rest
      ⟨t, .expectedExpression⟩)
    exact ⟨_, hmoved, reaches_unexpected hfaces noLiteral noSign noGroup⟩

/-- Each parse of a session is what a machine does that begins where the session has come to, and
it ends where the session comes to then. -/
theorem Stepwise.Machine.reaches_parse {tokens : List Token} {s : ParseSession}
    (h : Tracks tokens s s.progress) : Reaches tokens s.limit (start s.progress)
      ⟨.finished s.parse.1, [], s.parse.2.progress⟩ := by
  have hreads := Expr.reads_parse s.ending s.budget s.ahead
  have harrives := (hreads.arrives [.expression] s.progress h.faces rfl).expression
  rw [s.parse_fst]
  cases hread : Expr.parse s.ending s.budget s.ahead with
  | done tree errors rest =>
    rw [hread] at harrives
    obtain ⟨later, hmoved, hreaches⟩ := harrives
    rw [← (h.parse hread hmoved).progress_eq]
    exact hreaches.trans (.step rfl)
  | tooDeep errors rest =>
    rw [hread] at harrives
    obtain ⟨earlier, e, later, rfl, hmoved, hreaches⟩ := harrives
    have hnoted := hmoved.trans (Moved.record later rest e)
    rw [Int.add_zero] at hnoted
    rw [← (h.parse hread hnoted).progress_eq]
    exact hreaches.trans (.step rfl)

end LoxGraph
