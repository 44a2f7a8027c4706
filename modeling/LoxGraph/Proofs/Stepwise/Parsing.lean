import LoxGraph.Proofs.Expr.FirstParse
import LoxGraph.Proofs.Stepwise.Parser

/-!
Parsing step by step is parsing.

Within the depth that it needs, a rule does what the reader for its part of an
expression does: no index is out of range on the way, neither a loop nor the recursion
runs out, and what is raised is an error in the text. Eleven rules are enough for each
level of nesting, and eleven more for what is outside of all (`perform_expression`).
`parse_run` says the same of the calls on a parser, one after another.
-/

namespace LoxGraph.Stepwise

variable {tokens : List Token} {limit : Int} {ending : Token} {ahead rest : List Token}
  {progress later : Progress} {budget : Nat} {t : Token}

/-- How a parse has moved: over tokens to the rest of them, by levels of nesting, and
with some more mistakes. -/
structure Moved (progress later : Progress) (ahead rest : List Token) (levels : Int)
    (errors : List SyntaxError) : Prop where
  suffix : rest <:+ ahead
  current : later.current + rest.length = progress.current + ahead.length
  nesting : later.nesting = progress.nesting + levels
  errors : later.errors = progress.errors ++ errors

namespace Moved

variable {levels levels' : Int} {errors errors' : List SyntaxError}

theorem refl (progress : Progress) (ahead : List Token) :
    Moved progress progress ahead ahead 0 [] :=
  ⟨List.suffix_refl _, rfl, (Int.add_zero _).symm, (List.append_nil _).symm⟩

theorem trans {last : Progress} {between : List Token}
    (h : Moved progress later ahead between levels errors)
    (h' : Moved later last between rest levels' errors') :
    Moved progress last ahead rest (levels + levels') (errors ++ errors') := by
  refine ⟨h'.suffix.trans h.suffix, h'.current.trans h.current, ?_, ?_⟩
  · rw [h'.nesting, h.nesting, Int.add_assoc]
  · rw [h'.errors, h.errors, List.append_assoc]

theorem next (progress : Progress) (t : Token) (ahead : List Token) :
    Moved progress { progress with current := progress.current + 1 } (t :: ahead) ahead 0 [] := by
  refine ⟨List.suffix_cons _ _, ?_, (Int.add_zero _).symm, (List.append_nil _).symm⟩
  simp only [List.length_cons]
  omega

theorem level (progress : Progress) (ahead : List Token) (levels : Int) :
    Moved progress { progress with nesting := progress.nesting + levels } ahead ahead levels [] :=
  ⟨List.suffix_refl _, rfl, rfl, (List.append_nil _).symm⟩

theorem record (progress : Progress) (ahead : List Token) (e : SyntaxError) :
    Moved progress { progress with errors := progress.errors ++ [e] } ahead ahead 0 [e] :=
  ⟨List.suffix_refl _, rfl, (Int.add_zero _).symm, rfl⟩

/-- A parse that has moved faces what it has not moved over. -/
theorem faces (h : Moved progress later ahead rest levels errors)
    (hfaces : Faces tokens ending ahead progress) : Faces tokens ending rest later :=
  hfaces.of_suffix h.suffix h.current

theorem budget_eq (h : Moved progress later ahead rest 0 errors)
    (hbudget : budget = (limit - progress.nesting).toNat) :
    budget = (limit - later.nesting).toNat := by
  rw [h.nesting, Int.add_zero]
  exact hbudget

end Moved

/-- What an action comes to, in the words of an outcome. An expression that is given up
is raised with its last mistake, before this one is recorded. -/
def Yields (budget : Nat) (progress : Progress) (ahead : List Token) :
    Outcome Expr → EStateM.Result (Raised SyntaxError) Progress Expr → Prop
  | .done tree errors rest, result =>
    ∃ later, result = .ok tree later ∧ Moved progress later ahead rest 0 errors
  | .tooDeep errors rest, result =>
    ∃ earlier e later, errors = earlier ++ [e] ∧ result = .error (.report e) later ∧
      Moved progress later ahead rest (budget + 1) earlier

namespace Yields

variable {between : List Token} {errors : List SyntaxError} {outcome : Outcome Expr}
  {result : EStateM.Result (Raised SyntaxError) Progress Expr}

/-- What comes of the rest, after a part of the tokens has been passed. -/
theorem after (h : Yields budget later between outcome result)
    (hmoved : Moved progress later ahead between 0 errors) :
    Yields budget progress ahead (outcome.after errors) result := by
  cases outcome with
  | done tree errors' rest =>
    obtain ⟨last, hresult, hlast⟩ := h
    exact ⟨last, hresult, hmoved.trans hlast⟩
  | tooDeep errors' rest =>
    obtain ⟨earlier, e, last, rfl, hresult, hlast⟩ := h
    refine ⟨errors ++ earlier, e, last, (List.append_assoc _ _ _).symm, hresult, ?_⟩
    simpa using hmoved.trans hlast

theorem passed (h : Yields budget later between outcome result)
    (hmoved : Moved progress later ahead between 0 []) :
    Yields budget progress ahead outcome result := by
  have hafter := h.after hmoved
  rwa [Outcome.after_nil] at hafter

/-- Actions in a row read on from the tokens that are left, unless the nesting was too
deep. -/
theorem bind {x : Parsing Expr} {f : Expr → Parsing Expr}
    {next : Expr → List Token → Outcome Expr}
    (h : Yields budget progress ahead outcome (x.run progress))
    (hnext : ∀ tree errors rest later, Moved progress later ahead rest 0 errors →
      Yields budget later rest (next tree rest) ((f tree).run later)) :
    Yields budget progress ahead (outcome.andThen next) ((x >>= f).run progress) := by
  cases outcome with
  | done tree errors rest =>
    obtain ⟨later, hrun, hmoved⟩ := h
    rw [Action.run_bind_of_ok hrun]
    exact (hnext tree errors rest later hmoved).after hmoved
  | tooDeep errors rest =>
    obtain ⟨earlier, e, later, herrors, hrun, hmoved⟩ := h
    exact ⟨earlier, e, later, herrors, Action.run_bind_of_error hrun, hmoved⟩

end Yields

/-- Whether an action reads what a reader reads, with the same budget for what is
nested. -/
def Realizes (tokens : List Token) (ending : Token) (limit : Int) (budget : Nat)
    (x : Parsing Expr) (reader : Reader) : Prop :=
  ∀ ahead progress, Faces tokens ending ahead progress →
    budget = (limit - progress.nesting).toNat →
    Yields budget progress ahead (reader ahead) (x.run progress)

theorem join_run_of_not_mem (h : Faces tokens ending ahead progress) {level : Level}
    (hstop : ∀ t ∈ ahead.head?, level.hasOperator t.kind = false) (apply : Rule → Parsing Expr)
    (ticks : Nat) (left : Expr) :
    (join tokens apply level (ticks + 1) left).run progress = .ok left progress := by
  have hnone : ∀ t ∈ ahead.head?, t.kind ∉ level.operators := by
    intro t ht
    rw [Level.mem_operators_iff, hstop t ht]
    exact Bool.false_ne_true
  rw [join, Action.run_bind_of_ok (accept_run_of_not_mem h hnone)]
  rfl

/-- The rounds of a loop are the links of a chain. The clock of either lasts longer than
the tokens. -/
theorem join_yields {apply : Rule → Parsing Expr} {level : Level} {operand : Reader}
    (h : Realizes tokens ending limit budget (apply level.operandRule) operand)
    (clock : List Token) (ticks : Nat) (left : Expr) (hfaces : Faces tokens ending ahead progress)
    (hbudget : budget = (limit - progress.nesting).toNat) (hclock : ahead.length ≤ clock.length)
    (hticks : ahead.length ≤ ticks) :
    Yields budget progress ahead (Expr.links level operand clock left ahead)
      ((join tokens apply level (ticks + 1) left).run progress) := by
  induction clock generalizing ahead progress ticks left with
  | nil =>
    obtain rfl : ahead = [] := List.eq_nil_of_length_eq_zero (Nat.le_zero.mp hclock)
    rw [join_run_of_not_mem hfaces (by simp)]
    exact ⟨progress, rfl, .refl progress []⟩
  | cons _ clock ih =>
    cases ahead with
    | nil =>
      rw [join_run_of_not_mem hfaces (by simp)]
      exact ⟨progress, rfl, .refl progress []⟩
    | cons operator ahead =>
      simp only [List.length_cons] at hclock hticks
      rw [Expr.links]
      split
      case isTrue here =>
        -- A link takes at least its operator from what is ahead, so neither clock runs out.
        obtain ⟨ticks, rfl⟩ : ∃ fewer, ticks = fewer + 1 := ⟨ticks - 1, by omega⟩
        rw [join, Action.run_bind_of_ok
          (accept_run_of_mem hfaces (Level.mem_operators_iff.mpr here)), if_pos rfl,
          Action.run_bind_of_ok (previous_run hfaces)]
        refine Yields.passed ?_ (.next progress operator ahead)
        refine (h ahead _ hfaces.next hbudget).bind ?_
        intro right errors rest later hmoved
        have hle := hmoved.suffix.length_le
        exact ih ticks _ (hmoved.faces hfaces.next) (hmoved.budget_eq hbudget) (by omega) (by omega)
      case isFalse here =>
        rw [join_run_of_not_mem hfaces (by simpa using here)]
        exact ⟨progress, rfl, .refl progress _⟩

section Rules

variable {depth : Nat} {operand : Reader}

theorem Realizes.level {level : Level}
    (h : Realizes tokens ending limit budget (perform tokens limit depth level.operandRule)
      operand) :
    Realizes tokens ending limit budget (perform tokens limit (depth + 2) (.level level))
      (Expr.chain level operand) := by
  intro ahead progress hfaces hbudget
  rw [perform, body, perform, body]
  refine (h ahead progress hfaces hbudget).bind ?_
  intro left errors rest later hmoved
  have hlater := hmoved.faces hfaces
  have hlt := hlater.length_lt
  exact join_yields h rest tokens.length left hlater (hmoved.budget_eq hbudget) (Nat.le_refl _)
    (by omega)

/-- An expression is nine rules deeper than its operands. -/
theorem Realizes.expression
    (h : Realizes tokens ending limit budget (perform tokens limit depth .unary) operand) :
    Realizes tokens ending limit budget (perform tokens limit (depth + 9) .expression)
      (Expr.expression operand) := by
  have hmultiplication := @Realizes.level _ _ _ _ _ _ .multiplication h
  have haddition := @Realizes.level _ _ _ _ _ _ .addition hmultiplication
  have hcomparison := @Realizes.level _ _ _ _ _ _ .comparison haddition
  exact @Realizes.level _ _ _ _ _ _ .equality hcomparison

theorem mem_signs_iff {kind : TokenKind} :
    kind ∈ [TokenKind.bang, .minus] ↔ kind.isSign = true := by
  simp [TokenKind.isSign]

theorem perform_unary_of_sign (h : Faces tokens ending (t :: ahead) progress)
    (here : t.kind.isSign = true) :
    (perform tokens limit (depth + 1) .unary).run progress =
      (do
        enter limit t
        let child ← perform tokens limit depth .unary
        leave
        return .unary t child : Parsing Expr).run
        { progress with current := progress.current + 1 } := by
  rw [perform, body, Action.run_bind_of_ok (accept_run_of_mem h (mem_signs_iff.mpr here)),
    if_pos rfl, Action.run_bind_of_ok (previous_run h)]

theorem perform_unary_of_not_sign (h : Faces tokens ending ahead progress)
    (hsign : ∀ t ∈ ahead.head?, t.kind.isSign = false) :
    (perform tokens limit (depth + 1) .unary).run progress =
      (perform tokens limit depth .primary).run progress := by
  have hnone : ∀ t ∈ ahead.head?, t.kind ∉ [TokenKind.bang, .minus] := by
    intro t ht
    rw [mem_signs_iff, hsign t ht]
    exact Bool.false_ne_true
  rw [perform, body, Action.run_bind_of_ok (accept_run_of_not_mem h hnone)]
  rfl

theorem perform_primary_nil (h : Faces tokens ending [] progress) :
    (perform tokens limit (depth + 1) .primary).run progress = (mistake ending).run progress := by
  rw [perform, body, Action.run_bind_of_ok (accept_run_of_not_mem h (by simp)),
    if_neg Bool.false_ne_true, Action.run_bind_of_ok (isAtEnd_run h), List.isEmpty_nil, if_pos rfl,
    Action.run_bind_of_ok (peek_run h)]
  rfl

/-- A token that is no reserved word for a literal is passed, then looked at. -/
theorem perform_primary_cons (h : Faces tokens ending (t :: ahead) progress)
    (hword : t.kind ∉ [TokenKind.falseWord, .trueWord, .nilWord]) :
    (perform tokens limit (depth + 1) .primary).run progress =
      (Stepwise.operand tokens limit (perform tokens limit depth) t).run
        { progress with current := progress.current + 1 } := by
  rw [perform, body, Action.run_bind_of_ok (accept_run_of_not_mem h (by simpa using hword)),
    if_neg Bool.false_ne_true, Action.run_bind_of_ok (isAtEnd_run h), List.isEmpty_cons,
    if_neg Bool.false_ne_true, Action.run_bind_of_ok (advance_run h)]

/-- A literal is a reserved word, a number or a string. -/
theorem number_or_string_of_ofToken? {l : Literal} (here : Literal.ofToken? t = some l)
    (hword : t.kind ∉ [TokenKind.falseWord, .trueWord, .nilWord]) :
    t.kind = .number ∨ t.kind = .string := by
  have hliteral : t.kind.isLiteral = true := by
    rw [← Literal.ofKind?_isSome t.kind t.literal]
    exact Option.isSome_iff_exists.mpr ⟨l, here⟩
  revert hliteral hword
  cases t.kind <;> decide

/-- What is no literal is none of the three. -/
theorem no_word_of_ofToken?_eq_none (here : Literal.ofToken? t = none) :
    t.kind ∉ [TokenKind.falseWord, .trueWord, .nilWord] ∧
      ¬(t.kind = .number ∨ t.kind = .string) := by
  have hliteral : t.kind.isLiteral = false := by
    rw [← Literal.ofKind?_isSome t.kind t.literal]
    exact Option.isSome_eq_false_iff.mpr (by simpa [Literal.ofToken?] using here)
  revert hliteral
  cases t.kind <;> decide

theorem perform_primary_of_literal (h : Faces tokens ending (t :: ahead) progress) {l : Literal}
    (here : Literal.ofToken? t = some l) :
    (perform tokens limit (depth + 1) .primary).run progress =
      .ok (.literal l) { progress with current := progress.current + 1 } := by
  by_cases hword : t.kind ∈ [TokenKind.falseWord, .trueWord, .nilWord]
  · rw [perform, body, Action.run_bind_of_ok (accept_run_of_mem h hword), if_pos rfl,
      Action.run_bind_of_ok (previous_run h), literalOf_run here]
  · rw [perform_primary_cons h hword, Stepwise.operand,
      if_pos (number_or_string_of_ofToken? here hword), literalOf_run here]

/-- What closes a group, or is missing. -/
theorem close_yields (h : Faces tokens ending ahead progress) (inner : Expr) :
    Yields budget progress ahead (Expr.closing ending inner ahead)
      ((close tokens inner).run progress) := by
  have hunclosed (hnone : ∀ t ∈ ahead.head?, t.kind ≠ .rightParen) :
      (close tokens inner).run progress = .ok .error
        { progress with
          errors := progress.errors ++ [⟨ahead.headD ending, .expectedClosing⟩] } := by
    have hconsume : (consume tokens .rightParen .expectedClosing).run progress = _ :=
      consume_run_error h hnone .expectedClosing
    rw [close, Action.run_tryCatch_of_error (Action.run_bind_of_error hconsume)]
    rfl
  cases ahead with
  | nil =>
    rw [hunclosed (by simp)]
    exact ⟨_, rfl, .record progress [] _⟩
  | cons t rest =>
    rw [Expr.closing]
    split
    case isTrue closed =>
      have hconsume := consume_run h closed .expectedClosing
      have hgroup := Action.run_bind_of_ok (f := fun _ => pure (Expr.grouping inner)) hconsume
      rw [close, Action.run_tryCatch_of_ok (hgroup.trans rfl)]
      exact ⟨_, rfl, .next progress t rest⟩
    case isFalse unclosed =>
      rw [hunclosed (by simpa using unclosed)]
      exact ⟨_, rfl, .record progress _ _⟩

/-- What stands inside a sign or a parenthesis is read with less of a budget, of which
some is left as long as the limit is not reached. -/
theorem Realizes.nested {x : Parsing Expr} (h : Realizes tokens ending limit budget x operand)
    (hfaces : Faces tokens ending ahead progress)
    (hbudget : budget + 1 = (limit - progress.nesting).toNat) (t : Token)
    {f : Expr → Parsing Expr} {next : Expr → List Token → Outcome Expr}
    (hnext : ∀ tree rest later, Faces tokens ending rest later →
      Yields (budget + 1) later rest (next tree rest) ((f tree).run later)) :
    Yields (budget + 1) progress ahead ((operand ahead).andThen next)
      ((do
        enter limit t
        let inner ← x
        leave
        f inner : Parsing Expr).run progress) := by
  rw [Action.run_bind_of_ok (enter_run (by omega) t)]
  have hmovedEnter := Moved.level progress ahead 1
  have hinner := h ahead _ (hmovedEnter.faces hfaces) (by simp only; omega)
  cases hread : operand ahead with
  | done tree errors rest =>
    rw [hread] at hinner
    obtain ⟨later, hrun, hmoved⟩ := hinner
    have hout := (hmovedEnter.trans hmoved).trans (Moved.level later rest (-1))
    simp only [List.nil_append, List.append_nil, Int.add_zero, Int.add_right_neg] at hout
    have hleave : leave.run later = .ok () { later with nesting := later.nesting + -1 } := rfl
    rw [Action.run_bind_of_ok hrun, Action.run_bind_of_ok hleave]
    exact (hnext tree rest _ (hout.faces hfaces)).after hout
  | tooDeep errors rest =>
    rw [hread] at hinner
    -- The level that was entered is not left again: the mistake that gives up is raised past it.
    obtain ⟨earlier, e, later, herrors, hrun, hmoved⟩ := hinner
    refine ⟨earlier, e, later, herrors, Action.run_bind_of_error hrun, ?_⟩
    have hdeep := hmovedEnter.trans hmoved
    rw [List.nil_append] at hdeep
    have hlevels : (1 : Int) + (budget + 1) = (budget + 1 : Nat) + 1 := by omega
    rwa [hlevels] at hdeep

/-- Operands that are neither signs nor groups. -/
theorem perform_unary_plain (hfaces : Faces tokens ending ahead progress)
    (hplain : ∀ t ∈ ahead.head?, t.kind.isSign = false ∧ t.kind ≠ .leftParen)
    (nested : Option Reader) :
    Yields budget progress ahead (Expr.operandWith ending nested ahead)
      ((perform tokens limit (depth + 2) .unary).run progress) := by
  rw [perform_unary_of_not_sign hfaces fun t ht => (hplain t ht).1]
  cases ahead with
  | nil =>
    rw [perform_primary_nil hfaces]
    exact ⟨_, rfl, .record progress [] _⟩
  | cons t rest =>
    obtain ⟨hsign, hparen⟩ := hplain t rfl
    cases here : Literal.ofToken? t with
    | some l =>
      rw [perform_primary_of_literal hfaces here]
      simp only [Expr.operandWith, here]
      exact ⟨_, rfl, .next progress t rest⟩
    | none =>
      obtain ⟨hword, hvalue⟩ := no_word_of_ofToken?_eq_none here
      rw [perform_primary_cons hfaces hword, Stepwise.operand, if_neg hvalue, if_neg hparen]
      simp only [Expr.operandWith, here, hsign, hparen, Bool.false_eq_true, if_false]
      exact Yields.passed ⟨_, rfl, .record _ rest _⟩ (.next progress t rest)

/-- A parenthesis is passed before it is counted. -/
theorem perform_unary_leftParen (h : Faces tokens ending (t :: ahead) progress)
    (here : t.kind = .leftParen) :
    (perform tokens limit (depth + 2) .unary).run progress =
      (do
        enter limit t
        let inner ← perform tokens limit depth .expression
        leave
        close tokens inner : Parsing Expr).run
        { progress with current := progress.current + 1 } := by
  rw [perform_unary_of_not_sign h (by simp [here, TokenKind.isSign_leftParen]),
    perform_primary_cons h (by simp [here]), Stepwise.operand, if_neg (by simp [here]), if_pos here]

/-- A sign or a parenthesis past the limit gives up the expression. -/
theorem enter_yields (hbudget : 0 = (limit - progress.nesting).toNat) (t : Token)
    (ahead : List Token) (f : Unit → Parsing Expr) :
    Yields 0 progress ahead (.tooDeep [⟨t, .nestedTooDeep⟩] ahead)
      ((enter limit t >>= f).run progress) := by
  rw [Action.run_bind_of_error (enter_run_error (by omega) t)]
  exact ⟨[], _, _, rfl, rfl, .level progress ahead 1⟩

theorem plain_or_opens (ahead : List Token) :
    (∀ t ∈ ahead.head?, t.kind.isSign = false ∧ t.kind ≠ .leftParen) ∨
      ∃ t rest, ahead = t :: rest ∧ (t.kind.isSign = true ∨ t.kind = .leftParen) := by
  cases ahead with
  | nil => simp
  | cons t rest =>
    rcases hsign : t.kind.isSign with _ | _
    · by_cases hparen : t.kind = .leftParen
      · exact .inr ⟨t, rest, rfl, .inr hparen⟩
      · exact .inl (by simp [hsign, hparen])
    · exact .inr ⟨t, rest, rfl, .inl hsign⟩

theorem realizes_operandWith_none :
    Realizes tokens ending limit 0 (perform tokens limit (depth + 2) .unary)
      (Expr.operandWith ending none) := by
  intro ahead progress hfaces hbudget
  rcases plain_or_opens ahead with hplain | ⟨t, rest, rfl, hsign | hparen⟩
  · exact perform_unary_plain hfaces hplain none
  · have hliteral := Literal.ofToken?_eq_none_of_isSign hsign
    refine Yields.passed ?_ (.next progress t rest)
    rw [perform_unary_of_sign hfaces hsign]
    simp only [Expr.operandWith, hliteral, hsign, if_true]
    apply enter_yields
    exact hbudget
  · have hliteral := Literal.ofToken?_eq_none_of_leftParen hparen
    refine Yields.passed ?_ (.next progress t rest)
    rw [perform_unary_leftParen hfaces hparen]
    simp only [Expr.operandWith, hliteral, hparen, TokenKind.isSign_leftParen, Bool.false_eq_true,
      if_false, if_true]
    apply enter_yields
    exact hbudget

/-- A sign takes one rule more than its operand, a group eleven. -/
theorem realizes_operandWith_some
    (hsigned : Realizes tokens ending limit budget (perform tokens limit (depth + 10) .unary)
      operand)
    (hgrouped : Realizes tokens ending limit budget (perform tokens limit depth .unary) operand) :
    Realizes tokens ending limit (budget + 1) (perform tokens limit (depth + 11) .unary)
      (Expr.operandWith ending (some operand)) := by
  intro ahead progress hfaces hbudget
  rcases plain_or_opens ahead with hplain | ⟨t, rest, rfl, hsign | hparen⟩
  · exact perform_unary_plain hfaces hplain (some operand)
  · have hliteral := Literal.ofToken?_eq_none_of_isSign hsign
    refine Yields.passed ?_ (.next progress t rest)
    rw [perform_unary_of_sign hfaces hsign]
    simp only [Expr.operandWith, hliteral, hsign, if_true]
    apply hsigned.nested hfaces.next hbudget t
    intro child rest later hlater
    exact ⟨later, rfl, .refl later rest⟩
  · have hliteral := Literal.ofToken?_eq_none_of_leftParen hparen
    refine Yields.passed ?_ (.next progress t rest)
    rw [perform_unary_leftParen hfaces hparen]
    simp only [Expr.operandWith, hliteral, hparen, TokenKind.isSign_leftParen, Bool.false_eq_true,
      if_false, if_true]
    apply hgrouped.expression.nested hfaces.next hbudget t
    intro inner rest later hlater
    exact close_yields hlater inner

end Rules

theorem realizes_operand (hdepth : 2 + 11 * budget ≤ depth) :
    Realizes tokens ending limit budget (perform tokens limit depth .unary)
      (Expr.operand ending budget) := by
  induction budget generalizing depth with
  | zero =>
    obtain ⟨depth, rfl⟩ := Nat.exists_eq_add_of_le' hdepth
    exact realizes_operandWith_none
  | succ budget ih =>
    obtain ⟨depth, rfl⟩ : ∃ inner, depth = inner + 11 := ⟨depth - 11, by omega⟩
    exact realizes_operandWith_some (ih (by omega)) (ih (by omega))

/-- Eleven rules for each level of nesting, and eleven more, are enough to do what the
reader of expressions does. -/
theorem perform_expression (hdepth : 11 * (budget + 1) ≤ depth) :
    Realizes tokens ending limit budget (perform tokens limit depth .expression)
      (Expr.parse ending budget) := by
  obtain ⟨depth, rfl⟩ : ∃ inner, depth = inner + 9 := ⟨depth - 9, by omega⟩
  exact (realizes_operand (by omega)).expression

/-- A session and a parser that have come equally far. -/
structure Tracks (tokens : List Token) (session : ParseSession) (progress : Progress) : Prop where
  faces : Faces tokens session.ending session.ahead progress
  current : progress.current = session.consumed
  nesting : progress.nesting = session.nesting
  errors : progress.errors = session.errors

/-- A session has parsed on to where a parser has moved that does what the reader does. -/
theorem Tracks.parse {session : ParseSession} (h : Tracks tokens session progress)
    {outcome : Outcome Expr}
    (hread : Expr.parse session.ending session.budget session.ahead = outcome)
    (hmoved : Moved progress later session.ahead outcome.rest (outcome.leftOpen session.budget)
      outcome.errors) : Tracks tokens session.parse.2 later := by
  have hle := hmoved.suffix.length_le
  have hcurrent := hmoved.current
  have hfaces := hmoved.faces h.faces
  subst hread
  refine ⟨?_, ?_, ?_, ?_⟩
  · rw [session.parse_ending, session.parse_ahead]
    exact hfaces
  · rw [session.parse_consumed, ← h.current]
    omega
  · rw [session.parse_nesting, ← h.nesting]
    exact hmoved.nesting
  · rw [session.parse_errors, ← h.errors]
    exact hmoved.errors

/-- Each parse of a session is one of the parser: whatever is raised in it is an error in
the text, which it records. -/
theorem parse_run {session : ParseSession} (h : Tracks tokens session progress)
    (hdepth : 11 * (session.budget + 1) ≤ depth) :
    ∃ later, (parse tokens session.limit depth).run progress = .ok session.parse.1 later ∧
      Tracks tokens session.parse.2 later := by
  have hbudget : session.budget = (session.limit - progress.nesting).toNat := by
    rw [h.nesting]
    rfl
  have hexpression := perform_expression hdepth session.ahead progress h.faces hbudget
  rw [Stepwise.parse, session.parse_fst]
  cases hread : Expr.parse session.ending session.budget session.ahead with
  | done tree errors rest =>
    rw [hread] at hexpression
    obtain ⟨later, hrun, hmoved⟩ := hexpression
    exact ⟨later, Action.run_tryCatch_of_ok hrun, h.parse hread hmoved⟩
  | tooDeep errors rest =>
    rw [hread] at hexpression
    obtain ⟨earlier, e, later, rfl, hrun, hmoved⟩ := hexpression
    have hrecord := hmoved.trans (Moved.record later rest e)
    rw [Int.add_zero] at hrecord
    exact ⟨_, Action.run_tryCatch_of_error hrun, h.parse hread hrecord⟩

end LoxGraph.Stepwise
