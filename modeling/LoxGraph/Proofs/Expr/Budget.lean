import LoxGraph.Proofs.Expr.FirstParse

/-!
Reading under a larger budget.

A larger budget for signs and parentheses changes nothing about a reading that was not
given up. One that was given up is cut short: the larger budget makes the same mistakes
before that place and reads on from there (`Outcome.Within`). A reader that is built from
others keeps to this when they do, so that it holds of all budgets by induction
(`Expr.operand_within`), and of the first parse under any two limits.
-/

namespace LoxGraph

namespace Outcome

variable {α β : Type}

/-- Whether an outcome is the other one, or was given up on the way to it. The mistake that
gave it up is the last one, and may be missing from the other. -/
inductive Within : Outcome α → Outcome α → Prop
  | done {value : α} {errors : List SyntaxError} {rest : List Token} :
      Within (.done value errors rest) (.done value errors rest)
  | cut {errors : List SyntaxError} {e : SyntaxError} {rest : List Token} {whole : Outcome α}
      (deep : e.fault = .nestedTooDeep) (before : errors <+: whole.errors)
      (behind : whole.rest <:+ rest) : Within (.tooDeep (errors ++ [e]) rest) whole

theorem Within.after {o whole : Outcome α} (h : o.Within whole) (earlier : List SyntaxError) :
    (o.after earlier).Within (whole.after earlier) := by
  cases h with
  | done => exact .done
  | cut deep before behind =>
    rw [Outcome.after, ← List.append_assoc]
    refine .cut deep ?_ ?_
    · rw [errors_after]
      exact (List.prefix_append_right_inj earlier).mpr before
    · rw [rest_after]
      exact behind

theorem rest_andThen_suffix {o : Outcome α} {f : α → List Token → Outcome β}
    {tokens : List Token} (h : o.rest <:+ tokens)
    (shrinks : ∀ value rest, (f value rest).rest <:+ rest) :
    (o.andThen f).rest <:+ tokens := by
  cases o with
  | done value errors rest =>
    rw [andThen, rest_after]
    exact (shrinks value rest).trans h
  | tooDeep errors rest => exact h

theorem errors_prefix_andThen (o : Outcome α) (f : α → List Token → Outcome β) :
    o.errors <+: (o.andThen f).errors := by
  cases o with
  | done value errors rest =>
    rw [andThen, errors_after]
    exact List.prefix_append errors _
  | tooDeep errors rest => exact List.prefix_refl errors

/-- Where the first of two readings is given up, the second one is not begun. -/
theorem Within.andThen {o whole : Outcome α} {f f' : α → List Token → Outcome β}
    (h : o.Within whole) (next : ∀ value rest, (f value rest).Within (f' value rest))
    (shrinks : ∀ value rest, (f' value rest).rest <:+ rest) :
    (o.andThen f).Within (whole.andThen f') := by
  cases h with
  | @done value errors rest => exact (next value rest).after errors
  | cut deep before behind =>
    exact .cut deep (before.trans (errors_prefix_andThen whole f'))
      (rest_andThen_suffix behind shrinks)

end Outcome

namespace Expr

section Shrinking

variable {level : Level} {operand : Reader}

theorem links_rest_suffix (shrinks : ∀ tokens, (operand tokens).rest <:+ tokens)
    (clock : List Token) (left : Expr) (tokens : List Token) :
    (links level operand clock left tokens).rest <:+ tokens := by
  induction clock generalizing left tokens with
  | nil => exact List.suffix_refl tokens
  | cons _ clock ih =>
    cases tokens with
    | nil => exact List.suffix_refl []
    | cons operator rest =>
      simp only [links]
      split
      · exact Outcome.rest_andThen_suffix ((shrinks rest).trans (List.suffix_cons operator rest))
          fun right rest => ih _ rest
      · exact List.suffix_refl _

theorem chain_rest_suffix (shrinks : ∀ tokens, (operand tokens).rest <:+ tokens)
    (tokens : List Token) : (chain level operand tokens).rest <:+ tokens :=
  Outcome.rest_andThen_suffix (shrinks tokens)
    fun left rest => links_rest_suffix shrinks rest left rest

theorem expression_rest_suffix (shrinks : ∀ tokens, (operand tokens).rest <:+ tokens)
    (tokens : List Token) : (expression operand tokens).rest <:+ tokens :=
  chain_rest_suffix (chain_rest_suffix (chain_rest_suffix (chain_rest_suffix shrinks))) tokens

theorem closing_rest_suffix (ending : Token) (inner : Expr) (tokens : List Token) :
    (closing ending inner tokens).rest <:+ tokens := by
  cases tokens with
  | nil => exact List.suffix_refl []
  | cons t rest =>
    simp only [closing]
    split
    · exact List.suffix_cons t rest
    · exact List.suffix_refl _

end Shrinking

section Within

variable {level : Level} {operand operand' : Reader}

theorem links_within (h : ∀ tokens, (operand tokens).Within (operand' tokens))
    (shrinks : ∀ tokens, (operand' tokens).rest <:+ tokens) (clock : List Token) (left : Expr)
    (tokens : List Token) :
    (links level operand clock left tokens).Within (links level operand' clock left tokens) := by
  induction clock generalizing left tokens with
  | nil => exact .done
  | cons _ clock ih =>
    cases tokens with
    | nil => exact .done
    | cons operator rest =>
      simp only [links]
      split
      · exact (h rest).andThen (fun right rest => ih _ rest)
          fun right rest => links_rest_suffix shrinks clock _ rest
      · exact .done

theorem chain_within (h : ∀ tokens, (operand tokens).Within (operand' tokens))
    (shrinks : ∀ tokens, (operand' tokens).rest <:+ tokens) (tokens : List Token) :
    (chain level operand tokens).Within (chain level operand' tokens) :=
  (h tokens).andThen (fun left rest => links_within h shrinks rest left rest)
    fun left rest => links_rest_suffix shrinks rest left rest

theorem expression_within (h : ∀ tokens, (operand tokens).Within (operand' tokens))
    (shrinks : ∀ tokens, (operand' tokens).rest <:+ tokens) (tokens : List Token) :
    (expression operand tokens).Within (expression operand' tokens) := by
  have hmultiplication := @chain_rest_suffix .multiplication operand' shrinks
  have haddition := @chain_rest_suffix .addition _ hmultiplication
  have hcomparison := @chain_rest_suffix .comparison _ haddition
  exact chain_within (chain_within (chain_within (chain_within h shrinks) hmultiplication)
    haddition) hcomparison tokens

theorem closing_within (ending : Token) (inner : Expr) (tokens : List Token) :
    (closing ending inner tokens).Within (closing ending inner tokens) := by
  cases tokens with
  | nil => exact .done
  | cons t rest =>
    simp only [closing]
    split
    · exact .done
    · exact .done

/-- Where nothing may be nested, a sign or a parenthesis gives up what it opens. -/
theorem operandWith_none_within (ending : Token) {nested : Option Reader}
    (shrinks : ∀ reader ∈ nested, ∀ tokens, (reader tokens).rest <:+ tokens)
    (tokens : List Token) :
    (operandWith ending none tokens).Within (operandWith ending nested tokens) := by
  have given_up (t : Token) {rest : List Token} {whole : Outcome Expr}
      (behind : whole.rest <:+ rest) :
      (Outcome.tooDeep [⟨t, .nestedTooDeep⟩] rest).Within whole :=
    @Outcome.Within.cut _ [] ⟨t, .nestedTooDeep⟩ rest whole rfl List.nil_prefix behind
  cases tokens with
  | nil => exact .done
  | cons t rest =>
    simp only [operandWith]
    split
    · exact .done
    split
    · apply given_up
      cases nested with
      | none => exact List.suffix_refl rest
      | some reader =>
        exact Outcome.rest_andThen_suffix (shrinks reader rfl rest)
          fun child rest => List.suffix_refl rest
    split
    · apply given_up
      cases nested with
      | none => exact List.suffix_refl rest
      | some reader =>
        exact Outcome.rest_andThen_suffix (expression_rest_suffix (shrinks reader rfl) rest)
          (closing_rest_suffix ending)
    · exact .done

theorem operandWith_some_within (ending : Token)
    (h : ∀ tokens, (operand tokens).Within (operand' tokens))
    (shrinks : ∀ tokens, (operand' tokens).rest <:+ tokens) (tokens : List Token) :
    (operandWith ending (some operand) tokens).Within
      (operandWith ending (some operand') tokens) := by
  cases tokens with
  | nil => exact .done
  | cons t rest =>
    simp only [operandWith]
    split
    · exact .done
    split
    · exact (h rest).andThen (fun child rest => .done) fun child rest => List.suffix_refl rest
    split
    · exact (expression_within h shrinks rest).andThen (closing_within ending)
        (closing_rest_suffix ending)
    · exact .done

end Within

theorem operand_rest_suffix (ending : Token) (budget : Nat) (tokens : List Token) :
    (operand ending budget tokens).rest <:+ tokens :=
  (Reads.of_operand ending budget tokens).rest_suffix

/-- Under a larger budget an operand is the same, unless it was given up. -/
theorem operand_within (ending : Token) {budget budget' : Nat} (hle : budget ≤ budget')
    (tokens : List Token) :
    (operand ending budget tokens).Within (operand ending budget' tokens) := by
  induction budget generalizing budget' tokens with
  | zero =>
    cases budget' with
    | zero => exact operandWith_none_within ending (by simp) tokens
    | succ budget' =>
      apply operandWith_none_within ending
      rintro _ ⟨⟩
      exact operand_rest_suffix ending budget'
  | succ budget ih =>
    cases budget' with
    | zero => exact absurd hle (Nat.not_succ_le_zero budget)
    | succ budget' =>
      exact operandWith_some_within ending (ih (Nat.le_of_succ_le_succ hle))
        (operand_rest_suffix ending budget') tokens

theorem parse_within (ending : Token) {budget budget' : Nat} (hle : budget ≤ budget')
    (tokens : List Token) :
    (parse ending budget tokens).Within (parse ending budget' tokens) :=
  expression_within (operand_within ending hle) (operand_rest_suffix ending budget') tokens

end Expr

/-- Whether an error says that the nesting is too deep. -/
def SyntaxError.IsTooDeep (e : SyntaxError) : Prop :=
  e.report.message = "expression nesting too deep"

theorem SyntaxError.isTooDeep_iff {e : SyntaxError} : e.IsTooDeep ↔ e.fault = .nestedTooDeep := by
  unfold IsTooDeep report
  cases e.fault <;> simp [SyntaxFault.message]

/-- What a session has after its first parse, in the words of one reading of its tokens. -/
theorem ParseSession.parse_start (stream : TokenStream) (limit : Int) :
    let outcome := Expr.parse stream.ending limit.toNat stream.tokens
    let session := (start stream limit).parse.2
    (start stream limit).parse.1 = outcome.tree ∧ session.errors = outcome.errors ∧
      session.consumed = stream.tokens.length - outcome.rest.length ∧
      session.nesting = outcome.leftOpen limit.toNat := by
  have hbudget := budget_start stream limit
  refine ⟨?_, ?_, ?_, ?_⟩
  · rw [parse_fst, hbudget]
    rfl
  · rw [parse_errors, hbudget]
    exact List.nil_append _
  · rw [parse_consumed, hbudget]
    exact Nat.zero_add _
  · rw [parse_nesting, hbudget]
    exact Int.zero_add _

/-- A first parse under a higher limit on nesting. If the lower limit was not met, both are
the same; otherwise the higher limit makes at least the mistakes that the lower one made
before it was met, and consumes at least as many tokens. -/
theorem firstParse?_of_limit_le {ts : List Token} (h : EndsInMark ts) {limit limit' : Int}
    (hle : limit ≤ limit') :
    ∃ tree session tree' session', firstParse? ts limit = some (tree, session) ∧
      firstParse? ts limit' = some (tree', session') ∧
      ((∀ e ∈ session.errors, ¬ e.IsTooDeep) → tree' = tree ∧ session'.errors = session.errors ∧
        session'.consumed = session.consumed ∧ session'.nesting = session.nesting) ∧
      ((∃ e ∈ session.errors, e.IsTooDeep) → session.errors.dropLast <+: session'.errors ∧
        session.consumed ≤ session'.consumed) := by
  obtain ⟨stream, hstream⟩ := TokenStream.ofTokens?_of_endsInMark h
  obtain ⟨htree, herrors, hconsumed, hnesting⟩ := ParseSession.parse_start stream limit
  obtain ⟨htree', herrors', hconsumed', hnesting'⟩ := ParseSession.parse_start stream limit'
  have hfirst (limit : Int) : firstParse? ts limit =
      some ((ParseSession.start stream limit).parse.1,
        (ParseSession.start stream limit).parse.2) := by
    rw [firstParse?, hstream, Option.map_some]
  refine ⟨(ParseSession.start stream limit).parse.1, (ParseSession.start stream limit).parse.2,
    (ParseSession.start stream limit').parse.1, (ParseSession.start stream limit').parse.2,
    hfirst limit, hfirst limit', ?_⟩
  rw [htree, htree', herrors, herrors', hconsumed, hconsumed', hnesting, hnesting']
  have hwithin := Expr.parse_within stream.ending (Int.toNat_le_toNat hle) stream.tokens
  generalize Expr.parse stream.ending limit.toNat stream.tokens = lower at hwithin ⊢
  generalize Expr.parse stream.ending limit'.toNat stream.tokens = higher at hwithin ⊢
  cases hwithin with
  | done => exact ⟨fun _ => ⟨rfl, rfl, rfl, rfl⟩, fun _ => ⟨List.dropLast_prefix _, Nat.le_refl _⟩⟩
  | @cut errors e rest _ deep before behind =>
    refine ⟨?_, fun _ => ⟨?_, ?_⟩⟩
    · intro hnone
      have hlast : e ∈ (Outcome.tooDeep (errors ++ [e]) rest : Outcome Expr).errors := by simp
      exact absurd (SyntaxError.isTooDeep_iff.mpr deep) (hnone e hlast)
    · rw [Outcome.errors_tooDeep, List.dropLast_concat]
      exact before
    · have hlength := behind.length_le
      rw [Outcome.rest_tooDeep]
      omega

/-- A product whose second factor opens a group and a sign in it. The first factor is
missing. -/
def nestedFactor : List Token :=
  [⟨.star, "*", .none, 1⟩, ⟨.slash, "/", .none, 1⟩, ⟨.leftParen, "(", .none, 1⟩,
   ⟨.minus, "-", .none, 2⟩, ⟨.nilWord, "nil", .none, 2⟩, .endOfText 3]

/-- A limit of one leaves the missing factor and the sign as mistakes, and what follows the sign. -/
def nestedFactorCut : ParseSession :=
  { ahead := [⟨.nilWord, "nil", .none, 2⟩], ending := .endOfText 3, limit := 1, consumed := 4
    nesting := 2
    errors := [⟨⟨.star, "*", .none, 1⟩, .expectedExpression⟩,
      ⟨⟨.minus, "-", .none, 2⟩, .nestedTooDeep⟩] }

/-- A limit of two leaves the missing factor and the end of the group as mistakes. -/
def nestedFactorRead : ParseSession :=
  { ahead := [], ending := .endOfText 3, limit := 2, consumed := 5, nesting := 0
    errors := [⟨⟨.star, "*", .none, 1⟩, .expectedExpression⟩,
      ⟨.endOfText 3, .expectedClosing⟩] }

/-- Nothing changes from the limit of two to one of fifty. -/
theorem nestedFactor_limits : EndsInMark nestedFactor ∧ (1 : Int) ≤ 2 ∧ (2 : Int) ≤ 50 ∧
    let tree : Expr := .binary .error ⟨.slash, "/", .none, 1⟩ .error
    firstParse? nestedFactor 1 = some (.error, nestedFactorCut) ∧
    firstParse? nestedFactor 2 = some (tree, nestedFactorRead) ∧
    (∃ e ∈ nestedFactorCut.errors, e.IsTooDeep) ∧
    nestedFactorCut.errors.dropLast <+: nestedFactorRead.errors ∧
    nestedFactorCut.consumed ≤ nestedFactorRead.consumed ∧
    (∀ e ∈ nestedFactorRead.errors, ¬ e.IsTooDeep) ∧
    ∃ session, firstParse? nestedFactor 50 = some (tree, session) ∧
      session.errors = nestedFactorRead.errors ∧ session.consumed = 5 ∧ session.nesting = 0 := by
  refine ⟨by decide, by decide, by decide, ?_⟩
  intro tree
  have hmark : EndsInMark nestedFactor := by decide
  have hcut : firstParse? nestedFactor 1 = some (.error, nestedFactorCut) := by decide +kernel
  have hread : firstParse? nestedFactor 2 = some (tree, nestedFactorRead) := by decide +kernel
  have hdeep : ∃ e ∈ nestedFactorCut.errors, e.IsTooDeep :=
    ⟨⟨⟨.minus, "-", .none, 2⟩, .nestedTooDeep⟩, by decide, rfl⟩
  have hshallow : ∀ e ∈ nestedFactorRead.errors, ¬ e.IsTooDeep := by
    simp [nestedFactorRead, SyntaxError.isTooDeep_iff]
  obtain ⟨_, _, _, _, hlower, hhigher, -, hless⟩ :=
    firstParse?_of_limit_le hmark (show (1 : Int) ≤ 2 by decide)
  cases hlower.symm.trans hcut
  cases hhigher.symm.trans hread
  obtain ⟨hbefore, hle⟩ := hless hdeep
  obtain ⟨_, _, _, session, hlower, hhigher, hsame, -⟩ :=
    firstParse?_of_limit_le hmark (show (2 : Int) ≤ 50 by decide)
  cases hlower.symm.trans hread
  obtain ⟨rfl, herrors, hconsumed, hnesting⟩ := hsame hshallow
  exact ⟨hcut, hread, hdeep, hbefore, hle, hshallow, session, hhigher, herrors, hconsumed,
    hnesting⟩

end LoxGraph
