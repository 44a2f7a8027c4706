import LoxGraph.Proofs.Expr.FirstParse

/-!
Mistakes against error nodes and tokens.

A tree is damaged just when mistakes were met, it has no more error nodes than
there are mistakes, and the mistakes are paid for by the tokens taken, all but
one of them (`Reads.accounts`).
-/

namespace LoxGraph

/-- The number of error nodes in a tree. -/
def Expr.errorCount : Expr → Nat
  | binary left _ right => left.errorCount + right.errorCount
  | unary _ child => child.errorCount
  | grouping child => child.errorCount
  | literal _ => 0
  | error => 1

/-- How the mistakes of an outcome stand to its error nodes and its tokens.
`before` counts error nodes that were there already, and `credit` the mistakes
that no token pays for. -/
structure Outcome.Accounted (before credit : Nat) (tokens : List Token) (o : Outcome Expr) :
    Prop where
  damaged_iff : 0 < o.tree.errorCount ↔ 0 < before ∨ 0 < o.errors.length
  errorCount_le : o.tree.errorCount ≤ before + o.errors.length
  errors_le : o.errors.length + o.rest.length ≤ tokens.length + credit

/-- The account of a part. One mistake for an operand that is missing is free,
while links have an operator to pay for each of theirs. -/
def Part.Accounts (tokens : List Token) (o : Outcome Expr) : Part → Prop
  | chain _ => o.Accounted 0 1 tokens
  | links _ left => o.Accounted left.errorCount 0 tokens
  | operand => o.Accounted 0 1 tokens

theorem Part.Accounts.operands {tokens : List Token} {o : Outcome Expr} {level : Level}
    (h : level.operandPart.Accounts tokens o) : o.Accounted 0 1 tokens := by
  cases level <;> exact h

namespace Outcome.Accounted

variable {before credit : Nat} {tokens : List Token} {errors : List SyntaxError}
  {rest : List Token}

/-- A tree that was read first is what the links go on from. -/
theorem chain {left : Expr} {o : Outcome Expr}
    (first : (done left errors rest).Accounted 0 1 tokens)
    (others : o.Accounted left.errorCount 0 rest) :
    (o.after errors).Accounted 0 1 tokens := by
  obtain ⟨hmarked, hdamage, herrors⟩ := first
  obtain ⟨hmarked', hdamage', herrors'⟩ := others
  simp only [tree_done, errors_done, rest_done] at hmarked hdamage herrors
  constructor <;> simp only [tree_after, errors_after, rest_after, List.length_append] <;> omega

/-- A link adds its operator, which pays for a missing operand, and its operand. -/
theorem link {left right : Expr} {operator : Token} {o : Outcome Expr}
    (next : (done right errors rest).Accounted 0 1 tokens)
    (others : o.Accounted (left.errorCount + right.errorCount) 0 rest) :
    (o.after errors).Accounted left.errorCount 0 (operator :: tokens) := by
  obtain ⟨hmarked, hdamage, herrors⟩ := next
  obtain ⟨hmarked', hdamage', herrors'⟩ := others
  simp only [tree_done, errors_done, rest_done] at hmarked hdamage herrors
  constructor <;>
    simp only [tree_after, errors_after, rest_after, List.length_append, List.length_cons] <;>
    omega

/-- An expression that is given up is damaged, whatever was read before it. -/
theorem tooDeep_of_tooDeep {t : Token} {before' credit' : Nat}
    (inner : (tooDeep errors rest).Accounted 0 1 tokens) (hcredit : credit' ≤ 1) :
    (tooDeep errors rest).Accounted before' credit' (t :: tokens) := by
  obtain ⟨hmarked, hdamage, herrors⟩ := inner
  simp only [tree_tooDeep, errors_tooDeep, rest_tooDeep, Expr.errorCount] at hmarked hdamage herrors
  constructor <;>
    simp only [tree_tooDeep, errors_tooDeep, rest_tooDeep, Expr.errorCount, List.length_cons] <;>
    omega

/-- A node around a tree adds a token and no mistake; a group adds a second one. -/
theorem around {tree inside : Expr} {t : Token} {rest' : List Token}
    (inner : (done inside errors rest).Accounted 0 1 tokens)
    (hcount : tree.errorCount = inside.errorCount) (hrest : rest'.length ≤ rest.length) :
    (done tree errors rest').Accounted 0 1 (t :: tokens) := by
  obtain ⟨hmarked, hdamage, herrors⟩ := inner
  simp only [tree_done, errors_done, rest_done] at hmarked hdamage herrors
  constructor <;> simp only [tree_done, errors_done, rest_done, List.length_cons] <;> omega

/-- A group that is not closed is one mistake more, paid for by its opening
parenthesis. Whatever error nodes were inside it, it leaves one. -/
theorem openGroup {inside : Expr} {t : Token} {e : SyntaxError}
    (inner : (done inside errors rest).Accounted 0 1 tokens) :
    (done Expr.error (errors ++ [e]) rest).Accounted 0 1 (t :: tokens) := by
  have herrors := inner.errors_le
  simp only [errors_done, rest_done] at herrors
  constructor <;>
    simp only [tree_done, errors_done, rest_done, List.length_append, List.length_cons,
      List.length_nil, Expr.errorCount] <;>
    omega

/-- A single token may be a mistake of its own. -/
theorem mistake {t : Token} {e : SyntaxError} {o : Outcome Expr} (hdamage : o.tree.errorCount = 1)
    (herrors : o.errors = [e]) (hrest : o.rest = rest) : o.Accounted 0 1 (t :: rest) := by
  constructor <;> simp only [hdamage, herrors, hrest, List.length_cons, List.length_nil] <;> omega

end Outcome.Accounted

theorem Reads.accounts {ending : Token} {budget : Nat} {part : Part} {tokens : List Token}
    {outcome : Outcome Expr} (h : Reads ending budget part tokens outcome) :
    part.Accounts tokens outcome := by
  -- A failed group drops the error nodes inside it but keeps their mistakes, and
  -- the parenthesis that opened it pays for its own.
  induction h with
  | chain first others ihFirst ihOthers => exact ihFirst.operands.chain ihOthers
  | chainTooDeep first ih => exact ih.operands
  | noLink stop => constructor <;> simp
  | link here next others ihNext ihOthers => exact ihNext.operands.link ihOthers
  | linkTooDeep here next ih => exact ih.operands.tooDeep_of_tooDeep (Nat.zero_le _)
  | nothing => constructor <;> simp [Expr.errorCount]
  | literal here =>
    constructor
    · simp [Expr.errorCount]
    · simp [Expr.errorCount]
    · simp only [Outcome.errors_done, Outcome.rest_done, List.length_nil, List.length_cons]
      omega
  | sign here inner ih => exact Outcome.Accounted.around ih rfl (Nat.le_refl _)
  | signTooDeep here inner ih => exact Outcome.Accounted.tooDeep_of_tooDeep ih (Nat.le_refl _)
  | group here inner closed ih => exact Outcome.Accounted.around ih rfl (Nat.le_succ _)
  | openGroup here inner unclosed ih => exact Outcome.Accounted.openGroup ih
  | groupTooDeep here inner ih => exact Outcome.Accounted.tooDeep_of_tooDeep ih (Nat.le_refl _)
  | pastLimit here => exact Outcome.Accounted.mistake rfl rfl rfl
  | unexpected noLiteral noSign noGroup => exact Outcome.Accounted.mistake rfl rfl rfl

/-- An expression is not given up without a mistake. -/
theorem Reads.errors_ne_nil_of_tooDeep {ending : Token} {budget : Nat} {level : Level}
    {tokens : List Token} {errors : List SyntaxError} {rest : List Token}
    (h : Reads ending budget (.chain level) tokens (.tooDeep errors rest)) : errors ≠ [] := by
  have hmarked := h.accounts.damaged_iff
  rintro rfl
  simp [Expr.errorCount] at hmarked

/-- The tree of a stream has an error node just when a mistake is reported. -/
theorem TokenStream.parse_damaged_iff (stream : TokenStream) :
    0 < stream.parse.tree.errorCount ↔ stream.parse.errors ≠ [] := by
  have hreads := Expr.reads_parse stream.ending defaultNestingLimit.toNat stream.tokens
  have hdamaged : 0 < stream.parse.tree.errorCount ↔ 0 < 0 ∨ 0 < stream.parse.errors.length := by
    rw [stream.parse_eq]
    exact hreads.accounts.damaged_iff
  rw [hdamaged, List.length_pos_iff]
  simp

/-- After the first parse of a list of tokens the tree is damaged just when there
are mistakes, it has no more error nodes than there are mistakes, and there are
no more mistakes than tokens consumed, plus one. -/
theorem firstParse?_accounted {ts : List Token} (h : EndsInMark ts) (limit : Int) :
    ∃ tree session, firstParse? ts limit = some (tree, session) ∧
      (0 < tree.errorCount ↔ session.errors ≠ []) ∧
      tree.errorCount ≤ session.errors.length ∧
      session.errors.length ≤ session.consumed + 1 := by
  obtain ⟨stream, after, session, -, hparse, herrors, hconsumed⟩ :=
    firstParse?_of_endsInMark h limit
  have hreads := Reads.of_reader stream.ending limit.toNat (.chain .equality) stream.tokens
  obtain ⟨hdamaged, hcount, hpaid⟩ : Outcome.Accounted 0 1 stream.tokens
      (Expr.parse stream.ending limit.toNat stream.tokens) := hreads.accounts
  refine ⟨_, session, hparse, ?_, ?_, ?_⟩
  · rw [herrors, hdamaged, List.length_pos_iff]
    simp
  · rw [herrors]
    omega
  · rw [herrors]
    omega

/-- A sum with a comma for an operand, and with a sign that has none in a group that nothing
closes. -/
def brokenGroup : List Token :=
  [⟨.nilWord, "nil", .none, 1⟩, ⟨.plus, "+", .none, 1⟩, ⟨.comma, ",", .none, 1⟩,
   ⟨.star, "*", .none, 1⟩, ⟨.leftParen, "(", .none, 1⟩, ⟨.bang, "!", .none, 2⟩, .endOfText 2]

/-- The comma, the sign and the group are mistakes. -/
def brokenGroupRead : ParseSession :=
  { ahead := [], ending := .endOfText 2, limit := 50, consumed := 6, nesting := 0
    errors := [⟨⟨.comma, ",", .none, 1⟩, .expectedExpression⟩,
      ⟨.endOfText 2, .expectedExpression⟩, ⟨.endOfText 2, .expectedClosing⟩] }

/-- The sign and the group leave one error node in the tree. -/
theorem brokenGroup_accounted : EndsInMark brokenGroup ∧
    let tree : Expr := .binary (.literal .nothing) ⟨.plus, "+", .none, 1⟩
      (.binary .error ⟨.star, "*", .none, 1⟩ .error)
    firstParse? brokenGroup 50 = some (tree, brokenGroupRead) ∧ tree.errorCount = 2 ∧
      (0 < tree.errorCount ↔ brokenGroupRead.errors ≠ []) ∧
      tree.errorCount ≤ brokenGroupRead.errors.length ∧
      brokenGroupRead.errors.length ≤ brokenGroupRead.consumed + 1 := by
  refine ⟨by decide, ?_⟩
  intro tree
  have hread : firstParse? brokenGroup 50 = some (tree, brokenGroupRead) := by decide +kernel
  obtain ⟨_, session, hparse, haccounted⟩ :=
    firstParse?_accounted (show EndsInMark brokenGroup by decide) 50
  cases hparse.symm.trans hread
  exact ⟨hread, by decide, haccounted⟩

end LoxGraph
