import LoxGraph.Expr.Session
import LoxGraph.Proofs.Expr.Reads
import LoxGraph.Proofs.Stepwise.Action

/-!
Parsing step by step.

The tokens are read by an index that only moves forward, and a rule may apply other
rules as long as the depth that it is given lasts. `parse` is one call on such a
parser. What each action does is told by the tokens that the parse faces: those from
its index to the first mark.
-/

namespace LoxGraph.Stepwise

/-- How far a parse has come: the index of the next token, the open signs and
parentheses, and the mistakes. -/
structure Progress where
  current : Nat
  nesting : Int
  errors : List SyntaxError

abbrev Parsing := Action SyntaxError Progress

/-- The rules that apply each other. -/
inductive Rule where
  | expression
  | level (level : Level)
  | leftAssociative (level : Level)
  | unary
  | primary

end Stepwise

open Stepwise

/-- The rule for what stands between the operators of a level. -/
def Level.operandRule : Level → Rule
  | .equality => .level .comparison
  | .comparison => .level .addition
  | .addition => .level .multiplication
  | .multiplication => .unary

/-- The operators of a level, in the order in which they are looked for. -/
def Level.operators : Level → List TokenKind
  | .equality => [.bangEqual, .equalEqual]
  | .comparison => [.greater, .greaterEqual, .less, .lessEqual]
  | .addition => [.minus, .plus]
  | .multiplication => [.slash, .star]

theorem Level.mem_operators_iff {level : Level} {kind : TokenKind} :
    kind ∈ level.operators ↔ level.hasOperator kind = true := by
  cases level <;> simp [operators, hasOperator, or_assoc]

namespace Stepwise

section Actions

variable (tokens : List Token)

def tokenAt (index : Nat) : Parsing Token :=
  match tokens[index]? with
  | some t => pure t
  | none => throw (.mishap (.outOfRange index))

def peek : Parsing Token := do
  let progress ← get
  tokenAt tokens progress.current

/-- The token read last, or the first one before any is read. -/
def previous : Parsing Token := do
  let progress ← get
  tokenAt tokens (progress.current - 1)

def isAtEnd : Parsing Bool := do
  let t ← peek tokens
  return t.kind == .endOfText

/-- Goes past the next token, but never past the end. -/
def advance : Parsing Token := do
  let atEnd ← isAtEnd tokens
  if atEnd then previous tokens
  else
    modify fun progress => { progress with current := progress.current + 1 }
    previous tokens

def check (kind : TokenKind) : Parsing Bool := do
  let atEnd ← isAtEnd tokens
  if atEnd then return false
  else
    let t ← peek tokens
    return t.kind == kind

/-- Goes past the next token if it is of one of the kinds. -/
def accept : List TokenKind → Parsing Bool
  | [] => return false
  | kind :: kinds => do
    let found ← check tokens kind
    if found then
      let _ ← advance tokens
      return true
    else accept kinds

/-- Goes past a token of the kind, which has to come next. -/
def consume (kind : TokenKind) (fault : SyntaxFault) : Parsing Token := do
  let found ← check tokens kind
  if found then advance tokens
  else
    let t ← peek tokens
    throw (.report ⟨t, fault⟩)

def record (e : SyntaxError) : Parsing Unit :=
  modify fun progress => { progress with errors := progress.errors ++ [e] }

/-- Records a mistake in place of an operand. -/
def mistake (t : Token) : Parsing Expr := do
  record ⟨t, .expectedExpression⟩
  return .error

/-- Counts one more open sign or parenthesis, of which there may be too many. -/
def enter (limit : Int) (t : Token) : Parsing Unit := do
  modify fun progress => { progress with nesting := progress.nesting + 1 }
  let progress ← get
  if limit < progress.nesting then throw (.report ⟨t, .nestedTooDeep⟩)
  else return

def leave : Parsing Unit :=
  modify fun progress => { progress with nesting := progress.nesting - 1 }

/-- The literal that a token writes; other tokens must not come here. -/
def literalOf (t : Token) : Parsing Expr :=
  match Literal.ofToken? t with
  | some l => return .literal l
  | none => throw (.mishap (.notALiteral t.kind))

/-- Records an error in the text that was raised, and gives an error node; a mishap
is raised again. -/
def recover : Raised SyntaxError → Parsing Expr
  | .report e => do
    record e
    return .error
  | .mishap m => throw (.mishap m)

/-- Closes a group. -/
def close (inner : Expr) : Parsing Expr :=
  tryCatch
    (do
      let _ ← consume tokens .rightParen .expectedClosing
      return .grouping inner)
    recover

/-- Joins operands as long as an operator of the level comes next. The clock bounds
the number of rounds. -/
def join (apply : Rule → Parsing Expr) (level : Level) : Nat → Expr → Parsing Expr
  | 0, _ => throw (.mishap .endlessLoop)
  | clock + 1, left => do
    let found ← accept tokens level.operators
    if found then
      let operator ← previous tokens
      let right ← apply level.operandRule
      join apply level clock (.binary left operator right)
    else return left

/-- A token that begins an operand, or none of them. -/
def operand (limit : Int) (apply : Rule → Parsing Expr) (t : Token) : Parsing Expr :=
  if t.kind = .number ∨ t.kind = .string then literalOf t
  else if t.kind = .leftParen then do
    enter limit t
    let inner ← apply .expression
    leave
    close tokens inner
  else mistake t

/-- What a rule does, by other rules. -/
def body (limit : Int) (apply : Rule → Parsing Expr) : Rule → Parsing Expr
  | .expression => apply (.level .equality)
  | .level level => apply (.leftAssociative level)
  | .leftAssociative level => do
    let left ← apply level.operandRule
    join tokens apply level (tokens.length + 1) left
  | .unary => do
    let found ← accept tokens [.bang, .minus]
    if found then
      let operator ← previous tokens
      enter limit operator
      let child ← apply .unary
      leave
      return .unary operator child
    else apply .primary
  | .primary => do
    let found ← accept tokens [.falseWord, .trueWord, .nilWord]
    if found then
      let t ← previous tokens
      literalOf t
    else
      let atEnd ← isAtEnd tokens
      if atEnd then
        let t ← peek tokens
        mistake t
      else
        let t ← advance tokens
        operand tokens limit apply t

/-- A rule within a depth of rules inside each other. -/
def perform (limit : Int) : Nat → Rule → Parsing Expr
  | 0, _ => throw (.mishap .endlessRecursion)
  | depth + 1, rule => body tokens limit (perform limit depth) rule

/-- One parse of a parser. -/
def parse (limit : Int) (depth : Nat) : Parsing Expr :=
  tryCatch (perform tokens limit depth .expression) recover

end Actions

/-- The tokens that a parse faces, up to the mark that ends them. -/
structure Faces (tokens : List Token) (ending : Token) (ahead : List Token)
    (progress : Progress) : Prop where
  drop_eq : ∃ after, tokens.drop progress.current = ahead ++ ending :: after
  ahead_kind : ∀ t ∈ ahead, t.kind ≠ .endOfText
  ending_kind : ending.kind = .endOfText

variable {tokens : List Token} {ending : Token} {ahead : List Token} {progress : Progress}

theorem tokenAt_run {index : Nat} {t : Token} (h : tokens[index]? = some t) :
    (tokenAt tokens index).run progress = .ok t progress := by
  simp only [tokenAt, h]
  rfl

theorem Faces.getElem? (h : Faces tokens ending ahead progress) :
    tokens[progress.current]? = some (ahead.headD ending) := by
  obtain ⟨after, hdrop⟩ := h.drop_eq
  have hhead := congrArg List.head? hdrop
  rw [List.head?_drop] at hhead
  rw [hhead]
  cases ahead <;> rfl

theorem Faces.length_lt (h : Faces tokens ending ahead progress) :
    progress.current + ahead.length < tokens.length := by
  obtain ⟨after, hdrop⟩ := h.drop_eq
  have hlength := congrArg List.length hdrop
  simp only [List.length_drop, List.length_append, List.length_cons] at hlength
  omega

/-- A parse that has moved over some tokens faces the others. -/
theorem Faces.of_suffix (h : Faces tokens ending ahead progress) {rest : List Token}
    {later : Progress} (hrest : rest <:+ ahead)
    (hcurrent : later.current + rest.length = progress.current + ahead.length) :
    Faces tokens ending rest later := by
  obtain ⟨front, rfl⟩ := hrest
  obtain ⟨after, hdrop⟩ := h.drop_eq
  rw [List.length_append] at hcurrent
  have hlater : later.current = progress.current + front.length := by omega
  refine ⟨⟨after, ?_⟩, ?_, h.ending_kind⟩
  · rw [hlater, ← List.drop_drop, hdrop, List.append_assoc, List.drop_left]
  · intro t ht
    exact h.ahead_kind t (List.mem_append_right _ ht)

theorem Faces.next {t : Token} (h : Faces tokens ending (t :: ahead) progress) :
    Faces tokens ending ahead { progress with current := progress.current + 1 } := by
  apply h.of_suffix (List.suffix_cons _ _)
  simp only [List.length_cons]
  omega

theorem peek_run (h : Faces tokens ending ahead progress) :
    (peek tokens).run progress = .ok (ahead.headD ending) progress :=
  tokenAt_run h.getElem?

/-- Just behind a token, this token is the previous one. -/
theorem previous_run {t : Token} (h : Faces tokens ending (t :: ahead) progress) :
    (previous tokens).run { progress with current := progress.current + 1 } =
      .ok t { progress with current := progress.current + 1 } :=
  tokenAt_run h.getElem?

theorem isAtEnd_run (h : Faces tokens ending ahead progress) :
    (isAtEnd tokens).run progress = .ok ahead.isEmpty progress := by
  rw [isAtEnd, Action.run_bind_of_ok (peek_run h)]
  cases ahead with
  | nil =>
    have hkind : (ending.kind == .endOfText) = true := by simp [h.ending_kind]
    simp [hkind]
  | cons t ahead =>
    have hkind : (t.kind == .endOfText) = false := by simp [h.ahead_kind t]
    simp [hkind]

theorem advance_run {t : Token} (h : Faces tokens ending (t :: ahead) progress) :
    (advance tokens).run progress = .ok t { progress with current := progress.current + 1 } := by
  rw [advance, Action.run_bind_of_ok (isAtEnd_run h)]
  exact previous_run h

theorem check_run (h : Faces tokens ending ahead progress) (kind : TokenKind) :
    (check tokens kind).run progress = .ok (ahead.head?.any (·.kind == kind)) progress := by
  rw [check, Action.run_bind_of_ok (isAtEnd_run h)]
  cases ahead with
  | nil => rfl
  | cons t ahead =>
    simp only [List.isEmpty_cons, Bool.false_eq_true, if_false]
    rw [Action.run_bind_of_ok (peek_run h)]
    rfl

theorem accept_run_of_mem {t : Token} (h : Faces tokens ending (t :: ahead) progress)
    {kinds : List TokenKind} (hmem : t.kind ∈ kinds) :
    (accept tokens kinds).run progress =
      .ok true { progress with current := progress.current + 1 } := by
  induction kinds with
  | nil => exact absurd hmem List.not_mem_nil
  | cons kind kinds ih =>
    rw [accept, Action.run_bind_of_ok (check_run h kind)]
    by_cases hkind : t.kind = kind
    · simp only [List.head?_cons, Option.any_some, hkind, beq_self_eq_true, if_true]
      rw [Action.run_bind_of_ok (advance_run h)]
      rfl
    · simp only [List.head?_cons, Option.any_some, beq_iff_eq, hkind, if_false]
      exact ih ((List.mem_cons.mp hmem).resolve_left hkind)

theorem accept_run_of_not_mem (h : Faces tokens ending ahead progress) {kinds : List TokenKind}
    (hnone : ∀ t ∈ ahead.head?, t.kind ∉ kinds) :
    (accept tokens kinds).run progress = .ok false progress := by
  induction kinds with
  | nil => rfl
  | cons kind kinds ih =>
    have hfound : ahead.head?.any (·.kind == kind) = false := by
      cases ahead with
      | nil => rfl
      | cons t ahead =>
        have hkind : t.kind ≠ kind := fun heq => hnone t rfl (by simp [heq])
        simpa using hkind
    rw [accept, Action.run_bind_of_ok (check_run h kind), hfound]
    exact ih fun t ht hmem => hnone t ht (List.mem_cons_of_mem _ hmem)

theorem consume_run {t : Token} (h : Faces tokens ending (t :: ahead) progress)
    {kind : TokenKind} (hkind : t.kind = kind) (fault : SyntaxFault) :
    (consume tokens kind fault).run progress =
      .ok t { progress with current := progress.current + 1 } := by
  rw [consume, Action.run_bind_of_ok (check_run h kind)]
  simp only [List.head?_cons, Option.any_some, hkind, beq_self_eq_true, if_true]
  exact advance_run h

theorem consume_run_error (h : Faces tokens ending ahead progress) {kind : TokenKind}
    (hkind : ∀ t ∈ ahead.head?, t.kind ≠ kind) (fault : SyntaxFault) :
    (consume tokens kind fault).run progress =
      .error (.report ⟨ahead.headD ending, fault⟩) progress := by
  have hfound : ahead.head?.any (·.kind == kind) = false := by
    cases ahead with
    | nil => rfl
    | cons t ahead => simpa using hkind t rfl
  rw [consume, Action.run_bind_of_ok (check_run h kind), hfound]
  simp only [Bool.false_eq_true, if_false]
  rw [Action.run_bind_of_ok (peek_run h)]
  rfl

theorem enter_run {limit : Int} (hlimit : progress.nesting < limit) (t : Token) :
    (enter limit t).run progress =
      .ok () { progress with nesting := progress.nesting + 1 } := by
  have hwithin : ¬ limit < progress.nesting + 1 := by omega
  simp [enter, hwithin]

theorem enter_run_error {limit : Int} (hlimit : limit ≤ progress.nesting) (t : Token) :
    (enter limit t).run progress = .error (.report ⟨t, .nestedTooDeep⟩)
      { progress with nesting := progress.nesting + 1 } := by
  have hbeyond : limit < progress.nesting + 1 := by omega
  simp [enter, hbeyond]

theorem literalOf_run {t : Token} {l : Literal} (h : Literal.ofToken? t = some l) :
    (literalOf t).run progress = .ok (.literal l) progress := by
  simp only [literalOf, h]
  rfl

end LoxGraph.Stepwise
