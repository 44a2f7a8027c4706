import LoxGraph.Proofs.Expr.Writing
import LoxGraph.Proofs.Graph.Determined
import LoxGraph.Proofs.Stepwise.Resuming

/-!
Trees keep to the levels of their operators.

Whatever the tokens are, an operator of a tree has nothing looser on its left, nothing as loose
as itself on its right, and a sign has no binary operator directly behind it. Error nodes and
parentheses may stand anywhere. This is kept by every rule of reading (`Reads.keepsLevels`), so
that it holds of each tree that a session makes, damaged or not (`ParseSession.parse_keepsLevels`).
-/

namespace LoxGraph

namespace Expr

/-- How the root of a tree stands to its children when it keeps to its level. -/
inductive RootKeepsLevel : Expr → Prop
  | binary {level : Level} {left right : Expr} {operator : Token}
      (here : level.hasOperator operator.kind = true) (left_binds : left.Binds level.rank)
      (right_binds : right.Binds (level.rank + 1)) : RootKeepsLevel (.binary left operator right)
  | unary {operator : Token} {child : Expr} (here : operator.kind.isSign = true)
      (child_ne_binary : ∀ left inner right, child ≠ .binary left inner right) :
      RootKeepsLevel (.unary operator child)
  | grouping (child : Expr) : RootKeepsLevel (.grouping child)
  | literal {l : Literal} (kind : l.kind.isLiteral = true) : RootKeepsLevel (.literal l)
  | error : RootKeepsLevel .error

/-- Whether every node of a tree keeps to its level. -/
def KeepsLevels (e : Expr) : Prop :=
  ∀ path node, e.node? path = some node → node.RootKeepsLevel

theorem KeepsLevels.of_children {e : Expr} (hroot : e.RootKeepsLevel)
    (hchildren : ∀ c ∈ e.children, c.KeepsLevels) : e.KeepsLevels :=
  forall_node_of_children hroot hchildren

theorem keepsLevels_error : KeepsLevels .error := .of_children .error (by simp [children])

theorem Binds.loosen {e : Expr} {rank rank' : Nat} (h : e.Binds rank') (hle : rank ≤ rank') :
    e.Binds rank := by
  cases e with
  | binary left operator right =>
    obtain ⟨level, here, hrank⟩ := h
    exact ⟨level, here, Nat.le_trans hle hrank⟩
  | unary | grouping | literal | error => trivial

/-- No operator binds tighter than those of the tightest level. -/
theorem Binds.ne_binary {e : Expr} (h : e.Binds (Level.multiplication.rank + 1))
    (left : Expr) (operator : Token) (right : Expr) : e ≠ .binary left operator right := by
  rintro rfl
  obtain ⟨level, here, hrank⟩ := h
  cases level <;> simp [Level.rank] at hrank

end Expr

/-- What a part of an expression makes of its tokens: a tree that keeps to the levels and may
stand where the part does. The rest of a chain does so if the beginning of the chain does. -/
def Part.Keeps (tree : Expr) : Part → Prop
  | .chain level => tree.KeepsLevels ∧ tree.Binds level.rank
  | .links level left => left.KeepsLevels → left.Binds level.rank →
      tree.KeepsLevels ∧ tree.Binds level.rank
  | .operand => tree.KeepsLevels ∧ tree.Binds (Level.multiplication.rank + 1)

/-- Where an expression is given up, an error node takes its place. -/
theorem Part.keeps_error (part : Part) : part.Keeps .error := by
  cases part with
  | chain level => exact ⟨Expr.keepsLevels_error, trivial⟩
  | links level left => exact fun _ _ => ⟨Expr.keepsLevels_error, trivial⟩
  | operand => exact ⟨Expr.keepsLevels_error, trivial⟩

/-- Between the operators of a level stands what is tighter. -/
theorem Part.Keeps.operands {tree : Expr} {level : Level} (h : level.operandPart.Keeps tree) :
    tree.KeepsLevels ∧ tree.Binds (level.rank + 1) := by
  cases level <;> exact h

theorem Reads.keepsLevels {ending : Token} {budget : Nat} {part : Part} {tokens : List Token}
    {outcome : Outcome Expr} (h : Reads ending budget part tokens outcome) :
    part.Keeps outcome.tree := by
  induction h with
  | chain first others ihFirst ihOthers =>
    obtain ⟨hleft, hbinds⟩ := ihFirst.operands
    rw [Outcome.tree_after]
    exact ihOthers hleft (hbinds.loosen (Nat.le_succ _))
  | noLink stop => exact fun hleft hbinds => ⟨hleft, hbinds⟩
  | @link budget level left operator tokens right errors rest outcome here next others ihNext
      ihOthers =>
    obtain ⟨hright, hrightBinds⟩ := ihNext.operands
    rw [Outcome.tree_after]
    intro hleft hleftBinds
    -- The chain so far is the left operand: it is of the level of the operator or tighter.
    have hroot : Expr.RootKeepsLevel (.binary left operator right) :=
      .binary here hleftBinds hrightBinds
    exact ihOthers (.of_children hroot (by simpa [Expr.children] using ⟨hleft, hright⟩))
      ⟨level, here, Nat.le_refl _⟩
  | @literal budget t rest l here =>
    have hkind : l.kind.isLiteral = true := by
      rw [← Literal.kind_of_ofToken? here, ← Literal.ofKind?_isSome t.kind t.literal]
      exact Option.isSome_iff_exists.mpr ⟨l, here⟩
    exact ⟨.of_children (.literal hkind) (by simp [Expr.children]), trivial⟩
  | sign here inner ih =>
    obtain ⟨hchild, hbinds⟩ := ih
    exact ⟨.of_children (.unary here hbinds.ne_binary)
      (by simpa [Expr.children] using hchild), trivial⟩
  | group here inner closed ih =>
    -- Parentheses end what the levels say: any expression may stand inside.
    obtain ⟨hinside, -⟩ := ih
    exact ⟨.of_children (.grouping _) (by simpa [Expr.children] using hinside), trivial⟩
  | chainTooDeep | linkTooDeep | nothing | signTooDeep | openGroup | groupTooDeep | pastLimit
  | unexpected => exact Part.keeps_error _

theorem ParseSession.parse_keepsLevels (s : ParseSession) : s.parse.1.KeepsLevels := by
  rw [parse_fst]
  exact (Expr.reads_parse s.ending s.budget s.ahead).keepsLevels.1

/-- Whatever a list of tokens holds, and however many parses have gone before, the tree that a
parse returns keeps to the levels at every node. Each binary operator is one of some level, no
looser one stands on its left and none as loose on its right; each sign is one, and what it stands
before is not binary; each literal is of a kind of literals. -/
theorem parses_keepLevels {ts : List Token} (h : EndsInMark ts) (limit : Int) (calls : Nat) :
    ∃ stream, TokenStream.ofTokens? ts = some stream ∧
      let tree := ((ParseSession.start stream limit).afterParses calls).parse.1
      ∀ path node, tree.node? path = some node → node.RootKeepsLevel := by
  obtain ⟨stream, hstream⟩ := TokenStream.ofTokens?_of_endsInMark h
  exact ⟨stream, hstream, ParseSession.parse_keepsLevels _⟩

/-- A comparison with a product, whose second factor is missing, then a sum with a quotient, in
which a sign is missing its operand. -/
def tornComparison : List Token :=
  [⟨.nilWord, "nil", .none, 1⟩, ⟨.less, "<", .none, 1⟩, ⟨.minus, "-", .none, 1⟩,
   ⟨.nilWord, "nil", .none, 1⟩, ⟨.star, "*", .none, 1⟩, ⟨.comma, ",", .none, 1⟩,
   ⟨.nilWord, "nil", .none, 2⟩, ⟨.plus, "+", .none, 2⟩, ⟨.nilWord, "nil", .none, 2⟩,
   ⟨.slash, "/", .none, 2⟩, ⟨.bang, "!", .none, 2⟩, .endOfText 2]

/-- The first call reads the comparison, the second one the sum. -/
theorem tornComparison_keepsLevels : EndsInMark tornComparison ∧
    ∃ stream, TokenStream.ofTokens? tornComparison = some stream ∧
      let tree := ((ParseSession.start stream 50).afterParses 1).parse.1
      tree = .binary (.literal .nothing) ⟨.plus, "+", .none, 2⟩
        (.binary (.literal .nothing) ⟨.slash, "/", .none, 2⟩
          (.unary ⟨.bang, "!", .none, 2⟩ .error)) ∧
      ∀ path node, tree.node? path = some node → node.RootKeepsLevel := by
  obtain ⟨stream, hstream, hkeeps⟩ :=
    parses_keepLevels (show EndsInMark tornComparison by decide) 50 1
  have hsecond : (TokenStream.ofTokens? tornComparison).map
      (fun stream => ((ParseSession.start stream 50).afterParses 1).parse.1) =
        some (.binary (.literal .nothing) ⟨.plus, "+", .none, 2⟩
          (.binary (.literal .nothing) ⟨.slash, "/", .none, 2⟩
            (.unary ⟨.bang, "!", .none, 2⟩ .error))) := by decide +kernel
  rw [hstream] at hsecond
  exact ⟨by decide, stream, hstream, Option.some.inj hsecond, hkeeps⟩

end LoxGraph
