import LoxGraph.Proofs.Expr.FirstParse

/-!
What the trees of a parse are built from.

A parse puts together operators and literals of its tokens, and error nodes. So a property
of trees that is kept by this, for tokens with some property, holds of every tree that is
parsed from such tokens (`Reads.tree_holds`).
-/

namespace LoxGraph

/-- Whether trees have a property when they are built from tokens that have one. -/
structure Expr.HoldsOfBuilt (ofToken : Token → Prop) (ofTree : Expr → Prop) : Prop where
  binary : ∀ {level : Level} {left operator right}, level.hasOperator operator.kind = true →
    ofToken operator → ofTree left → ofTree right → ofTree (.binary left operator right)
  unary : ∀ {operator child}, operator.kind.isSign = true → ofToken operator → ofTree child →
    ofTree (.unary operator child)
  grouping : ∀ {child}, ofTree child → ofTree (.grouping child)
  literal : ∀ {t l}, Literal.ofToken? t = some l → ofToken t → ofTree (.literal l)
  error : ofTree .error

/-- Whether the tree that a part goes on with has a property. -/
def Part.Holds (ofTree : Expr → Prop) : Part → Prop
  | .links _ left => ofTree left
  | .chain _ => True
  | .operand => True

theorem Level.operandPart_holds (level : Level) (ofTree : Expr → Prop) :
    level.operandPart.Holds ofTree := by
  cases level <;> trivial

variable {ofToken : Token → Prop} {ofTree : Expr → Prop}

theorem Reads.tree_holds (hbuilt : Expr.HoldsOfBuilt ofToken ofTree) {ending : Token}
    {budget : Nat} {part : Part} {tokens : List Token} {outcome : Outcome Expr}
    (h : Reads ending budget part tokens outcome) (htokens : ∀ t ∈ tokens, ofToken t)
    (hpart : part.Holds ofTree) : ofTree outcome.tree := by
  induction h with
  | chain first others ihFirst ihOthers =>
    rw [Outcome.tree_after]
    exact ihOthers (fun t ht => htokens t (first.rest_suffix.subset ht))
      (ihFirst htokens (Level.operandPart_holds _ _))
  | noLink stop => exact hpart
  | link here next others ihNext ihOthers =>
    obtain ⟨hoperator, hbehind⟩ := List.forall_mem_cons.mp htokens
    rw [Outcome.tree_after]
    exact ihOthers (fun t ht => hbehind t (next.rest_suffix.subset ht))
      (hbuilt.binary here hoperator hpart (ihNext hbehind (Level.operandPart_holds _ _)))
  | literal here => exact hbuilt.literal here (List.forall_mem_cons.mp htokens).1
  | sign here inner ih =>
    obtain ⟨hsign, hbehind⟩ := List.forall_mem_cons.mp htokens
    exact hbuilt.unary here hsign (ih hbehind trivial)
  | group here inner closed ih =>
    exact hbuilt.grouping (ih (List.forall_mem_cons.mp htokens).2 trivial)
  | chainTooDeep | linkTooDeep | nothing | signTooDeep | openGroup | groupTooDeep | pastLimit
  | unexpected => exact hbuilt.error

theorem TokenStream.parse_holds (hbuilt : Expr.HoldsOfBuilt ofToken ofTree) {stream : TokenStream}
    (htokens : ∀ t ∈ stream.tokens, ofToken t) : ofTree stream.parse.tree := by
  rw [stream.parse_eq]
  exact (Expr.reads_parse _ _ _).tree_holds hbuilt htokens trivial

end LoxGraph
