import LoxGraph.Graph.Dot

/-!
Drawing a tree by recursion.

A subtree is drawn as its node, the drawings of its children one depth further
down, and the edges to the children; indices count on in pre-order. The stack of
frames makes the same statements (`Frame.draw_eq_remaining`): at any time it has
to make those of the pending subtrees and the edges of every frame on it.
-/

namespace LoxGraph

namespace LabelTree

/-- The statements of a subtree at a depth, where `index` is its place in
pre-order. -/
def rendering (depth index : Nat) : LabelTree → List Statement
  | leaf label => [.node ⟨label, depth, index⟩]
  | one label child =>
    .node ⟨label, depth, index⟩ :: (child.rendering (depth + 1) (index + 1) ++
      [.edge ⟨label, depth, index⟩ ⟨child.label, depth + 1, index + 1⟩])
  | two label left right =>
    .node ⟨label, depth, index⟩ :: (left.rendering (depth + 1) (index + 1) ++
      (right.rendering (depth + 1) (index + 1 + left.size) ++
        [.edge ⟨label, depth, index⟩ ⟨left.label, depth + 1, index + 1⟩,
         .edge ⟨label, depth, index⟩ ⟨right.label, depth + 1, index + 1 + left.size⟩]))

/-- The statements of several subtrees of one depth, one after another. -/
def renderings (depth index : Nat) : List LabelTree → List Statement
  | [] => []
  | t :: ts => t.rendering depth index ++ renderings depth (index + t.size) ts

/-- The roots of several subtrees of one depth. -/
def roots (depth index : Nat) : List LabelTree → List NodeId
  | [] => []
  | t :: ts => ⟨t.label, depth, index⟩ :: roots depth (index + t.size) ts

theorem rendering_eq (depth index : Nat) (t : LabelTree) :
    t.rendering depth index = .node ⟨t.label, depth, index⟩ ::
      (renderings (depth + 1) (index + 1) t.children ++
        (roots (depth + 1) (index + 1) t.children).map (.edge ⟨t.label, depth, index⟩)) := by
  cases t <;> simp [rendering, renderings, roots, children, label]

end LabelTree

namespace Frame

/-- What a stack of frames has to make: for every frame the drawings of its
pending children, then the edges to all its children. -/
def remaining (index : Nat) : List Frame → List Statement
  | [] => []
  | frame :: below =>
    LabelTree.renderings (frame.id.depth + 1) index frame.pending ++
      ((frame.drawn ++ LabelTree.roots (frame.id.depth + 1) index frame.pending).map
        (.edge frame.id) ++
      remaining (index + LabelTree.totalSize frame.pending) below)

theorem draw_eq_remaining (index : Nat) (stack : List Frame) :
    draw index stack = remaining index stack := by
  fun_induction draw index stack with
  | case1 index => rfl
  | case2 index id drawn below ih =>
    simp [remaining, LabelTree.renderings, LabelTree.roots, LabelTree.totalSize, ih]
  | case3 index id child pending drawn below childId ih =>
    have hsize : index + child.size = index + 1 + LabelTree.totalSize child.children := by
      rw [LabelTree.size_eq child]
      omega
    rw [ih]
    simp [remaining, enter, LabelTree.renderings, LabelTree.roots, LabelTree.totalSize,
      LabelTree.rendering_eq (id.depth + 1) index child, childId, hsize, ← Nat.add_assoc]

end Frame

theorem LabelTree.statements_eq_rendering (t : LabelTree) : t.statements = t.rendering 0 0 := by
  rw [LabelTree.statements, Frame.draw_eq_remaining, LabelTree.rendering_eq]
  simp [Frame.remaining, Frame.enter]

end LoxGraph
