import LoxGraph.Proofs.Graph.Determined
import LoxGraph.Proofs.Stepwise.Drawing

/-!
Drawing round by round.

A loop works off a stack of nodes whose children are still to come. Each round declares one more
child, or writes the edges of the node on top and takes it off. What the loop will have drawn in
the end is told by recursion over the nodes that are still to come (`Canvas.outcome`), and no round
changes it (`round_outcome`). Every round leaves one thing less to do (`weight_round`), so the loop
comes to its end on every tree whose nodes have labels, and the text is the one that recursion gives
(`rounds_draw`).
-/

namespace LoxGraph

/-- The line of a statement. -/
def DotStyle.lineOf (style : DotStyle) (s : Statement) : String := style.indent ++ s.text

/-- The text of a graph whose statements stand on these lines. -/
def DotStyle.page (style : DotStyle) (lines : List String) : String :=
  "\n".intercalate (("digraph " ++ style.name ++ " \x7b") :: (lines ++ ["\x7d"])) ++ "\n"

/-- A subtree that is drawn: its root and its lines. -/
structure Subgraph where
  root : NodeId
  lines : List String

/-- A node that is drawn with its children: its declaration, the children in order, and an edge to
each of them in order. -/
def DotStyle.around (style : DotStyle) (id : NodeId) (children : List Subgraph) : Subgraph where
  root := id
  lines := style.lineOf (.node id) ::
    (children.flatMap (·.lines) ++ children.map fun child => style.lineOf (.edge id child.root))

namespace Stepwise

/-- A subtree drawn by recursion. Its place in pre-order is counted on through its children. -/
def drawn (style : DotStyle) (depth index : Nat) : Expr → Except LabelFault Subgraph
  | .binary left operator right => do
    let label ← (Expr.binary left operator right).label
    let l ← drawn style (depth + 1) (index + 1) left
    let r ← drawn style (depth + 1) (index + 1 + nodeCount left) right
    return style.around ⟨label, depth, index⟩ [l, r]
  | .unary operator child => do
    let label ← (Expr.unary operator child).label
    let c ← drawn style (depth + 1) (index + 1) child
    return style.around ⟨label, depth, index⟩ [c]
  | .grouping child => do
    let label ← (Expr.grouping child).label
    let c ← drawn style (depth + 1) (index + 1) child
    return style.around ⟨label, depth, index⟩ [c]
  | .literal l => do
    let label ← (Expr.literal l).label
    return style.around ⟨label, depth, index⟩ []
  | .error => do
    let label ← Expr.error.label
    return style.around ⟨label, depth, index⟩ []

/-- Several subtrees of one depth, drawn one after another. -/
def drawnAll (style : DotStyle) (depth index : Nat) : List Expr → Except LabelFault (List Subgraph)
  | [] => return []
  | tree :: trees => do
    let first ← drawn style depth index tree
    let others ← drawnAll style depth (index + nodeCount tree) trees
    return first :: others

/-- The number of nodes of several trees. -/
def nodeCounts : List Expr → Nat
  | [] => 0
  | tree :: trees => nodeCount tree + nodeCounts trees

theorem nodeCount_eq (tree : Expr) : nodeCount tree = 1 + nodeCounts tree.children := by
  cases tree <;> simp [nodeCount, nodeCounts, Expr.children, Nat.add_assoc]

/-- A tree is its root and its children. -/
theorem drawn_eq (style : DotStyle) (depth index : Nat) (tree : Expr) :
    drawn style depth index tree = do
      let label ← tree.label
      let children ← drawnAll style (depth + 1) (index + 1) tree.children
      return style.around ⟨label, depth, index⟩ children := by
  cases tree <;> simp [drawn, drawnAll, Expr.children]

/-- What the loop has come to: the index of the node declared last, the lines, and the stack. -/
structure Canvas where
  index : Nat
  lines : List String
  stack : List Node

/-- The node on top of a stack gets a child. -/
def withChild (id : NodeId) : List Node → List Node
  | [] => []
  | parent :: below => { parent with drawn := parent.drawn ++ [id] } :: below

/-- One round of the loop. When the stack is empty, the loop is over. -/
def round (style : DotStyle) (canvas : Canvas) : Except LabelFault Canvas :=
  match canvas.stack with
  | [] => return canvas
  | ⟨id, [], children⟩ :: below =>
    return { canvas with
      lines := canvas.lines ++ children.map fun child => style.lineOf (.edge id child)
      stack := withChild id below }
  | ⟨id, child :: pending, children⟩ :: below => do
    let label ← child.label
    let childId : NodeId := ⟨label, id.depth + 1, canvas.index + 1⟩
    return {
      index := canvas.index + 1
      lines := canvas.lines ++ [style.lineOf (.node childId)]
      stack := ⟨childId, child.children, []⟩ :: ⟨id, pending, children⟩ :: below }

/-- A number of rounds. -/
def rounds (style : DotStyle) : Nat → Canvas → Except LabelFault Canvas
  | 0, canvas => return canvas
  | n + 1, canvas => do
    let next ← round style canvas
    rounds style n next

namespace Canvas

/-- What the loop begins with: the root is declared. -/
def start (style : DotStyle) (tree : Expr) : Except LabelFault Canvas := do
  let label ← tree.label
  let root : NodeId := ⟨label, 0, 0⟩
  return {
    index := 0
    lines := ["digraph " ++ style.name ++ " \x7b", style.lineOf (.node root)]
    stack := [⟨root, tree.children, []⟩] }

/-- The text that is written when the loop is over. -/
def text (canvas : Canvas) : String := "\n".intercalate (canvas.lines ++ ["\x7d"]) ++ "\n"

end Canvas

/-- The lines that a stack is still to be given: those of the children to come, then the edges to
all children. `above` is the node that stands on the stack and is to become a child. -/
def remaining (style : DotStyle) (index : Nat) (above : Option NodeId) :
    List Node → Except LabelFault (List String)
  | [] => return []
  | ⟨id, pending, children⟩ :: below => do
    let inside ← drawnAll style (id.depth + 1) index pending
    let others ← remaining style (index + nodeCounts pending) (some id) below
    return inside.flatMap (·.lines) ++
      ((children ++ above.toList ++ inside.map (·.root)).map fun child =>
        style.lineOf (.edge id child)) ++ others

/-- All lines that there are in the end. -/
def Canvas.outcome (style : DotStyle) (canvas : Canvas) : Except LabelFault (List String) := do
  let others ← remaining style (canvas.index + 1) none canvas.stack
  return canvas.lines ++ others

/-- What is left to do for a stack: two rounds for every node to come, one for every node on it. -/
def weight : List Node → Nat
  | [] => 0
  | node :: below => 1 + 2 * nodeCounts node.pending + weight below

theorem remaining_withChild (style : DotStyle) (index : Nat) (id : NodeId) (stack : List Node) :
    remaining style index none (withChild id stack) = remaining style index (some id) stack := by
  cases stack with
  | nil => rfl
  | cons node below => simp [withChild, remaining]

/-- No round changes what there is in the end. -/
theorem round_outcome (style : DotStyle) (canvas : Canvas) :
    (round style canvas >>= Canvas.outcome style) = canvas.outcome style := by
  obtain ⟨index, lines, stack⟩ := canvas
  match stack with
  | [] => rfl
  | ⟨id, [], children⟩ :: below =>
    simp [round, Canvas.outcome, remaining, remaining_withChild, drawnAll, nodeCounts]
  | ⟨id, child :: pending, children⟩ :: below =>
    -- The child that is declared is drawn with its own children before the others.
    have hchild : index + 1 + 1 + nodeCounts child.children = index + 1 + nodeCount child := by
      rw [nodeCount_eq child]
      omega
    have hothers : index + 1 + nodeCounts (child :: pending) =
        index + 1 + nodeCount child + nodeCounts pending := (Nat.add_assoc ..).symm
    simp [round, Canvas.outcome, remaining, drawnAll, drawn_eq style _ _ child, DotStyle.around,
      Function.comp_def, hchild, hothers]

theorem rounds_outcome (style : DotStyle) (n : Nat) (canvas : Canvas) :
    (rounds style n canvas >>= Canvas.outcome style) = canvas.outcome style := by
  induction n generalizing canvas with
  | zero => rfl
  | succ n ih => rw [rounds, bind_assoc, bind_congr ih, round_outcome]

/-- A loop is over when nothing is left to do. -/
theorem weight_eq_zero_iff {stack : List Node} : weight stack = 0 ↔ stack = [] := by
  cases stack with
  | nil => simp [weight]
  | cons node below => simp [weight]

theorem weight_withChild (id : NodeId) (stack : List Node) :
    weight (withChild id stack) = weight stack := by
  cases stack <;> rfl

/-- A round leaves one thing less to do. -/
theorem weight_round {style : DotStyle} {canvas next : Canvas}
    (h : round style canvas = .ok next) : weight next.stack = weight canvas.stack - 1 := by
  obtain ⟨index, lines, stack⟩ := canvas
  match stack with
  | [] =>
    cases h
    rfl
  | ⟨id, [], children⟩ :: below =>
    cases h
    simp [weight_withChild, weight, nodeCounts]
  | ⟨id, child :: pending, children⟩ :: below =>
    obtain ⟨label, -, hnext⟩ := exists_ok_of_bind h
    cases hnext
    simp only [weight, nodeCounts, nodeCount_eq child]
    omega

theorem weight_rounds {style : DotStyle} {n : Nat} {canvas last : Canvas}
    (h : rounds style n canvas = .ok last) : weight last.stack = weight canvas.stack - n := by
  induction n generalizing canvas with
  | zero =>
    cases h
    rfl
  | succ n ih =>
    obtain ⟨next, hround, hothers⟩ := exists_ok_of_bind h
    rw [ih hothers, weight_round hround]
    omega

/-- In the end the tree is drawn. -/
theorem start_outcome (style : DotStyle) (tree : Expr) :
    (Canvas.start style tree >>= Canvas.outcome style) = do
      let graph ← drawn style 0 0 tree
      return ("digraph " ++ style.name ++ " \x7b") :: graph.lines := by
  simp [Canvas.start, Canvas.outcome, remaining, drawn_eq style 0 0 tree, DotStyle.around,
    Function.comp_def]

/-- Whatever can be drawn in the end is drawn by the loop, which does not end before. -/
theorem rounds_of_outcome {style : DotStyle} {start : Canvas} {lines : List String}
    (h : start.outcome style = .ok lines) (n : Nat) :
    ∃ canvas, rounds style n start = .ok canvas ∧
      (canvas.stack = [] ↔ weight start.stack ≤ n) ∧
      (canvas.stack = [] → canvas.lines = lines) := by
  have hrounds := rounds_outcome style n start
  rw [h] at hrounds
  obtain ⟨canvas, hcanvas, houtcome⟩ := exists_ok_of_bind hrounds
  refine ⟨canvas, hcanvas, ?_, ?_⟩
  · rw [← weight_eq_zero_iff, weight_rounds hcanvas, Nat.sub_eq_zero_iff_le]
  · intro hstack
    rw [Canvas.outcome, hstack] at houtcome
    have hlines : canvas.lines ++ [] = lines := Except.ok.inj houtcome
    rwa [List.append_nil] at hlines

theorem size_of_labels {tree : Expr} {t : LabelTree} (h : tree.labels = .ok t) :
    t.size = nodeCount tree := by
  induction t generalizing tree with
  | leaf label =>
    rcases Expr.labels_eq_leaf h with ⟨l, rfl, -⟩ | ⟨rfl, -⟩ <;> rfl
  | one label child ih =>
    rcases Expr.labels_eq_one h with ⟨operator, c, rfl, -, hc⟩ | ⟨c, rfl, -, hc⟩ <;>
      simp only [LabelTree.size, nodeCount, ih hc]
  | two label left right ihl ihr =>
    obtain ⟨l, operator, r, rfl, -, hl, hr⟩ := Expr.labels_eq_two h
    simp only [LabelTree.size, nodeCount, ihl hl, ihr hr]

/-- A tree whose nodes have labels is drawn, and its lines are those of the statements. -/
theorem drawn_of_labels (style : DotStyle) {tree : Expr} {t : LabelTree} (h : tree.labels = .ok t)
    (depth index : Nat) : drawn style depth index tree =
      .ok ⟨⟨t.label, depth, index⟩, (t.rendering depth index).map style.lineOf⟩ := by
  induction t generalizing tree depth index with
  | leaf label =>
    rcases Expr.labels_eq_leaf h with ⟨l, rfl, hl⟩ | ⟨rfl, rfl⟩
    · rw [drawn, Expr.label, hl]
      rfl
    · rfl
  | one label child ih =>
    rcases Expr.labels_eq_one h with ⟨operator, c, rfl, rfl, hc⟩ | ⟨c, rfl, rfl, hc⟩ <;>
    · rw [drawn, ih hc, LabelTree.rendering, List.map_cons, List.map_append]
      simp [Expr.label, DotStyle.around, bind, Except.bind, pure, Except.pure, LabelTree.label]
  | two label left right ihl ihr =>
    obtain ⟨l, operator, r, rfl, rfl, hl, hr⟩ := Expr.labels_eq_two h
    rw [drawn, ihl hl, ihr hr, ← size_of_labels hl]
    simp [Expr.label, DotStyle.around, LabelTree.rendering, LabelTree.label, bind, Except.bind,
      pure, Except.pure]

end Stepwise

/-- Lines with a line feed between them and one behind the last. -/
theorem intercalate_lineFeed (line : String) (lines : List String) :
    "\n".intercalate (line :: lines) ++ "\n" =
      String.join ((line :: lines).map (· ++ "\n")) := by
  induction lines generalizing line with
  | nil => simp
  | cons next lines ih =>
    rw [List.map_cons, String.join_cons, ← ih next, String.intercalate_cons_cons]
    simp only [String.append_assoc]

theorem DotStyle.page_map_lineOf (style : DotStyle) (statements : List Statement) :
    style.page (statements.map style.lineOf) = style.graph statements := by
  rw [page, intercalate_lineFeed, graph]
  simp [Function.comp_def, lineOf, String.append_assoc]

namespace Stepwise

/-- Drawing by recursion gives the graph of the tree. -/
theorem graph_eq_page {tree : Expr} (h : tree.HasLabels) (style : DotStyle) :
    ∃ graph, drawn style 0 0 tree = .ok graph ∧
      tree.graph style = .ok (style.page graph.lines) := by
  obtain ⟨t, ht⟩ := h.labels
  refine ⟨_, drawn_of_labels style ht 0 0, ?_⟩
  rw [DotStyle.page_map_lineOf, ← LabelTree.statements_eq_rendering, Expr.graph, ht]
  rfl

/-- The loop draws what the recursion draws. On every tree whose nodes have labels it comes to
its end after one round for the root and two for each other node, and not before, and the text is
the line that opens the graph, the lines of the tree by recursion, and the line that closes it. -/
theorem rounds_draw {tree : Expr} (h : tree.HasLabels) (style : DotStyle) :
    ∃ graph start, drawn style 0 0 tree = .ok graph ∧
      tree.graph style = .ok (style.page graph.lines) ∧
      Canvas.start style tree = .ok start ∧
      ∀ n, ∃ canvas, rounds style n start = .ok canvas ∧
        (canvas.stack = [] ↔ 2 * nodeCount tree - 1 ≤ n) ∧
        (canvas.stack = [] → canvas.text = style.page graph.lines) := by
  obtain ⟨graph, hdrawn, hgraph⟩ := graph_eq_page h style
  have houtcome := start_outcome style tree
  rw [hdrawn] at houtcome
  obtain ⟨start, hstart, hlines⟩ := exists_ok_of_bind houtcome
  have hweight : weight start.stack = 2 * nodeCount tree - 1 := by
    obtain ⟨label, -, hcanvas⟩ := exists_ok_of_bind hstart
    cases hcanvas
    simp only [weight, nodeCount_eq tree]
    omega
  refine ⟨graph, start, hdrawn, hgraph, hstart, ?_⟩
  intro n
  obtain ⟨canvas, hcanvas, hend, hwritten⟩ := rounds_of_outcome hlines n
  refine ⟨canvas, hcanvas, hweight ▸ hend, ?_⟩
  intro hstack
  rw [Canvas.text, hwritten hstack]
  rfl

/-- A truth value, and a sum in parentheses of a number and a string with quotation marks. -/
def comparedTexts : Expr :=
  .binary (.literal (.truth true)) ⟨.equalEqual, "==", .none, 1⟩
    (.grouping (.binary (.literal (.number (.int 7))) ⟨.plus, "+", .none, 1⟩
      (.literal (.string (.text "say \"a\"")))))

theorem comparedTexts_rounds_draw : comparedTexts.HasLabels ∧
    ∃ start canvas, Canvas.start .plain comparedTexts = .ok start ∧
      rounds .plain 11 start = .ok canvas ∧ canvas.stack = [] ∧
      comparedTexts.graph .plain = .ok canvas.text := by
  have hlabels : comparedTexts.labels = .ok (.two "==" (.leaf "true")
      (.one "()" (.two "+" (.leaf "7") (.leaf "\"say \"a\"\"")))) := by
    decide +kernel
  have h : comparedTexts.HasLabels := Expr.hasLabels_of_labels hlabels
  obtain ⟨graph, start, -, hgraph, hstart, hrounds⟩ := rounds_draw h .plain
  obtain ⟨canvas, hcanvas, hend, htext⟩ := hrounds 11
  have hstack : canvas.stack = [] := hend.mpr (by decide)
  exact ⟨h, start, canvas, hstart, hcanvas, hstack, by rw [hgraph, htext hstack]⟩

end Stepwise

end LoxGraph
