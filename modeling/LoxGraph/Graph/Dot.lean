import LoxGraph.Graph.Label

/-!
Drawing a tree of labels as a directed graph in the DOT language.

The graph has one node statement per node, in pre-order, and one edge
statement per child, behind the statements of the whole subtree. A node is
identified by its label, its depth and its place in pre-order, so that no two
nodes share an identifier. The tree is walked with a stack of frames: long
chains of operators make trees as deep as they are long.
-/

namespace LoxGraph

/-- A character of a label between double quotes. -/
def escapeLabelChar (c : Char) : List Char :=
  if c = '\\' then ['\\', '\\']
  else if c = '"' then ['\\', '"']
  else if c = '\n' then ['\\', 'n']
  else [c]

/-- A label as it stands between double quotes. -/
def escapeLabel (label : String) : String :=
  String.ofList (label.toList.flatMap escapeLabelChar)

/-- The identity of a drawn node. -/
structure NodeId where
  label : String
  depth : Nat
  index : Nat
deriving DecidableEq

/-- The identifier of a node: label, depth and index, in double quotes. -/
def NodeId.text (id : NodeId) : String :=
  "\"" ++ escapeLabel id.label ++ "_" ++ toString id.depth ++ "_" ++ toString id.index ++ "\""

/-- A statement of a graph. -/
inductive Statement where
  | node (id : NodeId)
  | edge (source target : NodeId)
deriving DecidableEq

/-- A statement without indentation. -/
def Statement.text : Statement → String
  | node id => id.text ++ " [label=\"" ++ escapeLabel id.label ++ "\"];"
  | edge source target => source.text ++ " -> " ++ target.text ++ ";"

/-- A node that is being drawn: the children still to come, and the children
drawn already, from left to right. -/
structure Frame where
  id : NodeId
  pending : List LabelTree
  drawn : List NodeId

namespace Frame

/-- The frame of a node that has just been declared. -/
def enter (id : NodeId) (t : LabelTree) : Frame := ⟨id, t.children, []⟩

/-- What is left to do for a stack of frames: two steps for every node to come,
one for every frame. -/
def weight : List Frame → Nat
  | [] => 0
  | frame :: below => 1 + 2 * LabelTree.totalSize frame.pending + weight below

/-- The statements that a stack of frames still has to make, where `index` is
the place in pre-order of the next node. -/
def draw (index : Nat) (stack : List Frame) : List Statement :=
  match stack with
  | [] => []
  | ⟨id, [], drawn⟩ :: below => drawn.map (.edge id) ++ draw index below
  | ⟨id, child :: pending, drawn⟩ :: below =>
    let childId : NodeId := ⟨child.label, id.depth + 1, index⟩
    .node childId ::
      draw (index + 1) (enter childId child :: ⟨id, pending, drawn ++ [childId]⟩ :: below)
termination_by weight stack
decreasing_by
  · simp only [weight]
    omega
  · simp only [weight, enter, LabelTree.totalSize, LabelTree.size_eq child]
    omega

end Frame

/-- The statements of the graph of a tree. -/
def LabelTree.statements (t : LabelTree) : List Statement :=
  let root : NodeId := ⟨t.label, 0, 0⟩
  .node root :: Frame.draw 1 [Frame.enter root t]

/-- How a graph is written: its name, and what stands before every statement. -/
structure DotStyle where
  name : String
  indent : String

/-- The style of a graph for which nothing else is asked. -/
def DotStyle.plain : DotStyle := ⟨"G", "    "⟩

/-- The text of a graph: a line that opens it, one line per statement, and a
line that closes it. -/
def DotStyle.graph (style : DotStyle) (statements : List Statement) : String :=
  "digraph " ++ style.name ++ " \x7b\n" ++
    String.join (statements.map fun s => style.indent ++ s.text ++ "\n") ++ "\x7d\n"

/-- The graph of an expression tree. -/
def Expr.graph (tree : Expr) (style : DotStyle) : Except LabelFault String := do
  let labels ← tree.labels
  pure (style.graph labels.statements)

end LoxGraph
