import LoxGraph.Proofs.Graph.Reading
import LoxGraph.Proofs.Graph.Rendering

/-!
A graph determines the labelled tree that it draws.

The statements of a graph name its nodes in pre-order, each with its depth, and
that is enough to rebuild the tree: the children of a node are the nodes one
depth further down that come before the next one at its own depth or above
(`LabelTree.preorder_inj`). Nothing else in the text counts, so no label can
forge a node or an edge.
-/

namespace LoxGraph

/-- The node that a statement declares. -/
def Statement.declared? : Statement → Option NodeId
  | node id => some id
  | edge _ _ => none

namespace LabelTree

/-- The nodes of several subtrees of one depth, in the order of their statements. -/
def preorder (depth index : Nat) (ts : List LabelTree) : List NodeId :=
  (renderings depth index ts).filterMap Statement.declared?

@[simp] theorem preorder_nil (depth index : Nat) : preorder depth index [] = [] := rfl

theorem preorder_cons (depth index : Nat) (t : LabelTree) (ts : List LabelTree) :
    preorder depth index (t :: ts) = ⟨t.label, depth, index⟩ ::
      (preorder (depth + 1) (index + 1) t.children ++ preorder depth (index + t.size) ts) := by
  have hedges (id : NodeId) (targets : List NodeId) :
      (targets.map (Statement.edge id)).filterMap Statement.declared? = [] := by
    simp [Statement.declared?]
  simp [preorder, renderings, rendering_eq depth index t, Statement.declared?, hedges]

theorem eq_of_children {t t' : LabelTree} (hlabel : t.label = t'.label)
    (hchildren : t.children = t'.children) : t = t' := by
  cases t <;> cases t' <;> simp_all [label, children]

/-- Whether the first of some nodes stands higher than a depth, so that it is
not the root of another subtree at that depth. -/
def Rises (depth : Nat) (nodes : List NodeId) : Prop := ∀ id ∈ nodes.head?, id.depth < depth

theorem rises_children {depth index : Nat} (ts : List LabelTree) {nodes : List NodeId}
    (h : Rises depth nodes) : Rises (depth + 1) (preorder depth index ts ++ nodes) := by
  intro id hid
  cases ts with
  | nil => exact Nat.lt_succ_of_lt (h id hid)
  | cons t ts =>
    rw [preorder_cons, List.cons_append, List.head?_cons, Option.mem_some_iff] at hid
    subst hid
    exact Nat.lt_succ_self depth

theorem not_rises_cons {depth index : Nat} (t : LabelTree) (ts : List LabelTree)
    (nodes : List NodeId) : ¬ Rises depth (preorder depth index (t :: ts) ++ nodes) := by
  intro h
  rw [preorder_cons] at h
  exact Nat.lt_irrefl depth (h _ rfl)

theorem nil_of_preorder {depth index : Nat} {ts : List LabelTree} {nodes nodes' : List NodeId}
    (hrises : Rises depth nodes)
    (h : preorder depth index [] ++ nodes = preorder depth index ts ++ nodes') :
    [] = ts ∧ nodes = nodes' := by
  cases ts with
  | nil => exact ⟨rfl, h⟩
  | cons t ts =>
    rw [preorder_nil, List.nil_append] at h
    rw [h] at hrises
    exact absurd hrises (not_rises_cons t ts nodes')

/-- Subtrees are rebuilt from their nodes: what follows the root of the first one
are its children, then its siblings, then whatever stands higher. -/
theorem preorder_inj (bound : Nat) {ts ts' : List LabelTree} {depth index : Nat}
    {nodes nodes' : List NodeId} (hbound : totalSize ts ≤ bound) (hrises : Rises depth nodes)
    (hrises' : Rises depth nodes')
    (h : preorder depth index ts ++ nodes = preorder depth index ts' ++ nodes') :
    ts = ts' ∧ nodes = nodes' := by
  induction bound generalizing ts ts' depth index nodes nodes' with
  | zero =>
    cases ts with
    | nil => exact nil_of_preorder hrises h
    | cons t ts =>
      rw [totalSize, size_eq t] at hbound
      omega
  | succ bound ih =>
    cases ts with
    | nil => exact nil_of_preorder hrises h
    | cons t ts =>
      cases ts' with
      | nil =>
        obtain ⟨hts, hnodes⟩ := nil_of_preorder hrises' h.symm
        exact ⟨hts.symm, hnodes.symm⟩
      | cons t' ts' =>
        rw [totalSize, size_eq t] at hbound
        simp only [preorder_cons, List.cons_append, List.append_assoc, List.cons.injEq] at h
        obtain ⟨hroot, hbelow⟩ := h
        have hlabel : t.label = t'.label := congrArg NodeId.label hroot
        -- The children come first, and all that follows them stands no deeper than the root.
        obtain ⟨hchildren, hsiblings⟩ := ih (by omega) (rises_children ts hrises)
          (rises_children ts' hrises') hbelow
        have htree : t = t' := eq_of_children hlabel hchildren
        rw [← htree] at hsiblings
        obtain ⟨hrest, hnodes⟩ := ih (by omega) hrises hrises' hsiblings
        exact ⟨by rw [htree, hrest], hnodes⟩

/-- A tree is rebuilt from the statements of its graph. -/
theorem statements_inj {t t' : LabelTree} (h : t.statements = t'.statements) : t = t' := by
  have hrises : Rises 0 [] := by simp [Rises]
  have hnodes : preorder 0 0 [t] ++ [] = preorder 0 0 [t'] ++ [] := by
    simp only [preorder, renderings, ← statements_eq_rendering, h]
  obtain ⟨htrees, -⟩ := preorder_inj (totalSize [t]) (Nat.le_refl _) hrises hrises hnodes
  exact List.head_eq_of_cons_eq htrees

/-- The subtree at the end of a path: which child to take, from the root on. -/
def node? (t : LabelTree) : List Nat → Option LabelTree
  | [] => some t
  | i :: path => t.children[i]?.bind (·.node? path)

/-- Trees with the same labels at the same places are the same tree. -/
theorem eq_of_node? {t t' : LabelTree}
    (h : ∀ path, (t.node? path).map label = (t'.node? path).map label) : t = t' := by
  induction t generalizing t' with
  | leaf l =>
    have hroot := h []
    have hfirst := h [0]
    cases t' <;> simp_all [node?, children, label]
  | one l child ih =>
    have hroot := h []
    have hfirst := h [0]
    have hsecond := h [1]
    cases t' with
    | leaf l' => simp [node?, children] at hfirst
    | one l' child' =>
      have hchild : child = child' := ih fun path => h (0 :: path)
      simpa [node?, label, hchild] using hroot
    | two l' left' right' => simp [node?, children] at hsecond
  | two l left right ihl ihr =>
    have hroot := h []
    have hfirst := h [0]
    have hsecond := h [1]
    cases t' with
    | leaf l' => simp [node?, children] at hfirst
    | one l' child' => simp [node?, children] at hsecond
    | two l' left' right' =>
      have hleft : left = left' := ihl fun path => h (0 :: path)
      have hright : right = right' := ihr fun path => h (1 :: path)
      simpa [node?, label, hleft, hright] using hroot

end LabelTree

/-- What is built from labels and comes out well is built from labels that do. -/
theorem exists_ok_of_bind {α β : Type} {x : Except LabelFault α} {f : α → Except LabelFault β}
    {b : β} (h : x >>= f = .ok b) : ∃ a, x = .ok a ∧ f a = .ok b := by
  cases x with
  | error fault => exact nomatch h
  | ok a => exact ⟨a, rfl, h⟩

namespace Expr

/-- The subtree at the end of a path: which child to take, from the root on. -/
def node? (e : Expr) : List Nat → Option Expr
  | [] => some e
  | i :: path => e.children[i]?.bind (·.node? path)

/-- What holds of the root and of all nodes below it holds of every node. -/
theorem forall_node_of_children {P : Expr → Prop} {e : Expr} (hroot : P e)
    (hchildren : ∀ c ∈ e.children, ∀ path node, c.node? path = some node → P node) :
    ∀ path node, e.node? path = some node → P node := by
  intro path node hnode
  cases path with
  | nil =>
    obtain rfl := Option.some.inj hnode
    exact hroot
  | cons i path =>
    obtain ⟨c, hc, hnode⟩ := Option.bind_eq_some_iff.mp hnode
    exact hchildren c (List.mem_of_getElem? hc) path node hnode

/-- Whether every node of a tree has a label. -/
def HasLabels (e : Expr) : Prop :=
  ∀ path node, e.node? path = some node → ∃ text, node.label = .ok text

theorem HasLabels.child {e child : Expr} (h : e.HasLabels) (i : Nat)
    (hi : e.children[i]? = some child) : child.HasLabels := by
  intro path node hnode
  apply h (i :: path)
  rw [node?, hi]
  exact hnode

theorem HasLabels.labels {e : Expr} (h : e.HasLabels) : ∃ t, e.labels = .ok t := by
  induction e with
  | binary left operator right ihl ihr =>
    obtain ⟨l, hl⟩ := ihl (h.child 0 rfl)
    obtain ⟨r, hr⟩ := ihr (h.child 1 rfl)
    exact ⟨.two operator.lexeme l r, by rw [Expr.labels, hl, hr]; rfl⟩
  | unary operator child ih =>
    obtain ⟨c, hc⟩ := ih (h.child 0 rfl)
    exact ⟨.one operator.lexeme c, by rw [Expr.labels, hc]; rfl⟩
  | grouping child ih =>
    obtain ⟨c, hc⟩ := ih (h.child 0 rfl)
    exact ⟨.one "()" c, by rw [Expr.labels, hc]; rfl⟩
  | literal l =>
    obtain ⟨text, htext⟩ := h [] (.literal l) rfl
    have hl : l.label = .ok text := htext
    exact ⟨.leaf text, by rw [Expr.labels, hl]; rfl⟩
  | error => exact ⟨.leaf "ERROR", rfl⟩

/-- The labels of a tree are the label of its root and those of its children. -/
theorem labels_eq_ok {e : Expr} {t : LabelTree} (h : e.labels = .ok t) :
    e.label = .ok t.label ∧ e.children.map labels = t.children.map .ok := by
  cases e with
  | binary left operator right =>
    obtain ⟨l, hl, hright⟩ := exists_ok_of_bind h
    obtain ⟨r, hr, htree⟩ := exists_ok_of_bind hright
    cases htree
    simp [label, children, LabelTree.label, LabelTree.children, hl, hr]
  | unary operator child =>
    obtain ⟨c, hc, htree⟩ := exists_ok_of_bind h
    cases htree
    simp [label, children, LabelTree.label, LabelTree.children, hc]
  | grouping child =>
    obtain ⟨c, hc, htree⟩ := exists_ok_of_bind h
    cases htree
    simp [label, children, LabelTree.label, LabelTree.children, hc]
  | literal l =>
    obtain ⟨text, htext, htree⟩ := exists_ok_of_bind h
    cases htree
    simp [label, children, LabelTree.label, LabelTree.children, htext]
  | error =>
    cases h
    simp [label, children, LabelTree.label, LabelTree.children]

theorem labels_eq_leaf {e : Expr} {text : String} (h : e.labels = .ok (.leaf text)) :
    (∃ l, e = .literal l ∧ l.label = .ok text) ∨ e = .error ∧ text = "ERROR" := by
  obtain ⟨hlabel, hchildren⟩ := labels_eq_ok h
  cases e with
  | literal l => exact .inl ⟨l, rfl, hlabel⟩
  | error => exact .inr ⟨rfl, (Except.ok.inj hlabel).symm⟩
  | binary | unary | grouping => simp [children, LabelTree.children] at hchildren

theorem labels_eq_one {e : Expr} {text : String} {t : LabelTree}
    (h : e.labels = .ok (.one text t)) :
    (∃ operator child, e = .unary operator child ∧ operator.lexeme = text ∧
      child.labels = .ok t) ∨
    ∃ child, e = .grouping child ∧ text = "()" ∧ child.labels = .ok t := by
  obtain ⟨hlabel, hchildren⟩ := labels_eq_ok h
  cases e with
  | unary operator child =>
    exact .inl ⟨operator, child, rfl, Except.ok.inj hlabel, List.head_eq_of_cons_eq hchildren⟩
  | grouping child =>
    exact .inr ⟨child, rfl, (Except.ok.inj hlabel).symm, List.head_eq_of_cons_eq hchildren⟩
  | binary | literal | error => simp [children, LabelTree.children] at hchildren

theorem labels_eq_two {e : Expr} {text : String} {l r : LabelTree}
    (h : e.labels = .ok (.two text l r)) : ∃ left operator right,
      e = .binary left operator right ∧ operator.lexeme = text ∧ left.labels = .ok l ∧
        right.labels = .ok r := by
  obtain ⟨hlabel, hchildren⟩ := labels_eq_ok h
  cases e with
  | binary left operator right =>
    have hright := List.tail_eq_of_cons_eq hchildren
    exact ⟨left, operator, right, rfl, Except.ok.inj hlabel, List.head_eq_of_cons_eq hchildren,
      List.head_eq_of_cons_eq hright⟩
  | unary | grouping | literal | error => simp [children, LabelTree.children] at hchildren

theorem labels_node? {e : Expr} {t : LabelTree} (h : e.labels = .ok t) (path : List Nat) :
    (e.node? path).map label = (t.node? path).map fun node => .ok node.label := by
  induction path generalizing e t with
  | nil =>
    obtain ⟨hlabel, -⟩ := labels_eq_ok h
    simp [node?, LabelTree.node?, hlabel]
  | cons i path ih =>
    obtain ⟨-, hchildren⟩ := labels_eq_ok h
    have hchild := congrArg (·[i]?) hchildren
    simp only [List.getElem?_map] at hchild
    cases hi : e.children[i]? with
    | none =>
      cases ht : t.children[i]? with
      | none => simp [node?, LabelTree.node?, hi, ht]
      | some subtree => simp [hi, ht] at hchild
    | some child =>
      cases ht : t.children[i]? with
      | none => simp [hi, ht] at hchild
      | some subtree =>
        have hsub : child.labels = .ok subtree := by simpa [hi, ht] using hchild
        simpa [node?, LabelTree.node?, hi, ht] using ih hsub

theorem hasLabels_of_labels {e : Expr} {t : LabelTree} (h : e.labels = .ok t) : e.HasLabels := by
  intro path node hnode
  have hlabel := labels_node? h path
  rw [hnode] at hlabel
  cases ht : t.node? path with
  | none => simp [ht] at hlabel
  | some subtree => exact ⟨subtree.label, by simpa [ht] using hlabel⟩

/-- The text of a graph determines the labelled tree: two trees whose nodes have
labels have the same graph exactly if they have the same shape and the same
label at every place. The labels may be any text. -/
theorem graph_eq_iff {a b : Expr} (ha : a.HasLabels) (hb : b.HasLabels) (style : DotStyle) :
    ∃ graphA graphB, a.graph style = .ok graphA ∧ b.graph style = .ok graphB ∧
      (graphA = graphB ↔ ∀ path, (a.node? path).map label = (b.node? path).map label) := by
  obtain ⟨ta, hta⟩ := ha.labels
  obtain ⟨tb, htb⟩ := hb.labels
  refine ⟨style.graph ta.statements, style.graph tb.statements, by rw [graph, hta]; rfl,
    by rw [graph, htb]; rfl, ?_⟩
  rw [DotStyle.graph_inj]
  constructor
  · intro hgraph path
    rw [labels_node? hta, labels_node? htb, LabelTree.statements_inj hgraph]
  · intro hnodes
    apply congrArg LabelTree.statements
    apply LabelTree.eq_of_node?
    intro path
    have hpath := hnodes path
    rw [labels_node? hta, labels_node? htb] at hpath
    cases hna : ta.node? path <;> cases hnb : tb.node? path <;> simp_all

/-- A string that is written like the end of a node and the start of another. -/
def forgery : Expr :=
  .literal (.string (.text "a_0_0\" [label=\"\\\"];\n\"b_1_1"))

/-- The node that `forgery` seems to declare, below another one. -/
def forged : Expr :=
  .unary ⟨.minus, "-", .none, 1⟩ (.literal (.string (.text "b")))

theorem forgery_graph_ne_forged : forgery.HasLabels ∧ forged.HasLabels ∧
    ∃ graphA graphB, forgery.graph .plain = .ok graphA ∧ forged.graph .plain = .ok graphB ∧
      graphA ≠ graphB := by
  have hforgery : forgery.HasLabels := hasLabels_of_labels rfl
  have hforged : forged.HasLabels := hasLabels_of_labels rfl
  obtain ⟨graphA, graphB, hA, hB, hiff⟩ := graph_eq_iff hforgery hforged .plain
  refine ⟨hforgery, hforged, graphA, graphB, hA, hB, ?_⟩
  intro hgraph
  have hchild := hiff.mp hgraph [0]
  simp [forgery, forged, node?, children] at hchild

end Expr

end LoxGraph
