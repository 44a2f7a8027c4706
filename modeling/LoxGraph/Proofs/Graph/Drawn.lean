import Mathlib.Data.List.Nodup
import LoxGraph.Proofs.Graph.Places

/-!
A drawn graph is the tree.

The statements of a graph declare one node for each node of the tree and draw one edge to
each node but the root. The place of a node in pre-order tells its identity, and the edges
go from the node of a place to the nodes of the places one step further
(`LabelTree.edge_mem_rendering`). What is shown here of subtrees side by side is shown as
they are drawn, children before siblings.
-/

namespace LoxGraph

namespace Statement

/-- The ends of an edge. -/
def edge? : Statement → Option (NodeId × NodeId)
  | node _ => none
  | edge source target => some (source, target)

/-- The nodes that some statements declare, in order. -/
def nodes (statements : List Statement) : List NodeId := statements.filterMap declared?

/-- The edges that some statements draw, in order. -/
def edges (statements : List Statement) : List (NodeId × NodeId) := statements.filterMap edge?

/-- Whether edges come after the nodes at both their ends, where some nodes are known. -/
def EdgesFollow (known : List NodeId) : List Statement → Prop
  | [] => True
  | node id :: rest => EdgesFollow (id :: known) rest
  | edge source target :: rest => (source ∈ known ∧ target ∈ known) ∧ EdgesFollow known rest

theorem edges_append (first second : List Statement) :
    edges (first ++ second) = edges first ++ edges second := List.filterMap_append

theorem edges_map_edge (id : NodeId) (targets : List NodeId) :
    edges (targets.map (edge id)) = targets.map (id, ·) := by
  simp [edges, edge?, List.filterMap_map, Function.comp_def]

namespace EdgesFollow

variable {known known' : List NodeId} {first second : List Statement}

theorem weaken (h : EdgesFollow known first) (hsub : known ⊆ known') :
    EdgesFollow known' first := by
  induction first generalizing known known' with
  | nil => trivial
  | cons s rest ih =>
    cases s with
    | node id => exact ih h (List.cons_subset_cons id hsub)
    | edge source target => exact ⟨⟨hsub h.1.1, hsub h.1.2⟩, ih h.2 hsub⟩

theorem append (h : EdgesFollow known first) (h' : EdgesFollow (nodes first ++ known) second) :
    EdgesFollow known (first ++ second) := by
  induction first generalizing known with
  | nil => exact h'
  | cons s rest ih =>
    cases s with
    | node id =>
      refine ih h (h'.weaken ?_)
      intro x hx
      simp only [nodes, List.filterMap_cons, declared?, List.cons_append, List.mem_cons,
        List.mem_append] at hx ⊢
      tauto
    | edge source target => exact ⟨h.1, ih h.2 h'⟩

theorem edge_mem {before after : List Statement} {source target : NodeId}
    (h : EdgesFollow known (before ++ edge source target :: after)) :
    (source ∈ known ∨ node source ∈ before) ∧ (target ∈ known ∨ node target ∈ before) := by
  induction before generalizing known with
  | nil => exact ⟨.inl h.1.1, .inl h.1.2⟩
  | cons s rest ih =>
    cases s with
    | node id =>
      have := ih h
      simp only [List.mem_cons, node.injEq] at this ⊢
      tauto
    | edge source' target' =>
      have := ih h.2
      simp only [List.mem_cons, reduceCtorEq, false_or]
      exact this

end EdgesFollow

end Statement

namespace LabelTree

open Statement

variable {depth index : Nat} {ts : List LabelTree} {t : LabelTree}

theorem mem_renderings {s : Statement} :
    s ∈ renderings depth index ts ↔ ∃ (k : Nat) (c : LabelTree),
      ts[k]? = some c ∧ s ∈ c.rendering depth (index + totalSize (ts.take k)) := by
  induction ts generalizing index with
  | nil => simp [renderings]
  | cons t ts ih =>
    rw [renderings, List.mem_append, ih]
    constructor
    · rintro (ht | ⟨k, c, hc, hs⟩)
      · exact ⟨0, t, rfl, ht⟩
      · exact ⟨k + 1, c, hc, by rwa [List.take_succ_cons, totalSize, ← Nat.add_assoc]⟩
    · rintro ⟨k, c, hc, hs⟩
      cases k with
      | zero =>
        obtain rfl : t = c := Option.some.inj hc
        exact .inl hs
      | succ k =>
        rw [List.take_succ_cons, totalSize, ← Nat.add_assoc] at hs
        exact .inr ⟨k, c, hc, hs⟩

theorem rendering_sublist {c : LabelTree} {k : Nat} (hc : ts[k]? = some c) :
    (c.rendering depth (index + totalSize (ts.take k))).Sublist (renderings depth index ts) := by
  induction ts generalizing index k with
  | nil => simp at hc
  | cons t ts ih =>
    rw [renderings]
    cases k with
    | zero =>
      obtain rfl : t = c := Option.some.inj hc
      exact List.sublist_append_left _ _
    | succ k =>
      rw [List.take_succ_cons, totalSize, ← Nat.add_assoc]
      exact (ih hc).trans (List.sublist_append_right _ _)

theorem roots_getElem? (k : Nat) : (roots depth index ts)[k]? =
    ts[k]?.map fun c => ⟨c.label, depth, index + totalSize (ts.take k)⟩ := by
  induction ts generalizing index k with
  | nil => rfl
  | cons t ts ih =>
    cases k with
    | zero => rfl
    | succ k =>
      rw [roots, List.getElem?_cons_succ, ih, List.getElem?_cons_succ, List.take_succ_cons,
        totalSize]
      simp only [Nat.add_assoc]

theorem idAt?_singleton (k : Nat) : t.idAt? depth index [k] =
    (roots (depth + 1) (index + 1) t.children)[k]? := by
  rw [roots_getElem?, idAt?, Option.map_eq_bind]
  rfl

/-- The edges of a drawing go from the node of a place to the nodes of the places one step
further. -/
theorem edge_mem_rendering {a b : NodeId} : edge a b ∈ t.rendering depth index ↔
    ∃ p k, t.idAt? depth index p = some a ∧ t.idAt? depth index (p ++ [k]) = some b := by
  induction t using childInduction generalizing depth index with
  | step t ih =>
    rw [rendering_eq, List.mem_cons, List.mem_append, mem_renderings, List.mem_map]
    constructor
    · rintro (hnode | ⟨k, c, hc, hedge⟩ | ⟨target, htarget, hedge⟩)
      · cases hnode
      · obtain ⟨p, j, ha, hb⟩ := (ih c (List.mem_of_getElem? hc)).mp hedge
        exact ⟨k :: p, j, by rw [idAt?, hc, Option.bind_some, ha],
          by rw [List.cons_append, idAt?, hc, Option.bind_some, hb]⟩
      · obtain ⟨rfl, rfl⟩ := Statement.edge.inj hedge
        obtain ⟨k, hk⟩ := List.mem_iff_getElem?.mp htarget
        exact ⟨[], k, rfl, by rw [List.nil_append, idAt?_singleton, hk]⟩
    · rintro ⟨p, j, ha, hb⟩
      cases p with
      | nil =>
        obtain rfl := Option.some.inj ha
        rw [List.nil_append, idAt?_singleton] at hb
        exact .inr (.inr ⟨b, List.mem_of_getElem? hb, rfl⟩)
      | cons k p =>
        obtain ⟨c, hc, ha⟩ := Option.bind_eq_some_iff.mp ha
        rw [List.cons_append, idAt?, hc, Option.bind_some] at hb
        exact .inr (.inl ⟨k, c, hc, (ih c (List.mem_of_getElem? hc)).mpr ⟨p, j, ha, hb⟩⟩)

theorem edges_renderings_cons : edges (renderings depth index (t :: ts)) =
    edges (renderings (depth + 1) (index + 1) t.children) ++
      ((roots (depth + 1) (index + 1) t.children).map (⟨t.label, depth, index⟩, ·) ++
        edges (renderings depth (index + t.size) ts)) := by
  have hnode (id : NodeId) (rest : List Statement) : edges (node id :: rest) = edges rest := rfl
  rw [renderings, edges_append, rendering_eq, hnode, edges_append, edges_map_edge,
    List.append_assoc]

/-- Every node is the end of one edge or the root of a subtree, and of no more. -/
theorem targets_perm_preorder (depth index : Nat) (ts : List LabelTree) :
    ((edges (renderings depth index ts)).map Prod.snd ++ roots depth index ts).Perm
      (preorder depth index ts) := by
  induction ts using forestInduction generalizing depth index with
  | nil => exact .nil
  | cons t ts ihChildren ihSiblings =>
    -- The edges to the children come first; the root itself ends no edge that is drawn here.
    rw [edges_renderings_cons, preorder_cons, roots]
    simp only [List.map_append, List.map_map, Function.comp_def, List.map_id']
    rw [← List.append_assoc, List.append_assoc]
    exact ((ihChildren (depth + 1) (index + 1)).append
      (List.perm_middle.trans ((ihSiblings depth (index + t.size)).cons _))).trans List.perm_middle

/-- Edges come after the nodes at both ends: those of a node are drawn behind all its
children. -/
theorem edgesFollow_renderings (depth index : Nat) (ts : List LabelTree) (known : List NodeId) :
    EdgesFollow known (renderings depth index ts) := by
  induction ts using forestInduction generalizing depth index known with
  | nil => trivial
  | cons t ts ihChildren ihSiblings =>
    have hedges (root : NodeId) (targets known : List NodeId) (hroot : root ∈ known)
        (hsub : targets ⊆ known) : EdgesFollow known (targets.map (edge root)) := by
      induction targets with
      | nil => trivial
      | cons target targets ih =>
        obtain ⟨htarget, hrest⟩ := List.cons_subset.mp hsub
        exact ⟨⟨hroot, htarget⟩, ih hrest⟩
    have hroots : roots (depth + 1) (index + 1) t.children ⊆
        nodes (renderings (depth + 1) (index + 1) t.children) := fun id hid =>
      (targets_perm_preorder _ _ _).subset (List.mem_append_right _ hid)
    have htree : EdgesFollow (⟨t.label, depth, index⟩ :: known)
        (renderings (depth + 1) (index + 1) t.children ++
          (roots (depth + 1) (index + 1) t.children).map (edge ⟨t.label, depth, index⟩)) := by
      refine (ihChildren ..).append (hedges _ _ _ ?_ ?_)
      · exact List.mem_append_right _ List.mem_cons_self
      · exact fun id hid => List.mem_append_left _ (hroots hid)
    rw [renderings, rendering_eq]
    exact .append htree (ihSiblings ..)

/-- The edges of one node are drawn from left to right. -/
theorem edges_sublist {a b c : NodeId} {p : List Nat} {j k : Nat} (hjk : j < k)
    (ha : t.idAt? depth index p = some a) (hb : t.idAt? depth index (p ++ [j]) = some b)
    (hc : t.idAt? depth index (p ++ [k]) = some c) :
    [edge a b, edge a c].Sublist (t.rendering depth index) := by
  induction p generalizing t depth index with
  | nil =>
    obtain rfl := Option.some.inj ha
    rw [List.nil_append, idAt?_singleton] at hb hc
    rw [rendering_eq]
    generalize roots (depth + 1) (index + 1) t.children = targets at hb hc
    have hbefore : b ∈ targets.take k :=
      List.mem_of_getElem? (by rwa [List.getElem?_take_of_lt hjk])
    have hafter : c ∈ targets.drop k := List.mem_of_getElem? (i := 0) (by rwa [List.getElem?_drop])
    have hpair : [b, c].Sublist targets := by
      rw [← List.take_append_drop k targets]
      exact (List.singleton_sublist.mpr hbefore).append (List.singleton_sublist.mpr hafter)
    exact ((hpair.map _).trans (List.sublist_append_right _ _)).cons _
  | cons i p ih =>
    obtain ⟨child, hchild, ha⟩ := Option.bind_eq_some_iff.mp ha
    rw [List.cons_append, idAt?, hchild, Option.bind_some] at hb hc
    rw [rendering_eq]
    exact ((ih ha hb hc).trans ((rendering_sublist hchild).trans
      (List.sublist_append_left _ _))).cons _

theorem nodes_statements (t : LabelTree) : nodes t.statements = preorder 0 0 [t] := by
  rw [nodes, preorder, statements_eq_rendering, renderings, renderings, List.append_nil]

theorem nodup_nodes_statements (t : LabelTree) : (nodes t.statements).Nodup := by
  apply List.Nodup.of_map NodeId.index
  rw [nodes_statements, index_preorder]
  exact List.nodup_range'

theorem targets_statements_perm (t : LabelTree) :
    (⟨t.label, 0, 0⟩ :: (edges t.statements).map Prod.snd).Perm (nodes t.statements) := by
  have h := targets_perm_preorder 0 0 [t]
  rw [renderings, renderings, List.append_nil, ← statements_eq_rendering, ← nodes_statements] at h
  exact List.perm_append_comm.trans h

end LabelTree

namespace Expr

theorem labels_places {e : Expr} {t : LabelTree} (h : e.labels = .ok t) : e.places = t.places := by
  induction t generalizing e with
  | leaf text =>
    rcases labels_eq_leaf h with ⟨l, rfl, -⟩ | ⟨rfl, -⟩
    · rfl
    · rfl
  | one text t ih =>
    rcases labels_eq_one h with ⟨operator, child, rfl, -, hchild⟩ | ⟨child, rfl, -, hchild⟩
    · rw [places, LabelTree.places, ih hchild]
    · rw [places, LabelTree.places, ih hchild]
  | two text l r ihl ihr =>
    obtain ⟨left, operator, right, rfl, -, hleft, hright⟩ := labels_eq_two h
    rw [places, LabelTree.places, ihl hleft, ihr hright]

/-- Whether a node was declared for a place of a tree: the places in pre-order and the nodes
in the order of their statements belong together. -/
def Declares (e : Expr) (statements : List Statement) (p : List Nat) (id : NodeId) : Prop :=
  ∃ i : Nat, e.places[i]? = some p ∧ (Statement.nodes statements)[i]? = some id

/-- What it means that statements draw a tree. -/
structure DrawnBy (e : Expr) (statements : List Statement) : Prop where
  /-- There is one node statement for each node of the tree. -/
  length_nodes : (Statement.nodes statements).length = e.places.length
  /-- No two of them have an identifier in common. -/
  nodup_nodes : ((Statement.nodes statements).map NodeId.text).Nodup
  /-- Every node of the tree has one of them. -/
  declares_unique : ∀ p, (e.node? p).isSome → ∃! id, e.Declares statements p id
  /-- No two nodes of the tree have the same one. -/
  place_unique : ∀ p q id, e.Declares statements p id → e.Declares statements q id → p = q
  /-- Each has the label and the depth of its node. -/
  label_of_declares : ∀ p id, e.Declares statements p id →
    (e.node? p).map label = some (.ok id.label) ∧ id.depth = p.length
  /-- Edges go from parents to children. -/
  edge_iff : ∀ a b, .edge a b ∈ statements ↔
    ∃ p k, e.Declares statements p a ∧ e.Declares statements (p ++ [k]) b
  /-- There is one edge statement for each pair of a parent and a child. -/
  nodup_edges : (Statement.edges statements).Nodup
  /-- There is one less than there are nodes. -/
  length_edges : (Statement.edges statements).length + 1 = e.places.length
  /-- The edges of a parent stand from left to right. -/
  leftToRight : ∀ p j k a b c, j < k → e.Declares statements p a →
    e.Declares statements (p ++ [j]) b → e.Declares statements (p ++ [k]) c →
      [.edge a b, .edge a c].Sublist statements
  /-- Every edge stands behind the nodes at both ends. -/
  edge_follows : ∀ before after a b, statements = before ++ .edge a b :: after →
    .node a ∈ before ∧ .node b ∈ before

theorem declares_iff {e : Expr} {t : LabelTree} (h : e.labels = .ok t) {p : List Nat}
    {id : NodeId} : e.Declares t.statements p id ↔ t.idAt? 0 0 p = some id := by
  have hall := LabelTree.places_map_idAt? t 0 0
  rw [← LabelTree.nodes_statements] at hall
  have hat (i : Nat) := congrArg (·[i]?) hall
  simp only [List.getElem?_map] at hat
  rw [Declares, labels_places h]
  constructor
  · rintro ⟨i, hp, hid⟩
    simpa [hp, hid] using hat i
  · intro hid
    obtain ⟨hnode, -⟩ := LabelTree.idAt?_label hid
    have hplace : p ∈ t.places := by
      rw [LabelTree.mem_places_iff]
      cases hn : t.node? p with
      | none => simp [hn] at hnode
      | some node => rfl
    obtain ⟨i, hi⟩ := List.mem_iff_getElem?.mp hplace
    refine ⟨i, hi, ?_⟩
    simpa [hi, hid, Option.map_eq_some_iff] using (hat i).symm

theorem length_nodes_statements {e : Expr} {t : LabelTree} (h : e.labels = .ok t) :
    (Statement.nodes t.statements).length = e.places.length := by
  have hall := congrArg List.length (LabelTree.places_map_idAt? t 0 0)
  rw [List.length_map, List.length_map] at hall
  rw [labels_places h, LabelTree.nodes_statements, hall]

theorem drawnBy_statements {e : Expr} {t : LabelTree} (h : e.labels = .ok t) :
    e.DrawnBy t.statements where
  length_nodes := length_nodes_statements h
  nodup_nodes := t.nodup_nodes_statements.map NodeId.text_injective
  declares_unique := by
    intro p hp
    rw [← mem_places_iff, labels_places h] at hp
    have hall := List.mem_map_of_mem (f := t.idAt? 0 0) hp
    rw [LabelTree.places_map_idAt?] at hall
    obtain ⟨id, -, hid⟩ := List.mem_map.mp hall
    refine ⟨id, (declares_iff h).mpr hid.symm, ?_⟩
    intro other hother
    rw [declares_iff h, ← hid] at hother
    exact (Option.some.inj hother).symm
  place_unique := by
    rintro p q id ⟨i, hp, hi⟩ ⟨j, hq, hj⟩
    obtain ⟨hlength, -⟩ := List.getElem?_eq_some_iff.mp hi
    obtain rfl := (List.getElem?_inj hlength t.nodup_nodes_statements).mp (hi.trans hj.symm)
    exact Option.some.inj (hp.symm.trans hq)
  label_of_declares := by
    intro p id hid
    rw [declares_iff h] at hid
    obtain ⟨hlabel, hdepth⟩ := LabelTree.idAt?_label hid
    obtain ⟨node, hnode, htext⟩ := Option.map_eq_some_iff.mp hlabel
    refine ⟨?_, by rw [hdepth, Nat.zero_add]⟩
    rw [labels_node? h, hnode, Option.map_some, htext]
  edge_iff := by
    intro a b
    simp only [declares_iff h]
    rw [LabelTree.statements_eq_rendering]
    exact LabelTree.edge_mem_rendering
  nodup_edges := by
    have htargets := t.targets_statements_perm.nodup_iff.mpr t.nodup_nodes_statements
    exact (List.nodup_cons.mp htargets).2.of_map Prod.snd
  length_edges := by
    have hcount := t.targets_statements_perm.length_eq
    rw [List.length_cons, List.length_map, length_nodes_statements h] at hcount
    exact hcount
  leftToRight := by
    intro p j k a b c hjk ha hb hc
    rw [declares_iff h] at ha hb hc
    rw [LabelTree.statements_eq_rendering]
    exact LabelTree.edges_sublist hjk ha hb hc
  edge_follows := by
    intro before after a b hsplit
    have hfollow := LabelTree.edgesFollow_renderings 0 0 [t] []
    rw [LabelTree.renderings, LabelTree.renderings, List.append_nil,
      ← LabelTree.statements_eq_rendering, hsplit] at hfollow
    simpa using hfollow.edge_mem

/-- The graph of a tree whose nodes have labels is the tree, whatever its size, its depth
and its labels are: the text of the graph is that of one list of statements and of no other,
and these statements draw the tree. -/
theorem graph_drawnBy {e : Expr} (h : e.HasLabels) (style : DotStyle) :
    ∃ text statements, e.graph style = .ok text ∧
      (∀ others, text = style.graph others ↔ others = statements) ∧ e.DrawnBy statements := by
  obtain ⟨t, ht⟩ := h.labels
  refine ⟨style.graph t.statements, t.statements, by rw [graph, ht]; rfl, ?_,
    drawnBy_statements ht⟩
  intro others
  rw [DotStyle.graph_inj]
  exact eq_comm

/-- A tree with a text that is written like the end of an identifier. -/
def underscored : Expr :=
  .binary (.grouping (.literal (.string (.text "a_2_3\"")))) ⟨.plus, "+", .none, 1⟩
    (.unary ⟨.minus, "-", .none, 1⟩ (.literal (.number (.int 2))))

theorem underscored_graph_drawnBy : underscored.HasLabels ∧
    ∃ text statements, underscored.graph .plain = .ok text ∧
      (∀ others, text = DotStyle.plain.graph others ↔ others = statements) ∧
        underscored.DrawnBy statements := by
  have hlabels : underscored.labels =
      .ok (.two "+" (.one "()" (.leaf "\"a_2_3\"\"")) (.one "-" (.leaf "2"))) := by
    decide +kernel
  have h : underscored.HasLabels := hasLabels_of_labels hlabels
  exact ⟨h, graph_drawnBy h .plain⟩

end Expr

end LoxGraph
