import LoxGraph.Proofs.Graph.Determined

/-!
Places in a tree and the nodes that are drawn for them.

A place is a path from the root, the number of a child for each step. `places` lists the
places of a tree in pre-order. The node that is drawn for a place has the label found
there, the length of the path as its depth, and the number of the place in that list as its
index (`LabelTree.places_map_idAt?`, `LabelTree.index_preorder`).
-/

namespace LoxGraph

/-- The places of a tree in pre-order: the root, then those of each child from left to
right. -/
def Expr.places : Expr → List (List Nat)
  | binary left _ right => [] :: (left.places.map (0 :: ·) ++ right.places.map (1 :: ·))
  | unary _ child => [] :: child.places.map (0 :: ·)
  | grouping child => [] :: child.places.map (0 :: ·)
  | literal _ => [[]]
  | error => [[]]

namespace Expr

/-- The places of a tree are the paths that lead to a node. -/
theorem mem_places_iff {e : Expr} {p : List Nat} : p ∈ e.places ↔ (e.node? p).isSome := by
  induction e generalizing p with
  | binary left operator right ihl ihr =>
    rcases p with _ | ⟨k, p⟩
    · simp [places, node?]
    rcases k with _ | _ | k
    · simpa [places, node?, children] using ihl
    · simpa [places, node?, children] using ihr
    · simp [places, node?, children]
  | unary operator child ih | grouping child ih =>
    rcases p with _ | ⟨k, p⟩
    · simp [places, node?]
    rcases k with _ | k
    · simpa [places, node?, children] using ih
    · simp [places, node?, children]
  | literal l | error => cases p <;> simp [places, node?, children]

end Expr

namespace LabelTree

/-- What holds of a tree when it holds of its children holds of all trees. -/
theorem childInduction {P : LabelTree → Prop} (step : ∀ t, (∀ c ∈ t.children, P c) → P t)
    (t : LabelTree) : P t := by
  induction t with
  | leaf l => exact step _ (by simp [children])
  | one l child ih => exact step _ (by simpa [children] using ih)
  | two l left right ihl ihr => exact step _ (by simpa [children] using ⟨ihl, ihr⟩)

/-- Subtrees side by side are gone through as they are drawn: the children of the first
one, then its siblings. -/
theorem forestInduction {P : List LabelTree → Prop} (nil : P [])
    (cons : ∀ t ts, P t.children → P ts → P (t :: ts)) (ts : List LabelTree) : P ts := by
  have hall (ts : List LabelTree) (h : ∀ t ∈ ts, P t.children) : P ts := by
    induction ts with
    | nil => exact nil
    | cons t ts ih =>
      obtain ⟨ht, hts⟩ := List.forall_mem_cons.mp h
      exact cons t ts ht (ih hts)
  have hchildren (t : LabelTree) : P t.children := by
    induction t using childInduction with
    | step t ih => exact hall t.children ih
  exact hall ts fun t _ => hchildren t

/-- The places of a tree of labels in pre-order. -/
def places : LabelTree → List (List Nat)
  | leaf _ => [[]]
  | one _ child => [] :: child.places.map (0 :: ·)
  | two _ left right => [] :: (left.places.map (0 :: ·) ++ right.places.map (1 :: ·))

/-- The places of some children, where `number` is that of the first one. -/
def childPlaces (number : Nat) : List LabelTree → List (List Nat)
  | [] => []
  | t :: ts => t.places.map (number :: ·) ++ childPlaces (number + 1) ts

theorem places_eq (t : LabelTree) : t.places = [] :: childPlaces 0 t.children := by
  cases t <;> simp [places, childPlaces, children]

theorem mem_childPlaces {number : Nat} {ts : List LabelTree} {p : List Nat} :
    p ∈ childPlaces number ts ↔
      ∃ k c q, ts[k]? = some c ∧ q ∈ c.places ∧ p = (number + k) :: q := by
  induction ts generalizing number with
  | nil => simp [childPlaces]
  | cons t ts ih =>
    simp only [childPlaces, List.mem_append, List.mem_map, ih]
    constructor
    · rintro (⟨q, hq, rfl⟩ | ⟨k, c, q, hc, hq, rfl⟩)
      · exact ⟨0, t, q, rfl, hq, rfl⟩
      · exact ⟨k + 1, c, q, hc, hq, by rw [Nat.add_assoc, Nat.add_comm 1 k]⟩
    · rintro ⟨k, c, q, hc, hq, rfl⟩
      cases k with
      | zero =>
        obtain rfl : t = c := Option.some.inj hc
        exact .inl ⟨q, hq, rfl⟩
      | succ k => exact .inr ⟨k, c, q, hc, hq, by rw [Nat.add_assoc, Nat.add_comm 1 k]⟩

theorem mem_places_iff {t : LabelTree} {p : List Nat} : p ∈ t.places ↔ (t.node? p).isSome := by
  induction p generalizing t with
  | nil => simp [places_eq, node?]
  | cons k p ih =>
    rw [places_eq, List.mem_cons, mem_childPlaces, node?]
    constructor
    · rintro (hnil | ⟨j, c, q, hc, hq, hplace⟩)
      · cases hnil
      · obtain ⟨rfl, rfl⟩ := List.cons.inj hplace
        rw [Nat.zero_add, hc, Option.bind_some]
        exact ih.mp hq
    · intro h
      cases hc : t.children[k]? with
      | none => simp [hc] at h
      | some c =>
        rw [hc, Option.bind_some] at h
        exact .inr ⟨k, c, p, hc, ih.mpr h, by rw [Nat.zero_add]⟩

/-- The identity of the node that is drawn for a place of a subtree, where the root stands
at the given depth and index. The nodes of earlier children come before those of a child. -/
def idAt? (depth index : Nat) (t : LabelTree) : List Nat → Option NodeId
  | [] => some ⟨t.label, depth, index⟩
  | k :: p => t.children[k]?.bind fun c =>
    c.idAt? (depth + 1) (index + 1 + totalSize (t.children.take k)) p

theorem totalSize_append (ts us : List LabelTree) :
    totalSize (ts ++ us) = totalSize ts + totalSize us := by
  induction ts with
  | nil => simp [totalSize]
  | cons t ts ih => simp [totalSize, ih, Nat.add_assoc]

theorem idAt?_label {t : LabelTree} {depth index : Nat} {p : List Nat} {id : NodeId}
    (h : t.idAt? depth index p = some id) :
    (t.node? p).map label = some id.label ∧ id.depth = depth + p.length := by
  induction p generalizing t depth index with
  | nil =>
    obtain rfl := Option.some.inj h
    exact ⟨rfl, rfl⟩
  | cons k p ih =>
    obtain ⟨c, hc, hid⟩ := Option.bind_eq_some_iff.mp h
    obtain ⟨hlabel, hdepth⟩ := ih hid
    refine ⟨?_, ?_⟩
    · rw [node?, hc, Option.bind_some, hlabel]
    · rw [hdepth, List.length_cons]
      omega

/-- The nodes of a tree in the order of their statements are those of its places. -/
theorem places_map_idAt? (t : LabelTree) (depth index : Nat) :
    t.places.map (t.idAt? depth index) = (preorder depth index [t]).map some := by
  induction t using childInduction generalizing depth index with
  | step t ih =>
    -- The children from the one behind `before` on have the places and the nodes that are left.
    have hchildren (before ts : List LabelTree) (hsplit : t.children = before ++ ts) :
        (childPlaces before.length ts).map (t.idAt? depth index) =
          (preorder (depth + 1) (index + 1 + totalSize before) ts).map some := by
      induction ts generalizing before with
      | nil => rfl
      | cons c ts ihts =>
        have hc : t.children[before.length]? = some c := by simp [hsplit]
        have hbefore : t.children.take before.length = before := by simp [hsplit]
        have hplace (p : List Nat) : t.idAt? depth index (before.length :: p) =
            c.idAt? (depth + 1) (index + 1 + totalSize before) p := by
          rw [idAt?, hc, Option.bind_some, hbefore]
        have hrest := ihts (before ++ [c]) (by simp [hsplit])
        simp only [List.length_append, List.length_singleton, totalSize_append, totalSize,
          Nat.add_zero, ← Nat.add_assoc] at hrest
        have hfirst := ih c (List.mem_of_getElem? hc) (depth + 1) (index + 1 + totalSize before)
        rw [preorder_cons, preorder_nil, List.append_nil] at hfirst
        rw [childPlaces, List.map_append, List.map_map, hrest, preorder_cons]
        simp only [Function.comp_def, hplace, hfirst, List.map_cons, List.map_append,
          List.cons_append]
    have hall := hchildren [] t.children rfl
    simp only [List.length_nil, totalSize, Nat.add_zero] at hall
    rw [places_eq, List.map_cons, hall, preorder_cons, preorder_nil, List.append_nil, idAt?,
      List.map_cons]

/-- Nodes are numbered one after another. -/
theorem index_preorder (depth index : Nat) (ts : List LabelTree) :
    (preorder depth index ts).map NodeId.index = List.range' index (totalSize ts) := by
  induction ts using forestInduction generalizing depth index with
  | nil => rfl
  | cons t ts ihChildren ihSiblings =>
    have hsize : totalSize (t :: ts) = totalSize t.children + totalSize ts + 1 := by
      rw [totalSize, size_eq]
      omega
    have hnext : index + t.size = index + 1 + totalSize t.children := by
      rw [size_eq]
      omega
    rw [preorder_cons, List.map_cons, List.map_append, ihChildren, ihSiblings, hnext,
      List.range'_append_1, hsize, List.range'_succ]

end LabelTree

end LoxGraph
