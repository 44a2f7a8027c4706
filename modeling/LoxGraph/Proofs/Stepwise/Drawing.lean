import Mathlib.Data.List.Forall2
import LoxGraph.Graph.Dot
import LoxGraph.Proofs.Stepwise.Action

/-!
Drawing step by step.

Nodes are labelled as they are declared, and a loop works off a stack of nodes whose
children are still to come. A label may be missing, where a number literal holds no
double, and the top of a stack may be. On a tree whose numbers are doubles neither
happens, and the graph is the graph of the tree (`draw_eq`).
-/

namespace LoxGraph

/-- Whether all numbers in a tree are doubles. -/
def Expr.HoldsDoubles : Expr → Prop
  | binary left _ right => left.HoldsDoubles ∧ right.HoldsDoubles
  | unary _ child => child.HoldsDoubles
  | grouping child => child.HoldsDoubles
  | literal (.number v) => ∃ d, v = .double d
  | literal (.string _) | literal (.truth _) | literal .nothing => True
  | error => True

namespace Stepwise

/-- Whether a double is a finite number without a fraction. -/
def isIntegral : Double → Bool
  | .finite _ m => m.units % unitsPerOne == 0
  | .infinite _ => false
  | .nan => false

/-- The double that a number literal holds; other values must not come here. -/
def asDouble : Value → Except Mishap Double
  | .double d => .ok d
  | v => .error (.notADouble v)

/-- The integer that a double is; fractions, infinities and `nan` must not come here. -/
def toInteger : Double → Except Mishap Int
  | .finite negative m =>
    if m.units % unitsPerOne = 0 then .ok (Double.signed negative m / unitsPerOne)
    else .error (.notAnInteger (.finite negative m))
  | d => .error (.notAnInteger d)

/-- The digits of an integer, of which there may not be too many. -/
def integerText (i : Int) : Except Mishap String :=
  if i.natAbs < Nat.pow 10 integerDigitLimit then .ok (toString i)
  else .error (.tooManyDigits i)

/-- A number without its point if it is an integer. -/
def numberText (v : Value) : Except Mishap String := do
  let d ← asDouble v
  if isIntegral d then
    let i ← toInteger d
    integerText i
  else return d.text

def literalText : Literal → Except Mishap String
  | .number v => numberText v
  | .string v => .ok ("\"" ++ v.display ++ "\"")
  | .truth b => .ok (if b then "true" else "false")
  | .nothing => .ok "nil"

def nodeLabel : Expr → Except Mishap String
  | .binary _ operator _ => .ok operator.lexeme
  | .unary operator _ => .ok operator.lexeme
  | .grouping _ => .ok "()"
  | .literal l => literalText l
  | .error => .ok "ERROR"

/-- A declared node: its children still to come, and those that are drawn. -/
structure Node where
  id : NodeId
  pending : List Expr
  drawn : List NodeId

/-- The top of a stack, which has to be there. -/
def top : List Node → Except Mishap Node
  | [] => .error (.outOfRange 0)
  | node :: _ => .ok node

/-- Notes a drawn node as a child of the one that is now on top, if any is. -/
def noteDrawn (id : NodeId) (stack : List Node) : Except Mishap (List Node) :=
  if stack.isEmpty then .ok stack
  else do
    let parent ← top stack
    return { parent with drawn := parent.drawn ++ [id] } :: stack.tail

/-- The statements that are still to come, where `index` is that of the next node. -/
def paint : Nat → Nat → List Node → Except Mishap (List Statement)
  | 0, _, _ => .error .endlessLoop
  | clock + 1, index, stack =>
    if stack.isEmpty then .ok []
    else do
      let node ← top stack
      match node.pending with
      | [] =>
        let below ← noteDrawn node.id stack.tail
        let others ← paint clock index below
        return node.drawn.map (.edge node.id) ++ others
      | child :: pending =>
        let label ← nodeLabel child
        let id : NodeId := ⟨label, node.id.depth + 1, index⟩
        let others ← paint clock (index + 1)
          (⟨id, child.children, []⟩ :: { node with pending := pending } :: stack.tail)
        return .node id :: others

/-- The number of nodes of a tree. -/
def nodeCount : Expr → Nat
  | .binary left _ right => 1 + nodeCount left + nodeCount right
  | .unary _ child => 1 + nodeCount child
  | .grouping child => 1 + nodeCount child
  | .literal _ => 1
  | .error => 1

/-- The graph of a tree, drawn in two rounds for each node. -/
def draw (style : DotStyle) (tree : Expr) : Except Mishap String := do
  let label ← nodeLabel tree
  let root : NodeId := ⟨label, 0, 0⟩
  let others ← paint (2 * nodeCount tree) 1 [⟨root, tree.children, []⟩]
  return style.graph (.node root :: others)

/-- The labels that the nodes of a tree are given. -/
inductive Pictures : Expr → LabelTree → Prop
  | binary {left right : Expr} {operator : Token} {l r : LabelTree} (hleft : Pictures left l)
      (hright : Pictures right r) :
      Pictures (.binary left operator right) (.two operator.lexeme l r)
  | unary {operator : Token} {child : Expr} {c : LabelTree} (hchild : Pictures child c) :
      Pictures (.unary operator child) (.one operator.lexeme c)
  | grouping {child : Expr} {c : LabelTree} (hchild : Pictures child c) :
      Pictures (.grouping child) (.one "()" c)
  | literal {l : Literal} {text : String} (htext : literalText l = .ok text) :
      Pictures (.literal l) (.leaf text)
  | error : Pictures .error (.leaf "ERROR")

theorem lt_ten_pow_of_lt_two_pow {i m n : Nat} (h : i < Nat.pow 2 m) (hle : m ≤ n) :
    i < Nat.pow 10 n :=
  Nat.lt_of_lt_of_le h
    (Nat.le_trans (Nat.pow_le_pow_left (by decide) m) (Nat.pow_le_pow_right (by decide) hle))

/-- No integer that is a double has too many digits. -/
theorem integerText_eq {d : Double} {i : Int} (h : d.integer? = some i) :
    integerText i = .ok (toString i) := by
  cases d with
  | finite negative m =>
    simp only [Double.integer?] at h
    split at h
    · rename_i hwhole
      have hoverflow := m.below_overflow
      rw [unitsAtOverflow] at hoverflow
      have hbelow := Nat.div_lt_of_lt_mul hoverflow
      have habs : i.natAbs = m.units / unitsPerOne := by
        obtain ⟨q, hq⟩ := Nat.dvd_of_mod_eq_zero hwhole
        have hne : (unitsPerOne : Int) ≠ 0 := Int.natCast_ne_zero.mpr (Nat.ne_of_gt unitsPerOne_pos)
        rw [← Option.some.inj h, Double.signed, hq, Nat.mul_div_cancel_left q unitsPerOne_pos,
          Int.natCast_mul]
        cases negative with
        | false =>
          rw [if_neg Bool.false_ne_true, Int.mul_ediv_cancel_left _ hne, Int.natAbs_natCast]
        | true =>
          rw [if_pos rfl, ← Int.mul_neg, Int.mul_ediv_cancel_left _ hne, Int.natAbs_neg,
            Int.natAbs_natCast]
      have hdigits : i.natAbs < Nat.pow 10 integerDigitLimit := by
        rw [habs]
        exact lt_ten_pow_of_lt_two_pow hbelow (by decide)
      rw [integerText, if_pos hdigits]
    · cases h
  | infinite negative => cases h
  | nan => cases h

theorem numberText_double (d : Double) :
    numberText (.double d) = .ok (match d.integer? with
      | some i => toString i
      | none => d.text) := by
  have hnumber : numberText (.double d) =
      if isIntegral d then toInteger d >>= integerText else .ok d.text := rfl
  cases d with
  | finite negative m =>
    by_cases hwhole : m.units % unitsPerOne = 0
    · have hintegral : isIntegral (.finite negative m) = true := beq_iff_eq.mpr hwhole
      have hinteger : (Double.finite negative m).integer? =
          some (Double.signed negative m / unitsPerOne) := if_pos hwhole
      have hto : toInteger (.finite negative m) = .ok (Double.signed negative m / unitsPerOne) :=
        if_pos hwhole
      have hbind (i : Int) (f : Int → Except Mishap String) : (Except.ok i >>= f) = f i := rfl
      rw [hnumber, if_pos hintegral, hto, hbind, hinteger]
      exact integerText_eq hinteger
    · have hintegral : ¬ isIntegral (.finite negative m) = true :=
        fun h => hwhole (beq_iff_eq.mp h)
      have hinteger : (Double.finite negative m).integer? = none := if_neg hwhole
      rw [hinteger]
      exact hnumber.trans (if_neg hintegral)
  | infinite negative => rfl
  | nan => rfl

/-- A literal that holds no other number than a double has a label, step by step too. -/
theorem literalText_eq {l : Literal} (h : (Expr.literal l).HoldsDoubles) :
    ∃ text, l.label = .ok text ∧ literalText l = .ok text := by
  cases l with
  | number v =>
    obtain ⟨d, rfl⟩ := h
    exact ⟨_, rfl, numberText_double d⟩
  | string v => exact ⟨_, rfl, rfl⟩
  | truth b => exact ⟨_, rfl, rfl⟩
  | nothing => exact ⟨_, rfl, rfl⟩

theorem pictures_of_holdsDoubles {tree : Expr} (h : tree.HoldsDoubles) :
    ∃ labels, tree.labels = .ok labels ∧ Pictures tree labels := by
  induction tree with
  | binary left operator right ihLeft ihRight =>
    obtain ⟨l, hl, hleft⟩ := ihLeft h.1
    obtain ⟨r, hr, hright⟩ := ihRight h.2
    refine ⟨_, ?_, .binary hleft hright⟩
    rw [Expr.labels, hl, hr]
    rfl
  | unary operator child ih =>
    obtain ⟨c, hc, hchild⟩ := ih h
    refine ⟨_, ?_, .unary hchild⟩
    rw [Expr.labels, hc]
    rfl
  | grouping child ih =>
    obtain ⟨c, hc, hchild⟩ := ih h
    refine ⟨_, ?_, .grouping hchild⟩
    rw [Expr.labels, hc]
    rfl
  | literal l =>
    obtain ⟨text, hlabel, htext⟩ := literalText_eq h
    refine ⟨_, ?_, .literal htext⟩
    rw [Expr.labels, hlabel]
    rfl
  | error => exact ⟨_, rfl, .error⟩

theorem Pictures.nodeLabel_eq {tree : Expr} {labels : LabelTree} (h : Pictures tree labels) :
    nodeLabel tree = .ok labels.label := by
  cases h with
  | literal htext => exact htext
  | binary | unary | grouping | error => rfl

theorem Pictures.children {tree : Expr} {labels : LabelTree} (h : Pictures tree labels) :
    List.Forall₂ Pictures tree.children labels.children := by
  cases h with
  | binary hleft hright => exact .cons hleft (.cons hright .nil)
  | unary hchild => exact .cons hchild .nil
  | grouping hchild => exact .cons hchild .nil
  | literal | error => exact .nil

theorem Pictures.size_eq {tree : Expr} {labels : LabelTree} (h : Pictures tree labels) :
    labels.size = nodeCount tree := by
  induction h with
  | binary hleft hright ihLeft ihRight => simp only [LabelTree.size, nodeCount, ihLeft, ihRight]
  | unary hchild ih => simp only [LabelTree.size, nodeCount, ih]
  | grouping hchild ih => simp only [LabelTree.size, nodeCount, ih]
  | literal htext => rfl
  | error => rfl

/-- A stack of nodes and a stack of frames that are equally far. A frame has its last
child already, where a node waits for it to be drawn. -/
inductive Stacks : Option NodeId → List Node → List Frame → Prop
  | nil {above : Option NodeId} : Stacks above [] []
  | cons {above : Option NodeId} {node : Node} {frame : Frame} {stack : List Node}
      {frames : List Frame} (hid : frame.id = node.id)
      (hpending : List.Forall₂ Pictures node.pending frame.pending)
      (hdrawn : frame.drawn = node.drawn ++ above.toList)
      (hbelow : Stacks (some node.id) stack frames) :
      Stacks above (node :: stack) (frame :: frames)

/-- When the node on top is drawn, the node below it gets it as a child. -/
theorem Stacks.noteDrawn {id : NodeId} {stack : List Node} {frames : List Frame}
    (h : Stacks (some id) stack frames) :
    ∃ below, noteDrawn id stack = .ok below ∧ Stacks none below frames := by
  cases h with
  | nil => exact ⟨[], rfl, .nil⟩
  | cons hid hpending hdrawn hbelow =>
    refine ⟨_, rfl, .cons hid hpending ?_ hbelow⟩
    simpa using hdrawn

theorem paint_eq {index clock : Nat} {stack : List Node} {frames : List Frame}
    (h : Stacks none stack frames) (hclock : Frame.weight frames ≤ clock) :
    paint (clock + 1) index stack = .ok (Frame.draw index frames) := by
  -- Each round of the loop is a step of `Frame.draw`, after which the frames weigh less.
  fun_induction Frame.draw index frames generalizing clock stack
  case case1 index =>
    cases h
    rfl
  case case2 index id drawn below ih =>
    cases h with
    | @cons _ node _ stack _ hid hpending hdrawn hbelow =>
      obtain ⟨_, pending, drawn⟩ := node
      obtain rfl : id = _ := hid
      obtain rfl : pending = [] := List.forall₂_nil_right_iff.mp hpending
      obtain rfl : _ = drawn := by simpa using hdrawn
      simp only [Frame.weight] at hclock
      obtain ⟨clock, rfl⟩ : ∃ fewer, clock = fewer + 1 := ⟨clock - 1, by omega⟩
      obtain ⟨noted, hnoted, hstacks⟩ := hbelow.noteDrawn
      have hothers := ih hstacks (show Frame.weight below ≤ clock by omega)
      rw [paint]
      simp [top, hnoted, hothers, bind, Except.bind, pure, Except.pure]
  case case3 index id child pending drawn below childId ih =>
    cases h with
    | @cons _ node _ stack _ hid hpending hdrawn hbelow =>
      obtain ⟨_, nodes, drawn⟩ := node
      obtain rfl : id = _ := hid
      obtain ⟨tree, trees, hchild, htrees, rfl⟩ := List.forall₂_cons_right_iff.mp hpending
      obtain rfl : _ = drawn := by simpa using hdrawn
      simp only [Frame.weight, LabelTree.totalSize, LabelTree.size_eq child] at hclock
      obtain ⟨clock, rfl⟩ : ∃ fewer, clock = fewer + 1 := ⟨clock - 1, by omega⟩
      have hstacks : Stacks none
          (⟨childId, tree.children, []⟩ :: ⟨id, trees, drawn⟩ :: stack)
          (Frame.enter childId child :: ⟨id, pending, drawn ++ [childId]⟩ :: below) :=
        .cons rfl hchild.children rfl (.cons rfl htrees rfl hbelow)
      have hothers := @ih clock _ hstacks (by
        simp only [Frame.weight, Frame.enter]
        omega)
      rw [paint]
      simp [top, hchild.nodeLabel_eq, childId, hothers, bind, Except.bind, pure, Except.pure]

/-- A tree whose numbers are doubles is drawn to the end, and what is drawn is its
graph. -/
theorem draw_eq {tree : Expr} (h : tree.HoldsDoubles) (style : DotStyle) :
    ∃ graph, draw style tree = .ok graph ∧ tree.graph style = .ok graph := by
  obtain ⟨labels, hlabels, hpictures⟩ := pictures_of_holdsDoubles h
  have hstacks : Stacks none [⟨⟨labels.label, 0, 0⟩, tree.children, []⟩]
      [Frame.enter ⟨labels.label, 0, 0⟩ labels] := .cons rfl hpictures.children rfl .nil
  have hclock : 2 * nodeCount tree = 2 * LabelTree.totalSize labels.children + 1 + 1 := by
    rw [← hpictures.size_eq, LabelTree.size_eq]
    omega
  have hpaint := @paint_eq 1 (2 * LabelTree.totalSize labels.children + 1) _ _ hstacks (by
    simp only [Frame.weight, Frame.enter]
    omega)
  refine ⟨style.graph labels.statements, ?_, ?_⟩
  · rw [draw, hpictures.nodeLabel_eq, hclock]
    simp [hpaint, LabelTree.statements, bind, Except.bind, pure, Except.pure]
  · rw [Expr.graph, hlabels]
    rfl

end Stepwise

end LoxGraph
