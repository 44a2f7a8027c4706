import Mathlib.Data.List.FinRange
import Mathlib.Data.List.Forall2
import LoxGraph.Proofs.Expr.Accounting

/-!
A tree shows its tokens from left to right.

Reading a tree in order gives items: operators, parentheses and literals. Each of them is written
by a token of its own that the parse has taken, and the tokens come in the order of the items, so
that nothing is invented, doubled or moved (`Reads.traced`). Mistakes may leave tokens without an
item; where there are none, every token that was taken has one.
-/

namespace LoxGraph

/-- What a tree shows at a place when it is read in order. -/
inductive Item where
  | operator (t : Token)
  | opening
  | closing
  | literal (l : Literal)

/-- What a tree shows, from left to right. Error nodes show nothing. -/
def Expr.items : Expr → List Item
  | binary left operator right => left.items ++ .operator operator :: right.items
  | unary operator child => .operator operator :: child.items
  | grouping child => .opening :: (child.items ++ [.closing])
  | literal l => [.literal l]
  | error => []

/-- Whether a token writes an item. An operator is the token itself; a number and a string are
the value that the token carries. -/
def Item.WrittenBy : Item → Token → Prop
  | operator o, t => o = t
  | opening, t => t.kind = .leftParen
  | closing, t => t.kind = .rightParen
  | literal l, t => t.kind = l.kind ∧ (l.kind = .number ∨ l.kind = .string → t.literal = l.value)

instance (item : Item) (t : Token) : Decidable (item.WrittenBy t) :=
  match item with
  | .operator o => inferInstanceAs (Decidable (o = t))
  | .opening => inferInstanceAs (Decidable (t.kind = .leftParen))
  | .closing => inferInstanceAs (Decidable (t.kind = .rightParen))
  | .literal l =>
    inferInstanceAs (Decidable (t.kind = l.kind ∧
      (l.kind = .number ∨ l.kind = .string → t.literal = l.value)))

/-- Whether items are written in order by some of the tokens that were taken, and by all of them
unless there are mistakes. -/
def Traced (items : List Item) (taken : List Token) (errors : List SyntaxError) : Prop :=
  ∃ writing, List.Forall₂ Item.WrittenBy items writing ∧ writing.Sublist taken ∧
    (errors = [] → writing = taken)

namespace Traced

variable {items items' : List Item} {taken taken' : List Token} {errors errors' : List SyntaxError}

theorem nil : Traced [] [] [] := ⟨[], .nil, .slnil, fun _ => rfl⟩

theorem one {item : Item} {t : Token} (h : item.WrittenBy t) : Traced [item] [t] [] :=
  ⟨[t], .cons h .nil, List.Sublist.refl _, fun _ => rfl⟩

/-- Tokens that leave nothing in the tree come with a mistake. -/
theorem nothing (taken : List Token) (h : errors ≠ []) : Traced [] taken errors :=
  ⟨[], .nil, List.nil_sublist taken, fun hnone => absurd hnone h⟩

theorem append (h : Traced items taken errors) (h' : Traced items' taken' errors') :
    Traced (items ++ items') (taken ++ taken') (errors ++ errors') := by
  obtain ⟨writing, hwrites, hsub, hall⟩ := h
  obtain ⟨writing', hwrites', hsub', hall'⟩ := h'
  refine ⟨writing ++ writing', List.rel_append hwrites hwrites', hsub.append hsub', ?_⟩
  intro hnone
  obtain ⟨hfirst, hsecond⟩ := List.append_eq_nil_iff.mp hnone
  rw [hall hfirst, hall' hsecond]

theorem cons {item : Item} {t : Token} (h : item.WrittenBy t) (h' : Traced items taken errors) :
    Traced (item :: items) (t :: taken) errors :=
  (one h).append h'

end Traced

/-- What the tree that a part goes on with shows already. -/
def Part.itemsBefore : Part → List Item
  | .links _ left => left.items
  | .chain _ => []
  | .operand => []

theorem Level.itemsBefore_operandPart (level : Level) : level.operandPart.itemsBefore = [] := by
  cases level <;> rfl

/-- What is new in a tree is written by the tokens that were taken for it. -/
theorem Reads.traced {ending : Token} {budget : Nat} {part : Part} {tokens : List Token}
    {tree : Expr} {errors : List SyntaxError} {rest : List Token}
    (h : Reads ending budget part tokens (.done tree errors rest)) :
    ∃ taken items, tokens = taken ++ rest ∧ tree.items = part.itemsBefore ++ items ∧
      Traced items taken errors := by
  generalize houtcome : Outcome.done tree errors rest = outcome at h
  induction h generalizing tree errors rest with
  | chain first others ihFirst ihOthers =>
    obtain ⟨later, rfl, rfl⟩ := Outcome.after_eq_done.mp houtcome.symm
    obtain ⟨taken, items, rfl, hitems, hfirst⟩ := ihFirst rfl
    obtain ⟨taken', items', rfl, hitems', hothers⟩ := ihOthers rfl
    rw [Level.itemsBefore_operandPart, List.nil_append] at hitems
    subst hitems
    exact ⟨taken ++ taken', _, (List.append_assoc _ _ _).symm, hitems', hfirst.append hothers⟩
  | noLink stop =>
    cases houtcome
    exact ⟨[], [], rfl, (List.append_nil _).symm, .nil⟩
  | @link budget level left operator tokens right errors' rest' outcome here next others ihNext
      ihOthers =>
    obtain ⟨later, rfl, rfl⟩ := Outcome.after_eq_done.mp houtcome.symm
    obtain ⟨taken, items, rfl, hitems, hnext⟩ := ihNext rfl
    obtain ⟨taken', items', rfl, hitems', hothers⟩ := ihOthers rfl
    rw [Level.itemsBefore_operandPart, List.nil_append] at hitems
    subst hitems
    -- The operator and its right operand are new; the left operand was there before.
    refine ⟨operator :: (taken ++ taken'), .operator operator :: (right.items ++ items'),
      by simp, ?_, .cons rfl (hnext.append hothers)⟩
    simpa [Part.itemsBefore, Expr.items] using hitems'
  | nothing =>
    cases houtcome
    exact ⟨[], [], rfl, rfl, .nothing _ (by simp)⟩
  | @literal budget t rest' l here =>
    cases houtcome
    exact ⟨[t], _, rfl, rfl,
      .one ⟨Literal.kind_of_ofToken? here, fun hkind => (Literal.value_of_ofToken? here hkind).symm⟩⟩
  | @sign budget t tokens child errors' rest' here inner ih =>
    cases houtcome
    obtain ⟨taken, items, rfl, hitems, hinner⟩ := ih rfl
    obtain rfl : child.items = items := hitems
    exact ⟨t :: taken, _, rfl, rfl, .cons rfl hinner⟩
  | @group budget t tokens inside errors' close rest' here inner closed ih =>
    cases houtcome
    obtain ⟨taken, items, rfl, hitems, hinner⟩ := ih rfl
    obtain rfl : inside.items = items := hitems
    have hgroup : Traced (.opening :: (inside.items ++ [.closing])) (t :: (taken ++ [close]))
        (errors' ++ []) := .cons here (hinner.append (.one closed))
    rw [List.append_nil] at hgroup
    exact ⟨t :: (taken ++ [close]), _, by simp, rfl, hgroup⟩
  | @openGroup budget t tokens inside errors' rest' here inner unclosed ih =>
    cases houtcome
    obtain ⟨taken, -, rfl, -, -⟩ := ih rfl
    exact ⟨t :: taken, [], rfl, rfl, .nothing _ (by simp)⟩
  | @unexpected budget t rest' noLiteral noSign noGroup =>
    cases houtcome
    exact ⟨[t], [], rfl, rfl, .nothing _ (by simp)⟩
  | chainTooDeep | linkTooDeep | signTooDeep | groupTooDeep | pastLimit => cases houtcome

/-- Some elements of a list in their order, told by their places. -/
theorem exists_places_of_sublist {α : Type} {part whole : List α} (h : part.Sublist whole) :
    ∃ places : List (Fin whole.length), part = places.map (whole[·]) ∧ places.Pairwise (· < ·) ∧
      (part = whole → places = List.finRange whole.length) := by
  by_cases hwhole : part = whole
  · refine ⟨List.finRange whole.length, ?_, List.pairwise_lt_finRange _, fun _ => rfl⟩
    exact hwhole.trans (List.map_getElem_finRange whole).symm
  · obtain ⟨places, hpart, hrises⟩ := List.sublist_eq_map_getElem h
    exact ⟨places, hpart, hrises, fun hsame => absurd hsame hwhole⟩

/-- The tokens that write items have rising positions among those taken. -/
theorem Traced.exists_positions {items : List Item} {taken : List Token}
    {errors : List SyntaxError} (h : Traced items taken errors) (after : List Token) :
    ∃ positions : List Nat, positions.Pairwise (· < ·) ∧ (∀ i ∈ positions, i < taken.length) ∧
      List.Forall₂ (fun item i => ∃ t ∈ (taken ++ after)[i]?, item.WrittenBy t) items positions ∧
      (errors = [] → positions = List.range taken.length) := by
  obtain ⟨writing, hwrites, hsub, hall⟩ := h
  obtain ⟨places, rfl, hrises, hwhole⟩ := exists_places_of_sublist hsub
  refine ⟨places.map (·.val), List.pairwise_map.mpr hrises, ?_, ?_, ?_⟩
  · intro i hi
    obtain ⟨place, -, rfl⟩ := List.mem_map.mp hi
    exact place.isLt
  · rw [List.forall₂_map_right_iff] at hwrites ⊢
    refine hwrites.imp ?_
    intro item place hitem
    refine ⟨taken[place], ?_, hitem⟩
    rw [List.getElem?_append_left place.isLt]
    exact List.getElem?_eq_getElem place.isLt
  · intro hnone
    rw [hwhole (hall hnone), List.map_coe_finRange_eq_range]

/-- Whatever a list of tokens holds, the items of the tree that its first parse makes are written
by tokens at rising positions among those consumed, one token for each; by all of them if no
mistake was recorded. -/
theorem firstParse?_items {ts : List Token} (h : EndsInMark ts) (limit : Int) :
    ∃ tree session positions, firstParse? ts limit = some (tree, session) ∧
      positions.Pairwise (· < ·) ∧ (∀ i ∈ positions, i < session.consumed) ∧
      List.Forall₂ (fun item i => ∃ t ∈ ts[i]?, item.WrittenBy t) tree.items positions ∧
      (session.errors = [] → positions = List.range session.consumed) := by
  obtain ⟨stream, after, session, hts, hparse, herrors, hconsumed⟩ :=
    firstParse?_of_endsInMark h limit
  have hreads := Expr.reads_parse stream.ending limit.toNat stream.tokens
  generalize Expr.parse stream.ending limit.toNat stream.tokens = outcome at *
  cases outcome with
  | tooDeep errors rest =>
    refine ⟨.error, session, [], hparse, .nil, by simp, .nil, ?_⟩
    rw [herrors]
    exact fun hnone => absurd hnone hreads.errors_ne_nil_of_tooDeep
  | done tree errors rest =>
    obtain ⟨taken, items, htaken, hitems, htraced⟩ := hreads.traced
    obtain rfl : tree.items = items := hitems
    obtain ⟨positions, hrises, hbelow, hwritten, hall⟩ :=
      htraced.exists_positions (rest ++ stream.ending :: after)
    have hlength : session.consumed = taken.length := by
      rw [Outcome.rest_done, htaken, List.length_append] at hconsumed
      omega
    rw [← List.append_assoc, ← htaken, ← hts] at hwritten
    rw [← hlength] at hbelow hall
    rw [Outcome.errors_done] at herrors
    exact ⟨tree, session, positions, hparse, hrises, hbelow, hwritten, herrors ▸ hall⟩

/-- A group that holds a comma in place of an operand, then a group that nothing closes. -/
def brokenProduct : List Token :=
  [⟨.leftParen, "(", .none, 1⟩, ⟨.comma, ",", .none, 1⟩, ⟨.minus, "-", .none, 1⟩,
   ⟨.string, "\"a\"", .text "a", 1⟩, ⟨.rightParen, ")", .none, 1⟩, ⟨.star, "*", .none, 1⟩,
   ⟨.leftParen, "(", .none, 1⟩, ⟨.nilWord, "nil", .none, 2⟩, ⟨.semicolon, ";", .none, 2⟩,
   .endOfText 2]

/-- The tree of the product: a damaged factor, and nothing of the second group. -/
def brokenProductTree : Expr :=
  .binary (.grouping (.binary .error ⟨.minus, "-", .none, 1⟩ (.literal (.string (.text "a")))))
    ⟨.star, "*", .none, 1⟩ .error

/-- The comma, at the place 1, leaves nothing in the tree, and neither does the second group, which
begins at the place 6. -/
theorem brokenProduct_items : EndsInMark brokenProduct ∧
    ∃ session positions, firstParse? brokenProduct 50 = some (brokenProductTree, session) ∧
      session.consumed = 8 ∧ session.errors = [⟨⟨.comma, ",", .none, 1⟩, .expectedExpression⟩,
        ⟨⟨.semicolon, ";", .none, 2⟩, .expectedClosing⟩] ∧
      positions = [0, 2, 3, 4, 5] ∧
      List.Forall₂ (fun item i => ∃ t ∈ brokenProduct[i]?, item.WrittenBy t)
        brokenProductTree.items positions := by
  obtain ⟨tree, session, positions, hparse, hrises, hbelow, hwritten, -⟩ :=
    firstParse?_items (show EndsInMark brokenProduct by decide) 50
  have hread : firstParse? brokenProduct 50 = some (brokenProductTree,
      { ahead := [⟨.semicolon, ";", .none, 2⟩], ending := .endOfText 2, limit := 50, consumed := 8
        nesting := 0, errors := [⟨⟨.comma, ",", .none, 1⟩, .expectedExpression⟩,
          ⟨⟨.semicolon, ";", .none, 2⟩, .expectedClosing⟩] }) := by decide +kernel
  cases hparse.symm.trans hread
  refine ⟨by decide, _, positions, hread, rfl, rfl, ?_, hwritten⟩
  -- Each item but the parenthesis is written by one token alone, and that parenthesis stands
  -- before the sign.
  have hplaces : ∀ i < 8,
      ((∃ t ∈ brokenProduct[i]?, Item.opening.WrittenBy t) → i = 0 ∨ i = 6) ∧
      ((∃ t ∈ brokenProduct[i]?, (Item.operator ⟨.minus, "-", .none, 1⟩).WrittenBy t) → i = 2) ∧
      ((∃ t ∈ brokenProduct[i]?, (Item.literal (.string (.text "a"))).WrittenBy t) → i = 3) ∧
      ((∃ t ∈ brokenProduct[i]?, Item.closing.WrittenBy t) → i = 4) ∧
      ((∃ t ∈ brokenProduct[i]?, (Item.operator ⟨.star, "*", .none, 1⟩).WrittenBy t) → i = 5) := by
    decide
  rcases hwritten with _ | ⟨h₀, _ | ⟨h₁, _ | ⟨h₂, _ | ⟨h₃, _ | ⟨h₄, _ | _⟩⟩⟩⟩⟩
  simp only [List.mem_cons, List.not_mem_nil, or_false, forall_eq_or_imp, forall_eq] at hbelow
  obtain ⟨b₀, b₁, b₂, b₃, b₄⟩ := hbelow
  obtain rfl := (hplaces _ b₁).2.1 h₁
  obtain rfl := (hplaces _ b₂).2.2.1 h₂
  obtain rfl := (hplaces _ b₃).2.2.2.1 h₃
  obtain rfl := (hplaces _ b₄).2.2.2.2 h₄
  have hfirst := (List.pairwise_cons.mp hrises).1 2 (by simp)
  obtain rfl | rfl := (hplaces _ b₀).1 h₀
  · rfl
  · contradiction

end LoxGraph
