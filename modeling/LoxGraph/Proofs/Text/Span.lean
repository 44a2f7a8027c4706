/-!
The longest front of a list whose members all pass a test.

A list splits in one way only into members that pass and a rest whose first
member fails.
-/

namespace LoxGraph

variable {α : Type} {p : α → Bool} {front rest : List α}

theorem takeWhile_append_eq (hfront : ∀ x ∈ front, p x) (hrest : ∀ x ∈ rest.head?, p x = false) :
    (front ++ rest).takeWhile p = front := by
  rw [List.takeWhile_append_of_pos hfront]
  cases rest with
  | nil => simp
  | cons x rest => simp [hrest x rfl]

theorem dropWhile_append_eq (hfront : ∀ x ∈ front, p x) (hrest : ∀ x ∈ rest.head?, p x = false) :
    (front ++ rest).dropWhile p = rest := by
  rw [List.dropWhile_append_of_pos hfront]
  cases rest with
  | nil => rfl
  | cons x rest => simp [hrest x rfl]

theorem dropWhile_eq_nil (hfront : ∀ x ∈ front, p x) : front.dropWhile p = [] := by
  have hsplit : (front ++ []).dropWhile p = [] := dropWhile_append_eq hfront (by simp)
  simpa using hsplit

theorem takeWhile_passes (p : α → Bool) (l : List α) : ∀ x ∈ l.takeWhile p, p x :=
  List.all_eq_true.mp List.all_takeWhile

theorem head?_dropWhile_fails (p : α → Bool) (l : List α) :
    ∀ x ∈ (l.dropWhile p).head?, p x = false := by
  intro x hx
  have hnot := List.head?_dropWhile_not p l
  rw [Option.mem_def.mp hx] at hnot
  simpa using hnot

/-- A front whose members all pass is no longer than the longest one. -/
theorem length_le_takeWhile {l : List α} (hfront : ∀ x ∈ front, p x) (hstart : front <+: l) :
    front.length ≤ (l.takeWhile p).length := by
  obtain ⟨rest, rfl⟩ := hstart
  rw [List.takeWhile_append_of_pos hfront, List.length_append]
  exact Nat.le_add_right ..

/-- Two splittings of a list at the first member that fails are the same. -/
theorem split_unique {front' rest' : List α} (h : front ++ rest = front' ++ rest')
    (hfront : ∀ x ∈ front, p x) (hrest : ∀ x ∈ rest.head?, p x = false)
    (hfront' : ∀ x ∈ front', p x) (hrest' : ∀ x ∈ rest'.head?, p x = false) :
    front = front' ∧ rest = rest' := by
  constructor
  · rw [← takeWhile_append_eq hfront hrest, h, takeWhile_append_eq hfront' hrest']
  · rw [← dropWhile_append_eq hfront hrest, h, dropWhile_append_eq hfront' hrest']

/-- A front of a list goes on over a member of it or ends before that member. -/
theorem prefix_or_mem_of_prefix_append_cons {before after : List α} {a : α}
    (h : front <+: before ++ a :: after) : front <+: before ∨ a ∈ front := by
  rcases List.prefix_or_prefix_of_prefix h (List.prefix_append _ _) with hinside | ⟨more, rfl⟩
  · exact .inl hinside
  · cases more with
    | nil => exact .inl (by simp)
    | cons b more =>
      obtain ⟨rfl, -⟩ := List.cons_prefix_cons.mp ((List.prefix_append_right_inj before).mp h)
      exact .inr (by simp)

/-- A part of a list goes over a member of it or stands on one side of that member. -/
theorem infix_or_mem_of_infix_append_cons {part before after : List α} {a : α}
    (h : part <:+: before ++ a :: after) : part <:+: before ∨ a ∈ part ∨ part <:+: after := by
  induction before with
  | nil =>
    rcases List.infix_cons_iff.mp h with hstart | hinside
    · have hstart : part <+: [] ++ a :: after := hstart
      exact (prefix_or_mem_of_prefix_append_cons hstart).imp List.IsPrefix.isInfix .inl
    · exact .inr (.inr hinside)
  | cons b before ih =>
    rcases List.infix_cons_iff.mp h with hstart | hinside
    · have hstart : part <+: (b :: before) ++ a :: after := hstart
      exact (prefix_or_mem_of_prefix_append_cons hstart).imp List.IsPrefix.isInfix .inl
    · rcases ih hinside with hbefore | hbehind
      · exact .inl (List.infix_cons hbefore)
      · exact .inr hbehind

theorem bne_of_not_mem [BEq α] [LawfulBEq α] {a : α} (h : a ∉ front) : ∀ x ∈ front, x != a := by
  intro x hx
  simp only [bne_iff_ne, ne_eq]
  rintro rfl
  exact h hx

theorem not_mem_takeWhile_bne [BEq α] [LawfulBEq α] (a : α) (l : List α) :
    a ∉ l.takeWhile (· != a) := by
  intro hmem
  simpa using takeWhile_passes (· != a) l a hmem

end LoxGraph
