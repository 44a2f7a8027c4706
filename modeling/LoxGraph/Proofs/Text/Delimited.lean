/-!
Written items that tell where they end.

Items are self-delimiting when they can be told from whatever follows them. Items that are read back
are (`selfDelimiting_of_read`), and so is a list of them with a mark behind it that none of them
begins with (`SelfDelimiting.flatMap_mark`).
-/

namespace LoxGraph

/-- Whether written items can be told from whatever follows them. -/
def SelfDelimiting {α : Type} (write : α → List Char) : Prop :=
  ∀ a b u v, write a ++ u = write b ++ v → a = b ∧ u = v

variable {α : Type} {write : α → List Char}

theorem selfDelimiting_of_read {read : List Char → Option (α × List Char)}
    (h : ∀ a u, read (write a ++ u) = some (a, u)) : SelfDelimiting write := by
  intro a b u v hsame
  have hread : some (a, u) = some (b, v) := by rw [← h, ← h, hsame]
  exact Prod.mk.inj (Option.some.inj hread)

/-- A list of items ends at the first mark that does not belong to an item. -/
theorem SelfDelimiting.flatMap_mark (h : SelfDelimiting write) {mark : Char}
    (hmark : ∀ a u v, write a ++ u ≠ mark :: v) :
    SelfDelimiting fun items : List α => items.flatMap write ++ [mark] := by
  intro as
  induction as with
  | nil =>
    intro bs u v hsame
    cases bs with
    | nil => simpa using hsame
    | cons b bs =>
      simp only [List.flatMap_nil, List.flatMap_cons, List.append_assoc] at hsame
      exact absurd hsame.symm (hmark _ _ _)
  | cons a as ih =>
    intro bs u v hsame
    cases bs with
    | nil =>
      simp only [List.flatMap_nil, List.flatMap_cons, List.append_assoc] at hsame
      exact absurd hsame (hmark _ _ _)
    | cons b bs =>
      simp only [List.flatMap_cons, List.append_assoc] at hsame
      obtain ⟨rfl, hrest⟩ := h a b _ _ hsame
      obtain ⟨rfl, hend⟩ := ih bs u v (by simpa using hrest)
      exact ⟨rfl, hend⟩

end LoxGraph
