import LoxGraph.Proofs.Text.Span
import LoxGraph.Text.Lines

/-!
How a text is made of lines.

Every text is lines (`inLines_splitLines`), and in one way only (`InLines.splitLines_eq`). The
lines of a text behind another one come behind its lines, unless the last of these goes on
(`InLines.append`), and the first lines of a text are the lines of a shorter one (`InLines.take`).
-/

namespace LoxGraph

/-- The lines that a text is made of. Each ends with its only line feed, but the last one may
have none. -/
inductive InLines : List Char → List (List Char) → Prop
  | ended : InLines [] []
  | last {line : List Char} (nonempty : line ≠ []) (inside : '\n' ∉ line) : InLines line [line]
  | line {line rest : List Char} {lines : List (List Char)} (inside : '\n' ∉ line)
      (others : InLines rest lines) :
      InLines (line ++ '\n' :: rest) ((line ++ ['\n']) :: lines)

/-- Whether what stands behind a text begins a line. -/
def EndsLine (cs : List Char) : Prop := ∀ c ∈ cs.getLast?, c = '\n'

/-- How many characters the first line of a text has: those up to the first line feed, which
belongs to the line. -/
def frontLength (text : List Char) : Nat := (text.takeWhile (· != '\n')).length + 1

theorem splitLines_line {line : List Char} (h : '\n' ∉ line) (rest : List Char) :
    splitLines (line ++ '\n' :: rest) = (line ++ ['\n']) :: splitLines rest := by
  induction line with
  | nil => simp [splitLines]
  | cons c line ih =>
    obtain ⟨hc, hline⟩ := List.ne_and_not_mem_of_not_mem_cons h
    rw [List.cons_append, splitLines, if_neg hc.symm, ih hline]
    rfl

theorem splitLines_last {line : List Char} (hne : line ≠ []) (h : '\n' ∉ line) :
    splitLines line = [line] := by
  induction line with
  | nil => exact absurd rfl hne
  | cons c line ih =>
    obtain ⟨hc, hline⟩ := List.ne_and_not_mem_of_not_mem_cons h
    rw [splitLines, if_neg hc.symm]
    cases line with
    | nil => rfl
    | cons c' line => rw [ih (List.cons_ne_nil _ _) hline]

namespace InLines

variable {text text' : List Char} {lines lines' : List (List Char)}

theorem splitLines_eq (h : InLines text lines) : splitLines text = lines := by
  induction h with
  | ended => rfl
  | last nonempty inside => exact splitLines_last nonempty inside
  | line inside others ih => rw [splitLines_line inside, ih]

theorem flatten_eq (h : InLines text lines) : lines.flatten = text := by
  rw [← h.splitLines_eq, flatten_splitLines]

theorem take_front {line : List Char} (h : InLines text (line :: lines)) :
    text.take (frontLength text) = line ∧ InLines (text.drop (frontLength text)) lines ∧
      line ≠ [] := by
  cases h with
  | last nonempty inside =>
    have hwhole : text.length ≤ frontLength text := Nat.le_succ_of_le
      (length_le_takeWhile (bne_of_not_mem inside) (List.prefix_refl text))
    refine ⟨List.take_of_length_le hwhole, ?_, nonempty⟩
    rw [List.drop_eq_nil_of_le hwhole]
    exact .ended
  | @line line rest _ inside others =>
    have hfront : frontLength (line ++ '\n' :: rest) = line.length + 1 := by
      rw [frontLength, takeWhile_append_eq (bne_of_not_mem inside) (by simp)]
    rw [hfront, List.take_length_add_append, List.drop_length_add_append]
    exact ⟨rfl, others, by simp⟩

theorem append (h : InLines text lines) (hends : EndsLine text) (h' : InLines text' lines') :
    InLines (text ++ text') (lines ++ lines') := by
  induction h with
  | ended => exact h'
  | @last line nonempty inside =>
    -- A last line without a line feed would go on.
    have hlast := hends _ (List.getLast_mem_getLast? nonempty)
    exact absurd (hlast ▸ List.getLast_mem nonempty) inside
  | @line line rest lines inside others ih =>
    have hrest : EndsLine rest := by
      intro c hc
      refine hends c ?_
      rw [List.getLast?_append, List.getLast?_cons, Option.mem_def.mp hc]
      rfl
    rw [List.append_assoc]
    exact .line inside (ih hrest)

theorem take (h : InLines text lines) (n : Nat) : InLines (lines.take n).flatten (lines.take n) := by
  induction h generalizing n with
  | ended =>
    rw [List.take_nil]
    exact .ended
  | last nonempty inside =>
    cases n with
    | zero => exact .ended
    | succ n => simpa using .last nonempty inside
  | line inside others ih =>
    cases n with
    | zero => exact .ended
    | succ n => simpa using .line inside (ih n)

end InLines

theorem inLines_splitLines (text : List Char) : InLines text (splitLines text) := by
  induction text with
  | nil => exact .ended
  | cons c text ih =>
    rw [splitLines]
    split
    · rename_i hc
      rw [hc]
      exact .line List.not_mem_nil ih
    · rename_i hc
      have hcs {cs : List Char} : '\n' ∉ cs → '\n' ∉ c :: cs :=
        List.not_mem_cons_of_ne_of_not_mem (Ne.symm hc)
      split
      · rename_i hnone
        rw [hnone] at ih
        cases ih
        exact .last (List.cons_ne_nil _ _) (hcs List.not_mem_nil)
      · rename_i line lines hsome
        rw [hsome] at ih
        clear hsome
        -- The character belongs to the first line of what follows.
        cases ih with
        | last nonempty inside => exact .last (List.cons_ne_nil _ _) (hcs inside)
        | line inside others => exact .line (hcs inside) others

end LoxGraph
