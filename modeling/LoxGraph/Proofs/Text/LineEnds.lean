import LoxGraph.Lexeme.Basic

/-!
Texts with short line ends.

A line may end with a carriage return and a line feed, or with the line feed alone. A text is given
short line ends in one pass (`shortLineEnds`), which leaves its line feeds as many as they are. What
stands on both sides of a place is shortened on its own, unless a line feed follows the place.
-/

namespace LoxGraph

/-- A text in which a line feed alone stands for a carriage return and a line feed. -/
def shortLineEnds : List Char → List Char
  | '\r' :: '\n' :: cs => '\n' :: shortLineEnds cs
  | c :: cs => c :: shortLineEnds cs
  | [] => []

variable {cs ds : List Char}

theorem shortLineEnds_cons {c : Char} (h : c = '\r' → '\n' ∉ cs.head?) :
    shortLineEnds (c :: cs) = c :: shortLineEnds cs := by
  rw [shortLineEnds]
  rintro cs rfl rfl
  exact h rfl rfl

theorem shortLineEnds_append (h : '\n' ∉ ds.head?) :
    shortLineEnds (cs ++ ds) = shortLineEnds cs ++ shortLineEnds ds := by
  fun_induction shortLineEnds cs with
  | case1 cs ih => simp [shortLineEnds, ih]
  | case2 c cs hpair ih =>
    rw [List.cons_append, List.cons_append, ← ih]
    apply shortLineEnds_cons
    rintro rfl hfeed
    cases cs with
    | nil => exact h hfeed
    | cons d cs => exact hpair cs rfl (by rw [Option.mem_some_iff.mp hfeed])
  | case3 => rfl

theorem shortLineEnds_append_of_not_mem (h : '\r' ∉ cs) :
    shortLineEnds (cs ++ ds) = cs ++ shortLineEnds ds := by
  induction cs with
  | nil => rfl
  | cons c cs ih =>
    obtain ⟨hc, hcs⟩ := List.ne_and_not_mem_of_not_mem_cons h
    rw [List.cons_append, shortLineEnds_cons fun hreturn => absurd hreturn.symm hc, ih hcs]
    rfl

theorem shortLineEnds_eq_self (h : '\r' ∉ cs) : shortLineEnds cs = cs := by
  simpa [shortLineEnds] using @shortLineEnds_append_of_not_mem cs [] h

/-- Only line ends are changed. -/
theorem pair_infix_of_shortLineEnds_ne (h : shortLineEnds cs ≠ cs) : ['\r', '\n'] <:+: cs := by
  fun_induction shortLineEnds cs with
  | case1 cs ih => exact ⟨[], cs, rfl⟩
  | case2 c cs hpair ih => exact List.infix_cons (ih fun hsame => h (by rw [hsame]))
  | case3 => exact absurd rfl h

theorem shortLineEnds_sublist (cs : List Char) : (shortLineEnds cs).Sublist cs := by
  fun_induction shortLineEnds cs with
  | case1 cs ih => exact (ih.cons_cons '\n').cons '\r'
  | case2 c cs hpair ih => exact ih.cons_cons c
  | case3 => exact .slnil

theorem count_shortLineEnds (cs : List Char) : (shortLineEnds cs).count '\n' = cs.count '\n' := by
  fun_induction shortLineEnds cs with
  | case1 cs ih => simp [ih]
  | case2 c cs hpair ih => simp [List.count_cons, ih]
  | case3 => rfl

/-- A line is shortened up to its line feed. -/
theorem shortLineEnds_lineFeed {line : List Char} (h : '\n' ∉ line) : ∃ line', '\n' ∉ line' ∧
    ∀ rest, shortLineEnds (line ++ '\n' :: rest) = line' ++ '\n' :: shortLineEnds rest := by
  induction line with
  | nil => exact ⟨[], h, fun rest => rfl⟩
  | cons c line ih =>
    obtain ⟨hc, hline⟩ := List.ne_and_not_mem_of_not_mem_cons h
    obtain ⟨line', hline', hshort⟩ := ih hline
    by_cases hpair : c = '\r' ∧ line = []
    · obtain ⟨rfl, rfl⟩ := hpair
      exact ⟨[], List.not_mem_nil, fun rest => rfl⟩
    · refine ⟨c :: line', List.not_mem_cons_of_ne_of_not_mem hc hline', fun rest => ?_⟩
      rw [List.cons_append, List.cons_append, ← hshort]
      apply shortLineEnds_cons
      rintro rfl hfeed
      cases line with
      | nil => exact hpair ⟨rfl, rfl⟩
      | cons d line => exact hline (by rw [Option.mem_some_iff.mp hfeed]; exact List.mem_cons_self)

/-- What has no blanks in it stands at the front of a text if it does when line ends are short. -/
theorem prefix_of_prefix_shortLineEnds {front : List Char} (hfront : ∀ c ∈ front, isBlank c = false)
    (h : front <+: shortLineEnds cs) : front <+: cs := by
  fun_induction shortLineEnds cs generalizing front with
  | case1 cs ih =>
    cases front with
    | nil => exact List.nil_prefix
    | cons d front =>
      obtain ⟨rfl, -⟩ := List.cons_prefix_cons.mp h
      exact absurd (hfront _ List.mem_cons_self) (by decide)
  | case2 c cs hpair ih =>
    cases front with
    | nil => exact List.nil_prefix
    | cons d front =>
      obtain ⟨hd, hprefix⟩ := List.cons_prefix_cons.mp h
      obtain ⟨-, hothers⟩ := List.forall_mem_cons.mp hfront
      exact List.cons_prefix_cons.mpr ⟨hd, ih hothers hprefix⟩
  | case3 => exact h

end LoxGraph
