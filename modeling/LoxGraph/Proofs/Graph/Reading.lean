import LoxGraph.Graph.Dot
import LoxGraph.Proofs.Text.Delimited

/-!
The text of a graph can be read back.

Escaping leaves no bare double quote in a label, so a quoted label ends where it
seems to end. Identifiers are read from the right, where depth and index stand
behind underscores, since a label may hold underscores and digits too. From
there on statements delimit themselves, and the text of a graph determines its
statements whatever its labels, its name and its indentation are
(`DotStyle.graph_inj`).
-/

namespace LoxGraph

theorem escapeLabelChar_selfDelimiting : SelfDelimiting escapeLabelChar := by
  intro c d u v h
  unfold escapeLabelChar at h
  grind

theorem escapeLabelChar_append_ne_quote (c : Char) (u v : List Char) :
    escapeLabelChar c ++ u ≠ '"' :: v := by
  unfold escapeLabelChar
  grind

theorem escapeLabelChar_of_isDigit {c : Char} (h : c.isDigit) : escapeLabelChar c = [c] := by
  unfold escapeLabelChar
  rw [if_neg, if_neg, if_neg]
  all_goals
    rintro rfl
    exact absurd h (by decide)

/-- A label between double quotes ends at the first bare one. -/
theorem escaped_selfDelimiting :
    SelfDelimiting fun label : List Char => label.flatMap escapeLabelChar ++ ['"'] :=
  escapeLabelChar_selfDelimiting.flatMap_mark escapeLabelChar_append_ne_quote

/-- Labels are escaped character by character, which is as good as three passes
over the whole label when the backslashes are taken first. -/
theorem escapeLabel_eq_passes (label : String) :
    (escapeLabel label).toList =
      ((label.toList.flatMap fun c => if c = '\\' then ['\\', '\\'] else [c]).flatMap
        fun c => if c = '"' then ['\\', '"'] else [c]).flatMap
        fun c => if c = '\n' then ['\\', 'n'] else [c] := by
  rw [escapeLabel, String.toList_ofList]
  induction label.toList with
  | nil => rfl
  | cons c cs ih =>
    simp only [List.flatMap_cons, List.flatMap_append, ih]
    congr 1
    unfold escapeLabelChar
    grind

namespace NodeId

/-- What an identifier says before it is escaped. -/
def content (id : NodeId) : List Char :=
  id.label.toList ++
    '_' :: (Nat.toDigits 10 id.depth ++ '_' :: Nat.toDigits 10 id.index)

private theorem escape_plain {cs : List Char} (h : ∀ c ∈ cs, escapeLabelChar c = [c]) :
    cs.flatMap escapeLabelChar = cs := by
  induction cs with
  | nil => rfl
  | cons c cs ih =>
    have hrest := ih fun d hd => h d (List.mem_cons_of_mem c hd)
    rw [List.flatMap_cons, h c List.mem_cons_self, hrest, List.singleton_append]

private theorem escape_digits (n : Nat) :
    (Nat.toDigits 10 n).flatMap escapeLabelChar = Nat.toDigits 10 n := by
  apply escape_plain
  intro c hc
  exact escapeLabelChar_of_isDigit (Nat.isDigit_of_mem_toDigits (by decide) (by decide) hc)

/-- Neither underscores nor digits are escaped, so an identifier is escaped as a whole. -/
theorem text_toList (id : NodeId) :
    id.text.toList = '"' :: (id.content.flatMap escapeLabelChar ++ ['"']) := by
  have hunderscore : escapeLabelChar '_' = ['_'] := by decide
  simp [text, content, escapeLabel, Nat.toString_eq_repr, escape_digits, hunderscore]

/-- Two texts with an underscore are equal just when they are equal before and
after the last one. -/
private theorem append_underscore_inj {a b c d : List Char} (hc : '_' ∉ c) (hd : '_' ∉ d)
    (h : a ++ '_' :: c = b ++ '_' :: d) : a = b ∧ c = d := by
  rcases List.append_eq_append_iff.mp h with ⟨between, rfl, hrest⟩ | ⟨between, rfl, hrest⟩
  · cases between with
    | nil => simpa using hrest
    | cons e between =>
      obtain ⟨-, rfl⟩ := List.cons.inj hrest
      simp at hc
  · cases between with
    | nil => simpa using hrest.symm
    | cons e between =>
      obtain ⟨-, rfl⟩ := List.cons.inj hrest
      simp at hd

private theorem toDigits_injective {m n : Nat} (h : Nat.toDigits 10 m = Nat.toDigits 10 n) :
    m = n := by
  rw [← Nat.ofDigitChars_ten_toDigits (n := m), h, Nat.ofDigitChars_ten_toDigits]

theorem content_injective {a b : NodeId} (h : a.content = b.content) : a = b := by
  obtain ⟨label, depth, index⟩ := a
  obtain ⟨label', depth', index'⟩ := b
  have hsplit (l : String) (d i : Nat) : content ⟨l, d, i⟩ =
      (l.toList ++ '_' :: Nat.toDigits 10 d) ++ '_' :: Nat.toDigits 10 i := by
    simp [content]
  rw [hsplit, hsplit] at h
  have hplain := @Nat.underscore_not_in_toDigits
  obtain ⟨hfront, hindex⟩ := append_underscore_inj hplain hplain h
  obtain ⟨hlabel, hdepth⟩ := append_underscore_inj hplain hplain hfront
  rw [String.toList_injective hlabel, toDigits_injective hdepth, toDigits_injective hindex]

theorem text_selfDelimiting : SelfDelimiting fun id : NodeId => id.text.toList := by
  intro a b u v h
  simp only [text_toList, List.cons_append, List.cons.injEq, true_and] at h
  obtain ⟨hcontent, hrest⟩ := escaped_selfDelimiting a.content b.content u v h
  exact ⟨content_injective hcontent, hrest⟩

theorem text_injective : Function.Injective text := by
  intro a b h
  obtain ⟨hid, -⟩ := text_selfDelimiting a b [] [] (by simp only [h])
  exact hid

end NodeId

theorem Statement.text_selfDelimiting : SelfDelimiting fun s : Statement => s.text.toList := by
  intro a b u v h
  cases a with
  | node id =>
    cases b with
    | node id' =>
      simp only [text, String.toList_append, List.append_assoc] at h
      obtain ⟨rfl, hrest⟩ := NodeId.text_selfDelimiting id id' _ _ h
      exact ⟨rfl, by simpa using hrest⟩
    | edge source target =>
      simp only [text, String.toList_append, List.append_assoc] at h
      have hrest := (NodeId.text_selfDelimiting id source _ _ h).2
      simp at hrest
  | edge source target =>
    cases b with
    | node id =>
      simp only [text, String.toList_append, List.append_assoc] at h
      have hrest := (NodeId.text_selfDelimiting source id _ _ h).2
      simp at hrest
    | edge source' target' =>
      simp only [text, String.toList_append, List.append_assoc] at h
      obtain ⟨rfl, hrest⟩ := NodeId.text_selfDelimiting source source' _ _ h
      have htarget := List.append_cancel_left hrest
      obtain ⟨rfl, hend⟩ := NodeId.text_selfDelimiting target target' _ _ htarget
      exact ⟨rfl, List.append_cancel_left hend⟩

namespace DotStyle

/-- A statement on a line of its own. -/
def line (style : DotStyle) (s : Statement) : List Char :=
  style.indent.toList ++ (s.text.toList ++ ['
'])

theorem line_selfDelimiting (style : DotStyle) : SelfDelimiting style.line := by
  intro a b u v h
  simp only [line, List.append_assoc] at h
  obtain ⟨rfl, hrest⟩ := Statement.text_selfDelimiting a b _ _ (List.append_cancel_left h)
  exact ⟨rfl, List.append_cancel_left hrest⟩

/-- Lines come to an end before any text that is too short to hold one more. -/
theorem lines_inj (style : DotStyle) {a b : List Statement} {closing : List Char}
    (h : a.flatMap style.line ++ closing = b.flatMap style.line ++ closing) : a = b := by
  induction a generalizing b with
  | nil =>
    cases b with
    | nil => rfl
    | cons s b =>
      have hlength := congrArg List.length h
      simp [line] at hlength
      omega
  | cons s a ih =>
    cases b with
    | nil =>
      have hlength := congrArg List.length h
      simp [line] at hlength
      omega
    | cons s' b =>
      simp only [List.flatMap_cons, List.append_assoc] at h
      obtain ⟨rfl, hrest⟩ := line_selfDelimiting style s s' _ _ h
      rw [ih hrest]

theorem graph_toList (style : DotStyle) (statements : List Statement) :
    (style.graph statements).toList =
      ("digraph " ++ style.name ++ " \x7b\n").toList ++
        (statements.flatMap style.line ++ "\x7d\n".toList) := by
  have hlines : (statements.map fun s => style.indent ++ s.text ++ "\n").flatMap String.toList =
      statements.flatMap style.line := by
    have hline (s : Statement) :
        (style.indent ++ s.text ++ "\n").toList = style.line s := by simp [line]
    rw [List.flatMap_map]
    simp only [hline]
  simp [graph, String.toList_join, hlines]

/-- The text of a graph determines its statements. -/
theorem graph_inj (style : DotStyle) {a b : List Statement} :
    style.graph a = style.graph b ↔ a = b := by
  constructor
  · intro h
    have hchars := congrArg String.toList h
    rw [graph_toList, graph_toList] at hchars
    exact lines_inj style (List.append_cancel_left hchars)
  · rintro rfl
    rfl

end DotStyle

end LoxGraph
