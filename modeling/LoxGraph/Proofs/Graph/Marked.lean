import LoxGraph.Proofs.Expr.Accounting
import LoxGraph.Proofs.Graph.Drawn
import LoxGraph.Proofs.Graph.Scanned
import LoxGraph.Proofs.Text.Span

/-!
Error labels in the text of a graph.

The text of a graph sets a label just where a node statement does, whatever other labels look
like (`DotStyle.labelAttribute_infix_iff`). Of a tree that is parsed from a text, only error
nodes are labelled as such. So the error label stands in the graph of a text exactly if a
mistake is reported (`Expr.parse_errorLabel_infix_iff`).
-/

namespace LoxGraph

/-- How the statement of a node sets its label. -/
def labelAttribute (label : String) : String := "[label=\"" ++ escapeLabel label ++ "\"]"

theorem labelAttribute_toList (label : String) : (labelAttribute label).toList =
    "[label=".toList ++ '"' :: (label.toList.flatMap escapeLabelChar ++ ['"', ']']) := by
  simp [labelAttribute, escapeLabel]

section Quotes

variable {left right after : List Char}

/-- A quote behind plain text is the one that follows the text, or stands behind that one. -/
theorem quote_behind_plain {plain : List Char} (hplain : '"' ∉ plain)
    (h : left ++ '"' :: right = plain ++ '"' :: after) :
    (left = plain ∧ right = after) ∨
      ∃ more, left = plain ++ '"' :: more ∧ more ++ '"' :: right = after := by
  rcases List.append_eq_append_iff.mp h with ⟨more, rfl, hmore⟩ | ⟨more, rfl, hmore⟩
  · cases more with
    | nil => exact .inl ⟨by simp, by simpa using hmore⟩
    | cons c more =>
      obtain ⟨rfl, -⟩ := List.cons.inj hmore
      simp at hplain
  · cases more with
    | nil => exact .inl ⟨by simp, by simpa using hmore.symm⟩
    | cons c more =>
      obtain ⟨rfl, hafter⟩ := List.cons.inj hmore
      exact .inr ⟨more, rfl, hafter.symm⟩

/-- A character is escaped by itself or by a backslash before another one. -/
theorem escapeLabelChar_cases (c : Char) :
    (escapeLabelChar c = [c] ∧ c ≠ '"') ∨ ∃ d, escapeLabelChar c = ['\\', d] := by
  unfold escapeLabelChar
  grind

/-- A quote behind an escaped text is the one that closes it or stands behind that one, unless
there is a backslash before it. -/
theorem quote_behind_escaped {body : List Char} (hleft : left.getLast? ≠ some '\\')
    (h : left ++ '"' :: right = body.flatMap escapeLabelChar ++ '"' :: after) :
    (left = body.flatMap escapeLabelChar ∧ right = after) ∨
      ∃ more, left = body.flatMap escapeLabelChar ++ '"' :: more ∧
        more ++ '"' :: right = after := by
  induction body generalizing left with
  | nil => exact quote_behind_plain List.not_mem_nil h
  | cons c body ih =>
    rw [List.flatMap_cons, List.append_assoc] at h
    have hfront : ∃ behind, left = escapeLabelChar c ++ behind ∧ behind.getLast? ≠ some '\\' := by
      rcases escapeLabelChar_cases c with ⟨hchar, hc⟩ | ⟨d, hchar⟩
      · rw [hchar] at h ⊢
        cases left with
        | nil => exact absurd (List.cons.inj h).1.symm hc
        | cons e left =>
          obtain ⟨rfl, -⟩ := List.cons.inj h
          exact ⟨left, rfl, fun hlast => hleft (by simp [List.getLast?_cons, hlast])⟩
      · rw [hchar] at h ⊢
        -- A backslash alone cannot be all that is left of the quote.
        rcases left with _ | ⟨e, _ | ⟨e', left⟩⟩
        · exact absurd (List.cons.inj h).1 (by decide)
        · obtain ⟨rfl, -⟩ := List.cons.inj h
          exact absurd rfl hleft
        · obtain ⟨rfl, hbehind⟩ := List.cons.inj h
          obtain ⟨rfl, -⟩ := List.cons.inj hbehind
          exact ⟨left, rfl, fun hlast => hleft (by simp [List.getLast?_cons, hlast])⟩
    obtain ⟨behind, rfl, hbehind⟩ := hfront
    rw [List.append_assoc] at h
    rw [List.flatMap_cons]
    rcases ih hbehind (List.append_cancel_left h) with ⟨rfl, hright⟩ | ⟨more, rfl, hmore⟩
    · exact .inl ⟨rfl, hright⟩
    · exact .inr ⟨more, (List.append_assoc ..).symm, hmore⟩

theorem getLast?_behind_quote (h : (left ++ '"' :: right).getLast? = some '=') :
    right.getLast? = some '=' := by
  cases right with
  | nil => simp at h
  | cons c right => simpa using h

end Quotes

/-- An identifier ends with a digit. -/
theorem NodeId.getLast?_content_ne (id : NodeId) :
    (id.content.flatMap escapeLabelChar).getLast? ≠ some '=' := by
  rcases List.eq_nil_or_concat' (Nat.toDigits 10 id.index) with hnil | ⟨digits, d, hdigits⟩
  · exact absurd hnil Nat.toDigits_ne_nil
  have hmem : d ∈ Nat.toDigits 10 id.index := by
    rw [hdigits]
    exact List.mem_concat_self
  have hdigit : d.isDigit := Nat.isDigit_of_mem_toDigits (by decide) (by decide) hmem
  have hcontent : id.content =
      id.label.toList ++ '_' :: (Nat.toDigits 10 id.depth ++ '_' :: digits) ++ [d] := by
    simp [content, hdigits]
  rw [hcontent, List.flatMap_append, List.flatMap_singleton, escapeLabelChar_of_isDigit hdigit,
    List.getLast?_append]
  intro heq
  obtain rfl : d = '=' := by simpa using heq
  exact absurd hdigit (by decide)

/-- In a line with an identifier and another quoted text only the second one can be set as a
label. -/
theorem labelAttribute_in_line {label : String} {id : NodeId}
    {before after indent between behind second : List Char} (hindent : '"' ∉ indent)
    (hend : indent.getLast? ≠ some '=') (hbetween : '"' ∉ between) (hbehind : '"' ∉ behind)
    (h : before ++ (labelAttribute label).toList ++ after = indent ++ (id.text.toList ++
      (between ++ '"' :: (second.flatMap escapeLabelChar ++ '"' :: behind)))) :
    between.getLast? = some '=' ∧ label.toList = second := by
  -- The first quote of the attribute is one of the four quotes of the line; what stands before
  -- it tells which one.
  have hlast : (before ++ "[label=".toList).getLast? = some '=' := by simp
  have hsplit : (before ++ "[label=".toList) ++
      '"' :: (label.toList.flatMap escapeLabelChar ++ ['"', ']'] ++ after) =
        indent ++ '"' :: (id.content.flatMap escapeLabelChar ++
          '"' :: (between ++ '"' :: (second.flatMap escapeLabelChar ++ '"' :: behind))) := by
    simpa [labelAttribute_toList, NodeId.text_toList] using h
  generalize before ++ "[label=".toList = left at hlast hsplit
  rcases quote_behind_plain hindent hsplit with ⟨rfl, -⟩ | ⟨inIdentifier, rfl, hfirst⟩
  · exact absurd hlast hend
  have hlast₁ := getLast?_behind_quote hlast
  rcases quote_behind_escaped (by simp [hlast₁]) hfirst with ⟨rfl, -⟩ | ⟨inBetween, rfl, hsecond⟩
  · exact absurd hlast₁ id.getLast?_content_ne
  have hlast₂ := getLast?_behind_quote hlast₁
  rcases quote_behind_plain hbetween hsecond with ⟨rfl, hlabel⟩ | ⟨inLabel, rfl, hthird⟩
  · refine ⟨hlast₂, ?_⟩
    exact (escaped_selfDelimiting _ _ (']' :: after) behind (by simpa using hlabel)).1
  have hlast₃ := getLast?_behind_quote hlast₂
  rcases quote_behind_escaped (by simp [hlast₃]) hthird with ⟨-, rfl⟩ | ⟨more, -, rfl⟩
  · simp at hbehind
  · simp at hbehind

/-- A line of a graph sets the label of the node that it declares, and no other one. -/
theorem Statement.labelAttribute_infix_iff {label : String} {s : Statement} :
    (labelAttribute label).toList <:+: DotStyle.plain.indent.toList ++ s.text.toList ↔
      ∃ id, s = .node id ∧ id.label = label := by
  constructor
  · rintro ⟨before, after, h⟩
    cases s with
    | node id =>
      have hline : before ++ (labelAttribute label).toList ++ after =
          DotStyle.plain.indent.toList ++ (id.text.toList ++ (" [label=".toList ++
            '"' :: (id.label.toList.flatMap escapeLabelChar ++ '"' :: "];".toList))) :=
        h.trans (by simp [text, escapeLabel])
      obtain ⟨-, hlabel⟩ :=
        labelAttribute_in_line (by decide) (by decide) (by decide) (by decide) hline
      exact ⟨id, rfl, (String.toList_injective hlabel).symm⟩
    | edge source target =>
      have hline : before ++ (labelAttribute label).toList ++ after =
          DotStyle.plain.indent.toList ++ (source.text.toList ++ (" -> ".toList ++
            '"' :: (target.content.flatMap escapeLabelChar ++ '"' :: ";".toList))) :=
        h.trans (by simp [text, NodeId.text_toList])
      obtain ⟨hlast, -⟩ :=
        labelAttribute_in_line (by decide) (by decide) (by decide) (by decide) hline
      exact absurd hlast (by decide)
  · rintro ⟨id, rfl, rfl⟩
    exact ⟨DotStyle.plain.indent.toList ++ (id.text.toList ++ [' ']), [';'], by
      simp [text, labelAttribute]⟩

theorem not_mem_labelAttribute (label : String) : '\n' ∉ (labelAttribute label).toList := by
  have hescaped (c : Char) : '\n' ∉ escapeLabelChar c := by
    unfold escapeLabelChar
    grind
  rw [labelAttribute_toList]
  simp [hescaped]

namespace DotStyle

/-- What stands in the lines of some statements stands in one of them, if it has no line feed. -/
theorem exists_infix_of_lines (style : DotStyle) {part closing : List Char} (hpart : '\n' ∉ part)
    {statements : List Statement} (h : part <:+: statements.flatMap style.line ++ closing) :
    (∃ s ∈ statements, part <:+: style.indent.toList ++ s.text.toList) ∨ part <:+: closing := by
  induction statements with
  | nil => exact .inr h
  | cons s statements ih =>
    have hsplit : (s :: statements).flatMap style.line ++ closing =
        (style.indent.toList ++ s.text.toList) ++
          '\n' :: (statements.flatMap style.line ++ closing) := by
      simp [line]
    rw [hsplit] at h
    rcases infix_or_mem_of_infix_append_cons h with hline | hmem | hrest
    · exact .inl ⟨s, List.mem_cons_self, hline⟩
    · exact absurd hmem hpart
    · rcases ih hrest with ⟨s', hs', hline⟩ | hclosing
      · exact .inl ⟨s', List.mem_cons_of_mem s hs', hline⟩
      · exact .inr hclosing

theorem infix_graph (style : DotStyle) {s : Statement} {statements : List Statement}
    (h : s ∈ statements) :
    style.indent.toList ++ s.text.toList <:+: (style.graph statements).toList := by
  obtain ⟨before, after, rfl⟩ := List.append_of_mem h
  rw [graph_toList]
  exact ⟨("digraph " ++ style.name ++ " \x7b\n").toList ++ before.flatMap style.line,
    '\n' :: (after.flatMap style.line ++ "\x7d\n".toList), by simp [line]⟩

/-- The text of a graph sets a label just where one of its statements does. -/
theorem labelAttribute_infix_iff {label : String} {statements : List Statement} :
    (labelAttribute label).toList <:+: (plain.graph statements).toList ↔
      ∃ id, .node id ∈ statements ∧ id.label = label := by
  constructor
  · intro h
    have hquote : '"' ∈ (labelAttribute label).toList := by simp [labelAttribute_toList]
    have hplain {text : List Char} (htext : '"' ∉ text) :
        ¬(labelAttribute label).toList <:+: text := fun hpart => htext (hpart.subset hquote)
    have hsplit : (plain.graph statements).toList = "digraph G \x7b".toList ++
        '\n' :: (statements.flatMap plain.line ++ "\x7d\n".toList) := by
      rw [graph_toList]
      rfl
    rw [hsplit] at h
    rcases infix_or_mem_of_infix_append_cons h with hopening | hmem | hlines
    · exact absurd hopening (hplain (by decide))
    · exact absurd hmem (not_mem_labelAttribute label)
    rcases plain.exists_infix_of_lines (not_mem_labelAttribute label) hlines with
      ⟨s, hs, hline⟩ | hclosing
    · obtain ⟨id, rfl, hlabel⟩ := Statement.labelAttribute_infix_iff.mp hline
      exact ⟨id, hs, hlabel⟩
    · exact absurd hclosing (hplain (by decide))
  · rintro ⟨id, hid, rfl⟩
    exact (Statement.labelAttribute_infix_iff.mpr ⟨id, rfl, rfl⟩).trans (infix_graph plain hid)

end DotStyle

/-- Only names are written as the label of an error is. -/
theorem Token.OfLexeme.lexeme_ne_error {t : Token} (h : t.OfLexeme) (hkind : t.kind ≠ .identifier) :
    t.lexeme ≠ "ERROR" := by
  intro herror
  have hchars : "RROR".toList.all isNameChar := by decide
  have hname : IsLexeme "ERROR".toList .identifier (.text "ERROR") :=
    .name ⟨'E', "RROR".toList, rfl, by decide, List.all_eq_true.mp hchars⟩ (by decide)
  rw [OfLexeme, herror] at h
  exact hkind (h.unique hname).1

namespace Expr

/-- Whether no node but an error node has the label of one. -/
def MarksErrors (e : Expr) : Prop :=
  ∀ p node, e.node? p = some node → node.label = .ok "ERROR" → node = .error

theorem MarksErrors.of_children {e : Expr} (hroot : e.label = .ok "ERROR" → e = .error)
    (hchildren : ∀ c ∈ e.children, c.MarksErrors) : e.MarksErrors :=
  forall_node_of_children hroot hchildren

theorem marksErrors_of_built : HoldsOfBuilt Token.OfLexeme MarksErrors where
  binary {level left operator right} hlevel hoperator hleft hright := by
    have hkind : operator.kind ≠ .identifier := by
      intro hname
      rw [hname] at hlevel
      cases level <;> cases hlevel
    refine .of_children (fun hlabel => ?_) (by simpa [children] using ⟨hleft, hright⟩)
    exact absurd (Except.ok.inj hlabel) (hoperator.lexeme_ne_error hkind)
  unary {operator child} hsign hoperator hchild := by
    have hkind : operator.kind ≠ .identifier := by
      intro hname
      rw [hname] at hsign
      cases hsign
    refine .of_children (fun hlabel => ?_) (by simpa [children] using hchild)
    exact absurd (Except.ok.inj hlabel) (hoperator.lexeme_ne_error hkind)
  grouping hchild := by
    refine .of_children (fun hlabel => ?_) (by simpa [children] using hchild)
    exact absurd (Except.ok.inj hlabel) (by decide)
  literal here ht := by
    refine .of_children (fun hlabel => ?_) (by simp [children])
    exact absurd rfl (Literal.label_ne_error ⟨_, ht, here⟩ hlabel)
  error := .of_children (fun _ => rfl) (by simp [children])

theorem exists_node?_iff {e node : Expr} : (∃ p, e.node? p = some node) ↔
    e = node ∨ ∃ c ∈ e.children, ∃ p, c.node? p = some node := by
  constructor
  · rintro ⟨p, hp⟩
    cases p with
    | nil => exact .inl (Option.some.inj hp)
    | cons i p =>
      obtain ⟨c, hc, hp⟩ := Option.bind_eq_some_iff.mp hp
      exact .inr ⟨c, List.mem_of_getElem? hc, p, hp⟩
  · rintro (rfl | ⟨c, hc, p, hp⟩)
    · exact ⟨[], rfl⟩
    · obtain ⟨i, hi⟩ := List.mem_iff_getElem?.mp hc
      exact ⟨i :: p, by rw [node?, hi, Option.bind_some, hp]⟩

theorem exists_node?_error_iff {e : Expr} :
    (∃ p, e.node? p = some .error) ↔ 0 < e.errorCount := by
  induction e with
  | binary left operator right ihl ihr =>
    rw [exists_node?_iff]
    simp only [children, List.mem_cons, List.not_mem_nil, or_false, exists_eq_or_imp,
      exists_eq_left, ihl, ihr, reduceCtorEq, false_or, errorCount]
    omega
  | unary operator child ih | grouping child ih =>
    rw [exists_node?_iff]
    simp [children, ih, errorCount]
  | literal l =>
    rw [exists_node?_iff]
    simp [children, errorCount]
  | error =>
    rw [exists_node?_iff]
    simp [errorCount]

namespace DrawnBy

variable {e : Expr} {statements : List Statement}

theorem node_iff (h : e.DrawnBy statements) {id : NodeId} :
    .node id ∈ statements ↔ ∃ p, e.Declares statements p id := by
  have hnodes : .node id ∈ statements ↔ id ∈ Statement.nodes statements := by
    rw [Statement.nodes, List.mem_filterMap]
    constructor
    · intro hid
      exact ⟨_, hid, rfl⟩
    · rintro ⟨s, hs, hid⟩
      cases s with
      | node id' =>
        obtain rfl := Option.some.inj hid
        exact hs
      | edge source target => cases hid
  rw [hnodes, List.mem_iff_getElem?]
  constructor
  · rintro ⟨i, hi⟩
    obtain ⟨hlength, -⟩ := List.getElem?_eq_some_iff.mp hi
    rw [h.length_nodes] at hlength
    exact ⟨_, i, List.getElem?_eq_getElem hlength, hi⟩
  · rintro ⟨p, i, -, hi⟩
    exact ⟨i, hi⟩

/-- The graph of a tree shows error nodes and nothing that looks like them. -/
theorem errorLabel_infix_iff (h : e.DrawnBy statements) (hmarks : e.MarksErrors) :
    "[label=\"ERROR\"]".toList <:+: (DotStyle.plain.graph statements).toList ↔
      0 < e.errorCount := by
  have hattribute : labelAttribute "ERROR" = "[label=\"ERROR\"]" := by decide
  rw [← hattribute, DotStyle.labelAttribute_infix_iff, ← exists_node?_error_iff]
  constructor
  · rintro ⟨id, hid, hlabel⟩
    obtain ⟨p, hp⟩ := h.node_iff.mp hid
    obtain ⟨hnode, -⟩ := h.label_of_declares p id hp
    obtain ⟨node, hnode, htext⟩ := Option.map_eq_some_iff.mp hnode
    rw [hlabel] at htext
    rw [hmarks p node hnode htext] at hnode
    exact ⟨p, hnode⟩
  · rintro ⟨p, hp⟩
    obtain ⟨id, hid, -⟩ := h.declares_unique p (by rw [hp]; rfl)
    obtain ⟨hnode, -⟩ := h.label_of_declares p id hid
    rw [hp] at hnode
    exact ⟨id, h.node_iff.mpr ⟨p, hid⟩, (Except.ok.inj (Option.some.inj hnode)).symm⟩

end DrawnBy

/-- The error label stands in the graph of a text exactly if a mistake is reported. -/
theorem parse_errorLabel_infix_iff {source : String} {stream : TokenStream}
    {statements : List Statement} (h : tokenize source = .ok stream)
    (hdrawn : stream.parse.tree.DrawnBy statements) :
    "[label=\"ERROR\"]".toList <:+: (DotStyle.plain.graph statements).toList ↔
      stream.parse.errors ≠ [] := by
  have hmarks : stream.parse.tree.MarksErrors :=
    TokenStream.parse_holds marksErrors_of_built (tokenize_eq_ok_iff.mp h).1.ofLexeme
  rw [hdrawn.errorLabel_infix_iff hmarks, stream.parse_damaged_iff]

end Expr

end LoxGraph
