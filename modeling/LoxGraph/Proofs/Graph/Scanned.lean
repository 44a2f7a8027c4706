import LoxGraph.Proofs.Double.ReadBack
import LoxGraph.Proofs.Expr.Built
import LoxGraph.Proofs.Expr.Writing
import LoxGraph.Proofs.Graph.Determined

/-!
The graph of a text determines its tree.

The labels of a tree that was built from lexemes tell what its nodes are. A number is read
back from its label (`Double.exists_numberLabel`), and so is any literal
(`Literal.ofLabel?_label`); the text of an operator has one kind, and none is written like the
label of a group or of an error. Together with the shape, which the statements of a graph tell,
this gives the tree back, but for the lines of its operators (`Expr.parseText_graph_eq_iff`).
-/

namespace LoxGraph

/-- The doubles that numerals stand for, which have no sign. -/
inductive Double.Unsigned : Double → Prop
  | finite (m : Magnitude) : Unsigned (.finite false m)
  | infinite : Unsigned (.infinite false)

theorem Double.ofRatio_unsigned (p q : Nat) : (ofRatio false p q).Unsigned := by
  rw [ofRatio]
  split
  · exact .finite _
  · exact .infinite

theorem Decimal.toDouble_unsigned (d : Decimal) : (d.toDouble false).Unsigned := by
  rw [toDouble]
  split
  · exact .finite _
  split
  · exact .infinite
  · exact Double.ofRatio_unsigned _ _

theorem Double.text_numberMarks {d : Double} {c : Char} (hc : c ∈ d.text.toList) :
    c ∈ numberMarks := by
  cases d with
  | finite negative m =>
    rw [text, String.toList_ofList] at hc
    rcases List.mem_append.mp hc with hsign | hbehind
    · obtain rfl : c = '-' := by cases negative <;> simp_all
      decide
    · exact (Magnitude.magnitudeText_writtenAs m).mem_numberMarks hbehind
  | infinite negative =>
    have hall : (infinite negative).text.toList.all (· ∈ numberMarks) := by
      cases negative <;> decide
    simpa using List.all_eq_true.mp hall c hc
  | nan =>
    have hall : nan.text.toList.all (· ∈ numberMarks) := by decide
    simpa using List.all_eq_true.mp hall c hc

theorem Double.numberLabel_text {d : Double} (h : d.integer? = none) :
    (Value.double d).numberLabel = .ok d.text := by
  simp only [Value.numberLabel, h]

/-- The label of an integer is its digits. -/
theorem Double.numberLabel_integer {m : Magnitude} (h : m.units % unitsPerOne = 0) :
    (Value.double (.finite false m)).numberLabel =
      .ok (String.ofList (decimalDigits (m.units / unitsPerOne))) := by
  have hquotient : signed false m / (unitsPerOne : Int) = (m.units / unitsPerOne : Nat) :=
    (Int.natCast_ediv _ _).symm
  have hlabel : toString ((m.units / unitsPerOne : Nat) : Int) =
      String.ofList (decimalDigits (m.units / unitsPerOne)) :=
    Nat.toString_eq_ofList_toDigits
  simp only [Value.numberLabel, integer?, h, if_true, hquotient, hlabel]

/-- A number without a sign is read back from its label. -/
theorem Double.exists_numberLabel {d : Double} (h : d.Unsigned) : ∃ label,
    (Value.double d).numberLabel = .ok label ∧ Double.ofText? label = some d ∧
      ∀ c ∈ label.toList, c ∈ numberMarks := by
  by_cases hinteger : d.integer? = none
  · refine ⟨d.text, numberLabel_text hinteger, d.ofText?_text, ?_⟩
    exact fun c hc => text_numberMarks hc
  · cases h with
    | finite m =>
      have hunits : m.units % unitsPerOne = 0 := by
        by_contra hunits
        simp [integer?, hunits] at hinteger
      have hwritten := (Magnitude.decimalDigits_hasNumeral hunits).writtenAs
      refine ⟨_, numberLabel_integer hunits, hwritten.ofText?_eq false, ?_⟩
      intro c hc
      rw [String.toList_ofList] at hc
      exact hwritten.mem_numberMarks hc
    | infinite => exact absurd rfl hinteger

/-- Whether a literal is that of a lexeme. -/
def Literal.Scanned (l : Literal) : Prop := ∃ t : Token, t.OfLexeme ∧ ofToken? t = some l

namespace Literal

/-- The literal that has a label. -/
def ofLabel? (label : String) : Option Literal :=
  if label = "true" then some (.truth true)
  else if label = "false" then some (.truth false)
  else if label = "nil" then some .nothing
  else match label.toList with
    | '"' :: body => some (.string (.text (String.ofList body.dropLast)))
    | _ => (Double.ofText? label).map fun d => .number (.double d)

theorem ofLabel?_number {d : Double} {label : String} (hread : Double.ofText? label = some d)
    (hmarks : ∀ c ∈ label.toList, c ∈ numberMarks) :
    ofLabel? label = some (.number (.double d)) := by
  have hother {word : String} (hword : Double.ofText? word = none) : label ≠ word := by
    rintro rfl
    rw [hread] at hword
    cases hword
  have hquote : '"' ∉ label.toList := fun hmem => absurd (hmarks '"' hmem) (by decide)
  rw [ofLabel?, if_neg (hother (by decide +kernel)), if_neg (hother (by decide +kernel)),
    if_neg (hother (by decide +kernel))]
  split
  · rename_i body hbody
    simp [hbody] at hquote
  · rw [hread, Option.map_some]

theorem ofLabel?_string (s : String) :
    ofLabel? ("\"" ++ s ++ "\"") = some (.string (.text s)) := by
  have htext : ("\"" ++ s ++ "\"").toList = '"' :: (s.toList ++ ['"']) := by simp
  have hother {word : String} (hword : word.toList.head? ≠ some '"') :
      "\"" ++ s ++ "\"" ≠ word := by
    rintro rfl
    rw [htext] at hword
    exact hword rfl
  rw [ofLabel?, if_neg (hother (by decide)), if_neg (hother (by decide)),
    if_neg (hother (by decide)), htext]
  simp

/-- The literal of a lexeme has a label, from which it is read back. -/
theorem Scanned.exists_label {l : Literal} (h : l.Scanned) :
    ∃ label, l.label = .ok label ∧ ofLabel? label = some l := by
  obtain ⟨t, ht, hl⟩ := h
  have hlexeme : IsLexeme t.lexeme.toList l.kind t.literal := by
    rw [← kind_of_ofToken? hl]
    exact ht
  cases l with
  | number v =>
    obtain ⟨n, -, -, hliteral⟩ := hlexeme.of_number
    have hvalue : v = .double n.toDouble := (value_of_ofToken? hl (.inl rfl)).trans hliteral
    have hunsigned : n.toDouble.Unsigned := by
      rw [n.toDouble_eq_decimal]
      exact Decimal.toDouble_unsigned _
    obtain ⟨label, hlabel, hread, hmarks⟩ := Double.exists_numberLabel hunsigned
    rw [hvalue]
    exact ⟨label, hlabel, ofLabel?_number hread hmarks⟩
  | string v =>
    obtain ⟨body, -, -, hliteral⟩ := hlexeme.of_string
    have hvalue : v = .text (String.ofList body) :=
      (value_of_ofToken? hl (.inr rfl)).trans hliteral
    rw [hvalue]
    exact ⟨_, rfl, ofLabel?_string _⟩
  | truth b =>
    refine ⟨_, rfl, ?_⟩
    cases b <;> rfl
  | nothing => exact ⟨_, rfl, rfl⟩

theorem ofLabel?_label {l : Literal} {label : String} (h : l.Scanned) (hl : l.label = .ok label) :
    ofLabel? label = some l := by
  obtain ⟨label', hl', hread⟩ := h.exists_label
  rw [hl] at hl'
  rwa [Except.ok.inj hl']

theorem label_ne_error {l : Literal} {label : String} (h : l.Scanned) (hl : l.label = .ok label) :
    label ≠ "ERROR" := by
  rintro rfl
  have hread := ofLabel?_label h hl
  have hnone : ofLabel? "ERROR" = none := by decide +kernel
  rw [hnone] at hread
  cases hread

end Literal

namespace Token.OfLexeme

variable {t t' : Token}

/-- The text of a token tells its kind and its value. -/
theorem withoutLine_eq (h : t.OfLexeme) (h' : t'.OfLexeme) (hlexeme : t.lexeme = t'.lexeme) :
    t.withoutLine = t'.withoutLine := by
  have hsame : IsLexeme t'.lexeme.toList t.kind t.literal := by
    rw [← hlexeme]
    exact h
  obtain ⟨hkind, hliteral⟩ := hsame.unique h'
  rw [withoutLine, withoutLine, hkind, hliteral, hlexeme]

/-- No token is written as the label of a group. -/
theorem lexeme_ne_group (h : t.OfLexeme) : t.lexeme ≠ "()" := by
  intro hgroup
  rw [Token.OfLexeme, hgroup] at h
  obtain ⟨hnil, -⟩ := isLexeme_cons_iff.mp h
  cases hnil

end Token.OfLexeme

/-- Whether a tree is built from lexemes. -/
def Expr.Scanned : Expr → Prop
  | binary left operator right => operator.OfLexeme ∧ left.Scanned ∧ right.Scanned
  | unary operator child => operator.OfLexeme ∧ child.Scanned
  | grouping child => child.Scanned
  | literal l => l.Scanned
  | error => True

namespace Expr

theorem scanned_of_built : HoldsOfBuilt Token.OfLexeme Scanned where
  binary _ hoperator hleft hright := ⟨hoperator, hleft, hright⟩
  unary _ hoperator hchild := ⟨hoperator, hchild⟩
  grouping hchild := hchild
  literal here ht := ⟨_, ht, here⟩
  error := trivial

theorem scanned_parse {source : String} {stream : TokenStream} (h : tokenize source = .ok stream) :
    stream.parse.tree.Scanned :=
  TokenStream.parse_holds scanned_of_built (tokenize_eq_ok_iff.mp h).1.ofLexeme

theorem labels_withoutLines (e : Expr) : e.withoutLines.labels = e.labels := by
  induction e with
  | binary left operator right ihl ihr =>
    rw [withoutLines, labels, labels, ihl, ihr]
    rfl
  | unary operator child ih =>
    rw [withoutLines, labels, labels, ih]
    rfl
  | grouping child ih => rw [withoutLines, labels, labels, ih]
  | literal l => rfl
  | error => rfl

theorem Scanned.exists_labels {e : Expr} (h : e.Scanned) : ∃ t, e.labels = .ok t := by
  induction e with
  | binary left operator right ihl ihr =>
    obtain ⟨-, hleft, hright⟩ := h
    obtain ⟨l, hl⟩ := ihl hleft
    obtain ⟨r, hr⟩ := ihr hright
    exact ⟨_, by rw [labels, hl, hr]; rfl⟩
  | unary operator child ih =>
    obtain ⟨c, hc⟩ := ih h.2
    exact ⟨_, by rw [labels, hc]; rfl⟩
  | grouping child ih =>
    obtain ⟨c, hc⟩ := ih h
    exact ⟨_, by rw [labels, hc]; rfl⟩
  | literal l =>
    obtain ⟨label, hlabel, -⟩ := Literal.Scanned.exists_label h
    exact ⟨_, by rw [labels, hlabel]; rfl⟩
  | error => exact ⟨_, rfl⟩

/-- Of two trees of lexemes with the same labels only the lines of the operators may
differ. -/
theorem Scanned.withoutLines_eq {t : LabelTree} {a b : Expr} (ha : a.Scanned) (hb : b.Scanned)
    (hat : a.labels = .ok t) (hbt : b.labels = .ok t) : a.withoutLines = b.withoutLines := by
  -- The induction is on the labels, which give both trees the same shape.
  induction t generalizing a b with
  | leaf label =>
    rcases labels_eq_leaf hat with ⟨l, rfl, hl⟩ | ⟨rfl, herror⟩
    · rcases labels_eq_leaf hbt with ⟨l', rfl, hl'⟩ | ⟨rfl, herror⟩
      · have hread := Literal.ofLabel?_label ha hl
        rw [Literal.ofLabel?_label hb hl'] at hread
        rw [Option.some.inj hread]
      · exact absurd herror (Literal.label_ne_error ha hl)
    · rcases labels_eq_leaf hbt with ⟨l', rfl, hl'⟩ | ⟨rfl, -⟩
      · exact absurd herror (Literal.label_ne_error hb hl')
      · rfl
  | one label t ih =>
    rcases labels_eq_one hat with ⟨operator, child, rfl, rfl, hc⟩ | ⟨child, rfl, rfl, hc⟩
    · rcases labels_eq_one hbt with ⟨operator', child', rfl, hsame, hc'⟩ | ⟨child', rfl, hsame, hc'⟩
      · rw [withoutLines, withoutLines, ih ha.2 hb.2 hc hc',
          ha.1.withoutLine_eq hb.1 hsame.symm]
      · exact absurd hsame ha.1.lexeme_ne_group
    · rcases labels_eq_one hbt with ⟨operator', child', rfl, hsame, hc'⟩ | ⟨child', rfl, -, hc'⟩
      · exact absurd hsame hb.1.lexeme_ne_group
      · have hchild : child.Scanned := ha
        have hchild' : child'.Scanned := hb
        rw [withoutLines, withoutLines, ih hchild hchild' hc hc']
  | two label l r ihl ihr =>
    obtain ⟨left, operator, right, rfl, rfl, hl, hr⟩ := labels_eq_two hat
    obtain ⟨left', operator', right', rfl, hsame, hl', hr'⟩ := labels_eq_two hbt
    obtain ⟨hoperator, hleft, hright⟩ := ha
    obtain ⟨hoperator', hleft', hright'⟩ := hb
    rw [withoutLines, withoutLines, ihl hleft hleft' hl hl', ihr hright hright' hr hr',
      hoperator.withoutLine_eq hoperator' hsame.symm]

/-- The graph of a text determines its tree: two texts that can be scanned have the same graph,
in whatever style, exactly if they have the same tree but for the lines of its operators. -/
theorem parseText_graph_eq_iff {source other : String} {stream stream' : TokenStream}
    (h : tokenize source = .ok stream) (h' : tokenize other = .ok stream') (style : DotStyle) :
    ∃ result result' graph graph', parseText source = .ok result ∧ parseText other = .ok result' ∧
      result.tree.graph style = .ok graph ∧ result'.tree.graph style = .ok graph' ∧
        (graph = graph' ↔ result.tree.withoutLines = result'.tree.withoutLines) := by
  have hscanned := scanned_parse h
  have hscanned' := scanned_parse h'
  obtain ⟨t, ht⟩ := hscanned.exists_labels
  obtain ⟨t', ht'⟩ := hscanned'.exists_labels
  refine ⟨stream.parse, stream'.parse, style.graph t.statements, style.graph t'.statements,
    by rw [parseText, h]; rfl, by rw [parseText, h']; rfl, by rw [graph, ht]; rfl,
    by rw [graph, ht']; rfl, ?_⟩
  rw [DotStyle.graph_inj]
  constructor
  · intro hstatements
    rw [← LabelTree.statements_inj hstatements] at ht'
    exact hscanned.withoutLines_eq hscanned' ht ht'
  · intro hsame
    rw [← labels_withoutLines, hsame, labels_withoutLines, ht'] at ht
    rw [Except.ok.inj ht]

/-- A word and a string that spells it are drawn differently. -/
theorem parseText_graph_spelled_ne : ∃ stream stream',
    tokenize "\"true\"" = .ok stream ∧ tokenize "true" = .ok stream' ∧
    ∃ result result' graph graph', parseText "\"true\"" = .ok result ∧
      parseText "true" = .ok result' ∧ result.tree.graph .plain = .ok graph ∧
        result'.tree.graph .plain = .ok graph' ∧ graph ≠ graph' := by
  have hscan {source : String} (h : (tokenize source).toBool = true) :
      ∃ stream, tokenize source = .ok stream := by
    cases htokenize : tokenize source with
    | error e => simp [htokenize, Except.toBool] at h
    | ok stream => exact ⟨stream, rfl⟩
  obtain ⟨stream, hstream⟩ := hscan (show (tokenize "\"true\"").toBool = true by decide +kernel)
  obtain ⟨stream', hstream'⟩ := hscan (show (tokenize "true").toBool = true by decide +kernel)
  obtain ⟨result, result', graph, graph', hresult, hresult', hgraph, hgraph', hiff⟩ :=
    parseText_graph_eq_iff hstream hstream' .plain
  refine ⟨stream, stream', hstream, hstream', result, result', graph, graph', hresult, hresult',
    hgraph, hgraph', ?_⟩
  have htree : (parseText "\"true\"").toOption.map (·.tree.withoutLines) =
      some (.literal (.string (.text "true"))) := by decide +kernel
  have htree' : (parseText "true").toOption.map (·.tree.withoutLines) =
      some (.literal (.truth true)) := by decide +kernel
  rw [hresult] at htree
  rw [hresult'] at htree'
  intro hsame
  have htrees : result.tree.withoutLines = result'.tree.withoutLines := hiff.mp hsame
  cases (Option.some.inj htree).symm.trans (htrees.trans (Option.some.inj htree'))

end Expr

end LoxGraph
