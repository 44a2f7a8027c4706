import LoxGraph.Proofs.Cursor.Spacing
import LoxGraph.Proofs.Expr.Grammar

/-!
Trees written as text.

A tree is in normal form when it can be written without further parentheses: what
stands on either side of an operator is as tight as its level demands. The tokens
that write such a tree are derived to it (`Expr.Writes.derives`), and so its text,
with single spaces in it, is parsed to the same tree again
(`Expr.parseText_of_writes`). Only the lines of its operators may differ.
-/

namespace LoxGraph

/-- Whether a token is written as all of its kind are, and carries nothing. -/
structure Token.Standard (t : Token) : Prop where
  lexeme_eq : t.kind.operatorText? = some t.lexeme
  literal_eq : t.literal = .none

theorem Token.Standard.ofLexeme {t : Token} (h : t.Standard) : t.OfLexeme := by
  have hlexeme : IsLexeme t.lexeme.toList t.kind .none :=
    .operator (by rw [String.ofList_toList]; exact h.lexeme_eq)
  rw [Token.OfLexeme, h.literal_eq]
  exact hlexeme

/-- The ways to write a literal: a number by any numeral for it, a string that has
no double quote in it, a reserved word. -/
inductive Literal.Writes : Literal → String → Prop
  | number {n : Numeral} {d : Double} (hn : n.WellFormed)
      (hd : Double.ofText? (String.ofList n.text) = some d) :
      Writes (.number (.double d)) (String.ofList n.text)
  | string {s : String} (hs : '"' ∉ s.toList) : Writes (.string (.text s)) ("\"" ++ s ++ "\"")
  | truth (b : Bool) : Writes (.truth b) (if b then "true" else "false")
  | nothing : Writes .nothing "nil"

theorem Literal.Writes.token {l : Literal} {item : String} (h : l.Writes item) :
    ∃ t : Token, t.lexeme = item ∧ t.OfLexeme ∧ Literal.ofToken? t = some l := by
  have hreserved {word : String} {kind : TokenKind} (hword : IsWord word.toList)
      (hkind : TokenKind.ofWord? word = some kind) :
      (Token.mk kind word .none 0).OfLexeme :=
    .reserved hword (by rw [String.ofList_toList]; exact hkind)
  cases h with
  | @number n d hn hd =>
    refine ⟨⟨.number, String.ofList n.text, .double d, 0⟩, rfl, ?_, rfl⟩
    have hnumeral : IsLexeme n.text .number (.double d) := .numeral hn hd
    simpa only [Token.OfLexeme, String.toList_ofList] using hnumeral
  | @string s hs =>
    refine ⟨⟨.string, "\"" ++ s ++ "\"", .text s, 0⟩, rfl, ?_, rfl⟩
    have hquotation := IsLexeme.quotation hs
    rw [String.ofList_toList] at hquotation
    simpa [Token.OfLexeme] using hquotation
  | truth b =>
    cases b with
    | false =>
      refine ⟨⟨.falseWord, _, .none, 0⟩, rfl, hreserved ?_ rfl, rfl⟩
      exact ⟨'f', _, rfl, by decide, List.all_eq_true.mp rfl⟩
    | true =>
      refine ⟨⟨.trueWord, _, .none, 0⟩, rfl, hreserved ?_ rfl, rfl⟩
      exact ⟨'t', _, rfl, by decide, List.all_eq_true.mp rfl⟩
  | nothing =>
    refine ⟨⟨.nilWord, _, .none, 0⟩, rfl, hreserved ?_ rfl, rfl⟩
    exact ⟨'n', _, rfl, by decide, List.all_eq_true.mp rfl⟩

namespace Expr

/-- Whether a tree may stand where operators of the levels from `rank` on are read,
but no looser ones. -/
def Binds (rank : Nat) : Expr → Prop
  | binary _ operator _ =>
    ∃ level : Level, level.hasOperator operator.kind = true ∧ rank ≤ level.rank
  | _ => True

/-- Trees without errors whose shape is the one that the levels of the operators
give to their tokens, and whose literals can be written. -/
inductive Normal : Expr → Prop
  | binary {level : Level} {left right : Expr} {operator : Token}
      (here : level.hasOperator operator.kind = true) (standard : operator.Standard)
      (left_normal : Normal left) (left_binds : left.Binds level.rank)
      (right_normal : Normal right) (right_binds : right.Binds (level.rank + 1)) :
      Normal (.binary left operator right)
  | unary {operator : Token} {child : Expr} (here : operator.kind.isSign = true)
      (standard : operator.Standard) (child_normal : Normal child)
      (child_binds : child.Binds (Level.multiplication.rank + 1)) :
      Normal (.unary operator child)
  | grouping {child : Expr} (child_normal : Normal child) : Normal (.grouping child)
  | literal {l : Literal} (written : ∃ item, l.Writes item) : Normal (.literal l)

/-- The items that write a tree, from left to right. -/
inductive Writes : Expr → List String → Prop
  | binary {left right : Expr} {operator : Token} {before after : List String}
      (hleft : Writes left before) (hright : Writes right after) :
      Writes (.binary left operator right) (before ++ operator.lexeme :: after)
  | unary {operator : Token} {child : Expr} {items : List String} (hchild : Writes child items) :
      Writes (.unary operator child) (operator.lexeme :: items)
  | grouping {child : Expr} {items : List String} (hchild : Writes child items) :
      Writes (.grouping child) ("(" :: (items ++ [")"]))
  | literal {l : Literal} {item : String} (hitem : l.Writes item) : Writes (.literal l) [item]

theorem Normal.writes {tree : Expr} (h : tree.Normal) : ∃ items, tree.Writes items := by
  induction h with
  | binary here standard left_normal left_binds right_normal right_binds ihLeft ihRight =>
    obtain ⟨before, hleft⟩ := ihLeft
    obtain ⟨after, hright⟩ := ihRight
    exact ⟨_, .binary hleft hright⟩
  | unary here standard child_normal child_binds ih =>
    obtain ⟨items, hchild⟩ := ih
    exact ⟨_, .unary hchild⟩
  | grouping child_normal ih =>
    obtain ⟨items, hchild⟩ := ih
    exact ⟨_, .grouping hchild⟩
  | literal written =>
    obtain ⟨item, hitem⟩ := written
    exact ⟨_, .literal hitem⟩

theorem Normal.binds_zero {tree : Expr} (h : tree.Normal) : tree.Binds 0 := by
  cases h with
  | binary here => exact ⟨_, here, Nat.zero_le _⟩
  | unary | grouping | literal => trivial

end Expr

/-- The symbol for what stands where operators of the levels from a rank on are read. -/
def Nonterminal.ofRank : Nat → Nonterminal
  | 0 => .chain .equality
  | 1 => .chain .comparison
  | 2 => .chain .addition
  | 3 => .chain .multiplication
  | _ => .unary

theorem Nonterminal.ofRank_rank (level : Level) : ofRank level.rank = .chain level := by
  cases level <;> rfl

theorem Nonterminal.ofRank_succ_rank (level : Level) :
    ofRank (level.rank + 1) = level.operands := by
  cases level <;> rfl

/-- A chain may have no link in it, so that what is tight enough for a level is
tight enough for all looser ones. -/
theorem Derives.loosen {rank rank' : Nat} (hle : rank ≤ rank') {tokens : List Token} {tree : Expr}
    (h : Derives (.ofRank rank') tokens tree) : Derives (.ofRank rank) tokens tree := by
  induction hle with
  | refl => exact h
  | @step rank' hle ih =>
    apply ih
    match rank' with
    | 0 => exact .first h
    | 1 => exact .first h
    | 2 => exact .first h
    | 3 => exact .first h
    | _ + 4 => exact h

/-- The items of a tree in normal form are lexemes from which the grammar derives it. -/
theorem Expr.Writes.derives {tree : Expr} {items : List String} (h : tree.Writes items)
    (hnormal : tree.Normal) : ∃ ts : List Token, ts.map (·.lexeme) = items ∧
      (∀ t ∈ ts, t.OfLexeme) ∧ ∀ rank, tree.Binds rank → Derives (.ofRank rank) ts tree := by
  induction h with
  | @binary left right operator before after hleft hright ihLeft ihRight =>
    cases hnormal with
    | @binary level _ _ _ here standard left_normal left_binds right_normal right_binds =>
      obtain ⟨tsLeft, rfl, hlexemesLeft, hderivesLeft⟩ := ihLeft left_normal
      obtain ⟨tsRight, rfl, hlexemesRight, hderivesRight⟩ := ihRight right_normal
      refine ⟨tsLeft ++ operator :: tsRight, by simp, ?_, ?_⟩
      · rw [List.forall_mem_append, List.forall_mem_cons]
        exact ⟨hlexemesLeft, standard.ofLexeme, hlexemesRight⟩
      · rintro rank ⟨level', here', hle⟩
        obtain rfl := Level.eq_of_hasOperator here here'
        have hchain := hderivesLeft _ left_binds
        have hoperand := hderivesRight _ right_binds
        rw [Nonterminal.ofRank_rank] at hchain
        rw [Nonterminal.ofRank_succ_rank] at hoperand
        have hlink := Derives.link hchain here hoperand
        rw [← Nonterminal.ofRank_rank] at hlink
        exact hlink.loosen hle
  | @unary operator child items hchild ih =>
    cases hnormal with
    | unary here standard child_normal child_binds =>
      obtain ⟨ts, rfl, hlexemes, hderives⟩ := ih child_normal
      refine ⟨operator :: ts, rfl, List.forall_mem_cons.mpr ⟨standard.ofLexeme, hlexemes⟩, ?_⟩
      intro rank _
      have hsign : Derives (.ofRank (rank + 4)) (operator :: ts) (.unary operator child) :=
        .sign here (hderives _ child_binds)
      exact hsign.loosen (Nat.le_add_right rank 4)
  | @grouping child items hchild ih =>
    cases hnormal with
    | grouping child_normal =>
      obtain ⟨ts, rfl, hlexemes, hderives⟩ := ih child_normal
      let opening : Token := ⟨.leftParen, "(", .none, 0⟩
      let closing : Token := ⟨.rightParen, ")", .none, 0⟩
      have hopening : opening.OfLexeme := Token.Standard.ofLexeme ⟨rfl, rfl⟩
      have hclosing : closing.OfLexeme := Token.Standard.ofLexeme ⟨rfl, rfl⟩
      refine ⟨opening :: (ts ++ [closing]), by simp [opening, closing], ?_, ?_⟩
      · rw [List.forall_mem_cons, List.forall_mem_append, List.forall_mem_singleton]
        exact ⟨hopening, hlexemes, hclosing⟩
      · intro rank _
        have hgroup : Derives (.ofRank (rank + 4)) (opening :: (ts ++ [closing]))
            (.grouping child) :=
          .primary (.group rfl (.expression (hderives 0 child_normal.binds_zero)) rfl)
        exact hgroup.loosen (Nat.le_add_right rank 4)
  | @literal l item hitem =>
    obtain ⟨t, rfl, hlexeme, hliteral⟩ := hitem.token
    refine ⟨[t], rfl, by simpa using hlexeme, ?_⟩
    intro rank _
    have hprimary : Derives (.ofRank (rank + 4)) [t] (.literal l) := .primary (.literal hliteral)
    exact hprimary.loosen (Nat.le_add_right rank 4)

/-- A tree whose operators are on no line in particular. -/
def Expr.withoutLines : Expr → Expr
  | binary left operator right =>
    .binary left.withoutLines operator.withoutLine right.withoutLines
  | unary operator child => .unary operator.withoutLine child.withoutLines
  | grouping child => .grouping child.withoutLines
  | literal l => .literal l
  | error => .error

theorem Expr.nesting_withoutLines (tree : Expr) : tree.withoutLines.nesting = tree.nesting := by
  induction tree with
  | binary left operator right ihLeft ihRight => simp only [withoutLines, nesting, ihLeft, ihRight]
  | unary operator child ih => simp only [withoutLines, nesting, ih]
  | grouping child ih => simp only [withoutLines, nesting, ih]
  | literal l => rfl
  | error => rfl

theorem Literal.ofToken?_eq_of_withoutLine {t t' : Token} (h : t'.withoutLine = t.withoutLine) :
    ofToken? t' = ofToken? t := by
  have hsame : ofToken? t'.withoutLine = ofToken? t.withoutLine := congrArg ofToken? h
  exact hsame

/-- The grammar does not look at lines. -/
theorem Derives.withoutLines {symbol : Nonterminal} {ts ts' : List Token} {tree : Expr}
    (h : Derives symbol ts tree) (hsame : ts'.map Token.withoutLine = ts.map Token.withoutLine) :
    ∃ tree', Derives symbol ts' tree' ∧ tree'.withoutLines = tree.withoutLines := by
  induction h generalizing ts' with
  | expression whole ih =>
    obtain ⟨tree', hderives, htree⟩ := ih hsame
    exact ⟨tree', .expression hderives, htree⟩
  | first operand ih =>
    obtain ⟨tree', hderives, htree⟩ := ih hsame
    exact ⟨tree', .first hderives, htree⟩
  | link chain here operand ihChain ihOperand =>
    rw [List.map_append, List.map_cons] at hsame
    obtain ⟨before', tail, rfl, hbefore, htail⟩ := List.map_eq_append_iff.mp hsame
    obtain ⟨operator', after', rfl, hoperator, hafter⟩ := List.map_eq_cons_iff.mp htail
    obtain ⟨left', hleft, hleftSame⟩ := ihChain hbefore
    obtain ⟨right', hright, hrightSame⟩ := ihOperand hafter
    rw [← Token.kind_eq_of_withoutLine hoperator] at here
    refine ⟨.binary left' operator' right', .link hleft here hright, ?_⟩
    rw [Expr.withoutLines, Expr.withoutLines, hleftSame, hoperator, hrightSame]
  | sign here operand ih =>
    obtain ⟨t', tail, rfl, ht, htail⟩ := List.map_eq_cons_iff.mp hsame
    obtain ⟨child', hchild, hchildSame⟩ := ih htail
    rw [← Token.kind_eq_of_withoutLine ht] at here
    refine ⟨.unary t' child', .sign here hchild, ?_⟩
    rw [Expr.withoutLines, Expr.withoutLines, ht, hchildSame]
  | primary whole ih =>
    obtain ⟨tree', hderives, htree⟩ := ih hsame
    exact ⟨tree', .primary hderives, htree⟩
  | literal here =>
    obtain ⟨t', rfl, ht⟩ := List.map_eq_singleton_iff.mp hsame
    rw [← Literal.ofToken?_eq_of_withoutLine ht] at here
    exact ⟨_, .literal here, rfl⟩
  | group here inner closed ih =>
    obtain ⟨t', tail, rfl, ht, htail⟩ := List.map_eq_cons_iff.mp hsame
    rw [List.map_append] at htail
    obtain ⟨inside', last, rfl, hinside, hlast⟩ := List.map_eq_append_iff.mp htail
    obtain ⟨close', rfl, hclose⟩ := List.map_eq_singleton_iff.mp hlast
    obtain ⟨tree', hderives, htree⟩ := ih hinside
    rw [← Token.kind_eq_of_withoutLine ht] at here
    rw [← Token.kind_eq_of_withoutLine hclose] at closed
    refine ⟨.grouping tree', .group here hderives closed, ?_⟩
    rw [Expr.withoutLines, Expr.withoutLines, htree]

theorem TokenStream.parse_of_derives {stream : TokenStream} {tree : Expr}
    (h : Derives .expression stream.tokens tree)
    (hnesting : (tree.nesting : Int) ≤ defaultNestingLimit) : stream.parse = ⟨tree, []⟩ := by
  have hread : Expr.parse stream.ending defaultNestingLimit.toNat stream.tokens =
      .done tree [] [] :=
    Expr.parse_eq_done_iff.mpr ⟨stream.tokens, by simp, h, by omega, by simp [Ends]⟩
  rw [stream.parse_eq, hread]
  rfl

/-- A tree in normal form that is not nested too deep can be written, and each text
that writes it with single spaces is parsed to it again, but for the lines of its
operators. -/
theorem Expr.parseText_of_writes {tree : Expr} (hnormal : tree.Normal)
    (hnesting : (tree.nesting : Int) ≤ defaultNestingLimit) :
    (∃ items, tree.Writes items) ∧
    ∀ items, tree.Writes items → ∃ result, parseText (" ".intercalate items) = .ok result ∧
      result.tree.withoutLines = tree.withoutLines ∧ result.errors = [] := by
  refine ⟨hnormal.writes, ?_⟩
  intro items hwrites
  obtain ⟨ts, rfl, hlexemes, hderives⟩ := hwrites.derives hnormal
  obtain ⟨stream, htokenize, hsame⟩ := tokenize_spaced hlexemes
  have hexpression : Derives .expression ts tree := .expression (hderives 0 hnormal.binds_zero)
  obtain ⟨tree', hread, htree⟩ := hexpression.withoutLines hsame
  have hnesting' : (tree'.nesting : Int) ≤ defaultNestingLimit := by
    rw [← nesting_withoutLines, htree, nesting_withoutLines]
    exact hnesting
  refine ⟨⟨tree', []⟩, ?_, htree, rfl⟩
  rw [parseText, htokenize, Except.map, TokenStream.parse_of_derives hread hnesting']

/-- A comparison of comparisons, with a group, two signs in a row, and a string over
two lines. -/
def Expr.sampleComparison : Expr :=
  .binary
    (.binary
      (.unary ⟨.minus, "-", .none, 7⟩ (.grouping (.binary
        (.literal (.number (.double (Numeral.toDouble ⟨['1'], ['5', '0']⟩))))
        ⟨.slash, "/", .none, 7⟩ (.literal (.truth true)))))
      ⟨.equalEqual, "==", .none, 7⟩ (.literal (.string (.text "a\n"))))
    ⟨.equalEqual, "==", .none, 7⟩
    (.unary ⟨.bang, "!", .none, 7⟩ (.unary ⟨.bang, "!", .none, 7⟩ (.literal .nothing)))

theorem Expr.normal_sampleComparison : sampleComparison.Normal := by
  have hnumeral : Numeral.WellFormed ⟨['1'], ['5', '0']⟩ :=
    ⟨List.cons_ne_nil _ _, List.all_eq_true.mp rfl, List.all_eq_true.mp rfl⟩
  have hgroup : Normal (.grouping (.binary
      (.literal (.number (.double (Numeral.toDouble ⟨['1'], ['5', '0']⟩))))
      ⟨.slash, "/", .none, 7⟩ (.literal (.truth true)))) :=
    .grouping (@Normal.binary .multiplication _ _ _ rfl ⟨rfl, rfl⟩
      (.literal ⟨_, .number hnumeral hnumeral.ofText?_text⟩) trivial (.literal ⟨_, .truth true⟩)
      trivial)
  have hequation := @Normal.binary .equality _ _ ⟨.equalEqual, "==", .none, 7⟩ rfl ⟨rfl, rfl⟩
    (@Normal.unary ⟨.minus, "-", .none, 7⟩ _ rfl ⟨rfl, rfl⟩ hgroup trivial) trivial
    (.literal ⟨_, .string (show '"' ∉ "a\n".toList by decide)⟩) trivial
  exact @Normal.binary .equality _ _ _ rfl ⟨rfl, rfl⟩ hequation ⟨.equality, rfl, Nat.le_refl _⟩
    (.unary rfl ⟨rfl, rfl⟩ (.unary rfl ⟨rfl, rfl⟩ (.literal ⟨_, .nothing⟩) trivial) trivial) trivial

theorem Expr.sampleComparison_parseText : sampleComparison.Normal ∧
    ∃ result, parseText "- ( 1.50 / true ) == \"a\n\" == ! ! nil" = .ok result ∧
      result.tree.withoutLines = sampleComparison.withoutLines ∧ result.errors = [] := by
  have hnormal := normal_sampleComparison
  have hnumeral : Numeral.WellFormed ⟨['1'], ['5', '0']⟩ :=
    ⟨List.cons_ne_nil _ _, List.all_eq_true.mp rfl, List.all_eq_true.mp rfl⟩
  have hwrites : sampleComparison.Writes
      ["-", "(", "1.50", "/", "true", ")", "==", "\"a\n\"", "==", "!", "!", "nil"] :=
    .binary
      (.binary
        (.unary (.grouping (.binary (.literal (.number hnumeral hnumeral.ofText?_text))
          (.literal (.truth true)))))
        (.literal (.string (show '"' ∉ "a\n".toList by decide))))
      (.unary (.unary (.literal .nothing)))
  have htext : " ".intercalate
      ["-", "(", "1.50", "/", "true", ")", "==", "\"a\n\"", "==", "!", "!", "nil"] =
      "- ( 1.50 / true ) == \"a\n\" == ! ! nil" := by decide +kernel
  have hparse := (parseText_of_writes hnormal (by decide)).2 _ hwrites
  rw [htext] at hparse
  exact ⟨hnormal, hparse⟩

end LoxGraph
