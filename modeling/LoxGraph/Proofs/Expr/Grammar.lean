import LoxGraph.Proofs.Expr.Accounting

/-!
The grammar of expressions, and that reading accepts just what it derives.

    expression     -> equality
    equality       -> comparison ( ( "!=" | "==" ) comparison )*
    comparison     -> addition ( ( ">" | ">=" | "<" | "<=" ) addition )*
    addition       -> multiplication ( ( "-" | "+" ) multiplication )*
    multiplication -> unary ( ( "/" | "*" ) unary )*
    unary          -> ( "!" | "-" ) unary | primary
    primary        -> "false" | "true" | "nil" | NUMBER | STRING
                    | "(" expression ")"

A repetition is read as a tree that leans to the left. Reading stops where no
operator goes on, so the grammar alone leaves open where an expression ends;
together with the token after it, tokens have one reading at most
(`Derives.readFrom`, `Reads.accepts`).
-/

namespace LoxGraph

/-- The symbols of the grammar; the four levels of binary operators have one
rule in common. -/
inductive Nonterminal where
  | expression
  | chain (level : Level)
  | unary
  | primary

/-- The symbol for what stands between the operators of a level. -/
def Level.operands : Level → Nonterminal
  | .equality => .chain .comparison
  | .comparison => .chain .addition
  | .addition => .chain .multiplication
  | .multiplication => .unary

/-- The tokens that a symbol derives, with the tree that the grammar gives them. -/
inductive Derives : Nonterminal → List Token → Expr → Prop where
  | expression {tokens tree} (whole : Derives (.chain .equality) tokens tree) :
      Derives .expression tokens tree
  | first {level tokens tree} (operand : Derives level.operands tokens tree) :
      Derives (.chain level) tokens tree
  | link {level before left operator after right} (chain : Derives (.chain level) before left)
      (here : level.hasOperator operator.kind = true)
      (operand : Derives level.operands after right) :
      Derives (.chain level) (before ++ operator :: after) (.binary left operator right)
  | sign {t tokens child} (here : t.kind.isSign = true) (operand : Derives .unary tokens child) :
      Derives .unary (t :: tokens) (.unary t child)
  | primary {tokens tree} (whole : Derives .primary tokens tree) : Derives .unary tokens tree
  | literal {t l} (here : Literal.ofToken? t = some l) : Derives .primary [t] (.literal l)
  | group {t tokens inside close} (here : t.kind = .leftParen)
      (inner : Derives .expression tokens inside) (closed : close.kind = .rightParen) :
      Derives .primary (t :: (tokens ++ [close])) (.grouping inside)

/-- The most signs and groups on a way from the root to a leaf. -/
def Expr.nesting : Expr → Nat
  | binary left _ right => max left.nesting right.nesting
  | unary _ child => child.nesting + 1
  | grouping child => child.nesting + 1
  | literal _ => 0
  | error => 0

/-- The operators that stand between two operands, of all levels. -/
def TokenKind.binaryOperators : List TokenKind :=
  [.bangEqual, .equalEqual, .greater, .greaterEqual, .less, .lessEqual, .minus, .plus, .slash,
   .star]

namespace Level

/-- The place of a level among all, from the loosest to the tightest. -/
def rank : Level → Nat
  | .equality => 0
  | .comparison => 1
  | .addition => 2
  | .multiplication => 3

theorem rank_injective {level level' : Level} (h : level.rank = level'.rank) :
    level = level' := by
  cases level <;> cases level' <;> simp_all [rank]

/-- No operator stands on two levels. -/
theorem eq_of_hasOperator {level level' : Level} {kind : TokenKind}
    (h : level.hasOperator kind = true) (h' : level'.hasOperator kind = true) :
    level = level' := by
  cases level <;> cases level' <;> grind [hasOperator]

theorem not_mem_binaryOperators_iff {kind : TokenKind} :
    kind ∉ TokenKind.binaryOperators ↔ ∀ level : Level, level.hasOperator kind = false := by
  constructor
  · intro h level
    cases level <;> simp_all [hasOperator, TokenKind.binaryOperators]
  · intro h
    have hequality := h .equality
    have hcomparison := h .comparison
    have haddition := h .addition
    have hmultiplication := h .multiplication
    simp_all [hasOperator, TokenKind.binaryOperators]

end Level

/-- No operator of this rank or a higher one comes first. -/
def Ends (rank : Nat) (rest : List Token) : Prop :=
  ∀ t ∈ rest.head?, ∀ level : Level, rank ≤ level.rank → level.hasOperator t.kind = false

theorem ends_rank_iff {level : Level} {rest : List Token} :
    Ends level.rank rest ↔
      (∀ t ∈ rest.head?, level.hasOperator t.kind = false) ∧ Ends (level.rank + 1) rest := by
  constructor
  · intro h
    exact ⟨fun t ht => h t ht level (Nat.le_refl _),
      fun t ht level' hle => h t ht level' (by omega)⟩
  · rintro ⟨hlevel, htighter⟩ t ht level' hle
    rcases Nat.lt_or_eq_of_le hle with hlt | heq
    · exact htighter t ht level' hlt
    · rw [← Level.rank_injective heq]
      exact hlevel t ht

/-- An operator of a level begins nothing tighter. -/
theorem ends_of_hasOperator {level : Level} {operator : Token}
    (here : level.hasOperator operator.kind = true) (rest : List Token) :
    Ends (level.rank + 1) (operator :: rest) := by
  intro t ht level' hle
  obtain rfl : operator = t := by simpa using ht
  cases hother : level'.hasOperator operator.kind with
  | false => rfl
  | true =>
    have hsame := Level.eq_of_hasOperator here hother
    subst hsame
    omega

theorem ends_of_closing {close : Token} (closed : close.kind = .rightParen) (rest : List Token) :
    Ends 0 (close :: rest) := by
  intro t ht level _
  obtain rfl : close = t := by simpa using ht
  rw [closed]
  cases level <;> rfl

theorem ends_past_tightest (rest : List Token) : Ends (Level.multiplication.rank + 1) rest := by
  intro t _ level hle
  cases level <;> simp [Level.rank] at hle

/-- What it means for a part to have taken the tokens in front of `rest`: the
grammar derives them, nothing in the tree is nested deeper than the budget, and
nothing that could go on with it comes next. The rest of a chain continues any
chain of its level that ends where it begins. -/
def Part.Accepts (budget : Nat) (tokens : List Token) (tree : Expr) (rest : List Token) :
    Part → Prop
  | .chain level => ∃ taken, tokens = taken ++ rest ∧ Derives (.chain level) taken tree ∧
      tree.nesting ≤ budget ∧ Ends level.rank rest
  | .links level left => ∀ before, Derives (.chain level) before left → left.nesting ≤ budget →
      Ends (level.rank + 1) tokens → ∃ taken, tokens = taken ++ rest ∧
        Derives (.chain level) (before ++ taken) tree ∧ tree.nesting ≤ budget ∧
        Ends level.rank rest
  | .operand => ∃ taken, tokens = taken ++ rest ∧ Derives .unary taken tree ∧
      tree.nesting ≤ budget

theorem Part.Accepts.operands {budget : Nat} {tokens : List Token} {tree : Expr}
    {rest : List Token} {level : Level} (h : level.operandPart.Accepts budget tokens tree rest) :
    ∃ taken, tokens = taken ++ rest ∧ Derives level.operands taken tree ∧
      tree.nesting ≤ budget ∧ Ends (level.rank + 1) rest := by
  cases level with
  | equality => exact h
  | comparison => exact h
  | addition => exact h
  | multiplication =>
    obtain ⟨taken, htokens, hderives, hnesting⟩ := h
    exact ⟨taken, htokens, hderives, hnesting, ends_past_tightest rest⟩

theorem Outcome.after_eq_done_nil {α : Type} {earlier : List SyntaxError} {o : Outcome α}
    {value : α} {rest : List Token} :
    o.after earlier = .done value [] rest ↔ earlier = [] ∧ o = .done value [] rest := by
  rw [after_eq_done]
  constructor
  · rintro ⟨later, hnone, rfl⟩
    obtain ⟨rfl, rfl⟩ := List.append_eq_nil_iff.mp hnone.symm
    exact ⟨rfl, rfl⟩
  · rintro ⟨rfl, rfl⟩
    exact ⟨[], rfl, rfl⟩

/-- What is read without a mistake is derived by the grammar. -/
theorem Reads.accepts {ending : Token} {budget : Nat} {part : Part} {tokens : List Token}
    {tree : Expr} {rest : List Token}
    (h : Reads ending budget part tokens (.done tree [] rest)) :
    part.Accepts budget tokens tree rest := by
  generalize houtcome : Outcome.done tree [] rest = outcome at h
  induction h generalizing tree rest with
  | chain first others ihFirst ihOthers =>
    obtain ⟨rfl, rfl⟩ := Outcome.after_eq_done_nil.mp houtcome.symm
    obtain ⟨before, rfl, hleft, hnesting, hends⟩ := (ihFirst rfl).operands
    obtain ⟨taken, rfl, hderives, hbound, hlast⟩ :=
      ihOthers rfl before (.first hleft) hnesting hends
    exact ⟨before ++ taken, by simp, hderives, hbound, hlast⟩
  | chainTooDeep first ih => cases houtcome
  | noLink stop =>
    cases houtcome
    intro before hleft hnesting hends
    exact ⟨[], rfl, by simpa using hleft, hnesting, ends_rank_iff.mpr ⟨stop, hends⟩⟩
  | @link budget level left operator tokens right errors rest' outcome here next others ihNext
      ihOthers =>
    obtain ⟨rfl, rfl⟩ := Outcome.after_eq_done_nil.mp houtcome.symm
    intro before hleft hnesting hends
    -- The link goes to the left of what follows: the fold so far is its left operand.
    obtain ⟨after, rfl, hright, hrightNesting, hrightEnds⟩ := (ihNext rfl).operands
    obtain ⟨taken, rfl, hderives, hbound, hlast⟩ := ihOthers rfl (before ++ operator :: after)
      (.link hleft here hright) (Nat.max_le.mpr ⟨hnesting, hrightNesting⟩) hrightEnds
    exact ⟨operator :: (after ++ taken), by simp, by simpa using hderives, hbound, hlast⟩
  | linkTooDeep here next ih => cases houtcome
  | nothing => cases houtcome
  | @literal budget t rest' l here =>
    cases houtcome
    exact ⟨[t], rfl, .primary (.literal here), Nat.zero_le _⟩
  | @sign budget t tokens child errors rest' here inner ih =>
    cases houtcome
    obtain ⟨taken, rfl, hderives, hnesting⟩ := ih rfl
    exact ⟨t :: taken, rfl, .sign here hderives, Nat.succ_le_succ hnesting⟩
  | signTooDeep here inner ih => cases houtcome
  | @group budget t tokens inside errors close rest' here inner closed ih =>
    cases houtcome
    obtain ⟨taken, rfl, hderives, hnesting, -⟩ := ih rfl
    exact ⟨t :: (taken ++ [close]), by simp, .primary (.group here (.expression hderives) closed),
      Nat.succ_le_succ hnesting⟩
  | openGroup here inner unclosed ih => simp at houtcome
  | groupTooDeep here inner ih => cases houtcome
  | pastLimit here => cases houtcome
  | unexpected noLiteral noSign noGroup => cases houtcome

/-- How reading goes on from what a symbol derives. A chain may have more links,
so its reading is whatever the reading of those is. -/
def Nonterminal.ReadFrom (ending : Token) (budget : Nat) (tokens : List Token) (tree : Expr) :
    Nonterminal → Prop
  | .expression => ∀ rest, Ends 0 rest →
      Reads ending budget (.chain .equality) (tokens ++ rest) (.done tree [] rest)
  | .chain level => ∀ rest outcome, Ends (level.rank + 1) rest →
      Reads ending budget (.links level tree) rest outcome →
      Reads ending budget (.chain level) (tokens ++ rest) outcome
  | .unary => ∀ rest, Reads ending budget .operand (tokens ++ rest) (.done tree [] rest)
  | .primary => ∀ rest, Reads ending budget .operand (tokens ++ rest) (.done tree [] rest)

theorem Nonterminal.ReadFrom.chain_done {ending : Token} {budget : Nat} {tokens : List Token}
    {tree : Expr} {level : Level}
    (h : (Nonterminal.chain level).ReadFrom ending budget tokens tree) {rest : List Token}
    (hends : Ends level.rank rest) :
    Reads ending budget (.chain level) (tokens ++ rest) (.done tree [] rest) := by
  obtain ⟨hstop, htighter⟩ := ends_rank_iff.mp hends
  exact h rest _ htighter (.noLink hstop)

theorem Nonterminal.ReadFrom.operands {ending : Token} {budget : Nat} {tokens : List Token}
    {tree : Expr} {level : Level} (h : level.operands.ReadFrom ending budget tokens tree)
    {rest : List Token} (hends : Ends (level.rank + 1) rest) :
    Reads ending budget level.operandPart (tokens ++ rest) (.done tree [] rest) := by
  cases level with
  | equality => exact chain_done h hends
  | comparison => exact chain_done h hends
  | addition => exact chain_done h hends
  | multiplication => exact h rest

/-- What the grammar derives is read without a mistake. -/
theorem Derives.readFrom (ending : Token) {symbol : Nonterminal} {tokens : List Token}
    {tree : Expr} (h : Derives symbol tokens tree) {budget : Nat}
    (hnesting : tree.nesting ≤ budget) : symbol.ReadFrom ending budget tokens tree := by
  induction h generalizing budget with
  | expression whole ih =>
    intro rest hends
    exact (ih hnesting).chain_done hends
  | first operand ih =>
    intro rest outcome hends hlinks
    simpa using Reads.chain ((ih hnesting).operands hends) hlinks
  | @link level before left operator after right chain here operand ihChain ihOperand =>
    obtain ⟨hleft, hright⟩ := Nat.max_le.mp hnesting
    intro rest outcome hends hlinks
    -- The shorter chain is read first, with this link among those that follow it.
    have hlink := Reads.link here ((ihOperand hright).operands hends) hlinks
    have hchain := ihChain hleft (operator :: (after ++ rest)) outcome
      (ends_of_hasOperator here _) (by simpa using hlink)
    simpa using hchain
  | sign here operand ih =>
    intro rest
    cases budget with
    | zero => simp [Expr.nesting] at hnesting
    | succ budget => exact .sign here (ih (Nat.le_of_succ_le_succ hnesting) rest)
  | primary whole ih => exact ih hnesting
  | literal here =>
    intro rest
    exact .literal here
  | @group t tokens inside close here inner closed ih =>
    intro rest
    cases budget with
    | zero => simp [Expr.nesting] at hnesting
    | succ budget =>
      have hinner :=
        ih (Nat.le_of_succ_le_succ hnesting) (close :: rest) (ends_of_closing closed rest)
      simpa using Reads.group here hinner closed

/-- Reading accepts just what the grammar derives within the budget, and stops
where no operator goes on. -/
theorem Expr.parse_eq_done_iff {ending : Token} {budget : Nat} {tokens : List Token}
    {tree : Expr} {rest : List Token} :
    Expr.parse ending budget tokens = .done tree [] rest ↔
      ∃ taken, tokens = taken ++ rest ∧ Derives .expression taken tree ∧
        tree.nesting ≤ budget ∧ Ends 0 rest := by
  rw [Expr.parse_eq_reader, ← reads_iff]
  constructor
  · intro h
    obtain ⟨taken, htokens, hderives, hnesting, hends⟩ := h.accepts
    exact ⟨taken, htokens, .expression hderives, hnesting, hends⟩
  · rintro ⟨taken, rfl, hderives, hnesting, hends⟩
    exact hderives.readFrom ending hnesting rest hends

/-- The first `k` tokens of a list write the expression `tree`, and the token
after them does not go on with it. -/
structure WritesExpression (ts : List Token) (k : Nat) (tree : Expr) : Prop where
  noMark : ∀ t ∈ ts.take k, t.kind ≠ .endOfText
  derives : Derives .expression (ts.take k) tree
  ends : ∀ t ∈ ts[k]?, t.kind ∉ TokenKind.binaryOperators

theorem ends_zero_iff {rest : List Token} :
    Ends 0 rest ↔ ∀ t ∈ rest.head?, t.kind ∉ TokenKind.binaryOperators := by
  simp only [Ends, Level.not_mem_binaryOperators_iff, Nat.zero_le, true_implies]

/-- Only tokens in front of the first mark write an expression. -/
theorem writesExpression_iff (stream : TokenStream) (after : List Token) (k : Nat)
    (tree : Expr) :
    WritesExpression (stream.tokens ++ stream.ending :: after) k tree ↔
      ∃ taken rest, stream.tokens = taken ++ rest ∧ taken.length = k ∧
        Derives .expression taken tree ∧ Ends 0 rest := by
  constructor
  · rintro ⟨hmark, hderives, hends⟩
    have hle : k ≤ stream.tokens.length := by
      apply Nat.le_of_not_lt
      intro hlt
      have hending : stream.ending ∈ (stream.tokens ++ stream.ending :: after).take k := by
        rw [List.take_append]
        apply List.mem_append_right
        obtain ⟨n, hn⟩ := Nat.exists_eq_add_of_lt hlt
        have hcount : k - stream.tokens.length = n + 1 := by omega
        simp [hcount]
      exact hmark _ hending stream.ending_kind
    rw [List.take_append_of_le_length hle] at hderives
    refine ⟨stream.tokens.take k, stream.tokens.drop k, by simp,
      List.length_take_of_le hle, hderives, ?_⟩
    rw [ends_zero_iff, List.head?_drop]
    intro t ht
    apply hends t
    rw [List.getElem?_append_left (List.getElem?_eq_some_iff.mp ht).1]
    exact ht
  · rintro ⟨taken, rest, htokens, rfl, hderives, hends⟩
    have htake : (stream.tokens ++ stream.ending :: after).take taken.length = taken := by
      simp [htokens]
    constructor
    · rw [htake]
      intro t ht
      apply stream.tokens_kind
      simp [htokens, ht]
    · rwa [htake]
    · rw [ends_zero_iff] at hends
      intro t ht
      cases rest with
      | nil =>
        obtain rfl : stream.ending = t := by simpa [htokens] using ht
        simp [stream.ending_kind, TokenKind.binaryOperators]
      | cons next rest =>
        obtain rfl : next = t := by simpa [htokens] using ht
        exact hends next rfl

/-- The first parse makes a tree without mistakes just of what writes it, if the
nesting is within the limit. -/
theorem firstParse?_eq_iff {ts : List Token} (h : EndsInMark ts) (limit : Int) (k : Nat)
    (tree : Expr) :
    (∃ session, firstParse? ts limit = some (tree, session) ∧ session.errors = [] ∧
      session.consumed = k) ↔ WritesExpression ts k tree ∧ (tree.nesting : Int) ≤ max limit 0 := by
  obtain ⟨stream, after, session, hts, hfirst, herrors, hconsumed⟩ :=
    firstParse?_of_endsInMark h limit
  have hbound : (tree.nesting : Int) ≤ max limit 0 ↔ tree.nesting ≤ limit.toNat := by omega
  rw [hts, writesExpression_iff, ← hts, hbound]
  constructor
  · rintro ⟨session', hfirst', hnone, hk⟩
    rw [hfirst] at hfirst'
    obtain ⟨htree, rfl⟩ := Prod.mk.inj (Option.some.inj hfirst')
    cases houtcome : Expr.parse stream.ending limit.toNat stream.tokens with
    | tooDeep errors rest =>
      rw [houtcome] at herrors
      exact absurd (herrors.symm.trans hnone)
        (reads_iff.mpr houtcome : Reads _ _ (.chain .equality) _ _).errors_ne_nil_of_tooDeep
    | done tree' errors rest =>
      rw [houtcome] at htree herrors hconsumed
      obtain rfl : tree' = tree := htree
      obtain rfl : errors = [] := herrors.symm.trans hnone
      obtain ⟨taken, htokens, hderives, hnesting, hends⟩ := Expr.parse_eq_done_iff.mp houtcome
      rw [htokens, List.length_append, Outcome.rest_done] at hconsumed
      exact ⟨⟨taken, rest, htokens, by omega, hderives, hends⟩, hnesting⟩
  · rintro ⟨⟨taken, rest, htokens, hlength, hderives, hends⟩, hnesting⟩
    have houtcome : Expr.parse stream.ending limit.toNat stream.tokens = .done tree [] rest :=
      Expr.parse_eq_done_iff.mpr ⟨taken, htokens, hderives, hnesting, hends⟩
    rw [houtcome] at hfirst herrors hconsumed
    rw [htokens, List.length_append, Outcome.rest_done] at hconsumed
    exact ⟨session, hfirst, herrors, by omega⟩

/-- No list begins with two expressions: both would be its first parse under a
limit that admits both. -/
theorem WritesExpression.unique {ts : List Token} {k k' : Nat} {tree tree' : Expr}
    (hwrites : WritesExpression ts k tree) (hwrites' : WritesExpression ts k' tree')
    (h : EndsInMark ts) : k = k' ∧ tree = tree' := by
  let limit : Int := max tree.nesting tree'.nesting
  obtain ⟨session, hfirst, -, hconsumed⟩ :=
    (firstParse?_eq_iff h limit k tree).mpr ⟨hwrites, by omega⟩
  obtain ⟨session', hfirst', -, hconsumed'⟩ :=
    (firstParse?_eq_iff h limit k' tree').mpr ⟨hwrites', by omega⟩
  rw [hfirst] at hfirst'
  obtain ⟨rfl, rfl⟩ := Prod.mk.inj (Option.some.inj hfirst')
  exact ⟨hconsumed.symm.trans hconsumed', rfl⟩

/-- The first parse of a list of tokens makes a tree without mistakes from its
first `k` tokens just when the grammar derives the tree from them, the nesting
is within the limit, and no operator follows. No list begins with two such
expressions, whatever the limit. -/
theorem firstParse?_iff_writesExpression {ts : List Token} (h : EndsInMark ts) :
    (∀ (limit : Int) (k : Nat) (tree : Expr),
      (∃ session, firstParse? ts limit = some (tree, session) ∧ session.errors = [] ∧
        session.consumed = k) ↔
      WritesExpression ts k tree ∧ (tree.nesting : Int) ≤ max limit 0) ∧
    ∀ k k' tree tree', WritesExpression ts k tree → WritesExpression ts k' tree' →
      k = k' ∧ tree = tree' := by
  constructor
  · exact firstParse?_eq_iff h
  · intro k k' tree tree' hwrites hwrites'
    exact hwrites.unique hwrites' h

/-- `-(true) * nil , nil` with an end mark in front of the comma. -/
def markedProduct : List Token :=
  [⟨.minus, "-", .none, 1⟩, ⟨.leftParen, "(", .none, 1⟩, ⟨.trueWord, "true", .none, 1⟩,
   ⟨.rightParen, ")", .none, 1⟩, ⟨.star, "*", .none, 1⟩, ⟨.nilWord, "nil", .none, 1⟩,
   .endOfText 1, ⟨.comma, ",", .none, 2⟩, ⟨.nilWord, "nil", .none, 2⟩, .endOfText 2]

/-- The sign belongs to the first factor, and the mark ends the product. -/
theorem markedProduct_writesExpression : EndsInMark markedProduct ∧
    WritesExpression markedProduct 6
      (.binary (.unary ⟨.minus, "-", .none, 1⟩ (.grouping (.literal (.truth true))))
        ⟨.star, "*", .none, 1⟩ (.literal .nothing)) := by
  have hmark : EndsInMark markedProduct := by decide
  exact ⟨hmark, (((firstParse?_iff_writesExpression hmark).1 2 6 _).mp ⟨_, rfl, rfl, rfl⟩).1⟩

end LoxGraph
