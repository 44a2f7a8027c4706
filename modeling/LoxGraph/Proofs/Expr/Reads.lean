import LoxGraph.Expr.Parse

/-!
What a reading can do, as a relation with one rule for each step.

`Reads ending budget part tokens outcome` says that reading `part` of an
expression from `tokens` comes out as `outcome`. The relation holds of the
readers and of nothing else (`reads_iff`), so whatever is to be shown of all
expressions is shown by one induction on it. A reading only ever takes tokens
from the front (`Reads.rest_suffix`), and the clock of a chain never runs out
before its tokens do (`Part.reader_links_cons`).
-/

namespace LoxGraph

namespace Outcome

/-- The tree that comes of an outcome. An expression that is given up is an error
node. -/
def tree : Outcome Expr → Expr
  | done tree _ _ => tree
  | tooDeep _ _ => .error

@[simp] theorem tree_done (tree : Expr) (errors : List SyntaxError) (rest : List Token) :
    (done tree errors rest).tree = tree := rfl

@[simp] theorem tree_tooDeep (errors : List SyntaxError) (rest : List Token) :
    (tooDeep errors rest).tree = .error := rfl

@[simp] theorem tree_after (earlier : List SyntaxError) (o : Outcome Expr) :
    (o.after earlier).tree = o.tree := by
  cases o <;> rfl

theorem after_eq_done {α : Type} {earlier errors : List SyntaxError} {o : Outcome α}
    {value : α} {rest : List Token} : o.after earlier = .done value errors rest ↔
      ∃ later, errors = earlier ++ later ∧ o = .done value later rest := by
  cases o with
  | done value' later rest' =>
    simp only [after, done.injEq]
    constructor
    · rintro ⟨rfl, rfl, rfl⟩
      exact ⟨later, rfl, rfl, rfl, rfl⟩
    · rintro ⟨_, rfl, rfl, rfl, rfl⟩
      exact ⟨rfl, rfl, rfl⟩
  | tooDeep => simp [after]

end Outcome

/-- A part of an expression that is read as a whole: a chain of a level, the
rest of a chain whose beginning is the tree `left`, or an operand. -/
inductive Part where
  | chain (level : Level)
  | links (level : Level) (left : Expr)
  | operand

/-- What stands between the operators of a level. -/
def Level.operandPart : Level → Part
  | .equality => .chain .comparison
  | .comparison => .chain .addition
  | .addition => .chain .multiplication
  | .multiplication => .operand

/-- The rules of reading. Tokens beyond the front of the list play no role in
any of them. -/
inductive Reads (ending : Token) : Nat → Part → List Token → Outcome Expr → Prop where
  | chain {budget level tokens left errors rest outcome}
      (first : Reads ending budget level.operandPart tokens (.done left errors rest))
      (others : Reads ending budget (.links level left) rest outcome) :
      Reads ending budget (.chain level) tokens (outcome.after errors)
  | chainTooDeep {budget level tokens errors rest}
      (first : Reads ending budget level.operandPart tokens (.tooDeep errors rest)) :
      Reads ending budget (.chain level) tokens (.tooDeep errors rest)
  | noLink {budget level left tokens}
      (stop : ∀ t ∈ tokens.head?, level.hasOperator t.kind = false) :
      Reads ending budget (.links level left) tokens (.done left [] tokens)
  | link {budget level left operator tokens right errors rest outcome}
      (here : level.hasOperator operator.kind = true)
      (next : Reads ending budget level.operandPart tokens (.done right errors rest))
      (others : Reads ending budget (.links level (.binary left operator right)) rest outcome) :
      Reads ending budget (.links level left) (operator :: tokens) (outcome.after errors)
  | linkTooDeep {budget level left operator tokens errors rest}
      (here : level.hasOperator operator.kind = true)
      (next : Reads ending budget level.operandPart tokens (.tooDeep errors rest)) :
      Reads ending budget (.links level left) (operator :: tokens) (.tooDeep errors rest)
  | nothing {budget} :
      Reads ending budget .operand [] (.done .error [⟨ending, .expectedExpression⟩] [])
  | literal {budget t rest l} (here : Literal.ofToken? t = some l) :
      Reads ending budget .operand (t :: rest) (.done (.literal l) [] rest)
  | sign {budget t tokens child errors rest} (here : t.kind.isSign = true)
      (inner : Reads ending budget .operand tokens (.done child errors rest)) :
      Reads ending (budget + 1) .operand (t :: tokens) (.done (.unary t child) errors rest)
  | signTooDeep {budget t tokens errors rest} (here : t.kind.isSign = true)
      (inner : Reads ending budget .operand tokens (.tooDeep errors rest)) :
      Reads ending (budget + 1) .operand (t :: tokens) (.tooDeep errors rest)
  | group {budget t tokens inside errors close rest} (here : t.kind = .leftParen)
      (inner : Reads ending budget (.chain .equality) tokens
        (.done inside errors (close :: rest)))
      (closed : close.kind = .rightParen) :
      Reads ending (budget + 1) .operand (t :: tokens) (.done (.grouping inside) errors rest)
  | openGroup {budget t tokens inside errors rest} (here : t.kind = .leftParen)
      (inner : Reads ending budget (.chain .equality) tokens (.done inside errors rest))
      (unclosed : ∀ close ∈ rest.head?, close.kind ≠ .rightParen) :
      Reads ending (budget + 1) .operand (t :: tokens)
        (.done .error (errors ++ [⟨rest.headD ending, .expectedClosing⟩]) rest)
  | groupTooDeep {budget t tokens errors rest} (here : t.kind = .leftParen)
      (inner : Reads ending budget (.chain .equality) tokens (.tooDeep errors rest)) :
      Reads ending (budget + 1) .operand (t :: tokens) (.tooDeep errors rest)
  | pastLimit {t rest} (here : t.kind.isSign = true ∨ t.kind = .leftParen) :
      Reads ending 0 .operand (t :: rest) (.tooDeep [⟨t, .nestedTooDeep⟩] rest)
  | unexpected {budget t rest} (noLiteral : Literal.ofToken? t = none)
      (noSign : t.kind.isSign = false) (noGroup : t.kind ≠ .leftParen) :
      Reads ending budget .operand (t :: rest)
        (.done .error [⟨t, .expectedExpression⟩] rest)

namespace Reads

variable {ending : Token} {budget : Nat} {part : Part} {tokens : List Token}
  {outcome : Outcome Expr}

/-- The tokens left unread are the last of those at hand. -/
theorem rest_suffix (h : Reads ending budget part tokens outcome) : outcome.rest <:+ tokens := by
  induction h with
  | chain first others ihFirst ihOthers =>
    rw [Outcome.rest_after]
    exact ihOthers.trans ihFirst
  | chainTooDeep first ih => exact ih
  | noLink stop => exact List.suffix_refl _
  | link here next others ihNext ihOthers =>
    rw [Outcome.rest_after]
    exact (ihOthers.trans ihNext).trans (List.suffix_cons _ _)
  | linkTooDeep here next ih => exact List.IsSuffix.trans ih (List.suffix_cons _ _)
  | nothing => exact List.suffix_refl _
  | literal here => exact List.suffix_cons _ _
  | sign here inner ih => exact List.IsSuffix.trans ih (List.suffix_cons _ _)
  | signTooDeep here inner ih => exact List.IsSuffix.trans ih (List.suffix_cons _ _)
  | group here inner closed ih =>
    exact ((List.suffix_cons _ _).trans ih).trans (List.suffix_cons _ _)
  | openGroup here inner unclosed ih => exact List.IsSuffix.trans ih (List.suffix_cons _ _)
  | groupTooDeep here inner ih => exact List.IsSuffix.trans ih (List.suffix_cons _ _)
  | pastLimit here => exact List.suffix_cons _ _
  | unexpected noLiteral noSign noGroup => exact List.suffix_cons _ _

/-- Unless it goes on with a chain, a reading takes a token if there is any. -/
theorem rest_length_lt (h : Reads ending budget part tokens outcome)
    (hpart : ∀ level left, part ≠ .links level left) (htokens : tokens ≠ []) :
    outcome.rest.length < tokens.length := by
  have hoperand (level level' : Level) (left : Expr) :
      level.operandPart ≠ .links level' left := by
    cases level <;> simp [Level.operandPart]
  have hsuffix {t : Token} {tokens rest : List Token} (hrest : rest <:+ tokens) :
      rest.length < (t :: tokens).length := Nat.lt_succ_of_le hrest.length_le
  induction h with
  | chain first others ihFirst ihOthers =>
    rw [Outcome.rest_after]
    exact Nat.lt_of_le_of_lt others.rest_suffix.length_le (ihFirst (hoperand _) htokens)
  | chainTooDeep first ih => exact ih (hoperand _) htokens
  | noLink | link | linkTooDeep => exact absurd rfl (hpart _ _)
  | nothing => exact absurd rfl htokens
  | literal here => exact hsuffix (List.suffix_refl _)
  | sign here inner ih => exact hsuffix inner.rest_suffix
  | signTooDeep here inner ih => exact hsuffix inner.rest_suffix
  | group here inner closed ih => exact hsuffix ((List.suffix_cons _ _).trans inner.rest_suffix)
  | openGroup here inner unclosed ih => exact hsuffix inner.rest_suffix
  | groupTooDeep here inner ih => exact hsuffix inner.rest_suffix
  | pastLimit here => exact hsuffix (List.suffix_refl _)
  | unexpected noLiteral noSign noGroup => exact hsuffix (List.suffix_refl _)

end Reads

/-- A literal is read from a token of its kind. -/
theorem Literal.kind_of_ofToken? {t : Token} {l : Literal} (h : ofToken? t = some l) :
    t.kind = l.kind := by
  unfold ofToken? ofKind? at h
  split at h <;> cases h <;> assumption

/-- The value of a number or a string is the one that its token carries. -/
theorem Literal.value_of_ofToken? {t : Token} {l : Literal} (h : ofToken? t = some l)
    (hkind : l.kind = .number ∨ l.kind = .string) : l.value = t.literal := by
  rw [ofToken?, kind_of_ofToken? h] at h
  rcases hkind with hnumber | hstring
  · rw [hnumber] at h
    cases h
    rfl
  · rw [hstring] at h
    cases h
    rfl

theorem Literal.ofToken?_eq_none_of_isSign {t : Token} (h : t.kind.isSign = true) :
    ofToken? t = none := by
  have hkind : t.kind = .bang ∨ t.kind = .minus := by simpa [TokenKind.isSign] using h
  rcases hkind with hbang | hminus
  · simp [ofToken?, hbang, ofKind?]
  · simp [ofToken?, hminus, ofKind?]

theorem Literal.ofToken?_eq_none_of_leftParen {t : Token} (h : t.kind = .leftParen) :
    ofToken? t = none := by
  simp [ofToken?, h, ofKind?]

theorem TokenKind.isSign_leftParen : TokenKind.leftParen.isSign = false := rfl

namespace Expr

/-- The reader of what stands between the operators of a level. -/
def operandReader (operand : Reader) : Level → Reader
  | .equality => chain .comparison (chain .addition (chain .multiplication operand))
  | .comparison => chain .addition (chain .multiplication operand)
  | .addition => chain .multiplication operand
  | .multiplication => operand

/-- A clock with at least as many ticks as there are tokens is as good as any
other, since every link takes a token and its operand gives none back. -/
theorem links_clock {level : Level} {operand : Reader}
    (shrinks : ∀ tokens, (operand tokens).rest <:+ tokens) (clock clock' : List Token)
    (left : Expr) (tokens : List Token) (h : tokens.length ≤ clock.length)
    (h' : tokens.length ≤ clock'.length) :
    links level operand clock left tokens = links level operand clock' left tokens := by
  induction clock generalizing clock' left tokens with
  | nil =>
    obtain rfl : tokens = [] := List.eq_nil_of_length_eq_zero (Nat.le_zero.mp h)
    cases clock' <;> rfl
  | cons _ clock ih =>
    cases tokens with
    | nil => cases clock' <;> rfl
    | cons operator tokens =>
      cases clock' with
      | nil => simp at h'
      | cons _ clock' =>
        simp only [links]
        split
        · have hrest := (shrinks tokens).length_le
          cases hread : operand tokens with
          | tooDeep errors rest => rfl
          | done right errors rest =>
            rw [hread] at hrest
            simp only [Outcome.rest, List.length_cons] at hrest h h'
            simp only [Outcome.andThen]
            rw [ih clock' (.binary left operator right) rest (by omega) (by omega)]
        · rfl

end Expr

/-- The reader of a part. -/
def Part.reader (ending : Token) (budget : Nat) : Part → Reader
  | .chain level => Expr.chain level (Expr.operandReader (Expr.operand ending budget) level)
  | .links level left => fun tokens =>
    Expr.links level (Expr.operandReader (Expr.operand ending budget) level) tokens left tokens
  | .operand => Expr.operand ending budget

theorem Part.reader_operandPart (ending : Token) (budget : Nat) (level : Level) :
    level.operandPart.reader ending budget =
      Expr.operandReader (Expr.operand ending budget) level := by
  cases level <;> rfl

theorem Expr.parse_eq_reader (ending : Token) (budget : Nat) :
    Expr.parse ending budget = (Part.chain .equality).reader ending budget := rfl

namespace Reads

variable {ending : Token} {budget : Nat}

/-- The loop of a chain keeps to the rules when the reader of its operands does. -/
theorem of_links {level : Level} {operand : Reader}
    (next : ∀ tokens, Reads ending budget level.operandPart tokens (operand tokens))
    (clock : List Token) (left : Expr) (tokens : List Token)
    (h : tokens.length ≤ clock.length) :
    Reads ending budget (.links level left) tokens
      (Expr.links level operand clock left tokens) := by
  induction clock generalizing left tokens with
  | nil =>
    obtain rfl : tokens = [] := List.eq_nil_of_length_eq_zero (Nat.le_zero.mp h)
    exact .noLink (by simp)
  | cons _ clock ih =>
    cases tokens with
    | nil => exact .noLink (by simp)
    | cons operator tokens =>
      simp only [Expr.links]
      split
      case isTrue here =>
        have hnext := next tokens
        cases hread : operand tokens with
        | tooDeep errors rest =>
          rw [hread] at hnext
          exact .linkTooDeep here hnext
        | done right errors rest =>
          rw [hread] at hnext
          have hrest := hnext.rest_suffix.length_le
          simp only [Outcome.rest, List.length_cons] at hrest h
          exact .link here hnext (ih _ rest (by omega))
      case isFalse here => exact .noLink (by simpa using here)

theorem of_chain (level : Level) {operand : Reader}
    (next : ∀ tokens, Reads ending budget level.operandPart tokens (operand tokens))
    (tokens : List Token) :
    Reads ending budget (.chain level) tokens (Expr.chain level operand tokens) := by
  have hfirst := next tokens
  unfold Expr.chain
  cases hread : operand tokens with
  | tooDeep errors rest =>
    rw [hread] at hfirst
    exact .chainTooDeep hfirst
  | done left errors rest =>
    rw [hread] at hfirst
    exact .chain hfirst (of_links next rest left rest (Nat.le_refl _))

/-- Chains of all levels keep to the rules when the reader of signs, groups and
literals does. -/
theorem of_operandReader {operand : Reader}
    (next : ∀ tokens, Reads ending budget .operand tokens (operand tokens)) (level : Level)
    (tokens : List Token) :
    Reads ending budget level.operandPart tokens (Expr.operandReader operand level tokens) := by
  have hmultiplication := of_chain .multiplication next
  have haddition := of_chain .addition hmultiplication
  have hcomparison := of_chain .comparison haddition
  cases level with
  | equality => exact hcomparison tokens
  | comparison => exact haddition tokens
  | addition => exact hmultiplication tokens
  | multiplication => exact next tokens

/-- A group keeps to the rules, closed or not. -/
theorem of_closing {t : Token} {tokens : List Token} {inside : Expr}
    {errors : List SyntaxError} {rest : List Token} (here : t.kind = .leftParen)
    (inner : Reads ending budget (.chain .equality) tokens (.done inside errors rest)) :
    Reads ending (budget + 1) .operand (t :: tokens)
      ((Expr.closing ending inside rest).after errors) := by
  cases rest with
  | nil => exact .openGroup here inner (by simp)
  | cons close rest =>
    simp only [Expr.closing]
    split
    case isTrue closed =>
      simp only [Outcome.after, List.append_nil]
      exact .group here inner closed
    case isFalse unclosed => exact .openGroup here inner (by simpa using unclosed)

/-- Where nothing more may be nested, an operand is a literal or a mistake. -/
theorem of_operandWith_none (tokens : List Token) :
    Reads ending 0 .operand tokens (Expr.operandWith ending none tokens) := by
  cases tokens with
  | nil => exact .nothing
  | cons t rest =>
    cases here : Literal.ofToken? t with
    | some l =>
      simp only [Expr.operandWith, here]
      exact .literal here
    | none =>
      simp only [Expr.operandWith, here]
      split
      case isTrue sign => exact .pastLimit (.inl sign)
      case isFalse noSign =>
        split
        case isTrue paren => exact .pastLimit (.inr paren)
        case isFalse noGroup => exact .unexpected here (by simpa using noSign) noGroup

/-- An operand keeps to the rules when the reader of what is nested in it does. -/
theorem of_operandWith_some {operand : Reader}
    (inside : ∀ tokens, Reads ending budget .operand tokens (operand tokens))
    (tokens : List Token) :
    Reads ending (budget + 1) .operand tokens
      (Expr.operandWith ending (some operand) tokens) := by
  cases tokens with
  | nil => exact .nothing
  | cons t rest =>
    cases here : Literal.ofToken? t with
    | some l =>
      simp only [Expr.operandWith, here]
      exact .literal here
    | none =>
      simp only [Expr.operandWith, here]
      split
      case isTrue sign =>
        have hinner := inside rest
        cases hread : operand rest with
        | tooDeep errors rest' =>
          rw [hread] at hinner
          exact .signTooDeep sign hinner
        | done child errors rest' =>
          rw [hread] at hinner
          simpa [Outcome.andThen, Outcome.after] using Reads.sign sign hinner
      case isFalse noSign =>
        split
        case isTrue paren =>
          have hinner :
              Reads ending budget (.chain .equality) rest (Expr.expression operand rest) :=
            of_chain .equality (of_operandReader inside .equality) rest
          cases hread : Expr.expression operand rest with
          | tooDeep errors rest' =>
            rw [hread] at hinner
            exact .groupTooDeep paren hinner
          | done tree errors rest' =>
            rw [hread] at hinner
            exact of_closing paren hinner
        case isFalse noGroup => exact .unexpected here (by simpa using noSign) noGroup

theorem of_operand (ending : Token) (budget : Nat) (tokens : List Token) :
    Reads ending budget .operand tokens (Expr.operand ending budget tokens) := by
  induction budget generalizing tokens with
  | zero => exact of_operandWith_none tokens
  | succ budget ih => exact of_operandWith_some ih tokens

/-- The readers keep to the rules. -/
theorem of_reader (ending : Token) (budget : Nat) (part : Part) (tokens : List Token) :
    Reads ending budget part tokens (part.reader ending budget tokens) := by
  have hoperands (level : Level) := of_operandReader (of_operand ending budget) level
  cases part with
  | chain level => exact of_chain level (hoperands level) tokens
  | links level left => exact of_links (hoperands level) tokens left tokens (Nat.le_refl _)
  | operand => exact of_operand ending budget tokens

end Reads

/-- The loop of a chain without its clock: one more link, then the rest. -/
theorem Part.reader_links_cons (ending : Token) (budget : Nat) (level : Level) (left : Expr)
    {operator : Token} (here : level.hasOperator operator.kind = true) (tokens : List Token) :
    (Part.links level left).reader ending budget (operator :: tokens) =
      (level.operandPart.reader ending budget tokens).andThen fun right rest =>
        (Part.links level (.binary left operator right)).reader ending budget rest := by
  have shrinks (tokens : List Token) :
      (Expr.operandReader (Expr.operand ending budget) level tokens).rest <:+ tokens := by
    rw [← Part.reader_operandPart]
    exact (Reads.of_reader ending budget level.operandPart tokens).rest_suffix
  have hrest := (shrinks tokens).length_le
  rw [Part.reader_operandPart]
  simp only [Part.reader, Expr.links, here, if_true]
  cases hread : Expr.operandReader (Expr.operand ending budget) level tokens with
  | tooDeep errors rest => rfl
  | done right errors rest =>
    rw [hread] at hrest
    simp only [Outcome.andThen]
    rw [Expr.links_clock shrinks tokens rest _ rest hrest (Nat.le_refl _)]

/-- A group is read as an expression, then its closing parenthesis. -/
theorem Part.reader_group {ending : Token} {budget : Nat} {t : Token} {tokens : List Token}
    (here : t.kind = .leftParen) :
    Part.operand.reader ending (budget + 1) (t :: tokens) =
      ((Part.chain .equality).reader ending budget tokens).andThen (Expr.closing ending) := by
  have hliteral := Literal.ofToken?_eq_none_of_leftParen here
  simp [Part.reader, Expr.operand, Expr.operandWith, hliteral, here, Expr.expression,
    Expr.operandReader, TokenKind.isSign_leftParen]

/-- Only what the readers do keeps to the rules. -/
theorem Reads.reader_eq {ending : Token} {budget : Nat} {part : Part} {tokens : List Token}
    {outcome : Outcome Expr} (h : Reads ending budget part tokens outcome) :
    part.reader ending budget tokens = outcome := by
  induction h with
  | chain first others ihFirst ihOthers =>
    rw [Part.reader_operandPart] at ihFirst
    simp only [Part.reader, Expr.chain, ihFirst, Outcome.andThen]
    exact congrArg (Outcome.after _) ihOthers
  | chainTooDeep first ih =>
    rw [Part.reader_operandPart] at ih
    simp only [Part.reader, Expr.chain, ih, Outcome.andThen]
  | @noLink budget level left tokens stop =>
    cases tokens with
    | nil => rfl
    | cons operator tokens =>
      have hstop : level.hasOperator operator.kind = false := stop operator rfl
      simp [Part.reader, Expr.links, hstop]
  | link here next others ihNext ihOthers =>
    rw [Part.reader_links_cons _ _ _ _ here, ihNext]
    exact congrArg (Outcome.after _) ihOthers
  | linkTooDeep here next ih =>
    rw [Part.reader_links_cons _ _ _ _ here, ih]
    rfl
  | @nothing budget => cases budget <;> rfl
  | @literal budget t rest l here =>
    cases budget <;> simp only [Part.reader, Expr.operand, Expr.operandWith, here]
  | sign here inner ih =>
    have hliteral := Literal.ofToken?_eq_none_of_isSign here
    simp only [Part.reader] at ih
    simp [Part.reader, Expr.operand, Expr.operandWith, hliteral, here, ih, Outcome.andThen,
      Outcome.after]
  | signTooDeep here inner ih =>
    have hliteral := Literal.ofToken?_eq_none_of_isSign here
    simp only [Part.reader] at ih
    simp [Part.reader, Expr.operand, Expr.operandWith, hliteral, here, ih, Outcome.andThen]
  | @group budget t tokens inside errors close rest here inner closed ih =>
    rw [Part.reader_group here, ih]
    simp [Outcome.andThen, Outcome.after, Expr.closing, closed]
  | @openGroup budget t tokens inside errors rest here inner unclosed ih =>
    rw [Part.reader_group here, ih]
    cases rest with
    | nil => rfl
    | cons close rest =>
      have hclose : close.kind ≠ .rightParen := unclosed close rfl
      simp [Outcome.andThen, Outcome.after, Expr.closing, hclose]
  | groupTooDeep here inner ih =>
    rw [Part.reader_group here, ih]
    rfl
  | @pastLimit t rest here =>
    rcases here with sign | paren
    · have hliteral := Literal.ofToken?_eq_none_of_isSign sign
      simp [Part.reader, Expr.operand, Expr.operandWith, hliteral, sign]
    · have hliteral := Literal.ofToken?_eq_none_of_leftParen paren
      simp [Part.reader, Expr.operand, Expr.operandWith, hliteral, paren]
  | @unexpected budget t rest noLiteral noSign noGroup =>
    cases budget <;> simp [Part.reader, Expr.operand, Expr.operandWith, noLiteral, noSign, noGroup]

/-- The rules of reading and the readers say the same. -/
theorem reads_iff {ending : Token} {budget : Nat} {part : Part} {tokens : List Token}
    {outcome : Outcome Expr} :
    Reads ending budget part tokens outcome ↔ part.reader ending budget tokens = outcome := by
  constructor
  · exact Reads.reader_eq
  · rintro rfl
    exact Reads.of_reader ending budget part tokens

/-- A parse keeps to the rules. -/
theorem Expr.reads_parse (ending : Token) (budget : Nat) (tokens : List Token) :
    Reads ending budget (.chain .equality) tokens (Expr.parse ending budget tokens) :=
  Reads.of_reader ending budget (.chain .equality) tokens

end LoxGraph
