import LoxGraph.Proofs.Cursor.Layout

/-!
Lexemes with separators between them.

A lexeme that a blank follows is taken where it stands, since no longer one goes
over the blank (`IsLexeme.munch`). A text of lexemes that are kept apart by blanks and
comments, each time a blank first, therefore has the tokens of these lexemes
(`Spaced.tokenize`); single spaces are the shortest separators (`tokenize_spaced`).
-/

namespace LoxGraph

/-- A token on no line in particular. -/
def Token.withoutLine (t : Token) : Token := { t with line := 0 }

theorem Token.kind_eq_of_withoutLine {t t' : Token} (h : t'.withoutLine = t.withoutLine) :
    t'.kind = t.kind := by
  have hkind : t'.withoutLine.kind = t.withoutLine.kind := congrArg Token.kind h
  exact hkind

/-- Whether a token is one that a text can have. -/
def Token.OfLexeme (t : Token) : Prop := IsLexeme t.lexeme.toList t.kind t.literal

theorem Layout.ofLexeme {before text : List Char} {tokens : List Token}
    (h : Layout before text tokens) : ∀ t ∈ tokens, t.OfLexeme := by
  induction h with
  | ended hgap => simp
  | @token before gap text rest kind literal tokens hgap htext hmunch hrest ih =>
    rw [List.forall_mem_cons]
    refine ⟨?_, ih⟩
    rw [Token.OfLexeme, String.toList_ofList]
    exact htext

/-- Whether a token is one that a text can have, or the mark of its end. -/
def Token.OfText (t : Token) : Prop := t.OfLexeme ∨ ∃ line, t = Token.endOfText line

theorem ofText_of_tokenize {text : String} {stream : TokenStream} (h : tokenize text = .ok stream) :
    ∀ t ∈ stream.toList, t.OfText := by
  obtain ⟨hlayout, hending⟩ := tokenize_eq_ok_iff.mp h
  intro t ht
  rcases List.mem_append.mp ht with htoken | hmark
  · exact .inl (hlayout.ofLexeme t htoken)
  · exact .inr ⟨_, (List.mem_singleton.mp hmark).trans hending⟩

theorem not_isBlank_of_isNameChar {c : Char} (h : isNameChar c) : isBlank c = false := by
  cases hblank : isBlank c with
  | false => rfl
  | true =>
    simp only [isBlank, Bool.or_eq_true, beq_iff_eq] at hblank
    rcases hblank with ((rfl | rfl) | rfl) | rfl <;> exact absurd h (by decide)

theorem IsWord.not_isBlank {text : List Char} (h : IsWord text) :
    ∀ c ∈ text, isBlank c = false := by
  obtain ⟨c, cs, rfl, hletter, hchars⟩ := h
  intro d hd
  apply not_isBlank_of_isNameChar
  rcases List.mem_cons.mp hd with rfl | hd
  · simp [isNameChar, hletter]
  · exact hchars d hd

theorem not_isBlank_of_operatorText? {text : List Char} {kind : TokenKind}
    (h : kind.operatorText? = some (String.ofList text)) : ∀ c ∈ text, isBlank c = false := by
  have hall : text.all fun c => !isBlank c := by
    unfold TokenKind.operatorText? at h
    split at h <;> try cases h
    all_goals
      have htext := (congrArg String.toList (Option.some.inj h)).trans String.toList_ofList
      rw [← htext]
      decide
  simpa using hall

theorem Numeral.WellFormed.not_isBlank {n : Numeral} (h : n.WellFormed) :
    ∀ c ∈ n.text, isBlank c = false := by
  have hall : plainDigits.all fun d => !isBlank d := by decide
  intro c hc
  rcases h.mem_text hc with hdigit | rfl
  · simpa using of_all_plainDigits hall hdigit
  · rfl

namespace IsLexeme

variable {text rest : List Char} {kind : TokenKind} {literal : Value}

/-- Only quoted texts have blanks in them. -/
theorem not_isBlank_of_mem (h : IsLexeme text kind literal) (hquote : '"' ∉ text.head?) :
    ∀ c ∈ text, isBlank c = false := by
  cases h with
  | operator hkind => exact not_isBlank_of_operatorText? hkind
  | numeral hn hd => exact hn.not_isBlank
  | quotation hbody => exact absurd rfl hquote
  | reserved hword hkind => exact hword.not_isBlank
  | name hword hkind => exact hword.not_isBlank

theorem kind_ne_endOfText (h : IsLexeme text kind literal) : kind ≠ .endOfText := by
  cases h with
  | operator hkind =>
    rintro rfl
    exact nomatch hkind
  | numeral | quotation | name => simp
  | reserved hword hkind => exact TokenKind.ofWord?_ne_endOfText hkind

/-- A quoted text ends at its second quote, whatever comes after it. -/
theorem length_le_of_quote {longer : List Char} {kind' : TokenKind} {literal' : Value}
    (h : IsLexeme ('"' :: text) kind literal) (h' : IsLexeme ('"' :: longer) kind' literal')
    (hstart : longer <+: text ++ rest) : longer.length ≤ text.length := by
  obtain ⟨body, hbody, rfl, -⟩ := isLexeme_cons_iff.mp h
  obtain ⟨body', hbody', rfl, -⟩ := isLexeme_cons_iff.mp h'
  obtain ⟨rest', hrest'⟩ := hstart
  have hsame : body' ++ '"' :: rest' = body ++ '"' :: rest := by simpa using hrest'
  obtain ⟨rfl, -⟩ :=
    split_unique hsame (bne_of_not_mem hbody') (by simp) (bne_of_not_mem hbody) (by simp)
  exact Nat.le_refl _

/-- A lexeme is taken whole at the end of a text. -/
theorem munch_nil (h : IsLexeme text kind literal) : Munch text [] := by
  obtain ⟨c, cs, rfl, hcontinues⟩ := h.continues
  constructor
  · intro longer kind' literal' hlonger hstart
    simpa using hstart.length_le
  · intro hcomment
    rw [List.append_nil] at hcomment
    obtain ⟨rfl, hslash⟩ := List.cons_prefix_cons.mp hcomment
    obtain ⟨rfl, -⟩ : cs = [] ∧ _ := hcontinues
    simp at hslash

/-- What a lexeme is followed by does not count from the first blank on: no lexeme goes over a
blank but a quoted text, and that one ends at its second quote. -/
theorem munch_blank (h : IsLexeme text kind literal) (hmunch : Munch text rest) {b : Char}
    (hblank : isBlank b) (more : List Char) : Munch text (rest ++ b :: more) := by
  have hsplit : text ++ (rest ++ b :: more) = text ++ rest ++ b :: more := by simp
  constructor
  · intro longer kind' literal' hlonger hstart
    rw [hsplit] at hstart
    rcases prefix_or_mem_of_prefix_append_cons hstart with hinside | hmem
    · exact hmunch.longest longer kind' literal' hlonger hinside
    · have hquote : '"' ∈ longer.head? := by
        by_contra hquote
        rw [hlonger.not_isBlank_of_mem hquote b hmem] at hblank
        exact Bool.false_ne_true hblank
      obtain ⟨body, rfl⟩ := List.head?_eq_some_iff.mp hquote
      obtain ⟨c, cs, rfl, -⟩ := h.continues
      rw [← hsplit, List.cons_append] at hstart
      obtain ⟨rfl, hbody⟩ := List.cons_prefix_cons.mp hstart
      exact Nat.succ_le_succ (length_le_of_quote h hlonger hbody)
  · rw [hsplit]
    intro hcomment
    rcases prefix_or_mem_of_prefix_append_cons hcomment with hinside | hmem
    · exact hmunch.not_comment hinside
    · obtain rfl : b = '/' := by simpa using hmem
      exact absurd hblank (by decide)

/-- A lexeme is taken whole when a blank or nothing comes after it. -/
theorem munch (h : IsLexeme text kind literal) (hrest : ∀ c ∈ rest.head?, isBlank c) :
    Munch text rest := by
  cases rest with
  | nil => exact h.munch_nil
  | cons b more => exact h.munch_blank h.munch_nil (hrest b rfl) more

end IsLexeme

theorem Gap.append {after gap gap' : List Char} (h : Gap (gap' ++ after) gap)
    (h' : Gap after gap') : Gap after (gap ++ gap') := by
  induction h with
  | nil => exact h'
  | blank hblank hgap ih => exact .blank hblank ih
  | comment hbody hends hgap ih =>
    rw [List.cons_append, List.cons_append, List.append_assoc]
    exact .comment hbody (by rwa [List.append_assoc]) ih

/-- A gap in front of a text belongs to its first gap. -/
theorem Layout.gap {before gap rest : List Char} {tokens : List Token} (hgap : Gap rest gap)
    (h : Layout (before ++ gap) rest tokens) : Layout before (gap ++ rest) tokens := by
  cases h with
  | ended hlast => exact .ended (.append (by rwa [List.append_nil]) hlast)
  | @token _ gap' text rest kind literal tokens hfirst htext hmunch hrest =>
    have hbehind : before ++ gap ++ gap' ++ text = before ++ (gap ++ gap') ++ text := by simp
    rw [hbehind] at hrest ⊢
    rw [← List.append_assoc]
    exact .token (hgap.append hfirst) htext hmunch hrest

/-- A token is read from its lexeme when a blank or nothing follows. -/
theorem Layout.lexeme {before rest : List Char} {t : Token} {tokens : List Token}
    (ht : t.OfLexeme) (hrest : ∀ c ∈ rest.head?, isBlank c)
    (h : Layout (before ++ t.lexeme.toList) rest tokens) :
    ∃ line, Layout before (t.lexeme.toList ++ rest)
      (⟨t.kind, t.lexeme, t.literal, line⟩ :: tokens) := by
  have htoken := @Layout.token before [] _ _ _ _ _ .nil ht (ht.munch hrest)
    (by simpa using h)
  rw [String.ofList_toList] at htoken
  exact ⟨_, htoken⟩

/-- Blanks and comments that keep apart what stands on both sides of them: every comment is
ended by a line feed. -/
inductive Separator : List Char → Prop
  | nil : Separator []
  | blank {c : Char} {rest : List Char} (hblank : isBlank c) (hrest : Separator rest) :
      Separator (c :: rest)
  | comment {body rest : List Char} (hbody : '\n' ∉ body) (hrest : Separator rest) :
      Separator ('/' :: '/' :: (body ++ '\n' :: rest))

theorem Separator.gap {separator : List Char} (h : Separator separator) (after : List Char) :
    Gap after separator := by
  induction h with
  | nil => exact .nil
  | blank hblank hrest ih => exact .blank hblank ih
  | comment hbody hrest ih =>
    exact .comment hbody (by simp) (.blank rfl ih)

/-- What follows a lexeme where tokens are written with separators: more of them, each behind
a separator that begins with a blank, and at the end nothing or a gap that begins with a blank.
Its last comment may run to the end of the text. -/
inductive SpacedOn : List Token → List Char → Prop
  | nothing : SpacedOn [] []
  | gap {c : Char} {gap : List Char} (hblank : isBlank c) (hgap : Gap [] gap) :
      SpacedOn [] (c :: gap)
  | token {c : Char} {separator rest : List Char} {t : Token} {ts : List Token}
      (hblank : isBlank c) (hseparator : Separator separator) (ht : t.OfLexeme)
      (hrest : SpacedOn ts rest) :
      SpacedOn (t :: ts) (c :: (separator ++ (t.lexeme.toList ++ rest)))

/-- The texts that write tokens, whatever lines they are on, with separators in front of them,
between them and behind them. -/
inductive Spaced : List Token → List Char → Prop
  | gap {gap : List Char} (hgap : Gap [] gap) : Spaced [] gap
  | token {separator rest : List Char} {t : Token} {ts : List Token}
      (hseparator : Separator separator) (ht : t.OfLexeme) (hrest : SpacedOn ts rest) :
      Spaced (t :: ts) (separator ++ (t.lexeme.toList ++ rest))

theorem SpacedOn.head_isBlank {ts : List Token} {text : List Char} (h : SpacedOn ts text) :
    ∀ c ∈ text.head?, isBlank c := by
  cases h with
  | nothing => simp
  | gap hblank | token hblank => simpa using hblank

/-- A token behind a separator is read, whatever the separator is. -/
theorem Layout.separated {before separator rest : List Char} {t : Token} {tokens ts : List Token}
    (hseparator : ∀ after, Gap after separator) (ht : t.OfLexeme)
    (hrest : ∀ c ∈ rest.head?, isBlank c)
    (h : Layout (before ++ separator ++ t.lexeme.toList) rest tokens)
    (hsame : tokens.map Token.withoutLine = ts.map Token.withoutLine) :
    ∃ tokens', Layout before (separator ++ (t.lexeme.toList ++ rest)) tokens' ∧
      tokens'.map Token.withoutLine = (t :: ts).map Token.withoutLine := by
  obtain ⟨line, hlayout⟩ := h.lexeme ht hrest
  refine ⟨_, hlayout.gap (hseparator _), ?_⟩
  rw [List.map_cons, List.map_cons, hsame]
  rfl

theorem SpacedOn.layout {ts : List Token} {text : List Char} (h : SpacedOn ts text)
    (before : List Char) : ∃ tokens, Layout before text tokens ∧
      tokens.map Token.withoutLine = ts.map Token.withoutLine := by
  induction h generalizing before with
  | nothing => exact ⟨[], .ended .nil, rfl⟩
  | gap hblank hgap => exact ⟨[], .ended (.blank hblank hgap), rfl⟩
  | @token c separator rest t ts hblank hseparator ht hrest ih =>
    obtain ⟨tokens, hlayout, hsame⟩ := ih (before ++ c :: separator ++ t.lexeme.toList)
    exact hlayout.separated (fun after => .blank hblank (hseparator.gap after)) ht
      hrest.head_isBlank hsame

theorem Spaced.layout {ts : List Token} {text : List Char} (h : Spaced ts text) :
    ∃ tokens, Layout [] text tokens ∧
      tokens.map Token.withoutLine = ts.map Token.withoutLine := by
  cases h with
  | gap hgap => exact ⟨[], .ended hgap, rfl⟩
  | @token separator rest t ts hseparator ht hrest =>
    obtain ⟨tokens, hlayout, hsame⟩ := hrest.layout ([] ++ separator ++ t.lexeme.toList)
    exact hlayout.separated hseparator.gap ht hrest.head_isBlank hsame

/-- Tokens written with separators are read back, but for their lines. -/
theorem Spaced.tokenize {ts : List Token} {text : String} (h : Spaced ts text.toList) :
    ∃ stream, tokenize text = .ok stream ∧
      stream.tokens.map Token.withoutLine = ts.map Token.withoutLine := by
  obtain ⟨tokens, hlayout, hsame⟩ := h.layout
  have hkinds : ∀ t ∈ tokens, t.kind ≠ .endOfText := fun t ht =>
    (hlayout.ofLexeme t ht).kind_ne_endOfText
  exact ⟨⟨tokens, Token.endOfText _, hkinds, rfl⟩, tokenize_eq_ok_iff.mpr ⟨hlayout, rfl⟩, hsame⟩

/-- Single spaces are separators. -/
theorem spaced_intercalate {ts : List Token} (h : ∀ t ∈ ts, t.OfLexeme) :
    Spaced ts (" ".intercalate (ts.map (·.lexeme))).toList := by
  have hon (ts : List Token) (h : ∀ t ∈ ts, t.OfLexeme) :
      SpacedOn ts (ts.flatMap fun t => ' ' :: t.lexeme.toList) := by
    induction ts with
    | nil => exact .nothing
    | cons t ts ih =>
      obtain ⟨ht, hts⟩ := List.forall_mem_cons.mp h
      exact .token rfl .nil ht (ih hts)
  have htext (t : Token) (ts : List Token) :
      (" ".intercalate ((t :: ts).map (·.lexeme))).toList =
        t.lexeme.toList ++ ts.flatMap fun t => ' ' :: t.lexeme.toList := by
    induction ts generalizing t with
    | nil => simp
    | cons next ts ih =>
      rw [List.flatMap_cons, List.cons_append, ← ih next]
      simp
  cases ts with
  | nil => exact .gap .nil
  | cons t ts =>
    obtain ⟨ht, hts⟩ := List.forall_mem_cons.mp h
    rw [htext]
    exact .token .nil ht (hon ts hts)

/-- Tokens written with single spaces between them are read back, but for their
lines. -/
theorem tokenize_spaced {ts : List Token} (h : ∀ t ∈ ts, t.OfLexeme) :
    ∃ stream, tokenize (" ".intercalate (ts.map (·.lexeme))) = .ok stream ∧
      stream.tokens.map Token.withoutLine = ts.map Token.withoutLine :=
  (spaced_intercalate h).tokenize

end LoxGraph
