import LoxGraph.Proofs.Cursor.Fault
import LoxGraph.Proofs.Cursor.Spacing
import LoxGraph.Proofs.Text.LineEnds

/-!
Short and long line ends.

A carriage return before a line feed is a blank, a part of a comment or a part of a string, and no
lexeme ends there that would not end at the line feed. So a text and the same text with short line
ends are read alike: the tokens are of the same kinds and on the same lines, or the fault is the
same, and only strings that go over line ends are shorter (`tokenize_shortLineEnds`).
-/

namespace LoxGraph

/-- A value whose text has short line ends. -/
def Value.shortened : Value → Value
  | .text s => .text (String.ofList (shortLineEnds s.toList))
  | v => v

/-- A token whose lexeme and whose carried text have short line ends. -/
def Token.shortened (t : Token) : Token :=
  { t with
    lexeme := String.ofList (shortLineEnds t.lexeme.toList)
    literal := t.literal.shortened }

theorem Gap.shortened {after gap : List Char} (h : Gap after gap) (hafter : '\n' ∉ after.head?) :
    Gap (shortLineEnds after) (shortLineEnds gap) := by
  induction h with
  | nil => exact .nil
  | @blank c gap hblank hgap ih =>
    by_cases hpair : c = '\r' ∧ '\n' ∈ gap.head?
    · obtain ⟨rfl, hfeed⟩ := hpair
      obtain ⟨gap, rfl⟩ := List.head?_eq_some_iff.mp hfeed
      exact ih
    · rw [shortLineEnds_cons fun hreturn hfeed => hpair ⟨hreturn, hfeed⟩]
      exact .blank hblank ih
  | @comment body gap hbody hends hgap ih =>
    rw [shortLineEnds_cons (by simp), shortLineEnds_cons (by simp)]
    cases gap with
    | nil =>
      -- Only the end of the text ends this comment.
      have hnil : after = [] := by
        cases after with
        | nil => rfl
        | cons c after => exact absurd (by rw [hends c rfl]; rfl) hafter
      subst hnil
      have hshort : shortLineEnds body = body := by
        by_contra hne
        exact hbody ((pair_infix_of_shortLineEnds_ne hne).subset (by simp))
      have hcomment : Gap [] ('/' :: '/' :: (body ++ [])) := .comment hbody (by simp) .nil
      rw [List.append_nil] at hcomment
      rw [List.append_nil, hshort]
      exact hcomment
    | cons c gap =>
      obtain rfl : c = '\n' := hends c rfl
      obtain ⟨body', hbody', hshort⟩ := shortLineEnds_lineFeed hbody
      rw [hshort]
      exact .comment hbody' (by simp) ih

theorem shortLineEnds_quotation_append (body rest : List Char) :
    shortLineEnds ('"' :: (body ++ ['"']) ++ rest) =
      '"' :: (shortLineEnds body ++ ['"']) ++ shortLineEnds rest := by
  have hsplit : '"' :: (body ++ ['"']) ++ rest = '"' :: (body ++ '"' :: rest) := by simp
  rw [hsplit, shortLineEnds_cons (by simp), shortLineEnds_append (by simp),
    shortLineEnds_cons (by simp)]
  simp

theorem shortLineEnds_quotation (body : List Char) :
    shortLineEnds ('"' :: (body ++ ['"'])) = '"' :: (shortLineEnds body ++ ['"']) := by
  simpa [shortLineEnds] using shortLineEnds_quotation_append body []

namespace IsLexeme

variable {text rest : List Char} {kind : TokenKind} {literal : Value}

/-- A lexeme is a quoted text, or there is no carriage return in it. -/
theorem quotation_or_plain (h : IsLexeme text kind literal) :
    (∃ body, '"' ∉ body ∧ text = '"' :: (body ++ ['"']) ∧ kind = .string ∧
      literal = .text (String.ofList body)) ∨ '"' ∉ text.head? ∧ '\r' ∉ text := by
  by_cases hquote : '"' ∈ text.head?
  · obtain ⟨cs, rfl⟩ := List.head?_eq_some_iff.mp hquote
    obtain ⟨body, hbody, rfl, hkind, hliteral⟩ := isLexeme_cons_iff.mp h
    exact .inl ⟨body, hbody, rfl, hkind, hliteral⟩
  · refine .inr ⟨hquote, fun hreturn => ?_⟩
    exact absurd (h.not_isBlank_of_mem hquote '\r' hreturn) (by decide)

/-- A lexeme does not end within a line end. -/
theorem shortLineEnds_append (h : IsLexeme text kind literal) (rest : List Char) :
    shortLineEnds (text ++ rest) = shortLineEnds text ++ shortLineEnds rest := by
  rcases h.quotation_or_plain with ⟨body, -, rfl, -⟩ | ⟨-, hreturn⟩
  · rw [shortLineEnds_quotation_append, shortLineEnds_quotation]
  · rw [shortLineEnds_append_of_not_mem hreturn, shortLineEnds_eq_self hreturn]

theorem shortened (h : IsLexeme text kind literal) :
    IsLexeme (shortLineEnds text) kind literal.shortened := by
  rcases h.quotation_or_plain with ⟨body, hbody, rfl, rfl, rfl⟩ | ⟨hquote, hreturn⟩
  · rw [shortLineEnds_quotation, Value.shortened, String.toList_ofList]
    exact .quotation fun hmem => hbody ((shortLineEnds_sublist body).mem hmem)
  · have hliteral : literal.shortened = literal := by
      cases h with
      | quotation hbody => exact absurd rfl hquote
      | operator | numeral | reserved => rfl
      | name => rw [Value.shortened, String.toList_ofList, shortLineEnds_eq_self hreturn]
    rw [shortLineEnds_eq_self hreturn, hliteral]
    exact h

theorem munch_shortened (h : IsLexeme text kind literal) (hmunch : Munch text rest) :
    Munch (shortLineEnds text) (shortLineEnds rest) := by
  constructor
  · intro longer kind' literal' hlonger hstart
    by_cases hquote : '"' ∈ longer.head?
    · obtain ⟨cs, rfl⟩ := List.head?_eq_some_iff.mp hquote
      have hshort := h.shortened
      obtain ⟨d, ds, htext, -⟩ := hshort.continues
      rw [htext] at hshort hstart ⊢
      obtain ⟨rfl, hcs⟩ := List.cons_prefix_cons.mp hstart
      exact Nat.succ_le_succ (hshort.length_le_of_quote hlonger hcs)
    · rw [← h.shortLineEnds_append] at hstart
      have hstart' := prefix_of_prefix_shortLineEnds (hlonger.not_isBlank_of_mem hquote) hstart
      -- The lexeme begins as the longer one does, so it is no quoted text either.
      have hsame : text.head? = longer.head? := by
        obtain ⟨c, cs, rfl, -⟩ := hlonger.continues
        obtain ⟨d, ds, rfl, -⟩ := h.continues
        rw [(List.cons_prefix_cons.mp hstart').1]
        rfl
      rcases h.quotation_or_plain with ⟨body, -, rfl, -⟩ | ⟨-, hreturn⟩
      · exact absurd hsame.symm hquote
      · rw [shortLineEnds_eq_self hreturn]
        exact hmunch.longest longer kind' literal' hlonger hstart'
  · rw [← h.shortLineEnds_append]
    intro hcomment
    have hslashes : ∀ c ∈ ['/', '/'], isBlank c = false := by simp [isBlank]
    exact hmunch.not_comment (prefix_of_prefix_shortLineEnds hslashes hcomment)

end IsLexeme

/-- What begins no token begins none when line ends are short. -/
theorem Reading.Found.fault_shortened {fault : LexicalFault} {taken rest : List Char}
    (h : Found ⟨.fault fault, taken, rest⟩) :
    Found ⟨.fault fault, shortLineEnds taken, shortLineEnds rest⟩ ∧
      shortLineEnds (taken ++ rest) = shortLineEnds taken ++ shortLineEnds rest ∧
      '\n' ∉ (taken ++ rest).head? := by
  cases h with
  | @openQuotation body hbody =>
    have hshort : shortLineEnds ('"' :: body) = '"' :: shortLineEnds body :=
      shortLineEnds_cons (by simp)
    have hquote : '"' ∉ shortLineEnds body := fun hmem =>
      hbody ((shortLineEnds_sublist body).mem hmem)
    rw [List.append_nil, hshort]
    exact ⟨.openQuotation hquote, (List.append_nil _).symm, by simp⟩
  | @unknown c _ hblank hquote hnone =>
    have hnothing : BeginsNothing c := beginsNothing_of_found (.unknown hblank hquote hnone)
    have hshort (cs : List Char) : shortLineEnds (c :: cs) = c :: shortLineEnds cs := by
      apply shortLineEnds_cons
      rintro rfl
      exact absurd hblank (by decide)
    rw [hshort]
    refine ⟨hnothing.found _, hshort rest, ?_⟩
    intro hfeed
    obtain rfl : c = '\n' := Option.some.inj hfeed
    exact absurd hblank (by decide)

namespace Cursor

/-- Whether a cursor is on the same line as another one and has the same text ahead with short
line ends. -/
structure Shortened (cursor other : Cursor) : Prop where
  ahead_eq : other.ahead = shortLineEnds cursor.ahead
  line_eq : other.line = cursor.line

variable {cursor other : Cursor}

/-- No gap ends within a line end, when something else than a gap follows it. -/
theorem Shortened.ahead_split {gap text : List Char} (h : Shortened cursor other)
    (hahead : cursor.ahead = gap ++ text) (htext : '\n' ∉ text.head?) :
    other.ahead = shortLineEnds gap ++ shortLineEnds text := by
  rw [h.ahead_eq, hahead, shortLineEnds_append htext]

/-- As many line feeds are passed with short line ends. -/
theorem Shortened.line_append (h : Shortened cursor other) (cs ds : List Char) :
    other.line + ((shortLineEnds cs ++ shortLineEnds ds).count '\n' : Int) =
      cursor.line + ((cs ++ ds).count '\n' : Int) := by
  rw [h.line_eq, List.count_append, List.count_append, count_shortLineEnds, count_shortLineEnds]

theorem Shortened.advance_token {next : Cursor} {t : Token} (h : Shortened cursor other)
    (hstep : cursor.advance = (.token t, next)) :
    ∃ next', other.advance = (.token t.shortened, next') ∧ Shortened next next' := by
  cases meets_of_advance hstep with
  | @token gap text kind literal _ hahead hgap htext hmunch hline =>
    have hfeed : '\n' ∉ (text ++ next.ahead).head? := by
      obtain ⟨c, cs, rfl, -⟩ := htext.continues
      intro hc
      obtain rfl : c = '\n' := Option.some.inj hc
      exact absurd htext.not_isBlank (by decide)
    have hshort := h.ahead_split hahead hfeed
    have hgapShort := hgap.shortened hfeed
    rw [htext.shortLineEnds_append] at hshort hgapShort
    obtain ⟨next', hnext, haheadNext, hlineNext⟩ :=
      advance_lexeme hgapShort htext.shortened (htext.munch_shortened hmunch) hshort
    have hsame : next'.line = next.line := by rw [hlineNext, h.line_append, hline]
    refine ⟨next', ?_, haheadNext, hsame⟩
    rw [hnext, hsame, Token.shortened, String.toList_ofList]

theorem Shortened.advance_ended {after : Cursor} {t : Token} (h : Shortened cursor other)
    (hstep : cursor.advance = (.ended t, after)) :
    ∃ after', other.advance = (.ended t, after') := by
  cases meets_of_advance hstep with
  | ended hgap hnil hline =>
    have hgapShort : Gap [] other.ahead := by
      rw [h.ahead_eq]
      exact hgap.shortened (by simp)
    obtain ⟨after', hstep', hlineAfter⟩ := advance_end hgapShort
    refine ⟨after', ?_⟩
    rw [hstep', hlineAfter, h.line_eq, h.ahead_eq, count_shortLineEnds, hline]

theorem Shortened.advance_failed {after : Cursor} {e : LexicalError} (h : Shortened cursor other)
    (hstep : cursor.advance = (.failed e, after)) :
    ∃ after', other.advance = (.failed e, after') := by
  cases meets_of_advance hstep with
  | @failed gap text fault _ hahead hgap hfound hline =>
    obtain ⟨hfoundShort, hsplit, hfeed⟩ := hfound.fault_shortened
    have hshort := h.ahead_split hahead hfeed
    have hgapShort := hgap.shortened hfeed
    rw [hsplit] at hshort hgapShort
    obtain ⟨after', hstep', -, hlineAfter⟩ := advance_fault hgapShort hfoundShort hshort
    have hsame : after'.line = after.line := by rw [hlineAfter, h.line_append, hline]
    rw [hsame] at hstep'
    exact ⟨after', hstep'⟩

/-- With short line ends the same tokens are passed, but for the line ends in them. -/
theorem Shortened.passes {last : Cursor} {tokens : List Token} (h : Shortened cursor other)
    (hpasses : cursor.Passes tokens last) :
    ∃ last', other.Passes (tokens.map Token.shortened) last' ∧ Shortened last last' := by
  induction hpasses generalizing other with
  | here cursor => exact ⟨other, .here other, h⟩
  | token first others ih =>
    obtain ⟨next, hstep, hnext⟩ := h.advance_token first
    obtain ⟨last', hothers, hlast⟩ := ih hnext
    exact ⟨last', .token hstep hothers, hlast⟩

end Cursor

/-- Only strings over line ends are changed: all that a token carries is told by its lexeme. -/
theorem Token.OfLexeme.string_of_shortened_ne {t : Token} (h : t.OfLexeme) (hne : t.shortened ≠ t) :
    t.kind = .string ∧ ['\r', '\n'] <:+: t.lexeme.toList := by
  have hpair : ['\r', '\n'] <:+: t.lexeme.toList := by
    apply pair_infix_of_shortLineEnds_ne
    intro hlexeme
    have hshort := IsLexeme.shortened h
    rw [hlexeme] at hshort
    obtain ⟨-, hliteral⟩ := hshort.unique h
    rw [Token.shortened, hlexeme, hliteral, String.ofList_toList] at hne
    exact hne rfl
  rcases IsLexeme.quotation_or_plain h with ⟨body, -, -, hkind, -⟩ | ⟨-, hreturn⟩
  · exact ⟨hkind, hpair⟩
  · exact absurd (hpair.subset (by simp)) hreturn

/-- The tokens of a stream with short line ends. -/
def TokenStream.shortened (stream : TokenStream) : TokenStream where
  tokens := stream.tokens.map Token.shortened
  ending := stream.ending
  tokens_kind := by
    intro t ht
    obtain ⟨t', ht', rfl⟩ := List.mem_map.mp ht
    exact stream.tokens_kind t' ht'
  ending_kind := stream.ending_kind

theorem tokenize_shortened (text : String) :
    tokenize (String.ofList (shortLineEnds text.toList)) =
      (tokenize text).map TokenStream.shortened := by
  have hstart : Cursor.Shortened (.atStart text.toList)
      (.atStart (String.ofList (shortLineEnds text.toList)).toList) := by
    rw [String.toList_ofList]
    exact ⟨rfl, rfl⟩
  cases htokenize : tokenize text with
  | error e =>
    obtain ⟨tokens, last, after, hpasses, hfailed⟩ := tokenize_eq_iff.mp htokenize
    obtain ⟨last', hpasses', hlast⟩ := hstart.passes hpasses
    obtain ⟨after', hfailed'⟩ := hlast.advance_failed hfailed
    exact tokenize_eq_iff.mpr ⟨_, last', after', hpasses', hfailed'⟩
  | ok stream =>
    obtain ⟨tokens, last, after, hpasses, rfl, hended⟩ := tokenize_eq_iff.mp htokenize
    obtain ⟨last', hpasses', hlast⟩ := hstart.passes hpasses
    obtain ⟨after', hended'⟩ := hlast.advance_ended hended
    exact tokenize_eq_iff.mpr ⟨_, last', after', hpasses', rfl, hended'⟩

/-- Long line ends do no harm. A text and the same text with short line ends have the same fault on
the same line, or they have tokens that agree one by one in kind and line, and in lexeme and carried
value when these are given short line ends; only strings with a long line end in them differ. -/
theorem tokenize_shortLineEnds (text : String) :
    let short := String.ofList (shortLineEnds text.toList)
    (∃ e, tokenize text = .error e ∧ tokenize short = .error e) ∨
    ∃ stream stream', tokenize text = .ok stream ∧ tokenize short = .ok stream' ∧
      stream'.toList = stream.toList.map Token.shortened ∧
      ∀ t ∈ stream.toList, t.shortened ≠ t →
        t.kind = .string ∧ ['\r', '\n'] <:+: t.lexeme.toList := by
  intro short
  have hshort : tokenize short = (tokenize text).map TokenStream.shortened :=
    tokenize_shortened text
  cases htokenize : tokenize text with
  | error e =>
    rw [htokenize] at hshort
    exact .inl ⟨e, rfl, hshort⟩
  | ok stream =>
    rw [htokenize] at hshort
    have hlast : stream.ending.shortened = stream.ending := by
      rw [(tokenize_eq_ok_iff.mp htokenize).2]
      rfl
    refine .inr ⟨stream, stream.shortened, rfl, hshort, ?_, ?_⟩
    · simp [TokenStream.toList, TokenStream.shortened, hlast]
    · intro t ht hne
      rcases ofText_of_tokenize htokenize t ht with hlexeme | ⟨line, rfl⟩
      · exact hlexeme.string_of_shortened_ne hne
      · exact absurd rfl hne

end LoxGraph
