import LoxGraph.Proofs.Lexeme.Numeral

/-!
The lexical grammar.

A lexeme is an operator, a numeral, a quoted text, a reserved word or a name.
Its first character tells which of them it is and how it may go on
(`isLexeme_cons_iff`), so that a text is a lexeme in one way at most
(`IsLexeme.unique`). No lexeme begins with a blank.
-/

namespace LoxGraph

/-- A letter, then characters that a name may go on with. -/
def IsWord (text : List Char) : Prop :=
  ∃ c cs, text = c :: cs ∧ isLetter c ∧ ∀ d ∈ cs, isNameChar d

/-- The lexemes, each with its kind and the value that it carries. -/
inductive IsLexeme : List Char → TokenKind → Value → Prop
  | operator {text : List Char} {kind : TokenKind}
      (hkind : kind.operatorText? = some (String.ofList text)) : IsLexeme text kind .none
  | numeral {n : Numeral} {d : Double} (hn : n.WellFormed)
      (hd : Double.ofText? (String.ofList n.text) = some d) : IsLexeme n.text .number (.double d)
  | quotation {body : List Char} (hbody : '"' ∉ body) :
      IsLexeme ('"' :: (body ++ ['"'])) .string (.text (String.ofList body))
  | reserved {text : List Char} {kind : TokenKind} (hword : IsWord text)
      (hkind : TokenKind.ofWord? (String.ofList text) = some kind) : IsLexeme text kind .none
  | name {text : List Char} (hword : IsWord text)
      (hkind : TokenKind.ofWord? (String.ofList text) = none) :
      IsLexeme text .identifier (.text (String.ofList text))

/-- What a character opens when it comes first in a text. -/
inductive Opening where
  | punctuation (kind : TokenKind)
  | comparison (alone withEqual : TokenKind)
  | slash | blank | quote | digit | letter | nothing
deriving DecidableEq

namespace Opening

def of (c : Char) : Opening :=
  if let some kind := punctuation? c then punctuation kind
  else if let some (alone, withEqual) := comparison? c then comparison alone withEqual
  else if c = '/' then slash
  else if isBlank c then blank
  else if c = '"' then quote
  else if c.isDigit then digit
  else if isLetter c then letter
  else nothing

/-- How a lexeme goes on after its first character. -/
def Continues (c : Char) (cs : List Char) (kind : TokenKind) (literal : Value) : Opening → Prop
  | punctuation only => cs = [] ∧ kind = only ∧ literal = .none
  | comparison alone withEqual =>
    (cs = [] ∧ kind = alone ∨ cs = ['='] ∧ kind = withEqual) ∧ literal = .none
  | slash => cs = [] ∧ kind = .slash ∧ literal = .none
  | quote => ∃ body, '"' ∉ body ∧ cs = body ++ ['"'] ∧ kind = .string ∧
      literal = .text (String.ofList body)
  | digit => ∃ n : Numeral, n.WellFormed ∧ n.text = c :: cs ∧ kind = .number ∧
      literal = .double n.toDouble
  | letter => (∀ d ∈ cs, isNameChar d) ∧
      match TokenKind.ofWord? (String.ofList (c :: cs)) with
      | some reserved => kind = reserved ∧ literal = .none
      | none => kind = .identifier ∧ literal = .text (String.ofList (c :: cs))
  | blank => False
  | nothing => False

/-- What is true of a character that opens something. -/
def Holds (c : Char) : Opening → Prop
  | punctuation kind => punctuation? c = some kind
  | comparison alone withEqual => comparison? c = some (alone, withEqual)
  | slash => c = '/'
  | blank => isBlank c
  | quote => c = '"'
  | digit => c.isDigit
  | letter => isLetter c
  | nothing => isBlank c = false ∧ c ≠ '"'

theorem of_holds (c : Char) : (of c).Holds c := by
  unfold of
  split
  · assumption
  split
  · assumption
  split
  · assumption
  split
  · assumption
  split
  · assumption
  split
  · assumption
  split
  · assumption
  · exact ⟨by simpa using ‹¬ isBlank c›, ‹¬ c = '"'›⟩

/-- The characters other than letters that open anything. -/
def signs : List Char := "()\x7b\x7d,.-+;*!=<>/ \t\r\n\"0123456789".toList

theorem mem_signs_of_punctuation? {c : Char} {kind : TokenKind} (h : punctuation? c = some kind) :
    c ∈ signs := by
  unfold punctuation? at h
  split at h <;> first | decide | cases h

theorem mem_signs_of_comparison? {c : Char} {kinds : TokenKind × TokenKind}
    (h : comparison? c = some kinds) : c ∈ signs := by
  unfold comparison? at h
  split at h <;> first | decide | cases h

theorem mem_signs_of_isBlank {c : Char} (h : isBlank c) : c ∈ signs := by
  simp only [isBlank, Bool.or_eq_true, beq_iff_eq] at h
  rcases h with ((rfl | rfl) | rfl) | rfl <;> decide

theorem mem_signs_of_isDigit {c : Char} (h : c.isDigit) : c ∈ signs := by
  have hall : plainDigits.all (signs.contains ·) := by decide
  simpa using of_all_plainDigits hall h

theorem of_isDigit {c : Char} (h : c.isDigit) : of c = digit := by
  have hall : plainDigits.all (of · == digit) := by decide
  simpa using of_all_plainDigits hall h

theorem of_isBlank {c : Char} (h : isBlank c) : of c = blank := by
  simp only [isBlank, Bool.or_eq_true, beq_iff_eq] at h
  rcases h with ((rfl | rfl) | rfl) | rfl <;> decide

theorem not_mem_signs_of_isLetter {c : Char} (h : isLetter c) : c ∉ signs := by
  have hall : signs.all (!isLetter ·) := by decide
  intro hmem
  have hnot := List.all_eq_true.mp hall c hmem
  simp [h] at hnot

theorem of_isLetter {c : Char} (h : isLetter c) : of c = letter := by
  have hsigns : c ∉ signs := not_mem_signs_of_isLetter h
  unfold of
  split
  · rename_i hkind
    exact absurd (mem_signs_of_punctuation? hkind) hsigns
  split
  · rename_i hkinds
    exact absurd (mem_signs_of_comparison? hkinds) hsigns
  split
  · rename_i hslash
    exact absurd (by rw [hslash]; decide) hsigns
  split
  · rename_i hblank
    exact absurd (mem_signs_of_isBlank hblank) hsigns
  split
  · rename_i hquote
    exact absurd (by rw [hquote]; decide) hsigns
  split
  · rename_i hdigit
    exact absurd (mem_signs_of_isDigit hdigit) hsigns
  rfl

end Opening

/-- Operators go on as the openings of their first characters say. -/
theorem continues_of_operatorText? {text : List Char} {kind : TokenKind}
    (h : kind.operatorText? = some (String.ofList text)) :
    ∃ c cs, text = c :: cs ∧ (Opening.of c).Continues c cs kind .none := by
  unfold TokenKind.operatorText? at h
  split at h <;> try cases h
  all_goals
    have htext := (congrArg String.toList (Option.some.inj h)).trans String.toList_ofList
    refine ⟨_, _, htext.symm, ?_⟩
    first
    | exact ⟨rfl, rfl, rfl⟩
    | exact ⟨.inl ⟨rfl, rfl⟩, rfl⟩
    | exact ⟨.inr ⟨rfl, rfl⟩, rfl⟩

theorem operatorText?_of_punctuation? {c : Char} {kind : TokenKind}
    (h : punctuation? c = some kind) : kind.operatorText? = some (String.ofList [c]) := by
  unfold punctuation? at h
  split at h <;> cases h <;> rfl

theorem operatorText?_of_comparison? {c : Char} {alone withEqual : TokenKind}
    (h : comparison? c = some (alone, withEqual)) :
    alone.operatorText? = some (String.ofList [c]) ∧
      withEqual.operatorText? = some (String.ofList [c, '=']) := by
  unfold comparison? at h
  split at h <;> cases h <;> exact ⟨rfl, rfl⟩

theorem IsLexeme.continues {text : List Char} {kind : TokenKind} {literal : Value}
    (h : IsLexeme text kind literal) :
    ∃ c cs, text = c :: cs ∧ (Opening.of c).Continues c cs kind literal := by
  cases h with
  | operator hkind => exact continues_of_operatorText? hkind
  | @numeral n d hn hd =>
    obtain ⟨c, cs, htext⟩ := List.exists_cons_of_ne_nil hn.text_ne_nil
    have hdigit : c.isDigit := hn.head?_text (by simp [htext])
    rw [hn.ofText?_text, Option.some.injEq] at hd
    refine ⟨c, cs, htext, ?_⟩
    rw [Opening.of_isDigit hdigit]
    exact ⟨n, hn, htext, rfl, by rw [hd]⟩
  | @quotation body hbody => exact ⟨'"', body ++ ['"'], rfl, body, hbody, rfl, rfl, rfl⟩
  | reserved hword hkind =>
    obtain ⟨c, cs, rfl, hletter, hchars⟩ := hword
    refine ⟨c, cs, rfl, ?_⟩
    rw [Opening.of_isLetter hletter, Opening.Continues, hkind]
    exact ⟨hchars, rfl, rfl⟩
  | name hword hkind =>
    obtain ⟨c, cs, rfl, hletter, hchars⟩ := hword
    refine ⟨c, cs, rfl, ?_⟩
    rw [Opening.of_isLetter hletter, Opening.Continues, hkind]
    exact ⟨hchars, rfl, rfl⟩

theorem isLexeme_of_continues {c : Char} {cs : List Char} {kind : TokenKind} {literal : Value}
    (h : (Opening.of c).Continues c cs kind literal) : IsLexeme (c :: cs) kind literal := by
  have hholds := Opening.of_holds c
  generalize Opening.of c = opening at h hholds
  cases opening with
  | punctuation only =>
    obtain ⟨rfl, rfl, rfl⟩ := h
    exact .operator (operatorText?_of_punctuation? hholds)
  | comparison alone withEqual =>
    obtain ⟨halone, hequal⟩ := operatorText?_of_comparison? hholds
    obtain ⟨⟨rfl, rfl⟩ | ⟨rfl, rfl⟩, rfl⟩ := h
    · exact .operator halone
    · exact .operator hequal
  | slash =>
    obtain ⟨rfl, rfl, rfl⟩ := h
    obtain rfl : c = '/' := hholds
    exact .operator rfl
  | blank => exact h.elim
  | quote =>
    obtain ⟨body, hbody, rfl, rfl, rfl⟩ := h
    obtain rfl : c = '"' := hholds
    exact .quotation hbody
  | digit =>
    obtain ⟨n, hn, htext, rfl, rfl⟩ := h
    rw [← htext]
    exact .numeral hn hn.ofText?_text
  | letter =>
    obtain ⟨hchars, hword⟩ := h
    cases hkind : TokenKind.ofWord? (String.ofList (c :: cs)) with
    | some reserved =>
      rw [hkind] at hword
      obtain ⟨rfl, rfl⟩ := hword
      exact .reserved ⟨c, cs, rfl, hholds, hchars⟩ hkind
    | none =>
      rw [hkind] at hword
      obtain ⟨rfl, rfl⟩ := hword
      exact .name ⟨c, cs, rfl, hholds, hchars⟩ hkind
  | nothing => exact h.elim

/-- The first character of a text tells how it is a lexeme. -/
theorem isLexeme_cons_iff {c : Char} {cs : List Char} {kind : TokenKind} {literal : Value} :
    IsLexeme (c :: cs) kind literal ↔ (Opening.of c).Continues c cs kind literal := by
  constructor
  · intro h
    obtain ⟨d, ds, htext, hcontinues⟩ := h.continues
    obtain ⟨rfl, rfl⟩ := List.cons.inj htext
    exact hcontinues
  · exact isLexeme_of_continues

/-- A text is a lexeme of one kind and carries one value. -/
theorem IsLexeme.unique {text : List Char} {kind kind' : TokenKind} {literal literal' : Value}
    (h : IsLexeme text kind literal) (h' : IsLexeme text kind' literal') :
    kind = kind' ∧ literal = literal' := by
  obtain ⟨c, cs, rfl, hcontinues⟩ := h.continues
  have hcontinues' := isLexeme_cons_iff.mp h'
  generalize Opening.of c = opening at hcontinues hcontinues'
  cases opening with
  | punctuation only => simp_all [Opening.Continues]
  | comparison alone withEqual =>
    obtain ⟨⟨rfl, rfl⟩ | ⟨rfl, rfl⟩, rfl⟩ := hcontinues
    · obtain ⟨⟨-, rfl⟩ | ⟨hnil, -⟩, rfl⟩ := hcontinues'
      · exact ⟨rfl, rfl⟩
      · cases hnil
    · obtain ⟨⟨hnil, -⟩ | ⟨-, rfl⟩, rfl⟩ := hcontinues'
      · cases hnil
      · exact ⟨rfl, rfl⟩
  | slash => simp_all [Opening.Continues]
  | blank => simp_all [Opening.Continues]
  | quote =>
    obtain ⟨body, -, hbody, rfl, rfl⟩ := hcontinues
    obtain ⟨body', -, hbody', rfl, rfl⟩ := hcontinues'
    rw [hbody] at hbody'
    rw [List.append_cancel_right hbody']
    exact ⟨rfl, rfl⟩
  | digit =>
    obtain ⟨n, hn, htext, rfl, rfl⟩ := hcontinues
    obtain ⟨n', hn', htext', rfl, rfl⟩ := hcontinues'
    have hdouble := hn.ofText?_text
    rw [htext, ← htext', hn'.ofText?_text, Option.some.injEq] at hdouble
    exact ⟨rfl, by rw [hdouble]⟩
  | letter =>
    obtain ⟨-, hword⟩ := hcontinues
    obtain ⟨-, hword'⟩ := hcontinues'
    cases hkind : TokenKind.ofWord? (String.ofList (c :: cs)) <;> simp_all
  | nothing => simp_all [Opening.Continues]

/-- The lexemes of numbers are the numerals. -/
theorem IsLexeme.of_number {text : List Char} {literal : Value}
    (h : IsLexeme text .number literal) :
    ∃ n : Numeral, n.WellFormed ∧ text = n.text ∧ literal = .double n.toDouble := by
  cases h with
  | operator hkind => exact nomatch hkind
  | @numeral n d hn hd =>
    rw [hn.ofText?_text] at hd
    exact ⟨n, hn, rfl, congrArg Value.double (Option.some.inj hd).symm⟩
  | reserved hword hkind =>
    have hall : ∀ entry ∈ TokenKind.reserved, entry.2 ≠ .number := by decide
    exact absurd rfl (hall _ (TokenKind.mem_reserved_of_ofWord? hkind))

/-- The lexemes of strings are the quoted texts. -/
theorem IsLexeme.of_string {text : List Char} {literal : Value}
    (h : IsLexeme text .string literal) :
    ∃ body, '"' ∉ body ∧ text = '"' :: (body ++ ['"']) ∧
      literal = .text (String.ofList body) := by
  cases h with
  | operator hkind => exact nomatch hkind
  | @quotation body hbody => exact ⟨body, hbody, rfl, rfl⟩
  | reserved hword hkind =>
    have hall : ∀ entry ∈ TokenKind.reserved, entry.2 ≠ .string := by decide
    exact absurd rfl (hall _ (TokenKind.mem_reserved_of_ofWord? hkind))

theorem IsLexeme.not_isBlank {c : Char} {cs : List Char} {kind : TokenKind} {literal : Value}
    (h : IsLexeme (c :: cs) kind literal) : isBlank c = false := by
  cases hblank : isBlank c with
  | false => rfl
  | true =>
    have hcontinues := isLexeme_cons_iff.mp h
    rw [Opening.of_isBlank hblank] at hcontinues
    exact hcontinues.elim

/-- A character that opens a lexeme other than a quoted text is one by itself. -/
theorem isLexeme_singleton {c : Char} (hblank : isBlank c = false) (hquote : c ≠ '"')
    (hopening : Opening.of c ≠ .nothing) : ∃ kind literal, IsLexeme [c] kind literal := by
  have hholds := Opening.of_holds c
  generalize Opening.of c = opening at hopening hholds
  cases opening with
  | punctuation kind => exact ⟨_, _, .operator (operatorText?_of_punctuation? hholds)⟩
  | comparison alone withEqual => exact ⟨_, _, .operator (operatorText?_of_comparison? hholds).1⟩
  | slash =>
    obtain rfl : c = '/' := hholds
    exact ⟨.slash, .none, .operator rfl⟩
  | blank => exact absurd hholds (by simp [Opening.Holds, hblank])
  | quote => exact absurd hholds hquote
  | digit =>
    have hdigit : c.isDigit := hholds
    have hn : Numeral.WellFormed ⟨[c], []⟩ := ⟨by simp, by simpa using hdigit, by simp⟩
    exact ⟨_, _, .numeral hn hn.ofText?_text⟩
  | letter =>
    have hword : IsWord [c] := ⟨c, [], rfl, hholds, by simp⟩
    cases hkind : TokenKind.ofWord? (String.ofList [c]) with
    | some kind => exact ⟨_, _, .reserved hword hkind⟩
    | none => exact ⟨_, _, .name hword hkind⟩
  | nothing => exact absurd rfl hopening

end LoxGraph
