import LoxGraph.Proofs.Cursor.Passage
import LoxGraph.Proofs.Lexeme.Munch
import LoxGraph.Proofs.Stepwise.Scanner

/-!
Scanning step by step is tokenizing.

A piece is scanned as `Reading.next` reads it, with the index and the line moved over
what it takes (`scanPiece_run`). No index is out of range, only numerals are read as
numbers, and no loop runs out; what is raised is the fault of the reading. A whole text
is scanned as `tokenize` says (`scanTokens_run`).
-/

namespace LoxGraph.Stepwise

/-- What comes of scanning the piece that a reading finds at index `k` and line `l`. -/
def pieceResult (k : Nat) (l : Int) (reading : Reading) :
    EStateM.Result (Raised LexicalError) Place (Option Token) :=
  let later : Place := ⟨k, k + reading.taken.length, l + reading.taken.count '\n'⟩
  match reading.piece with
  | .gap => .ok none later
  | .lexeme kind literal =>
    .ok (some ⟨kind, String.ofList reading.taken, literal, later.line⟩) later
  | .fault fault => .error (.report ⟨later.line, fault⟩) later

variable {text taken rest : List Char} {c : Char} {cs : List Char} {k n : Nat} {l : Int}

theorem slice_eq (h : text.drop k = taken ++ rest) (hlast : n = k + taken.length) :
    slice text k n = taken := by
  have hlength : n - k = taken.length := by omega
  rw [slice, h, hlength, List.take_left]

theorem makeToken_run (h : text.drop k = taken ++ rest) (hlast : n = k + taken.length)
    (kind : TokenKind) (literal : Value) :
    (makeToken text kind literal).run ⟨k, n, l⟩ =
      .ok ⟨kind, String.ofList taken, literal, l⟩ ⟨k, n, l⟩ := by
  rw [makeToken, Action.run_bind_get, slice_eq h hlast]
  rfl

/-- A lexeme without a line feed in it. -/
theorem pieceResult_lexeme (kind : TokenKind) (literal : Value) (hfeed : '\n' ∉ taken) :
    pieceResult k l ⟨.lexeme kind literal, taken, rest⟩ =
      .ok (some ⟨kind, String.ofList taken, literal, l⟩) ⟨k, k + taken.length, l⟩ := by
  simp [pieceResult, List.count_eq_zero_of_not_mem hfeed]

theorem makeToken_some_run (h : text.drop k = taken ++ rest) (hlast : n = k + taken.length)
    (hfeed : '\n' ∉ taken) (kind : TokenKind) (literal : Value) :
    (some <$> makeToken text kind literal).run ⟨k, n, l⟩ =
      pieceResult k l ⟨.lexeme kind literal, taken, rest⟩ := by
  rw [Action.run_map_of_ok (makeToken_run h hlast kind literal), pieceResult_lexeme _ _ hfeed,
    hlast]

theorem scanComparison_run (h : text.drop k = c :: cs) (hfeed : c ≠ '\n')
    (alone withEqual : TokenKind) :
    (do
      let equal ← takeIf text '='
      some <$> makeToken text (if equal then withEqual else alone) .none :
        Scanning (Option Token)).run ⟨k, k + 1, l⟩ =
      pieceResult k l (Reading.comparison c alone withEqual cs) := by
  have hahead : text.drop (k + 1) = cs := drop_succ h
  unfold Reading.comparison
  split
  · rename_i rest
    have htaken : text.drop k = [c, '='] ++ rest := h
    rw [Action.run_bind_of_ok (takeIf_run_of_eq hahead), if_pos rfl]
    exact makeToken_some_run htaken rfl (by simp [hfeed.symm]) withEqual .none
  · rename_i hequal
    have hne : ∀ d ∈ cs.head?, d ≠ '=' := by
      rintro d hd rfl
      obtain ⟨ds, rfl⟩ := List.head?_eq_some_iff.mp hd
      exact hequal ds rfl
    have htaken : text.drop k = [c] ++ cs := h
    rw [Action.run_bind_of_ok (takeIf_run_of_ne hahead hne), if_neg Bool.false_ne_true]
    exact makeToken_some_run htaken rfl (by simp [hfeed.symm]) alone .none

theorem not_mem_takeWhile {p : Char → Bool} {d : Char} (hd : p d = false) (cs : List Char) :
    d ∉ cs.takeWhile p := by
  intro hmem
  rw [takeWhile_passes p cs d hmem] at hd
  cases hd

theorem drop_add_length {ahead : List Char} (h : text.drop k = taken ++ ahead) :
    text.drop (k + taken.length) = ahead := by
  rw [← List.drop_drop, h, List.drop_left]

theorem length_le_of_drop {ahead : List Char} (h : text.drop k = ahead) :
    ahead.length ≤ text.length := by
  rw [← h, List.length_drop]
  exact Nat.sub_le _ _

theorem scanSlash_run (h : text.drop k = '/' :: cs) :
    (scanSlash text).run ⟨k, k + 1, l⟩ = pieceResult k l (Reading.slash cs) := by
  have hahead : text.drop (k + 1) = cs := drop_succ h
  unfold Reading.slash
  split
  · rename_i body
    have hbody : text.drop (k + 1 + 1) = body := drop_succ hahead
    have hfeeds : ('/' :: '/' :: body.takeWhile (· != '\n')).count '\n' = 0 :=
      List.count_eq_zero_of_not_mem (by simp [not_mem_takeWhile])
    rw [scanSlash, Action.run_bind_of_ok (takeIf_run_of_eq hahead), if_pos rfl,
      Action.run_bind_of_ok (skipTo_run hbody (length_le_of_drop hbody))]
    have hcurrent : k + 1 + 1 + (body.takeWhile (· != '\n')).length =
        k + ('/' :: '/' :: body.takeWhile (· != '\n')).length := by
      simp only [List.length_cons]
      omega
    simp only [pieceResult, hfeeds, hcurrent]
    rfl
  · rename_i hslash
    have hne : ∀ d ∈ cs.head?, d ≠ '/' := by
      rintro d hd rfl
      obtain ⟨ds, rfl⟩ := List.head?_eq_some_iff.mp hd
      exact hslash ds rfl
    have htaken : text.drop k = ['/'] ++ cs := h
    rw [scanSlash, Action.run_bind_of_ok (takeIf_run_of_ne hahead hne), if_neg Bool.false_ne_true]
    exact makeToken_some_run htaken rfl (by simp) .slash .none

section Strings

variable {body : List Char}

theorem skipTo_quote_run (h : text.drop (k + 1) = body ++ rest) (hbody : '"' ∉ body)
    (hrest : ∀ d ∈ rest.head?, (d != '"') = false) :
    (skipTo text '"' true (text.length + 1)).run ⟨k, k + 1, l⟩ =
      .ok () ⟨k, k + 1 + body.length, l + body.count '\n'⟩ := by
  have hskip := @skipTo_run text _ ⟨k, k + 1, l⟩ '"' true h _ (length_le_of_drop h)
  rw [takeWhile_append_eq (bne_of_not_mem hbody) hrest] at hskip
  exact hskip

theorem count_quote_cons (more : List Char) : ('"' :: more).count '\n' = more.count '\n' :=
  List.count_cons_of_ne (by decide)

theorem scanString_run_unclosed (h : text.drop k = '"' :: body) (hbody : '"' ∉ body) :
    (some <$> scanString text).run ⟨k, k + 1, l⟩ =
      pieceResult k l ⟨.fault .unterminatedString, '"' :: body, []⟩ := by
  have hinside : text.drop (k + 1) = body ++ [] := by rw [drop_succ h, List.append_nil]
  have hskip := @skipTo_quote_run text [] k l body hinside hbody (by simp)
  have hdone := @atEnd_run text [] ⟨k, k + 1 + body.length, l + body.count '\n'⟩
    (drop_add_length hinside)
  have hraised : (scanString text).run ⟨k, k + 1, l⟩ = .error
      (.report ⟨l + body.count '\n', .unterminatedString⟩)
      ⟨k, k + 1 + body.length, l + body.count '\n'⟩ := by
    rw [scanString, Action.run_bind_of_ok hskip, Action.run_bind_of_ok hdone]
    rfl
  have hcurrent : k + 1 + body.length = k + ('"' :: body).length := by
    simp only [List.length_cons]
    omega
  rw [Action.run_map_of_error hraised, hcurrent]
  simp only [pieceResult, count_quote_cons]

theorem scanString_run_closed (h : text.drop k = '"' :: (body ++ '"' :: rest))
    (hbody : '"' ∉ body) :
    (some <$> scanString text).run ⟨k, k + 1, l⟩ = pieceResult k l
      ⟨.lexeme .string (.text (String.ofList body)), '"' :: (body ++ ['"']), rest⟩ := by
  have hinside := drop_succ h
  have hskip := @skipTo_quote_run text _ k l body hinside hbody (by simp)
  have hbehind : text.drop (k + 1 + body.length) = '"' :: rest := drop_add_length hinside
  have hdone := @atEnd_run text _ ⟨k, k + 1 + body.length, l + body.count '\n'⟩ hbehind
  have htake := @takeChar_run text ⟨k, k + 1 + body.length, l + body.count '\n'⟩ _ _ hbehind
  have hslice : slice text (k + 1) (k + 1 + body.length + 1 - 1) = body :=
    slice_eq hinside (Nat.add_sub_cancel _ _)
  have htaken : text.drop k = ('"' :: (body ++ ['"'])) ++ rest := by
    rw [h]
    simp
  have hcurrent : k + 1 + body.length + 1 = k + ('"' :: (body ++ ['"'])).length := by
    simp only [List.length_cons, List.length_append, List.length_nil]
    omega
  have hstring : (scanString text).run ⟨k, k + 1, l⟩ =
      .ok ⟨.string, String.ofList ('"' :: (body ++ ['"'])), .text (String.ofList body),
        l + body.count '\n'⟩ ⟨k, k + 1 + body.length + 1, l + body.count '\n'⟩ := by
    rw [scanString, Action.run_bind_of_ok hskip, Action.run_bind_of_ok hdone, List.isEmpty_cons,
      if_neg Bool.false_ne_true, Action.run_bind_of_ok htake, Action.run_bind_get]
    simp only [hslice]
    exact makeToken_run htaken hcurrent .string _
  have hfeeds : ('"' :: (body ++ ['"'])).count '\n' = body.count '\n' := by
    simp
  rw [Action.run_map_of_ok hstring]
  simp only [pieceResult, hfeeds, hcurrent]

theorem scanString_run (h : text.drop k = '"' :: cs) :
    (some <$> scanString text).run ⟨k, k + 1, l⟩ = pieceResult k l (Reading.quotation cs) := by
  have hsplit := List.takeWhile_append_dropWhile (p := (· != '"')) (l := cs)
  have hbody := not_mem_takeWhile_bne '"' cs
  unfold Reading.quotation
  generalize cs.takeWhile (· != '"') = body at hsplit hbody ⊢
  cases hclosed : cs.dropWhile (· != '"') with
  | nil =>
    obtain rfl : body = cs := by simpa [hclosed] using hsplit
    exact scanString_run_unclosed h hbody
  | cons quote rest =>
    obtain rfl : quote = '"' := by
      simpa [hclosed] using head?_dropWhile_fails (· != '"') cs
    rw [hclosed] at hsplit
    rw [← hsplit] at h
    exact scanString_run_closed h hbody

end Strings

theorem isNumeralText_text {n : Numeral} (h : n.WellFormed) : isNumeralText n.text = true := by
  have hpoint : ∀ c ∈ (if n.fraction = [] then [] else '.' :: n.fraction).head?,
      c.isDigit = false := by
    split <;> simp
  have hwhole : n.text.takeWhile Char.isDigit = n.whole := takeWhile_append_eq h.whole_digits hpoint
  have hrest : n.text.dropWhile Char.isDigit =
      if n.fraction = [] then [] else '.' :: n.fraction :=
    dropWhile_append_eq h.whole_digits hpoint
  have hdigits : n.fraction.all Char.isDigit = true := List.all_eq_true.mpr h.fraction_digits
  rw [isNumeralText, hwhole, hrest]
  by_cases hnone : n.fraction = []
  · simp [hnone, h.whole_ne_nil]
  · simp [hnone, h.whole_ne_nil, hdigits]

/-- Only numerals are read as numbers. -/
theorem makeNumber_run {m : Numeral} (hm : m.WellFormed) (h : text.drop k = m.text ++ rest) :
    (some <$> makeNumber text).run ⟨k, k + m.text.length, l⟩ =
      pieceResult k l ⟨.lexeme .number (.double m.toDouble), m.text, rest⟩ := by
  have hfeed : '\n' ∉ m.text := by
    intro hmem
    rcases hm.mem_text hmem with hdigit | hpoint
    · exact absurd hdigit (by decide)
    · exact absurd hpoint (by decide)
  have hdouble (place : Place) :
      (toDouble (String.ofList m.text)).run place = .ok m.toDouble place := by
    simp only [toDouble, String.toList_ofList, isNumeralText_text hm, if_true, hm.ofText?_text]
    rfl
  have hnumber : (makeNumber text).run ⟨k, k + m.text.length, l⟩ =
      .ok ⟨.number, String.ofList m.text, .double m.toDouble, l⟩ ⟨k, k + m.text.length, l⟩ := by
    rw [makeNumber, Action.run_bind_get, slice_eq h rfl, Action.run_bind_of_ok (hdouble _)]
    exact makeToken_run h rfl .number (.double m.toDouble)
  rw [Action.run_map_of_ok hnumber, pieceResult_lexeme _ _ hfeed]

theorem scanNumber_run_digits (h : text.drop k = c :: cs)
    (hrest : cs.dropWhile Char.isDigit = rest) :
    (scanNumber text).run ⟨k, k + 1, l⟩ =
      (if rest.headD noCharacter = '.' ∧ (rest.tail.headD noCharacter).isDigit then do
        let _ ← takeChar text
        skipWhile text Char.isDigit (text.length + 1)
        makeNumber text
      else makeNumber text : Scanning Token).run
        ⟨k, k + 1 + (cs.takeWhile Char.isDigit).length, l⟩ := by
  have hahead : text.drop (k + 1) = cs := drop_succ h
  have hbehind : text.drop (k + 1 + (cs.takeWhile Char.isDigit).length) = rest := by
    apply drop_add_length
    rw [hahead, ← hrest, List.takeWhile_append_dropWhile]
  have hskip := @skipWhile_run text cs ⟨k, k + 1, l⟩ Char.isDigit (by decide) hahead _
    (length_le_of_drop hahead)
  have hpoint := @front_run text _ ⟨k, k + 1 + (cs.takeWhile Char.isDigit).length, l⟩ hbehind
  have hnext := @second_run text _ ⟨k, k + 1 + (cs.takeWhile Char.isDigit).length, l⟩ hbehind
  rw [scanNumber, Action.run_bind_of_ok hskip, Action.run_bind_of_ok hpoint,
    Action.run_bind_of_ok hnext]

theorem scanNumber_run_whole (h : text.drop k = c :: cs)
    (hnone : ∀ d ds, cs.dropWhile Char.isDigit = '.' :: d :: ds → ¬ d.isDigit) :
    (scanNumber text).run ⟨k, k + 1, l⟩ = (makeNumber text).run
      ⟨k, k + (Numeral.text ⟨c :: cs.takeWhile Char.isDigit, []⟩).length, l⟩ := by
  have hlength : k + 1 + (cs.takeWhile Char.isDigit).length =
      k + (Numeral.text ⟨c :: cs.takeWhile Char.isDigit, []⟩).length := by
    simp only [Numeral.text, if_true, List.append_nil, List.length_cons]
    omega
  have hnoCharacter : ¬ noCharacter.isDigit = true := by decide
  rw [scanNumber_run_digits h rfl, if_neg ?_, hlength]
  rintro ⟨hpoint, hdigit⟩
  rcases hrest : cs.dropWhile Char.isDigit with _ | ⟨point, _ | ⟨d, ds⟩⟩
  · rw [hrest] at hdigit
    exact hnoCharacter hdigit
  · rw [hrest] at hdigit
    exact hnoCharacter hdigit
  · rw [hrest] at hpoint hdigit
    obtain rfl : point = '.' := hpoint
    exact hnone d ds hrest hdigit

theorem scanNumber_run_fraction (h : text.drop k = c :: cs) {d : Char} {ds : List Char}
    (hrest : cs.dropWhile Char.isDigit = '.' :: d :: ds) (hdigit : d.isDigit) :
    (scanNumber text).run ⟨k, k + 1, l⟩ = (makeNumber text).run
      ⟨k, k + (Numeral.text ⟨c :: cs.takeWhile Char.isDigit,
        d :: ds.takeWhile Char.isDigit⟩).length, l⟩ := by
  have hbehind : text.drop (k + 1 + (cs.takeWhile Char.isDigit).length) = '.' :: d :: ds := by
    apply drop_add_length
    rw [drop_succ h, ← hrest, List.takeWhile_append_dropWhile]
  have htake := @takeChar_run text ⟨k, k + 1 + (cs.takeWhile Char.isDigit).length, l⟩ _ _ hbehind
  have hfraction := @skipWhile_run text (d :: ds)
    ⟨k, k + 1 + (cs.takeWhile Char.isDigit).length + 1, l⟩ Char.isDigit (by decide)
    (drop_succ hbehind) _ (length_le_of_drop (drop_succ hbehind))
  have hlength : k + 1 + (cs.takeWhile Char.isDigit).length + 1 +
      ((d :: ds).takeWhile Char.isDigit).length = k + (Numeral.text
        ⟨c :: cs.takeWhile Char.isDigit, d :: ds.takeWhile Char.isDigit⟩).length := by
    rw [List.takeWhile_cons_of_pos hdigit]
    simp only [Numeral.text, reduceCtorEq, if_false, List.length_append, List.length_cons]
    omega
  rw [scanNumber_run_digits h hrest, if_pos ⟨rfl, hdigit⟩, Action.run_bind_of_ok htake,
    Action.run_bind_of_ok hfraction, hlength]

/-- A numeral is passed up to where the reading of it ends. -/
theorem scanNumber_run (hdigit : c.isDigit) (h : text.drop k = c :: cs) :
    ∃ (m : Numeral) (rest : List Char), m.WellFormed ∧
      Reading.numeral c cs = ⟨.lexeme .number (.double m.toDouble), m.text, rest⟩ ∧
      (scanNumber text).run ⟨k, k + 1, l⟩ = (makeNumber text).run ⟨k, k + m.text.length, l⟩ := by
  have hwhole := Reading.takeWhile_digits hdigit cs
  unfold Reading.numeral
  split
  · rename_i d ds hrest
    split
    · rename_i hfirst
      have hm : Numeral.WellFormed
          ⟨c :: cs.takeWhile Char.isDigit, d :: ds.takeWhile Char.isDigit⟩ :=
        ⟨List.cons_ne_nil _ _, hwhole, Reading.takeWhile_digits hfirst ds⟩
      exact ⟨_, ds.dropWhile Char.isDigit, hm, by simp [Numeral.text],
        scanNumber_run_fraction h hrest hfirst⟩
    · rename_i hfirst
      refine ⟨⟨c :: cs.takeWhile Char.isDigit, []⟩, '.' :: d :: ds,
        ⟨List.cons_ne_nil _ _, hwhole, by simp⟩, by simp [Numeral.text],
        scanNumber_run_whole h ?_⟩
      intro d' ds' hrest'
      obtain ⟨rfl, rfl⟩ : d = d' ∧ ds = ds' := by simpa [hrest] using hrest'
      exact hfirst
  · rename_i hrest
    exact ⟨⟨c :: cs.takeWhile Char.isDigit, []⟩, cs.dropWhile Char.isDigit,
      ⟨List.cons_ne_nil _ _, hwhole, by simp⟩, by simp [Numeral.text],
      scanNumber_run_whole h fun d ds hd => absurd hd (hrest d ds)⟩

theorem scanName_run (hletter : isLetter c) (h : text.drop k = c :: cs) :
    (some <$> scanName text).run ⟨k, k + 1, l⟩ = pieceResult k l (Reading.name c cs) := by
  have hahead : text.drop (k + 1) = cs := drop_succ h
  have hskip : (skipWhile text isNameChar (text.length + 1)).run ⟨k, k + 1, l⟩ =
      .ok () ⟨k, k + 1 + (cs.takeWhile isNameChar).length, l⟩ :=
    skipWhile_run (by decide) hahead (length_le_of_drop hahead)
  have htaken : text.drop k = (c :: cs.takeWhile isNameChar) ++ cs.dropWhile isNameChar := by
    rw [h, List.cons_append, List.takeWhile_append_dropWhile]
  have hlength : k + 1 + (cs.takeWhile isNameChar).length =
      k + (c :: cs.takeWhile isNameChar).length := by
    simp only [List.length_cons]
    omega
  have hfeed : '\n' ∉ c :: cs.takeWhile isNameChar := by
    have hfirst : '\n' ≠ c := by
      rintro rfl
      exact absurd hletter (by decide)
    exact List.not_mem_cons_of_ne_of_not_mem hfirst (not_mem_takeWhile (by decide) cs)
  have hslice := slice_eq htaken hlength
  unfold Reading.name
  cases hword : TokenKind.ofWord? (String.ofList (c :: cs.takeWhile isNameChar)) with
  | some kind =>
    have hname : (scanName text).run ⟨k, k + 1, l⟩ = (makeToken text kind .none).run
        ⟨k, k + (c :: cs.takeWhile isNameChar).length, l⟩ := by
      rw [← hlength, scanName, Action.run_bind_of_ok hskip, Action.run_bind_get]
      simp only [hslice, hword]
    rw [Action.run_map_of_ok (hname.trans (makeToken_run htaken rfl kind .none))]
    simp only [hword, pieceResult_lexeme _ _ hfeed]
  | none =>
    have hname : (scanName text).run ⟨k, k + 1, l⟩ = (makeToken text .identifier
        (.text (String.ofList (c :: cs.takeWhile isNameChar)))).run
        ⟨k, k + (c :: cs.takeWhile isNameChar).length, l⟩ := by
      rw [← hlength, scanName, Action.run_bind_of_ok hskip, Action.run_bind_get]
      simp only [hslice, hword]
    rw [Action.run_map_of_ok (hname.trans (makeToken_run htaken rfl .identifier _))]
    simp only [hword, pieceResult_lexeme _ _ hfeed]

/-- A piece is scanned as it is read. -/
theorem scanPiece_run (h : text.drop k = c :: cs) :
    (scanPiece text).run ⟨k, k, l⟩ = pieceResult k l (Reading.next c cs) := by
  have htake : (takeChar text).run ⟨k, k, l⟩ = .ok c ⟨k, k + 1, l⟩ := takeChar_run h
  have htaken : text.drop k = [c] ++ cs := h
  rw [scanPiece, Action.run_bind_of_ok htake]
  unfold Reading.next
  cases hpunctuation : punctuation? c with
  | some kind =>
    have hfeed : '\n' ≠ c := by
      rintro rfl
      exact absurd hpunctuation (by simp [punctuation?])
    exact makeToken_some_run htaken rfl (by simpa using hfeed) kind .none
  | none =>
  cases hcomparison : comparison? c with
  | some kinds =>
    have hfeed : c ≠ '\n' := by
      rintro rfl
      exact absurd hcomparison (by simp [comparison?])
    exact scanComparison_run h hfeed kinds.1 kinds.2
  | none =>
  simp only
  by_cases hslash : c = '/'
  · subst hslash
    exact scanSlash_run h
  rw [if_neg hslash, if_neg hslash]
  by_cases hblank : c = ' ' ∨ c = '\r' ∨ c = '\t'
  · have hisBlank : isBlank c = true := by
      rcases hblank with rfl | rfl | rfl <;> rfl
    have hfeed : '\n' ≠ c := by
      rintro rfl
      exact absurd hblank (by decide)
    rw [if_pos hblank, if_pos hisBlank]
    simp [pieceResult, List.count_eq_zero_of_not_mem, hfeed]
  rw [if_neg hblank]
  by_cases hfeed : c = '\n'
  · subst hfeed
    rfl
  have hnotBlank : ¬isBlank c = true := by
    simp only [not_or] at hblank
    simp [isBlank, hblank, hfeed]
  rw [if_neg hfeed, if_neg hnotBlank]
  by_cases hquote : c = '"'
  · subst hquote
    exact scanString_run h
  rw [if_neg hquote, if_neg hquote]
  by_cases hdigit : c.isDigit
  · obtain ⟨m, rest, hm, hnumeral, hscan⟩ := @scanNumber_run text c cs k l hdigit h
    have hsplit := Reading.numeral_taken_append_rest c cs
    rw [hnumeral] at hsplit
    rw [if_pos hdigit, if_pos hdigit, hnumeral, ← makeNumber_run hm (h.trans hsplit.symm),
      Action.run_map, Action.run_map, hscan]
  rw [if_neg hdigit, if_neg hdigit]
  by_cases hletter : isLetter c
  · rw [if_pos hletter, if_pos hletter]
    exact scanName_run hletter h
  rw [if_neg hletter, if_neg hletter, Action.run_bind_get]
  have hline : l + ([c].count '\n' : Int) = l := by simp [hfeed]
  simp only [pieceResult, hline]
  rfl

/-- Where a cursor is, in indices. -/
def placeOf (cursor : Cursor) : Place := ⟨cursor.start, cursor.current, cursor.line⟩

/-- What comes of scanning on, by what an advance of the cursor meets. -/
def ScansOn (text : List Char) (met : List Token)
    (result : EStateM.Result (Raised LexicalError) Place (List Token)) : Step × Cursor → Prop
  | (.token t, next) => text.drop next.current = next.ahead ∧ ∃ clock, next.ahead.length ≤ clock ∧
      result = (scanAll text (clock + 1) (met ++ [t])).run (placeOf next)
  | (.ended t, next) => result = .ok (met ++ [t]) (placeOf next)
  | (.failed e, next) => result = .error (.report e) (placeOf next)

theorem scanAll_run_cons {cursor : Cursor} (h : text.drop cursor.current = c :: cs) (clock : Nat)
    (met : List Token) :
    (scanAll text (clock + 1) met).run (placeOf cursor) =
      (scanPiece text >>= fun piece => scanAll text clock (met ++ piece.toList)).run
        ⟨cursor.current, cursor.current, cursor.line⟩ := by
  rw [scanAll, Action.run_bind_of_ok (@atEnd_run text _ (placeOf cursor) h)]
  rfl

/-- Scanning goes on where the cursor has passed a piece. -/
theorem drop_pass {cursor : Cursor} (h : text.drop cursor.current = c :: cs) :
    text.drop (cursor.pass (Reading.next c cs)).current =
      (cursor.pass (Reading.next c cs)).ahead :=
  drop_add_length (h.trans (Reading.next_taken_append_rest c cs).symm)

/-- A clock that lasts for the text ahead ticks, and lasts for what is behind a piece. -/
theorem exists_fewer_ticks {clock : Nat} (hclock : (c :: cs).length ≤ clock) :
    ∃ fewer, clock = fewer + 1 ∧ (Reading.next c cs).rest.length ≤ fewer := by
  have hlt := Reading.next_rest_length_lt c cs
  simp only [List.length_cons] at hclock hlt
  exact ⟨clock - 1, by omega, by omega⟩

theorem scanAll_scansOn {cursor : Cursor} (hdrop : text.drop cursor.current = cursor.ahead)
    {clock : Nat} (hclock : cursor.ahead.length ≤ clock) (met : List Token) :
    ScansOn text met ((scanAll text (clock + 1) met).run (placeOf cursor)) cursor.advance := by
  fun_induction Cursor.advance cursor generalizing clock
  case case1 cursor hahead =>
    rw [hahead] at hdrop
    show (scanAll text (clock + 1) met).run (placeOf cursor) = _
    rw [scanAll, Action.run_bind_of_ok (@atEnd_run text _ (placeOf cursor) hdrop)]
    rfl
  case case2 cursor c cs hahead reading after hgap ih =>
    rw [hahead] at hdrop hclock
    obtain ⟨clock, rfl, hrest⟩ := exists_fewer_ticks hclock
    have hpiece : (scanPiece text).run ⟨cursor.current, cursor.current, cursor.line⟩ =
        .ok none (placeOf after) := by
      rw [scanPiece_run hdrop, pieceResult, show (Reading.next c cs).piece = .gap from hgap]
      rfl
    -- A gap adds no token, so that scanning goes on from behind it, as the advance does.
    rw [scanAll_run_cons hdrop, Action.run_bind_of_ok hpiece]
    simpa using ih (drop_pass hdrop) hrest
  case case3 cursor c cs hahead reading after kind literal hpiece =>
    rw [hahead] at hdrop hclock
    obtain ⟨clock, rfl, hrest⟩ := exists_fewer_ticks hclock
    have htoken : (scanPiece text).run ⟨cursor.current, cursor.current, cursor.line⟩ =
        .ok (some ⟨kind, String.ofList reading.taken, literal, after.line⟩) (placeOf after) := by
      rw [scanPiece_run hdrop, pieceResult,
        show (Reading.next c cs).piece = .lexeme kind literal from hpiece]
      rfl
    refine ⟨drop_pass hdrop, clock, hrest, ?_⟩
    rw [scanAll_run_cons hdrop, Action.run_bind_of_ok htoken]
    rfl
  case case4 cursor c cs hahead reading after fault hpiece =>
    rw [hahead] at hdrop
    have hfault : (scanPiece text).run ⟨cursor.current, cursor.current, cursor.line⟩ =
        .error (.report ⟨after.line, fault⟩) (placeOf after) := by
      rw [scanPiece_run hdrop, pieceResult,
        show (Reading.next c cs).piece = .fault fault from hpiece]
      rfl
    show (scanAll text (clock + 1) met).run (placeOf cursor) = _
    rw [scanAll_run_cons hdrop, Action.run_bind_of_error hfault]

/-- Scanning passes the tokens that a cursor passes. -/
theorem scanAll_passes {cursor last : Cursor} {tokens : List Token}
    (hpasses : cursor.Passes tokens last) (hdrop : text.drop cursor.current = cursor.ahead)
    {clock : Nat} (hclock : cursor.ahead.length ≤ clock) (met : List Token) :
    ScansOn text (met ++ tokens) ((scanAll text (clock + 1) met).run (placeOf cursor))
      last.advance := by
  induction hpasses generalizing clock met with
  | here cursor =>
    rw [List.append_nil]
    exact scanAll_scansOn hdrop hclock met
  | @token cursor next last t tokens first others ih =>
    have hfirst := scanAll_scansOn hdrop hclock met
    rw [first] at hfirst
    obtain ⟨hnext, clock', hclock', hrun⟩ := hfirst
    rw [hrun]
    simpa using ih hnext hclock' (met ++ [t])

/-- The tokens of the text, or an early end. -/
def scanTokens (text : List Char) : Scanning (List Token) := scanAll text (text.length + 1) []

/-- A text is scanned to the tokens that `Cursor.exhaust` gives, and to the place where
it stops. -/
theorem scanTokens_run (text : List Char) :
    (scanTokens text).run ⟨0, 0, 1⟩ = match (Cursor.atStart text).exhaust with
      | (.ok stream, after) => .ok stream.toList (placeOf after)
      | (.error e, after) => .error (.report e) (placeOf after) := by
  obtain ⟨tokens, last, hpasses, hends⟩ := (Cursor.atStart text).exhaust_passes
  have hlast := @scanAll_passes text _ _ _ hpasses rfl text.length (Nat.le_refl _) []
  rw [List.nil_append] at hlast
  show (scanAll text (text.length + 1) []).run (placeOf (Cursor.atStart text)) = _
  generalize (Cursor.atStart text).exhaust = result at hends ⊢
  obtain ⟨result, after⟩ := result
  cases result with
  | ok stream =>
    obtain ⟨htokens, hended⟩ := hends
    rw [hended, ← htokens] at hlast
    exact hlast
  | error e =>
    have hfailed : last.advance = (.failed e, after) := hends
    rw [hfailed] at hlast
    exact hlast

end LoxGraph.Stepwise
