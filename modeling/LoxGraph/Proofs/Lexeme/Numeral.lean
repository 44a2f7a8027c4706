import Mathlib.Tactic.ByContra
import LoxGraph.Lexeme.Basic
import LoxGraph.Proofs.Text.Span

/-!
Numerals written as numbers.

A numeral is digits, or digits, a point and digits. Read as a number of any
form, with margins, scripts, signs and exponents allowed, it stands for the
double of its digits (`Numeral.ofText?_text`).
-/

namespace LoxGraph

/-- The digits `0` to `9`. -/
def plainDigits : List Char := "0123456789".toList

theorem mem_plainDigits {c : Char} (h : c.isDigit) : c ∈ plainDigits := by
  have hbounds : 48 ≤ c.toNat ∧ c.toNat ≤ 57 := by
    simpa [Char.isDigit, UInt32.le_iff_toNat_le] using h
  have hall : ∀ n ≤ 57, 48 ≤ n → Char.ofNat n ∈ plainDigits := by decide
  rw [← Char.ofNat_toNat c]
  exact hall c.toNat hbounds.2 hbounds.1

theorem of_all_plainDigits {p : Char → Bool} (hall : plainDigits.all p) {c : Char}
    (h : c.isDigit) : p c :=
  List.all_eq_true.mp hall c (mem_plainDigits h)

theorem ungroup?_eq_some {cs : List Char} (h : '_' ∉ cs) : ungroup? cs = some cs := by
  fun_induction ungroup? cs with
  | case1 => rfl
  | case2 cs => simp at h
  | case3 c d cs hdigits ih => simp at h
  | case4 c d cs hdigits => simp at h
  | case5 c cs hnot hnot' ih =>
    rw [ih (List.not_mem_of_not_mem_cons h)]
    rfl

/-- The characters that written doubles are made of, those of `inf` and `nan` included. -/
def numberMarks : List Char := "0123456789.+-einfa".toList

theorem mem_numberMarks_of_isDigit {c : Char} (h : c.isDigit) : c ∈ numberMarks := by
  have hall : plainDigits.all (· ∈ numberMarks) := by decide
  simpa using of_all_plainDigits hall h

/-- Nothing has to be taken away from a text that is made of such characters. -/
theorem plainNumber?_of_numberMarks {cs : List Char} (h : ∀ c ∈ cs, c ∈ numberMarks) :
    plainNumber? (String.ofList cs) = some cs := by
  have hmarks : ∀ c ∈ numberMarks, isNumberMargin c = false ∧ plainDigit c = c ∧ c ≠ '_' := by
    have hall : numberMarks.all fun c => !isNumberMargin c && plainDigit c == c && c != '_' := by
      decide
    simpa [and_assoc] using hall
  have hkeep {l : List Char} (hl : ∀ c ∈ l, c ∈ numberMarks) : l.dropWhile isNumberMargin = l := by
    cases l with
    | nil => rfl
    | cons c l => exact List.dropWhile_cons_of_neg (by simp [hmarks c (hl c (by simp))])
  have hmargins : dropMargins cs = cs := by
    rw [dropMargins, hkeep h, hkeep (by simpa using h), List.reverse_reverse]
  have hplain : cs.map plainDigit = cs.map id :=
    List.map_congr_left fun c hc => (hmarks c (h c hc)).2.1
  have hunderscore : '_' ∉ cs := fun hmem => (hmarks '_' (h '_' hmem)).2.2 rfl
  rw [plainNumber?, String.toList_ofList, hmargins, hplain, List.map_id,
    ungroup?_eq_some hunderscore]

theorem splitSign_of_isDigit {c : Char} (h : c.isDigit) (cs : List Char) :
    splitSign (c :: cs) = (false, c :: cs) := by
  have hall : plainDigits.all fun d => d != '-' && d != '+' := by decide
  obtain ⟨hminus, hplus⟩ : c ≠ '-' ∧ c ≠ '+' := by simpa using of_all_plainDigits hall h
  simp [splitSign, hminus, hplus]

/-- No name of a special number begins with a digit. -/
theorem lowered_ne_of_isDigit {c : Char} (h : c.isDigit) (cs : List Char) :
    String.ofList ((c :: cs).map Char.toLower) ∉ ["inf", "infinity", "nan"] := by
  have hall : plainDigits.all fun d => d.toLower != 'i' && d.toLower != 'n' := by decide
  have hfirst : c.toLower ≠ 'i' ∧ c.toLower ≠ 'n' := by simpa using of_all_plainDigits hall h
  have hchars {name : String} (hname : String.ofList ((c :: cs).map Char.toLower) = name) :
      name.toList.head? = some c.toLower := by
    rw [← hname, String.toList_ofList]
    rfl
  intro hmem
  simp only [List.mem_cons, List.not_mem_nil, or_false] at hmem
  rcases hmem with hinf | hinfinity | hnan
  · exact hfirst.1 (Option.some.inj (hchars hinf)).symm
  · exact hfirst.1 (Option.some.inj (hchars hinfinity)).symm
  · exact hfirst.2 (Option.some.inj (hchars hnan)).symm

namespace Numeral

/-- The characters of a numeral. The point is written only in front of digits. -/
def text (n : Numeral) : List Char :=
  n.whole ++ (if n.fraction = [] then [] else '.' :: n.fraction)

/-- A numeral in which every character is a digit and there is one before the
point. -/
structure WellFormed (n : Numeral) : Prop where
  whole_ne_nil : n.whole ≠ []
  whole_digits : ∀ c ∈ n.whole, c.isDigit
  fraction_digits : ∀ c ∈ n.fraction, c.isDigit

variable {n : Numeral}

theorem WellFormed.text_ne_nil (h : n.WellFormed) : n.text ≠ [] := by
  simp [text, h.whole_ne_nil]

theorem WellFormed.mem_text (h : n.WellFormed) {c : Char} (hc : c ∈ n.text) :
    c.isDigit ∨ c = '.' := by
  unfold text at hc
  rcases List.mem_append.mp hc with hwhole | hrest
  · exact .inl (h.whole_digits c hwhole)
  · split at hrest
    · simp at hrest
    · rcases List.mem_cons.mp hrest with hpoint | hfraction
      · exact .inr hpoint
      · exact .inl (h.fraction_digits c hfraction)

theorem WellFormed.head?_text (h : n.WellFormed) {c : Char} (hc : c ∈ n.text.head?) :
    c.isDigit := by
  obtain ⟨d, ds, hwhole⟩ := List.exists_cons_of_ne_nil h.whole_ne_nil
  have hd : d = c := by simpa [text, hwhole] using hc
  apply h.whole_digits c
  simp [hwhole, hd]

/-- A numeral at the front of a text takes some of the digits there, or all of
them, a point and some of the digits after it. -/
theorem WellFormed.starts (h : n.WellFormed) {l : List Char} (hstart : n.text <+: l) :
    n.text.length ≤ (l.takeWhile Char.isDigit).length ∨
      ∃ ds, l.dropWhile Char.isDigit = '.' :: ds ∧ n.fraction ≠ [] ∧ n.fraction <+: ds ∧
        n.text.length = (l.takeWhile Char.isDigit).length + (n.fraction.length + 1) := by
  by_cases hfraction : n.fraction = []
  · have htext : n.text = n.whole := by simp [text, hfraction]
    rw [htext] at hstart ⊢
    exact .inl (length_le_takeWhile h.whole_digits hstart)
  · have htext : n.text = n.whole ++ '.' :: n.fraction := by simp [text, hfraction]
    obtain ⟨rest, rfl⟩ := hstart
    have hpoint : ∀ c ∈ ('.' :: (n.fraction ++ rest)).head?, c.isDigit = false := by simp
    have hsplit : n.text ++ rest = n.whole ++ '.' :: (n.fraction ++ rest) := by simp [htext]
    refine .inr ⟨n.fraction ++ rest, ?_, hfraction, List.prefix_append _ _, ?_⟩
    · rw [hsplit, dropWhile_append_eq h.whole_digits hpoint]
    · rw [hsplit, takeWhile_append_eq h.whole_digits hpoint, htext, List.length_append,
        List.length_cons]

theorem WellFormed.mem_numberMarks (h : n.WellFormed) {c : Char} (hc : c ∈ n.text) :
    c ∈ numberMarks := by
  rcases h.mem_text hc with hdigit | rfl
  · exact mem_numberMarks_of_isDigit hdigit
  · decide

/-- The decimal that a numeral in front of a power of ten writes. -/
def decimal (n : Numeral) (power : Int) : Decimal :=
  ⟨digitsValue (n.whole ++ n.fraction), power - n.fraction.length⟩

theorem toDouble_eq_decimal (n : Numeral) : n.toDouble = (n.decimal 0).toDouble false := by
  rw [toDouble, decimal, Int.zero_sub]

/-- A power of ten begins with its mark. -/
theorem head?_of_exponentOfText? {tail : List Char} {power : Int}
    (h : Double.exponentOfText? tail = some power) {c : Char} (hc : c ∈ tail.head?) :
    c = 'e' ∨ c = 'E' := by
  cases tail with
  | nil => simp at hc
  | cons mark digits =>
    obtain rfl : mark = c := by simpa using hc
    rw [Double.exponentOfText?] at h
    by_contra hmark
    simp [hmark] at h

/-- A numeral in front of a power of ten is read as the double of their decimal. -/
theorem WellFormed.unsignedOfText?_append (h : n.WellFormed) {tail : List Char} {power : Int}
    (htail : Double.exponentOfText? tail = some power) (negative : Bool) :
    Double.unsignedOfText? negative (n.text ++ tail) =
      some ((n.decimal power).toDouble negative) := by
  have hname : String.ofList ((n.text ++ tail).map Char.toLower) ∉ ["inf", "infinity", "nan"] := by
    obtain ⟨d, ds, hwhole⟩ := List.exists_cons_of_ne_nil h.whole_ne_nil
    rw [text, hwhole, List.cons_append, List.cons_append]
    exact lowered_ne_of_isDigit (h.whole_digits d (by simp [hwhole])) _
  simp only [List.mem_cons, List.not_mem_nil, or_false, not_or] at hname
  obtain ⟨hinf, hinfinity, hnan⟩ := hname
  have hmark : ∀ c ∈ tail.head?, c.isDigit = false ∧ c ≠ '.' := by
    intro c hc
    rcases head?_of_exponentOfText? htail hc with rfl | rfl <;> decide
  have hdigit : ∀ c ∈ tail.head?, c.isDigit = false := fun c hc => (hmark c hc).1
  simp only [Double.unsignedOfText?, hinf, hinfinity, hnan, or_self, if_false]
  by_cases hnone : n.fraction = []
  · have htext : n.text ++ tail = n.whole ++ tail := by simp [text, hnone]
    have hwhole : (n.whole ++ tail).takeWhile Char.isDigit = n.whole :=
      takeWhile_append_eq h.whole_digits hdigit
    have hrest : (n.whole ++ tail).dropWhile Char.isDigit = tail :=
      dropWhile_append_eq h.whole_digits hdigit
    -- No fraction is read where no point stands.
    have hpoint : ∀ ds, tail ≠ '.' :: ds := by
      rintro ds rfl
      exact (hmark '.' rfl).2 rfl
    simp [htext, hwhole, hrest, h.whole_ne_nil, hnone, decimal, htail]
  · have htext : n.text ++ tail = n.whole ++ '.' :: (n.fraction ++ tail) := by simp [text, hnone]
    have hpoint : ∀ c ∈ ('.' :: (n.fraction ++ tail)).head?, c.isDigit = false := by simp
    have hwhole : (n.whole ++ '.' :: (n.fraction ++ tail)).takeWhile Char.isDigit = n.whole :=
      takeWhile_append_eq h.whole_digits hpoint
    have hrest : (n.whole ++ '.' :: (n.fraction ++ tail)).dropWhile Char.isDigit =
        '.' :: (n.fraction ++ tail) :=
      dropWhile_append_eq h.whole_digits hpoint
    have hfraction : (n.fraction ++ tail).takeWhile Char.isDigit = n.fraction :=
      takeWhile_append_eq h.fraction_digits hdigit
    have hbehind : (n.fraction ++ tail).dropWhile Char.isDigit = tail :=
      dropWhile_append_eq h.fraction_digits hdigit
    simp [htext, hwhole, hrest, h.whole_ne_nil, hfraction, hbehind, decimal, htail]

theorem WellFormed.unsignedOfText?_text (h : n.WellFormed) :
    Double.unsignedOfText? false n.text = some n.toDouble := by
  have hread := h.unsignedOfText?_append (show Double.exponentOfText? [] = some 0 from rfl) false
  rwa [List.append_nil, ← toDouble_eq_decimal] at hread

/-- A numeral stands for the double of its digits. -/
theorem WellFormed.ofText?_text (h : n.WellFormed) :
    Double.ofText? (String.ofList n.text) = some n.toDouble := by
  have hsign : splitSign n.text = (false, n.text) := by
    obtain ⟨d, ds, hwhole⟩ := List.exists_cons_of_ne_nil h.whole_ne_nil
    rw [text, hwhole, List.cons_append]
    exact splitSign_of_isDigit (h.whole_digits d (by simp [hwhole])) _
  rw [Double.ofText?, plainNumber?_of_numberMarks fun c hc => h.mem_numberMarks hc]
  simp [hsign, h.unsignedOfText?_text]

end Numeral

end LoxGraph
