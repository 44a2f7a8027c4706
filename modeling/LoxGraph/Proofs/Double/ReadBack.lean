import LoxGraph.Proofs.Double.Bounds
import LoxGraph.Proofs.Lexeme.Numeral

/-!
A written double is read back.

The digits of a magnitude, with a point among them or in front of a power of ten, are a numeral
that is worth as much as the fewest digits that stand for the magnitude; only the zeros at
either end may be others. So the written form of every double is read as the double again
(`Double.ofText?_text`), and so are the digits of an integer.
-/

namespace LoxGraph

theorem digitsValue_eq (cs : List Char) : digitsValue cs = Nat.ofDigitChars 10 cs 0 := rfl

theorem digitsValue_append_zeros (cs : List Char) (k : Nat) :
    digitsValue (cs ++ List.replicate k '0') = digitsValue cs * Nat.pow 10 k := by
  rw [digitsValue_eq, Nat.ofDigitChars_append, Nat.ofDigitChars_replicate_zero, Nat.mul_comm]
  rfl

theorem digitsValue_zeros_append (k : Nat) (cs : List Char) :
    digitsValue (List.replicate k '0' ++ cs) = digitsValue cs := by
  rw [digitsValue_eq, Nat.ofDigitChars_append, Nat.ofDigitChars_replicate_zero, Nat.mul_zero]
  rfl

theorem digitsValue_decimalDigits (n : Nat) : digitsValue (decimalDigits n) = n :=
  Nat.ofDigitChars_ten_toDigits

theorem isDigit_of_mem_decimalDigits {n : Nat} {c : Char} (h : c ∈ decimalDigits n) : c.isDigit :=
  Nat.isDigit_of_mem_toDigits (by decide) (by decide) h

/-- Digits are their front up to the last one that is not zero, and the zeros behind it. -/
theorem exists_zeros (digits : List Char) : ∃ k, digits =
    (digits.reverse.dropWhile (· = '0')).reverse ++ List.replicate k '0' := by
  have hsplit := List.takeWhile_append_dropWhile (p := (· = '0')) (l := digits.reverse)
  have hzeros : digits.reverse.takeWhile (· = '0') =
      List.replicate (digits.reverse.takeWhile (· = '0')).length '0' := by
    rw [List.eq_replicate_iff]
    exact ⟨rfl, fun c hc => by simpa using takeWhile_passes _ _ c hc⟩
  refine ⟨(digits.reverse.takeWhile (· = '0')).length, ?_⟩
  rw [← List.reverse_replicate, ← hzeros, ← List.reverse_append, hsplit, List.reverse_reverse]

namespace Double

variable {digits : List Char} {leading : Int}

/-- The decimal whose first digit is worth ten to a power. -/
def leadingDecimal (digits : List Char) (leading : Int) : Decimal :=
  ⟨digitsValue digits, leading + 1 - digits.length⟩

theorem isDigit_of_mem_zeros {k : Nat} {c : Char} (h : c ∈ List.replicate k '0') : c.isDigit := by
  rw [List.eq_of_mem_replicate h]
  rfl

/-- Digits that all stand behind the point, with zeros before them, are a numeral. -/
theorem positional_eq_text_of_neg (hdigits : ∀ c ∈ digits, c.isDigit) (hne : digits ≠ [])
    (hleading : leading < 0) : ∃ n : Numeral, n.WellFormed ∧
      positional digits leading = n.text ∧ n.decimal 0 = leadingDecimal digits leading := by
  obtain ⟨zeros, hzeros⟩ : ∃ zeros, zeros = (-leading - 1).toNat := ⟨_, rfl⟩
  refine ⟨⟨['0'], List.replicate zeros '0' ++ digits⟩, ⟨by simp, by simp, ?_⟩, ?_, ?_⟩
  · intro c hc
    rcases List.mem_append.mp hc with hzero | hdigit
    · exact isDigit_of_mem_zeros hzero
    · exact hdigits c hdigit
  · simp [positional, Numeral.text, hleading, hzeros, hne]
  · have hvalue : digitsValue (['0'] ++ (List.replicate zeros '0' ++ digits)) =
        digitsValue digits := digitsValue_zeros_append (zeros + 1) digits
    have hexponent : (0 : Int) - (List.replicate zeros '0' ++ digits).length =
        leading + 1 - digits.length := by
      rw [List.length_append, List.length_replicate]
      omega
    rw [Numeral.decimal, leadingDecimal, hvalue, hexponent]

/-- Digits of which one stands before the point are a numeral, with zeros behind those that
do not reach the point. -/
theorem positional_eq_text_of_nonneg (hdigits : ∀ c ∈ digits, c.isDigit) (hne : digits ≠ [])
    (hleading : ¬ leading < 0) : ∃ (n : Numeral) (k : Nat), n.WellFormed ∧
      positional digits leading = n.text ∧
        n.decimal 0 = (leadingDecimal digits leading).shift k := by
  obtain ⟨whole, hwhole⟩ : ∃ whole, whole = leading.toNat + 1 := ⟨_, rfl⟩
  have hwholeDigits : ∀ c ∈ digits.take whole ++ List.replicate (whole - digits.length) '0',
      c.isDigit := by
    intro c hc
    rcases List.mem_append.mp hc with hdigit | hzero
    · exact hdigits c (List.mem_of_mem_take hdigit)
    · exact isDigit_of_mem_zeros hzero
  have hwholeNe : digits.take whole ++ List.replicate (whole - digits.length) '0' ≠ [] := by
    simp [hne, hwhole]
  -- When no digit is left for the other side of the point, a zero is written there.
  by_cases hnone : digits.drop whole = []
  · have hlength : digits.length ≤ whole := List.drop_eq_nil_iff.mp hnone
    refine ⟨⟨_, ['0']⟩, whole - digits.length + 1, ⟨hwholeNe, hwholeDigits, by simp⟩, ?_, ?_⟩
    · simp [positional, Numeral.text, hleading, ← hwhole, hnone]
    · have hvalue : digitsValue (digits.take whole ++
          List.replicate (whole - digits.length) '0' ++ ['0']) =
            digitsValue digits * Nat.pow 10 (whole - digits.length + 1) := by
        rw [← digitsValue_append_zeros, List.take_of_length_le hlength, List.append_assoc,
          ← List.replicate_succ']
      have hexponent : (0 : Int) - (['0'] : List Char).length =
          leading + 1 - digits.length - (whole - digits.length + 1 : Nat) := by
        rw [List.length_singleton]
        omega
      rw [Numeral.decimal, Decimal.shift, leadingDecimal, hvalue, hexponent]
  · have hlength : whole < digits.length := by
      rwa [List.drop_eq_nil_iff, Nat.not_le] at hnone
    refine ⟨⟨_, digits.drop whole⟩, 0, ⟨hwholeNe, hwholeDigits, ?_⟩, ?_, ?_⟩
    · exact fun c hc => hdigits c (List.mem_of_mem_drop hc)
    · simp [positional, Numeral.text, hleading, ← hwhole, hnone]
    · have hall : digits.take whole ++ List.replicate (whole - digits.length) '0' ++
          digits.drop whole = digits := by
        rw [Nat.sub_eq_zero_of_le (Nat.le_of_lt hlength), List.replicate_zero, List.append_nil,
          List.take_append_drop]
      have hexponent : (0 : Int) - (digits.drop whole).length =
          leading + 1 - digits.length - (0 : Nat) := by
        rw [List.length_drop]
        omega
      have hone : digitsValue digits * Nat.pow 10 0 = digitsValue digits := Nat.mul_one _
      rw [Numeral.decimal, Decimal.shift, leadingDecimal, hall, hexponent, hone]

/-- The digits of a power of ten, of which there are two at least. -/
def powerDigits (leading : Int) : List Char :=
  let power := decimalDigits leading.natAbs
  if power.length < 2 then '0' :: power else power

theorem isDigit_of_mem_powerDigits {c : Char} (h : c ∈ powerDigits leading) : c.isDigit := by
  rw [powerDigits] at h
  split at h
  · rcases List.mem_cons.mp h with rfl | hdigit
    · rfl
    · exact isDigit_of_mem_decimalDigits hdigit
  · exact isDigit_of_mem_decimalDigits h

theorem digitsValue_powerDigits (leading : Int) :
    digitsValue (powerDigits leading) = leading.natAbs := by
  rw [powerDigits]
  split
  · exact (digitsValue_zeros_append 1 _).trans (digitsValue_decimalDigits _)
  · exact digitsValue_decimalDigits _

theorem exponentOfText?_powerDigits (leading : Int) : exponentOfText?
    ('e' :: (if leading < 0 then '-' else '+') :: powerDigits leading) = some leading := by
  have hne : powerDigits leading ≠ [] := by
    rw [powerDigits]
    split
    · simp
    · exact Nat.toDigits_ne_nil
  have hall : (powerDigits leading).all Char.isDigit :=
    List.all_eq_true.mpr fun c hc => isDigit_of_mem_powerDigits hc
  have hvalue := digitsValue_powerDigits leading
  split
  case isTrue hnegative =>
    have hpower : -(digitsValue (powerDigits leading) : Int) = leading := by omega
    simp [exponentOfText?, splitSign, hne, hall, hpower]
  case isFalse hnonneg =>
    have hpower : (digitsValue (powerDigits leading) : Int) = leading := by omega
    simp [exponentOfText?, splitSign, hne, hall, hpower]

/-- Digits in front of a power of ten are a numeral, with the first of them before the point. -/
theorem scientific_eq_text (hdigits : ∀ c ∈ digits, c.isDigit) (hne : digits ≠ []) :
    ∃ n : Numeral, n.WellFormed ∧ n.decimal leading = leadingDecimal digits leading ∧
      scientific digits leading =
        n.text ++ 'e' :: (if leading < 0 then '-' else '+') :: powerDigits leading := by
  obtain ⟨first, others, rfl⟩ := List.exists_cons_of_ne_nil hne
  obtain ⟨hfirst, hothers⟩ := List.forall_mem_cons.mp hdigits
  refine ⟨⟨[first], others⟩, ⟨by simp, by simpa using hfirst, hothers⟩, ?_, ?_⟩
  · have hexponent : leading - others.length = leading + 1 - (first :: others).length := by
      rw [List.length_cons]
      omega
    rw [Numeral.decimal, leadingDecimal, List.singleton_append, hexponent]
  · cases others <;> rfl

/-- The digits that are written of a decimal are worth the decimal, but for the zeros at their
end. -/
theorem exists_significant {d : Decimal} (hd : d.digits ≠ 0) : ∃ significant ≠ [],
    (∀ c ∈ significant, c.isDigit) ∧
      (∀ negative, (leadingDecimal significant d.leading).toDouble negative =
        d.toDouble negative) ∧
      decimalText d = if positionalStart ≤ d.leading ∧ d.leading < positionalEnd then
        positional significant d.leading else scientific significant d.leading := by
  obtain ⟨zeros, hzeros⟩ := exists_zeros (decimalDigits d.digits)
  refine ⟨((decimalDigits d.digits).reverse.dropWhile (· = '0')).reverse, ?_, ?_, ?_, rfl⟩
  · intro hnone
    rw [hnone, List.nil_append] at hzeros
    have hvalue := digitsValue_zeros_append zeros []
    rw [List.append_nil, ← hzeros, digitsValue_decimalDigits] at hvalue
    exact hd hvalue
  · intro c hc
    apply isDigit_of_mem_decimalDigits
    rw [hzeros]
    exact List.mem_append_left _ hc
  · generalize ((decimalDigits d.digits).reverse.dropWhile (· = '0')).reverse = significant
      at hzeros
    have hdigits : digitsValue significant * Nat.pow 10 zeros = d.digits := by
      rw [← digitsValue_append_zeros, ← hzeros, digitsValue_decimalDigits]
    have hexponent : d.leading + 1 - significant.length - zeros = d.exponent := by
      rw [Decimal.leading, hzeros, List.length_append, List.length_replicate]
      omega
    have hshift : (leadingDecimal significant d.leading).shift zeros = d := by
      rw [Decimal.shift, leadingDecimal, hdigits, hexponent]
    intro negative
    rw [← Decimal.toDouble_shift negative _ zeros, hshift]

end Double

/-- Whether a text is a numeral, and maybe a power of ten behind it, that stands for a
magnitude. -/
def Magnitude.WrittenAs (m : Magnitude) (cs : List Char) : Prop :=
  ∃ (n : Numeral) (power : Int) (tail : List Char), n.WellFormed ∧
    Double.exponentOfText? tail = some power ∧ (∀ c ∈ tail, c ∈ numberMarks) ∧
      cs = n.text ++ tail ∧
        ∀ negative, (n.decimal power).toDouble negative = .finite negative m

/-- Whether a text is a numeral that stands for a magnitude, with no power of ten behind it. -/
def Magnitude.HasNumeral (m : Magnitude) (cs : List Char) : Prop :=
  ∃ n : Numeral, n.WellFormed ∧ cs = n.text ∧
    ∀ negative, (n.decimal 0).toDouble negative = .finite negative m

theorem Magnitude.HasNumeral.writtenAs {m : Magnitude} {cs : List Char} (h : m.HasNumeral cs) :
    m.WrittenAs cs := by
  obtain ⟨n, hn, htext, hvalue⟩ := h
  exact ⟨n, 0, [], hn, rfl, by simp, by rw [htext, List.append_nil], hvalue⟩

namespace Magnitude.WrittenAs

variable {m : Magnitude} {cs : List Char}

theorem mem_numberMarks (h : m.WrittenAs cs) {c : Char} (hc : c ∈ cs) : c ∈ numberMarks := by
  obtain ⟨n, power, tail, hn, -, hmarks, rfl, -⟩ := h
  rcases List.mem_append.mp hc with hnumeral | htail
  · exact hn.mem_numberMarks hnumeral
  · exact hmarks c htail

/-- The text is read as the magnitude, with a sign in front of it or without. -/
theorem ofText?_eq (h : m.WrittenAs cs) (negative : Bool) :
    Double.ofText? (String.ofList ((if negative then ['-'] else []) ++ cs)) =
      some (.finite negative m) := by
  have hmarks : ∀ c ∈ (if negative then ['-'] else []) ++ cs, c ∈ numberMarks := by
    intro c hc
    rcases List.mem_append.mp hc with hsign | hbehind
    · have hminus : c = '-' := by
        cases negative <;> simp_all
      rw [hminus]
      decide
    · exact h.mem_numberMarks hbehind
  obtain ⟨n, power, tail, hn, htail, -, rfl, hvalue⟩ := h
  have hread := hn.unsignedOfText?_append htail negative
  rw [hvalue] at hread
  have hsign : splitSign ((if negative then ['-'] else []) ++ (n.text ++ tail)) =
      (negative, n.text ++ tail) := by
    cases negative with
    | true => rfl
    | false =>
      obtain ⟨d, ds, hwhole⟩ := List.exists_cons_of_ne_nil hn.whole_ne_nil
      have hd : d.isDigit := hn.whole_digits d (by simp [hwhole])
      simp [Numeral.text, hwhole, splitSign_of_isDigit hd]
  rw [Double.ofText?, plainNumber?_of_numberMarks hmarks]
  simp [hsign, hread]

end Magnitude.WrittenAs

namespace Magnitude

variable {m : Magnitude}

/-- A decimal that does not begin too far from the point is written as a numeral. -/
theorem decimalText_hasNumeral {d : Decimal} (hdigits : d.digits ≠ 0)
    (hd : ∀ negative, d.toDouble negative = .finite negative m)
    (hrange : Double.positionalStart ≤ d.leading ∧ d.leading < Double.positionalEnd) :
    m.HasNumeral (Double.decimalText d) := by
  obtain ⟨significant, hne, hall, hvalue, htext⟩ := Double.exists_significant hdigits
  rw [if_pos hrange] at htext
  by_cases hleading : d.leading < 0
  · obtain ⟨n, hn, hpositional, hdecimal⟩ := Double.positional_eq_text_of_neg hall hne hleading
    refine ⟨n, hn, htext.trans hpositional, fun negative => ?_⟩
    rw [hdecimal, hvalue, hd]
  · obtain ⟨n, k, hn, hpositional, hdecimal⟩ :=
      Double.positional_eq_text_of_nonneg hall hne hleading
    refine ⟨n, hn, htext.trans hpositional, fun negative => ?_⟩
    rw [hdecimal, Decimal.toDouble_shift, hvalue, hd]

theorem decimalText_writtenAs {d : Decimal} (hdigits : d.digits ≠ 0)
    (hd : ∀ negative, d.toDouble negative = .finite negative m) :
    m.WrittenAs (Double.decimalText d) := by
  by_cases hrange : Double.positionalStart ≤ d.leading ∧ d.leading < Double.positionalEnd
  · exact (decimalText_hasNumeral hdigits hd hrange).writtenAs
  · obtain ⟨significant, hne, hall, hvalue, htext⟩ := Double.exists_significant hdigits
    rw [if_neg hrange] at htext
    obtain ⟨n, hn, hdecimal, hscientific⟩ := Double.scientific_eq_text hall hne
    refine ⟨n, d.leading, _, hn, Double.exponentOfText?_powerDigits d.leading, ?_,
      htext.trans hscientific, ?_⟩
    · intro c hc
      have hmarks : 'e' ∈ numberMarks ∧ '-' ∈ numberMarks ∧ '+' ∈ numberMarks := by decide
      rcases List.mem_cons.mp hc with rfl | hc
      · exact hmarks.1
      rcases List.mem_cons.mp hc with rfl | hc
      · split
        · exact hmarks.2.1
        · exact hmarks.2.2
      · exact mem_numberMarks_of_isDigit (Double.isDigit_of_mem_powerDigits hc)
    · intro negative
      rw [hdecimal, hvalue, hd]

/-- Only nothing is written with no digits. -/
theorem shortest_digits_ne_zero (hunits : m.units ≠ 0) : (Decimal.shortest m).digits ≠ 0 := by
  intro hzero
  have hnone := Decimal.toDouble_shortest false m
  rw [Decimal.toDouble, if_pos (.inl hzero)] at hnone
  injection hnone with _ hm
  exact hunits (by rw [← hm]; rfl)

/-- The written form of a magnitude stands for it. -/
theorem magnitudeText_writtenAs (m : Magnitude) : m.WrittenAs (Double.magnitudeText m) := by
  rw [Double.magnitudeText]
  split
  case isTrue hzero =>
    refine ⟨⟨['0'], ['0']⟩, 0, [], ⟨by simp, by simp, by simp⟩, rfl, by simp, rfl, ?_⟩
    intro negative
    rw [eq_zero hzero]
    rfl
  case isFalse hunits =>
    exact decimalText_writtenAs (shortest_digits_ne_zero hunits)
      fun negative => Decimal.toDouble_shortest negative m

/-- The digits of an integer stand for it. -/
theorem decimalDigits_hasNumeral (h : m.units % unitsPerOne = 0) :
    m.HasNumeral (decimalDigits (m.units / unitsPerOne)) := by
  obtain ⟨i, hi⟩ := Nat.dvd_of_mod_eq_zero h
  have hquotient : m.units / unitsPerOne = i := by
    rw [hi, Nat.mul_div_cancel_left _ unitsPerOne_pos]
  rw [hquotient]
  refine ⟨⟨decimalDigits i, []⟩, ⟨Nat.toDigits_ne_nil, ?_, by simp⟩, by simp [Numeral.text], ?_⟩
  · exact fun c hc => isDigit_of_mem_decimalDigits hc
  · intro negative
    have hdecimal : (Numeral.mk (decimalDigits i) []).decimal 0 = ⟨i, 0⟩ := by
      rw [Numeral.decimal, List.append_nil, digitsValue_decimalDigits]
      rfl
    rw [hdecimal]
    exact Decimal.toDouble_integer hi negative

end Magnitude

/-- Every double is read back from its written form. -/
theorem Double.ofText?_text (d : Double) : Double.ofText? d.text = some d := by
  cases d with
  | finite negative m => exact (Magnitude.magnitudeText_writtenAs m).ofText?_eq negative
  | infinite negative => cases negative <;> decide +kernel
  | nan => decide +kernel

end LoxGraph
