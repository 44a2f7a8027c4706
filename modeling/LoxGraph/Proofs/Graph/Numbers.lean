import LoxGraph.Proofs.Graph.Scanned

/-!
The labels of numbers.

The label of an integer is its canonical numeral (`decimalDigits_canonical`). Any other number is
written with a point and no power of ten, provided that it is not below the double nearest to
`0.0001` (`Magnitude.magnitudeText_hasNumeral`): its first digit is worth at least `10 ^ -4`, and
less than `10 ^ 16`, from where on all doubles are integers. So the label of a scanned number is a
text that is scanned as this number (`Cursor.advance_number_label`).
-/

namespace LoxGraph

/-- Whether digits alone write an integer, with no zero in front of other digits. -/
structure CanonicalNumeral (n : Nat) (cs : List Char) : Prop where
  digits : ∀ c ∈ cs, c.isDigit
  ne_nil : cs ≠ []
  leading : cs.head? = some '0' → cs = ['0']
  value : digitsValue cs = n

theorem decimalDigits_of_leading_zero {n : Nat} (h : (decimalDigits n).head? = some '0') :
    decimalDigits n = ['0'] := by
  -- The induction takes the last digit away.
  induction n using Nat.strongRecOn with
  | ind n ih =>
    rw [decimalDigits] at h ⊢
    by_cases hone : n < 10
    · rw [Nat.toDigits_of_lt_base hone] at h ⊢
      exact congrArg (fun c => [c]) (Option.some.inj h)
    · have hten : 10 ≤ n := Nat.not_lt.mp hone
      have hne : Nat.toDigits 10 (n / 10) ≠ [] := Nat.toDigits_ne_nil
      rw [Nat.toDigits_of_base_le (by decide) hten, List.head?_append,
        List.head?_eq_some_head hne, Option.some_or, ← List.head?_eq_some_head hne] at h
      have hfront : decimalDigits (n / 10) = ['0'] := ih (n / 10) (by omega) h
      have hvalue := digitsValue_decimalDigits (n / 10)
      rw [hfront] at hvalue
      have hzero : n / 10 = 0 := hvalue.symm
      omega

theorem decimalDigits_canonical (n : Nat) : CanonicalNumeral n (decimalDigits n) where
  digits _ hc := isDigit_of_mem_decimalDigits hc
  ne_nil := Nat.toDigits_ne_nil
  leading := decimalDigits_of_leading_zero
  value := digitsValue_decimalDigits n

namespace Magnitude

variable {m : Magnitude} {cs : List Char}

theorem eq_of_units {m m' : Magnitude} (h : m.units = m'.units) : m = m' := by
  cases m
  cases m'
  obtain rfl := h
  rfl

/-- The magnitude nearest to `0.0001`. -/
def tenThousandth : Magnitude :=
  ⟨roundUnits unitsPerOne 10000, by decide +kernel, roundUnits_significant _ _⟩

/-- The magnitude nearest to `10 ^ 23`, which no double holds. -/
def nearTenTo23 : Magnitude :=
  ⟨roundUnits (10 ^ 23 * unitsPerOne) 1, by decide +kernel, roundUnits_significant _ _⟩

theorem ofText?_tenThousandth : Double.ofText? "0.0001" = some (.finite false tenThousandth) := by
  decide +kernel

theorem unitsPerOne_le : unitsPerOne ≤ tenThousandth.units * 10 ^ 4 := by
  decide +kernel

theorem leading_tenThousandth : (Decimal.shortest tenThousandth).leading = -4 := by
  decide +kernel

/-- A number that is no integer and not below `0.0001` is written without a power of ten. -/
theorem magnitudeText_hasNumeral (hunits : m.units % unitsPerOne ≠ 0)
    (hlimit : tenThousandth.units ≤ m.units) : m.HasNumeral (Double.magnitudeText m) := by
  have hshortest := fun negative => Decimal.toDouble_shortest negative m
  have hne : m.units ≠ 0 := by
    intro hzero
    rw [hzero, Nat.zero_mod] at hunits
    exact hunits rfl
  have hstart : Double.positionalStart ≤ (Decimal.shortest m).leading := by
    by_contra hbelow
    have hleading : (Decimal.shortest m).leading < -(4 : Nat) := Int.not_le.mp hbelow
    have hle := Decimal.units_le_of_leading_lt (hshortest false) hleading unitsPerOne_le
    rw [eq_of_units (Nat.le_antisymm hle hlimit), leading_tenThousandth] at hbelow
    exact hbelow (Int.le_refl _)
  have hend : (Decimal.shortest m).leading < Double.positionalEnd := by
    by_contra habove
    exact hunits (Decimal.integer_of_le_leading (hshortest false) (Int.not_lt.mp habove))
  rw [Double.magnitudeText, if_neg hne]
  exact decimalText_hasNumeral (shortest_digits_ne_zero hne) hshortest ⟨hstart, hend⟩

/-- The label of a number: the canonical numeral of an integer, and a numeral of any other
number that is not below `0.0001`. -/
theorem exists_label (m : Magnitude) : ∃ label,
    (Value.double (.finite false m)).numberLabel = .ok label ∧
      (∀ i, m.units = i * unitsPerOne → CanonicalNumeral i label.toList) ∧
      (m.units = 0 ∨ tenThousandth.units ≤ m.units → m.HasNumeral label.toList) := by
  by_cases hunits : m.units % unitsPerOne = 0
  · refine ⟨_, Double.numberLabel_integer hunits, ?_, ?_⟩
    · intro i hi
      rw [String.toList_ofList, hi, Nat.mul_div_cancel i unitsPerOne_pos]
      exact decimalDigits_canonical i
    · intro _
      rw [String.toList_ofList]
      exact decimalDigits_hasNumeral hunits
  · have hinteger : (Double.finite false m).integer? = none := by simp [Double.integer?, hunits]
    have htext : (Double.finite false m).text.toList = Double.magnitudeText m := by
      simp [Double.text]
    refine ⟨_, Double.numberLabel_text hinteger, ?_, ?_⟩
    · rintro i hi
      rw [hi, Nat.mul_mod_left] at hunits
      exact absurd rfl hunits
    · rintro (hzero | hlimit)
      · rw [hzero, Nat.zero_mod] at hunits
        exact absurd rfl hunits
      · rw [htext]
        exact magnitudeText_hasNumeral hunits hlimit

end Magnitude

theorem Numeral.WellFormed.count_lineFeed {n : Numeral} (h : n.WellFormed) :
    n.text.count '\n' = 0 := by
  apply List.count_eq_zero.mpr
  intro hmem
  exact absurd (h.mem_numberMarks hmem) (by decide)

/-- A numeral alone is one token. -/
theorem Magnitude.HasNumeral.tokenize {m : Magnitude} {text : String}
    (h : m.HasNumeral text.toList) : (LoxGraph.tokenize text).map TokenStream.toList =
      .ok [⟨.number, text, .double (.finite false m), 1⟩, Token.endOfText 1] := by
  obtain ⟨n, hn, htext, hvalue⟩ := h
  have hdouble : n.toDouble = .finite false m := n.toDouble_eq_decimal.trans (hvalue false)
  have hlexeme : IsLexeme text.toList .number (.double (.finite false m)) := by
    rw [htext, ← hdouble]
    exact .numeral hn hn.ofText?_text
  have hcount : text.toList.count '\n' = 0 := by rw [htext, hn.count_lineFeed]
  have hline : lineAfter ([] ++ text.toList) = 1 := by rw [List.nil_append, lineAfter, hcount]; rfl
  have hlayout : Layout [] _ _ := .token .nil hlexeme hlexeme.munch_nil (.ended .nil)
  rw [List.nil_append, List.append_nil, List.append_nil, hline, String.ofList_toList] at hlayout
  rw [tokenize_toList_iff]
  refine ⟨_, hlayout, by simp, ?_⟩
  rw [hcount]
  rfl

/-- The label of a finite number that a cursor meets anywhere in a text. When the number is an
integer, the label is its canonical numeral. When it is zero or at least the double of `0.0001`,
the label is a text with one token, which is the number again. -/
theorem Cursor.advance_number_label {cursor next : Cursor} {t : Token} {negative : Bool}
    {m : Magnitude} (hstep : cursor.advance = (.token t, next)) (hkind : t.kind = .number)
    (hvalue : t.literal = .double (.finite negative m)) :
    negative = false ∧ ∃ l label, Literal.ofToken? t = some l ∧
      (Expr.literal l).label = .ok label ∧
      (∀ i, m.units = i * unitsPerOne → CanonicalNumeral i label.toList) ∧
      ∃ limit, Double.ofText? "0.0001" = some (.finite false limit) ∧
        (m.units = 0 ∨ limit.units ≤ m.units → (tokenize label).map TokenStream.toList =
          .ok [⟨.number, label, .double (.finite negative m), 1⟩, Token.endOfText 1]) := by
  cases meets_of_advance hstep with
  | @token gap text kind literal _ hahead hgap htext hmunch hline =>
    obtain rfl : kind = .number := hkind
    obtain rfl : literal = .double (.finite negative m) := hvalue
    obtain ⟨n, -, -, hliteral⟩ := htext.of_number
    have hunsigned : (Double.finite negative m).Unsigned := by
      rw [Value.double.inj hliteral, n.toDouble_eq_decimal]
      exact Decimal.toDouble_unsigned _
    cases hunsigned
    obtain ⟨label, hlabel, hcanonical, hnumeral⟩ := m.exists_label
    exact ⟨rfl, .number (.double (.finite false m)), label, rfl, hlabel, hcanonical,
      .tenThousandth, Magnitude.ofText?_tenThousandth, fun hlimit => (hnumeral hlimit).tokenize⟩

/-- What a cursor meets in front of `10 ^ 23` is another integer, which its label tells exactly. -/
theorem Cursor.advance_nearTenTo23_label : ∃ t next l label,
    (Cursor.atStart "100000000000000000000000".toList).advance = (.token t, next) ∧
      t.literal = .double (.finite false .nearTenTo23) ∧ Literal.ofToken? t = some l ∧
      (Expr.literal l).label = .ok label ∧
      CanonicalNumeral 99999999999999991611392 label.toList ∧
      (tokenize label).map TokenStream.toList =
        .ok [⟨.number, label, .double (.finite false .nearTenTo23), 1⟩, Token.endOfText 1] := by
  have hdigits : "100000000000000000000000".toList.all Char.isDigit := by decide +kernel
  have hlexeme : IsLexeme "100000000000000000000000".toList .number
      (.double (.finite false .nearTenTo23)) :=
    .numeral (n := ⟨"100000000000000000000000".toList, []⟩)
      ⟨by decide +kernel, List.all_eq_true.mp hdigits, nofun⟩ (by decide +kernel)
  have hahead : (Cursor.atStart "100000000000000000000000".toList).ahead =
      [] ++ ("100000000000000000000000".toList ++ []) := (List.append_nil _).symm
  obtain ⟨next, hstep, -, -⟩ := advance_lexeme .nil hlexeme hlexeme.munch_nil hahead
  obtain ⟨-, l, label, hl, hlabel, hcanonical, limit, hlimit, hscan⟩ :=
    advance_number_label hstep rfl rfl
  have hunits : Magnitude.nearTenTo23.units = 99999999999999991611392 * unitsPerOne := by
    decide +kernel
  have habove : limit.units ≤ Magnitude.nearTenTo23.units := by
    have hsame := hlimit.symm.trans Magnitude.ofText?_tenThousandth
    rw [(Double.finite.inj (Option.some.inj hsame)).2]
    decide +kernel
  exact ⟨_, next, l, label, hstep, rfl, hl, hlabel, hcanonical _ hunits, hscan (.inr habove)⟩

end LoxGraph
