import Mathlib.Algebra.Group.Nat.Defs
import LoxGraph.Proofs.Double.Rounding

/-!
Rounding does not go past a value that a double can hold.

What is at most a magnitude is rounded to no more than it (`Magnitude.roundUnits_le`), and what is
at least a power of two is rounded to no less (`Magnitude.le_roundUnits`). So the power of ten that
the digits of a magnitude begin with tells how large the magnitude is, whatever digits stand for
it: from `10 ^ 16` on it is an integer (`Decimal.integer_of_le_leading`), and below `10 ^ -4` it is
at most the double nearest to this (`Decimal.units_le_of_leading_lt`).
-/

namespace LoxGraph

theorem le_roundQuotient (p q : Nat) : p / q ≤ roundQuotient p q := by
  simp only [roundQuotient]
  split
  · exact Nat.le_refl _
  split
  · exact Nat.le_succ _
  · exact Nat.le_add_right _ _

/-- A quotient that is at most an integer is rounded to no more than this integer. -/
theorem roundQuotient_le_of_le {p q n : Nat} (hq : 0 < q) (h : p ≤ n * q) :
    roundQuotient p q ≤ n := by
  rcases Nat.eq_or_lt_of_le h with rfl | hlt
  · exact Nat.le_of_eq (roundQuotient_mul_right hq n)
  · have hdiv : p / q < n := (Nat.div_lt_iff_lt_mul hq).mpr hlt
    exact Nat.le_trans (roundQuotient_le p q) hdiv

/-- The units of one are a power of two. Which one does not matter to the bounds below. -/
theorem exists_unitsPerOne_eq : ∃ k, unitsPerOne = 2 ^ k := by
  unfold unitsPerOne
  generalize 1074 = k
  exact ⟨k, rfl⟩

namespace Magnitude

variable {p q : Nat}

theorem log2_le_log2 {m n : Nat} (h : m ≤ n) : m.log2 ≤ n.log2 := by
  by_cases hm : m = 0
  · rw [hm, Nat.log2_zero]
    exact Nat.zero_le _
  · have hn : n ≠ 0 := by omega
    exact (Nat.le_log2 hn).mpr (Nat.le_trans (Nat.log2_self_le hm) h)

theorem gap_dvd_gap {m n : Nat} (h : m ≤ n) : gap m ∣ gap n := by
  have hlog := log2_le_log2 h
  exact Nat.pow_dvd_pow 2 (by omega)

/-- What is at most a magnitude is rounded to no more than this magnitude. -/
theorem roundUnits_le (m : Magnitude) (hq : 0 < q) (h : p ≤ m.units * q) :
    roundUnits p q ≤ m.units := by
  have hdiv : p / q ≤ m.units := Nat.div_le_of_le_mul (by rwa [Nat.mul_comm])
  obtain ⟨n, hn⟩ := Nat.dvd_trans (gap_dvd_gap hdiv) m.gap_dvd_units
  have hpos := gap_pos (p / q)
  rw [roundUnits]
  generalize gap (p / q) = g at hn hpos
  have hbound : p ≤ n * (q * g) := by
    rw [hn] at h
    calc p ≤ g * n * q := h
      _ = n * (q * g) := by ac_rfl
  have hround := roundQuotient_le_of_le (Nat.mul_pos hq hpos) hbound
  rw [hn, Nat.mul_comm g n]
  exact Nat.mul_le_mul_right g hround

/-- What is at least a power of two is rounded to no less than this power. -/
theorem le_roundUnits {k : Nat} (hq : 0 < q) (h : 2 ^ k * q ≤ p) : 2 ^ k ≤ roundUnits p q := by
  have hdiv : 2 ^ k ≤ p / q := (Nat.le_div_iff_mul_le hq).mpr h
  have hne : p / q ≠ 0 := by
    have hpos : 0 < 2 ^ k := Nat.two_pow_pos k
    omega
  have hlog : k ≤ (p / q).log2 := (Nat.le_log2 hne).mpr hdiv
  -- The highest bit of the quotient is a whole number of gaps, and is left by rounding down.
  obtain ⟨n, hn⟩ : gap (p / q) ∣ 2 ^ (p / q).log2 := Nat.pow_dvd_pow 2 (Nat.sub_le _ _)
  have hpos := gap_pos (p / q)
  have hhigh : n ≤ p / q / gap (p / q) := by
    rw [Nat.le_div_iff_mul_le hpos, Nat.mul_comm, ← hn]
    exact Nat.log2_self_le hne
  have hround : n ≤ roundQuotient p (q * gap (p / q)) := by
    rw [Nat.div_div_eq_div_mul] at hhigh
    exact Nat.le_trans hhigh (le_roundQuotient _ _)
  calc 2 ^ k ≤ 2 ^ (p / q).log2 := Nat.pow_le_pow_right (by decide) hlog
    _ = n * gap (p / q) := by rw [hn, Nat.mul_comm]
    _ ≤ roundUnits p q := Nat.mul_le_mul_right _ hround

/-- A magnitude from `2 ^ 53` on is an integer. -/
theorem integer_of_le (m : Magnitude) (h : 2 ^ 53 * unitsPerOne ≤ m.units) :
    m.units % unitsPerOne = 0 := by
  obtain ⟨k, hk⟩ := exists_unitsPerOne_eq
  rw [hk, ← Nat.pow_add] at h
  have hne : m.units ≠ 0 := by
    have hpos : 0 < 2 ^ (53 + k) := Nat.two_pow_pos _
    omega
  have hlog : 53 + k ≤ m.units.log2 := (Nat.le_log2 hne).mpr h
  have hgap : 2 ^ k ∣ gap m.units := Nat.pow_dvd_pow 2 (by omega)
  rw [hk]
  exact Nat.mod_eq_zero_of_dvd (Nat.dvd_trans hgap m.gap_dvd_units)

end Magnitude

namespace Decimal

variable {d : Decimal} {m : Magnitude}

/-- The power of ten that the first digit of a decimal is worth. -/
def leading (d : Decimal) : Int := d.exponent + (decimalDigits d.digits).length - 1

theorem length_decimalDigits_pos (n : Nat) : 0 < (decimalDigits n).length :=
  List.length_pos_iff.mpr Nat.toDigits_ne_nil

theorem lt_pow_length (n : Nat) : n < 10 ^ (decimalDigits n).length :=
  (Nat.length_toDigits_le_iff (by decide) (length_decimalDigits_pos n)).mp (Nat.le_refl _)

theorem pow_pred_length_le {n : Nat} (hn : n ≠ 0) : 10 ^ ((decimalDigits n).length - 1) ≤ n := by
  by_contra hsmall
  have hpos := length_decimalDigits_pos n
  by_cases hone : (decimalDigits n).length = 1
  · rw [hone] at hsmall
    omega
  · have hshort := (Nat.length_toDigits_le_iff (by decide) (by omega)).mpr (Nat.not_le.mp hsmall)
    have hsame : (Nat.toDigits 10 n).length = (decimalDigits n).length := rfl
    omega

/-- A decimal is at least the power of ten that it begins with. -/
theorem le_of_le_leading {e : Nat} (hd : d.digits ≠ 0) (h : (e : Int) ≤ d.leading) :
    10 ^ e * (powerOfTen d.exponent).2 ≤ d.digits * (powerOfTen d.exponent).1 := by
  have hdigits := pow_pred_length_le hd
  have hpos := length_decimalDigits_pos d.digits
  rw [leading] at h
  rw [powerOfTen]
  split
  · calc 10 ^ e * 1 ≤ 10 ^ ((decimalDigits d.digits).length - 1 + d.exponent.toNat) := by
          rw [Nat.mul_one]
          exact Nat.pow_le_pow_right (by decide) (by omega)
      _ = 10 ^ ((decimalDigits d.digits).length - 1) * 10 ^ d.exponent.toNat := Nat.pow_add ..
      _ ≤ d.digits * 10 ^ d.exponent.toNat := Nat.mul_le_mul_right _ hdigits
  · calc 10 ^ e * 10 ^ (-d.exponent).toNat = 10 ^ (e + (-d.exponent).toNat) := (Nat.pow_add ..).symm
      _ ≤ 10 ^ ((decimalDigits d.digits).length - 1) :=
          Nat.pow_le_pow_right (by decide) (by omega)
      _ ≤ d.digits * 1 := by rwa [Nat.mul_one]

/-- A decimal is less than the power of ten after the one that it begins with. -/
theorem le_of_leading_lt {e : Nat} (h : d.leading < -(e : Int)) :
    d.digits * (powerOfTen d.exponent).1 * 10 ^ e ≤ (powerOfTen d.exponent).2 := by
  have hdigits := lt_pow_length d.digits
  have hpos := length_decimalDigits_pos d.digits
  rw [leading] at h
  rw [powerOfTen, if_neg (by omega)]
  calc d.digits * 1 * 10 ^ e ≤ 10 ^ (decimalDigits d.digits).length * 10 ^ e := by
        rw [Nat.mul_one]
        exact Nat.mul_le_mul_right _ (Nat.le_of_lt hdigits)
    _ = 10 ^ ((decimalDigits d.digits).length + e) := (Nat.pow_add ..).symm
    _ ≤ 10 ^ (-d.exponent).toNat := Nat.pow_le_pow_right (by decide) (by omega)

theorem powerOfTen_snd_pos (e : Int) : 0 < (powerOfTen e).2 := by
  rw [powerOfTen]
  split
  · exact Nat.one_pos
  · exact Nat.pow_pos (by decide)

/-- A decimal that stands for a magnitude is rounded to its units. -/
theorem roundUnits_of_toDouble (h : d.toDouble false = .finite false m) (hm : m.units ≠ 0) :
    d.digits ≠ 0 ∧ Magnitude.roundUnits (d.digits * (powerOfTen d.exponent).1 * unitsPerOne)
      (powerOfTen d.exponent).2 = m.units := by
  simp only [toDouble, Double.ofRatio] at h
  split_ifs at h with hzero hfar hbelow
  · cases h
    exact absurd rfl hm
  · cases h
    exact ⟨fun hdigits => hzero (.inl hdigits), rfl⟩

/-- A magnitude that a decimal from `10 ^ 16` on stands for is an integer. -/
theorem integer_of_le_leading (h : d.toDouble false = .finite false m) (hleading : 16 ≤ d.leading) :
    m.units % unitsPerOne = 0 := by
  by_cases hm : m.units = 0
  · rw [hm, Nat.zero_mod]
  obtain ⟨hdigits, hround⟩ := roundUnits_of_toDouble h hm
  have hlarge := le_of_le_leading (e := 16) hdigits hleading
  have hpos := powerOfTen_snd_pos d.exponent
  generalize (powerOfTen d.exponent).1 = up at hround hlarge
  generalize (powerOfTen d.exponent).2 = down at hround hlarge hpos
  apply m.integer_of_le
  obtain ⟨k, hk⟩ := exists_unitsPerOne_eq
  rw [hk] at hround ⊢
  rw [← Nat.pow_add, ← hround]
  apply Magnitude.le_roundUnits hpos
  have hten : 2 ^ 53 ≤ 10 ^ 16 := by decide
  calc 2 ^ (53 + k) * down = 2 ^ 53 * down * 2 ^ k := by rw [Nat.pow_add]; ac_rfl
    _ ≤ 10 ^ 16 * down * 2 ^ k := Nat.mul_le_mul_right _ (Nat.mul_le_mul_right _ hten)
    _ ≤ d.digits * up * 2 ^ k := Nat.mul_le_mul_right _ hlarge

/-- A magnitude that a decimal below a power of ten stands for is at most any magnitude that this
power is not above. -/
theorem units_le_of_leading_lt (h : d.toDouble false = .finite false m) {e : Nat}
    (hleading : d.leading < -(e : Int)) {limit : Magnitude}
    (hlimit : unitsPerOne ≤ limit.units * 10 ^ e) : m.units ≤ limit.units := by
  by_cases hm : m.units = 0
  · rw [hm]
    exact Nat.zero_le _
  obtain ⟨-, hround⟩ := roundUnits_of_toDouble h hm
  have hsmall := le_of_leading_lt hleading
  have hpos := powerOfTen_snd_pos d.exponent
  generalize (powerOfTen d.exponent).1 = up at hround hsmall
  generalize (powerOfTen d.exponent).2 = down at hround hsmall hpos
  rw [← hround]
  apply limit.roundUnits_le hpos
  have hten : 0 < 10 ^ e := Nat.pow_pos (by decide)
  calc d.digits * up * unitsPerOne ≤ d.digits * up * (limit.units * 10 ^ e) :=
        Nat.mul_le_mul_left _ hlimit
    _ = d.digits * up * 10 ^ e * limit.units := by ac_rfl
    _ ≤ down * limit.units := Nat.mul_le_mul_right _ hsmall
    _ = limit.units * down := Nat.mul_comm ..

end Decimal

end LoxGraph
