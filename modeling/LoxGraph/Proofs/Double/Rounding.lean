import Mathlib.Tactic.SplitIfs
import Mathlib.Tactic.ByContra
import LoxGraph.Double.Decimal

/-!
Rounding depends on the value alone.

The double nearest to a quotient does not depend on how the quotient is written
(`Double.ofRatio_mul_left`), nor does the double of a decimal depend on the number of zeros
that end its digits (`Decimal.toDouble_shift`). A value that a magnitude holds is its own
rounding (`Double.ofRatio_eq_finite`), so all digits of a magnitude stand for it
(`Decimal.toDouble_exact`), and so do the fewest (`Decimal.toDouble_shortest`).
-/

namespace LoxGraph

theorem roundQuotient_mul_left {k : Nat} (hk : 0 < k) (p q : Nat) :
    roundQuotient (k * p) (k * q) = roundQuotient p q := by
  have hdiv : k * p / (k * q) = p / q := Nat.mul_div_mul_left p q hk
  have hmod : 2 * (k * p % (k * q)) = k * (2 * (p % q)) := by
    rw [Nat.mul_mod_mul_left, Nat.mul_left_comm]
  have hbelow : 2 * (k * p % (k * q)) < k * q ↔ 2 * (p % q) < q := by
    rw [hmod, Nat.mul_lt_mul_left hk]
  have habove : k * q < 2 * (k * p % (k * q)) ↔ q < 2 * (p % q) := by
    rw [hmod, Nat.mul_lt_mul_left hk]
  simp only [roundQuotient, hdiv, hbelow, habove]

theorem roundQuotient_mul_right {q : Nat} (hq : 0 < q) (n : Nat) : roundQuotient (n * q) q = n := by
  rw [roundQuotient, Nat.mul_mod_left, Nat.mul_div_cancel n hq, if_pos (by omega)]

namespace Magnitude

theorem eq_zero {m : Magnitude} (h : m.units = 0) : m = zero := by
  obtain ⟨units, hbelow, hsignificant⟩ := m
  obtain rfl : units = 0 := h
  rfl

theorem gap_pos (n : Nat) : 0 < gap n := Nat.two_pow_pos _

theorem roundUnits_mul_left {k : Nat} (hk : 0 < k) (p q : Nat) :
    roundUnits (k * p) (k * q) = roundUnits p q := by
  rw [roundUnits, Nat.mul_div_mul_left p q hk, Nat.mul_assoc, roundQuotient_mul_left hk, roundUnits]

/-- A magnitude is a whole number of gaps. -/
theorem gap_dvd_units (m : Magnitude) : gap m.units ∣ m.units := by
  obtain ⟨significand, exponent, hsignificand, hunits⟩ := m.significant
  by_cases hzero : m.units = 0
  · rw [hzero]
    exact Nat.dvd_zero _
  have hlow : 2 ^ m.units.log2 ≤ m.units := Nat.log2_self_le hzero
  have hhigh : m.units < 2 ^ (53 + exponent) := by
    rw [hunits, Nat.pow_add]
    exact Nat.mul_lt_mul_of_pos_right hsignificand (Nat.two_pow_pos exponent)
  have hlog : m.units.log2 < 53 + exponent :=
    (Nat.pow_lt_pow_iff_right (by decide : 1 < 2)).mp (Nat.lt_of_le_of_lt hlow hhigh)
  have hgap : gap m.units ∣ 2 ^ exponent := Nat.pow_dvd_pow 2 (by omega)
  have hunits' : 2 ^ exponent ∣ m.units := ⟨significand, by rw [hunits]; exact Nat.mul_comm _ _⟩
  exact Nat.dvd_trans hgap hunits'

theorem roundUnits_units (m : Magnitude) : roundUnits m.units 1 = m.units := by
  obtain ⟨n, hn⟩ := gap_dvd_units m
  have hpos := gap_pos m.units
  rw [roundUnits, Nat.div_one, Nat.one_mul]
  generalize gap m.units = g at hn hpos
  rw [hn, Nat.mul_comm g n, roundQuotient_mul_right hpos]

end Magnitude

namespace Double

theorem ofRatio_congr {negative : Bool} {p q p' q' : Nat}
    (h : Magnitude.roundUnits (p * unitsPerOne) q = Magnitude.roundUnits (p' * unitsPerOne) q') :
    ofRatio negative p q = ofRatio negative p' q' := by
  simp only [ofRatio, h]

theorem ofRatio_mul_left {k : Nat} (hk : 0 < k) (negative : Bool) (p q : Nat) :
    ofRatio negative (k * p) (k * q) = ofRatio negative p q := by
  apply ofRatio_congr
  rw [Nat.mul_assoc, Magnitude.roundUnits_mul_left hk]

/-- A value that a magnitude holds is its own rounding. -/
theorem ofRatio_eq_finite {negative : Bool} {p q : Nat} {m : Magnitude} (hq : 0 < q)
    (h : p * unitsPerOne = m.units * q) : ofRatio negative p q = .finite negative m := by
  have hround : Magnitude.roundUnits (p * unitsPerOne) q = m.units := by
    have hscale := Magnitude.roundUnits_mul_left hq m.units 1
    rw [Nat.mul_one, Magnitude.roundUnits_units] at hscale
    rw [h, Nat.mul_comm, hscale]
  have hbelow := m.below_overflow
  simp only [ofRatio, hround, hbelow, dite_true]

end Double

namespace Decimal

theorem length_decimalDigits_ten_mul {n : Nat} (hn : 0 < n) :
    (decimalDigits (10 * n)).length = (decimalDigits n).length + 1 := by
  have h := Nat.toDigits_append_toDigits (by decide : 1 < 10) hn (by decide : 0 < 10)
  rw [Nat.add_zero] at h
  rw [decimalDigits, ← h, List.length_append, Nat.toDigits_zero]
  rfl

/-- One power of ten less is a tenth. -/
theorem powerOfTen_pred (e : Int) : ∃ k, 0 < k ∧
    10 * (powerOfTen (e - 1)).1 = k * (powerOfTen e).1 ∧
      (powerOfTen (e - 1)).2 = k * (powerOfTen e).2 := by
  by_cases he : 0 < e
  · have hpred : e.toNat = (e - 1).toNat + 1 := by omega
    refine ⟨1, by decide, ?_, ?_⟩
    · rw [powerOfTen, powerOfTen, if_pos (by omega), if_pos (by omega), hpred, Nat.one_mul]
      exact Nat.pow_succ'.symm
    · rw [powerOfTen, powerOfTen, if_pos (by omega), if_pos (by omega), Nat.one_mul]
  · have hsucc : (-(e - 1)).toNat = (-e).toNat + 1 := by omega
    have hpow : Nat.pow 10 ((-e).toNat + 1) = 10 * Nat.pow 10 (-e).toNat := Nat.pow_succ'
    refine ⟨10, by decide, ?_⟩
    rw [powerOfTen, if_neg (by omega), hsucc, hpow, powerOfTen]
    split
    · obtain rfl : e = 0 := by omega
      decide
    · exact ⟨rfl, rfl⟩

/-- The same decimal with zeros behind its digits. -/
def shift (d : Decimal) (k : Nat) : Decimal := ⟨d.digits * Nat.pow 10 k, d.exponent - k⟩

theorem toDouble_ten_mul (negative : Bool) (n : Nat) (e : Int) :
    toDouble negative ⟨10 * n, e - 1⟩ = toDouble negative ⟨n, e⟩ := by
  by_cases hn : n = 0
  · simp [toDouble, hn]
  have hleading : e - 1 + ((decimalDigits (10 * n)).length : Int) =
      e + (decimalDigits n).length := by
    rw [length_decimalDigits_ten_mul (Nat.pos_of_ne_zero hn)]
    omega
  obtain ⟨k, hk, hup, hdown⟩ := powerOfTen_pred e
  have hratio : Double.ofRatio negative (10 * n * (powerOfTen (e - 1)).1) (powerOfTen (e - 1)).2 =
      Double.ofRatio negative (n * (powerOfTen e).1) (powerOfTen e).2 := by
    have hp : 10 * n * (powerOfTen (e - 1)).1 = k * (n * (powerOfTen e).1) := by
      rw [Nat.mul_comm 10 n, Nat.mul_assoc, hup, Nat.mul_left_comm]
    rw [hp, hdown, Double.ofRatio_mul_left hk]
  have hzero : 10 * n = 0 ↔ n = 0 := by omega
  simp only [toDouble, hleading, hratio, hzero]

theorem toDouble_shift (negative : Bool) (d : Decimal) (k : Nat) :
    (d.shift k).toDouble negative = d.toDouble negative := by
  induction k with
  | zero => simp [shift]
  | succ k ih =>
    have hpow : Nat.pow 10 (k + 1) = 10 * Nat.pow 10 k := Nat.pow_succ'
    have hdigits : d.digits * Nat.pow 10 (k + 1) = 10 * (d.digits * Nat.pow 10 k) := by
      rw [hpow, Nat.mul_left_comm]
    have hexponent : d.exponent - (k + 1 : Nat) = d.exponent - k - 1 := by omega
    rw [shift, hdigits, hexponent, toDouble_ten_mul]
    exact ih

/-- A decimal is rounded as a quotient, unless it is far out. -/
theorem toDouble_eq_ofRatio {d : Decimal} (low high : Nat) (hlow : Nat.pow 10 low ≤ d.digits)
    (hhigh : d.digits < Nat.pow 10 high) (hstart : -farthestExponent ≤ d.exponent + low)
    (hend : d.exponent + high ≤ farthestExponent) (negative : Bool) : d.toDouble negative =
      .ofRatio negative (d.digits * (powerOfTen d.exponent).1) (powerOfTen d.exponent).2 := by
  have hdigits : d.digits ≠ 0 := by
    have hpos : 0 < Nat.pow 10 low := Nat.pow_pos (by decide)
    omega
  have hlength {k : Nat} (hk : 0 < k) :
      (decimalDigits d.digits).length ≤ k ↔ d.digits < Nat.pow 10 k :=
    Nat.length_toDigits_le_iff (by decide) hk
  have hhighpos : 0 < high := by
    apply Nat.pos_of_ne_zero
    rintro rfl
    have hone : Nat.pow 10 0 = 1 := rfl
    omega
  have hupper : (decimalDigits d.digits).length ≤ high := (hlength hhighpos).mpr hhigh
  have hlower : low ≤ (decimalDigits d.digits).length := by
    by_contra hshort
    have hsmall := (hlength (by omega : 0 < low)).mp (by omega)
    omega
  rw [toDouble, if_neg (by simp only [hdigits, false_or]; omega), if_neg (by omega)]

/-- All digits of a magnitude, and between which powers of ten they are, with these powers left
unevaluated. -/
theorem exact_eq (m : Magnitude) : ∃ five ten low high : Nat,
    (exact m = ⟨m.units * five, -1074⟩ ∧ powerOfTen (-1074) = (1, ten)) ∧
      (0 < five ∧ 0 < ten ∧ five * unitsPerOne = ten) ∧
        (Nat.pow 10 low ≤ five ∧ unitsAtOverflow * five ≤ Nat.pow 10 high) ∧
          -farthestExponent ≤ -1074 + (low : Int) ∧ -1074 + (high : Int) ≤ farthestExponent :=
  ⟨Nat.pow 5 1074, Nat.pow 10 1074, 700, 1400, ⟨rfl, by decide +kernel⟩,
    ⟨by decide +kernel, by decide +kernel, by decide +kernel⟩,
    ⟨by decide +kernel, by decide +kernel⟩, by decide, by decide⟩

theorem toDouble_exact (negative : Bool) (m : Magnitude) :
    (exact m).toDouble negative = .finite negative m := by
  obtain ⟨five, ten, low, high, ⟨hexact, hpower⟩, ⟨hfive, hten, hproduct⟩, ⟨hlow, hhigh⟩, hstart,
    hend⟩ := exact_eq m
  rw [hexact]
  by_cases hzero : m.units = 0
  · have hdigits : m.units * five = 0 := by rw [hzero, Nat.zero_mul]
    rw [toDouble, if_pos (.inl hdigits), Magnitude.eq_zero hzero]
  have hmany : Nat.pow 10 low ≤ m.units * five :=
    Nat.le_trans hlow (Nat.le_mul_of_pos_left _ (Nat.pos_of_ne_zero hzero))
  have hfew : m.units * five < Nat.pow 10 high :=
    Nat.lt_of_lt_of_le (Nat.mul_lt_mul_of_pos_right m.below_overflow hfive) hhigh
  rw [toDouble_eq_ofRatio low high hmany hfew hstart hend, hpower]
  apply Double.ofRatio_eq_finite hten
  rw [Nat.mul_one, Nat.mul_assoc, hproduct]

/-- An integer that a magnitude holds stands for it. -/
theorem toDouble_integer {m : Magnitude} {i : Nat} (h : m.units = unitsPerOne * i)
    (negative : Bool) : toDouble negative ⟨i, 0⟩ = .finite negative m := by
  have hone : i * 1 * unitsPerOne = m.units * 1 := by
    rw [h, Nat.mul_one, Nat.mul_one, Nat.mul_comm]
  by_cases hzero : i = 0
  · rw [hzero, Nat.mul_zero] at h
    rw [toDouble, if_pos (.inl hzero), Magnitude.eq_zero h]
  obtain ⟨high, hlimit, hend⟩ : ∃ high : Nat,
      Nat.pow 2 1024 ≤ Nat.pow 10 high ∧ 0 + (high : Int) ≤ farthestExponent :=
    ⟨309, by decide +kernel, by decide⟩
  have hbelow : i < Nat.pow 10 high := by
    refine Nat.lt_of_lt_of_le ?_ hlimit
    have hunits := m.below_overflow
    rw [h, unitsAtOverflow] at hunits
    exact Nat.lt_of_mul_lt_mul_left hunits
  have hpos : Nat.pow 10 0 ≤ i := Nat.pos_of_ne_zero hzero
  have hstart : -farthestExponent ≤ (0 : Int) + (0 : Nat) := by decide
  rw [toDouble_eq_ofRatio 0 high hpos hbelow hstart hend]
  exact Double.ofRatio_eq_finite Nat.one_pos hone

theorem toDouble_negative {d : Decimal} {m : Magnitude} (h : d.toDouble false = .finite false m)
    (negative : Bool) : d.toDouble negative = .finite negative m := by
  simp only [toDouble, Double.ofRatio] at h ⊢
  split_ifs at h ⊢ with hzero hfar hbelow
  · cases h
    rfl
  · cases h
    rfl

/-- The fewest digits that stand for a magnitude do so. -/
theorem toDouble_shortest (negative : Bool) (m : Magnitude) :
    (shortest m).toDouble negative = .finite negative m := by
  apply toDouble_negative
  have hgetD {found : Option Decimal} (h : ∀ d ∈ found, d.toDouble false = .finite false m) :
      (found.getD (exact m)).toDouble false = .finite false m := by
    cases found with
    | none => exact toDouble_exact false m
    | some d => exact h d rfl
  rw [shortest]
  apply hgetD
  intro d hd
  obtain ⟨n, -, hn⟩ := List.exists_of_findSome?_eq_some hd
  have hback := List.find?_some hn
  rwa [beq_iff_eq] at hback

end Decimal

end LoxGraph
