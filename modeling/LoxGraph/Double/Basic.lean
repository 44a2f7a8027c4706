/-!
Binary floating-point numbers of 64 bits, kept as exact integers.

A finite magnitude is a whole number of units of `2 ^ -1074`, the smallest
positive double, so every question about one is a question about `Nat`: no
hardware arithmetic is involved. `Double.ofRatio` rounds an exact quotient to
the nearest double, a half going to the even significand, and quotients too
large for the format become infinite.
-/

namespace LoxGraph

/-- How many units make one `1`. -/
def unitsPerOne : Nat := Nat.pow 2 1074

/-- How many units are too many for any double. -/
def unitsAtOverflow : Nat := unitsPerOne * Nat.pow 2 1024

private theorem powerOfTwo_pos (exponent : Nat) : 0 < Nat.pow 2 exponent :=
  Nat.two_pow_pos exponent

theorem unitsPerOne_pos : 0 < unitsPerOne := by
  unfold unitsPerOne
  apply powerOfTwo_pos

theorem unitsAtOverflow_pos : 0 < unitsAtOverflow := by
  unfold unitsAtOverflow
  apply Nat.mul_pos unitsPerOne_pos
  apply powerOfTwo_pos

/-- The significand of a double has 53 bits. -/
def significandEnd : Nat := Nat.pow 2 53

/-- A number of units of `2 ^ -1074` that a double can hold: at most 53
significant bits, and below `2 ^ 1024` in all. -/
structure Magnitude where
  units : Nat
  below_overflow : units < unitsAtOverflow
  significant : ∃ significand exponent, significand < significandEnd ∧
    units = significand * Nat.pow 2 exponent
deriving DecidableEq

/-- A double of any sign, an infinity, or the value that is no number. -/
inductive Double where
  | finite (negative : Bool) (magnitude : Magnitude)
  | infinite (negative : Bool)
  | nan
deriving DecidableEq

/-- The integer nearest to `p / q`; a half goes to the even neighbour. -/
def roundQuotient (p q : Nat) : Nat :=
  let low := p / q
  let twice := 2 * (p % q)
  if twice < q then low
  else if q < twice then low + 1
  else low + low % 2

theorem roundQuotient_le (p q : Nat) : roundQuotient p q ≤ p / q + 1 := by
  simp only [roundQuotient]
  split
  · omega
  · split
    · omega
    · have : p / q % 2 < 2 := Nat.mod_lt _ (by decide)
      omega

namespace Magnitude

/-- The distance between neighbouring magnitudes around `n` units: one unit
while 53 bits hold `n`, then the weight of the last of the 53 bits. -/
def gap (n : Nat) : Nat := Nat.pow 2 (n.log2 - 52)

/-- `p / q` units rounded to 53 significant bits. -/
def roundUnits (p q : Nat) : Nat :=
  roundQuotient p (q * gap (p / q)) * gap (p / q)

private theorem div_gap_lt (n : Nat) : n / gap n < significandEnd := by
  have hgap : 0 < gap n := powerOfTwo_pos _
  have hpow : Nat.pow 2 (n.log2 + 1) ≤ Nat.pow 2 (53 + (n.log2 - 52)) :=
    Nat.pow_le_pow_right (by decide) (by omega)
  have hsplit : Nat.pow 2 (53 + (n.log2 - 52)) = significandEnd * gap n := Nat.pow_add 2 _ _
  rw [Nat.div_lt_iff_lt_mul hgap, ← hsplit]
  exact Nat.lt_of_lt_of_le Nat.lt_log2_self hpow

/-- Rounding leaves at most 53 significant bits, also where it carries into a
new bit. -/
theorem roundUnits_significant (p q : Nat) :
    ∃ significand exponent, significand < significandEnd ∧
      roundUnits p q = significand * Nat.pow 2 exponent := by
  have hle : roundQuotient p (q * gap (p / q)) ≤ significandEnd := by
    refine Nat.le_trans (roundQuotient_le _ _) ?_
    rw [← Nat.div_div_eq_div_mul]
    exact div_gap_lt (p / q)
  by_cases hcarry : roundQuotient p (q * gap (p / q)) = significandEnd
  · have hdouble : significandEnd = Nat.pow 2 52 * 2 := by decide
    have hnext : Nat.pow 2 ((p / q).log2 - 52 + 1) = 2 * gap (p / q) := Nat.pow_succ'
    refine ⟨Nat.pow 2 52, (p / q).log2 - 52 + 1, by decide, ?_⟩
    rw [roundUnits, hcarry, hdouble, hnext, Nat.mul_assoc]
  · exact ⟨_, (p / q).log2 - 52, by omega, rfl⟩

/-- The magnitude of no units. -/
def zero : Magnitude := ⟨0, unitsAtOverflow_pos, 0, 0, by decide, by decide⟩

end Magnitude

namespace Double

/-- The double nearest to `p / q`, with the given sign. -/
def ofRatio (negative : Bool) (p q : Nat) : Double :=
  if h : Magnitude.roundUnits (p * unitsPerOne) q < unitsAtOverflow then
    .finite negative ⟨_, h, Magnitude.roundUnits_significant _ _⟩
  else
    .infinite negative

/-- The signed number of units of a finite double. -/
def signed (negative : Bool) (magnitude : Magnitude) : Int :=
  if negative then -magnitude.units else magnitude.units

/-- The integer that a double is exactly, if it is one. -/
def integer? : Double → Option Int
  | .finite negative magnitude =>
    if magnitude.units % unitsPerOne = 0 then
      some (signed negative magnitude / unitsPerOne)
    else none
  | .infinite _ => none
  | .nan => none

/-- Numeric equality: the two zeros are equal, and no double equals `nan`. -/
def numericallyEqual : Double → Double → Bool
  | .finite n a, .finite m b => signed n a == signed m b
  | .infinite n, .infinite m => n == m
  | _, _ => false

/-- Whether a double is exactly the integer `i`. -/
def equalsInteger (d : Double) (i : Int) : Bool := d.integer? == some i

/-- Whether the integer `i` is too large for the double nearest to it to be
finite. -/
def overflows (i : Int) : Bool :=
  match ofRatio (i < 0) i.natAbs 1 with
  | .infinite _ => true
  | _ => false

end Double

end LoxGraph
