import InscriptionLedger.Decimal.Precision
import InscriptionLedger.Proofs.NumeralText

/-!
# Decimals rounded to integers

The integer nearest to a number, a tie going to the even neighbour, is unique; it grows with the
number, and that of the opposite number is its opposite. Decimals are rounded to it. A decimal that
ends in zeros beyond the working precision loses nothing when it is cut to that precision, so that
it is rounded only once.

## Main definitions

* `IsNearestEven x n`: the integer nearest to a number, ties to even
* `Scientific.value d`: the number that a decimal stands for

## Main results

* `IsNearestEven.le_of_le`, `IsNearestEven.unique`, `IsNearestEven.neg`: laws of nearest integers
* `isNearestEven_roundHalfEven`: quotients are rounded to the nearest integer
* `Scientific.isNearestEven_nearest`: decimals are rounded to the nearest integer
* `Scientific.value_roundTo`: a decimal with enough zeros at its end is kept
* `Scientific.lt_magnitude_iff`: the magnitude of a decimal bounds its value
-/

namespace InscriptionLedger.Decimal

open Numeral

/-! ## Nearest integers -/

/-- The integer nearest to a number; a tie goes to the even neighbour. -/
structure IsNearestEven (x : ℚ) (n : ℤ) : Prop where
  near : |x - n| ≤ 1 / 2
  even : |x - n| = 1 / 2 → Even n

namespace IsNearestEven

variable {x y : ℚ} {m n : ℤ}

/-- The nearest integer grows with the number. -/
theorem le_of_le (hm : IsNearestEven x m) (hn : IsNearestEven y n) (h : x ≤ y) : m ≤ n := by
  by_contra hlt
  have hstep : ((n + 1 : ℤ) : ℚ) ≤ m := by exact_mod_cast (by omega : n + 1 ≤ m)
  push_cast at hstep
  have hlow := (abs_le.1 hm.near).1
  have hhigh := (abs_le.1 hn.near).2
  -- Both numbers are then the tie between the two integers, only one of which is even.
  have hx : x - m = -(1 / 2) := by linarith
  have hy : y - n = 1 / 2 := by linarith
  have hnext : m = n + 1 := by
    have : (m : ℚ) = ((n + 1 : ℤ) : ℚ) := by
      push_cast
      linarith
    exact_mod_cast this
  have hmeven := hm.even (by rw [hx, abs_neg, abs_of_pos one_half_pos])
  have hneven := hn.even (by rw [hy, abs_of_pos one_half_pos])
  rw [hnext, Int.even_add_one] at hmeven
  exact hmeven hneven

/-- A number has one nearest integer. -/
theorem unique (hm : IsNearestEven x m) (hn : IsNearestEven x n) : m = n :=
  le_antisymm (hm.le_of_le hn le_rfl) (hn.le_of_le hm le_rfl)

theorem neg (h : IsNearestEven x n) : IsNearestEven (-x) (-n) := by
  have habs : |-x - ((-n : ℤ) : ℚ)| = |x - n| := by
    rw [← abs_neg]
    push_cast
    ring_nf
  exact ⟨habs ▸ h.near, fun htie => (h.even (habs ▸ htie)).neg⟩

/-- An integer is nearest to itself. -/
theorem of_intCast (n : ℤ) : IsNearestEven n n := by
  constructor
  · simp
  · intro htie
    simp at htie

/-- What is less than a half is nearest to zero. -/
theorem of_abs_lt_half (h : |x| < 1 / 2) : IsNearestEven x 0 := by
  have habs : |x - ((0 : ℤ) : ℚ)| < 1 / 2 := by simpa using h
  exact ⟨habs.le, fun htie => absurd htie habs.ne⟩

end IsNearestEven

/-! ## Rounded quotients -/

/-- A tie is rounded to an even number. -/
theorem roundHalfEven_even {num den : Nat} (hden : 0 < den)
    (h : 2 * num = 2 * (roundHalfEven num den * den) + den ∨
      2 * (roundHalfEven num den * den) = 2 * num + den) : roundHalfEven num den % 2 = 0 := by
  have hdiv := Nat.div_add_mod num den
  have hlt := Nat.mod_lt num hden
  rw [Nat.mul_comm] at hdiv
  revert h
  unfold roundHalfEven
  dsimp only
  split
  · omega
  · split
    · rw [Nat.add_mul]
      omega
    · split
      · omega
      · omega

/-- A quotient is rounded to the nearest integer. -/
theorem isNearestEven_roundHalfEven (num : Nat) {den : Nat} (hden : 0 < den) :
    IsNearestEven (num / den) (roundHalfEven num den : ℕ) := by
  have hpos : (0 : ℚ) < den := by exact_mod_cast hden
  have hhalf : (1 / 2 : ℚ) * den = den / 2 := by ring
  have habs : |(num / den : ℚ) - ((roundHalfEven num den : ℕ) : ℤ)| * den =
      |(num : ℚ) - roundHalfEven num den * den| := by
    rw [← abs_of_pos hpos, ← abs_mul, abs_of_pos hpos, sub_mul, div_mul_cancel₀ _ hpos.ne']
    push_cast
    rfl
  constructor
  case near =>
    obtain ⟨hlow, hhigh⟩ := roundHalfEven_near num hden
    rw [← mul_le_mul_iff_of_pos_right hpos, habs, hhalf, abs_le]
    have hlow' : (2 * num : ℚ) ≤ 2 * (roundHalfEven num den * den) + den := by exact_mod_cast hlow
    have hhigh' : (2 * (roundHalfEven num den * den) : ℚ) ≤ 2 * num + den := by
      exact_mod_cast hhigh
    constructor <;> linarith
  case even =>
    intro htie
    rw [← mul_left_inj' hpos.ne', habs, hhalf, abs_eq (by positivity)] at htie
    have hties : 2 * num = 2 * (roundHalfEven num den * den) + den ∨
        2 * (roundHalfEven num den * den) = 2 * num + den := by
      rcases htie with htie | htie
      · left
        have : (2 * num : ℚ) = 2 * (roundHalfEven num den * den) + den := by linarith
        exact_mod_cast this
      · right
        have : (2 * (roundHalfEven num den * den) : ℚ) = 2 * num + den := by linarith
        exact_mod_cast this
    exact_mod_cast Nat.even_iff.2 (roundHalfEven_even hden hties)

/-! ## Decimals -/

namespace Scientific

/-- The number that a decimal stands for. -/
def value (d : Scientific) : ℚ := d.coefficient * 10 ^ d.exponent

theorem value_nonneg (d : Scientific) : 0 ≤ d.value := by
  unfold value
  positivity

theorem value_eq_zero_iff {d : Scientific} : d.value = 0 ↔ d.coefficient = 0 := by
  have hscale : (10 : ℚ) ^ d.exponent ≠ 0 := zpow_ne_zero _ (by norm_num)
  rw [value, mul_eq_zero, or_iff_left hscale, Nat.cast_eq_zero]

/-- A decimal that ends in so many zeros has the value of the digits in front of them. -/
theorem value_of_eq_mul {d : Scientific} {m k : Nat} (h : d.coefficient = m * 10 ^ k) :
    d.value = value ⟨m, d.exponent + k⟩ := by
  rw [value, value, h, zpow_add₀ (by norm_num), zpow_natCast]
  push_cast
  ring

/-- A decimal whose digits beyond the precision are zeros is kept. -/
theorem value_roundTo {digits m k : Nat} {d : Scientific} (h : d.coefficient = m * 10 ^ k)
    (hdigits : 0 < digits) (hm : m < 10 ^ digits) : (d.roundTo digits).value = d.value := by
  have hexcess : digitCount d.coefficient - digits ≤ k := by
    have hlt : d.coefficient < 10 ^ (digits + k) := by
      rw [h, Nat.pow_add]
      exact Nat.mul_lt_mul_of_pos_right hm (Nat.pow_pos (by decide))
    have := digitCount_le (by omega) hlt
    omega
  have hdvd : 10 ^ (digitCount d.coefficient - digits) ∣ d.coefficient :=
    (Nat.pow_dvd_pow 10 hexcess).trans (h ▸ Nat.dvd_mul_left (10 ^ k) m)
  have hpos : 0 < 10 ^ (digitCount d.coefficient - digits) := Nat.pow_pos (by decide)
  have hround : roundHalfEven d.coefficient (10 ^ (digitCount d.coefficient - digits)) =
      d.coefficient / 10 ^ (digitCount d.coefficient - digits) :=
    roundHalfEven_of_dvd hpos (Nat.mod_eq_zero_of_dvd hdvd)
  rw [value_of_eq_mul (Nat.div_mul_cancel hdvd).symm, ← hround]
  rfl

/-- A decimal that is not zero lies between two powers of ten. -/
theorem value_between {d : Scientific} (h : d.coefficient ≠ 0) :
    (10 : ℚ) ^ d.magnitude ≤ d.value ∧ d.value < (10 : ℚ) ^ (d.magnitude + 1) := by
  have hscale : (0 : ℚ) < 10 ^ d.exponent := by positivity
  have hsucc : d.magnitude + 1 = digitCount d.coefficient + d.exponent := by
    have := digitCount_pos d.coefficient
    rw [magnitude]
    omega
  rw [hsucc, magnitude, add_comm d.exponent, zpow_add₀ (by norm_num), zpow_add₀ (by norm_num),
    zpow_natCast, zpow_natCast, value]
  constructor
  · rw [mul_le_mul_iff_of_pos_right hscale]
    exact_mod_cast pow_digitCount_le h
  · rw [mul_lt_mul_iff_of_pos_right hscale]
    exact_mod_cast lt_pow_digitCount d.coefficient

/-- The magnitude of a decimal is beyond a bound if its value is at the next power of ten. -/
theorem lt_magnitude_iff {d : Scientific} (h : d.coefficient ≠ 0) {bound : ℤ} :
    bound < d.magnitude ↔ (10 : ℚ) ^ (bound + 1) ≤ d.value := by
  obtain ⟨hlow, hhigh⟩ := value_between h
  constructor
  · intro hlt
    exact (zpow_le_zpow_right₀ (by norm_num) (by omega)).trans hlow
  · intro hle
    have := (zpow_lt_zpow_iff_right₀ (by norm_num : (1 : ℚ) < 10)).1 (hle.trans_lt hhigh)
    omega

/-- A decimal is rounded to the nearest integer. -/
theorem isNearestEven_nearest (d : Scientific) : IsNearestEven d.value (d.nearest : ℕ) := by
  unfold nearest
  split
  · next hwhole =>
    obtain ⟨k, hk⟩ := Int.eq_ofNat_of_zero_le hwhole
    have hvalue : d.value = ((d.coefficient * 10 ^ d.exponent.toNat : ℕ) : ℤ) := by
      rw [value, hk, zpow_natCast, Int.toNat_natCast]
      push_cast
      rfl
    rw [hvalue]
    exact .of_intCast _
  · next hfraction =>
    obtain ⟨k, hk⟩ := Int.eq_ofNat_of_zero_le (by omega : 0 ≤ -d.exponent)
    split
    · next hsmall =>
      apply IsNearestEven.of_abs_lt_half
      rw [abs_of_nonneg d.value_nonneg]
      have hlt : d.value < (10 : ℚ) ^ (digitCount d.coefficient + d.exponent) := by
        rw [zpow_add₀ (by norm_num), zpow_natCast, value,
          mul_lt_mul_iff_of_pos_right (by positivity)]
        exact_mod_cast lt_pow_digitCount d.coefficient
      have hle : (10 : ℚ) ^ (digitCount d.coefficient + d.exponent) ≤ 10 ^ (-1 : ℤ) :=
        zpow_le_zpow_right₀ (by norm_num) (by omega)
      exact (hlt.trans_le hle).trans (by norm_num)
    · have hquotient : d.value = d.coefficient / (10 ^ k : ℕ) := by
        rw [value, (by omega : d.exponent = -(k : ℤ)), zpow_neg, zpow_natCast, div_eq_mul_inv]
        push_cast
        rfl
      rw [hquotient, hk, Int.toNat_natCast]
      exact isNearestEven_roundHalfEven d.coefficient (Nat.pow_pos (by decide))

end Scientific

end InscriptionLedger.Decimal
