import InscriptionLedger.Decimal.Binary64
import Mathlib

/-!
# The range of floating-point numbers

A number is infinite if its exponent is too great, or if it is rounded up to the power of two at
which the exponents end. For integers this is one bound: half a unit of the last place behind the
greatest finite number, where the tie goes to the even neighbour, which is infinite.

## Main definitions

* `Binary64.leastBeyond`: the least natural number that is infinite

## Main results

* `Decimal.roundHalfEven_eq_succ_iff`: when a quotient is rounded up to an even number
* `Binary64.ofRatio_eq_infinity_iff`: the quotients that are infinite
* `Binary64.ofInt_eq_infinity_iff`: the integers that are infinite
-/

namespace InscriptionLedger

/-- Below the next odd multiple, a quotient is rounded up to it from half a unit below on. -/
theorem Decimal.roundHalfEven_eq_succ_iff {num den k : Nat} (hodd : k % 2 = 1)
    (hlt : num < (k + 1) * den) : roundHalfEven num den = k + 1 ↔ (2 * k + 1) * den ≤ 2 * num := by
  have hden : 0 < den := Nat.pos_of_ne_zero fun h => by simp [h] at hlt
  rw [Nat.add_mul, Nat.mul_assoc, Nat.one_mul]
  rw [Nat.add_mul, Nat.one_mul] at hlt
  constructor
  · intro h
    have hnear := (roundHalfEven_near num hden).2
    rw [h, Nat.add_mul, Nat.one_mul] at hnear
    omega
  · intro hhalf
    have hdiv : num / den = k := by
      refine Nat.div_eq_of_lt_le ?_ ?_
      · omega
      · rwa [Nat.add_mul, Nat.one_mul]
    have hmod := Nat.div_add_mod num den
    rw [hdiv, Nat.mul_comm] at hmod
    rw [roundHalfEven, hdiv]
    split
    · omega
    · split
      · rfl
      · rw [if_neg (by omega)]

namespace Binary64

theorem scaleDown_natCast (num den k : Nat) :
    scaleDown 2 num den k = (num, den * 2 ^ k) := by
  rw [scaleDown, if_pos (Int.natCast_nonneg k), Int.toNat_natCast]
  rfl

theorem floorLog2_one {num : Nat} (h : num ≠ 0) : floorLog2 num 1 = num.log2 := by
  have hone : Nat.log2 1 = 0 := by decide
  rw [floorLog2, hone, Int.natCast_zero, Int.sub_zero, scaleDown_natCast]
  dsimp only
  rw [if_pos (by rw [Nat.one_mul]; exact Nat.log2_self_le h)]

/-- A quotient is infinite if it is too great, or if it is rounded up to what is. -/
theorem ofRatio_eq_infinity_iff {negative : Bool} {num den : Nat} (h : num ≠ 0) {e : Int}
    (he : max minExponent (floorLog2 num den - 52) = e) :
    (∃ s, ofRatio negative num den = infinity s) ↔ maxExponent < e ∨ e = maxExponent ∧
      Decimal.roundHalfEven (scaleDown 2 num den e).1 (scaleDown 2 num den e).2 =
        2 * leastNormal := by
  rw [ofRatio, if_neg h, he]
  dsimp only
  by_cases hm : Decimal.roundHalfEven (scaleDown 2 num den e).1 (scaleDown 2 num den e).2 =
      2 * leastNormal
  · rw [if_pos hm]
    dsimp only
    split
    · next hlt => exact iff_of_true ⟨_, rfl⟩ (by omega)
    · next hle => exact iff_of_false (by simp) (by omega)
  · rw [if_neg hm]
    dsimp only
    split
    · next hlt => exact iff_of_true ⟨_, rfl⟩ (.inl hlt)
    · next hle => exact iff_of_false (by simp) (by simp [hle, hm])

/-- The least natural number that is beyond the range: half a unit of the last place behind the
greatest finite number. -/
def leastBeyond : Nat := (2 ^ 54 - 1) * 2 ^ 970

/-- An integer is infinite as a floating-point number exactly if it is beyond the range. -/
theorem ofInt_eq_infinity_iff {n : Int} :
    (∃ negative, ofInt n = infinity negative) ↔ leastBeyond ≤ n.natAbs := by
  rw [ofInt]
  generalize n.natAbs = num
  by_cases hzero : num = 0
  · rw [hzero, ofRatio, if_pos rfl]
    refine iff_of_false (by simp [zero]) ?_
    rw [leastBeyond, Nat.not_le]
    positivity
  have hlow := Nat.log2_self_le hzero
  have hhigh := Nat.lt_log2_self (n := num)
  have he : max minExponent (floorLog2 num 1 - 52) = (num.log2 : Int) - 52 := by
    rw [floorLog2_one hzero, minExponent]
    omega
  rw [ofRatio_eq_infinity_iff hzero he, maxExponent]
  have hless : 2 ^ (53 + 970) = 2 ^ 53 * 2 ^ 970 := pow_add 2 53 970
  have hmore : 2 ^ (53 + 970 + 1) = 2 ^ 53 * 2 ^ 970 * 2 ^ 1 := by rw [pow_add, pow_add]
  have hunit : 2 ^ (1 + 970) = 2 ^ 1 * 2 ^ 970 := pow_add 2 1 970
  rcases Nat.lt_trichotomy num.log2 (53 + 970) with hlt | heq | hgt
  · have hsmall := hhigh.trans_le (Nat.pow_le_pow_right Nat.two_pos (Nat.succ_le_of_lt hlt))
    refine iff_of_false (by omega) ?_
    rw [leastBeyond]
    omega
  · -- The significand is rounded up to the power of two above it, or it is not.
    have hexponent : (num.log2 : Int) - 52 = ((1 + 970 : Nat) : Int) := by omega
    have hodd : 2 * leastNormal = (2 ^ 53 - 1) + 1 := by decide
    have hbelow : num < (2 ^ 53 - 1 + 1) * 2 ^ (1 + 970) := by
      rw [heq] at hhigh
      omega
    rw [hexponent, scaleDown_natCast, Nat.one_mul, hodd,
      Decimal.roundHalfEven_eq_succ_iff (by decide) hbelow, leastBeyond, hunit]
    omega
  · have hgreat := (Nat.pow_le_pow_right Nat.two_pos (Nat.succ_le_of_lt hgt)).trans hlow
    refine iff_of_true (by omega) ?_
    rw [leastBeyond]
    omega

end Binary64
end InscriptionLedger
