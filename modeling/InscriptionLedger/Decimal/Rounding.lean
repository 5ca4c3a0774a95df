/-!
# Rounding quotients

A quotient of two natural numbers is rounded to the nearest integer; a tie goes to the even
neighbour.

## Main definitions

* `roundHalfEven num den`: the rounded quotient

## Main results

* `roundHalfEven_of_dvd`: an exact quotient is kept
* `roundHalfEven_near`: the result is within half a unit of the quotient
-/

namespace InscriptionLedger.Decimal

/-- The integer nearest to `num / den`; a tie goes to the even neighbour. -/
def roundHalfEven (num den : Nat) : Nat :=
  let q := num / den
  let r := num % den
  if 2 * r < den then q
  else if den < 2 * r then q + 1
  else if q % 2 = 0 then q else q + 1

/-- An exact quotient is kept. -/
theorem roundHalfEven_of_dvd {num den : Nat} (hden : 0 < den) (h : num % den = 0) :
    roundHalfEven num den = num / den := by
  simp [roundHalfEven, h, hden]

/-- The result is within half a unit of the quotient. -/
theorem roundHalfEven_near (num : Nat) {den : Nat} (hden : 0 < den) :
    2 * num ≤ 2 * (roundHalfEven num den * den) + den ∧
      2 * (roundHalfEven num den * den) ≤ 2 * num + den := by
  have hdiv := Nat.div_add_mod num den
  have hlt := Nat.mod_lt num hden
  rw [Nat.mul_comm] at hdiv
  simp only [roundHalfEven]
  split
  · omega
  · split
    · rw [Nat.add_mul]
      omega
    · split
      · omega
      · rw [Nat.add_mul]
        omega

end InscriptionLedger.Decimal
