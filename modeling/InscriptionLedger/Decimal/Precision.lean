import InscriptionLedger.Decimal.Shortest

/-!
# Bounded precision

An exact decimal is rounded to a number of digits, or to an integer; a tie goes to the even
neighbour, or away from zero.

## Main definitions

* `Scientific.ofBinary significand exponent`: the exact decimal of a binary magnitude
* `Scientific.roundTo digits d`: `d` with at most so many digits, ties to even
* `Scientific.roundAwayTo digits d`: `d` with at most so many digits, ties away from zero
* `Scientific.nearest d`: the integer nearest to `d`
-/

namespace InscriptionLedger.Decimal.Scientific

open Numeral

/-- The exact decimal of `significand · 2 ^ exponent`. -/
def ofBinary (significand : Nat) (exponent : Int) : Scientific :=
  if 0 ≤ exponent then ⟨significand * Nat.pow 2 exponent.toNat, 0⟩
  else ⟨significand * Nat.pow 5 (-exponent).toNat, exponent⟩

/-- The decimal rounded to at most so many digits, ties to even. -/
def roundTo (digits : Nat) (d : Scientific) : Scientific :=
  let excess := digitCount d.coefficient - digits
  ⟨roundHalfEven d.coefficient (Nat.pow 10 excess), d.exponent + excess⟩

/-- The decimal rounded to so many digits, ties away from zero. Rounding up may need one digit
more. -/
def roundAwayTo (digits : Nat) (d : Scientific) : Scientific :=
  let excess := digitCount d.coefficient - digits
  let unit := Nat.pow 10 excess
  ⟨(2 * d.coefficient + unit) / (2 * unit), d.exponent + excess⟩

/-- The integer nearest to the decimal. One that is below a tenth is zero, whatever its exponent. -/
def nearest (d : Scientific) : Nat :=
  if 0 ≤ d.exponent then d.coefficient * Nat.pow 10 d.exponent.toNat
  else if (digitCount d.coefficient : Int) + d.exponent < 0 then 0
  else roundHalfEven d.coefficient (Nat.pow 10 (-d.exponent).toNat)

end InscriptionLedger.Decimal.Scientific
