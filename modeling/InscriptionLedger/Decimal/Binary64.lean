import InscriptionLedger.Decimal.Literal
import InscriptionLedger.Decimal.Rounding

/-!
# Binary64 numbers

The 64-bit binary floating-point numbers as exact values: a finite one is a significand times a
power of two. Every number enters by rounding a quotient of natural numbers to nearest, ties to
even, so that decimal literals, integers, quotients and products need one rounding rule.

## Main definitions

* `Binary64`: a number, an infinity, or the undefined number
* `Binary64.ofRatio negative num den`: the number nearest to `num / den`
* `Binary64.ofLiteral`, `Binary64.ofInt`, `Binary64.mul`: literals, integers and products, rounded
* `Binary64.ratio`: the exact value of a finite number's magnitude
* `Binary64.truncate`, `Binary64.integer?`: the integer part, and the integer that a number is
-/

namespace InscriptionLedger

/-- A 64-bit binary floating-point number; a finite one is `significand · 2 ^ exponent` with a
sign. -/
inductive Binary64
  | undefined
  | infinity (negative : Bool)
  | finite (negative : Bool) (significand : Nat) (exponent : Int)
  deriving DecidableEq, Repr

namespace Binary64

open Decimal

/-- The least exponent; the smallest positive number is `2 ^ minExponent`. -/
def minExponent : Int := -1074

/-- The greatest exponent of a finite number. -/
def maxExponent : Int := 971

/-- The least significand of a number above the least exponent: it has fifty-three bits. -/
def leastNormal : Nat := 0x10000000000000

/-- Zero of the given sign. -/
def zero (negative : Bool) : Binary64 := finite negative 0 minExponent

/-- `num / den` divided by `base ^ exponent`, as a quotient of natural numbers. -/
def scaleDown (base num den : Nat) (exponent : Int) : Nat × Nat :=
  if 0 ≤ exponent then (num, den * Nat.pow base exponent.toNat)
  else (num * Nat.pow base (-exponent).toNat, den)

/-- The greatest `k` with `2 ^ k ≤ num / den`, for positive `num` and `den`. -/
def floorLog2 (num den : Nat) : Int :=
  let k : Int := (num.log2 : Int) - den.log2
  let (a, b) := scaleDown 2 num den k
  if b ≤ a then k else k - 1

/-- The number nearest to `num / den`, ties to even; too great a magnitude is infinite. -/
def ofRatio (negative : Bool) (num den : Nat) : Binary64 :=
  if num = 0 then zero negative
  else
    let e := max minExponent (floorLog2 num den - 52)
    let (a, b) := scaleDown 2 num den e
    let m := roundHalfEven a b
    -- Rounding up may need one bit more.
    let (m, e) := if m = 2 * leastNormal then (leastNormal, e + 1) else (m, e)
    if maxExponent < e then infinity negative else finite negative m e

/-- The number nearest to an integer. -/
def ofInt (n : Int) : Binary64 := ofRatio (n < 0) n.natAbs 1

/-- The number nearest to `coefficient · 10 ^ exponent`. Exponents far outside the range are
answered without computing the power. -/
def ofDecimal (negative : Bool) (coefficient : Nat) (exponent : Int) : Binary64 :=
  if coefficient = 0 then zero negative
  else if 400 < exponent then infinity negative
  else if (coefficient.log2 : Int) + 1 + 3 * exponent < -1100 then zero negative
  else
    let (num, den) := scaleDown 10 coefficient 1 (-exponent)
    ofRatio negative num den

/-- The number nearest to a literal. -/
def ofLiteral : Literal → Binary64
  | .number negative coefficient exponent => ofDecimal negative coefficient exponent
  | .infinity negative => infinity negative
  | .undefined _ _ => undefined

/-- The number that the text of a measure denotes. -/
def read? (s : String) : Option Binary64 := (Literal.ofMeasure? s).map ofLiteral

/-- The magnitude `significand · 2 ^ exponent` as a quotient of natural numbers. -/
def ratio (significand : Nat) (exponent : Int) : Nat × Nat := scaleDown 2 significand 1 (-exponent)

/-- The product of two numbers, rounded once. -/
def mul : Binary64 → Binary64 → Binary64
  | finite s m e, finite t n f =>
    let (num, den) := ratio (m * n) (e + f)
    ofRatio (s != t) num den
  | finite s m _, infinity t => if m = 0 then undefined else infinity (s != t)
  | infinity s, finite t n _ => if n = 0 then undefined else infinity (s != t)
  | infinity s, infinity t => infinity (s != t)
  | _, _ => undefined

/-- The integer part of a finite number, rounded toward zero. -/
def truncate (negative : Bool) (significand : Nat) (exponent : Int) : Int :=
  let (num, den) := ratio significand exponent
  Numeral.signed negative (num / den)

/-- The integer that the number is, if it is one. -/
def integer? : Binary64 → Option Int
  | finite negative m e =>
    let (num, den) := ratio m e
    if num % den = 0 then some (Numeral.signed negative (num / den)) else none
  | _ => none

/-- Whether the number is zero. -/
def isZero : Binary64 → Bool
  | finite _ m _ => m == 0
  | _ => false

end Binary64

end InscriptionLedger
