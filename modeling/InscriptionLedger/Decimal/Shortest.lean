import InscriptionLedger.Decimal.Binary64

/-!
# Shortest decimals

Every finite binary64 number is the rounding of all decimals in an interval around it. Of those
with the fewest digits the nearest is its shortest decimal; a tie goes to the even one.

## Main definitions

* `Scientific`: an exact decimal `coefficient · 10 ^ exponent`
* `interval significand exponent`: the magnitudes that round to a number
* `shortest significand exponent`: the shortest decimal of a magnitude
-/

namespace InscriptionLedger.Decimal

open Numeral

/-- The exact decimal `coefficient · 10 ^ exponent`. -/
structure Scientific where
  coefficient : Nat
  exponent : Int
  deriving DecidableEq, Repr

/-- The decimal exponent of an exact decimal: that of its first digit. -/
def Scientific.magnitude (d : Scientific) : Int :=
  d.exponent + (digitCount d.coefficient - 1 : Nat)

/-- The decimal without trailing zeros; zero has exponent zero. -/
def Scientific.reduce (d : Scientific) : Scientific :=
  if d.coefficient = 0 then ⟨0, 0⟩
  else if d.coefficient % 10 = 0 then reduce ⟨d.coefficient / 10, d.exponent + 1⟩
  else d
termination_by d.coefficient
decreasing_by omega

/-- The magnitudes that round to `significand · 2 ^ exponent`, in units of a quarter of
`2 ^ exponent`. Below a power of two the numbers are twice as dense. The ends belong to the interval
iff the significand is even. -/
structure Interval where
  low : Nat
  high : Nat
  closed : Bool

/-- The interval of a number in canonical form. -/
def interval (significand : Nat) (exponent : Int) : Interval where
  low := if significand = Binary64.leastNormal ∧ Binary64.minExponent < exponent
    then 4 * significand - 1 else 4 * significand - 2
  high := 4 * significand + 2
  closed := significand % 2 = 0

/-- Whether the quotient `a / b`, in the interval's units, is in the interval. -/
def Interval.contains (i : Interval) (a b : Nat) : Bool :=
  if i.closed then i.low * b ≤ a && a ≤ i.high * b else i.low * b < a && a < i.high * b

/-- The greatest `k` with `10 ^ k ≤ num / den`, for positive `num` and `den`. -/
def floorLog10 (num den : Nat) : Int :=
  if den ≤ num then (digitCount (num / den) : Int) - 1
  else -(digitCount ((den - 1) / num) : Int)

/-- Of the two neighbours of `num / den` on the grid `10 ^ grid`, the nearest that rounds to the
number whose interval is `i`; units are quarters of `2 ^ exponent`. -/
def candidate? (i : Interval) (num den : Nat) (exponent grid : Int) : Option Nat :=
  let (a, b) := Binary64.scaleDown 10 num den grid
  let below := a / b
  let fits (d : Nat) : Bool :=
    let (x, y) := Binary64.scaleDown 10 d 1 (-grid)
    let (x, y) := Binary64.scaleDown 2 x y (exponent - 2)
    i.contains x y
  match fits below, fits (below + 1) with
  | true, true => some (roundHalfEven a b)
  | true, false => some below
  | false, true => some (below + 1)
  | false, false => none

/-- The shortest decimal with at least `17 - more` digits; seventeen digits always suffice. -/
def search (i : Interval) (num den : Nat) (exponent top : Int) : Nat → Scientific
  | 0 =>
    let grid := top - 16
    let (a, b) := Binary64.scaleDown 10 num den grid
    ⟨roundHalfEven a b, grid⟩
  | more + 1 =>
    -- Coarser grids have been tried: no decimal with fewer digits is in the interval.
    let grid := top - (16 - (more + 1 : Nat))
    match candidate? i num den exponent grid with
    | some d => ⟨d, grid⟩
    | none => search i num den exponent top more

/-- The shortest decimal of the magnitude `significand · 2 ^ exponent`, without trailing zeros. -/
def shortest (significand : Nat) (exponent : Int) : Scientific :=
  if significand = 0 then ⟨0, 0⟩
  else
    let (num, den) := Binary64.ratio significand exponent
    (search (interval significand exponent) num den exponent (floorLog10 num den) 16).reduce

end InscriptionLedger.Decimal
