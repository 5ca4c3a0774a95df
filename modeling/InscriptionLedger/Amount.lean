import InscriptionLedger.Decimal.Precision
import InscriptionLedger.Json.Typed

/-!
# Amounts

A node reports amounts in coins, as decimal literals; the ledger counts satoshis. A coin has a
hundred million satoshis. The product is rounded to the working precision and then to an integer,
each time to nearest with ties to even.

## Main definitions

* `Amount.ofLiteral`: the satoshis of a literal
* `Amount.ofJson`: the satoshis of a value, through its text
-/

namespace InscriptionLedger.Amount

open Decimal Numeral

/-- The satoshis of a coin. -/
def satsPerCoin : Nat := 100000000

/-- The digits of the working precision. -/
def precision : Nat := 28

/-- The greatest decimal exponent of a number in the working precision. -/
def maxMagnitude : Int := 999999

/-- The greatest decimal exponent of a literal. -/
def maxLiteralMagnitude : Int := 999999999999999999

/-- The least exponent of a literal's last digit. -/
def minLiteralExponent : Int := -1999999999999999997

/-- Whether a literal is within the range of decimals. -/
def isRepresentable (d : Scientific) : Bool :=
  d.magnitude ≤ maxLiteralMagnitude && minLiteralExponent ≤ d.exponent

/-- The satoshis of a literal. -/
def ofLiteral : Literal → Outcome Int
  | .number negative coefficient exponent =>
    if isRepresentable ⟨coefficient, exponent⟩ then
      let product := Scientific.roundTo precision ⟨coefficient * satsPerCoin, exponent⟩
      if coefficient = 0 then .ok 0
      else if maxMagnitude < product.magnitude then .error .decimalRange
      else .ok (signed negative product.nearest)
    else .error .decimalText
  | .infinity _ => .error .magnitude
  | .undefined true _ => .error .decimalText
  | .undefined false _ => .error .unreadable

/-- The satoshis of a value, through its text. -/
def ofJson (value : Json) : Outcome Int := do
  match Literal.ofAmount? (← value.show?) with
  | some literal => ofLiteral literal
  | none => throw .decimalText

end InscriptionLedger.Amount
