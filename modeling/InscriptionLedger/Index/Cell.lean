import InscriptionLedger.Decimal.Written
import InscriptionLedger.Identifier.Basic

/-!
# Cells

A cell of the index holds a text or nothing. An identifier is put into cells by its text: a boolean
as a digit, a number with at most fifteen digits, and null and the undefined number as nothing.
Lists and objects cannot be put into cells, and integers only if they fit into sixty-four bits.

## Main definitions

* `Decimal.Style.cell`: the form of floating-point numbers in cells
* `TransactionId.cell?`: what a cell holds of an id
* `OutPoint.stored?`, `SatPoint.stored?`: what the cells of an output and of a place hold

## Main results

* `TransactionId.cell?_ofText`: a text is held as it is
-/

namespace InscriptionLedger

/-- Numbers in cells: positional from `10 ^ -4` up to `10 ^ 15`, always with a point. -/
def Decimal.Style.cell : Decimal.Style where
  isPositional e := -4 ≤ e && e < 15
  integerTail := ".0"
  mantissaTail := ".0"
  infinity := "Inf"
  undefined := ""

/-- What a cell holds of a value. -/
def Json.cell? : Json → Option String
  | bool value => some (if value then "1" else "0")
  | integer value => some (Numeral.write value)
  | double .undefined => none
  | double value => some (Decimal.writeRounded .cell 15 value)
  | text value => some value
  | _ => none

namespace TransactionId

/-- What a cell holds of an id. -/
def cell? (id : TransactionId) : Option String := id.value.cell?

/-- Whether an id can be put into a cell, if it fits. -/
def isStorable (id : TransactionId) : Bool := id.value.isScalar

/-- The integers of an id, which must fit. -/
def integers (id : TransactionId) : List Int :=
  match id.value with
  | .integer value => [value]
  | _ => []

/-- A text is held as it is. -/
@[simp] theorem cell?_ofText (s : String) : (ofText s).cell? = some s := rfl

@[simp] theorem integers_ofText (s : String) : (ofText s).integers = [] := rfl

end TransactionId

/-- An output as cells hold it. -/
def OutPoint.stored? (p : OutPoint) : Option OutPoint :=
  p.txid.cell?.map fun txid => ⟨.ofText txid, p.vout⟩

/-- A place as cells hold it. -/
def SatPoint.stored? (p : SatPoint) : Option SatPoint :=
  p.outpoint.stored?.map fun outpoint => ⟨outpoint, p.offset⟩

@[simp] theorem OutPoint.stored?_ofText (txid : String) (vout : Int) :
    OutPoint.stored? ⟨.ofText txid, vout⟩ = some ⟨.ofText txid, vout⟩ := rfl

end InscriptionLedger
