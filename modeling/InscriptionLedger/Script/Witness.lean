import InscriptionLedger.Script.Token

/-!
# Witnesses

The witness of an input that spends by script ends with the script and a control block, behind which
an annex may stand. The annex is told by its first byte.

## Main definitions

* `Witness.withoutAnnex items`: the items before an annex
* `Witness.script? items`: the script of a witness

## Main results

* `Witness.withoutAnnex_append`: an annex behind other items is left out
-/

namespace InscriptionLedger.Witness

/-- The first byte of an annex. -/
def annexTag : UInt8 := 0x50

/-- Whether an item is an annex when it stands last. -/
def isAnnex (item : Bytes) : Bool := item.head? == some annexTag

/-- The items before an annex; an annex alone is no annex. -/
def withoutAnnex (items : List Bytes) : List Bytes :=
  if 2 ≤ items.length ∧ items.getLast?.any isAnnex then items.dropLast else items

/-- The script of a witness: the last item but one. -/
def script? (items : List Bytes) : Option Bytes := (withoutAnnex items).dropLast.getLast?

/-- An annex behind other items is left out. -/
theorem withoutAnnex_append {items : List Bytes} (hne : items ≠ []) {item : Bytes}
    (h : isAnnex item = true) : withoutAnnex (items ++ [item]) = items := by
  have : 1 ≤ items.length := List.length_pos_iff.2 hne
  simp [withoutAnnex, h, this]

end InscriptionLedger.Witness
