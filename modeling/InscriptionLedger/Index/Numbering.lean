import InscriptionLedger.Extraction
import InscriptionLedger.Index.Basic

/-!
# Numbering

The inscriptions of a transaction are written with numbers one after another, each at the start of
the transaction's first output. Writes one after another stop at the first that fails; those before
it stay.

## Main definitions

* `Transaction.inscriptionWrites`: the writes of a transaction's inscriptions
* `Index.writeAll`: writes one after another

## Main results

* `Transaction.length_inscriptionWrites`: there is a write for each inscription
-/

namespace InscriptionLedger

/-- The writes of a transaction's inscriptions, numbered from `first` up. The other fields are those
given. -/
def Transaction.inscriptionWrites (t : Transaction) (fields : EntryFields) (first : Int) :
    List Write :=
  t.extract.zipIdx.map fun ((id, content), k) =>
    .inscription id { fields with number := some (first + k) } content (some ⟨⟨t.txid, 0⟩, 0⟩)

@[simp] theorem Transaction.length_inscriptionWrites (t : Transaction) (fields : EntryFields)
    (first : Int) : (t.inscriptionWrites fields first).length = t.extract.length := by
  simp [inscriptionWrites]

namespace Index

/-- The index after writes one after another, up to the first that fails, and its failure. -/
def writeAll (index : Index) : List Write → Index × Option Failure
  | [] => (index, none)
  | w :: rest =>
    match index.write w with
    | (after, none) => after.writeAll rest
    | failed => failed

end Index

end InscriptionLedger
