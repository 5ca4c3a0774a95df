import InscriptionLedger.Script.Envelope
import InscriptionLedger.Script.Witness
import InscriptionLedger.Transaction.Basic
import InscriptionLedger.Identifier.Basic

/-!
# Extraction

The envelopes of a transaction are those of its inputs' scripts, inputs in order. The position of an
envelope among them makes its inscription's id. A transaction with a script that cannot be read has
no inscriptions.

## Main definitions

* `Transaction.envelopes?`: the inscriptions of all envelopes, or the first fault
* `Transaction.extract`: the inscriptions with their ids
-/

namespace InscriptionLedger

/-- The inscriptions of the script of an input. -/
def TxIn.envelopes? (i : TxIn) : Except ScriptFault (List Inscription) :=
  match Witness.script? i.witness with
  | some script => Envelope.ofScript? script
  | none => .ok []

/-- The inscriptions of all envelopes, or the first fault. -/
def Transaction.envelopes? (t : Transaction) : Except ScriptFault (List Inscription) :=
  (t.inputs.mapM TxIn.envelopes?).map List.flatten

/-- The inscriptions with their ids. -/
def Transaction.extract (t : Transaction) : List (InscriptionId × Inscription) :=
  match t.envelopes? with
  | .ok found => found.zipIdx.map fun (inscription, index) => (⟨t.txid, index⟩, inscription)
  | .error _ => []

end InscriptionLedger
