import InscriptionLedger.Identifier.Basic
import InscriptionLedger.Text.Hex

/-!
# Transactions

A transaction spends outputs of earlier ones and makes outputs of its own. An input that spends no
output mints new satoshis.

## Main definitions

* `TxIn`, `TxOut`, `Transaction`, `Block`
* `Transaction.outPoints`: the outputs of a transaction with their names
-/

namespace InscriptionLedger

/-- An input: the output that it spends, if any, and its witness. -/
structure TxIn where
  previous : Option OutPoint := none
  witness : List Bytes := []
  deriving DecidableEq, Repr

/-- An output: its value in satoshis and the script that guards it. -/
structure TxOut where
  value : Int
  script : Bytes
  deriving DecidableEq, Repr

/-- A transaction. -/
structure Transaction where
  txid : TransactionId
  inputs : List TxIn := []
  outputs : List TxOut := []
  deriving DecidableEq, Repr

/-- A block: its hash, its height and its transactions in order. -/
structure Block where
  hash : String
  height : Int
  transactions : List Transaction := []
  deriving DecidableEq, Repr

/-- The outputs of a transaction with their names, in order. -/
def Transaction.outPoints (t : Transaction) : List (OutPoint × TxOut) :=
  t.outputs.zipIdx.map fun (output, vout) => (⟨t.txid, vout⟩, output)

/-- The output at a position. -/
def Transaction.output? (t : Transaction) (position : Int) : Option TxOut :=
  if 0 ≤ position then t.outputs[position.toNat]? else none

end InscriptionLedger
