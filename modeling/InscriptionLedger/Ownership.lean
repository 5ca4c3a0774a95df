import InscriptionLedger.Address.Template
import InscriptionLedger.Index.Basic

/-!
# Ownership

The outputs of a block and the inscriptions in them: transactions in order, then outputs in order.

## Main definitions

* `Index.idsOfTransaction`, `Index.idsOfBlock`: the inscriptions in the outputs
* `OutputView`, `Index.outputsOfBlock`: the outputs that hold inscriptions
-/

namespace InscriptionLedger

/-- An output that holds inscriptions. -/
structure OutputView where
  inscriptions : List InscriptionId
  output : TxOut
  address : Option String
  txid : TransactionId
  deriving DecidableEq, Repr

/-- The members of a view of an output. -/
def OutputView.toJson (v : OutputView) : Json :=
  .object [("inscriptions", .list (v.inscriptions.map fun id => .text id.text)),
    ("value", .integer v.output.value), ("script_pubkey", storedBytes v.output.script),
    ("address", Json.ofOption .text v.address), ("transaction", v.txid.value)]

namespace Index

/-- The inscriptions in the outputs of a transaction. -/
def idsOfTransaction (index : Index) (t : Transaction) : Outcome (List InscriptionId) := do
  return (← t.outPoints.mapM fun (p, _) => index.onOutput p).flatten

/-- The inscriptions in the outputs of a block. -/
def idsOfBlock (index : Index) (b : Block) : Outcome (List InscriptionId) := do
  return (← b.transactions.mapM index.idsOfTransaction).flatten

/-- The view of an output, if it holds inscriptions. -/
def outputView? (index : Index) (network : Network) (p : OutPoint) (output : TxOut) :
    Outcome (Option OutputView) := do
  let ids ← index.onOutput p
  if ids.isEmpty then return none
  else return some ⟨ids, output, network.address? output.script, p.txid⟩

/-- The outputs of a block that hold inscriptions. -/
def outputsOfBlock (index : Index) (network : Network) (b : Block) : Outcome (List OutputView) := do
  let outputs := b.transactions.flatMap Transaction.outPoints
  return (← outputs.mapM fun (p, output) => index.outputView? network p output).filterMap id

end Index

end InscriptionLedger
