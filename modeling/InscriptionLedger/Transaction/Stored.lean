import InscriptionLedger.Identifier.Reader
import InscriptionLedger.Json.Typed
import InscriptionLedger.Transaction.Basic

/-!
# Stored transactions

The stored form of a transaction is an object with its id, its inputs and its outputs; satoshis are
integers, outputs that are spent are texts, and bytes are hexadecimal texts. There is none if one of
these texts cannot be written, and the form itself is written as a text only if all its integers can
be. Reading it is lenient: inputs, outputs and what an input holds may be missing, values may be
numerals, and the id is taken as it stands.

## Main definitions

* `Transaction.toStored`, `Transaction.toStored?`: the stored form, and that of a transaction that
  has one
* `Transaction.isWritable`: whether the stored form can be written as a text
* `Transaction.ofStored?`: the transaction of a stored form
* `Block.toJson?`: the members of a block
-/

namespace InscriptionLedger

/-! ## Writing -/

/-- The stored form of bytes. -/
def storedBytes (bytes : Bytes) : Json := .text (Hex.write bytes)

/-- The stored form of an input. -/
def TxIn.toJson (i : TxIn) : Json :=
  .object [("previous_output", Json.ofOption (fun p => .text p.text) i.previous),
    ("witness", .list (i.witness.map storedBytes))]

/-- The stored form of an output. -/
def TxOut.toJson (o : TxOut) : Json :=
  .object [("value", .integer o.value), ("script_pubkey", storedBytes o.script)]

/-- The stored form of a transaction. -/
def Transaction.toStored (t : Transaction) : Json :=
  .object [("txid", t.txid.value), ("inputs", .list (t.inputs.map TxIn.toJson)),
    ("outputs", .list (t.outputs.map TxOut.toJson))]

/-- Whether a transaction has a stored form: the texts of the outputs that it spends can be
written. -/
def Transaction.hasStored (t : Transaction) : Bool :=
  t.inputs.all fun i => i.previous.all OutPoint.isWritable

/-- The stored form of a transaction that has one. -/
def Transaction.toStored? (t : Transaction) : Outcome Json := do
  requireWritable t.hasStored
  return t.toStored

/-- Whether a transaction has a stored form that can be written as a text. -/
def Transaction.isWritable (t : Transaction) : Bool := t.hasStored && t.toStored.isShort

/-- The members of a block. -/
def Block.toJson? (b : Block) : Outcome Json := do
  return .object [("hash", .text b.hash), ("height", .integer b.height),
    ("transactions", .list (← b.transactions.mapM Transaction.toStored?))]

/-! ## Reading -/

/-- The output that an input spends; what does not count as present stands for none. -/
def readPrevious? (value : Json) : Outcome (Option OutPoint) :=
  if value.isTruthy then do return some (← OutPoint.read? (← value.toText)) else .ok none

/-- The input of a stored form. -/
def TxIn.ofStored? (value : Json) : Outcome TxIn := do
  let members ← value.toMembers
  let previous ← readPrevious? (Json.member members "previous_output")
  let items ← (Json.memberOr members "witness" (.list [])).toParts
  return ⟨previous, ← items.mapM Json.toBytes⟩

/-- The output of a stored form. -/
def TxOut.ofStored? (value : Json) : Outcome TxOut := do
  let members ← value.toMembers
  let value ← (← Json.required members "value").toInt
  let script ← (← Json.required members "script_pubkey").toBytes
  return ⟨value, script⟩

/-- The transaction of a stored form: the inputs are read first, then the outputs, then the id. -/
def Transaction.ofStored? (value : Json) : Outcome Transaction := do
  let members ← value.toMembers
  let inputs ← (← (Json.memberOr members "inputs" (.list [])).toParts).mapM TxIn.ofStored?
  let outputs ← (← (Json.memberOr members "outputs" (.list [])).toParts).mapM TxOut.ofStored?
  let id ← Json.required members "txid"
  return ⟨⟨id⟩, inputs, outputs⟩

end InscriptionLedger
