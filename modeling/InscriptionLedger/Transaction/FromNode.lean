import InscriptionLedger.Amount
import InscriptionLedger.Json.Order
import InscriptionLedger.Transaction.Stored

/-!
# Transactions of a node

A node tells a transaction as an object: amounts are in coins, and the outputs carry their
positions, by which they are put in order. What is missing or does not count as present has a
default.

## Main definitions

* `TxIn.ofNode?`, `TxOut.ofNodeMembers?`: the inputs and outputs of a node's object
* `Transaction.ofNode?`: the transaction of a node's object
-/

namespace InscriptionLedger

/-- The output that an input of a node's object spends. -/
def readSpent? (members : List (String × Json)) : Outcome (Option OutPoint) :=
  match Json.member members "txid" with
  | .null => .ok none
  | id => do return some ⟨⟨id⟩, ← (Json.memberOr members "vout" (.integer 0)).toInt⟩

/-- The input of a node's object. -/
def TxIn.ofNode? (value : Json) : Outcome TxIn := do
  let members ← value.toMembers
  let previous ← readSpent? members
  let items ← (Json.member members "txinwitness").toPartsIfPresent
  return ⟨previous, ← items.mapM Json.toBytes⟩

/-- The script of an output of a node's object. -/
def readScript? (value : Json) : Outcome Bytes :=
  if value.isTruthy then do
    let hex := Json.member (← value.toMembers) "hex"
    if hex.isTruthy then hex.toBytes else return []
  else .ok []

/-- The output of the members of a node's object. -/
def TxOut.ofNodeMembers? (members : List (String × Json)) : Outcome TxOut := do
  let value ← Amount.ofJson (Json.memberOr members "value" (.integer 0))
  let script ← readScript? (Json.member members "scriptPubKey")
  return ⟨value, script⟩

/-- The id of a transaction: one of two members, the first that counts as present. -/
def readId? (members : List (String × Json)) : Outcome Json :=
  let txid := Json.member members "txid"
  let hash := Json.member members "hash"
  if txid.isTruthy then .ok txid
  else if hash.isTruthy then .ok hash
  else .error (.value .missingTxid)

/-- The transaction of a node's object. -/
def Transaction.ofNode? (value : Json) : Outcome Transaction := do
  let members ← value.toMembers
  let id ← readId? members
  let inputs ← (← (Json.member members "vin").toPartsIfPresent).mapM TxIn.ofNode?
  let listed ← (← (Json.member members "vout").toPartsIfPresent).mapM Json.toMembers
  -- All outputs are objects before their positions are compared.
  let keyed := listed.map fun members => (Json.memberOr members "n" (.integer 0), members)
  let outputs ← (← Json.sortByKey? keyed).mapM TxOut.ofNodeMembers?
  return ⟨⟨id⟩, inputs, outputs⟩

end InscriptionLedger
