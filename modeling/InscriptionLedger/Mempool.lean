import InscriptionLedger.Extraction
import InscriptionLedger.Node.Basic
import InscriptionLedger.View.Basic

/-!
# Pending inscriptions

A snapshot holds the pending transactions of a node, their inscriptions and their outputs. It is
rebuilt as a whole; a transaction that the node cannot give is left out, and without the list of
pending transactions there is no new snapshot. Neither is there one if an inscription or an output
belongs to a transaction whose id is a list or an object, which names nothing.

## Main definitions

* `Snapshot`, `Snapshot.ofTransactions?`: a snapshot, and that of transactions
* `Snapshot.answersInTurns`, `Snapshot.keep`: what a node answers for ids, and what is kept of it
* `Snapshot.updateInTurns`, `Snapshot.update`: the next snapshot, from a node that changes from call
  to call or stays as it is
* `Snapshot.publish`: the snapshot that is published after an update
* `Snapshot.view`, `Snapshot.views`: what is known of the pending inscriptions
-/

namespace InscriptionLedger

/-- The pending transactions by the ids that they were asked for, their inscriptions and their
outputs. -/
structure Snapshot where
  generation : Nat := 0
  transactions : List (String × Transaction) := []
  inscriptions : List (InscriptionId × Inscription) := []
  outputs : List (OutPoint × TxOut) := []
  deriving Repr

namespace Snapshot

/-- The snapshot of transactions. -/
def ofTransactions? (generation : Nat) (transactions : List (String × Transaction)) :
    Outcome Snapshot :=
  let inscriptions := transactions.flatMap fun x => x.2.extract
  let outputs := transactions.flatMap fun x => x.2.outPoints
  let txids := inscriptions.map (fun x => x.1.txid) ++ outputs.map fun x => x.1.txid
  if txids.all fun txid => txid.value.isScalar then
    .ok ⟨generation, transactions, Keyed.ofPairs inscriptions, Keyed.ofPairs outputs⟩
  else .error .wrongType

/-- The ids of the pending transactions; a failure of the node becomes that of the view. -/
def listPending (node : Node) : Outcome (List String) :=
  match node.pending with
  | .error (.node fault) => .error (.unavailable fault)
  | answer => answer

/-- What a node that changes from call to call answers for ids: `turns k` is the node as it answers
the call that comes after `k` others, of which the first lists the ids. -/
def answersInTurns (turns : Nat → Node) (txids : List String) :
    List (String × Outcome Transaction) :=
  txids.zipIdx.map fun (txid, k) => (txid, (turns (k + 1)).transaction txid)

/-- The transactions so far, with what a node answers for an id. -/
def keep (found : List (String × Transaction)) :
    String × Outcome Transaction → Outcome (List (String × Transaction))
  | (txid, .ok t) => .ok (Keyed.put found txid t)
  -- Only what the node says, or says wrongly, is passed over; an answer of the wrong type is not.
  | (_, .error f) => if f.isNodeFault || f.isValueFault then .ok found else .error f

/-- The next snapshot from a node that changes from call to call. -/
def updateInTurns (snapshot : Snapshot) (turns : Nat → Node) : Outcome Snapshot := do
  let txids ← listPending (turns 0)
  ofTransactions? (snapshot.generation + 1) (← (answersInTurns turns txids).foldlM keep [])

/-- The next snapshot from a node that stays as it is. -/
def update (snapshot : Snapshot) (node : Node) : Outcome Snapshot :=
  snapshot.updateInTurns fun _ => node

/-- The snapshot that is published after an update, and the failure of one that brought none. -/
def publish (published : Snapshot) (turns : Nat → Node) : Snapshot × Option Failure :=
  match published.updateInTurns turns with
  | .ok next => (next, none)
  | .error f => (published, some f)

/-- What is known of a pending inscription. -/
def view (snapshot : Snapshot) (id : InscriptionId) : Outcome LightView :=
  match Keyed.get? snapshot.inscriptions id with
  | some i => .ok (i.lightView id)
  | none => do
    requireWritable id.isWritable
    throw (.notFound (.inscription id))

/-- What is known of all pending inscriptions. -/
def views (snapshot : Snapshot) : List LightView :=
  snapshot.inscriptions.map fun (id, i) => i.lightView id

end Snapshot

end InscriptionLedger
