import InscriptionLedger.Node.Basic
import InscriptionLedger.Ownership
import InscriptionLedger.Sat.Rarity

/-!
# Views of inscriptions

The view of a confirmed inscription joins what the index records with the output that holds it now,
with its neighbours in number and with its satoshi. The transaction of that output comes from the
index or else from a node. The first owner is that of an output of the inscription's own
transaction; which one, is a setting.

## Main definitions

* `OwnerKey`: what selects the first owner's output
* `Viewer`: the index, the network, the setting, and a node if there is one
* `InscriptionView`, `Viewer.view`: the view of an inscription
* `LightView`: what is known of a pending inscription
-/

namespace InscriptionLedger

/-- What selects the first owner's output: the position of the output that holds the inscription,
or its offset there. -/
inductive OwnerKey
  | vout
  | offset
  deriving DecidableEq, Repr

namespace OwnerKey

/-- The name of a selection. -/
def text : OwnerKey → String
  | vout => "vout"
  | offset => "offset"

/-- The selection of a name. -/
def ofName? : String → Option OwnerKey
  | "vout" => some vout
  | "offset" => some offset
  | _ => none

/-- The selection that a text names. -/
def read? (s : String) : Outcome OwnerKey :=
  match ofName? s with
  | some key => .ok key
  | none => .error (.value (.ownerKey s))

/-- The position that is selected. -/
def position (p : SatPoint) : OwnerKey → Int
  | vout => p.outpoint.vout
  | offset => p.offset

end OwnerKey

/-- The view of a confirmed inscription. -/
structure InscriptionView where
  id : InscriptionId
  address : Option String
  sat : Option SatView
  contentLength : Option Nat
  entry : Entry
  location : SatPoint
  output : Option TxOut
  network : Network
  contentType : Option String
  next : Option InscriptionId
  previous : Option InscriptionId
  firstOwner : Option String
  deriving DecidableEq, Repr

/-- The members of a view. -/
def InscriptionView.toJson (v : InscriptionView) : Json :=
  .object [("inscription_id", .text v.id.text), ("address", Json.ofOption .text v.address),
    ("output_value", Json.ofOption (fun o : TxOut => .integer o.value) v.output),
    ("sat", Json.ofOption SatView.toJson v.sat),
    ("content_len", Json.ofOption (fun n : Nat => .integer n) v.contentLength),
    ("genesis_height", .integer v.entry.height), ("genesis_fee", .integer v.entry.fee),
    ("timestamp", .integer v.entry.timestamp), ("transaction", v.id.txid.value),
    ("location", .text v.location.text), ("output", Json.ofOption TxOut.toJson v.output),
    ("offset", .integer v.location.offset), ("chain", .text v.network.text),
    ("content_type", Json.ofOption .text v.contentType),
    ("next", Json.ofOption (fun id => .text id.text) v.next), ("number", .integer v.entry.number),
    ("previous", Json.ofOption (fun id => .text id.text) v.previous),
    ("satpoint", .text v.location.text), ("original_owner", Json.ofOption .text v.firstOwner)]

/-- What is known of a pending inscription. -/
structure LightView where
  id : InscriptionId
  contentLength : Option Nat
  contentType : Option String
  deriving DecidableEq, Repr

/-- The members of a light view. -/
def LightView.toJson (v : LightView) : Json :=
  .object [("inscription_id", .text v.id.text),
    ("content_len", Json.ofOption (fun n : Nat => .integer n) v.contentLength),
    ("transaction", v.id.txid.value), ("content_type", Json.ofOption .text v.contentType)]

/-- The light view of an inscription. -/
def Inscription.lightView (id : InscriptionId) (i : Inscription) : LightView :=
  ⟨id, i.contentLength, i.contentTypeText⟩

/-- What views are made from. -/
structure Viewer where
  index : Index
  network : Network := .mainnet
  ownerKey : OwnerKey := .vout
  node? : Option Node := none

namespace Viewer

/-- What must be found. -/
def found {α : Type} (entity : Entity) (looked : Outcome (Option α)) : Outcome α := do
  match ← looked with
  | some a => return a
  | none => throw (.notFound entity)

/-- A value that the index or its reader fails to give counts as missing. -/
def orMissing {α : Type} (isForgiven : Failure → Bool) : Outcome (Option α) → Outcome (Option α)
  | .error f => if isForgiven f then .ok none else .error f
  | answer => answer

/-- Whether the index does not answer. -/
def isLookup : Failure → Bool
  | .lookup _ => true
  | _ => false

/-- A transaction asked of a node, if there is one. -/
def askNode (viewer : Viewer) (txid : TransactionId) : Outcome (Option Transaction) :=
  match viewer.node? with
  | none => .ok none
  | some node =>
    orMissing (fun f => f.isNodeFault || f.isValueFault) ((node.transaction txid).map some)

/-- The transaction of an id: from the index, or else from the node. -/
def currentTransaction (viewer : Viewer) (txid : TransactionId) : Outcome (Option Transaction) := do
  match ← orMissing isLookup (viewer.index.transaction? txid) with
  | some t => return some t
  | none => viewer.askNode txid

/-- The output that holds an inscription; none if its transaction is not known. -/
def currentOutput (viewer : Viewer) (id : InscriptionId) (location : SatPoint) :
    Outcome (Option TxOut) := do
  match ← viewer.currentTransaction location.outpoint.txid with
  | none => return none
  | some t =>
    match t.output? location.outpoint.vout with
    | some output => return some output
    | none => throw (.notFound (.currentOutput id))

/-- The inscription before a number; none comes before zero. -/
def previousOf (viewer : Viewer) (number : Int) : Outcome (Option InscriptionId) :=
  if number = 0 then .ok none else orMissing isLookup (viewer.index.idOfNumber? (number - 1))

/-- The address of the first owner. -/
def firstOwner (viewer : Viewer) (id : InscriptionId) (location : SatPoint) :
    Outcome (Option String) := do
  match ← viewer.index.transaction? id.txid with
  | none => return none
  | some t =>
    return (t.output? (viewer.ownerKey.position location)).bind fun output =>
      viewer.network.address? output.script

/-- The view of an inscription. -/
def view (viewer : Viewer) (id : InscriptionId) : Outcome InscriptionView := do
  let entry ← found (.inscription id) (viewer.index.entry? id)
  let content ← found (.inscription id) (viewer.index.content? id)
  let location ← found (.inscription id) (viewer.index.location? id)
  let output ← viewer.currentOutput id location
  -- A failing look-up of the number before counts as none; one of the number behind is a failure.
  let previous ← viewer.previousOf entry.number
  let next ← viewer.index.idOfNumber? (entry.number + 1)
  let sat ← entry.sat.mapM describeSat
  let firstOwner ← viewer.firstOwner id location
  return {
    id, sat, entry, location, output, next, previous, firstOwner
    address := output.bind fun o => viewer.network.address? o.script
    contentLength := content.contentLength
    network := viewer.network
    contentType := content.contentTypeText }

end Viewer

end InscriptionLedger
