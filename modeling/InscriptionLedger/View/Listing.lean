import InscriptionLedger.View.Basic

/-!
# Listings

Views of several inscriptions: those of a range of numbers, in the order of the numbers, and those
of a block, in the order of its transactions and their outputs, all of them or a page.

## Main definitions

* `Viewer.viewOfNumber`, `Viewer.latestView`, `Viewer.viewsOfRange`: views by number
* `Viewer.viewsOfBlock`, `Viewer.pageOfBlock`, `Viewer.countOfBlock`: views of a block
* `Viewer.outputsOfBlock`, `Viewer.idsOfBlock`, `Viewer.groupsOfBlock`: other listings of a block
* `Viewer.latestBlock`, `Viewer.latestHeight`: the block of greatest height
-/

namespace InscriptionLedger.Viewer

/-- The most ids that are listed without being asked for more. -/
def defaultLimit : Int := 100

/-- The block referred to. -/
def block (viewer : Viewer) (ref : BlockRef) : Outcome Block :=
  found (.block ref) (viewer.index.block? ref)

/-! ## Numbers -/

/-- The view of the inscription of a number. -/
def viewOfNumber (viewer : Viewer) (number : Int) : Outcome InscriptionView := do
  viewer.view (← found (.inscriptionNumber number) (viewer.index.idOfNumber? number))

/-- The view of the inscription of the greatest number. -/
def latestView (viewer : Viewer) : Outcome InscriptionView := do
  viewer.view (← found .latestInscription ((viewer.index.latest 1).map List.head?))

/-- The inscriptions of so many numbers from a number up. -/
def idsFrom (index : Index) (start : Int) : Nat → Outcome (List InscriptionId)
  | 0 => .ok []
  | count + 1 => do
    let id? ← index.idOfNumber? start
    return id?.toList ++ (← idsFrom index (start + 1) count)

/-- The views of the inscriptions of a range of numbers, both ends included. -/
def viewsOfRange (viewer : Viewer) (start stop : Int) : Outcome (List InscriptionView) :=
  if stop < start then .error (.badRequest .reversedRange)
  else do (← idsFrom viewer.index start (stop - start + 1).toNat).mapM viewer.view

/-! ## Blocks -/

/-- The inscriptions in the outputs of a block. -/
def allIdsOfBlock (viewer : Viewer) (ref : BlockRef) : Outcome (List InscriptionId) := do
  viewer.index.idsOfBlock (← viewer.block ref)

/-- The views of the inscriptions of a block. -/
def viewsOfBlock (viewer : Viewer) (ref : BlockRef) : Outcome (List InscriptionView) := do
  (← viewer.allIdsOfBlock ref).mapM viewer.view

/-- The views of so many inscriptions of a block behind the first ones. The page must be within the
block. -/
def pageOfBlock (viewer : Viewer) (ref : BlockRef) (start count : Int) :
    Outcome (List InscriptionView) :=
  if start < 0 ∨ count < 0 then .error (.badRequest .negativeWindow)
  else do
    let ids ← viewer.allIdsOfBlock ref
    if (ids.length : Int) < start + count then do
      -- The message tells both ends of the page.
      requireWritable (Numeral.isShort start && Numeral.isShort (start + count))
      throw (.badRequest (.windowOutside start (start + count) ids.length ref))
    else ((ids.drop start.toNat).take count.toNat).mapM viewer.view

/-- The number of inscriptions of a block. -/
def countOfBlock (viewer : Viewer) (ref : BlockRef) : Outcome Nat := do
  return (← viewer.allIdsOfBlock ref).length

/-- The outputs of a block that hold inscriptions. -/
def outputsOfBlock (viewer : Viewer) (ref : BlockRef) : Outcome (List OutputView) := do
  viewer.index.outputsOfBlock viewer.network (← viewer.block ref)

/-- The first inscriptions of a block. -/
def idsOfBlock (viewer : Viewer) (ref : BlockRef) (limit : Int := defaultLimit) :
    Outcome (List InscriptionId) :=
  if limit < 0 then .error (.badRequest .negativeLimit)
  else do return (← viewer.allIdsOfBlock ref).take limit.toNat

/-- The groups of inscriptions with one transaction, with an inscription added. -/
def addToGroup (groups : List (TransactionId × List InscriptionId)) (id : InscriptionId) :
    List (TransactionId × List InscriptionId) :=
  Keyed.put groups id.txid ((Keyed.get? groups id.txid).getD [] ++ [id])

/-- The first inscriptions of a block by the transactions that made them. -/
def groupsOfBlock (viewer : Viewer) (ref : BlockRef) (limit : Int := defaultLimit) :
    Outcome (List (TransactionId × List InscriptionId)) := do
  return (← viewer.idsOfBlock ref limit).foldl addToGroup []

/-- The members of the groups. -/
def groupsToJson (groups : List (TransactionId × List InscriptionId)) : Json :=
  .list (groups.map fun (txid, ids) =>
    .object [("transaction_id", txid.value),
      ("inscription_ids", .list (ids.map fun id => .text id.text))])

/-- The block of greatest height. -/
def latestBlock (viewer : Viewer) : Outcome Block := do
  viewer.block (.hash (← found .latestBlock viewer.index.latestHash?))

/-- The greatest height of a block. -/
def latestHeight (viewer : Viewer) : Outcome Int := do
  let hash ← found .tip viewer.index.latestHash?
  found (.block (.hash hash)) (viewer.index.heightOf? hash)

end InscriptionLedger.Viewer
