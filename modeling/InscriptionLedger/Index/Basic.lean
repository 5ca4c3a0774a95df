import InscriptionLedger.Index.Write

/-!
# The index

The index answers what is stored in its tables. A closed index answers nothing, and single numbers
and transactions can be unreadable.

## Main definitions

* `Index`: the tables, and what keeps the index from answering
* `Index.write`: a write, done in full or not at all
* `Index.block?`, `Index.latestHash?`, `Index.heightOf?`: reads of blocks
* `Index.entry?`, `Index.content?`, `Index.location?`, `Index.idOfNumber?`: reads of inscriptions
* `Index.transaction?`, `Index.onOutput`, `Index.latest`: the other reads

## Main results

* `Index.write_of_failure`: a write that fails changes nothing
-/

namespace InscriptionLedger

/-- The tables, and what keeps the index from answering. -/
structure Index where
  tables : Tables := {}
  isClosed : Bool := false
  unreadableNumbers : List Int := []
  unreadableTransactions : List TransactionId := []
  deriving Repr

namespace Index

/-! ## Writing -/

/-- The index after a write, and the failure of one that was not done. -/
def write (index : Index) (w : Write) : Index × Option Failure :=
  match w.statements? with
  | .error f => (index, some f)
  | .ok statements =>
    if index.isClosed then (index, some .closedStore)
    else
      let (tables, failure) := index.tables.atomically statements
      ({ index with tables }, failure)

/-- A write that fails changes nothing. -/
theorem write_of_failure {index after : Index} {w : Write} {f : Failure}
    (h : index.write w = (after, some f)) : after = index := by
  simp only [write] at h
  split at h
  · cases h
    rfl
  · split at h
    · cases h
      rfl
    · next statements _ _ =>
      simp only [Prod.mk.injEq] at h
      obtain ⟨rfl, hf⟩ := h
      have : index.tables.atomically statements =
          ((index.tables.atomically statements).1, some f) := by rw [← hf]
      rw [Tables.atomically_of_failure this]

/-! ## Reading -/

/-- The tables, if the index is open and the integers asked for fit. -/
def query (index : Index) (integers : List Int) : Outcome Tables :=
  if index.isClosed then .error (.lookup .closed)
  else do
    requireFit integers
    return index.tables

/-- The tables, if the index is open and the id and the integers asked for fit. -/
def queryId (index : Index) (txid : TransactionId) (integers : List Int) : Outcome Tables :=
  if txid.isStorable ∨ index.isClosed then index.query (txid.integers ++ integers)
  else .error (.lookup (.unstorable txid.value))

/-- The stored forms of the transactions of a height, in order. -/
def documentsAt (t : Tables) (height : Int) : List Json :=
  let placed := t.transactions.filterMap fun r =>
    if r.isAt height then r.place.map fun place => (place.position, r.document) else none
  (placed.mergeSort fun x y => x.1 ≤ y.1).map Prod.snd

/-- The block of a row. -/
def blockOfRow (t : Tables) (row : BlockRow) : Outcome Block := do
  return ⟨row.hash, row.height, ← (documentsAt t row.height).mapM Transaction.ofStored?⟩

/-- Whether a row is that of the block referred to. -/
def isBlock : BlockRef → BlockRow → Bool
  | .height height, row => row.height == height
  | .hash hash, row => row.hash == hash

/-- The block referred to. -/
def block? (index : Index) (ref : BlockRef) : Outcome (Option Block) := do
  let t ← index.query (match ref with | .height height => [height] | .hash _ => [])
  match t.blocks.find? (isBlock ref) with
  | some row => return some (← blockOfRow t row)
  | none => return none

/-- Of two blocks the one of greater height. -/
def higher (x y : BlockRow) : BlockRow := if x.height < y.height then y else x

/-- The block of greatest height. -/
def highest? : List BlockRow → Option BlockRow
  | [] => none
  | row :: rest => some (rest.foldl higher row)

/-- The hash of the block of greatest height. -/
def latestHash? (index : Index) : Outcome (Option String) := do
  return (highest? (← index.query []).blocks).map BlockRow.hash

/-- The height of the block of a hash. -/
def heightOf? (index : Index) (hash : String) : Outcome (Option Int) := do
  return ((← index.query []).blocks.find? (isBlock (.hash hash))).map BlockRow.height

/-- The row of an inscription, found by the text of its id. -/
def row? (index : Index) (id : InscriptionId) : Outcome (Option InscriptionRow) := do
  requireWritable id.isWritable
  return (← index.query []).inscriptions.find? fun r => r.name == id.text

/-- What is recorded of an inscription. -/
def entry? (index : Index) (id : InscriptionId) : Outcome (Option Entry) := do
  return (← index.row? id).map InscriptionRow.entry

/-- The content of an inscription. -/
def content? (index : Index) (id : InscriptionId) : Outcome (Option Inscription) := do
  return (← index.row? id).map InscriptionRow.content

/-- The place of an inscription's satoshi. -/
def location? (index : Index) (id : InscriptionId) : Outcome (Option SatPoint) := do
  return (← index.row? id).bind InscriptionRow.location

/-- The inscription of a number. -/
def idOfNumber? (index : Index) (number : Int) : Outcome (Option InscriptionId) :=
  if index.unreadableNumbers.contains number then .error (.lookup (.unreadableNumber number))
  else do
    let t ← index.query [number]
    return (t.inscriptions.find? fun r => r.entry.number == number).map InscriptionRow.id

/-- The transaction of an id. -/
def transaction? (index : Index) (txid : TransactionId) : Outcome (Option Transaction) :=
  if index.unreadableTransactions.contains txid then
    .error (.lookup (.unreadableTransaction txid))
  else do
    match (← index.queryId txid []).transactions.find? fun r => r.isFor txid.cell? with
    | some row => return some (← Transaction.ofStored? row.document)
    | none => return none

/-- The offset of an inscription whose satoshi is in an output. -/
def offsetIn? (p : OutPoint) (r : InscriptionRow) : Option Int :=
  match r.location, p.stored? with
  | some place, some outpoint => if place.outpoint = outpoint then some place.offset else none
  | _, _ => none

/-- The order of inscriptions in an output: by offset, then by number. -/
def outputLe (x y : Int × InscriptionRow) : Bool :=
  x.1 < y.1 || (x.1 == y.1 && x.2.entry.number ≤ y.2.entry.number)

/-- The inscriptions of an output. -/
def onOutput (index : Index) (p : OutPoint) : Outcome (List InscriptionId) := do
  let t ← index.queryId p.txid [p.vout]
  let found := t.inscriptions.filterMap fun r => (offsetIn? p r).map fun offset => (offset, r)
  return (found.mergeSort outputLe).map fun x => x.2.id

/-- The first so many of a list; a negative count takes all. -/
def takeCount {α : Type} (count : Int) (xs : List α) : List α :=
  if count < 0 then xs else xs.take count.toNat

/-- The inscriptions of the greatest numbers, greatest first, from a number down if one is given. -/
def latest (index : Index) (count : Int) (cursor : Option Int := none) :
    Outcome (List InscriptionId) := do
  let t ← index.query (cursor.toList ++ [count])
  let below := t.inscriptions.filter fun r => cursor.all fun c => r.entry.number ≤ c
  let sorted := below.mergeSort fun x y => y.entry.number ≤ x.entry.number
  return (takeCount count sorted).map InscriptionRow.id

end Index

end InscriptionLedger
