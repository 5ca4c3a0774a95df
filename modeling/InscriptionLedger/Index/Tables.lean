import InscriptionLedger.Index.Cell
import InscriptionLedger.Inscription
import InscriptionLedger.Transaction.Stored

/-!
# Tables

The index keeps three tables. A block is unique by its height and by its hash, a transaction by its
id, an inscription by its name and by its number. Putting a row removes the rows that share a unique
column with it; an empty cell is shared with no row. A transaction may stand at a place in a block;
the row does not need that block to be there.

## Main definitions

* `Tables`: the three tables
* `Tables.putBlock`, `Tables.putTransaction`, `Tables.putInscription`: rows put into them
* `Tables.clearHeight`: the tables without the transactions of a height

## Main results

* `Tables.mem_putTransaction`, `Tables.mem_putInscription`: the rows after these operations
-/

namespace InscriptionLedger

/-- A place in a block: its height, and how many transactions stand before. -/
structure Place where
  height : Int
  position : Nat
  deriving DecidableEq, Repr

/-- A row of the blocks. -/
structure BlockRow where
  height : Int
  hash : String
  deriving DecidableEq, Repr

/-- A row of the transactions: the cell of the id, and the stored form as the document. -/
structure TransactionRow where
  txid : Option String
  place : Option Place
  document : Json
  deriving Repr

/-- A row of the inscriptions: the text of the id, the id and the satoshi's place as their cells
hold them, what is recorded, and the content. -/
structure InscriptionRow where
  name : String
  id : InscriptionId
  entry : Entry
  content : Inscription
  location : Option SatPoint
  deriving DecidableEq, Repr

/-- The three tables. -/
structure Tables where
  blocks : List BlockRow := []
  transactions : List TransactionRow := []
  inscriptions : List InscriptionRow := []
  deriving Repr

/-- Whether a transaction stands at a height. -/
def TransactionRow.isAt (height : Int) (r : TransactionRow) : Bool :=
  r.place.any fun place => place.height == height

/-- Whether two blocks share a unique column. -/
def BlockRow.clashes (r s : BlockRow) : Bool := r.height == s.height || r.hash == s.hash

/-- Whether a transaction has an id. -/
def TransactionRow.isFor (txid : Option String) (r : TransactionRow) : Bool :=
  r.txid.isSome && r.txid == txid

/-- Whether two inscriptions share a unique column. -/
def InscriptionRow.clashes (r s : InscriptionRow) : Bool :=
  r.name == s.name || r.entry.number == s.entry.number

namespace Tables

/-- The tables without the transactions of a height. -/
def clearHeight (t : Tables) (height : Int) : Tables :=
  { t with transactions := t.transactions.filter fun r => !r.isAt height }

/-- The tables with a block put. -/
def putBlock (t : Tables) (row : BlockRow) : Tables :=
  { t with blocks := t.blocks.filter (fun r => !r.clashes row) ++ [row] }

/-- The tables with a transaction put. -/
def putTransaction (t : Tables) (row : TransactionRow) : Tables :=
  { t with transactions := t.transactions.filter (fun r => !r.isFor row.txid) ++ [row] }

/-- The tables with an inscription put. -/
def putInscription (t : Tables) (row : InscriptionRow) : Tables :=
  { t with inscriptions := t.inscriptions.filter (fun r => !r.clashes row) ++ [row] }

/-! ## Rows after an operation -/

variable {t : Tables}

theorem mem_putTransaction {row r : TransactionRow} :
    r ∈ (t.putTransaction row).transactions ↔
      (r ∈ t.transactions ∧ r.isFor row.txid = false) ∨ r = row := by
  simp [putTransaction]

theorem mem_putInscription {row r : InscriptionRow} :
    r ∈ (t.putInscription row).inscriptions ↔
      (r ∈ t.inscriptions ∧ r.clashes row = false) ∨ r = row := by
  simp [putInscription]

@[simp] theorem blocks_clearHeight (height : Int) : (t.clearHeight height).blocks = t.blocks := rfl

@[simp] theorem blocks_putTransaction (row : TransactionRow) :
    (t.putTransaction row).blocks = t.blocks := rfl

@[simp] theorem transactions_putBlock (row : BlockRow) :
    (t.putBlock row).transactions = t.transactions := rfl

@[simp] theorem transactions_putInscription (row : InscriptionRow) :
    (t.putInscription row).transactions = t.transactions := rfl

end Tables

end InscriptionLedger
