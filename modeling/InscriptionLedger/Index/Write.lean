import InscriptionLedger.Index.Tables

/-!
# Writing to the tables

A write is a sequence of statements. Each statement is done in full or fails; when one fails the
tables are put back to what they were before the write. What a statement puts as a text, the name of
an inscription or the stored form of a transaction, is written out first, which can fail.

## Main definitions

* `Statement`, `Statement.run`: the statements
* `Write`, `Write.statements?`: the writes and their statements
* `Tables.runAll`: statements one after another, up to the first that fails
* `Tables.atomically`: all of the statements or none

## Main results

* `Tables.atomically_of_failure`: a write that fails leaves the tables as they were
-/

namespace InscriptionLedger

/-- What is recorded of an inscription, before it is known to be complete. -/
structure EntryFields where
  number : Option Int
  height : Option Int
  fee : Option Int
  timestamp : Option Int
  sat : Option Int := none
  deriving DecidableEq, Repr

/-- The entry of fields that are all there. -/
def EntryFields.entry? (f : EntryFields) : Option Entry := do
  return ⟨← f.number, ← f.height, ← f.fee, ← f.timestamp, f.sat⟩

/-- The fields of an entry. -/
def Entry.fields (e : Entry) : EntryFields :=
  ⟨some e.number, some e.height, some e.fee, some e.timestamp, e.sat⟩

/-- The integers among the fields. -/
def EntryFields.integers (f : EntryFields) : List Int :=
  [f.number, f.height, f.fee, f.timestamp, f.sat].filterMap id

/-- A step of a write. -/
inductive Statement
  | clearHeight (height : Int)
  | putBlock (height : Int) (hash : Option String)
  | putTransaction (t : Transaction) (place : Option Place)
  | putInscription (id : InscriptionId) (fields : EntryFields) (content : Inscription)
      (location : Option SatPoint)
  deriving Repr

/-- Whether an integer fits into a column: sixty-four bits with a sign. -/
def fitsColumn (n : Int) : Bool := -0x8000000000000000 ≤ n && n < 0x8000000000000000

/-- Integers that are given to the tables must fit. -/
def requireFit (ns : List Int) : Outcome Unit :=
  if ns.all fitsColumn then .ok () else .error .magnitude

/-- Whether the texts that a statement gives to the tables can be written. -/
def Statement.isWritable : Statement → Bool
  | putTransaction t _ => t.isWritable
  | putInscription id _ _ _ => id.isWritable
  | _ => true

/-- Whether ids can be put into the tables. -/
def areStorable (ids : List TransactionId) : Bool := ids.all TransactionId.isStorable

/-- The ids that a statement gives to the tables. -/
def Statement.ids : Statement → List TransactionId
  | putTransaction t _ => [t.txid]
  | putInscription id _ _ location => id.txid :: (location.map fun p => p.outpoint.txid).toList
  | _ => []

/-- The integers that a place in a block holds. -/
def Place.integers (p : Place) : List Int := [p.height, p.position]

/-- The integers that a place of a satoshi holds. -/
def SatPoint.integers (p : SatPoint) : List Int := [p.outpoint.vout, p.offset]

/-- The integers that a statement gives to the tables, apart from those among its ids. -/
def Statement.integers : Statement → List Int
  | clearHeight height => [height]
  | putBlock height _ => [height]
  | putTransaction _ place => (place.map Place.integers).getD []
  | putInscription id fields _ location =>
    id.index :: fields.integers ++ (location.map SatPoint.integers).getD []

/-- A statement on tables that its texts, ids and integers fit. -/
def Statement.perform (t : Tables) : Statement → Outcome Tables
  | clearHeight height => .ok (t.clearHeight height)
  | putBlock height (some hash) => .ok (t.putBlock ⟨height, hash⟩)
  | putBlock _ none => .error .emptyColumn
  | putTransaction u place => .ok (t.putTransaction ⟨u.txid.cell?, place, u.toStored⟩)
  | putInscription id fields content location =>
    match id.txid.cell?, fields.entry? with
    | some txid, some entry =>
      .ok (t.putInscription
        ⟨id.text, ⟨.ofText txid, id.index⟩, entry, content, location.bind SatPoint.stored?⟩)
    | _, _ => .error .emptyColumn

/-- A statement: its texts are written, then what it gives to the tables is looked at, and last its
empty columns. -/
def Statement.run (t : Tables) (s : Statement) : Outcome Tables := do
  requireWritable s.isWritable
  if areStorable s.ids then
    requireFit (s.ids.flatMap TransactionId.integers ++ s.integers)
    s.perform t
  else throw .unstorable

/-- What can be written to the index. -/
inductive Write
  | block (hash : Option String) (height : Option Int) (transactions : List Transaction)
  | transaction (t : Transaction)
  | inscription (id : InscriptionId) (fields : EntryFields) (content : Inscription)
      (location : Option SatPoint)
  deriving Repr

/-- The statement that puts a transaction at a position of a block. -/
def Statement.atPosition (height : Int) (t : Transaction) (position : Nat) : Statement :=
  putTransaction t (some ⟨height, position⟩)

/-- The statement of a write that has no other. Its texts are written before it is known whether
there is an index to write to; those of a block are written one by one. -/
def Statement.alone (s : Statement) : Outcome (List Statement) := do
  requireWritable s.isWritable
  return [s]

/-- The statements of a write. A block replaces all transactions of its height. -/
def Write.statements? : Write → Outcome (List Statement)
  | block _ none _ => .error (.value .missingHeight)
  | block hash (some height) transactions =>
    .ok (.clearHeight height :: .putBlock height hash ::
      transactions.zipIdx.map fun (t, position) => .atPosition height t position)
  | transaction t => (Statement.putTransaction t none).alone
  | inscription id fields content location =>
    (Statement.putInscription id fields content location).alone

namespace Tables

/-- The tables after statements one after another, up to the first that fails, and its failure. -/
def runAll (t : Tables) : List Statement → Tables × Option Failure
  | [] => (t, none)
  | s :: rest =>
    match s.run t with
    | .ok next => next.runAll rest
    | .error f => (t, some f)

/-- All of the statements or none. -/
def atomically (t : Tables) (statements : List Statement) : Tables × Option Failure :=
  match t.runAll statements with
  | (after, none) => (after, none)
  | (_, some f) => (t, some f)

/-- A write that fails leaves the tables as they were. -/
theorem atomically_of_failure {t after : Tables} {statements : List Statement} {f : Failure}
    (h : t.atomically statements = (after, some f)) : after = t := by
  simp only [atomically] at h
  split at h
  · cases h
  · cases h
    rfl

end Tables

end InscriptionLedger
