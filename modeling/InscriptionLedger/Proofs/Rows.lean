import InscriptionLedger.Index.Basic
import Mathlib

/-!
# Rows after a write

The rows of the transactions after several are put one after another, and after a block is stored:
the rows that share no id with a new one, and behind them the new ones, of each id the last. A block
leaves only its own rows at its height, and from every other height it takes those that share an id
with one of them.

## Main definitions

* `Transaction.row`, `Block.rows`: the rows of a transaction and of a block
* `Tables.rowsAt`: the rows of a height
* `Tables.putAll`, `Tables.storeBlock`: rows put one after another, and a block stored

## Main results

* `Tables.transactions_putAll`, `Tables.transactions_storeBlock`: the rows afterwards
* `Tables.rowsAt_storeBlock_self`, `Tables.rowsAt_storeBlock_of_ne`: the rows of each height
* `Index.documentsAt_eq`: the stored forms of a height are those of its rows
-/

namespace InscriptionLedger

theorem pairwise_zipIdx {α : Type} (l : List α) : l.zipIdx.Pairwise fun x y => x.2 < y.2 := by
  have : (l.zipIdx.map Prod.snd).Pairwise (· < ·) := by
    rw [List.zipIdx_map_snd]
    exact List.pairwise_lt_range'
  exact List.pairwise_map.1 this

/-! ## Rows of transactions -/

/-- The row of a transaction at a place. -/
def Transaction.row (t : Transaction) (place : Option Place) : TransactionRow :=
  ⟨t.txid.cell?, place, t.toStored⟩

/-- The rows of a block, in order. -/
def Block.rows (b : Block) : List TransactionRow :=
  b.transactions.zipIdx.map fun (t, position) => t.row (some ⟨b.height, position⟩)

namespace TransactionRow

/-- Rows that do not share an id. -/
def IsApart (r s : TransactionRow) : Prop := r.isFor s.txid = false

instance : DecidableRel IsApart := fun r s => inferInstanceAs (Decidable (r.isFor s.txid = false))

/-- How many transactions stand before, in the block; zero without a block. -/
def position (r : TransactionRow) : Nat := (r.place.map Place.position).getD 0

theorem isFor_iff {r : TransactionRow} {txid : Option String} :
    r.isFor txid = true ↔ ∃ s, r.txid = some s ∧ txid = some s := by
  simp only [isFor, Bool.and_eq_true, beq_iff_eq, Option.isSome_iff_exists]
  constructor
  · rintro ⟨⟨s, hs⟩, rfl⟩
    exact ⟨s, hs, hs⟩
  · rintro ⟨s, hs, rfl⟩
    exact ⟨⟨s, hs⟩, hs⟩

theorem isFor_some {r : TransactionRow} {s : String} :
    r.isFor (some s) = true ↔ r.txid = some s := by
  simp [isFor_iff]

theorem isApart_iff {r s : TransactionRow} :
    r.IsApart s ↔ ∀ x, r.txid = some x → s.txid ≠ some x := by
  unfold IsApart
  rw [← Bool.not_eq_true, isFor_iff]
  constructor
  · intro h x hr hs
    exact h ⟨x, hr, hs⟩
  · rintro h ⟨x, hr, hs⟩
    exact h x hr hs

/-- Of three rows, two that share no id do not both share one with the third. -/
theorem isApart_or {r s u : TransactionRow} (h : r.IsApart u) : r.IsApart s ∨ s.IsApart u := by
  simp only [isApart_iff] at h ⊢
  by_contra hboth
  push Not at hboth
  obtain ⟨⟨x, hr, hs⟩, y, hs', hu⟩ := hboth
  have hxy : x = y := Option.some.inj (hs.symm.trans hs')
  exact h x hr (by rw [hu, hxy])

theorem isAt_iff {r : TransactionRow} {height : Int} :
    r.isAt height = true ↔ ∃ position, r.place = some ⟨height, position⟩ := by
  rcases r with ⟨txid, _ | ⟨h, position⟩, document⟩
  · simp [isAt]
  · simp [isAt]

theorem isAt_unique {r : TransactionRow} {height height' : Int} (h : r.isAt height = true)
    (h' : r.isAt height' = true) : height = height' := by
  obtain ⟨position, hp⟩ := isAt_iff.1 h
  obtain ⟨position', hp'⟩ := isAt_iff.1 h'
  rw [hp] at hp'
  simpa using congrArg (Option.map Place.height) hp'

end TransactionRow

@[simp] theorem Transaction.txid_row (t : Transaction) (place : Option Place) :
    (t.row place).txid = t.txid.cell? := rfl

namespace Block

theorem mem_rows {b : Block} {r : TransactionRow} (h : r ∈ b.rows) :
    ∃ t ∈ b.transactions, ∃ position, r = t.row (some ⟨b.height, position⟩) := by
  obtain ⟨⟨t, position⟩, ht, rfl⟩ := List.mem_map.1 h
  exact ⟨t, List.fst_mem_of_mem_zipIdx ht, position, rfl⟩

theorem isAt_of_mem_rows {b : Block} {r : TransactionRow} (h : r ∈ b.rows) :
    r.isAt b.height = true := by
  obtain ⟨t, -, position, rfl⟩ := mem_rows h
  exact TransactionRow.isAt_iff.2 ⟨position, rfl⟩

theorem map_document_rows (b : Block) :
    b.rows.map TransactionRow.document = b.transactions.map Transaction.toStored := by
  have : b.rows.map TransactionRow.document =
      (b.transactions.zipIdx.map Prod.fst).map Transaction.toStored := by
    rw [rows, List.map_map, List.map_map]
    rfl
  rw [this, List.zipIdx_map_fst]

theorem map_txid_rows (b : Block) :
    b.rows.map TransactionRow.txid = b.transactions.map fun t => t.txid.cell? := by
  have : b.rows.map TransactionRow.txid =
      (b.transactions.zipIdx.map Prod.fst).map fun t => t.txid.cell? := by
    rw [rows, List.map_map, List.map_map]
    rfl
  rw [this, List.zipIdx_map_fst]

theorem pairwise_position_rows (b : Block) :
    b.rows.Pairwise fun r s => r.position < s.position := by
  rw [rows, List.pairwise_map]
  exact pairwise_zipIdx b.transactions

end Block

/-! ## Tables after rows are put -/

namespace Tables

/-- The rows of a height. -/
def rowsAt (t : Tables) (height : Int) : List TransactionRow :=
  t.transactions.filter fun r => r.isAt height

/-- The tables with rows put one after another. -/
def putAll (t : Tables) (rows : List TransactionRow) : Tables := rows.foldl putTransaction t

/-- The tables with a block stored. -/
def storeBlock (t : Tables) (b : Block) : Tables :=
  ((t.clearHeight b.height).putBlock ⟨b.height, b.hash⟩).putAll b.rows

variable {t : Tables}

theorem mem_rowsAt {height : Int} {r : TransactionRow} :
    r ∈ t.rowsAt height ↔ r ∈ t.transactions ∧ r.isAt height = true := List.mem_filter

@[simp] theorem putAll_cons (r : TransactionRow) (rest : List TransactionRow) :
    t.putAll (r :: rest) = (t.putTransaction r).putAll rest := rfl

@[simp] theorem blocks_putAll (rows : List TransactionRow) : (t.putAll rows).blocks = t.blocks := by
  induction rows generalizing t with
  | nil => rfl
  | cons r rest ih => rw [putAll_cons, ih, blocks_putTransaction]

@[simp] theorem inscriptions_putAll (rows : List TransactionRow) :
    (t.putAll rows).inscriptions = t.inscriptions := by
  induction rows generalizing t with
  | nil => rfl
  | cons r rest ih =>
    rw [putAll_cons, ih]
    rfl

/-- Rows put one after another stand behind those that share no id with them; of rows with one id
the last stays. -/
theorem transactions_putAll (rows : List TransactionRow) :
    (t.putAll rows).transactions =
      t.transactions.filter (fun r => rows.all fun s => !r.isFor s.txid) ++
        rows.pwFilter TransactionRow.IsApart := by
  induction rows generalizing t with
  | nil =>
    rw [List.pwFilter_nil, List.append_nil]
    exact (List.filter_eq_self.2 fun _ _ => rfl).symm
  | cons row rest ih =>
    -- The rows that were there stay if they share no id with the first, nor with one that follows;
    have hold : (t.transactions.filter fun r => !r.isFor row.txid).filter
          (fun r => rest.all fun s => !r.isFor s.txid) =
        t.transactions.filter fun r => (row :: rest).all fun s => !r.isFor s.txid := by
      rw [List.filter_filter]
      refine List.filter_congr fun r _ => ?_
      rw [List.all_cons, Bool.and_comm]
    -- the first itself stays if it shares none with those that follow.
    have hnew : [row].filter (fun r => rest.all fun s => !r.isFor s.txid) ++
          rest.pwFilter TransactionRow.IsApart =
        (row :: rest).pwFilter TransactionRow.IsApart := by
      have hiff := List.forall_mem_pwFilter (R := TransactionRow.IsApart)
        TransactionRow.isApart_or row rest
      by_cases hapart : ∀ s ∈ rest, row.IsApart s
      · rw [List.pwFilter_cons_of_pos (hiff.2 hapart)]
        have : rest.all (fun s => !row.isFor s.txid) = true := by
          simpa [TransactionRow.IsApart] using hapart
        simp [this]
      · rw [List.pwFilter_cons_of_neg (mt hiff.1 hapart)]
        have : rest.all (fun s => !row.isFor s.txid) = false := by
          simpa [TransactionRow.IsApart] using hapart
        simp [this]
    rw [putAll_cons, ih, putTransaction, List.filter_append, hold, List.append_assoc, hnew]

@[simp] theorem blocks_storeBlock (b : Block) : (t.storeBlock b).blocks =
    t.blocks.filter (fun r => !r.clashes ⟨b.height, b.hash⟩) ++ [⟨b.height, b.hash⟩] := by
  rw [storeBlock, blocks_putAll]
  rfl

@[simp] theorem inscriptions_storeBlock (b : Block) :
    (t.storeBlock b).inscriptions = t.inscriptions := by
  rw [storeBlock, inscriptions_putAll]
  rfl

/-- A stored block keeps the rows that neither stand at its height nor share an id with its own. -/
theorem transactions_storeBlock (b : Block) :
    (t.storeBlock b).transactions =
      t.transactions.filter
          (fun r => (b.rows.all fun s => !r.isFor s.txid) && !r.isAt b.height) ++
        b.rows.pwFilter TransactionRow.IsApart := by
  rw [storeBlock, transactions_putAll, transactions_putBlock, clearHeight, List.filter_filter]

/-! ## The rows of a height -/

/-- At its own height a stored block leaves its rows, of each id the last. -/
theorem rowsAt_storeBlock_self (b : Block) :
    (t.storeBlock b).rowsAt b.height = b.rows.pwFilter TransactionRow.IsApart := by
  have hold : ((t.transactions.filter
      fun r => (b.rows.all fun s => !r.isFor s.txid) && !r.isAt b.height).filter
        fun r => r.isAt b.height) = [] := by
    rw [List.filter_filter, List.filter_eq_nil_iff]
    intro r _
    simp only [Bool.and_eq_true, Bool.not_eq_true', not_and]
    intro hat hall hnot
    rw [hat] at hnot
    cases hnot
  have hnew : (b.rows.pwFilter TransactionRow.IsApart).filter (fun r => r.isAt b.height) =
      b.rows.pwFilter TransactionRow.IsApart := by
    refine List.filter_eq_self.2 fun r hr => ?_
    exact b.isAt_of_mem_rows (List.pwFilter_subset b.rows hr)
  rw [rowsAt, transactions_storeBlock, List.filter_append, hold, hnew, List.nil_append]

/-- From another height a stored block takes the rows that share an id with its own. -/
theorem rowsAt_storeBlock_of_ne {b : Block} {height : Int} (h : height ≠ b.height) :
    (t.storeBlock b).rowsAt height =
      (t.rowsAt height).filter fun r => b.rows.all fun s => !r.isFor s.txid := by
  have hnew : (b.rows.pwFilter TransactionRow.IsApart).filter (fun r => r.isAt height) = [] := by
    refine List.filter_eq_nil_iff.2 fun r hr hat => h ?_
    exact r.isAt_unique hat (b.isAt_of_mem_rows (List.pwFilter_subset b.rows hr))
  rw [rowsAt, transactions_storeBlock, List.filter_append, hnew, List.append_nil,
    List.filter_filter, rowsAt, List.filter_filter]
  refine List.filter_congr fun r _ => ?_
  by_cases hat : r.isAt height = true
  · have : r.isAt b.height = false := by
      rw [← Bool.not_eq_true]
      exact fun hb => h (r.isAt_unique hat hb)
    simp [hat, this]
  · simp [hat]

/-- A transaction put without a place takes the row with its id from each height. -/
theorem rowsAt_putTransaction_row (u : Transaction) (height : Int) :
    (t.putTransaction (u.row none)).rowsAt height =
      (t.rowsAt height).filter fun r => !r.isFor u.txid.cell? := by
  have hnew : ([u.row none].filter fun r => r.isAt height) = [] := rfl
  rw [rowsAt, putTransaction, List.filter_append, hnew, List.append_nil, rowsAt,
    List.filter_filter, List.filter_filter]
  refine List.filter_congr fun r _ => ?_
  rw [Bool.and_comm, Transaction.txid_row]

end Tables

/-! ## The stored forms of a height -/

/-- The stored forms of a height are those of its rows, if these stand in order. -/
theorem Index.documentsAt_eq {t : Tables} {height : Int}
    (h : (t.rowsAt height).Pairwise fun r s => r.position < s.position) :
    Index.documentsAt t height = (t.rowsAt height).map TransactionRow.document := by
  have hplaced (rows : List TransactionRow) :
      (rows.filterMap fun r =>
        if r.isAt height then r.place.map fun place => (place.position, r.document) else none) =
      (rows.filter fun r => r.isAt height).map fun r => (r.position, r.document) := by
    induction rows with
    | nil => rfl
    | cons r rest ih =>
      by_cases hat : r.isAt height = true
      · obtain ⟨position, hplace⟩ := TransactionRow.isAt_iff.1 hat
        simp [hat, hplace, ih, TransactionRow.position]
      · simp [hat, ih]
  have hsorted : ((t.rowsAt height).map fun r => (r.position, r.document)).Pairwise
      fun x y => decide (x.1 ≤ y.1) = true := by
    rw [List.pairwise_map]
    exact h.imp fun hlt => decide_eq_true (Nat.le_of_lt hlt)
  rw [Index.documentsAt, hplaced]
  change (((t.rowsAt height).map fun r => (r.position, r.document)).mergeSort _).map Prod.snd = _
  rw [List.mergeSort_of_pairwise hsorted, List.map_map]
  rfl

end InscriptionLedger
