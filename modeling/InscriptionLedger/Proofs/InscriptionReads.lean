import InscriptionLedger.Proofs.StoredBlocks

/-!
# Reads of inscriptions

In a run whose ids are texts, a row of the inscriptions is named by its id, and is found for that id
and for no other. The transactions of the blocks that are read have ids that are texts as well, no
two the same.

## Main definitions

* `Write.IsTextual`: writes whose ids are texts
* `Tables.IsTextual`: tables whose ids are texts

## Main results

* `Index.isTextual_run`: tables after a run of such writes are textual
* `Index.row?_eq_some_iff`: the row that is found for an id
* `Index.location?_eq_some_iff`, `Index.entry?_eq_some_iff`: what is read of an inscription
* `Tables.Holds.nodup_txid`: blocks have no transaction twice
-/

namespace InscriptionLedger

/-! ## Ids that are texts -/

/-- A write whose ids are texts. -/
def Write.IsTextual : Write → Prop
  | block _ _ transactions => ∀ t ∈ transactions, t.txid.IsText
  | transaction t => t.txid.IsText
  | inscription id _ _ _ => id.txid.IsText

/-- A write that names an inscription by a text, or none at all. -/
def Write.NamesText : Write → Prop
  | inscription id _ _ _ => id.txid.IsText
  | _ => True

theorem Write.IsTextual.namesText {w : Write} (h : w.IsTextual) : w.NamesText := by
  cases w with
  | block _ _ _ => trivial
  | transaction _ => trivial
  | inscription _ _ _ _ => exact h

theorem Write.IsTextual.isText_txid {w : Write} (h : w.IsTextual) {u : Transaction}
    (hu : u ∈ w.transactions) : u.txid.IsText := by
  cases w with
  | block hash height transactions => exact h u hu
  | transaction v =>
    obtain rfl := List.mem_singleton.1 hu
    exact h
  | inscription _ _ _ _ => cases hu

/-- A row of a transaction whose id is a text. -/
def TransactionRow.IsTextual (r : TransactionRow) : Prop :=
  ∃ (u : Transaction) (place : Option Place), r = u.row place ∧ u.txid.IsText

/-- A row of an inscription that is named by its id, which is a text. -/
structure InscriptionRow.IsTextual (r : InscriptionRow) : Prop where
  name : r.name = r.id.text
  txid : r.id.txid.IsText

/-- Tables whose ids are texts. -/
structure Tables.IsTextual (t : Tables) : Prop where
  transactions : ∀ r ∈ t.transactions, r.IsTextual
  inscriptions : ∀ r ∈ t.inscriptions, r.IsTextual

theorem InscriptionRow.isTextual_of_of? {id : InscriptionId} {fields : EntryFields}
    {content : Inscription} {location : Option SatPoint} {row : InscriptionRow}
    (htext : id.txid.IsText) (h : of? id fields content location = some row) : row.IsTextual := by
  obtain ⟨txid, index⟩ := id
  obtain ⟨s, rfl⟩ : txid.IsText := htext
  unfold of? at h
  simp only [TransactionId.cell?_ofText, Option.bind_eq_bind, Option.bind_some,
    Option.pure_def, Option.bind_eq_some_iff, Option.some.injEq] at h
  obtain ⟨entry, -, rfl⟩ := h
  exact ⟨rfl, s, rfl⟩

/-- Rows of inscriptions stay textual in a step that names no inscription by another id. -/
theorem Tables.Step.isTextual_inscriptions {t after : Tables} {w : Write} (hstep : t.Step w after)
    (hw : w.NamesText) (h : ∀ r ∈ t.inscriptions, r.IsTextual) :
    ∀ r ∈ after.inscriptions, r.IsTextual := by
  cases hstep with
  | block b _ =>
    rw [inscriptions_storeBlock]
    exact h
  | transaction _ _ => exact h
  | inscription _ complete =>
    intro r hr
    rcases mem_putInscription.1 hr with ⟨hr, -⟩ | rfl
    · exact h r hr
    · exact InscriptionRow.isTextual_of_of? hw complete

namespace Tables.IsTextual

theorem empty : ({} : Tables).IsTextual where
  transactions _ hr := by cases hr
  inscriptions _ hr := by cases hr

theorem step {t after : Tables} {w : Write} (h : t.IsTextual) (hw : w.IsTextual)
    (hstep : t.Step w after) : after.IsTextual := by
  constructor
  · intro r hr
    rcases hstep.mem_transactions hr with hr | ⟨u, hu, place, rfl⟩
    · exact h.transactions r hr
    · exact ⟨u, place, rfl, hw.isText_txid hu⟩
  · exact hstep.isTextual_inscriptions hw.namesText h.inscriptions

end Tables.IsTextual

/-- Tables after a run of writes whose ids are texts are textual. -/
theorem Index.isTextual_run {ws : List Write} (h : ∀ w ∈ ws, w.IsTextual) :
    (({} : Index).run ws).tables.IsTextual :=
  run_induction (P := fun _ t => t.IsTextual) .empty fun _ _ w _ hw hdone hstep =>
    hdone.step (h w hw) hstep

/-! ## Transactions of blocks -/

theorem TransactionRow.IsTextual.isText_of_denotes {r : TransactionRow} (h : r.IsTextual)
    {u : Transaction} (hu : r.Denotes u) : u.txid.IsText := by
  obtain ⟨v, place, rfl, hv⟩ := h
  rwa [Transaction.txid_of_ofStored?_toStored hu.document]

namespace Tables.Holds

variable {t : Tables} {b : Block}

theorem exists_row (h : t.Holds b) {u : Transaction} (hu : u ∈ b.transactions) :
    ∃ r ∈ t.rowsAt b.height, r.Denotes u := by
  obtain ⟨i, hi, rfl⟩ := List.getElem_of_mem hu
  obtain ⟨hlength, hall⟩ := List.forall₂_iff_get.1 h.transactions
  have hi' : i < (t.rowsAt b.height).length := hlength ▸ hi
  exact ⟨(t.rowsAt b.height)[i], List.getElem_mem hi', hall i hi' hi⟩

theorem isText_txid (h : t.Holds b) (htext : t.IsTextual) :
    ∀ u ∈ b.transactions, u.txid.IsText := by
  intro u hu
  obtain ⟨r, hr, hdenotes⟩ := h.exists_row hu
  exact (htext.transactions r (mem_rowsAt.1 hr).1).isText_of_denotes hdenotes

/-- No two transactions of a block have the same id. -/
theorem nodup_txid (h : t.Holds b) (hsound : t.IsSound) (htext : t.IsTextual) :
    (b.transactions.map Transaction.txid).Nodup := by
  have hcells : (t.rowsAt b.height).map TransactionRow.txid =
      b.transactions.map fun u => u.txid.cell? := by
    rw [← List.forall₂_eq_eq_eq, List.forall₂_map_left_iff, List.forall₂_map_right_iff]
    exact h.transactions.imp fun _ _ hdenotes => hdenotes.txid
  have hdistinct : ((t.rowsAt b.height).map TransactionRow.txid).Nodup := by
    refine List.pairwise_map.2 ((hsound.transactions.filter _).imp_of_mem ?_)
    intro r s hr _ hapart heq
    obtain ⟨u, place, rfl, v, hv⟩ := htext.transactions r (mem_rowsAt.1 hr).1
    have hcell : (u.row place).txid = some v := by
      rw [Transaction.txid_row, hv, TransactionId.cell?_ofText]
    exact TransactionRow.isApart_iff.1 hapart v hcell (heq.symm.trans hcell)
  rw [hcells] at hdistinct
  exact (Block.nodup_cells_iff (h.isText_txid htext)).1 hdistinct

end Tables.Holds

/-! ## Rows of inscriptions -/

theorem InscriptionRow.clashes_eq_false_iff_ne {r s : InscriptionRow} :
    r.clashes s = false ↔ r.name ≠ s.name ∧ r.entry.number ≠ s.entry.number := by
  rw [clashes, Bool.or_eq_false_iff, beq_eq_false_iff_ne, beq_eq_false_iff_ne]

namespace Tables.IsSound

variable {t : Tables} (h : t.IsSound)

include h

theorem pairwise_name : t.inscriptions.Pairwise fun r s => r.name ≠ s.name :=
  h.inscriptions.imp fun hclash => (InscriptionRow.clashes_eq_false_iff_ne.1 hclash).1

theorem pairwise_number : t.inscriptions.Pairwise fun r s => r.entry.number ≠ s.entry.number :=
  h.inscriptions.imp fun hclash => (InscriptionRow.clashes_eq_false_iff_ne.1 hclash).2

end Tables.IsSound

/-- A row is named by an id only if it is the row of the id. -/
theorem InscriptionRow.IsTextual.name_eq_iff {r : InscriptionRow} (h : r.IsTextual)
    {id : InscriptionId} (hid : id.txid.IsText) : r.name = id.text ↔ r.id = id := by
  rw [h.name]
  exact ⟨InscriptionId.text_injective h.txid hid, congrArg InscriptionId.text⟩

namespace Index

/-- The look-up of an id that can be written gives what it finds. -/
theorem row?_eq_ite {index : Index} (hopen : index.isClosed = false) (id : InscriptionId) :
    index.row? id =
      if id.isWritable then .ok (index.tables.inscriptions.find? fun r => r.name == id.text)
      else .error .unwritable := by
  unfold row?
  rw [query_eq hopen]
  cases id.isWritable <;> rfl

theorem row?_eq_ok_iff {index : Index} (hopen : index.isClosed = false) {id : InscriptionId}
    {found : Option InscriptionRow} :
    index.row? id = .ok found ↔ id.isWritable = true ∧
      (index.tables.inscriptions.find? fun r => r.name == id.text) = found := by
  rw [row?_eq_ite hopen]
  cases id.isWritable <;> simp

section

variable {index : Index} (hopen : index.isClosed = false) (hsound : index.tables.IsSound)
  (hnamed : ∀ r ∈ index.tables.inscriptions, r.IsTextual) {id : InscriptionId}
  (hid : id.txid.IsText)

include hopen hnamed hid

theorem row?_eq_none_iff :
    index.row? id = .ok none ↔
      id.isWritable = true ∧ ∀ r ∈ index.tables.inscriptions, r.id ≠ id := by
  rw [row?_eq_ok_iff hopen, List.find?_eq_none]
  refine and_congr_right fun _ => forall₂_congr fun r hr => ?_
  rw [beq_iff_eq, (hnamed r hr).name_eq_iff hid]

include hsound

/-- The row that is found for an id is the one of the id. -/
theorem row?_eq_some_iff {r : InscriptionRow} :
    index.row? id = .ok (some r) ↔ r ∈ index.tables.inscriptions ∧ r.id = id := by
  rw [row?_eq_ok_iff hopen, find?_key_eq_some_iff hsound.pairwise_name]
  constructor
  · exact fun ⟨_, hr, hname⟩ => ⟨hr, ((hnamed r hr).name_eq_iff hid).1 hname⟩
  · rintro ⟨hr, rfl⟩
    exact ⟨hsound.writable r hr, hr, (hnamed r hr).name⟩

theorem location?_eq_some_iff {place : SatPoint} :
    index.location? id = .ok (some place) ↔
      ∃ r ∈ index.tables.inscriptions, r.id = id ∧ r.location = some place := by
  unfold location?
  rw [Outcome.bind_eq_ok_iff]
  constructor
  · rintro ⟨o, ho, hplace⟩
    obtain ⟨r, rfl, hlocation⟩ := Option.bind_eq_some_iff.1 (Except.ok.inj hplace)
    obtain ⟨hr, hrid⟩ := (row?_eq_some_iff hopen hsound hnamed hid).1 ho
    exact ⟨r, hr, hrid, hlocation⟩
  · rintro ⟨r, hr, hrid, hlocation⟩
    refine ⟨some r, (row?_eq_some_iff hopen hsound hnamed hid).2 ⟨hr, hrid⟩, ?_⟩
    rw [Option.bind_some, hlocation]
    rfl

theorem entry?_eq_some_iff {e : Entry} :
    index.entry? id = .ok (some e) ↔
      ∃ r ∈ index.tables.inscriptions, r.id = id ∧ r.entry = e := by
  unfold entry?
  rw [Outcome.bind_eq_ok_iff]
  constructor
  · rintro ⟨o, ho, hentry⟩
    obtain ⟨r, rfl, hrecorded⟩ := Option.map_eq_some_iff.1 (Except.ok.inj hentry)
    obtain ⟨hr, hrid⟩ := (row?_eq_some_iff hopen hsound hnamed hid).1 ho
    exact ⟨r, hr, hrid, hrecorded⟩
  · rintro ⟨r, hr, hrid, rfl⟩
    exact ⟨some r, (row?_eq_some_iff hopen hsound hnamed hid).2 ⟨hr, hrid⟩, rfl⟩

end

/-- The look-up of a number that is not unreadable gives what it finds, if the number fits. -/
theorem idOfNumber?_eq_ite {index : Index} (hopen : index.isClosed = false) {n : Int}
    (h : n ∉ index.unreadableNumbers) :
    index.idOfNumber? n =
      if fitsColumn n then .ok ((index.tables.inscriptions.find? fun r => r.entry.number == n).map
        InscriptionRow.id)
      else .error .magnitude := by
  unfold idOfNumber?
  rw [if_neg (mt List.contains_iff_mem.1 h), query_eq hopen, requireFit, List.all_cons,
    List.all_nil, Bool.and_true]
  split <;> rfl

theorem idOfNumber?_eq {index : Index} (hopen : index.isClosed = false)
    (hreadable : index.unreadableNumbers = []) {number : Int} (hfit : fitsColumn number = true) :
    index.idOfNumber? number = .ok
      ((index.tables.inscriptions.find? fun r => r.entry.number == number).map
        InscriptionRow.id) := by
  rw [idOfNumber?_eq_ite hopen (by simp [hreadable]), if_pos hfit]

end Index

end InscriptionLedger
