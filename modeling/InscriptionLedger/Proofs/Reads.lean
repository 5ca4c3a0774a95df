import InscriptionLedger.Proofs.Runs
import InscriptionLedger.Proofs.StoredForm

/-!
# Reads of sound tables

In sound tables a row is found under each of its unique columns. A block that is read is one whose
row is there, and whose transactions are read from the rows of its height, in their order.

## Main definitions

* `BlockRef.IsFit`, `BlockRef.RefersTo`: references that can be looked up, and what they refer to
* `TransactionRow.Denotes`, `Tables.Holds`: what rows stand for, and the blocks that tables hold

## Main results

* `Index.block?_eq_some_iff`, `Index.block?_eq_none_iff`: reads of blocks
* `Index.heightOf?_eq_some_iff`, `Index.heightOf?_eq_none_iff`: reads of heights
* `Index.transaction?_eq_some_iff`, `Index.transaction?_eq_none_iff`: reads of transactions
-/

namespace InscriptionLedger

/-- Where at most one value of a list is looked for, a value that is looked for is found. -/
theorem find?_eq_some_iff_mem {α : Type} {p : α → Bool} {l : List α} {a : α}
    (h : l.Pairwise fun a b => p a = true → p b = false) :
    l.find? p = some a ↔ a ∈ l ∧ p a = true := by
  constructor
  · exact fun hfind => ⟨List.mem_of_find?_eq_some hfind, List.find?_some hfind⟩
  · rintro ⟨hmem, ha⟩
    induction l with
    | nil => cases hmem
    | cons b rest ih =>
      obtain ⟨hb, hrest⟩ := List.pairwise_cons.1 h
      rcases List.mem_cons.1 hmem with rfl | hmem
      · rw [List.find?_cons_of_pos ha]
      · have hpb : ¬p b = true := by
          intro hpb
          rw [hb a hmem hpb] at ha
          cases ha
        rw [List.find?_cons_of_neg hpb]
        exact ih hrest hmem

/-- Where no two values have one key, the value of a key is found under it. -/
theorem find?_key_eq_some_iff {α κ : Type} [BEq κ] [LawfulBEq κ] {key : α → κ} {l : List α} {a : α}
    (h : l.Pairwise fun a b => key a ≠ key b) {k : κ} :
    l.find? (fun a => key a == k) = some a ↔ a ∈ l ∧ key a = k := by
  have hunique : l.Pairwise fun a b => (key a == k) = true → (key b == k) = false := by
    refine h.imp fun {a b} hne ha => ?_
    rw [beq_eq_false_iff_ne]
    exact fun hb => hne ((eq_of_beq ha).trans hb.symm)
  rw [find?_eq_some_iff_mem hunique, beq_iff_eq]

/-- Texts are told apart by what cells hold of them. -/
theorem Block.nodup_cells_iff {b : Block} (h : ∀ u ∈ b.transactions, u.txid.IsText) :
    (b.transactions.map fun u => u.txid.cell?).Nodup ↔
      (b.transactions.map Transaction.txid).Nodup := by
  change (b.transactions.map (TransactionId.cell? ∘ Transaction.txid)).Nodup ↔ _
  rw [← List.map_map]
  refine ⟨List.Nodup.of_map _, List.Nodup.map_on ?_⟩
  intro x hx y hy heq
  obtain ⟨t, ht, rfl⟩ := List.mem_map.1 hx
  obtain ⟨u, hu, rfl⟩ := List.mem_map.1 hy
  exact ((h t ht).cell?_inj (h u hu)).1 heq

/-! ## Blocks -/

/-- A reference that can be looked up: a height must fit into a column. -/
def BlockRef.IsFit : BlockRef → Prop
  | height value => fitsColumn value = true
  | hash _ => True

/-- What a reference refers to. -/
def BlockRef.RefersTo : BlockRef → Block → Prop
  | height value, b => b.height = value
  | hash value, b => b.hash = value

/-- The transactions that a row stands for: the stored form reads as the transaction, and the row is
under its id. -/
structure TransactionRow.Denotes (r : TransactionRow) (u : Transaction) : Prop where
  txid : r.txid = u.txid.cell?
  document : Transaction.ofStored? r.document = .ok u

/-- The row of a block. -/
def Block.blockRow (b : Block) : BlockRow := ⟨b.height, b.hash⟩

theorem Index.isBlock_blockRow {ref : BlockRef} {b : Block} :
    Index.isBlock ref b.blockRow = true ↔ ref.RefersTo b := by
  cases ref <;> simp [Index.isBlock, Block.blockRow, BlockRef.RefersTo]

/-- The blocks that tables hold: the row of the block is there, and its transactions are those of
the rows of its height, in order. -/
structure Tables.Holds (t : Tables) (b : Block) : Prop where
  row : b.blockRow ∈ t.blocks
  transactions : List.Forall₂ TransactionRow.Denotes (t.rowsAt b.height) b.transactions

/-- In sound tables a row is under the id of the transaction that its stored form reads as. -/
theorem Tables.IsSound.denotes_iff {t : Tables} (h : t.IsSound) {r : TransactionRow}
    (hr : r ∈ t.transactions) {u : Transaction} :
    r.Denotes u ↔ Transaction.ofStored? r.document = .ok u := by
  refine ⟨TransactionRow.Denotes.document, fun hu => ⟨?_, hu⟩⟩
  obtain ⟨v, place, rfl⟩ := h.rows r hr
  rw [Transaction.txid_row, Transaction.txid_of_ofStored?_toStored hu]

theorem Tables.IsSound.forall₂_denotes_iff {t : Tables} (h : t.IsSound) {rows : List TransactionRow}
    (hrows : rows ⊆ t.transactions) {transactions : List Transaction} :
    List.Forall₂ TransactionRow.Denotes rows transactions ↔
      List.Forall₂ (fun r u => Transaction.ofStored? r.document = .ok u) rows transactions := by
  rw [List.forall₂_iff_get, List.forall₂_iff_get]
  refine and_congr_right fun _ => forall₃_congr fun i hi hi' => ?_
  exact h.denotes_iff (hrows (rows.get_mem ⟨i, hi⟩))

theorem Tables.IsSound.pairwise_isBlock {t : Tables} (h : t.IsSound) (ref : BlockRef) :
    t.blocks.Pairwise fun r s => Index.isBlock ref r = true → Index.isBlock ref s = false := by
  refine h.blocks.imp fun {r s} hclash hr => ?_
  simp only [BlockRow.clashes, Bool.or_eq_false_iff, beq_eq_false_iff_ne] at hclash
  rw [← Bool.not_eq_true]
  intro hs
  cases ref with
  | height value =>
    simp only [Index.isBlock, beq_iff_eq] at hr hs
    exact hclash.1 (hr.trans hs.symm)
  | hash value =>
    simp only [Index.isBlock, beq_iff_eq] at hr hs
    exact hclash.2 (hr.trans hs.symm)

theorem BlockRow.clashes_comm (r s : BlockRow) : r.clashes s = s.clashes r := by
  rw [clashes, clashes, BEq.comm (a := r.height), BEq.comm (a := r.hash)]

theorem Tables.IsSound.eq_of_clashes {t : Tables} (h : t.IsSound) {r s : BlockRow}
    (hr : r ∈ t.blocks) (hs : s ∈ t.blocks) (hclash : r.clashes s = true) : r = s := by
  have : Std.Symm fun r s : BlockRow => r.clashes s = false :=
    ⟨fun r s hrs => (s.clashes_comm r).trans hrs⟩
  by_contra hne
  rw [h.blocks.forall hr hs hne] at hclash
  cases hclash

namespace Index

variable {index : Index}

theorem query_eq (hopen : index.isClosed = false) (ns : List Int) :
    index.query ns = (requireFit ns).map fun _ => index.tables := by
  rw [query, hopen]
  cases requireFit ns <;> rfl

theorem query_of_not_fit (hopen : index.isClosed = false) {ns : List Int}
    (h : ¬∀ n ∈ ns, fitsColumn n = true) : index.query ns = .error .magnitude := by
  rw [query_eq hopen, requireFit, if_neg (by simpa using h)]
  rfl

theorem blockOfRow_eq_ok_iff {t : Tables} (hsound : t.IsSound) {row : BlockRow} {b : Block} :
    blockOfRow t row = .ok b ↔ row = b.blockRow ∧
      List.Forall₂ TransactionRow.Denotes (t.rowsAt b.height) b.transactions := by
  have hrows (height : Int) : t.rowsAt height ⊆ t.transactions :=
    List.Sublist.subset List.filter_sublist
  simp only [blockOfRow, documentsAt_eq (hsound.ordered _), Outcome.bind_eq_ok_iff,
    Outcome.mapM_eq_ok_iff, List.forall₂_map_left_iff, ← hsound.forall₂_denotes_iff (hrows _),
    Outcome.pure_eq_ok, Except.ok.injEq]
  constructor
  · rintro ⟨transactions, hread, rfl⟩
    exact ⟨rfl, hread⟩
  · rintro ⟨rfl, hread⟩
    exact ⟨b.transactions, hread, rfl⟩

theorem block?_eq (hopen : index.isClosed = false) (ref : BlockRef) (answer : Option Block) :
    index.block? ref = .ok answer ↔ ref.IsFit ∧
      match index.tables.blocks.find? (isBlock ref) with
      | some row => ∃ b, blockOfRow index.tables row = .ok b ∧ answer = some b
      | none => answer = none := by
  have hfit : (requireFit (match ref with | .height height => [height] | .hash _ => [])) = .ok () ↔
      ref.IsFit := by
    cases ref <;> simp [requireFit_eq_ok_iff, BlockRef.IsFit]
  unfold block?
  rw [query_eq hopen, Outcome.bind_eq_ok_iff]
  simp only [Outcome.map_eq_ok_iff]
  constructor
  · rintro ⟨t, ⟨⟨⟩, hrequire, rfl⟩, hanswer⟩
    refine ⟨hfit.1 hrequire, ?_⟩
    cases hrow : index.tables.blocks.find? (isBlock ref) with
    | none =>
      rw [hrow] at hanswer
      exact (Except.ok.inj hanswer).symm
    | some row =>
      rw [hrow] at hanswer
      obtain ⟨b, hb, hanswer⟩ := Outcome.bind_eq_ok_iff.1 hanswer
      exact ⟨b, hb, (Except.ok.inj hanswer).symm⟩
  · rintro ⟨hrequire, hanswer⟩
    refine ⟨index.tables, ⟨(), hfit.2 hrequire, rfl⟩, ?_⟩
    cases hrow : index.tables.blocks.find? (isBlock ref) with
    | none =>
      rw [hrow] at hanswer
      rw [show answer = none from hanswer]
      rfl
    | some row =>
      rw [hrow] at hanswer
      obtain ⟨b, hb, rfl⟩ := hanswer
      exact Outcome.bind_eq_ok_iff.2 ⟨b, hb, rfl⟩

/-- The blocks that are read are those that the tables hold. -/
theorem block?_eq_some_iff (hopen : index.isClosed = false) (hsound : index.tables.IsSound)
    {ref : BlockRef} {b : Block} :
    index.block? ref = .ok (some b) ↔ ref.IsFit ∧ ref.RefersTo b ∧ index.tables.Holds b := by
  rw [block?_eq hopen, ← isBlock_blockRow]
  have hfind := find?_eq_some_iff_mem (a := b.blockRow) (hsound.pairwise_isBlock ref)
  constructor
  · rintro ⟨hfit, hanswer⟩
    split at hanswer
    · next row hrow =>
      obtain ⟨b', hb, hsome⟩ := hanswer
      obtain rfl := Option.some.inj hsome
      obtain ⟨rfl, hread⟩ := (blockOfRow_eq_ok_iff hsound).1 hb
      obtain ⟨hmem, hblock⟩ := hfind.1 hrow
      exact ⟨hfit, hblock, hmem, hread⟩
    · cases hanswer
  · rintro ⟨hfit, hblock, hmem, hread⟩
    rw [hfind.2 ⟨hmem, hblock⟩]
    exact ⟨hfit, b, (blockOfRow_eq_ok_iff hsound).2 ⟨rfl, hread⟩, rfl⟩

/-- No block is read exactly where the tables have no row for one. -/
theorem block?_eq_none_iff (hopen : index.isClosed = false) {ref : BlockRef} :
    index.block? ref = .ok none ↔
      ref.IsFit ∧ ∀ row ∈ index.tables.blocks, isBlock ref row = false := by
  rw [block?_eq hopen]
  refine and_congr_right fun _ => ?_
  simp only [← Bool.not_eq_true, ← List.find?_eq_none]
  cases index.tables.blocks.find? (isBlock ref) <;> simp

theorem heightOf?_eq (hopen : index.isClosed = false) (hash : String) :
    index.heightOf? hash =
      .ok ((index.tables.blocks.find? (isBlock (.hash hash))).map BlockRow.height) := by
  rw [heightOf?, query_eq hopen]
  rfl

theorem heightOf?_eq_some_iff (hopen : index.isClosed = false) (hsound : index.tables.IsSound)
    {hash : String} {height : Int} :
    index.heightOf? hash = .ok (some height) ↔ ⟨height, hash⟩ ∈ index.tables.blocks := by
  have hfind (row : BlockRow) :=
    find?_eq_some_iff_mem (a := row) (hsound.pairwise_isBlock (.hash hash))
  simp only [heightOf?_eq hopen, Except.ok.injEq, Option.map_eq_some_iff, hfind, isBlock,
    beq_iff_eq]
  constructor
  · rintro ⟨row, ⟨hmem, rfl⟩, rfl⟩
    exact hmem
  · exact fun hmem => ⟨_, ⟨hmem, rfl⟩, rfl⟩

theorem heightOf?_eq_none_iff (hopen : index.isClosed = false) {hash : String} :
    index.heightOf? hash = .ok none ↔ ∀ row ∈ index.tables.blocks, row.hash ≠ hash := by
  simp [heightOf?_eq hopen, isBlock]

end Index

/-- Tables hold one block at a height. -/
theorem Tables.Holds.eq_of_height {t : Tables} (hsound : t.IsSound) {b c : Block} (hb : t.Holds b)
    (hc : t.Holds c) (h : b.height = c.height) : b = c := by
  let index : Index := { tables := t }
  have hreadb : index.block? (.height b.height) = .ok (some b) :=
    (Index.block?_eq_some_iff rfl hsound).2 ⟨hsound.heights _ hb.row, rfl, hb⟩
  have hreadc : index.block? (.height b.height) = .ok (some c) :=
    (Index.block?_eq_some_iff rfl hsound).2 ⟨hsound.heights _ hb.row, h.symm, hc⟩
  rw [hreadb] at hreadc
  exact Option.some.inj (Except.ok.inj hreadc)

/-! ## Transactions -/

theorem Tables.IsSound.pairwise_isFor {t : Tables} (h : t.IsSound) (txid : Option String) :
    t.transactions.Pairwise fun r s => r.isFor txid = true → s.isFor txid = false := by
  refine h.transactions.imp fun {r s} hapart hr => ?_
  obtain ⟨x, hrx, rfl⟩ := TransactionRow.isFor_iff.1 hr
  rw [← Bool.not_eq_true, TransactionRow.isFor_some]
  exact TransactionRow.isApart_iff.1 hapart x hrx

theorem Tables.IsSound.eq_of_isFor {t : Tables} (h : t.IsSound) {r s : TransactionRow}
    (hr : r ∈ t.transactions) (hs : s ∈ t.transactions) {txid : Option String}
    (hrfor : r.isFor txid = true) (hsfor : s.isFor txid = true) : r = s := by
  have hfind (u : TransactionRow) := find?_eq_some_iff_mem (a := u) (h.pairwise_isFor txid)
  have := (hfind r).2 ⟨hr, hrfor⟩
  rw [(hfind s).2 ⟨hs, hsfor⟩] at this
  exact (Option.some.inj this).symm

namespace Index

variable {index : Index}

/-- A row is found under an id exactly if it is there under it, since no other is. -/
theorem find?_isFor_eq_some_iff (hsound : index.tables.IsSound) {cell : Option String}
    {r : TransactionRow} :
    index.tables.transactions.find? (fun r => r.isFor cell) = some r ↔
      r ∈ index.tables.transactions ∧ r.isFor cell = true :=
  find?_eq_some_iff_mem (hsound.pairwise_isFor cell)

theorem transaction?_congr {t : Tables} {txid : TransactionId}
    (h : t.transactions.find? (fun r => r.isFor txid.cell?) =
      index.tables.transactions.find? fun r => r.isFor txid.cell?) :
    ({ index with tables := t } : Index).transaction? txid = index.transaction? txid := by
  unfold transaction? queryId query
  split
  · rfl
  · split
    · split
      · rfl
      · cases requireFit (txid.integers ++ []) with
        | error f => rfl
        | ok _ => simp [h]
    · rfl

theorem queryId_ofText (hopen : index.isClosed = false) (s : String) (ns : List Int) :
    index.queryId (.ofText s) ns = (requireFit ns).map fun _ => index.tables := by
  have hstorable : (TransactionId.ofText s).isStorable = true := rfl
  rw [queryId, if_pos (.inl hstorable), query_eq hopen, TransactionId.integers_ofText,
    List.nil_append]

/-- A transaction that can be asked for is read from the row under its id. -/
theorem transaction?_eq (hopen : index.isClosed = false) {txid : TransactionId}
    (hreadable : index.unreadableTransactions.contains txid = false)
    (hstorable : txid.isStorable = true) (hfit : ∀ n ∈ txid.integers, fitsColumn n = true) :
    index.transaction? txid =
      match index.tables.transactions.find? fun r => r.isFor txid.cell? with
      | some r => (Transaction.ofStored? r.document).map some
      | none => .ok none := by
  have hquery : index.queryId txid [] = .ok index.tables := by
    rw [queryId, if_pos (.inl hstorable), query_eq hopen, List.append_nil,
      requireFit_eq_ok_iff (u := ()).2 hfit]
    rfl
  unfold transaction?
  rw [hreadable, hquery, if_neg Bool.false_ne_true, Outcome.ok_bind]
  cases index.tables.transactions.find? fun r => r.isFor txid.cell? with
  | some r => cases hread : Transaction.ofStored? r.document <;> simp [hread, Except.map]
  | none => rfl

theorem transaction?_of_find?_some (hopen : index.isClosed = false)
    (hreadable : index.unreadableTransactions = []) {s : String} {r : TransactionRow}
    (h : index.tables.transactions.find? (fun r => r.isFor (some s)) = some r) :
    index.transaction? (.ofText s) = (Transaction.ofStored? r.document).map some := by
  rw [transaction?_eq hopen (by rw [hreadable]; rfl) rfl (by simp), TransactionId.cell?_ofText, h]

theorem transaction?_of_find?_none (hopen : index.isClosed = false)
    (hreadable : index.unreadableTransactions = []) {s : String}
    (h : index.tables.transactions.find? (fun r => r.isFor (some s)) = none) :
    index.transaction? (.ofText s) = .ok none := by
  rw [transaction?_eq hopen (by rw [hreadable]; rfl) rfl (by simp), TransactionId.cell?_ofText, h]

/-- The transaction that is read is the one that the row under the id denotes. -/
theorem transaction?_eq_some_iff (hopen : index.isClosed = false)
    (hreadable : index.unreadableTransactions = []) (hsound : index.tables.IsSound) {s : String}
    {u : Transaction} :
    index.transaction? (.ofText s) = .ok (some u) ↔
      ∃ r ∈ index.tables.transactions, r.txid = some s ∧ r.Denotes u := by
  have hfind (r : TransactionRow) :=
    find?_eq_some_iff_mem (a := r) (hsound.pairwise_isFor (some s))
  constructor
  · intro h
    cases hr : index.tables.transactions.find? fun r => r.isFor (some s) with
    | none =>
      rw [transaction?_of_find?_none hopen hreadable hr] at h
      cases h
    | some r =>
      rw [transaction?_of_find?_some hopen hreadable hr] at h
      obtain ⟨u', hu, hsome⟩ := Outcome.map_eq_ok_iff.1 h
      cases hsome
      obtain ⟨hmem, hfor⟩ := (hfind r).1 hr
      exact ⟨r, hmem, TransactionRow.isFor_some.1 hfor, (hsound.denotes_iff hmem).2 hu⟩
  · rintro ⟨r, hmem, htxid, hu⟩
    have hr := (hfind r).2 ⟨hmem, TransactionRow.isFor_some.2 htxid⟩
    rw [transaction?_of_find?_some hopen hreadable hr]
    exact Outcome.map_eq_ok_iff.2 ⟨u, hu.document, rfl⟩

/-- No transaction is read exactly where no row is under the id. -/
theorem transaction?_eq_none_iff (hopen : index.isClosed = false)
    (hreadable : index.unreadableTransactions = []) {s : String} :
    index.transaction? (.ofText s) = .ok none ↔
      ∀ r ∈ index.tables.transactions, r.txid ≠ some s := by
  have hfind : index.tables.transactions.find? (fun r => r.isFor (some s)) = none ↔
      ∀ r ∈ index.tables.transactions, r.txid ≠ some s := by
    simp only [List.find?_eq_none, TransactionRow.isFor_some, ne_eq]
  rw [← hfind]
  constructor
  · intro h
    cases hr : index.tables.transactions.find? fun r => r.isFor (some s) with
    | none => rfl
    | some r =>
      rw [transaction?_of_find?_some hopen hreadable hr] at h
      obtain ⟨_, -, hsome⟩ := Outcome.map_eq_ok_iff.1 h
      cases hsome
  · exact transaction?_of_find?_none hopen hreadable

end Index

end InscriptionLedger
