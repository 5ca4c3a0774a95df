import InscriptionLedger.Proofs.StoredBlocks

/-!
# The effect of storing a block

A proper block that is stored is found under its height and its hash, and its transactions under
their ids. What was stored at its height or under its hash before is found no more, except for
transactions that are its own. All else is answered as before; only blocks at other heights lose the
transactions that they share with it.

## Main definitions

* `Index.SameInscriptions`: indexes with the same answers about inscriptions
* `Index.IsStoredAt`: the transactions that are stored under a height
* `Index.BlockEffect`: the effect of storing a block on the answers

## Main results

* `Index.sameInscriptions_of_eq`: answers about inscriptions depend on their table only
* `Index.blockEffect_of_write`: storing a proper block has this effect
-/

namespace InscriptionLedger

/-! ## Answers about inscriptions -/

/-- Indexes with the same answers about inscriptions. -/
structure Index.SameInscriptions (before after : Index) : Prop where
  entry : ∀ id, after.entry? id = before.entry? id
  content : ∀ id, after.content? id = before.content? id
  location : ∀ id, after.location? id = before.location? id
  idOfNumber : ∀ number, after.idOfNumber? number = before.idOfNumber? number
  onOutput : ∀ p, after.onOutput p = before.onOutput p
  latest : ∀ count cursor, after.latest count cursor = before.latest count cursor

namespace Index

variable {index : Index} {t : Tables}

theorem query_bind_congr {β : Type} {f : Tables → Outcome β} (h : f t = f index.tables)
    (ns : List Int) :
    ({ index with tables := t } : Index).query ns >>= f = index.query ns >>= f := by
  unfold query
  split
  · rfl
  · cases requireFit ns with
    | error e => rfl
    | ok _ => exact h

theorem queryId_bind_congr {β : Type} {f : Tables → Outcome β} (h : f t = f index.tables)
    (txid : TransactionId) (ns : List Int) :
    ({ index with tables := t } : Index).queryId txid ns >>= f = index.queryId txid ns >>= f := by
  unfold queryId
  split
  · exact query_bind_congr h _
  · rfl

/-- Answers about inscriptions depend on the table of the inscriptions only. -/
theorem sameInscriptions_of_eq (h : t.inscriptions = index.tables.inscriptions) :
    index.SameInscriptions { index with tables := t } := by
  have hrow (id : InscriptionId) :
      ({ index with tables := t } : Index).row? id = index.row? id := by
    unfold row?
    exact bind_congr fun _ => query_bind_congr (by rw [h]) []
  constructor
  · intro id
    unfold entry?
    rw [hrow]
  · intro id
    unfold content?
    rw [hrow]
  · intro id
    unfold location?
    rw [hrow]
  · intro number
    unfold idOfNumber?
    split
    · rfl
    · exact query_bind_congr (by rw [h]) [number]
  · intro p
    unfold onOutput
    exact queryId_bind_congr (by rw [h]) p.txid [p.vout]
  · intro count cursor
    unfold latest
    exact query_bind_congr (by rw [h]) _

end Index

/-! ## Rows that are found -/

/-- In a list of which some values are left out and to which others are added, what is looked for is
found as before if it is neither left out nor added. -/
theorem find?_filter_append {α : Type} {l new : List α} {keep p : α → Bool}
    (hold : ∀ a ∈ l, p a = true → keep a = true) (hnew : ∀ a ∈ new, p a = false) :
    (l.filter keep ++ new).find? p = l.find? p := by
  have hnone : new.find? p = none := List.find?_eq_none.2 fun a ha => by simp [hnew a ha]
  rw [List.find?_append, hnone, Option.or_none, List.find?_filter]
  refine List.find?_congr fun a ha => ?_
  by_cases hp : p a = true
  · simp [hp, hold a ha hp]
  · simp [hp]

theorem Block.exists_row_mem {b : Block} {u : Transaction} (h : u ∈ b.transactions) :
    ∃ place, u.row place ∈ b.rows := by
  rw [← List.zipIdx_map_fst 0 b.transactions] at h
  obtain ⟨⟨u, position⟩, hmem, rfl⟩ := List.mem_map.1 h
  exact ⟨some ⟨b.height, position⟩, List.mem_map.2 ⟨_, hmem, rfl⟩⟩

/-! ## The effect -/

/-- A transaction is stored under a height, whether or not a block is. -/
def Index.IsStoredAt (index : Index) (height : Int) (txid : TransactionId) : Prop :=
  ∃ r ∈ index.tables.rowsAt height, r.isFor txid.cell? = true

/-- What storing a block makes of the answers. -/
structure Index.BlockEffect (before : Index) (b : Block) (after : Index) : Prop where
  byHeight : after.block? (.height b.height) = .ok (some b)
  byHash : after.block? (.hash b.hash) = .ok (some b)
  height : after.heightOf? b.hash = .ok (some b.height)
  transaction : ∀ u ∈ b.transactions, after.transaction? u.txid = .ok (some u)
  /-- Another hash that had the height is found no more. -/
  formerHash : ∀ hash, hash ≠ b.hash → before.heightOf? hash = .ok (some b.height) →
    after.block? (.hash hash) = .ok none ∧ after.heightOf? hash = .ok none
  /-- Another height that had the hash is found no more. -/
  formerHeight : ∀ height, height ≠ b.height → before.heightOf? b.hash = .ok (some height) →
    after.block? (.height height) = .ok none
  /-- Transactions that were stored under the height and are not in the block are found no more. -/
  formerTransaction : ∀ txid : TransactionId, txid.IsText → before.IsStoredAt b.height txid →
    (∀ u ∈ b.transactions, u.txid ≠ txid) → after.transaction? txid = .ok none
  /-- A block of another height and another hash loses what it shares with the one that is
  stored. -/
  sharedTransactions : ∀ ref c, before.block? ref = .ok (some c) → c.height ≠ b.height →
    c.hash ≠ b.hash → after.block? ref = .ok (some (c.without [.ofBlock b]))
  /-- Where the two share no id, it stays as it is. -/
  otherBlock : ∀ ref c, before.block? ref = .ok (some c) → c.height ≠ b.height →
    c.hash ≠ b.hash → (∀ u ∈ c.transactions, ∀ v ∈ b.transactions, u.txid.cell? ≠ v.txid.cell?) →
    after.block? ref = .ok (some c)
  absentBlock : ∀ ref : BlockRef, ¬ref.RefersTo b → before.block? ref = .ok none →
    after.block? ref = .ok none
  otherHeight : ∀ hash, hash ≠ b.hash → before.heightOf? hash ≠ .ok (some b.height) →
    after.heightOf? hash = before.heightOf? hash
  otherTransaction : ∀ txid : TransactionId, ¬before.IsStoredAt b.height txid →
    (∀ u ∈ b.transactions, u.txid.cell? ≠ txid.cell?) →
    after.transaction? txid = before.transaction? txid
  /-- Nothing that is read of inscriptions changes. -/
  inscriptions : before.SameInscriptions after

/-! ## Rows after a block is stored -/

namespace Tables

variable {t : Tables} {b : Block}

theorem mem_blocks_storeBlock {row : BlockRow} :
    row ∈ (t.storeBlock b).blocks ↔
      (row ∈ t.blocks ∧ row.height ≠ b.height ∧ row.hash ≠ b.hash) ∨ row = b.blockRow := by
  simp [BlockRow.clashes, Block.blockRow]

theorem mem_transactions_storeBlock (hproper : b.IsProper) {r : TransactionRow} :
    r ∈ (t.storeBlock b).transactions ↔
      (r ∈ t.transactions ∧ (∀ s ∈ b.rows, r.isFor s.txid = false) ∧ r.isAt b.height = false) ∨
        r ∈ b.rows := by
  rw [transactions_storeBlock, hproper.pwFilter_rows, List.mem_append, List.mem_filter]
  simp only [Bool.and_eq_true, List.all_eq_true, Bool.not_eq_true']

/-- The row that is found for an id is as before, if the block that is stored has no transaction of
the id, and none was stored at its height. -/
theorem find?_isFor_storeBlock (hproper : b.IsProper) {txid : Option String}
    (hheight : ∀ r ∈ t.rowsAt b.height, r.isFor txid = false)
    (hblock : ∀ u ∈ b.transactions, u.txid.cell? ≠ txid) :
    (t.storeBlock b).transactions.find? (fun r => r.isFor txid) =
      t.transactions.find? fun r => r.isFor txid := by
  have hrows : ∀ s ∈ b.rows, s.txid ≠ txid := by
    intro s hs
    obtain ⟨u, hu, _, rfl⟩ := b.mem_rows hs
    exact hblock u hu
  rw [transactions_storeBlock, hproper.pwFilter_rows]
  refine find?_filter_append ?_ ?_
  · -- A row with the id is not left out: it shares no id with the block, nor is it at its height.
    intro r hr hfor
    obtain ⟨x, hx, rfl⟩ := TransactionRow.isFor_iff.1 hfor
    simp only [Bool.and_eq_true, List.all_eq_true, Bool.not_eq_true', ← Bool.not_eq_true]
    constructor
    · intro s hs hshared
      obtain ⟨y, hy, hys⟩ := TransactionRow.isFor_iff.1 hshared
      exact hrows s hs (hys.trans (hy.symm.trans hx))
    · intro hat
      rw [hheight r (mem_rowsAt.2 ⟨hr, hat⟩)] at hfor
      cases hfor
  · -- No row of the block has the id.
    intro s hs
    rw [← Bool.not_eq_true]
    intro hfor
    obtain ⟨x, hx, hxs⟩ := TransactionRow.isFor_iff.1 hfor
    exact hrows s hs (hx.trans hxs.symm)

end Tables

/-! ## Storing a block has its effect -/

/-- The index with a block stored. -/
def Index.store (index : Index) (b : Block) : Index :=
  { index with tables := index.tables.storeBlock b }

namespace Index

variable {index : Index} {b : Block}

/-! ### Blocks -/

section Blocks

variable (hopen : index.isClosed = false) (hsound : index.tables.IsSound)
  (hstep : index.tables.Step (.ofBlock b) (index.tables.storeBlock b))

include hopen hsound hstep

/-- A block of another height and another hash loses what it shares with the one that is stored. -/
theorem block?_store_of_ne {ref : BlockRef} {c : Block} (hc : index.block? ref = .ok (some c))
    (hheight : c.height ≠ b.height) (hhash : c.hash ≠ b.hash) :
    (index.store b).block? ref = .ok (some (c.without [.ofBlock b])) := by
  obtain ⟨hfit, hrefers, hholds⟩ := (block?_eq_some_iff hopen hsound).1 hc
  have hleft : (index.store b).tables.Holds (c.without [.ofBlock b]) := by
    refine hstep.holds hholds ?_
    rintro ⟨d, hd, hreplaced⟩
    obtain rfl := Option.some.inj hd
    exact hreplaced.elim (fun h => hheight h.symm) fun h => hhash h.symm
  have hopen' : (index.store b).isClosed = false := hopen
  have hsound' : (index.store b).tables.IsSound := hsound.step hstep
  refine (block?_eq_some_iff hopen' hsound').2 ⟨hfit, ?_, hleft⟩
  cases ref with
  | height _ => exact hrefers
  | hash _ => exact hrefers

omit hstep in
/-- A hash that was stored at the height of the block, and at no other, is gone. -/
theorem hash_store_of_former {hash : String} (hne : hash ≠ b.hash)
    (hformer : index.heightOf? hash = .ok (some b.height)) :
    ∀ row ∈ (index.store b).tables.blocks, row.hash ≠ hash := by
  intro row hrow heq
  have hmem := (heightOf?_eq_some_iff hopen hsound).1 hformer
  rcases Tables.mem_blocks_storeBlock.1 hrow with ⟨hold, hheight, -⟩ | rfl
  · obtain rfl := hsound.eq_of_clashes hold hmem (by simp [BlockRow.clashes, heq])
    exact hheight rfl
  · exact hne heq.symm

omit hstep in
/-- A height that had the hash of the block, and no other, is gone. -/
theorem height_store_of_former {height : Int} (hne : height ≠ b.height)
    (hformer : index.heightOf? b.hash = .ok (some height)) :
    ∀ row ∈ (index.store b).tables.blocks, row.height ≠ height := by
  intro row hrow heq
  have hmem := (heightOf?_eq_some_iff hopen hsound).1 hformer
  rcases Tables.mem_blocks_storeBlock.1 hrow with ⟨hold, -, hhash⟩ | rfl
  · obtain rfl := hsound.eq_of_clashes hold hmem (by simp [BlockRow.clashes, heq])
    exact hhash rfl
  · exact hne heq.symm

theorem heightOf?_store_of_ne {hash : String} (hne : hash ≠ b.hash)
    (hformer : index.heightOf? hash ≠ .ok (some b.height)) :
    (index.store b).heightOf? hash = index.heightOf? hash := by
  have hopen' : (index.store b).isClosed = false := hopen
  have hsound' : (index.store b).tables.IsSound := hsound.step hstep
  have hbefore := heightOf?_eq hopen hash
  cases hfound : (index.tables.blocks.find? (isBlock (.hash hash))).map BlockRow.height with
  | none =>
    rw [hfound] at hbefore
    rw [hbefore, heightOf?_eq_none_iff hopen']
    intro row hrow
    rcases Tables.mem_blocks_storeBlock.1 hrow with ⟨hold, -⟩ | rfl
    · exact (heightOf?_eq_none_iff hopen).1 hbefore row hold
    · exact Ne.symm hne
  | some height =>
    rw [hfound] at hbefore
    rw [hbefore, heightOf?_eq_some_iff hopen' hsound']
    have hmem := (heightOf?_eq_some_iff hopen hsound).1 hbefore
    refine Tables.mem_blocks_storeBlock.2 (.inl ⟨hmem, ?_, hne⟩)
    rintro rfl
    exact hformer hbefore

end Blocks

/-! ### Transactions -/

theorem transaction?_store (hopen : (index.store b).isClosed = false)
    (hreadable : (index.store b).unreadableTransactions = [])
    (hsound : (index.store b).tables.IsSound) (hproper : b.IsProper) {u : Transaction}
    (hu : u ∈ b.transactions) : (index.store b).transaction? u.txid = .ok (some u) := by
  obtain ⟨s, hs⟩ := hproper.text u hu
  obtain ⟨place, hrow⟩ := b.exists_row_mem hu
  rw [hs]
  refine (transaction?_eq_some_iff hopen hreadable hsound).2
    ⟨u.row place, (Tables.mem_transactions_storeBlock hproper).2 (.inr hrow), ?_, rfl, ?_⟩
  · rw [Transaction.txid_row, hs, TransactionId.cell?_ofText]
  · exact Transaction.ofStored?_toStored (hproper.readable u hu)

/-- A transaction that was stored at the height of the block, and is not in it, is found no more. -/
theorem transaction?_store_of_isStoredAt (hopen : (index.store b).isClosed = false)
    (hreadable : (index.store b).unreadableTransactions = []) (hsound : index.tables.IsSound)
    (hproper : b.IsProper) {txid : TransactionId} (htext : txid.IsText)
    (hstored : index.IsStoredAt b.height txid) (hblock : ∀ u ∈ b.transactions, u.txid ≠ txid) :
    (index.store b).transaction? txid = .ok none := by
  obtain ⟨s, rfl⟩ := htext
  obtain ⟨r, hr, hfor⟩ := hstored
  obtain ⟨hmem, hat⟩ := Tables.mem_rowsAt.1 hr
  refine (transaction?_eq_none_iff hopen hreadable).2 fun r' hr' htxid => ?_
  rcases (Tables.mem_transactions_storeBlock hproper).1 hr' with ⟨hold, -, hnot⟩ | hnew
  · -- The row that was kept would be the one at the height, which was not.
    obtain rfl := hsound.eq_of_isFor hmem hold hfor (TransactionRow.isFor_some.2 htxid)
    rw [hat] at hnot
    cases hnot
  · obtain ⟨u, hu, _, rfl⟩ := b.mem_rows hnew
    exact hblock u hu (((hproper.text u hu).cell?_inj ⟨s, rfl⟩).1 htxid)

/-! ### All answers -/

theorem blockEffect_of_step (hopen : index.isClosed = false)
    (hreadable : index.unreadableTransactions = []) (hsound : index.tables.IsSound)
    (hproper : b.IsProper) (hstep : index.tables.Step (.ofBlock b) (index.tables.storeBlock b)) :
    index.BlockEffect b (index.store b) := by
  have hopen' : (index.store b).isClosed = false := hopen
  have hreadable' : (index.store b).unreadableTransactions = [] := hreadable
  have hsound' : (index.store b).tables.IsSound := hsound.step hstep
  have hread (ref : BlockRef) (hfit : ref.IsFit) (hrefers : ref.RefersTo b) :=
    (block?_eq_some_iff hopen' hsound').2 ⟨hfit, hrefers, hproper.holds_storeBlock index.tables⟩
  constructor
  case byHeight => exact hread (.height b.height) (hstep.fitsColumn_height rfl) rfl
  case byHash => exact hread (.hash b.hash) trivial rfl
  case height =>
    exact (heightOf?_eq_some_iff hopen' hsound').2 (Tables.mem_blocks_storeBlock.2 (.inr rfl))
  case transaction =>
    intro u hu
    exact transaction?_store hopen' hreadable' hsound' hproper hu
  case formerHash =>
    intro hash hne hformer
    have hgone := hash_store_of_former hopen hsound hne hformer
    refine ⟨(block?_eq_none_iff hopen').2 ⟨trivial, ?_⟩, (heightOf?_eq_none_iff hopen').2 hgone⟩
    intro row hrow
    simpa [isBlock] using hgone row hrow
  case formerHeight =>
    intro height hne hformer
    have hgone := height_store_of_former hopen hsound hne hformer
    have hmem := (heightOf?_eq_some_iff hopen hsound).1 hformer
    refine (block?_eq_none_iff hopen').2 ⟨hsound.heights _ hmem, ?_⟩
    intro row hrow
    simpa [isBlock] using hgone row hrow
  case formerTransaction =>
    intro txid htext hstored hblock
    exact transaction?_store_of_isStoredAt hopen' hreadable' hsound hproper htext hstored hblock
  case sharedTransactions =>
    intro ref c hc hheight hhash
    exact block?_store_of_ne hopen hsound hstep hc hheight hhash
  case otherBlock =>
    intro ref c hc hheight hhash hapart
    rw [block?_store_of_ne hopen hsound hstep hc hheight hhash, Block.without_eq_self]
    intro u hu w hw
    obtain rfl := List.mem_singleton.1 hw
    rw [← Bool.not_eq_true, Write.stores_iff]
    rintro ⟨v, hv, -, heq⟩
    exact hapart u hu v hv heq
  case absentBlock =>
    intro ref hrefers habsent
    obtain ⟨hfit, hnone⟩ := (block?_eq_none_iff hopen).1 habsent
    refine (block?_eq_none_iff hopen').2 ⟨hfit, fun row hrow => ?_⟩
    rcases Tables.mem_blocks_storeBlock.1 hrow with ⟨hold, -⟩ | rfl
    · exact hnone row hold
    · rwa [← isBlock_blockRow, Bool.not_eq_true] at hrefers
  case otherHeight =>
    intro hash hne hformer
    exact heightOf?_store_of_ne hopen hsound hstep hne hformer
  case otherTransaction =>
    intro txid hheight hblock
    refine transaction?_congr (Tables.find?_isFor_storeBlock hproper ?_ hblock)
    intro r hr
    rw [← Bool.not_eq_true]
    exact fun hfor => hheight ⟨r, hr, hfor⟩
  case inscriptions => exact sameInscriptions_of_eq (Tables.inscriptions_storeBlock b)

/-- A proper block that is stored after a run has its effect. -/
theorem blockEffect_of_write {ws : List Write} (hproper : b.IsProper) {after : Index}
    (hwrite : (({} : Index).run ws).write (.ofBlock b) = (after, none)) :
    (({} : Index).run ws).BlockEffect b after := by
  obtain ⟨hopen, t, hstep, rfl⟩ := write_eq_none_iff.1 hwrite
  obtain rfl := hstep.eq_storeBlock (Write.block?_ofBlock b)
  have hreadable : (({} : Index).run ws).unreadableTransactions = [] :=
    unreadableTransactions_run {} ws
  exact blockEffect_of_step hopen hreadable (isSound_run ws) hproper hstep

/-- A block that takes the height of one block, the hash of another and a transaction of a third. -/
theorem blockEffect_of_write_moved :
    let index := ({} : Index).run [.ofBlock ⟨"b1", 5, [.bare "a1"]⟩,
      .ofBlock ⟨"b2", 6, [.bare "a2"]⟩, .ofBlock ⟨"b3", 7, [.bare "a3", .bare "a4"]⟩]
    index.BlockEffect ⟨"b2", 5, [.bare "a2", .bare "a3"]⟩
      (index.write (.ofBlock ⟨"b2", 5, [.bare "a2", .bare "a3"]⟩)).1 := by
  have hproper : Block.IsProper ⟨"b2", 5, [.bare "a2", .bare "a3"]⟩ :=
    Block.isProper_bare "b2" 5 (show ["a2", "a3"].Nodup by decide)
  exact blockEffect_of_write hproper (Prod.ext rfl rfl)

end Index

end InscriptionLedger
