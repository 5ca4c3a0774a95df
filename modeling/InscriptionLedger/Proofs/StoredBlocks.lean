import InscriptionLedger.Proofs.Reads

/-!
# Stored blocks

What becomes of a block in the writes that follow. The rows of a height are those of the last block
that was stored there, less those whose transactions were stored again since. A block that is read
at a height is therefore a part of the last block written there, and a block that is written stays
as it is up to the transactions that are stored again.

## Main definitions

* `Write.block?`, `Write.stores`: the block of a write, and the ids of which it stores transactions
* `lastBlock?`: the last block at a height
* `Block.IsProper`: blocks that read back
* `Tables.Follows`: how the tables come from the writes that were done

## Main results

* `Tables.Step.rowsAt_of_ne`: what a step leaves of the rows of a height
* `Index.block?_height_run`: a block that is read is a part of the last one written at its height
* `Index.not_forall_block?_sublist`: what is read of a transaction may differ from it
* `Index.block?_run_of_stored`: a block that was written, read after further writes
-/

namespace InscriptionLedger

/-! ## Blocks and transactions of a write -/

namespace Write

/-- The block of a write. -/
def block? : Write → Option Block
  | block (some hash) (some height) transactions => some ⟨hash, height, transactions⟩
  | _ => none

/-- The transactions of a write. -/
def transactions : Write → List Transaction
  | block _ _ transactions => transactions
  | transaction t => [t]
  | inscription .. => []

/-- Whether a write stores a transaction under an id; none is stored under an empty cell. -/
def stores (txid : Option String) (w : Write) : Bool :=
  w.transactions.any fun t => txid.isSome && txid == t.txid.cell?

@[simp] theorem block?_ofBlock (b : Block) : (ofBlock b).block? = some b := rfl

theorem stores_iff {txid : Option String} {w : Write} :
    w.stores txid = true ↔ ∃ t ∈ w.transactions, txid.isSome = true ∧ txid = t.txid.cell? := by
  simp [stores]

end Write

/-- The last block at a height among writes. -/
def lastBlock? (height : Int) (ws : List Write) : Option Block :=
  ((ws.filterMap Write.block?).filter fun b => b.height == height).getLast?

theorem lastBlock?_append_of_none {height : Int} {ws : List Write} {w : Write}
    (h : ∀ b, w.block? = some b → b.height ≠ height) :
    lastBlock? height (ws ++ [w]) = lastBlock? height ws := by
  have hw : ([w].filterMap Write.block?).filter (fun b => b.height == height) = [] := by
    refine List.filter_eq_nil_iff.2 fun b hb => ?_
    simpa using h b (by simpa using hb)
  rw [lastBlock?, List.filterMap_append, List.filter_append, hw, List.append_nil, lastBlock?]

theorem lastBlock?_append_of_block {ws : List Write} {w : Write} {b : Block}
    (h : w.block? = some b) : lastBlock? b.height (ws ++ [w]) = some b := by
  simp [lastBlock?, h]

/-! ## What a step leaves -/

namespace Tables.Step

variable {t after : Tables} {w : Write}

theorem eq_storeBlock (hstep : t.Step w after) {b : Block} (hb : w.block? = some b) :
    after = t.storeBlock b := by
  cases hstep with
  | block c _ =>
    obtain rfl := Option.some.inj hb
    rfl
  | transaction _ _ => cases hb
  | inscription _ _ => cases hb

theorem fitsColumn_height (hstep : t.Step w after) {b : Block} (hb : w.block? = some b) :
    fitsColumn b.height = true := by
  cases hstep with
  | block c fit =>
    obtain rfl := Option.some.inj hb
    exact c.fitsColumn_height fit
  | transaction _ _ => cases hb
  | inscription _ _ => cases hb

theorem blocks_of_none (hstep : t.Step w after) (hw : w.block? = none) :
    after.blocks = t.blocks := by
  cases hstep with
  | block c _ => cases hw
  | transaction _ _ => rfl
  | inscription _ _ => rfl

theorem mem_blocks (hstep : t.Step w after) {row : BlockRow} (hrow : row ∈ t.blocks)
    (h : ∀ b, w.block? = some b → row.clashes b.blockRow = false) : row ∈ after.blocks := by
  cases hw : w.block? with
  | none =>
    rw [hstep.blocks_of_none hw]
    exact hrow
  | some b =>
    rw [hstep.eq_storeBlock hw, blocks_storeBlock, List.mem_append, List.mem_filter]
    exact .inl ⟨hrow, by simpa [Block.blockRow] using h b hw⟩

/-- Behind a step stand rows that were there, and rows of the transactions of the write. -/
theorem mem_transactions (hstep : t.Step w after) {r : TransactionRow}
    (hr : r ∈ after.transactions) :
    r ∈ t.transactions ∨ ∃ u ∈ w.transactions, ∃ place, r = u.row place := by
  cases hstep with
  | block b _ =>
    rw [transactions_storeBlock, List.mem_append] at hr
    rcases hr with hr | hr
    · exact .inl (List.mem_filter.1 hr).1
    · obtain ⟨u, hu, position, rfl⟩ := b.mem_rows (List.pwFilter_subset _ hr)
      exact .inr ⟨u, hu, _, rfl⟩
  | transaction u _ =>
    rcases mem_putTransaction.1 hr with ⟨hr, -⟩ | rfl
    · exact .inl hr
    · exact .inr ⟨u, List.mem_singleton_self u, none, rfl⟩
  | inscription _ _ => exact .inl hr

/-- Unless a step writes a block at a height, it leaves of the rows there those whose transactions
it does not store again. -/
theorem rowsAt_of_ne (hstep : t.Step w after) {height : Int}
    (h : ∀ b, w.block? = some b → b.height ≠ height) :
    after.rowsAt height = (t.rowsAt height).filter fun r => !w.stores r.txid := by
  cases hstep with
  | block b _ =>
    rw [rowsAt_storeBlock_of_ne (Ne.symm (h b rfl))]
    refine List.filter_congr fun r _ => ?_
    have hall : (b.rows.all fun s => !r.isFor s.txid) =
        (b.rows.map TransactionRow.txid).all fun txid => !r.isFor txid := by
      rw [List.all_map]
      rfl
    rw [hall, Block.map_txid_rows, List.all_map, Write.stores, List.any_eq_not_all_not,
      Bool.not_not]
    rfl
  | transaction u _ =>
    rw [rowsAt_putTransaction_row]
    refine List.filter_congr fun r _ => ?_
    rw [Write.stores, Write.transactions, List.any_cons, List.any_nil, Bool.or_false]
    rfl
  | inscription _ _ =>
    refine (List.filter_eq_self.2 ?_).symm
    intro r _
    rfl

end Tables.Step

/-! ## Blocks read at a height -/

/-- How the tables come from the writes that were done: the rows of a height are among those of the
last block there, in order, and the blocks are the last ones of their heights. -/
structure Tables.Follows (done : List Write) (t : Tables) : Prop where
  rows : ∀ height, (t.rowsAt height).Sublist (((lastBlock? height done).map Block.rows).getD [])
  blocks : ∀ row ∈ t.blocks, ∃ b, lastBlock? row.height done = some b ∧ b.blockRow = row

namespace Tables.Follows

theorem empty : Tables.Follows [] {} where
  rows _ := .slnil
  blocks _ hrow := by cases hrow

/-- Each step adds its write to those that the tables come from. -/
theorem step {done : List Write} {t after : Tables} {w : Write} (h : t.Follows done)
    (hstep : t.Step w after) : after.Follows (done ++ [w]) where
  rows height := by
    -- This holds whether or not a block is at the height: one that gives its hash to a block at
    -- another height leaves its rows behind, until a block is written at the height again.
    by_cases hw : ∀ b, w.block? = some b → b.height ≠ height
    · rw [hstep.rowsAt_of_ne hw, lastBlock?_append_of_none hw]
      exact List.filter_sublist.trans (h.rows height)
    · push Not at hw
      obtain ⟨b, hb, rfl⟩ := hw
      rw [hstep.eq_storeBlock hb, rowsAt_storeBlock_self, lastBlock?_append_of_block hb]
      exact List.pwFilter_sublist b.rows
  blocks row hrow := by
    cases hw : w.block? with
    | none =>
      rw [lastBlock?_append_of_none (by simp [hw])]
      rw [hstep.blocks_of_none hw] at hrow
      exact h.blocks row hrow
    | some b =>
      rw [hstep.eq_storeBlock hw, blocks_storeBlock, List.mem_append, List.mem_filter] at hrow
      rcases hrow with ⟨hrow, hclash⟩ | hrow
      · -- A row that is kept is at another height, where the last block is as before.
        simp only [BlockRow.clashes, Bool.not_eq_true', Bool.or_eq_false_iff,
          beq_eq_false_iff_ne] at hclash
        rw [lastBlock?_append_of_none]
        · exact h.blocks row hrow
        · intro c hc
          obtain rfl : b = c := Option.some.inj (hw.symm.trans hc)
          exact Ne.symm hclash.1
      · obtain rfl := List.mem_singleton.1 hrow
        exact ⟨b, lastBlock?_append_of_block hw, rfl⟩

end Tables.Follows

theorem Index.follows_run (ws : List Write) :
    (({} : Index).run ws).tables.Follows (({} : Index).accepted ws) :=
  run_induction (P := fun done t => t.Follows done) .empty fun _ _ _ _ _ hdone hstep =>
    hdone.step hstep

theorem Block.exists_of_sublist_rows {b : Block} {rows : List TransactionRow}
    (h : rows.Sublist b.rows) : ∃ kept : List Transaction, kept.Sublist b.transactions ∧
      rows.map TransactionRow.document = kept.map Transaction.toStored := by
  have hmap := h.map TransactionRow.document
  rw [map_document_rows] at hmap
  exact List.sublist_map_iff.1 hmap

/-- A block that is read at a height after a run is a part of the last block that was written there:
it has its hash, and what is read back of some of its transactions, in order. What is read back of a
readable transaction is the transaction. -/
theorem Index.block?_height_run {ws : List Write} {height : Int} {c : Block}
    (h : (({} : Index).run ws).block? (.height height) = .ok (some c)) :
    ∃ b, lastBlock? height (({} : Index).accepted ws) = some b ∧
      c.hash = b.hash ∧ c.height = height ∧
      (∃ kept : List Transaction, kept.Sublist b.transactions ∧
        kept.mapM (fun t => Transaction.ofStored? t.toStored) = .ok c.transactions) ∧
      ((∀ t ∈ b.transactions, t.IsReadable) → c.transactions.Sublist b.transactions) := by
  obtain ⟨-, rfl, hrow, hread⟩ := (block?_eq_some_iff (isClosed_run {} ws) (isSound_run ws)).1 h
  obtain ⟨b, hlast, hb⟩ := (follows_run ws).blocks _ hrow
  have hrows := (follows_run ws).rows c.height
  rw [show c.blockRow.height = c.height from rfl] at hlast
  rw [hlast] at hrows
  obtain ⟨kept, hkept, hdocuments⟩ := b.exists_of_sublist_rows hrows
  have hback : List.Forall₂ (fun t u => Transaction.ofStored? t.toStored = .ok u) kept
      c.transactions := by
    have : List.Forall₂ (fun document u => Transaction.ofStored? document = .ok u)
        (kept.map Transaction.toStored) c.transactions := by
      rw [← hdocuments, List.forall₂_map_left_iff]
      exact hread.imp fun _ _ hdenotes => hdenotes.document
    exact List.forall₂_map_left_iff.1 this
  have hback := Outcome.mapM_eq_ok_iff.2 hback
  refine ⟨b, hlast, (congrArg BlockRow.hash hb).symm, rfl, ⟨kept, hkept, hback⟩, ?_⟩
  intro hreadable
  have hsame : kept.mapM (fun t => Transaction.ofStored? t.toStored) = .ok (kept.map id) :=
    Outcome.mapM_eq_ok_map fun t ht =>
      Transaction.ofStored?_toStored (hreadable t (hkept.subset ht))
  rw [hback, List.map_id] at hsame
  rw [Except.ok.inj hsame]
  exact hkept

/-- A block whose height is written twice, and one of whose transactions is stored again. -/
theorem Index.block?_height_run_replaced :
    let ws : List Write := [.ofBlock ⟨"b1", 5, [.bare "a1"]⟩,
      .ofBlock ⟨"b2", 5, [.bare "a2", .bare "a3"]⟩, .transaction (.bare "a2")]
    (({} : Index).run ws).block? (.height 5) = .ok (some ⟨"b2", 5, [.bare "a3"]⟩) ∧
      ∃ b, lastBlock? 5 (({} : Index).accepted ws) = some b ∧ b.hash = "b2" ∧
        [Transaction.bare "a3"].Sublist b.transactions := by
  intro ws
  have hread : (({} : Index).run ws).block? (.height 5) = .ok (some ⟨"b2", 5, [.bare "a3"]⟩) := by
    cbv
  obtain ⟨b, hlast, hhash, -, -, hkept⟩ := block?_height_run hread
  have hb : lastBlock? 5 (({} : Index).accepted ws) =
      some ⟨"b2", 5, [.bare "a2", .bare "a3"]⟩ := by
    cbv
  obtain rfl := Option.some.inj (hlast.symm.trans hb)
  refine ⟨hread, _, hlast, hhash.symm, hkept ?_⟩
  simp [Transaction.isReadable_bare]

/-- A block need not be read with its own transactions: an output of a transaction whose id starts
with a blank is read without the blank. -/
theorem Index.not_forall_block?_sublist :
    ¬∀ (ws : List Write) (height : Int) (c : Block),
      (({} : Index).run ws).block? (.height height) = .ok (some c) →
        ∃ b, lastBlock? height (({} : Index).accepted ws) = some b ∧
          c.transactions.Sublist b.transactions := by
  intro hall
  let spending (txid : String) : Transaction := ⟨.ofText "a1", [⟨some ⟨.ofText txid, 0⟩, []⟩], []⟩
  let ws : List Write := [.ofBlock ⟨"b1", 5, [spending " a"]⟩]
  have hread : (({} : Index).run ws).block? (.height 5) =
      .ok (some ⟨"b1", 5, [spending "a"]⟩) := by
    dsimp only [ws, spending]
    cbv
  have hlast : lastBlock? 5 (({} : Index).accepted ws) =
      some ⟨"b1", 5, [spending " a"]⟩ := by
    dsimp only [ws, spending]
    cbv
  obtain ⟨b, hb, hkept⟩ := hall ws 5 _ hread
  obtain rfl := Option.some.inj (hlast.symm.trans hb)
  have hmem := hkept.subset (List.mem_singleton_self _)
  have hsame : spending "a" ≠ spending " a" := by
    simp [spending, TransactionId.ofText]
  exact hsame (List.mem_singleton.1 hmem)

/-! ## Blocks after further writes -/

/-- Whether a write stores a block of the height or of the hash of a given one. -/
def Write.Replaces (w : Write) (b : Block) : Prop :=
  ∃ c, w.block? = some c ∧ (c.height = b.height ∨ c.hash = b.hash)

theorem Write.not_replaces_transaction (u : Transaction) (b : Block) :
    ¬(Write.transaction u).Replaces b := by
  rintro ⟨c, hc, -⟩
  cases hc

/-- A block without the transactions that writes store again. -/
def Block.without (b : Block) (ws : List Write) : Block :=
  { b with transactions := b.transactions.filter fun t => !ws.any (Write.stores t.txid.cell?) }

@[simp] theorem Block.without_nil (b : Block) : b.without [] = b := by
  simp [without]

theorem Block.without_append (b : Block) (first second : List Write) :
    b.without (first ++ second) = (b.without first).without second := by
  simp only [without, List.filter_filter, List.any_append, Bool.not_or, Bool.and_comm]

theorem Block.without_eq_self {b : Block} {ws : List Write}
    (h : ∀ t ∈ b.transactions, ∀ w ∈ ws, w.stores t.txid.cell? = false) : b.without ws = b := by
  have : b.transactions.filter (fun t => !ws.any (Write.stores t.txid.cell?)) = b.transactions := by
    refine List.filter_eq_self.2 fun t ht => ?_
    simpa using h t ht
  rw [without, this]

/-- A step that does not replace a block leaves it without the transactions that it stores again. -/
theorem Tables.Step.holds {t after : Tables} {w : Write} (hstep : t.Step w after) {b : Block}
    (hb : t.Holds b) (h : ¬w.Replaces b) : after.Holds (b.without [w]) where
  row := by
    refine hstep.mem_blocks hb.row fun c hc => ?_
    simp only [BlockRow.clashes, Block.blockRow, Bool.or_eq_false_iff, beq_eq_false_iff_ne]
    constructor
    · exact fun hheight => h ⟨c, hc, .inl hheight.symm⟩
    · exact fun hhash => h ⟨c, hc, .inr hhash.symm⟩
  transactions := by
    have hrows : after.rowsAt b.height = (t.rowsAt b.height).filter fun r => !w.stores r.txid :=
      hstep.rowsAt_of_ne fun c hc hheight => h ⟨c, hc, .inl hheight⟩
    change List.Forall₂ _ (after.rowsAt b.height) (b.transactions.filter _)
    rw [hrows]
    refine List.rel_filter ?_ hb.transactions
    intro r u hdenotes
    simp [hdenotes.txid]

theorem Index.holds_run {index : Index} {ws : List Write} {b : Block} (hb : index.tables.Holds b)
    (h : ∀ w ∈ index.accepted ws, ¬w.Replaces b) :
    (index.run ws).tables.Holds (b.without (index.accepted ws)) := by
  revert h
  refine run_induction (P := fun done t => (∀ w ∈ done, ¬w.Replaces b) → t.Holds (b.without done))
    ?_ ?_
  · intro _
    rwa [Block.without_nil]
  · intro done t w after _ hdone hstep hleft
    rw [Block.without_append]
    refine hstep.holds (hdone fun v hv => hleft v (List.mem_append_left _ hv)) ?_
    exact hleft w (List.mem_append_right _ (List.mem_singleton_self w))

/-! ## Blocks that read back -/

/-- A block that reads back: so do its transactions, whose ids are texts, no two the same. -/
structure Block.IsProper (b : Block) : Prop where
  readable : ∀ t ∈ b.transactions, t.IsReadable
  text : ∀ t ∈ b.transactions, t.txid.IsText
  nodup : (b.transactions.map Transaction.txid).Nodup

namespace Block.IsProper

variable {b : Block}

theorem pwFilter_rows (h : b.IsProper) : b.rows.pwFilter TransactionRow.IsApart = b.rows := by
  have hcells := (nodup_cells_iff h.text).2 h.nodup
  rw [← map_txid_rows] at hcells
  refine List.pwFilter_eq_self.2 ((List.pairwise_map.1 hcells).imp fun {r s} hne => ?_)
  rw [TransactionRow.isApart_iff]
  intro x hr hs
  exact hne (hr.trans hs.symm)

theorem denotes_rows (h : b.IsProper) :
    List.Forall₂ TransactionRow.Denotes b.rows b.transactions := by
  have : List.Forall₂ TransactionRow.Denotes b.rows (b.transactions.zipIdx.map Prod.fst) := by
    rw [rows, List.forall₂_map_left_iff, List.forall₂_map_right_iff, List.forall₂_same]
    intro p hp
    exact ⟨rfl, Transaction.ofStored?_toStored (h.readable _ (List.fst_mem_of_mem_zipIdx hp))⟩
  rwa [List.zipIdx_map_fst] at this

theorem holds_storeBlock (h : b.IsProper) (t : Tables) : (t.storeBlock b).Holds b where
  row := by
    rw [Tables.blocks_storeBlock]
    exact List.mem_append_right _ (List.mem_singleton_self _)
  transactions := by
    rw [Tables.rowsAt_storeBlock_self, h.pwFilter_rows]
    exact h.denotes_rows

end Block.IsProper

theorem Block.isProper_bare (hash : String) (height : Int) {ids : List String} (h : ids.Nodup) :
    IsProper ⟨hash, height, ids.map Transaction.bare⟩ where
  readable t ht := by
    obtain ⟨txid, -, rfl⟩ := List.mem_map.1 ht
    exact Transaction.isReadable_bare txid
  text t ht := by
    obtain ⟨txid, -, rfl⟩ := List.mem_map.1 ht
    exact ⟨txid, rfl⟩
  nodup := by
    rw [List.map_map]
    refine h.map ?_
    intro s t heq
    exact Json.text.inj (congrArg TransactionId.value heq)

/-- A proper block that was stored, read after further writes that do not replace it: its hash, its
height, and in order those of its transactions that were not stored again. -/
theorem Index.block?_run_of_stored {earlier later : List Write} {b : Block} (hproper : b.IsProper)
    (hstored : ((({} : Index).run earlier).write (.ofBlock b)).2 = none)
    (hlater : ∀ w ∈ (({} : Index).run (earlier ++ [.ofBlock b])).accepted later, ¬w.Replaces b) :
    let left := b.without ((({} : Index).run (earlier ++ [.ofBlock b])).accepted later)
    (({} : Index).run (earlier ++ .ofBlock b :: later)).block? (.height b.height) =
        .ok (some left) ∧
      (({} : Index).run (earlier ++ .ofBlock b :: later)).block? (.hash b.hash) =
        .ok (some left) := by
  intro left
  have hwrite : (({} : Index).run earlier).write (.ofBlock b) =
      (((({} : Index).run earlier).write (.ofBlock b)).1, none) := Prod.ext rfl hstored
  obtain ⟨-, t, hstep, hafter⟩ := write_eq_none_iff.1 hwrite
  have hrun : ({} : Index).run (earlier ++ [.ofBlock b]) =
      { ({} : Index).run earlier with tables := t } := by
    rw [run_append, run_cons, hafter, run_nil]
  have hholds : (({} : Index).run (earlier ++ [.ofBlock b])).tables.Holds b := by
    rw [hrun, hstep.eq_storeBlock (Write.block?_ofBlock b)]
    exact hproper.holds_storeBlock _
  have hleft := holds_run hholds hlater
  rw [← run_append, List.append_assoc, List.singleton_append] at hleft
  have hread (ref : BlockRef) (hfit : ref.IsFit) (href : ref.RefersTo left) :=
    (block?_eq_some_iff (isClosed_run {} (earlier ++ .ofBlock b :: later)) (isSound_run _)).2
      ⟨hfit, href, hleft⟩
  constructor
  · exact hread (.height b.height) (hstep.fitsColumn_height rfl) rfl
  · exact hread (.hash b.hash) trivial rfl

/-- A block of which one transaction is stored again, on its own, and the other is not. -/
theorem Index.block?_run_of_stored_again :
    let index := ({} : Index).run [.ofBlock ⟨"b1", 5, [.bare "a1", .bare "a2"]⟩,
      .transaction (.bare "a1")]
    index.block? (.height 5) = .ok (some ⟨"b1", 5, [.bare "a2"]⟩) ∧
      index.block? (.hash "b1") = .ok (some ⟨"b1", 5, [.bare "a2"]⟩) := by
  have hproper : Block.IsProper ⟨"b1", 5, [.bare "a1", .bare "a2"]⟩ :=
    Block.isProper_bare "b1" 5 (show ["a1", "a2"].Nodup by decide)
  have hstored : ((({} : Index).run []).write
      (.ofBlock ⟨"b1", 5, [.bare "a1", .bare "a2"]⟩)).2 = none := rfl
  have hlater : ∀ w ∈ (({} : Index).run ([] ++
      [.ofBlock ⟨"b1", 5, [.bare "a1", .bare "a2"]⟩])).accepted [.transaction (.bare "a1")],
      ¬w.Replaces ⟨"b1", 5, [.bare "a1", .bare "a2"]⟩ := by
    intro w hw
    obtain rfl := List.mem_singleton.1 ((Index.accepted_sublist _ _).mem hw)
    exact Write.not_replaces_transaction _ _
  exact Index.block?_run_of_stored hproper hstored hlater

/-- A block does not stay as it is in every run that does not replace it: a transaction that is
stored again on its own is lost to the block. -/
theorem Index.not_forall_block?_run_eq :
    ¬∀ (earlier later : List Write) (b : Block), b.IsProper →
      ((({} : Index).run earlier).write (.ofBlock b)).2 = none →
      (∀ w ∈ later, ¬w.Replaces b) →
      (({} : Index).run (earlier ++ .ofBlock b :: later)).block? (.height b.height) =
          .ok (some b) ∧
        (({} : Index).run (earlier ++ .ofBlock b :: later)).block? (.hash b.hash) =
          .ok (some b) := by
  intro h
  have hproper : Block.IsProper ⟨"b1", 5, [.bare "a1"]⟩ :=
    Block.isProper_bare "b1" 5 (List.nodup_singleton "a1")
  have hkept := (h [] [.transaction (.bare "a1")] _ hproper rfl ?_).1
  · have hlost : (({} : Index).run ([] ++ [.ofBlock ⟨"b1", 5, [.bare "a1"]⟩,
        .transaction (.bare "a1")])).block? (.height 5) = .ok (some ⟨"b1", 5, []⟩) := by
      cbv
    rw [hlost] at hkept
    simp at hkept
  · intro w hw
    obtain rfl := List.mem_singleton.1 hw
    exact Write.not_replaces_transaction _ _

end InscriptionLedger
