import InscriptionLedger.Proofs.BlockViews

/-!
# References to blocks

A block is referred to by its height or by its hash. Both references lead to the same block as long
as heights and hashes are unique; these move between blocks in a run, and each block that is stored
replaces what it shares either of them with. So what is told of a stored block does not depend on
how it is referred to, and the latest block, which is looked up by the hash of the row with the
greatest height, is the block of that height.

## Main definitions

* `Index.FindsBlocks`: heights and hashes lead to the same stored blocks
* `Viewer.TellsLatest`: the latest block is the stored block of greatest height
* `Viewer.TellsAlike`: two references of which the same is told

## Main results

* `Index.highest?_eq_some`, `Index.highest?_eq_none_iff`: the row of greatest height
* `Index.findsBlocks`, `Viewer.tellsLatest`, `Viewer.tellsAlike_of_block_eq`: what holds of sound
  tables
* `Viewer.references_run`: what holds after a run
-/

namespace InscriptionLedger

/-! ## The row of greatest height -/

namespace Index

theorem higher_eq_or (x y : BlockRow) : higher x y = x ∨ higher x y = y := by
  unfold higher
  split
  · exact .inr rfl
  · exact .inl rfl

theorem height_le_higher (x y : BlockRow) :
    x.height ≤ (higher x y).height ∧ y.height ≤ (higher x y).height := by
  unfold higher
  split <;> omega

/-- Folding keeps one of the rows, and none is higher. -/
theorem foldl_higher (row : BlockRow) (rest : List BlockRow) :
    rest.foldl higher row ∈ row :: rest ∧
      ∀ s ∈ row :: rest, s.height ≤ (rest.foldl higher row).height := by
  induction rest generalizing row with
  | nil => simp
  | cons next rest ih =>
    obtain ⟨hmem, hle⟩ := ih (higher row next)
    obtain ⟨hhigher, hrest⟩ := List.forall_mem_cons.1 hle
    obtain ⟨hrow, hnext⟩ := height_le_higher row next
    rw [List.foldl_cons]
    constructor
    · rcases List.mem_cons.1 hmem with heq | hmem
      · rw [heq]
        rcases higher_eq_or row next with heq | heq <;> simp [heq]
      · exact List.mem_cons_of_mem _ (List.mem_cons_of_mem _ hmem)
    · refine List.forall_mem_cons.2 ⟨hrow.trans hhigher, ?_⟩
      exact List.forall_mem_cons.2 ⟨hnext.trans hhigher, hrest⟩

theorem highest?_eq_none_iff {rows : List BlockRow} : highest? rows = none ↔ rows = [] := by
  cases rows <;> simp [highest?]

theorem highest?_eq_some {rows : List BlockRow} {row : BlockRow} (h : highest? rows = some row) :
    row ∈ rows ∧ ∀ s ∈ rows, s.height ≤ row.height := by
  cases rows with
  | nil => cases h
  | cons first rest =>
    obtain rfl := Option.some.inj h
    exact foldl_higher first rest

theorem latestHash?_eq {index : Index} (hopen : index.isClosed = false) :
    index.latestHash? = .ok ((highest? index.tables.blocks).map BlockRow.hash) := by
  rw [latestHash?, query_eq hopen]
  rfl

end Index

/-! ## Heights and hashes -/

/-- Heights and hashes lead to the same stored blocks: a row of the blocks is that of a block that
is read by its hash, a block is read by a height exactly if it has that height and is read by its
hash, and no hash has two heights. -/
structure Index.FindsBlocks (index : Index) : Prop where
  stored : ∀ row ∈ index.tables.blocks,
    ∃ b, b.blockRow = row ∧ index.block? (.hash b.hash) = .ok (some b)
  byHeight : ∀ height b, index.block? (.height height) = .ok (some b) ↔
    index.block? (.hash b.hash) = .ok (some b) ∧ b.height = height
  byHash : ∀ hash b, index.block? (.hash hash) = .ok (some b) →
    b.hash = hash ∧ index.heightOf? hash = .ok (some b.height)
  unique : ∀ row ∈ index.tables.blocks, ∀ row' ∈ index.tables.blocks,
    row.hash = row'.hash → row.height = row'.height

section

variable {index : Index} (hopen : index.isClosed = false) (hsound : index.tables.IsSound)
  (hreadable : ∀ r ∈ index.tables.transactions, ∃ u, r.Denotes u)

include hopen hsound

/-- A block is read by its own hash exactly if it is held. -/
theorem Index.block?_hash_eq_some_iff {b : Block} :
    index.block? (.hash b.hash) = .ok (some b) ↔ index.tables.Holds b := by
  rw [block?_eq_some_iff hopen hsound]
  exact ⟨fun h => h.2.2, fun hb => ⟨trivial, rfl, hb⟩⟩

include hreadable

theorem Index.findsBlocks : index.FindsBlocks where
  stored row hrow := by
    have href : isBlock (.hash row.hash) row = true := by simp [isBlock]
    obtain ⟨b, rfl, hread, -⟩ := exists_block? hopen hsound hreadable hrow href
    exact ⟨b, rfl, hread⟩
  byHeight height b := by
    rw [block?_hash_eq_some_iff hopen hsound, block?_eq_some_iff hopen hsound]
    constructor
    · rintro ⟨-, hheight, hb⟩
      exact ⟨hb, hheight⟩
    · rintro ⟨hb, rfl⟩
      exact ⟨hsound.heights _ hb.row, rfl, hb⟩
  byHash hash b hread := by
    obtain ⟨-, rfl, hb⟩ := (block?_eq_some_iff hopen hsound).1 hread
    exact ⟨rfl, (heightOf?_eq_some_iff hopen hsound).2 hb.row⟩
  unique row hrow row' hrow' hhash := by
    have hclash : row.clashes row' = true := by simp [BlockRow.clashes, hhash]
    rw [hsound.eq_of_clashes hrow hrow' hclash]

end

namespace Viewer

/-! ## The latest block -/

/-- The latest block is the stored block of greatest height, and the latest height is its height.
Both are not found exactly if no block is stored, and nothing else fails. -/
structure TellsLatest (viewer : Viewer) : Prop where
  latestBlock : ∀ b, viewer.latestBlock = .ok b ↔
    viewer.index.block? (.hash b.hash) = .ok (some b) ∧
      ∀ row ∈ viewer.index.tables.blocks, row.height ≤ b.height
  latestHeight : ∀ height, viewer.latestHeight = .ok height ↔
    ∃ b, viewer.latestBlock = .ok b ∧ b.height = height
  noBlock : ∀ f, viewer.latestBlock = .error f ↔
    f = .notFound .latestBlock ∧ viewer.index.tables.blocks = []
  noHeight : ∀ f, viewer.latestHeight = .error f ↔
    f = .notFound .tip ∧ viewer.index.tables.blocks = []

section

variable {viewer : Viewer} (hopen : viewer.index.isClosed = false)

include hopen

theorem latest_of_nil (h : viewer.index.tables.blocks = []) :
    viewer.latestBlock = .error (.notFound .latestBlock) ∧
      viewer.latestHeight = .error (.notFound .tip) := by
  have hnone : viewer.index.latestHash? = .ok none := by
    rw [Index.latestHash?_eq hopen, Index.highest?_eq_none_iff.2 h, Option.map_none]
  rw [latestBlock, latestHeight, hnone]
  exact ⟨rfl, rfl⟩

variable (hsound : viewer.index.tables.IsSound)
  (hreadable : ∀ r ∈ viewer.index.tables.transactions, ∃ u, r.Denotes u)

include hsound hreadable

/-- Where blocks are stored, one of greatest height is told. -/
theorem exists_latest (h : viewer.index.tables.blocks ≠ []) :
    ∃ b, viewer.latestBlock = .ok b ∧ viewer.latestHeight = .ok b.height ∧
      viewer.index.tables.Holds b ∧
      ∀ row ∈ viewer.index.tables.blocks, row.height ≤ b.height := by
  obtain ⟨row, hhighest⟩ := Option.ne_none_iff_exists'.1 (mt Index.highest?_eq_none_iff.1 h)
  obtain ⟨hrow, hle⟩ := Index.highest?_eq_some hhighest
  obtain ⟨b, rfl, hread⟩ := (Index.findsBlocks hopen hsound hreadable).stored row hrow
  have hhash : viewer.index.latestHash? = .ok (some b.hash) := by
    rw [Index.latestHash?_eq hopen, hhighest]
    rfl
  have hheld := (Index.block?_hash_eq_some_iff hopen hsound).1 hread
  refine ⟨b, ?_, ?_, hheld, hle⟩
  · rw [latestBlock, found_eq_ok_iff.2 hhash, Outcome.ok_bind]
    exact found_eq_ok_iff.2 hread
  · rw [latestHeight, found_eq_ok_iff.2 hhash, Outcome.ok_bind]
    exact found_eq_ok_iff.2 ((Index.heightOf?_eq_some_iff hopen hsound).2 hrow)

theorem tellsLatest : viewer.TellsLatest := by
  by_cases h : viewer.index.tables.blocks = []
  · obtain ⟨hblock, hheight⟩ := latest_of_nil hopen h
    constructor
    case latestBlock =>
      intro b
      rw [hblock, Index.block?_hash_eq_some_iff hopen hsound]
      refine ⟨nofun, fun ⟨hb, _⟩ => ?_⟩
      have := hb.row
      simp [h] at this
    case latestHeight => simp [hblock, hheight]
    case noBlock => simp [hblock, h, eq_comm]
    case noHeight => simp [hheight, h, eq_comm]
  · obtain ⟨b, hblock, hheight, hb, hle⟩ := exists_latest hopen hsound hreadable h
    constructor
    case latestBlock =>
      intro c
      rw [hblock, Except.ok.injEq, Index.block?_hash_eq_some_iff hopen hsound]
      constructor
      · rintro rfl
        exact ⟨hb, hle⟩
      · -- Two held blocks of greatest height have the same height.
        rintro ⟨hc, hlec⟩
        exact hb.eq_of_height hsound hc (le_antisymm (hlec _ hb.row) (hle _ hc.row))
    case latestHeight => simp [hblock, hheight]
    case noBlock => simp [hblock, h]
    case noHeight => simp [hheight, h]

end

/-! ## What is told of a block -/

/-- Of two references the same is told: views, the number, outputs, ids and groups. The failure of a
page that is not within the block names the reference. -/
structure TellsAlike (viewer : Viewer) (ref ref' : BlockRef) : Prop where
  block : viewer.block ref = viewer.block ref'
  viewsOfBlock : viewer.viewsOfBlock ref = viewer.viewsOfBlock ref'
  countOfBlock : viewer.countOfBlock ref = viewer.countOfBlock ref'
  outputsOfBlock : viewer.outputsOfBlock ref = viewer.outputsOfBlock ref'
  idsOfBlock : ∀ limit, viewer.idsOfBlock ref limit = viewer.idsOfBlock ref' limit
  groupsOfBlock : ∀ limit, viewer.groupsOfBlock ref limit = viewer.groupsOfBlock ref' limit
  pageOfBlock : ∀ start count,
    viewer.pageOfBlock ref start count = viewer.pageOfBlock ref' start count ∨
    ∃ available,
      viewer.pageOfBlock ref start count =
        .error (.badRequest (.windowOutside start (start + count) available ref)) ∧
      viewer.pageOfBlock ref' start count =
        .error (.badRequest (.windowOutside start (start + count) available ref'))

variable {viewer : Viewer} {ref ref' : BlockRef}

/-- All that is told of a reference goes through the block that it leads to. -/
theorem tellsAlike_of_block_eq (h : viewer.block ref = viewer.block ref') :
    viewer.TellsAlike ref ref' := by
  have hids : viewer.allIdsOfBlock ref = viewer.allIdsOfBlock ref' := by
    rw [allIdsOfBlock, h, allIdsOfBlock]
  have hlimited (limit : Int) : viewer.idsOfBlock ref limit = viewer.idsOfBlock ref' limit := by
    rw [idsOfBlock, hids, idsOfBlock]
  constructor
  case block => exact h
  case viewsOfBlock => rw [viewsOfBlock, hids, viewsOfBlock]
  case countOfBlock => rw [countOfBlock, hids, countOfBlock]
  case outputsOfBlock => rw [outputsOfBlock, h, outputsOfBlock]
  case idsOfBlock => exact hlimited
  case groupsOfBlock =>
    intro limit
    rw [groupsOfBlock, hlimited, groupsOfBlock]
  case pageOfBlock =>
    intro start count
    unfold pageOfBlock
    rw [hids]
    split
    · exact .inl rfl
    · cases viewer.allIdsOfBlock ref' with
      | error f => exact .inl rfl
      | ok ids =>
        simp only [Outcome.ok_bind]
        split
        · cases Numeral.isShort start && Numeral.isShort (start + count) with
          | true => exact .inr ⟨ids.length, rfl, rfl⟩
          | false => exact .inl rfl
        · exact .inl rfl

/-- After a run, in which heights and hashes may have moved from block to block, heights and hashes
lead to the same blocks, the latest block is that of the greatest height, and of a stored block the
same is told for its height as for its hash. Other look-ups may fail. -/
theorem references_run {ws : List Write} (hopen : viewer.index.isClosed = false)
    (htables : viewer.index.tables = (({} : Index).run ws).tables)
    (hreadable : ∀ w ∈ ws, ∀ u ∈ w.transactions, u.IsReadable) :
    viewer.index.FindsBlocks ∧ viewer.TellsLatest ∧ ∀ row ∈ viewer.index.tables.blocks,
      viewer.TellsAlike (.height row.height) (.hash row.hash) := by
  have hsound : viewer.index.tables.IsSound := htables ▸ Index.isSound_run ws
  have hrows : ∀ r ∈ viewer.index.tables.transactions, ∃ u, r.Denotes u :=
    htables ▸ Index.exists_denotes_run hreadable
  have hfinds := Index.findsBlocks hopen hsound hrows
  refine ⟨hfinds, tellsLatest hopen hsound hrows, fun row hrow => ?_⟩
  obtain ⟨b, rfl, hread⟩ := hfinds.stored row hrow
  have hread' := (hfinds.byHeight b.height b).2 ⟨hread, rfl⟩
  refine tellsAlike_of_block_eq ?_
  rw [block, block, Block.blockRow, found_eq_ok_iff.2 hread, found_eq_ok_iff.2 hread']

/-- A hash that moves from one height to another, while the height that it leaves is taken by
another block; the numbers of a node and of an index cannot be looked up. -/
theorem references_run_moved :
    let ws : List Write := [.ofBlock ⟨"b1", 5, [.bare "a1"]⟩, .ofBlock ⟨"b2", 6, []⟩,
      .ofBlock ⟨"b1", 7, [.bare "a2"]⟩, .ofBlock ⟨"b3", 5, [.bare "a3"]⟩]
    let viewer : Viewer :=
      ⟨{ (({} : Index).run ws) with unreadableNumbers := [0] }, .mainnet, .vout, none⟩
    (∀ row ∈ viewer.index.tables.blocks, viewer.TellsAlike (.height row.height) (.hash row.hash)) ∧
      viewer.latestBlock = .ok ⟨"b1", 7, [.bare "a2"]⟩ ∧
      viewer.index.tables.blocks = [⟨6, "b2"⟩, ⟨7, "b1"⟩, ⟨5, "b3"⟩] := by
  intro ws viewer
  have hopen : viewer.index.isClosed = false := Index.isClosed_run {} ws
  have hreadable : ∀ w ∈ ws, ∀ u ∈ w.transactions, u.IsReadable := by
    simp [ws, Write.ofBlock, Write.transactions, Transaction.isReadable_bare]
  obtain ⟨-, hlatest, halike⟩ := references_run hopen (by rfl) hreadable
  have hblocks : viewer.index.tables.blocks = [⟨6, "b2"⟩, ⟨7, "b1"⟩, ⟨5, "b3"⟩] := by cbv
  refine ⟨halike, (hlatest.latestBlock _).2 ⟨by cbv, ?_⟩, hblocks⟩
  simp [hblocks]

end Viewer

end InscriptionLedger
