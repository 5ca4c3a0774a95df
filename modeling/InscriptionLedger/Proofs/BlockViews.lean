import InscriptionLedger.Proofs.BlockListing
import InscriptionLedger.Proofs.InscriptionViews
import InscriptionLedger.View.Listing

/-!
# The views of a block

The inscriptions of a block are told in four ways: as views, as ids, as a number, and by the outputs
that hold them. All four go through the outputs of the block on their own; they agree, since each
output holds the rows whose place it is, and the view of such a row shows the output.

## Main definitions

* `Viewer.Agree`: views and outputs that tell the same inscriptions of a block
* `Tables.outputView?`: the view of an output, by the rows in it

## Main results

* `Index.exists_block?`: a block that is stored is read
* `Index.outputsOfBlock_eq`: the outputs that are told
* `Viewer.agree_of_holds`: what is told of a block that is held agrees
* `Viewer.agree_run`: what is told of a block agrees after a run
-/

namespace InscriptionLedger

/-! ## Blocks that are stored -/

/-- Where each row reads back, a row of the blocks is that of a block that is held. -/
theorem Tables.exists_holds {t : Tables} (h : ∀ r ∈ t.transactions, ∃ u, r.Denotes u)
    {row : BlockRow} (hrow : row ∈ t.blocks) : ∃ b, b.blockRow = row ∧ t.Holds b := by
  obtain ⟨height, hash⟩ := row
  have hrows : ∀ r ∈ t.rowsAt height, ∃ u, r.Denotes u := fun r hr => h r (mem_rowsAt.1 hr).1
  obtain ⟨transactions, htransactions⟩ := exists_forall₂ hrows
  exact ⟨⟨hash, height, transactions⟩, rfl, hrow, htransactions⟩

/-- Where each row reads back, a block that is stored is read by its height and by its hash. -/
theorem Index.exists_block? {index : Index} (hopen : index.isClosed = false)
    (hsound : index.tables.IsSound) (hreadable : ∀ r ∈ index.tables.transactions, ∃ u, r.Denotes u)
    {ref : BlockRef} {row : BlockRow} (hrow : row ∈ index.tables.blocks)
    (href : Index.isBlock ref row = true) :
    ∃ b, b.blockRow = row ∧ index.block? ref = .ok (some b) ∧ index.tables.Holds b := by
  obtain ⟨b, rfl, hb⟩ := Tables.exists_holds hreadable hrow
  have hrefers := Index.isBlock_blockRow.1 href
  have hfit : ref.IsFit := by
    cases ref with
    | height value =>
      obtain rfl : b.height = value := hrefers
      exact hsound.heights _ hrow
    | hash value => trivial
  exact ⟨b, rfl, (Index.block?_eq_some_iff hopen hsound).2 ⟨hfit, hrefers, hb⟩, hb⟩

/-- A block that is stored in a healthy index is read by its height and by its hash. -/
theorem Index.IsHealthy.exists_block? {index : Index} (h : index.IsHealthy) {ref : BlockRef}
    {row : BlockRow} (hrow : row ∈ index.tables.blocks) (href : Index.isBlock ref row = true) :
    ∃ b, index.block? ref = .ok (some b) ∧ index.tables.Holds b := by
  obtain ⟨b, -, hblock⟩ := Index.exists_block? h.isOpen h.sound h.readable hrow href
  exact ⟨b, hblock⟩

/-! ## Outputs that are told -/

/-- The view of an output, if there are rows in it. -/
def Tables.outputView? (t : Tables) (network : Network) (p : OutPoint) (output : TxOut) :
    Option OutputView :=
  if t.rowsIn p = [] then none
  else some ⟨(t.rowsIn p).map fun x => x.2.id, output, network.address? output.script, p.txid⟩

theorem Tables.outputView?_eq_some_iff {t : Tables} {network : Network} {p : OutPoint}
    {output : TxOut} {o : OutputView} :
    t.outputView? network p output = some o ↔ t.rowsIn p ≠ [] ∧
      o = ⟨(t.rowsIn p).map fun x => x.2.id, output, network.address? output.script, p.txid⟩ := by
  unfold outputView?
  split
  · next h => simp [h]
  · next h => simp [h, eq_comm]

theorem Tables.toList_outputView? (t : Tables) (network : Network) (x : OutPoint × TxOut) :
    (t.outputView? network x.1 x.2).toList.flatMap OutputView.inscriptions =
      (t.rowsIn x.1).map fun y => y.2.id := by
  unfold outputView?
  split
  · next h => rw [h]; rfl
  · simp

namespace Index

variable {index : Index}

theorem outputView?_eq (hopen : index.isClosed = false) (network : Network) {txid : TransactionId}
    (htxid : txid.IsText) {vout : Int} (hfit : fitsColumn vout = true) (output : TxOut) :
    index.outputView? network ⟨txid, vout⟩ output =
      .ok (index.tables.outputView? network ⟨txid, vout⟩ output) := by
  unfold outputView? Tables.outputView?
  rw [onOutput_eq hopen htxid, if_pos hfit, Outcome.ok_bind]
  simp only [List.isEmpty_iff, List.map_eq_nil_iff]
  split
  · rfl
  · rfl

/-- The outputs that are told of a block are those with rows in them. -/
theorem outputsOfBlock_eq (hopen : index.isClosed = false) (network : Network) {b : Block}
    (hb : ∀ u ∈ b.transactions, u.txid.IsText)
    (hfew : ∀ u ∈ b.transactions, u.outputs.length ≤ 2 ^ 63) :
    index.outputsOfBlock network b = .ok ((b.transactions.flatMap Transaction.outPoints).filterMap
      fun x => index.tables.outputView? network x.1 x.2) := by
  have houtputs : ∀ x ∈ b.transactions.flatMap Transaction.outPoints,
      index.outputView? network x.1 x.2 = .ok (index.tables.outputView? network x.1 x.2) := by
    intro x hx
    obtain ⟨u, hu, hx⟩ := List.mem_flatMap.1 hx
    have hfit := u.forall_outPoints_fitsColumn.2 (hfew u hu) x hx
    obtain ⟨_, -, rfl⟩ := List.mem_map.1 hx
    exact outputView?_eq hopen network (hb u hu) hfit _
  have hviews := Outcome.mapM_eq_ok_map houtputs
  unfold outputsOfBlock
  simp only [hviews, Outcome.ok_bind, List.filterMap_map]
  rfl

end Index

namespace Tables

variable {t : Tables} {b : Block}

/-- The inscriptions that are listed, by the outputs of the block. -/
theorem map_snd_standings_eq_flatMap (t : Tables) (b : Block) :
    (t.standings b).map Prod.snd =
      (b.transactions.flatMap Transaction.outPoints).flatMap fun x =>
        (t.rowsIn x.1).map fun y => y.2.id := by
  rw [map_snd_standings, List.flatMap_assoc, ← List.flatMap_def]
  refine List.flatMap_congr fun u _ => ?_
  rw [idsOf, List.flatMap_def]

/-- Joined, the outputs that are told hold the inscriptions that are listed. -/
theorem flatMap_inscriptions (t : Tables) (network : Network) (b : Block) :
    ((b.transactions.flatMap Transaction.outPoints).filterMap
      fun x => t.outputView? network x.1 x.2).flatMap OutputView.inscriptions =
        (t.standings b).map Prod.snd := by
  rw [map_snd_standings_eq_flatMap, List.filterMap_eq_flatMap_toList, List.flatMap_assoc]
  exact List.flatMap_congr fun x _ => t.toList_outputView? network x

end Tables

/-! ## What is told of a block -/

namespace Viewer

/-- What is told of a block agrees: the views, the ids if enough are asked for, the number, and the
outputs that hold the inscriptions. -/
structure Agree (viewer : Viewer) (ref : BlockRef) (views : List InscriptionView)
    (outputs : List OutputView) : Prop where
  viewsOfBlock : viewer.viewsOfBlock ref = .ok views
  idsOfBlock : ∀ limit : Int, views.length ≤ limit →
    viewer.idsOfBlock ref limit = .ok (views.map InscriptionView.id)
  countOfBlock : viewer.countOfBlock ref = .ok views.length
  outputsOfBlock : viewer.outputsOfBlock ref = .ok outputs
  inscriptions : outputs.flatMap OutputView.inscriptions = views.map InscriptionView.id
  nonempty : ∀ o ∈ outputs, o.inscriptions ≠ []
  shown : ∀ o ∈ outputs, ∀ v ∈ views, v.id ∈ o.inscriptions →
    v.output = some o.output ∧ v.address = o.address ∧ v.location.outpoint.txid = o.txid

section

variable {viewer : Viewer} (h : viewer.index.IsHealthy) {ref : BlockRef} {b : Block}
  (href : viewer.index.block? ref = .ok (some b)) (hb : viewer.index.tables.Holds b)

include h hb

/-- The view of an inscription in an output of a block shows the output. -/
theorem exists_view_of_mem_rowsIn
    (hshowable : ∀ r ∈ viewer.index.tables.inscriptions, r.IsShowable) {x : OutPoint × TxOut}
    (hx : x ∈ b.transactions.flatMap Transaction.outPoints) {y : Int × InscriptionRow}
    (hy : y ∈ viewer.index.tables.rowsIn x.1) :
    ∃ v, viewer.view y.2.id = .ok v ∧ v.location.outpoint.txid = x.1.txid ∧ v.output = some x.2 ∧
      v.address = viewer.network.address? x.2.script := by
  obtain ⟨u, hu, hx⟩ := List.mem_flatMap.1 hx
  obtain ⟨⟨output, vout⟩, houtput, rfl⟩ := List.mem_map.1 hx
  obtain ⟨s, hs, hdenotes⟩ := hb.exists_row hu
  obtain ⟨hr, hlocation⟩ := (Tables.mem_rowsIn (hb.isText_txid h.textual u hu)).1 hy
  obtain ⟨v, hv, -, hplace, hshown⟩ := exists_view h hr (hshowable _ hr) (Tables.mem_rowsAt.1 hs).1
    hdenotes (List.mk_mem_zipIdx_iff_getElem?.1 houtput) hlocation
  exact ⟨v, hv, by rw [hplace], hshown⟩

include href

theorem allIdsOfBlock_eq :
    viewer.allIdsOfBlock ref =
      if ∀ u ∈ b.transactions, u.outputs.length ≤ 2 ^ 63 then
        .ok ((viewer.index.tables.standings b).map Prod.snd)
      else .error .magnitude := by
  rw [allIdsOfBlock, block, found_eq_ok_iff.2 href, Outcome.ok_bind]
  exact Index.idsOfBlock_eq h.isOpen (hb.isText_txid h.textual)

/-- The inscriptions of a block have views, if they can be shown and the block has no more outputs
than can be asked for. -/
theorem exists_viewsOfBlock (hshowable : ∀ r ∈ viewer.index.tables.inscriptions, r.IsShowable)
    (hfew : ∀ u ∈ b.transactions, u.outputs.length ≤ 2 ^ 63) :
    ∃ views, viewer.viewsOfBlock ref = .ok views ∧
      ((viewer.index.tables.standings b).map Prod.snd).mapM viewer.view = .ok views := by
  have hexists : ∀ id ∈ (viewer.index.tables.standings b).map Prod.snd,
      ∃ v, viewer.view id = .ok v := by
    intro id hid
    rw [Tables.map_snd_standings_eq_flatMap] at hid
    obtain ⟨x, hx, hid⟩ := List.mem_flatMap.1 hid
    obtain ⟨y, hy, rfl⟩ := List.mem_map.1 hid
    obtain ⟨v, hv, -⟩ := exists_view_of_mem_rowsIn h hb hshowable hx hy
    exact ⟨v, hv⟩
  obtain ⟨views, hviews⟩ := exists_forall₂ hexists
  have hviews := Outcome.mapM_eq_ok_iff.2 hviews
  refine ⟨views, ?_, hviews⟩
  rw [viewsOfBlock, allIdsOfBlock_eq h href hb, if_pos hfew, Outcome.ok_bind, hviews]

/-- What is told of such a block agrees. -/
theorem agree_of_holds (hshowable : ∀ r ∈ viewer.index.tables.inscriptions, r.IsShowable)
    (hfew : ∀ u ∈ b.transactions, u.outputs.length ≤ 2 ^ 63) :
    ∃ views outputs, viewer.Agree ref views outputs := by
  obtain ⟨views, hviewsOfBlock, hviews⟩ := exists_viewsOfBlock h href hb hshowable hfew
  have hids := allIdsOfBlock_eq h href hb
  rw [if_pos hfew, ← map_id_of_mapM_view hviews] at hids
  refine ⟨views, (b.transactions.flatMap Transaction.outPoints).filterMap fun x =>
    viewer.index.tables.outputView? viewer.network x.1 x.2, ?_⟩
  constructor
  case viewsOfBlock => exact hviewsOfBlock
  case idsOfBlock =>
    intro limit hlimit
    rw [idsOfBlock, if_neg (by omega), hids, Outcome.ok_bind, List.take_of_length_le]
    · rfl
    · rw [List.length_map]
      omega
  case countOfBlock =>
    rw [countOfBlock, hids, Outcome.ok_bind, List.length_map]
    rfl
  case outputsOfBlock =>
    rw [outputsOfBlock, block, found_eq_ok_iff.2 href, Outcome.ok_bind]
    exact Index.outputsOfBlock_eq h.isOpen viewer.network (hb.isText_txid h.textual) hfew
  case inscriptions => rw [Tables.flatMap_inscriptions, map_id_of_mapM_view hviews]
  case nonempty =>
    intro o ho
    obtain ⟨x, -, hx⟩ := List.mem_filterMap.1 ho
    obtain ⟨hne, rfl⟩ := Tables.outputView?_eq_some_iff.1 hx
    simpa using hne
  case shown =>
    intro o ho v hv hid
    obtain ⟨x, hmem, hx⟩ := List.mem_filterMap.1 ho
    obtain ⟨-, rfl⟩ := Tables.outputView?_eq_some_iff.1 hx
    obtain ⟨y, hy, hyid⟩ := List.mem_map.1 hid
    obtain ⟨v', hv', htxid, houtput, haddress⟩ := exists_view_of_mem_rowsIn h hb hshowable hmem hy
    obtain ⟨id, -, hview⟩ := Outcome.exists_of_mem_mapM hviews hv
    rw [← id_of_view hview, ← hyid, hv'] at hview
    obtain rfl := Except.ok.inj hview
    exact ⟨houtput, haddress, htxid⟩

end

/-- What is told of a block that is stored agrees after a run, whatever the network, the setting and
the node are, if satoshis and numbers are within their ranges. Only a block with more outputs than
can be asked for has no views. -/
theorem agree_run {viewer : Viewer} {ws : List Write} (hindex : viewer.index = ({} : Index).run ws)
    (htext : ∀ w ∈ ws, w.IsTextual) (hreadable : ∀ w ∈ ws, ∀ u ∈ w.transactions, u.IsReadable)
    (hshowable : ∀ r ∈ viewer.index.tables.inscriptions, r.IsShowable) {ref : BlockRef}
    {row : BlockRow} (hrow : row ∈ viewer.index.tables.blocks)
    (href : Index.isBlock ref row = true) :
    ∃ b, viewer.index.block? ref = .ok (some b) ∧
      if ∀ u ∈ b.transactions, u.outputs.length ≤ 2 ^ 63 then
        ∃ views outputs, viewer.Agree ref views outputs
      else viewer.viewsOfBlock ref = .error .magnitude := by
  have h : viewer.index.IsHealthy := by
    rw [hindex]
    exact Index.isHealthy_run htext hreadable
  obtain ⟨b, hblock, hb⟩ := h.exists_block? hrow href
  refine ⟨b, hblock, ?_⟩
  split
  · next hfew => exact agree_of_holds h hblock hb hshowable hfew
  · next hmany => rw [viewsOfBlock, allIdsOfBlock_eq h hblock hb, if_neg hmany, Outcome.error_bind]

/-- Two inscriptions of a block, the one in its last output with a satoshi that is known, told by
the hash of the block with a node that is out of reach. -/
theorem agree_run_pair :
    let b : Block := ⟨"b1", 5, [⟨.ofText "a1", [], [⟨100, []⟩, ⟨50, []⟩]⟩,
      ⟨.ofText "a2", [], [⟨70, []⟩]⟩]⟩
    let ws : List Write := [.ofBlock b,
      .inscription ⟨.ofText "a1", 0⟩ ⟨some 0, some 5, some 0, some 0, some 7⟩ {}
        (some ⟨⟨.ofText "a2", 0⟩, 0⟩),
      .inscription ⟨.ofText "a1", 1⟩ ⟨some 1, some 5, some 0, some 0, none⟩ {}
        (some ⟨⟨.ofText "a1", 1⟩, 3⟩)]
    let viewer : Viewer := ⟨({} : Index).run ws, .testnet, .offset, some fun _ => .unreachable⟩
    ∃ views outputs, viewer.Agree (.hash "b1") views outputs ∧
      views.map InscriptionView.id = [⟨.ofText "a1", 1⟩, ⟨.ofText "a1", 0⟩] := by
  intro b ws viewer
  have htables : viewer.index.tables.inscriptions.map InscriptionRow.entry =
      [⟨0, 5, 0, 0, some 7⟩, ⟨1, 5, 0, 0, none⟩] := by cbv
  have htext : ∀ w ∈ ws, w.IsTextual := by
    simp [ws, b, Write.IsTextual, Write.ofBlock, TransactionId.IsText]
  have hreadable : ∀ w ∈ ws, ∀ u ∈ w.transactions, u.IsReadable := by
    have hinputs : ∀ w ∈ ws, ∀ u ∈ w.transactions, u.inputs = [] := by
      simp [ws, b, Write.ofBlock, Write.transactions]
    exact fun w hw u hu => Transaction.isReadable_of_inputs_eq_nil (hinputs w hw u hu)
  have hshowable : ∀ r ∈ viewer.index.tables.inscriptions, r.IsShowable := by
    intro r hr
    have hentry := List.mem_map_of_mem (f := InscriptionRow.entry) hr
    rw [htables] at hentry
    simp only [List.mem_cons, List.not_mem_nil, or_false] at hentry
    rcases hentry with heq | heq <;> constructor <;> simp [heq, lastSat, supply]
  have hrow : (⟨5, "b1"⟩ : BlockRow) ∈ viewer.index.tables.blocks := by
    have hblocks : viewer.index.tables.blocks = [⟨5, "b1"⟩] := by cbv
    simp [hblocks]
  have hindex : viewer.index = ({} : Index).run ws := by simp only [viewer]
  have href : Index.isBlock (.hash "b1") ⟨5, "b1"⟩ = true := by decide
  obtain ⟨b', hblock, hagree⟩ := agree_run hindex htext hreadable hshowable hrow href
  have hread : viewer.index.block? (.hash "b1") = .ok (some b) := by cbv
  obtain rfl : b' = b := by simpa [hread] using hblock.symm
  rw [if_pos (by decide)] at hagree
  obtain ⟨views, outputs, hagree⟩ := hagree
  have hcount : viewer.countOfBlock (.hash "b1") = .ok 2 := by cbv
  rw [hagree.countOfBlock] at hcount
  have hids : viewer.idsOfBlock (.hash "b1") 2 =
      .ok [⟨.ofText "a1", 1⟩, ⟨.ofText "a1", 0⟩] := by cbv
  rw [hagree.idsOfBlock 2 (by rw [Except.ok.inj hcount]; rfl)] at hids
  exact ⟨views, outputs, hagree, Except.ok.inj hids⟩

end Viewer

end InscriptionLedger
