import InscriptionLedger.Ownership
import InscriptionLedger.Proofs.InscriptionReads

/-!
# The inscriptions of a block

The inscriptions in the outputs of a block are listed by the position of the transaction, the
output, the offset and the number. The listing is sorted strictly: within an output because no two
inscriptions have the same number, and across outputs because the outputs are gone through in order.
An inscription has one place, and a transaction stands in one block, so that no inscription is
listed twice, be it in one block or in two.

## Main definitions

* `Standing`, `Standing.Before`: where an inscription stands in a block, and the order
* `Index.StandsIn`: the inscriptions that stand in a block
* `Index.Lists`: the listing of a block
* `Tables.rowsIn`, `Tables.standings`: the rows in an output, and what is listed for a block

## Main results

* `Tables.mem_standings`, `Tables.pairwise_standings`: what is listed, and in which order
* `Index.idsOfBlock_eq`: what is listed for a block, unless it has too many outputs
* `Index.idsOfBlock_run`: after a run, each inscription of a block is listed once, and for no other
-/

namespace InscriptionLedger

/-- What is sorted is sorted strictly, if no two values are tied. -/
theorem pairwise_mergeSort_of_apart {α : Type} {le : α → α → Bool} {R lt : α → α → Prop}
    (htrans : ∀ a b c, le a b = true → le b c = true → le a c = true)
    (htotal : ∀ a b, (le a b || le b a) = true) (hsymm : ∀ {a b}, R a b → R b a)
    (hlt : ∀ a b, le a b = true → R a b → lt a b) {l : List α} (h : l.Pairwise R) :
    (l.mergeSort le).Pairwise lt := by
  have hsorted := List.pairwise_mergeSort htrans htotal l
  have hapart : (l.mergeSort le).Pairwise R :=
    ((List.mergeSort_perm l le).pairwise_iff hsymm).2 h
  exact (hsorted.and hapart).imp fun hboth => hlt _ _ hboth.1 hboth.2

/-! ## Inscriptions in an output -/

/-- The rows of the inscriptions in an output with their offsets, in order. -/
def Tables.rowsIn (t : Tables) (p : OutPoint) : List (Int × InscriptionRow) :=
  (t.inscriptions.filterMap fun r => (Index.offsetIn? p r).map fun offset => (offset, r)).mergeSort
    Index.outputLe

theorem Index.offsetIn?_eq_some_iff {txid : TransactionId} (htxid : txid.IsText) {vout : Int}
    {r : InscriptionRow} {offset : Int} :
    Index.offsetIn? ⟨txid, vout⟩ r = some offset ↔ r.location = some ⟨⟨txid, vout⟩, offset⟩ := by
  obtain ⟨s, rfl⟩ := htxid
  unfold Index.offsetIn?
  rw [OutPoint.stored?_ofText]
  cases r.location with
  | none => simp
  | some place =>
    obtain ⟨outpoint, offset'⟩ := place
    simp

namespace Tables

variable {t : Tables}

theorem mem_rowsIn {txid : TransactionId} (htxid : txid.IsText) {vout offset : Int}
    {r : InscriptionRow} :
    (offset, r) ∈ t.rowsIn ⟨txid, vout⟩ ↔
      r ∈ t.inscriptions ∧ r.location = some ⟨⟨txid, vout⟩, offset⟩ := by
  rw [rowsIn, List.mem_mergeSort, List.mem_filterMap]
  constructor
  · rintro ⟨s, hs, hplaced⟩
    obtain ⟨offset', hoffset, heq⟩ := Option.map_eq_some_iff.1 hplaced
    cases heq
    exact ⟨hs, (Index.offsetIn?_eq_some_iff htxid).1 hoffset⟩
  · rintro ⟨hr, hlocation⟩
    exact ⟨r, hr, Option.map_eq_some_iff.2
      ⟨offset, (Index.offsetIn?_eq_some_iff htxid).2 hlocation, rfl⟩⟩

/-- The rows in an output are sorted strictly, since no two have the same number. -/
theorem pairwise_rowsIn (h : t.IsSound) (p : OutPoint) :
    (t.rowsIn p).Pairwise fun x y =>
      x.1 < y.1 ∨ x.1 = y.1 ∧ x.2.entry.number < y.2.entry.number := by
  have hle (x y : Int × InscriptionRow) : Index.outputLe x y = true ↔
      x.1 < y.1 ∨ x.1 = y.1 ∧ x.2.entry.number ≤ y.2.entry.number := by
    simp [Index.outputLe]
  refine pairwise_mergeSort_of_apart (R := fun x y => x.2.entry.number ≠ y.2.entry.number)
    (fun x y z hxy hyz => ?_) (fun x y => ?_) (fun hne => hne.symm) (fun x y hxy hne => ?_) ?_
  · rw [hle] at hxy hyz ⊢
    omega
  · rw [Bool.or_eq_true, hle, hle]
    omega
  · rw [hle] at hxy
    omega
  · refine List.Pairwise.filterMap _ ?_ h.pairwise_number
    intro r s hne x hx y hy
    obtain ⟨_, -, rfl⟩ := Option.map_eq_some_iff.1 hx
    obtain ⟨_, -, rfl⟩ := Option.map_eq_some_iff.1 hy
    exact hne

end Tables

/-! ## Inscriptions in a block -/

/-- Where an inscription stands in a block: the positions of its transaction and of its output, its
offset there, and its number. -/
@[ext] structure Standing where
  transaction : Nat
  output : Nat
  offset : Int
  number : Int
  deriving DecidableEq

/-- The order of inscriptions in a block. -/
def Standing.Before (x y : Standing) : Prop :=
  x.transaction < y.transaction ∨ x.transaction = y.transaction ∧
    (x.output < y.output ∨ x.output = y.output ∧
      (x.offset < y.offset ∨ x.offset = y.offset ∧ x.number < y.number))

theorem Standing.before_irrefl (x : Standing) : ¬x.Before x := by
  unfold Before
  omega

namespace Tables

/-- The inscriptions of a transaction at a position of a block, with where they stand. -/
def standingsOf (t : Tables) (u : Transaction) (transaction : Nat) :
    List (Standing × InscriptionId) :=
  u.outputs.zipIdx.flatMap fun (_, output) =>
    (t.rowsIn ⟨u.txid, output⟩).map fun (offset, r) =>
      (⟨transaction, output, offset, r.entry.number⟩, r.id)

/-- The inscriptions of a block, with where they stand. -/
def standings (t : Tables) (b : Block) : List (Standing × InscriptionId) :=
  b.transactions.zipIdx.flatMap fun (u, transaction) => t.standingsOf u transaction

variable {t : Tables}

theorem mem_standingsOf {u : Transaction} (hu : u.txid.IsText) {transaction : Nat} {s : Standing}
    {id : InscriptionId} :
    (s, id) ∈ t.standingsOf u transaction ↔
      s.transaction = transaction ∧ s.output < u.outputs.length ∧ ∃ r ∈ t.inscriptions,
        r.location = some ⟨⟨u.txid, s.output⟩, s.offset⟩ ∧ r.entry.number = s.number ∧
          r.id = id := by
  simp only [standingsOf, List.mem_flatMap, List.mem_map, Prod.exists, mem_rowsIn hu,
    List.mk_mem_zipIdx_iff_getElem?]
  constructor
  · rintro ⟨_, output, houtput, offset, r, ⟨hr, hlocation⟩, heq⟩
    cases heq
    obtain ⟨hlt, -⟩ := List.getElem?_eq_some_iff.1 houtput
    exact ⟨rfl, hlt, r, hr, hlocation, rfl, rfl⟩
  · rintro ⟨rfl, hlt, r, hr, hlocation, hnumber, rfl⟩
    refine ⟨_, s.output, List.getElem?_eq_getElem hlt, s.offset, r, ⟨hr, hlocation⟩, ?_⟩
    rw [hnumber]

theorem mem_standings {b : Block} (hb : ∀ u ∈ b.transactions, u.txid.IsText) {s : Standing}
    {id : InscriptionId} :
    (s, id) ∈ t.standings b ↔ ∃ u, b.transactions[s.transaction]? = some u ∧
      s.output < u.outputs.length ∧ ∃ r ∈ t.inscriptions,
        r.location = some ⟨⟨u.txid, s.output⟩, s.offset⟩ ∧ r.entry.number = s.number ∧
          r.id = id := by
  simp only [standings, List.mem_flatMap, Prod.exists, List.mk_mem_zipIdx_iff_getElem?]
  constructor
  · rintro ⟨u, transaction, hu, hmem⟩
    obtain ⟨rfl, hrow⟩ := (mem_standingsOf (hb u (List.mem_of_getElem? hu))).1 hmem
    exact ⟨u, hu, hrow⟩
  · rintro ⟨u, hu, hrow⟩
    exact ⟨u, s.transaction, hu,
      (mem_standingsOf (hb u (List.mem_of_getElem? hu))).2 ⟨rfl, hrow⟩⟩

theorem pairwise_standingsOf (h : t.IsSound) (u : Transaction) (transaction : Nat) :
    (t.standingsOf u transaction).Pairwise fun x y => x.1.Before y.1 := by
  rw [standingsOf, List.pairwise_flatMap]
  constructor
  · -- In one output: by the offset, then by the number.
    intro output _
    refine List.pairwise_map.2 ((pairwise_rowsIn h _).imp ?_)
    intro x y hxy
    exact .inr ⟨rfl, .inr ⟨rfl, hxy⟩⟩
  · -- In two outputs: by their positions.
    refine (pairwise_zipIdx u.outputs).imp ?_
    intro output output' hlt x hx y hy
    obtain ⟨_, -, rfl⟩ := List.mem_map.1 hx
    obtain ⟨_, -, rfl⟩ := List.mem_map.1 hy
    exact .inr ⟨rfl, .inl hlt⟩

/-- The inscriptions of a block are listed in their order. -/
theorem pairwise_standings (h : t.IsSound) (b : Block) :
    (t.standings b).Pairwise fun x y => x.1.Before y.1 := by
  have htransaction {u : Transaction} {transaction : Nat} {x : Standing × InscriptionId}
      (hx : x ∈ t.standingsOf u transaction) : x.1.transaction = transaction := by
    obtain ⟨_, -, hx⟩ := List.mem_flatMap.1 hx
    obtain ⟨_, -, rfl⟩ := List.mem_map.1 hx
    rfl
  rw [standings, List.pairwise_flatMap]
  constructor
  · intro p _
    exact pairwise_standingsOf h p.1 p.2
  · refine (pairwise_zipIdx b.transactions).imp ?_
    intro p q hlt x hx y hy
    refine .inl ?_
    rw [htransaction hx, htransaction hy]
    exact hlt

end Tables

/-! ## What is listed -/

theorem fitsColumn_natCast (n : Nat) : fitsColumn n = true ↔ n < 2 ^ 63 := by
  simp only [fitsColumn, Bool.and_eq_true, decide_eq_true_eq]
  omega

theorem Transaction.forall_outPoints_fitsColumn (u : Transaction) :
    (∀ x ∈ u.outPoints, fitsColumn x.1.vout = true) ↔ u.outputs.length ≤ 2 ^ 63 := by
  have hiff : (∀ x ∈ u.outPoints, fitsColumn x.1.vout = true) ↔
      ∀ k < u.outputs.length, k < 2 ^ 63 := by
    constructor
    · intro h k hk
      have hmem : ((⟨u.txid, k⟩, u.outputs[k]) : OutPoint × TxOut) ∈ u.outPoints :=
        List.mem_map.2 ⟨(u.outputs[k], k),
          List.mk_mem_zipIdx_iff_getElem?.2 (List.getElem?_eq_getElem hk), rfl⟩
      have hfit := h _ hmem
      rwa [fitsColumn_natCast] at hfit
    · intro h x hx
      obtain ⟨⟨output, k⟩, hmem, rfl⟩ := List.mem_map.1 hx
      obtain ⟨hk, -⟩ := List.getElem?_eq_some_iff.1 (List.mk_mem_zipIdx_iff_getElem?.1 hmem)
      exact (fitsColumn_natCast k).2 (h k hk)
  rw [hiff]
  constructor
  · intro h
    by_contra hlong
    have := h (2 ^ 63) (by omega)
    omega
  · intro h k hk
    omega

/-- The inscriptions of a transaction, in order. -/
def Tables.idsOf (t : Tables) (u : Transaction) : List InscriptionId :=
  (u.outPoints.map fun x => (t.rowsIn x.1).map fun y => y.2.id).flatten

theorem Tables.map_snd_standings (t : Tables) (b : Block) :
    (t.standings b).map Prod.snd = (b.transactions.map t.idsOf).flatten := by
  have hof (u : Transaction) (transaction : Nat) :
      (t.standingsOf u transaction).map Prod.snd = t.idsOf u := by
    rw [standingsOf, List.map_flatMap, idsOf, Transaction.outPoints, List.map_map,
      ← List.flatMap_def]
    refine List.flatMap_congr fun p _ => ?_
    rw [List.map_map]
    rfl
  have hfst : (b.transactions.zipIdx.map Prod.fst).flatMap t.idsOf =
      b.transactions.zipIdx.flatMap fun p => t.idsOf p.1 := List.flatMap_map ..
  rw [standings, List.map_flatMap, ← List.flatMap_def]
  simp only [hof]
  rw [← hfst, List.zipIdx_map_fst]

namespace Index

variable {index : Index}

theorem onOutput_eq (hopen : index.isClosed = false) {txid : TransactionId} (htxid : txid.IsText)
    (vout : Int) :
    index.onOutput ⟨txid, vout⟩ =
      if fitsColumn vout = true then
        .ok ((index.tables.rowsIn ⟨txid, vout⟩).map fun x => x.2.id)
      else .error .magnitude := by
  obtain ⟨s, rfl⟩ := htxid
  unfold onOutput
  rw [queryId_ofText hopen, requireFit, List.all_cons, List.all_nil, Bool.and_true]
  split
  · rfl
  · rfl

theorem idsOfTransaction_eq (hopen : index.isClosed = false) {u : Transaction}
    (hu : u.txid.IsText) :
    index.idsOfTransaction u =
      if u.outputs.length ≤ 2 ^ 63 then .ok (index.tables.idsOf u) else .error .magnitude := by
  have houtputs : ∀ x ∈ u.outPoints, index.onOutput x.1 =
      if fitsColumn x.1.vout = true then
        .ok ((index.tables.rowsIn x.1).map fun y => y.2.id)
      else .error .magnitude := by
    intro x hx
    obtain ⟨_, -, rfl⟩ := List.mem_map.1 hx
    exact onOutput_eq hopen hu _
  unfold idsOfTransaction
  rw [Outcome.mapM_eq_ite houtputs, if_congr u.forall_outPoints_fitsColumn rfl rfl]
  split
  · rfl
  · rfl

/-- For a block are listed the inscriptions that stand in it, unless a transaction has more outputs
than can be asked for. -/
theorem idsOfBlock_eq (hopen : index.isClosed = false) {b : Block}
    (hb : ∀ u ∈ b.transactions, u.txid.IsText) :
    index.idsOfBlock b =
      if ∀ u ∈ b.transactions, u.outputs.length ≤ 2 ^ 63 then
        .ok ((index.tables.standings b).map Prod.snd)
      else .error .magnitude := by
  unfold idsOfBlock
  rw [Outcome.mapM_eq_ite fun u hu => idsOfTransaction_eq hopen (hb u hu), Tables.map_snd_standings]
  split
  · rfl
  · rfl

/-- An inscription stands in a block: its place is in an output of a transaction of the block. -/
def StandsIn (index : Index) (b : Block) (id : InscriptionId) (s : Standing) : Prop :=
  ∃ u e, b.transactions[s.transaction]? = some u ∧ s.output < u.outputs.length ∧
    index.location? id = .ok (some ⟨⟨u.txid, s.output⟩, s.offset⟩) ∧
    index.entry? id = .ok (some e) ∧ e.number = s.number

/-- The listing of a block: each inscription that stands in it once, in order. -/
structure Lists (index : Index) (b : Block) (ids : List InscriptionId) : Prop where
  nodup : ids.Nodup
  mem_iff : ∀ id, id ∈ ids ↔ id.txid.IsText ∧ ∃ s, index.StandsIn b id s
  ordered : ids.Pairwise fun x y =>
    ∀ s s', index.StandsIn b x s → index.StandsIn b y s' → s.Before s'

/-- An inscription stands in a block at one place only, if no two transactions have the same id. -/
theorem StandsIn.unique {b : Block} (hb : (b.transactions.map Transaction.txid).Nodup)
    {id : InscriptionId} {s s' : Standing} (h : index.StandsIn b id s)
    (h' : index.StandsIn b id s') : s = s' := by
  obtain ⟨u, e, hu, -, hlocation, hentry, hnumber⟩ := h
  obtain ⟨u', e', hu', -, hlocation', hentry', hnumber'⟩ := h'
  rw [hlocation] at hlocation'
  rw [hentry] at hentry'
  simp only [Except.ok.injEq, Option.some.injEq, SatPoint.mk.injEq, OutPoint.mk.injEq,
    Int.natCast_inj] at hlocation' hentry'
  obtain ⟨⟨htxid, houtput⟩, hoffset⟩ := hlocation'
  have htransaction : s.transaction = s'.transaction := by
    have hlt : s.transaction < (b.transactions.map Transaction.txid).length := by
      rw [List.length_map]
      exact (List.getElem?_eq_some_iff.1 hu).1
    refine (List.getElem?_inj hlt hb).1 ?_
    rw [List.getElem?_map, List.getElem?_map, hu, hu', Option.map_some, Option.map_some, htxid]
  refine Standing.ext htransaction houtput hoffset ?_
  rw [← hnumber, ← hnumber', hentry']

theorem mem_standings_iff_standsIn (hopen : index.isClosed = false)
    (hsound : index.tables.IsSound) (htext : index.tables.IsTextual) {b : Block}
    (hb : ∀ u ∈ b.transactions, u.txid.IsText) {s : Standing} {id : InscriptionId} :
    (s, id) ∈ index.tables.standings b ↔ id.txid.IsText ∧ index.StandsIn b id s := by
  have hnamed := htext.inscriptions
  rw [Tables.mem_standings hb]
  constructor
  · rintro ⟨u, hu, houtput, r, hr, hlocation, hnumber, rfl⟩
    have hid := (htext.inscriptions r hr).txid
    exact ⟨hid, u, r.entry, hu, houtput,
      (location?_eq_some_iff hopen hsound hnamed hid).2 ⟨r, hr, rfl, hlocation⟩,
      (entry?_eq_some_iff hopen hsound hnamed hid).2 ⟨r, hr, rfl, rfl⟩, hnumber⟩
  · rintro ⟨hid, u, e, hu, houtput, hlocation, hentry, hnumber⟩
    obtain ⟨r, hr, hrid, hlocation⟩ :=
      (location?_eq_some_iff hopen hsound hnamed hid).1 hlocation
    obtain ⟨r', hr', hrid', rfl⟩ := (entry?_eq_some_iff hopen hsound hnamed hid).1 hentry
    -- Place and entry are read from one row, the one of the id.
    have hrow := (row?_eq_some_iff hopen hsound hnamed hid).2 ⟨hr, hrid⟩
    rw [(row?_eq_some_iff hopen hsound hnamed hid).2 ⟨hr', hrid'⟩] at hrow
    obtain rfl : r' = r := by simpa using hrow
    exact ⟨u, hu, houtput, r', hr', hlocation, hnumber, hrid'⟩

theorem lists_standings (hopen : index.isClosed = false) (hsound : index.tables.IsSound)
    (htext : index.tables.IsTextual) {b : Block} (hb : index.tables.Holds b) :
    index.Lists b ((index.tables.standings b).map Prod.snd) := by
  have hstands (x : Standing × InscriptionId) :
      x ∈ index.tables.standings b ↔ x.2.txid.IsText ∧ index.StandsIn b x.2 x.1 :=
    mem_standings_iff_standsIn hopen hsound htext (hb.isText_txid htext)
  have hunique {id : InscriptionId} {s s' : Standing} (h : index.StandsIn b id s)
      (h' : index.StandsIn b id s') : s = s' := h.unique (hb.nodup_txid hsound htext) h'
  have hbefore := Tables.pairwise_standings hsound b
  constructor
  case nodup =>
    refine List.pairwise_map.2 (hbefore.imp_of_mem ?_)
    intro x y hx hy hlt heq
    have hx := ((hstands x).1 hx).2
    rw [heq] at hx
    rw [hunique hx ((hstands y).1 hy).2] at hlt
    exact y.1.before_irrefl hlt
  case mem_iff =>
    intro id
    rw [List.mem_map]
    constructor
    · rintro ⟨x, hx, rfl⟩
      obtain ⟨hid, hs⟩ := (hstands x).1 hx
      exact ⟨hid, x.1, hs⟩
    · rintro ⟨hid, s, hs⟩
      exact ⟨(s, id), (hstands (s, id)).2 ⟨hid, hs⟩, rfl⟩
  case ordered =>
    refine List.pairwise_map.2 (hbefore.imp_of_mem ?_)
    intro x y hx hy hlt s s' hs hs'
    rw [hunique hs ((hstands x).1 hx).2, hunique hs' ((hstands y).1 hy).2]
    exact hlt

/-- An inscription stands in one block only: a transaction has one row, which is at one height. -/
theorem StandsIn.eq_of_holds (hsound : index.tables.IsSound) (htext : index.tables.IsTextual)
    {b c : Block} (hb : index.tables.Holds b) (hc : index.tables.Holds c) {id : InscriptionId}
    {s s' : Standing} (h : index.StandsIn b id s) (h' : index.StandsIn c id s') : b = c := by
  obtain ⟨u, _, hu, -, hlocation, -⟩ := h
  obtain ⟨v, _, hv, -, hlocation', -⟩ := h'
  rw [hlocation] at hlocation'
  simp only [Except.ok.injEq, Option.some.injEq, SatPoint.mk.injEq,
    OutPoint.mk.injEq] at hlocation'
  obtain ⟨⟨htxid, -⟩, -⟩ := hlocation'
  obtain ⟨r, hr, hru⟩ := hb.exists_row (List.mem_of_getElem? hu)
  obtain ⟨r', hr', hrv⟩ := hc.exists_row (List.mem_of_getElem? hv)
  obtain ⟨hmem, hat⟩ := Tables.mem_rowsAt.1 hr
  obtain ⟨hmem', hat'⟩ := Tables.mem_rowsAt.1 hr'
  obtain ⟨x, hx⟩ := hb.isText_txid htext u (List.mem_of_getElem? hu)
  have hfor : r.isFor (some x) = true := by
    rw [TransactionRow.isFor_some, hru.txid, hx, TransactionId.cell?_ofText]
  have hfor' : r'.isFor (some x) = true := by
    rw [TransactionRow.isFor_some, hrv.txid, ← htxid, hx, TransactionId.cell?_ofText]
  obtain rfl := hsound.eq_of_isFor hmem hmem' hfor hfor'
  exact hb.eq_of_height hsound hc (r.isAt_unique hat hat')

/-- The listing of a block that is read after a run: the inscriptions whose places are in outputs of
the block, each once, by the position of the transaction, the output, the offset and the number. No
other block lists one of them. Only a block with more outputs than can be asked for has none. -/
theorem idsOfBlock_run {ws : List Write} (htext : ∀ w ∈ ws, w.IsTextual) {ref : BlockRef}
    {b : Block} (hb : (({} : Index).run ws).block? ref = .ok (some b)) :
    (∃ ids, (({} : Index).run ws).Lists b ids ∧
      (({} : Index).run ws).idsOfBlock b =
        if ∀ u ∈ b.transactions, u.outputs.length ≤ 2 ^ 63 then .ok ids else .error .magnitude) ∧
    ∀ ref' c, (({} : Index).run ws).block? ref' = .ok (some c) → c ≠ b → ∀ ids ids',
      (({} : Index).run ws).idsOfBlock b = .ok ids →
      (({} : Index).run ws).idsOfBlock c = .ok ids' → ids.Disjoint ids' := by
  have hopen : (({} : Index).run ws).isClosed = false := isClosed_run {} ws
  have hsound := isSound_run ws
  have htext := isTextual_run htext
  have hread {ref : BlockRef} {c : Block}
      (hc : (({} : Index).run ws).block? ref = .ok (some c)) :
      (({} : Index).run ws).tables.Holds c := ((block?_eq_some_iff hopen hsound).1 hc).2.2
  have hlists {c : Block} (hc : (({} : Index).run ws).tables.Holds c) {ids : List InscriptionId}
      (hids : (({} : Index).run ws).idsOfBlock c = .ok ids) :
      (({} : Index).run ws).Lists c ids := by
    rw [idsOfBlock_eq hopen (hc.isText_txid htext)] at hids
    split at hids
    · obtain rfl := Except.ok.inj hids
      exact lists_standings hopen hsound htext hc
    · cases hids
  constructor
  · refine ⟨_, lists_standings hopen hsound htext (hread hb), ?_⟩
    exact idsOfBlock_eq hopen ((hread hb).isText_txid htext)
  · intro ref' c hc hne ids ids' hids hids' id hid hid'
    obtain ⟨-, s, hs⟩ := ((hlists (hread hb) hids).mem_iff id).1 hid
    obtain ⟨-, s', hs'⟩ := ((hlists (hread hc) hids').mem_iff id).1 hid'
    exact hne (hs'.eq_of_holds hsound htext (hread hc) (hread hb) hs)

/-- Two inscriptions in an output, the one of the greater number at the smaller offset. -/
theorem idsOfBlock_run_pair :
    let b : Block := ⟨"b1", 5, [⟨.ofText "a1", [], [⟨100, []⟩]⟩]⟩
    let ws : List Write := [.ofBlock b,
      .inscription ⟨.ofText "a1", 0⟩ ⟨some 1, some 5, some 0, some 0, none⟩ {}
        (some ⟨⟨.ofText "a1", 0⟩, 9⟩),
      .inscription ⟨.ofText "a1", 1⟩ ⟨some 2, some 5, some 0, some 0, none⟩ {}
        (some ⟨⟨.ofText "a1", 0⟩, 3⟩)]
    (({} : Index).run ws).idsOfBlock b = .ok [⟨.ofText "a1", 1⟩, ⟨.ofText "a1", 0⟩] ∧
      (({} : Index).run ws).Lists b [⟨.ofText "a1", 1⟩, ⟨.ofText "a1", 0⟩] := by
  intro b ws
  have hread : (({} : Index).run ws).block? (.height 5) = .ok (some b) := by cbv
  have hids : (({} : Index).run ws).idsOfBlock b =
      .ok [⟨.ofText "a1", 1⟩, ⟨.ofText "a1", 0⟩] := by cbv
  have htext : ∀ w ∈ ws, w.IsTextual := by
    simp [ws, b, Write.IsTextual, Write.ofBlock, TransactionId.IsText]
  obtain ⟨⟨ids, hlists, heq⟩, -⟩ := idsOfBlock_run htext hread
  rw [if_pos (by decide)] at heq
  obtain rfl := Except.ok.inj (heq.symm.trans hids)
  exact ⟨hids, hlists⟩

end Index

end InscriptionLedger
