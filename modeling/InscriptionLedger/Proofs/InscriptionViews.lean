import InscriptionLedger.Proofs.InscriptionReads
import InscriptionLedger.View.Basic

/-!
# Views of inscriptions

A view joins one row of the inscriptions with what is looked up for it. In an index that has come
from writes whose transactions read back, none of these look-ups fails for an inscription whose
satoshi and number are within their ranges and which stands in an output that is stored.

## Main definitions

* `Viewer.Joins`: a view and the row and look-ups that it is joined from
* `Index.IsHealthy`: an index in which no look-up of an inscription or a transaction fails
* `InscriptionRow.IsShowable`: a satoshi and a number that are within their ranges

## Main results

* `Viewer.view_eq_ok_iff`: the views that are made
* `Viewer.view_eq_of_row`: the look-ups of a view of a row with a place, one after another
* `Viewer.joins_of_given`: a view whose transaction is given, or the output that is not found
* `Index.isHealthy_run`: an index is healthy after a run
* `Viewer.exists_view`: the view of an inscription in an output that is stored
-/

namespace InscriptionLedger

/-! ## What a view is joined from -/

@[simp] theorem Transaction.output?_natCast (t : Transaction) (k : Nat) :
    t.output? k = t.outputs[k]? := by
  rw [output?, if_pos (Int.natCast_nonneg k), Int.toNat_natCast]

namespace Viewer

theorem found_eq_ok_iff {α : Type} {entity : Entity} {looked : Outcome (Option α)} {a : α} :
    found entity looked = .ok a ↔ looked = .ok (some a) := by
  unfold found
  rw [Outcome.bind_eq_ok_iff]
  constructor
  · rintro ⟨o, ho, hmatch⟩
    cases o with
    | none => cases hmatch
    | some b =>
      obtain rfl := Except.ok.inj hmatch
      exact ho
  · exact fun h => ⟨some a, h, rfl⟩

/-- The view of an inscription is joined from a row: what the row holds, and what is looked up for
it. -/
structure Joins (viewer : Viewer) (id : InscriptionId) (r : InscriptionRow)
    (v : InscriptionView) : Prop where
  row : viewer.index.row? id = .ok (some r)
  entry : v.entry = r.entry
  contentLength : v.contentLength = r.content.contentLength
  contentType : v.contentType = r.content.contentTypeText
  location : r.location = some v.location
  output : viewer.currentOutput id v.location = .ok v.output
  address : v.address = v.output.bind fun o => viewer.network.address? o.script
  previous : viewer.previousOf r.entry.number = .ok v.previous
  next : viewer.index.idOfNumber? (r.entry.number + 1) = .ok v.next
  sat : r.entry.sat.mapM describeSat = .ok v.sat
  firstOwner : viewer.firstOwner id v.location = .ok v.firstOwner
  network : v.network = viewer.network
  id : v.id = id

variable {viewer : Viewer} {id : InscriptionId} {v : InscriptionView} {t : Transaction}
  {r : InscriptionRow} {place : SatPoint}

/-- A view is made exactly if a row is found and each look-up for it succeeds. -/
theorem view_eq_ok_iff : viewer.view id = .ok v ↔ ∃ r, viewer.Joins id r v := by
  simp only [view, Outcome.bind_eq_ok_iff, found_eq_ok_iff, Index.entry?, Index.content?,
    Index.location?, Outcome.pure_eq_ok, Except.ok.injEq, Option.map_eq_some_iff,
    Option.bind_eq_some_iff]
  constructor
  · rintro ⟨_, ⟨_, hrow, r, rfl, rfl⟩, _, ⟨_, hrow', r', rfl, rfl⟩, location,
      ⟨_, hrow'', r'', rfl, hlocation⟩, output, houtput, previous, hprevious, next, hnext, sat,
      hsat, firstOwner, hfirst, rfl⟩
    obtain rfl : r = r' := by simpa [hrow] using hrow'
    obtain rfl : r = r'' := by simpa [hrow] using hrow''
    exact ⟨r, hrow, rfl, rfl, rfl, hlocation, houtput, rfl, hprevious, hnext, hsat, hfirst, rfl,
      rfl⟩
  · rintro ⟨r, h⟩
    refine ⟨r.entry, ⟨_, h.row, r, rfl, rfl⟩, r.content, ⟨_, h.row, r, rfl, rfl⟩, v.location,
      ⟨_, h.row, r, rfl, h.location⟩, v.output, h.output, v.previous, h.previous, v.next, h.next,
      v.sat, h.sat, v.firstOwner, h.firstOwner, ?_⟩
    rw [← h.id, ← h.entry, ← h.contentLength, ← h.contentType, ← h.address, ← h.network]

/-- The view of an inscription that has a row with a place, by what is looked up for it. -/
theorem view_eq_of_row (hrow : viewer.index.row? id = .ok (some r))
    (hplace : r.location = some place) :
    viewer.view id = do
      let output ← viewer.currentOutput id place
      let previous ← viewer.previousOf r.entry.number
      let next ← viewer.index.idOfNumber? (r.entry.number + 1)
      let sat ← r.entry.sat.mapM describeSat
      let firstOwner ← viewer.firstOwner id place
      return {
        id, sat, entry := r.entry, location := place, output, next, previous, firstOwner
        address := output.bind fun o => viewer.network.address? o.script
        contentLength := r.content.contentLength
        network := viewer.network
        contentType := r.content.contentTypeText } := by
  have hlocation : viewer.index.location? id = .ok (some place) := by
    rw [Index.location?, hrow, Outcome.ok_bind, Option.bind_some, hplace]
    rfl
  rw [view, Index.entry?, Index.content?, hrow, hlocation]
  rfl

theorem currentTransaction_of_some {txid : TransactionId}
    (h : viewer.index.transaction? txid = .ok (some t)) :
    viewer.currentTransaction txid = .ok (some t) := by
  rw [currentTransaction, h]
  rfl

/-- The output that holds an inscription, if its transaction is given. -/
theorem currentOutput_of_given
    (h : viewer.currentTransaction place.outpoint.txid = .ok (some t)) :
    viewer.currentOutput id place =
      match t.output? place.outpoint.vout with
      | some o => .ok (some o)
      | none => .error (.notFound (.currentOutput id)) := by
  rw [currentOutput, h, Outcome.ok_bind]
  dsimp only
  cases t.output? place.outpoint.vout with
  | some o => rfl
  | none => rfl

/-- The view of a row whose place is in a transaction that is given, if nothing fails: it is joined
from the row and tells the output, or the output is what is not found. -/
theorem joins_of_given (hrow : viewer.index.row? id = .ok (some r))
    (hplace : r.location = some place)
    (hgiven : viewer.currentTransaction place.outpoint.txid = .ok (some t))
    (hprevious : ∃ previous, viewer.previousOf r.entry.number = .ok previous)
    (hnext : ∃ next, viewer.index.idOfNumber? (r.entry.number + 1) = .ok next)
    (hsat : ∃ sat, r.entry.sat.mapM describeSat = .ok sat)
    (hfirst : ∃ firstOwner, viewer.firstOwner id place = .ok firstOwner) :
    match t.output? place.outpoint.vout with
    | some o => ∃ v, viewer.Joins id r v ∧ v.output = some o
    | none => viewer.view id = .error (.notFound (.currentOutput id)) := by
  have houtput : viewer.currentOutput id place = _ := currentOutput_of_given hgiven
  cases ho : t.output? place.outpoint.vout with
  | some o =>
    obtain ⟨previous, hprevious⟩ := hprevious
    obtain ⟨next, hnext⟩ := hnext
    obtain ⟨sat, hsat⟩ := hsat
    obtain ⟨firstOwner, hfirst⟩ := hfirst
    rw [ho] at houtput
    let v : InscriptionView := {
      id, sat, entry := r.entry, location := place, output := some o, next, previous, firstOwner
      address := viewer.network.address? o.script
      contentLength := r.content.contentLength
      network := viewer.network
      contentType := r.content.contentTypeText }
    exact ⟨v, ⟨hrow, rfl, rfl, rfl, hplace, houtput, rfl, hprevious, hnext, hsat, hfirst, rfl, rfl⟩,
      rfl⟩
  | none =>
    rw [view_eq_of_row hrow hplace, houtput, ho]
    rfl

theorem id_of_view (h : viewer.view id = .ok v) : v.id = id := by
  obtain ⟨_, hjoins⟩ := view_eq_ok_iff.1 h
  exact hjoins.id

/-- Views of several inscriptions are views of these, in their order. -/
theorem map_id_of_mapM_view {ids : List InscriptionId} {views : List InscriptionView}
    (h : ids.mapM viewer.view = .ok views) : views.map InscriptionView.id = ids := by
  rw [eq_comm, ← List.forall₂_eq_eq_eq, List.forall₂_map_right_iff]
  exact (Outcome.mapM_eq_ok_iff.1 h).imp fun _ _ hv => (id_of_view hv).symm

end Viewer

/-! ## Healthy indexes -/

/-- An index that is open, in which nothing is unreadable, and whose rows read back. -/
structure Index.IsHealthy (index : Index) : Prop where
  isOpen : index.isClosed = false
  numbers : index.unreadableNumbers = []
  transactions : index.unreadableTransactions = []
  sound : index.tables.IsSound
  textual : index.tables.IsTextual
  readable : ∀ r ∈ index.tables.transactions, ∃ u, r.Denotes u

theorem Index.exists_denotes_run {ws : List Write}
    (h : ∀ w ∈ ws, ∀ u ∈ w.transactions, u.IsReadable) :
    ∀ r ∈ (({} : Index).run ws).tables.transactions, ∃ u, r.Denotes u := by
  refine run_induction (P := fun _ t => ∀ r ∈ t.transactions, ∃ u, r.Denotes u) ?_ ?_
  · intro r hr
    cases hr
  · intro done t w after hw hdone hstep r hr
    rcases hstep.mem_transactions hr with hr | ⟨u, hu, place, rfl⟩
    · exact hdone r hr
    · exact ⟨u, rfl, Transaction.ofStored?_toStored (h w hw u hu)⟩

/-- An index is healthy after a run of writes whose ids are texts and whose transactions read
back. -/
theorem Index.isHealthy_run {ws : List Write} (htext : ∀ w ∈ ws, w.IsTextual)
    (hreadable : ∀ w ∈ ws, ∀ u ∈ w.transactions, u.IsReadable) :
    (({} : Index).run ws).IsHealthy where
  isOpen := isClosed_run {} ws
  numbers := unreadableNumbers_run {} ws
  transactions := unreadableTransactions_run {} ws
  sound := isSound_run ws
  textual := isTextual_run htext
  readable := exists_denotes_run hreadable

namespace Index.IsHealthy

variable {index : Index} (h : index.IsHealthy)

include h

theorem exists_transaction? {txid : TransactionId} (htxid : txid.IsText) :
    ∃ o, index.transaction? txid = .ok o := by
  obtain ⟨s, rfl⟩ := htxid
  cases hr : index.tables.transactions.find? fun r => r.isFor (some s) with
  | none => exact ⟨none, transaction?_of_find?_none h.isOpen h.transactions hr⟩
  | some r =>
    obtain ⟨u, hu⟩ := h.readable r (List.mem_of_find?_eq_some hr)
    refine ⟨some u, ?_⟩
    rw [transaction?_of_find?_some h.isOpen h.transactions hr, hu.document]
    rfl

/-- A transaction that a row denotes is read under its id. -/
theorem transaction?_of_denotes {r : TransactionRow} (hr : r ∈ index.tables.transactions)
    {u : Transaction} (hu : r.Denotes u) : index.transaction? u.txid = .ok (some u) := by
  obtain ⟨s, hs⟩ := (h.textual.transactions r hr).isText_of_denotes hu
  have htxid : r.txid = some s := by rw [hu.txid, hs, TransactionId.cell?_ofText]
  rw [hs]
  exact (transaction?_eq_some_iff h.isOpen h.transactions h.sound).2 ⟨r, hr, htxid, hu⟩

end Index.IsHealthy

/-! ## Views in a healthy index -/

/-- A row whose satoshi, if it is known, and whose number are within their ranges. -/
structure InscriptionRow.IsShowable (r : InscriptionRow) : Prop where
  sat : ∀ n ∈ r.entry.sat, 0 ≤ n ∧ n ≤ lastSat
  number : 0 ≤ r.entry.number ∧ r.entry.number ≤ 2 ^ 63 - 2

theorem exists_describeSat {n : Int} (h : 0 ≤ n ∧ n ≤ lastSat) : ∃ v, describeSat n = .ok v := by
  unfold describeSat Sat.ofNumber?
  rw [dif_pos h]
  exact ⟨_, rfl⟩

theorem InscriptionRow.IsShowable.exists_sat {r : InscriptionRow} (h : r.IsShowable) :
    ∃ v, r.entry.sat.mapM describeSat = .ok v := by
  cases hsat : r.entry.sat with
  | none => exact ⟨none, rfl⟩
  | some n =>
    obtain ⟨v, hv⟩ := exists_describeSat (h.sat n hsat)
    refine ⟨some v, ?_⟩
    rw [Option.mapM_some, hv]
    rfl

namespace Viewer

variable {viewer : Viewer}

theorem exists_previousOf (hopen : viewer.index.isClosed = false)
    (hnumbers : viewer.index.unreadableNumbers = []) {number : Int}
    (hfit : 0 ≤ number ∧ number ≤ 2 ^ 63 - 2) : ∃ o, viewer.previousOf number = .ok o := by
  unfold previousOf
  split
  · exact ⟨none, rfl⟩
  · rw [Index.idOfNumber?_eq hopen hnumbers (by simp [fitsColumn]; omega)]
    exact ⟨_, rfl⟩

theorem exists_next (hopen : viewer.index.isClosed = false)
    (hnumbers : viewer.index.unreadableNumbers = []) {number : Int}
    (hfit : 0 ≤ number ∧ number ≤ 2 ^ 63 - 2) :
    ∃ o, viewer.index.idOfNumber? (number + 1) = .ok o :=
  ⟨_, Index.idOfNumber?_eq hopen hnumbers (by simp [fitsColumn]; omega)⟩

variable (h : viewer.index.IsHealthy)

include h

theorem exists_firstOwner {id : InscriptionId} (hid : id.txid.IsText) (location : SatPoint) :
    ∃ o, viewer.firstOwner id location = .ok o := by
  obtain ⟨o, ho⟩ := h.exists_transaction? hid
  unfold firstOwner
  rw [ho, Outcome.ok_bind]
  cases o with
  | none => exact ⟨_, rfl⟩
  | some u => exact ⟨_, rfl⟩

/-- The view of an inscription in an output of a transaction that is stored: there is one, and it
tells that output. -/
theorem exists_view {r : InscriptionRow} (hr : r ∈ viewer.index.tables.inscriptions)
    (hshowable : r.IsShowable) {s : TransactionRow} (hs : s ∈ viewer.index.tables.transactions)
    {u : Transaction} (hu : s.Denotes u) {vout : Nat} {o : TxOut} (ho : u.outputs[vout]? = some o)
    {offset : Int} (hlocation : r.location = some ⟨⟨u.txid, vout⟩, offset⟩) :
    ∃ v, viewer.view r.id = .ok v ∧ v.id = r.id ∧ v.location = ⟨⟨u.txid, vout⟩, offset⟩ ∧
      v.output = some o ∧ v.address = viewer.network.address? o.script := by
  have hid : r.id.txid.IsText := (h.textual.inscriptions r hr).txid
  have hrow := (Index.row?_eq_some_iff h.isOpen h.sound h.textual.inscriptions hid).2 ⟨hr, rfl⟩
  have hjoins := joins_of_given hrow hlocation
    (currentTransaction_of_some (h.transaction?_of_denotes hs hu))
    (exists_previousOf h.isOpen h.numbers hshowable.number)
    (exists_next h.isOpen h.numbers hshowable.number) hshowable.exists_sat
    (exists_firstOwner h hid _)
  rw [Transaction.output?_natCast, ho] at hjoins
  obtain ⟨v, hjoins, houtput⟩ := hjoins
  have hplace : v.location = ⟨⟨u.txid, vout⟩, offset⟩ :=
    Option.some.inj (hjoins.location.symm.trans hlocation)
  exact ⟨v, view_eq_ok_iff.2 ⟨r, hjoins⟩, hjoins.id, hplace, houtput, by
    rw [hjoins.address, houtput, Option.bind_some]⟩

end Viewer

end InscriptionLedger
