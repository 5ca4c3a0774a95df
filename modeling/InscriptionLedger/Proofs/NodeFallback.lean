import InscriptionLedger.Proofs.InscriptionEffect
import InscriptionLedger.Proofs.InscriptionViews
import InscriptionLedger.Proofs.Snapshots

/-!
# Transactions that the node stands in for

The transaction of the output that holds an inscription comes from the index or else from the node.
A view made with the node's transaction, because the index has none or fails to read its own, is the
view that is made without a node once that transaction is stored.

## Main definitions

* `Index.storing`: an index with a transaction stored

## Main results

* `Index.write_transaction_eq_none_iff`: a transaction whose id is a text can be stored if it can be
  written
* `Viewer.view_eq_of_given`: views of one row whose parts are looked up alike
* `Viewer.view_storing`: the view once the transaction of its place is stored
* `Viewer.view_eq_view_storing`: a transaction of the node is as good as a stored one
-/

namespace InscriptionLedger

/-! ## Storing a transaction -/

theorem TransactionId.contains_ofText {ids : List TransactionId} {s : String} :
    ids.contains (.ofText s) = true ↔ .ofText s ∈ ids := by
  rw [List.contains_iff_exists_mem_beq]
  simp only [ofText_beq_iff, exists_eq_right]

namespace Index

theorem exists_row_of_location {index : Index} {id : InscriptionId} {place : SatPoint}
    (h : index.location? id = .ok (some place)) :
    ∃ r, index.row? id = .ok (some r) ∧ r.location = some place := by
  rw [location?, Outcome.bind_eq_ok_iff] at h
  obtain ⟨o, ho, hplace⟩ := h
  obtain ⟨r, rfl, hlocation⟩ := Option.bind_eq_some_iff.1 (Except.ok.inj hplace)
  exact ⟨r, ho, hlocation⟩

/-- The index with a transaction stored that stands in no block. -/
def storing (index : Index) (t : Transaction) : Index :=
  { index with tables := index.tables.putTransaction (t.row none) }

variable {index : Index} {t : Transaction} {txid : String}

@[simp] theorem row?_storing (id : InscriptionId) : (index.storing t).row? id = index.row? id := by
  unfold storing
  exact row?_congr rfl

@[simp] theorem idOfNumber?_storing (n : Int) :
    (index.storing t).idOfNumber? n = index.idOfNumber? n := by
  unfold storing
  exact idOfNumber?_congr rfl

theorem write_transaction_eq_none_iff (hopen : index.isClosed = false)
    (ht : t.txid = .ofText txid) {after : Index} :
    index.write (.transaction t) = (after, none) ↔
      t.isWritable = true ∧ after = index.storing t := by
  rw [write_eq_none_iff, and_iff_right hopen]
  constructor
  · rintro ⟨_, hstep, rfl⟩
    cases hstep with
    | transaction _ fit => exact ⟨fit.writable, rfl⟩
  · rintro ⟨hwritable, rfl⟩
    have hids : (Statement.putTransaction t none).ids = [.ofText txid] := by rw [← ht]; rfl
    have hfit : (Statement.putTransaction t none).IsFit := by
      refine ⟨hwritable, ?_, ?_⟩
      · rw [hids]
        rfl
      · rw [hids]
        exact List.forall_mem_nil _
    exact ⟨_, .transaction t hfit, rfl⟩

/-- The transaction that was stored is read under its id. -/
theorem transaction?_storing_self (hopen : index.isClosed = false)
    (hreadable : index.unreadableTransactions.contains (.ofText txid) = false)
    (ht : t.txid = .ofText txid) (hback : t.IsReadable) :
    (index.storing t).transaction? (.ofText txid) = .ok (some t) := by
  have hrow : (t.row none).isFor (some txid) = true := by
    rw [TransactionRow.isFor_some, Transaction.txid_row, ht, TransactionId.cell?_ofText]
  -- Rows of the id were taken out, so that the new one is the first that is found.
  have hfind : (index.storing t).tables.transactions.find? (fun r => r.isFor (some txid)) =
      some (t.row none) := by
    have hold : (index.tables.transactions.filter fun r => !r.isFor (some txid)).find?
        (fun r => r.isFor (some txid)) = none := by
      simp [List.find?_eq_none]
    rw [storing, Tables.putTransaction, Transaction.txid_row, ht, TransactionId.cell?_ofText,
      List.find?_append, hold, Option.none_or, List.find?_cons_of_pos hrow]
  have hopen' : (index.storing t).isClosed = false := hopen
  rw [transaction?_eq hopen' hreadable rfl (by simp), TransactionId.cell?_ofText, hfind]
  change (Transaction.ofStored? t.toStored).map some = _
  rw [Transaction.ofStored?_toStored hback]
  rfl

/-- Transactions under other ids are read as before. -/
theorem transaction?_storing_of_ne {other : TransactionId} (ht : t.txid = .ofText txid)
    (hother : other.cell? ≠ some txid) :
    (index.storing t).transaction? other = index.transaction? other := by
  refine transaction?_congr (find?_filter_append ?_ ?_)
  · intro r _ hr
    obtain ⟨s, hs, hcell⟩ := TransactionRow.isFor_iff.1 hr
    rw [Transaction.txid_row, ht, TransactionId.cell?_ofText, Bool.not_eq_true',
      ← Bool.not_eq_true, TransactionRow.isFor_some, hs]
    exact fun heq => hother (hcell.trans heq)
  · intro r hr
    obtain rfl := List.mem_singleton.1 hr
    rw [← Bool.not_eq_true, TransactionRow.isFor_iff, Transaction.txid_row, ht,
      TransactionId.cell?_ofText]
    rintro ⟨s, hs, hcell⟩
    exact hother (hcell.trans hs.symm)

/-- Transactions under other ids are read as before when one becomes unreadable. -/
theorem transaction?_failing_of_ne {other : TransactionId} (hother : other.cell? ≠ some txid) :
    ({ index with unreadableTransactions := .ofText txid :: index.unreadableTransactions } :
      Index).transaction? other = index.transaction? other := by
  have hne : (other == .ofText txid) = false := by
    rw [← Bool.not_eq_true, BEq.comm, TransactionId.ofText_beq_iff]
    rintro rfl
    exact hother (TransactionId.cell?_ofText txid)
  unfold transaction?
  rw [List.contains_cons, hne, Bool.false_or]
  rfl

end Index

/-! ## Views from the one and the other -/

namespace Viewer

variable {viewer other : Viewer} {id : InscriptionId} {r : InscriptionRow} {place : SatPoint}

/-! ### Where the transaction comes from -/

variable {t : Transaction} {txid : TransactionId}

/-- A transaction that the index has not, or fails to give, is the one that the node gives. -/
theorem currentTransaction_of_missing
    (h : orMissing isLookup (viewer.index.transaction? txid) = .ok none) {node : Node}
    (hnode : viewer.node? = some node) (hgiven : node.transaction txid = .ok t) :
    viewer.currentTransaction txid = .ok (some t) := by
  have hasked : viewer.askNode txid = .ok (some t) := by
    rw [askNode, hnode]
    dsimp only
    rw [hgiven]
    rfl
  rw [currentTransaction, h, ← hasked]
  rfl

/-! ### Views of one row -/

/-- Views of one row are the same if the transaction of its place is the same in both, and so is
what is looked up under numbers and under the id's own transaction. -/
theorem view_eq_of_given (hrow : viewer.index.row? id = .ok (some r))
    (hrow' : other.index.row? id = .ok (some r)) (hplace : r.location = some place)
    (hgiven : viewer.currentTransaction place.outpoint.txid = .ok (some t))
    (hgiven' : other.currentTransaction place.outpoint.txid = .ok (some t))
    (hnumber : ∀ n, viewer.index.idOfNumber? n = other.index.idOfNumber? n)
    (hgenesis : viewer.index.transaction? id.txid = other.index.transaction? id.txid)
    (hnetwork : viewer.network = other.network) (hkey : viewer.ownerKey = other.ownerKey) :
    viewer.view id = other.view id := by
  have houtput : viewer.currentOutput id place = other.currentOutput id place := by
    rw [currentOutput_of_given hgiven, currentOutput_of_given hgiven']
  have hprevious (n : Int) : viewer.previousOf n = other.previousOf n := by
    rw [previousOf, previousOf, hnumber]
  have hfirst : viewer.firstOwner id place = other.firstOwner id place := by
    rw [firstOwner, firstOwner, hgenesis, hkey, hnetwork]
  rw [view_eq_of_row hrow hplace, view_eq_of_row hrow' hplace, houtput, hprevious, hnumber, hfirst,
    hnetwork]

/-- The view without a node, once the transaction of its place is stored: where nothing else fails,
it tells the output of the transaction, or that output is what is not found. -/
theorem view_storing {index : Index} (hhealthy : index.IsHealthy)
    (hrow : index.row? id = .ok (some r)) (hshowable : r.IsShowable)
    (hplace : r.location = some place) {network : Network} {key : OwnerKey}
    (hstored : currentTransaction ⟨index.storing t, network, key, none⟩ place.outpoint.txid =
      .ok (some t))
    (hid : id.txid.IsText)
    (hgenesis : (index.storing t).transaction? id.txid = index.transaction? id.txid) :
    match t.output? place.outpoint.vout with
    | some o => ∃ v, view ⟨index.storing t, network, key, none⟩ id = .ok v ∧ v.output = some o
    | none => view ⟨index.storing t, network, key, none⟩ id =
        .error (.notFound (.currentOutput id)) := by
  let before : Viewer := ⟨index, network, key, none⟩
  let after : Viewer := ⟨index.storing t, network, key, none⟩
  have hbefore : before.index.IsHealthy := hhealthy
  have hrow' : after.index.row? id = .ok (some r) := by rw [Index.row?_storing, hrow]
  have hprevious : ∃ o, after.previousOf r.entry.number = .ok o := by
    rw [previousOf, Index.idOfNumber?_storing]
    exact exists_previousOf hbefore.isOpen hbefore.numbers hshowable.number
  have hnext : ∃ o, after.index.idOfNumber? (r.entry.number + 1) = .ok o := by
    rw [Index.idOfNumber?_storing]
    exact exists_next hbefore.isOpen hbefore.numbers hshowable.number
  have hfirst : ∃ o, after.firstOwner id place = .ok o := by
    rw [firstOwner, hgenesis]
    exact exists_firstOwner hbefore hid _
  have hjoins := joins_of_given hrow' hplace hstored hprevious hnext hshowable.exists_sat hfirst
  cases ho : t.output? place.outpoint.vout with
  | some o =>
    rw [ho] at hjoins
    obtain ⟨v, hjoins, houtput⟩ := hjoins
    exact ⟨v, view_eq_ok_iff.2 ⟨r, hjoins⟩, houtput⟩
  | none =>
    rw [ho] at hjoins
    exact hjoins

end Viewer

/-- What a node gives for an id: the transaction that its answer is read as. -/
theorem Node.transaction_of_ofNode? {node : Node} {txid : TransactionId} {value : Json}
    {t : Transaction} (hanswer : node.call (transactionCall txid 1) = .ok value)
    (hvalue : Transaction.ofNode? value = .ok t) : node.transaction txid = .ok t := by
  rw [transaction, hanswer, Outcome.ok_bind]
  cases value with
  | object members => exact hvalue
  | _ => cases hvalue

namespace Viewer

/-- A view made with a transaction of the node, which the index does not have, or of which its read
fails, is the view made without a node once that transaction is stored, which it can be exactly if
it can be written. If nothing else fails, it is a view that tells the output of the transaction, or
that output is what is not found. -/
theorem view_eq_view_storing (network : Network) (key : OwnerKey) {index : Index}
    (hopen : index.isClosed = false) {node : Node} {id : InscriptionId} {txid : String}
    {vout offset : Int} {value : Json} {t : Transaction}
    (hplace : index.location? id = .ok (some ⟨⟨.ofText txid, vout⟩, offset⟩))
    (hother : id.txid.cell? ≠ some txid)
    (hreadable : .ofText txid ∉ index.unreadableTransactions)
    (ht : t.txid = .ofText txid) (hback : t.IsReadable)
    (hanswer : node.call (Node.transactionCall (.ofText txid) 1) = .ok value)
    (hvalue : Transaction.ofNode? value = .ok t) :
    ((∃ after, index.write (.transaction t) = (after, none)) ↔ t.isWritable = true) ∧
    ∀ after, index.write (.transaction t) = (after, none) →
      (index.transaction? (.ofText txid) = .ok none →
        view ⟨index, network, key, some node⟩ id = view ⟨after, network, key, none⟩ id) ∧
      view ⟨{ index with unreadableTransactions := .ofText txid :: index.unreadableTransactions },
        network, key, some node⟩ id = view ⟨after, network, key, none⟩ id ∧
      ∀ r, index.IsHealthy → id.txid.IsText → index.row? id = .ok (some r) → r.IsShowable →
        match t.output? vout with
        | some o => ∃ v, view ⟨after, network, key, none⟩ id = .ok v ∧ v.output = some o
        | none => view ⟨after, network, key, none⟩ id = .error (.notFound (.currentOutput id)) := by
  obtain ⟨r, hrow, hplace⟩ := Index.exists_row_of_location hplace
  have hgiven := Node.transaction_of_ofNode? hanswer hvalue
  have hcontains : index.unreadableTransactions.contains (.ofText txid) = false := by
    rwa [← Bool.not_eq_true, TransactionId.contains_ofText]
  have hrow' : (index.storing t).row? id = .ok (some r) := by rw [Index.row?_storing, hrow]
  have hgenesis := index.transaction?_storing_of_ne ht hother
  -- All three viewers have the transaction at the place of the inscription, from one or the other.
  have hstored : currentTransaction ⟨index.storing t, network, key, none⟩ (.ofText txid) =
      .ok (some t) :=
    currentTransaction_of_some (Index.transaction?_storing_self hopen hcontains ht hback)
  have hwritten {after : Index} : index.write (.transaction t) = (after, none) ↔
      t.isWritable = true ∧ after = index.storing t :=
    Index.write_transaction_eq_none_iff hopen ht
  refine ⟨by simp only [hwritten, exists_and_left, exists_eq, and_true], fun after hafter => ?_⟩
  obtain rfl := (hwritten.1 hafter).2
  refine ⟨fun hnone => ?_, ?_, ?_⟩
  · have hmissing : orMissing isLookup (index.transaction? (.ofText txid)) = .ok none := by
      rw [hnone]
      rfl
    exact view_eq_of_given hrow hrow' hplace (currentTransaction_of_missing hmissing rfl hgiven)
      hstored (fun n => (Index.idOfNumber?_storing n).symm) hgenesis.symm rfl rfl
  · let spoiled : Index :=
      { index with unreadableTransactions := .ofText txid :: index.unreadableTransactions }
    have hmissing : orMissing isLookup (spoiled.transaction? (.ofText txid)) = .ok none := by
      rw [Index.transaction?, if_pos (TransactionId.contains_ofText.2 (List.mem_cons_self ..))]
      rfl
    have hgenesis' : spoiled.transaction? id.txid = index.transaction? id.txid :=
      index.transaction?_failing_of_ne hother
    exact view_eq_of_given hrow hrow' hplace (currentTransaction_of_missing hmissing rfl hgiven)
      hstored (fun n => (Index.idOfNumber?_storing n).symm) (hgenesis'.trans hgenesis.symm) rfl rfl
  · intro r' hhealthy hid hr' hshowable
    obtain rfl : r = r' := Option.some.inj (Except.ok.inj (hrow.symm.trans hr'))
    exact view_storing hhealthy hrow hshowable hplace hstored hid hgenesis

/-- A place in the output of a transaction that the node gives and the index does not have. -/
theorem view_eq_view_storing_given :
    let node : Node := fun _ => .ofText 200
      ("\x7b\"result\": \x7b\"txid\": \"t1\", \"vin\": [\x7b\x7d], \"vout\": "
        ++ "[\x7b\"n\": 0, \"value\": 1, \"scriptPubKey\": \x7b\"hex\": \"51\"\x7d\x7d]\x7d\x7d")
    let t : Transaction := ⟨.ofText "t1", [⟨none, []⟩], [⟨100000000, [0x51]⟩]⟩
    let id : InscriptionId := ⟨.ofText "a1", 0⟩
    let place : SatPoint := ⟨⟨.ofText "t1", 0⟩, 7⟩
    let ws : List Write := [.inscription id ⟨some 1, some 5, some 0, some 0, none⟩ {} (some place)]
    ∃ after v, (({} : Index).run ws).write (.transaction t) = (after, none) ∧
      view ⟨({} : Index).run ws, .mainnet, .vout, some node⟩ id = .ok v ∧
      view ⟨after, .mainnet, .vout, none⟩ id = .ok v ∧ v.output = some ⟨100000000, [0x51]⟩ := by
  intro node t id place ws
  let value : Json := .object [("txid", .text "t1"), ("vin", .list [.object []]),
    ("vout", .list [.object [("n", .integer 0), ("value", .integer 1),
      ("scriptPubKey", .object [("hex", .text "51")])]])]
  have hplace : (({} : Index).run ws).location? id = .ok (some place) := by cbv
  have hrow : (({} : Index).run ws).row? id =
      .ok (some ⟨id.text, id, ⟨1, 5, 0, 0, none⟩, {}, some place⟩) := by cbv
  have hnone : (({} : Index).run ws).transaction? (.ofText "t1") = .ok none := by cbv
  have hanswer : node.call (Node.transactionCall (.ofText "t1") 1) = .ok value := by
    dsimp only [node, value]
    cbv
  have hvalue : Transaction.ofNode? value = .ok t :=
    Outcome.toOption_eq_some_iff.1 (by decide +kernel)
  have hback : t.IsReadable := ⟨t.toStored, Transaction.ofStored?_toStored_of_plain (by simp [t])⟩
  have hhealthy : (({} : Index).run ws).IsHealthy :=
    Index.isHealthy_run (by simp [ws, id, Write.IsTextual, TransactionId.IsText])
      (by simp [ws, Write.transactions])
  obtain ⟨hwritten, hall⟩ := view_eq_view_storing .mainnet .vout
    (Index.isClosed_run {} ws) hplace (by decide) (by simp) rfl hback hanswer hvalue
  obtain ⟨after, hwrite⟩ := hwritten.2 (by cbv)
  obtain ⟨hsame, -, hview⟩ := hall after hwrite
  obtain ⟨v, hv, houtput⟩ := hview _ hhealthy ⟨"a1", rfl⟩ hrow ⟨by simp, by decide⟩
  exact ⟨after, v, hwrite, (hsame hnone).trans hv, hv, houtput⟩

end Viewer

end InscriptionLedger
