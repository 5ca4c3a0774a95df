import InscriptionLedger.Proofs.InscriptionEffect
import InscriptionLedger.Proofs.InscriptionViews
import InscriptionLedger.Proofs.NodeAnswers

/-!
# Pending and confirmed views

An inscription is seen twice: pending, in a snapshot of the node, and later confirmed, in an index
that stores its transaction in a block and the inscription at one of the outputs. What is told of it
before is told of it afterwards, in the same words.

## Main definitions

* `Transaction.IsStorable`: transactions whose stored form reads back, if not as they were
* `IsStoredIn`, `IsAddedIn`: logs in which a transaction and an inscription were written to stay
* `IsConfirmedIn`: logs in which an inscription was added at an output of its transaction
* `Json.under`, `LightView.names`: what an object holds under a name, and the names of a light view

## Main results

* `Transaction.exists_ofStored?_toStored`: a storable transaction reads back with its outputs
* `Index.exists_row_of_isStoredIn`, `Index.mem_inscriptions_of_isAddedIn`: the rows that stay
* `Viewer.view_of_isConfirmedIn`: the view of an inscription that was added to an output
* `Snapshot.view_agrees_run`: the pending view agrees with the confirmed one
-/

namespace InscriptionLedger

/-! ## Stored forms that read back -/

/-- A transaction whose inputs spend outputs with texts that can be read, as whatever outputs. -/
def Transaction.IsStorable (t : Transaction) : Prop :=
  ∀ i ∈ t.inputs, ∀ p ∈ i.previous, ∃ q, OutPoint.read? p.text = .ok q

theorem TxIn.exists_ofStored?_toJson {i : TxIn}
    (h : ∀ p ∈ i.previous, ∃ q, OutPoint.read? p.text = .ok q) :
    ∃ j, TxIn.ofStored? i.toJson = .ok j := by
  have hprevious : ∃ previous,
      readPrevious? (Json.ofOption (fun p : OutPoint => .text p.text) i.previous) =
        .ok previous := by
    cases hp : i.previous with
    | none => exact ⟨none, rfl⟩
    | some p =>
      obtain ⟨q, hq⟩ := h p hp
      have htruthy : (Json.text p.text).isTruthy = true := by
        simp [Json.isTruthy, OutPoint.text]
      exact ⟨some q, by simp [Json.ofOption, readPrevious?, htruthy, Json.toText, hq]⟩
  obtain ⟨previous, hprevious⟩ := hprevious
  have hwitness : (i.witness.map storedBytes).mapM Json.toBytes = .ok i.witness :=
    Outcome.mapM_eq_ok_iff.2 (List.forall₂_map_left_iff.2
      (List.forall₂_same.2 fun bytes _ => toBytes_storedBytes bytes))
  refine ⟨⟨previous, i.witness⟩, ?_⟩
  simp [TxIn.ofStored?, TxIn.toJson, Json.toMembers, Json.member, Json.memberOr, Keyed.get?,
    Json.toParts, Json.parts?, hprevious, hwitness]

/-- A storable transaction reads back with its id and its outputs. -/
theorem Transaction.exists_ofStored?_toStored {t : Transaction} (h : t.IsStorable) :
    ∃ u, Transaction.ofStored? t.toStored = .ok u ∧ u.txid = t.txid ∧ u.outputs = t.outputs := by
  obtain ⟨inputs, hread⟩ := exists_forall₂ fun i hi => TxIn.exists_ofStored?_toJson (h i hi)
  have hinputs : (t.inputs.map TxIn.toJson).mapM TxIn.ofStored? = .ok inputs :=
    Outcome.mapM_eq_ok_iff.2 (List.forall₂_map_left_iff.2 hread)
  have houtputs : (t.outputs.map TxOut.toJson).mapM TxOut.ofStored? = .ok t.outputs :=
    Outcome.mapM_eq_ok_iff.2 (List.forall₂_map_left_iff.2
      (List.forall₂_same.2 fun o _ => TxOut.ofStored?_toJson o))
  refine ⟨⟨t.txid, inputs, t.outputs⟩, ?_, rfl, rfl⟩
  simp [Transaction.ofStored?, Transaction.toStored, Json.toMembers, Json.memberOr, Json.required,
    Keyed.get?, Json.toParts, Json.parts?, hinputs, houtputs]

/-! ## Writes that stay -/

/-- Whether a write takes the name or the number of an inscription. -/
def Write.displaces (id : InscriptionId) (number : Int) : Write → Bool
  | inscription other fields _ _ => other.text == id.text || fields.number == some number
  | _ => false

/-- A log in which a transaction is written in a block, the only one of its id there, and stays:
behind it, neither the id nor the height of the block is written again. -/
def IsStoredIn (log : List Write) (t : Transaction) : Prop :=
  ∃ before b behind, log = before ++ .ofBlock b :: behind ∧ t ∈ b.transactions ∧
    (∀ u ∈ b.transactions, u.txid.cell? = t.txid.cell? → u = t) ∧
    ∀ w ∈ behind, w.stores t.txid.cell? = false ∧ ∀ c, w.block? = some c → c.height ≠ b.height

/-- A log in which an inscription is written at a place, and stays: behind it, neither its name nor
its number is written again. -/
def IsAddedIn (log : List Write) (id : InscriptionId) (e : Entry) (content : Inscription)
    (place : SatPoint) : Prop :=
  ∃ before behind, log = before ++ .inscription id e.fields content (some place) :: behind ∧
    ∀ w ∈ behind, w.displaces id e.number = false

theorem TransactionRow.exists_mem_pwFilter {rows : List TransactionRow} {r : TransactionRow}
    (hr : r ∈ rows) {x : String} (hx : r.txid = some x) :
    ∃ s ∈ rows.pwFilter TransactionRow.IsApart, s.txid = some x := by
  by_contra hnone
  push Not at hnone
  -- If all that stay were apart from the row, the row would be apart from itself.
  have hall : ∀ s ∈ rows, r.IsApart s := by
    refine (List.forall_mem_pwFilter (R := IsApart) (fun h => isApart_or h) r rows).1 fun s hs => ?_
    refine isApart_iff.2 fun y hy hsy => hnone s hs ?_
    rw [hsy, ← hy, hx]
  exact isApart_iff.1 (hall r hr) x hx hx

theorem Entry.fields_injective : Function.Injective Entry.fields := by
  intro e e' h
  have he := EntryFields.entry?_eq_some_iff.2 (rfl : e.fields = e.fields)
  rw [h] at he
  exact Option.some.inj (he.symm.trans (EntryFields.entry?_eq_some_iff.2 rfl))

theorem InscriptionRow.name_of_of? {id : InscriptionId} {fields : EntryFields}
    {content : Inscription} {location : Option SatPoint} {row : InscriptionRow}
    (h : of? id fields content location = some row) : row.name = id.text := by
  simp only [of?, Option.bind_eq_bind, Option.bind_eq_some_iff, Option.pure_def,
    Option.some.injEq] at h
  obtain ⟨_, -, _, -, rfl⟩ := h
  rfl

namespace Index

variable {ws : List Write}

/-- A transaction that was stored to stay has its row, at its block's height. -/
theorem exists_row_of_isStoredIn {t : Transaction} (htext : t.txid.IsText)
    (h : IsStoredIn (({} : Index).accepted ws) t) :
    ∃ place, t.row place ∈ (({} : Index).run ws).tables.transactions := by
  obtain ⟨s, hs⟩ := htext
  obtain ⟨before, b, behind, hlog, ht, honly, hstays⟩ := h
  have hcell : t.txid.cell? = some s := by rw [hs, TransactionId.cell?_ofText]
  have hrow : ∃ r ∈ (({} : Index).run ws).tables.rowsAt b.height, ∃ place, r = t.row place := by
    refine run_of_split (Q := fun tables => ∃ r ∈ tables.rowsAt b.height, ∃ place, r = t.row place)
      hlog ?_ ?_
    · intro tables after hstep
      obtain ⟨place, hplace⟩ := b.exists_row_mem ht
      obtain ⟨r, hr, hrs⟩ := TransactionRow.exists_mem_pwFilter hplace
        ((t.txid_row place).trans hcell)
      obtain ⟨u, hu, position, rfl⟩ := b.mem_rows (List.pwFilter_subset _ hr)
      obtain rfl := honly u hu (hrs.trans hcell.symm)
      rw [hstep.eq_storeBlock (Write.block?_ofBlock b), Tables.rowsAt_storeBlock_self]
      exact ⟨_, hr, _, rfl⟩
    · rintro w hw tables after ⟨r, hr, place, rfl⟩ hstep
      obtain ⟨hkept, hheight⟩ := hstays w hw
      rw [hstep.rowsAt_of_ne hheight]
      exact ⟨_, List.mem_filter.2 ⟨hr, by simp [hkept]⟩, place, rfl⟩
  obtain ⟨_, hr, place, rfl⟩ := hrow
  exact ⟨place, (Tables.mem_rowsAt.1 hr).1⟩

/-- An inscription that was added to stay has its row. -/
theorem mem_inscriptions_of_isAddedIn {id : InscriptionId} {e : Entry} {content : Inscription}
    {place : SatPoint} (hid : id.txid.IsText) (hplace : place.outpoint.txid.IsText)
    (h : IsAddedIn (({} : Index).accepted ws) id e content place) :
    ⟨id.text, id, e, content, some place⟩ ∈ (({} : Index).run ws).tables.inscriptions := by
  obtain ⟨before, behind, hlog, hstays⟩ := h
  refine run_of_split (Q := fun tables =>
    ⟨id.text, id, e, content, some place⟩ ∈ tables.inscriptions) hlog ?_ ?_
  · intro tables after hstep
    cases hstep with
    | inscription fit complete =>
      rename_i row
      have hrow := InscriptionRow.eq_of_of? hid (by simpa using hplace) complete
      rw [← Entry.fields_injective (InscriptionRow.fields_of_of? complete)] at hrow
      exact Tables.mem_putInscription.2 (.inr hrow.symm)
  · intro w hw tables after hmem hstep
    cases hstep with
    | block b _ =>
      rw [Tables.inscriptions_storeBlock]
      exact hmem
    | transaction _ _ => exact hmem
    | inscription _ complete =>
      rename_i row
      refine Tables.mem_putInscription.2 (.inl ⟨hmem, ?_⟩)
      have hkept := hstays _ hw
      obtain rfl := InscriptionRow.fields_of_of? complete
      rw [InscriptionRow.clashes_eq_false_iff_ne, InscriptionRow.name_of_of? complete]
      simp only [Write.displaces, Bool.or_eq_false_iff, beq_eq_false_iff_ne] at hkept
      exact ⟨fun hname => hkept.1 hname.symm, fun hnumber => hkept.2 (congrArg some hnumber.symm)⟩

end Index

/-! ## Confirmed views -/

/-- A log in which an inscription is added to stay at an output of its transaction, with a number
and a satoshi, if it is known, that are within their ranges. -/
structure IsConfirmedIn (log : List Write) (t : Transaction) (id : InscriptionId)
    (content : Inscription) (e : Entry) (vout : Nat) (offset : Int) : Prop where
  added : IsAddedIn log id e content ⟨⟨t.txid, vout⟩, offset⟩
  number : 0 ≤ e.number ∧ e.number ≤ 2 ^ 63 - 2
  sat : ∀ n ∈ e.sat, 0 ≤ n ∧ n ≤ lastSat
  output : vout < t.outputs.length

/-- The confirmed view of an inscription tells what was added: whatever the network, the setting and
the node. -/
theorem Viewer.view_of_isConfirmedIn {ws : List Write} {t : Transaction} (htext : t.txid.IsText)
    (hstorable : t.IsStorable) (hstored : IsStoredIn (({} : Index).accepted ws) t)
    {id : InscriptionId} (hid : id.txid = t.txid) {content : Inscription} {e : Entry} {vout : Nat}
    {offset : Int} (h : IsConfirmedIn (({} : Index).accepted ws) t id content e vout offset)
    (network : Network) (key : OwnerKey) (node? : Option Node) :
    ∃ v, view ⟨({} : Index).run ws, network, key, node?⟩ id = .ok v ∧ v.id = id ∧
      v.contentLength = content.contentLength ∧ v.contentType = content.contentTypeText := by
  let viewer : Viewer := ⟨({} : Index).run ws, network, key, node?⟩
  have hopen : viewer.index.isClosed = false := Index.isClosed_run {} ws
  have hnumbers : viewer.index.unreadableNumbers = [] := Index.unreadableNumbers_run {} ws
  have hreadable : viewer.index.unreadableTransactions = [] :=
    Index.unreadableTransactions_run {} ws
  have hsound : viewer.index.tables.IsSound := Index.isSound_run ws
  let r : InscriptionRow := ⟨id.text, id, e, content, some ⟨⟨t.txid, vout⟩, offset⟩⟩
  have hrow : viewer.index.row? id = .ok (some r) := by
    have hr := Index.mem_inscriptions_of_isAddedIn (hid ▸ htext) htext h.added
    refine (Index.row?_eq_ok_iff hopen).2 ⟨hsound.writable r hr, ?_⟩
    exact (find?_key_eq_some_iff hsound.pairwise_name).2 ⟨hr, rfl⟩
  -- What is read back may spend other outputs than what was stored, but has the same ones itself.
  obtain ⟨u, hread, hutxid, houtputs⟩ := Transaction.exists_ofStored?_toStored hstorable
  have hgiven : viewer.index.transaction? t.txid = .ok (some u) := by
    obtain ⟨place, hmem⟩ := Index.exists_row_of_isStoredIn htext hstored
    obtain ⟨s, hs⟩ := htext
    have hdenotes : (t.row place).Denotes u := ⟨by rw [Transaction.txid_row, hutxid], hread⟩
    rw [hs]
    exact (Index.transaction?_eq_some_iff hopen hreadable hsound).2
      ⟨_, hmem, by rw [Transaction.txid_row, hs, TransactionId.cell?_ofText], hdenotes⟩
  have houtput : u.output? vout = t.outputs[vout]? := by
    rw [Transaction.output?_natCast, houtputs]
  have hplace : r.location = some ⟨⟨t.txid, vout⟩, offset⟩ := rfl
  have hjoins := joins_of_given hrow hplace (currentTransaction_of_some hgiven)
    (exists_previousOf hopen hnumbers h.number) (exists_next hopen hnumbers h.number)
    (InscriptionRow.IsShowable.exists_sat (r := r) ⟨h.sat, h.number⟩) (by
      rw [firstOwner, hid, hgiven]
      exact ⟨_, rfl⟩)
  rw [houtput, List.getElem?_eq_getElem h.output] at hjoins
  obtain ⟨v, hjoins, -⟩ := hjoins
  exact ⟨v, view_eq_ok_iff.2 ⟨r, hjoins⟩, hjoins.id, hjoins.contentLength, hjoins.contentType⟩

/-! ## Members of both views -/

/-- What an object holds under a name. -/
def Json.under (v : Json) (name : String) : Option Json :=
  v.members?.bind fun members => Keyed.get? members name

/-- The names of the members of a light view. -/
def LightView.names : List String :=
  ["inscription_id", "content_len", "transaction", "content_type"]

/-- A view that tells the same of an inscription as its light view holds the same under each name of
that. -/
theorem LightView.under_toJson {light : LightView} {v : InscriptionView} (hid : v.id = light.id)
    (hlength : v.contentLength = light.contentLength) (htype : v.contentType = light.contentType) :
    ∀ name ∈ names, ∃ value, light.toJson.under name = some value ∧
      v.toJson.under name = some value := by
  simp only [names, List.forall_mem_cons, List.not_mem_nil, false_implies, implies_true, and_true]
  refine ⟨⟨_, rfl, ?_⟩, ⟨_, rfl, ?_⟩, ⟨_, rfl, ?_⟩, ⟨_, rfl, ?_⟩⟩
  · rw [← hid]
    rfl
  · rw [← hlength]
    rfl
  · rw [← hid]
    rfl
  · rw [← htype]
    rfl

namespace Snapshot

/-- What is told of the inscriptions of a transaction while it is pending is told of them once they
are confirmed: the node lists the transaction and answers for each id that it lists, and in an index
the transaction is stored in a block and each of its inscriptions is added at one of its outputs. -/
theorem view_agrees_run (snapshot : Snapshot) {turns : Nat → Node} {txids : List String}
    (hlisted : (turns 0).call Node.pendingCall = .ok (.list (txids.map Json.text)))
    (hanswers : ∀ (k : Nat) (s : String), txids[k]? = some s → (turns (k + 1)).Answers s)
    {txid : String} {t : Transaction} (hgiven : (txid, t) ∈ resolved (answersInTurns turns txids))
    (hstorable : t.IsStorable) {ws : List Write}
    (hstored : IsStoredIn (({} : Index).accepted ws) t)
    (hconfirmed : ∀ x ∈ t.extract, ∃ e vout offset,
      IsConfirmedIn (({} : Index).accepted ws) t x.1 x.2 e vout offset)
    (network : Network) (key : OwnerKey) (node? : Option Node) :
    ∃ next, snapshot.updateInTurns turns = .ok next ∧ ∀ x ∈ t.extract, ∃ light v,
      next.view x.1 = .ok light ∧
      Viewer.view ⟨({} : Index).run ws, network, key, node?⟩ x.1 = .ok v ∧
      light = x.2.lightView x.1 ∧
      ∀ name ∈ LightView.names, ∃ value, light.toJson.under name = some value ∧
        v.toJson.under name = some value := by
  obtain ⟨next, hnext, -, hreflects⟩ := updateInTurns_reflects snapshot hlisted hanswers
  have htxid : t.txid = .ofText txid := hreflects.txid (txid, t) hgiven
  refine ⟨next, hnext, fun x hx => ?_⟩
  obtain ⟨e, vout, offset, hx'⟩ := hconfirmed x hx
  rw [Transaction.extract_eq_zipIdx] at hx
  obtain ⟨⟨content, k⟩, hk, rfl⟩ := List.mem_map.1 hx
  have hcontent := List.mk_mem_zipIdx_iff_getElem?.1 hk
  have hpending : next.view (.at t.txid k) = .ok (content.lightView (.at t.txid k)) := by
    refine view_of_get?_some ((hreflects.inscription _ _).2 ?_)
    exact ⟨(txid, t), hgiven, k, by rw [htxid], hcontent⟩
  obtain ⟨v, hv, hid, hlength, htype⟩ := Viewer.view_of_isConfirmedIn ⟨txid, htxid⟩ hstorable
    hstored rfl hx' network key node?
  exact ⟨_, v, hpending, hv, rfl, LightView.under_toJson hid hlength htype⟩

/-- A pending inscription of an empty body and of a type that is no UTF-8; the node lists another
transaction, and does not answer for it. -/
theorem view_agrees_run_empty :
    let turns : Nat → Node := fun k _ =>
      if k = 0 then .ofText 200 "\x7b\"result\": [\"c3\", \"a1\"]\x7d"
      else if k = 1 then .unreachable
      else .ofText 200
        ("\x7b\"result\": \x7b\"txid\": \"a1\", \"vout\": [\x7b\"value\": 1\x7d], \"vin\": "
          ++ "[\x7b\"txinwitness\": [\"0063036f7264010101ff0068\", \"c0\"]\x7d]\x7d\x7d")
    let script : Bytes := [0x00, 0x63, 0x03, 0x6F, 0x72, 0x64, 0x01, 0x01, 0x01, 0xFF, 0x00, 0x68]
    let t : Transaction := ⟨.ofText "a1", [⟨none, [script, [0xC0]]⟩], [⟨100000000, []⟩]⟩
    let id : InscriptionId := ⟨.ofText "a1", 0⟩
    let ws : List Write := [.ofBlock ⟨"b5", 5, [t]⟩,
      .inscription id ⟨some 7, some 5, some 0, some 0, some 9⟩ ⟨some [], some [0xFF]⟩
        (some ⟨⟨.ofText "a1", 0⟩, 0⟩)]
    ∃ next v, ({} : Snapshot).updateInTurns turns = .ok next ∧
      next.view id = .ok ⟨id, some 0, some "\uFFFD"⟩ ∧
      Viewer.view ⟨({} : Index).run ws, .mainnet, .vout, none⟩ id = .ok v ∧
      v.toJson.under "content_type" = some (.text "\uFFFD") := by
  intro turns script t id ws
  let content : Inscription := ⟨some [], some [0xFF]⟩
  have hlisted : (turns 0).call Node.pendingCall =
      .ok (.list (["c3", "a1"].map Json.text)) := by
    dsimp only [turns]
    cbv
  have hc3 : (turns 1).transaction "c3" = .error (.node (.transport .unreachable)) := rfl
  have ha1 : (turns 2).transaction "a1" = .ok t :=
    Outcome.toOption_eq_some_iff.1 (by decide +kernel)
  have hanswers : ∀ (k : Nat) (s : String), ["c3", "a1"][k]? = some s →
      (turns (k + 1)).Answers s := by
    rintro (_ | _ | k) s hk
    · obtain rfl := Option.some.inj hk
      exact .inr ⟨_, hc3, .inl rfl⟩
    · obtain rfl := Option.some.inj hk
      exact .inl ⟨t, ha1, rfl⟩
    · cases hk
  have hgiven : ("a1", t) ∈ resolved (answersInTurns turns ["c3", "a1"]) := by
    change _ ∈ resolved [("c3", (turns 1).transaction "c3"), ("a1", (turns 2).transaction "a1")]
    rw [hc3, ha1]
    have hfirst : ["a1"].eraseDups = ["a1"] := by decide
    change _ ∈ ["a1"].eraseDups.filterMap _
    rw [hfirst]
    exact List.mem_singleton_self _
  have hstorable : t.IsStorable := by simp [Transaction.IsStorable, t]
  have haccepted : ({} : Index).accepted ws = ws := by cbv
  have hextract : t.extract = [(id, content)] := by cbv
  have hstored : IsStoredIn (({} : Index).accepted ws) t := by
    rw [haccepted]
    refine ⟨[], ⟨"b5", 5, [t]⟩, ws.tail, rfl, List.mem_singleton_self t, by simp, ?_⟩
    simp [ws, Write.stores, Write.transactions, Write.block?]
  have hconfirmed :
      IsConfirmedIn (({} : Index).accepted ws) t id content ⟨7, 5, 0, 0, some 9⟩ 0 0 := by
    rw [haccepted]
    constructor
    case added => exact ⟨[.ofBlock ⟨"b5", 5, [t]⟩], [], rfl, List.forall_mem_nil _⟩
    case number => decide
    case sat => decide
    case output => decide
  obtain ⟨next, hnext, hall⟩ := view_agrees_run {} hlisted hanswers hgiven hstorable hstored
    (by simpa only [hextract, List.forall_mem_singleton] using ⟨_, _, _, hconfirmed⟩)
    .mainnet .vout none
  obtain ⟨light, v, hlight, hv, rfl, hnames⟩ := hall (id, content) (by simp [hextract])
  obtain ⟨value, hvalue, hsame⟩ := hnames "content_type" (by simp [LightView.names])
  refine ⟨next, v, hnext, ?_, hv, ?_⟩
  · rw [hlight]
    cbv
  · rw [hsame, ← hvalue]
    cbv

end Snapshot

end InscriptionLedger
