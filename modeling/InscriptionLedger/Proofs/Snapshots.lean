import InscriptionLedger.Mempool
import InscriptionLedger.Node.Body
import InscriptionLedger.Proofs.KeyedLists
import InscriptionLedger.Proofs.Outcome
import InscriptionLedger.Proofs.Rows
import InscriptionLedger.Proofs.StoredForm

/-!
# Snapshots of a node

An update goes through the ids that a node lists, and asks for each of them in turn. An id that the
node fails to give is passed over; one that is listed again is asked for again, and keeps the place
at which it was given first with what is given last. The inscriptions and the outputs of the
snapshot are those of the transactions, each under the id of its transaction and its position there;
as no two of these agree, none is lost.

## Main definitions

* `Failure.isPassedOver`: failures that leave a transaction out
* `Snapshot.resolved`: the transactions that are kept of answers
* `Snapshot.numbered`: parts of transactions under their ids and positions
* `Snapshot.Reflects`: a snapshot of transactions, with the views that are made of it

## Main results

* `Snapshot.foldlM_keep`: going through the answers keeps what they resolve to
* `Snapshot.reflects_of_ofTransactions?`: the snapshot of transactions with ids that are apart
* `Snapshot.updateInTurns_reflects`: an update reflects what the node gives
-/

namespace InscriptionLedger

/-- Failures that leave a transaction out of a snapshot. -/
def Failure.isPassedOver (f : Failure) : Bool := f.isNodeFault || f.isValueFault

theorem Node.pending_of_call {node : Node} {txids : List String}
    (h : node.call pendingCall = .ok (.list (txids.map Json.text))) : node.pending = .ok txids := by
  have hparts : (Json.list (txids.map Json.text)).toPartsIfPresent = .ok (txids.map Json.text) := by
    cases txids <;> rfl
  have hshown : (txids.map Json.text).map Json.shown = txids := by
    rw [List.map_map]
    exact List.map_id' txids
  rw [pending, h, Outcome.ok_bind, hparts, Outcome.ok_bind, hshown]
  rfl

namespace Snapshot

theorem listPending_of_call {node : Node} {txids : List String}
    (h : node.call Node.pendingCall = .ok (.list (txids.map Json.text))) :
    listPending node = .ok txids := by
  rw [listPending, Node.pending_of_call h]

/-! ## What is kept of answers -/

/-- The transactions that are given among answers, each with the id that it was asked for. -/
def givenIn (answers : List (String × Outcome Transaction)) : List (String × Transaction) :=
  answers.filterMap fun x => x.2.toOption.map fun t => (x.1, t)

/-- The transactions that answers resolve to: the ids in the order in which a transaction is first
given for them, each with the one that is given last. -/
def resolved (answers : List (String × Outcome Transaction)) : List (String × Transaction) :=
  ((givenIn answers).map Prod.fst).eraseDups.filterMap fun txid =>
    (Keyed.get? (givenIn answers).reverse txid).map fun t => (txid, t)

variable {answers : List (String × Outcome Transaction)}

theorem mem_answersInTurns {turns : Nat → Node} {txids : List String}
    {x : String × Outcome Transaction} :
    x ∈ answersInTurns turns txids ↔
      ∃ (k : Nat) (txid : String), txids[k]? = some txid ∧
        x = (txid, (turns (k + 1)).transaction txid) := by
  simp only [answersInTurns, List.mem_map, Prod.exists, List.mk_mem_zipIdx_iff_getElem?]
  constructor
  · rintro ⟨txid, k, hlisted, rfl⟩
    exact ⟨k, txid, hlisted, rfl⟩
  · rintro ⟨k, txid, hlisted, rfl⟩
    exact ⟨txid, k, hlisted, rfl⟩

/-- What is resolved was given. -/
theorem mem_of_mem_resolved {txid : String} {t : Transaction} (h : (txid, t) ∈ resolved answers) :
    (txid, .ok t) ∈ answers := by
  obtain ⟨key, -, hkey⟩ := List.mem_filterMap.1 h
  obtain ⟨u, hu, heq⟩ := Option.map_eq_some_iff.1 hkey
  obtain ⟨rfl, rfl⟩ := Prod.mk.inj heq
  have hgiven := List.mem_reverse.1 (Keyed.mem_of_get?_eq_some hu)
  obtain ⟨⟨txid, answer⟩, hmem, hanswer⟩ := List.mem_filterMap.1 hgiven
  obtain ⟨v, hv, heq⟩ := Option.map_eq_some_iff.1 hanswer
  obtain ⟨rfl, rfl⟩ := Prod.mk.inj heq
  obtain rfl : answer = .ok v := Outcome.toOption_eq_some_iff.1 hv
  exact hmem

/-- Each id is resolved once. -/
theorem pairwise_resolved (answers : List (String × Outcome Transaction)) :
    (resolved answers).Pairwise fun x y => x.1 ≠ y.1 := by
  refine List.Pairwise.filterMap _ ?_ (nodup_eraseDups _)
  intro a b hne x hx y hy
  obtain ⟨_, -, rfl⟩ := Option.map_eq_some_iff.1 hx
  obtain ⟨_, -, rfl⟩ := Option.map_eq_some_iff.1 hy
  exact hne

theorem keep_of_ok (found : List (String × Transaction)) (txid : String) (t : Transaction) :
    keep found (txid, .ok t) = .ok (Keyed.put found txid t) := rfl

theorem keep_of_passedOver (found : List (String × Transaction)) (txid : String) {f : Failure}
    (hf : f.isPassedOver = true) : keep found (txid, .error f) = .ok found := if_pos hf

theorem keep_of_not_passedOver (found : List (String × Transaction)) (txid : String) {f : Failure}
    (hf : f.isPassedOver = false) : keep found (txid, .error f) = .error f :=
  if_neg (Bool.eq_false_iff.1 hf)

/-- Going through answers keeps what they resolve to, if every failure is one that is passed
over. -/
theorem foldlM_keep (h : ∀ x ∈ answers, ∀ f, x.2 = .error f → f.isPassedOver = true) :
    answers.foldlM keep [] = .ok (resolved answers) := by
  have hput (found : List (String × Transaction)) : answers.foldlM keep found =
      .ok ((givenIn answers).foldl (fun xs x => Keyed.put xs x.1 x.2) found) := by
    induction answers generalizing found with
    | nil => rfl
    | cons x rest ih =>
      obtain ⟨hx, hrest⟩ := List.forall_mem_cons.1 h
      obtain ⟨txid, answer⟩ := x
      rw [List.foldlM_cons]
      cases answer with
      | ok t => exact ih hrest _
      | error f =>
        rw [keep_of_passedOver found txid (hx f rfl)]
        exact ih hrest found
  exact (hput []).trans (congrArg _ (Keyed.ofPairs_eq_filterMap (givenIn answers)))

end Snapshot

/-! ## Parts of transactions under their ids -/

/-- Keys that tell apart transactions and positions; under a text no other key is found. -/
structure IsNumbering {κ : Type} [BEq κ] (key : TransactionId → Nat → κ) : Prop where
  apart : ∀ a i b j, (key a i == key b j) = true → (a == b) = true ∧ i = j
  self : ∀ s i k, (key (.ofText s) i == k) = true ↔ k = key (.ofText s) i

/-- The id of the inscription of an envelope at a position. -/
def InscriptionId.at (txid : TransactionId) (index : Nat) : InscriptionId := ⟨txid, index⟩

/-- The name of an output at a position. -/
def OutPoint.at (txid : TransactionId) (vout : Nat) : OutPoint := ⟨txid, vout⟩

theorem InscriptionId.isNumbering_at : IsNumbering InscriptionId.at where
  apart _ _ _ _ h := ⟨(beq_iff.1 h).1, Int.natCast_inj.1 (beq_iff.1 h).2⟩
  self s i k := by
    obtain ⟨txid, index⟩ := k
    rw [beq_iff, InscriptionId.at, TransactionId.ofText_beq_iff, mk.injEq]
    exact and_congr_right fun _ => eq_comm

theorem OutPoint.isNumbering_at : IsNumbering OutPoint.at where
  apart _ _ _ _ h := ⟨(beq_iff.1 h).1, Int.natCast_inj.1 (beq_iff.1 h).2⟩
  self s i k := by
    obtain ⟨txid, vout⟩ := k
    rw [beq_iff, OutPoint.at, TransactionId.ofText_beq_iff, mk.injEq]
    exact and_congr_right fun _ => eq_comm

namespace Snapshot

/-- Parts of transactions, each under the id of its transaction and its position there. -/
def numbered {κ ν : Type} (key : TransactionId → Nat → κ) (parts : Transaction → List ν)
    (given : List (String × Transaction)) : List (κ × ν) :=
  given.flatMap fun x => (parts x.2).zipIdx.map fun y => (key (.ofText x.1) y.2, y.1)

section

variable {κ ν : Type} {key : TransactionId → Nat → κ} {parts : Transaction → List ν}
  {given : List (String × Transaction)}

theorem mem_numbered {k : κ} {v : ν} :
    (k, v) ∈ numbered key parts given ↔
      ∃ x ∈ given, ∃ i, k = key (.ofText x.1) i ∧ (parts x.2)[i]? = some v := by
  simp only [numbered, List.mem_flatMap, List.mem_map, Prod.exists,
    List.mk_mem_zipIdx_iff_getElem?, Prod.mk.injEq]
  constructor
  · rintro ⟨txid, t, hx, _, i, hv, rfl, rfl⟩
    exact ⟨txid, t, hx, i, rfl, hv⟩
  · rintro ⟨txid, t, hx, i, rfl, hv⟩
    exact ⟨txid, t, hx, v, i, hv, rfl, rfl⟩

theorem all_isScalar_numbered {idOf : κ → TransactionId} (hid : ∀ a i, idOf (key a i) = a) :
    ((numbered key parts given).map fun x => idOf x.1).all fun txid => txid.value.isScalar := by
  rw [List.all_eq_true]
  intro txid htxid
  obtain ⟨⟨k, v⟩, hmem, rfl⟩ := List.mem_map.1 htxid
  obtain ⟨x, -, i, rfl, -⟩ := mem_numbered.1 hmem
  rw [hid]
  rfl

variable [BEq κ] (hkey : IsNumbering key) (hgiven : given.Pairwise fun x y => x.1 ≠ y.1)

include hkey hgiven

/-- No two parts have one key: their transactions differ, or else their positions. -/
theorem isApart_numbered (parts : Transaction → List ν) :
    Keyed.IsApart (numbered key parts given) := by
  rw [Keyed.IsApart, numbered, List.pairwise_flatMap]
  constructor
  · intro x _
    refine List.pairwise_map.2 ((pairwise_zipIdx (parts x.2)).imp fun {y z} hlt => ?_)
    rw [← Bool.not_eq_true]
    exact fun heq => absurd (hkey.apart _ _ _ _ heq).2 (Nat.ne_of_lt hlt)
  · refine hgiven.imp fun {x y} hne a ha b hb => ?_
    obtain ⟨_, -, rfl⟩ := List.mem_map.1 ha
    obtain ⟨_, -, rfl⟩ := List.mem_map.1 hb
    rw [← Bool.not_eq_true]
    intro heq
    exact hne (by simpa using (hkey.apart _ _ _ _ heq).1)

/-- A part is found under the id of its transaction and its position, and nothing else is found. -/
theorem get?_numbered_eq_some_iff [EquivBEq κ] (parts : Transaction → List ν) {k : κ} {v : ν} :
    Keyed.get? (numbered key parts given) k = some v ↔ (k, v) ∈ numbered key parts given := by
  rw [Keyed.get?_eq_some_iff (isApart_numbered hkey hgiven parts)]
  constructor
  · rintro ⟨key', hmem, hequal⟩
    obtain ⟨x, -, i, rfl, -⟩ := mem_numbered.1 hmem
    rwa [(hkey.self _ _ _).1 hequal]
  · exact fun hmem => ⟨k, hmem, BEq.rfl⟩

end

end Snapshot

namespace Transaction

/-- The contents of the inscriptions of a transaction, in order. -/
def contents (t : Transaction) : List Inscription := t.extract.map Prod.snd

theorem extract_eq_zipIdx (t : Transaction) :
    t.extract = t.contents.zipIdx.map fun y => (.at t.txid y.2, y.1) := by
  unfold contents extract
  split
  · next found _ =>
    have hfound : (found.zipIdx.map fun y => (InscriptionId.at t.txid y.2, y.1)).map Prod.snd =
        found.zipIdx.map Prod.fst := List.map_map
    change _ = ((found.zipIdx.map fun y => (InscriptionId.at t.txid y.2, y.1)).map
      Prod.snd).zipIdx.map _
    rw [hfound, List.zipIdx_map_fst]
    rfl
  · rfl

end Transaction

/-! ## Snapshots of transactions -/

namespace Snapshot

/-- A snapshot of transactions that were given under their ids: their inscriptions and outputs in
order, each found under its id, and views of the inscriptions, of all or of one. -/
structure Reflects (s : Snapshot) (given : List (String × Transaction)) : Prop where
  transactions : s.transactions = given
  txid : ∀ x ∈ given, x.2.txid = .ofText x.1
  inscriptions : s.inscriptions = numbered InscriptionId.at Transaction.contents given
  outputs : s.outputs = numbered OutPoint.at Transaction.outputs given
  inscription : ∀ id i, Keyed.get? s.inscriptions id = some i ↔
    ∃ x ∈ given, ∃ k, id = .at (.ofText x.1) k ∧ x.2.contents[k]? = some i
  output : ∀ p o, Keyed.get? s.outputs p = some o ↔
    ∃ x ∈ given, ∃ k, p = .at (.ofText x.1) k ∧ x.2.outputs[k]? = some o
  views : s.views = (numbered InscriptionId.at Transaction.contents given).map
    fun x => x.2.lightView x.1
  view : ∀ v ∈ s.views, s.view v.id = .ok v
  absent : ∀ id, (∀ v ∈ s.views, v.id ≠ id) →
    s.view id = .error (if id.isWritable then .notFound (.inscription id) else .unwritable)

theorem view_of_get?_some {s : Snapshot} {id : InscriptionId} {i : Inscription}
    (h : Keyed.get? s.inscriptions id = some i) : s.view id = .ok (i.lightView id) := by
  rw [view, h]

theorem view_of_get?_none {s : Snapshot} {id : InscriptionId}
    (h : Keyed.get? s.inscriptions id = none) :
    s.view id = .error (if id.isWritable then .notFound (.inscription id) else .unwritable) := by
  rw [view, h]
  cases id.isWritable <;> rfl

variable {given : List (String × Transaction)}

theorem flatMap_extract (h : ∀ x ∈ given, x.2.txid = .ofText x.1) :
    (given.flatMap fun x => x.2.extract) =
      numbered InscriptionId.at Transaction.contents given := by
  refine List.flatMap_congr fun x hx => ?_
  rw [Transaction.extract_eq_zipIdx, h x hx]

theorem flatMap_outPoints (h : ∀ x ∈ given, x.2.txid = .ofText x.1) :
    (given.flatMap fun x => x.2.outPoints) = numbered OutPoint.at Transaction.outputs given := by
  refine List.flatMap_congr fun x hx => ?_
  rw [Transaction.outPoints, h x hx]
  rfl

theorem ofTransactions?_eq_ok (generation : Nat) (hids : ∀ x ∈ given, x.2.txid = .ofText x.1)
    (hgiven : given.Pairwise fun x y => x.1 ≠ y.1) :
    ofTransactions? generation given =
      .ok ⟨generation, given, numbered InscriptionId.at Transaction.contents given,
        numbered OutPoint.at Transaction.outputs given⟩ := by
  have hinscriptions :=
    isApart_numbered InscriptionId.isNumbering_at hgiven Transaction.contents
  have houtputs := isApart_numbered OutPoint.isNumbering_at hgiven Transaction.outputs
  rw [ofTransactions?, flatMap_extract hids, flatMap_outPoints hids,
    Keyed.ofPairs_eq_self hinscriptions, Keyed.ofPairs_eq_self houtputs]
  refine if_pos ?_
  rw [List.all_append, all_isScalar_numbered fun _ _ => rfl, all_isScalar_numbered fun _ _ => rfl]
  rfl

/-- The snapshot of transactions that were given once each under their ids reflects them. -/
theorem reflects_of_ofTransactions? {generation : Nat} {s : Snapshot}
    (hids : ∀ x ∈ given, x.2.txid = .ofText x.1) (hgiven : given.Pairwise fun x y => x.1 ≠ y.1)
    (h : ofTransactions? generation given = .ok s) : s.Reflects given := by
  rw [ofTransactions?_eq_ok generation hids hgiven] at h
  obtain rfl := Except.ok.inj h
  have hinscription (id : InscriptionId) (i : Inscription) :=
    get?_numbered_eq_some_iff InscriptionId.isNumbering_at hgiven Transaction.contents
      (k := id) (v := i)
  have houtput (p : OutPoint) (o : TxOut) :=
    get?_numbered_eq_some_iff OutPoint.isNumbering_at hgiven Transaction.outputs (k := p) (v := o)
  constructor
  case transactions => rfl
  case txid => exact hids
  case inscriptions => rfl
  case outputs => rfl
  case inscription => exact fun id i => (hinscription id i).trans mem_numbered
  case output => exact fun p o => (houtput p o).trans mem_numbered
  case views => rfl
  case view =>
    intro v hv
    obtain ⟨⟨id, i⟩, hmem, rfl⟩ := List.mem_map.1 hv
    exact view_of_get?_some ((hinscription id i).2 hmem)
  case absent =>
    intro id hnone
    refine view_of_get?_none (Option.eq_none_iff_forall_ne_some.2 fun i hfound => ?_)
    exact hnone _ (List.mem_map.2 ⟨(id, i), (hinscription id i).1 hfound, rfl⟩) rfl

end Snapshot

/-! ## Updates -/

/-- A node that gives the transaction of an id under this id, or fails in a way that is passed
over. -/
def Node.Answers (node : Node) (txid : String) : Prop :=
  (∃ t, node.transaction txid = .ok t ∧ t.txid = .ofText txid) ∨
    ∃ f, node.transaction txid = .error f ∧ (f.isNodeFault = true ∨ f.isValueFault = true)

namespace Snapshot

variable {turns : Nat → Node} {txids : List String}

/-- An update from a node that lists ids and answers for each that it lists, as it is when it is
asked: the next snapshot reflects the transactions that these answers resolve to. -/
theorem updateInTurns_reflects (snapshot : Snapshot)
    (hlisted : (turns 0).call Node.pendingCall = .ok (.list (txids.map Json.text)))
    (hanswers : ∀ (k : Nat) (txid : String), txids[k]? = some txid →
      (turns (k + 1)).Answers txid) :
    ∃ next, snapshot.updateInTurns turns = .ok next ∧ next.generation = snapshot.generation + 1 ∧
      next.Reflects (resolved (answersInTurns turns txids)) := by
  have hpassed : ∀ x ∈ answersInTurns turns txids, ∀ f, x.2 = .error f →
      f.isPassedOver = true := by
    intro x hx f hf
    obtain ⟨k, txid, hmem, rfl⟩ := mem_answersInTurns.1 hx
    rcases hanswers k txid hmem with ⟨t, ht, -⟩ | ⟨g, hg, hpassed⟩
    · cases ht.symm.trans hf
    · obtain rfl := Except.error.inj (hg.symm.trans hf)
      simpa [Failure.isPassedOver] using hpassed
  have hids : ∀ x ∈ resolved (answersInTurns turns txids), x.2.txid = .ofText x.1 := by
    rintro ⟨txid, t⟩ hx
    obtain ⟨k, _, hmem, heq⟩ := mem_answersInTurns.1 (mem_of_mem_resolved hx)
    obtain ⟨rfl, ht⟩ := Prod.mk.inj heq
    rcases hanswers k txid hmem with ⟨u, hu, htxid⟩ | ⟨f, hf, -⟩
    · obtain rfl := Except.ok.inj (ht.trans hu)
      exact htxid
    · cases ht.trans hf
  have hgiven := pairwise_resolved (answersInTurns turns txids)
  have hsnapshot := ofTransactions?_eq_ok (snapshot.generation + 1) hids hgiven
  refine ⟨_, ?_, rfl, reflects_of_ofTransactions? hids hgiven hsnapshot⟩
  rw [updateInTurns, listPending_of_call hlisted, Outcome.ok_bind, foldlM_keep hpassed,
    Outcome.ok_bind, hsnapshot]

/-- A listing with a repetition, an id that the node does not answer for, and two transactions; the
one that is listed again is given only when it is asked for again. -/
theorem updateInTurns_reflects_repeated :
    let turns : Nat → Node := fun k c =>
      match c.params with
      | .list [] => .ofText 200 "\x7b\"result\": [\"b2\", \"c3\", \"a1\", \"b2\"]\x7d"
      | .list (.text "a1" :: _) => .ofText 200
        "\x7b\"result\": \x7b\"hash\": \"a1\", \"vin\": [\x7b\x7d]\x7d\x7d"
      | .list (.text "b2" :: _) =>
        if k = 1 then .unreachable
        else .ofText 200 ("\x7b\"result\": \x7b\"txid\": \"b2\", \"vin\": "
          ++ "[\x7b\"txinwitness\": [\"0063036f726400016168\", \"c0\"]\x7d]\x7d\x7d")
      | _ => .unreachable
    let a1 : Transaction := ⟨.ofText "a1", [⟨none, []⟩], []⟩
    let b2 : Transaction := ⟨.ofText "b2",
      [⟨none, [[0x00, 0x63, 0x03, 0x6F, 0x72, 0x64, 0x00, 0x01, 0x61, 0x68], [0xC0]]⟩], []⟩
    ∃ next, ({} : Snapshot).updateInTurns turns = .ok next ∧ next.generation = 1 ∧
      next.Reflects [("a1", a1), ("b2", b2)] := by
  intro turns a1 b2
  have hlisted : (turns 0).call Node.pendingCall =
      .ok (.list (["b2", "c3", "a1", "b2"].map Json.text)) := by
    dsimp only [turns]
    cbv
  have hfirst : (turns 1).transaction "b2" = .error (.node (.transport .unreachable)) := by
    dsimp only [turns]
    cbv
  have hc3 : (turns 2).transaction "c3" = .error (.node (.transport .unreachable)) := by
    dsimp only [turns]
    cbv
  have ha1 : (turns 3).transaction "a1" = .ok a1 := by
    dsimp only [turns, a1]
    cbv
  have hagain : (turns 4).transaction "b2" = .ok b2 := by
    dsimp only [turns, b2]
    cbv
  have hanswers : ∀ (k : Nat) (txid : String), ["b2", "c3", "a1", "b2"][k]? = some txid →
      (turns (k + 1)).Answers txid := by
    rintro (_ | _ | _ | _ | k) txid hk
    · obtain rfl := Option.some.inj hk
      exact .inr ⟨_, hfirst, .inl rfl⟩
    · obtain rfl := Option.some.inj hk
      exact .inr ⟨_, hc3, .inl rfl⟩
    · obtain rfl := Option.some.inj hk
      exact .inl ⟨a1, ha1, rfl⟩
    · obtain rfl := Option.some.inj hk
      exact .inl ⟨b2, hagain, rfl⟩
    · cases hk
  have hresolved : resolved (answersInTurns turns ["b2", "c3", "a1", "b2"]) =
      [("a1", a1), ("b2", b2)] := by
    change resolved [("b2", (turns 1).transaction "b2"), ("c3", (turns 2).transaction "c3"),
      ("a1", (turns 3).transaction "a1"), ("b2", (turns 4).transaction "b2")] = _
    rw [hfirst, hc3, ha1, hagain]
    have hfirst : ["a1", "b2"].eraseDups = ["a1", "b2"] := by decide
    change ["a1", "b2"].eraseDups.filterMap _ = _
    rw [hfirst]
    rfl
  obtain ⟨next, hnext, hgeneration, hreflects⟩ := updateInTurns_reflects {} hlisted hanswers
  rw [hresolved] at hreflects
  exact ⟨next, hnext, hgeneration, hreflects⟩

/-- The ids of a snapshot need not stand in the order in which they are listed first: one that is
given only when it is asked for again stands behind those that were given before. -/
theorem not_forall_updateInTurns_sublist :
    ¬∀ (snapshot next : Snapshot) (turns : Nat → Node) (txids : List String),
      (turns 0).call Node.pendingCall = .ok (.list (txids.map Json.text)) →
      (∀ (k : Nat) (txid : String), txids[k]? = some txid → (turns (k + 1)).Answers txid) →
      snapshot.updateInTurns turns = .ok next →
        (next.transactions.map Prod.fst).Sublist txids.eraseDups := by
  intro h
  let turns : Nat → Node := fun k _ =>
    if k = 0 then .ofText 200 "\x7b\"result\": [\"aa\", \"bb\", \"aa\"]\x7d"
    else if k = 1 then .unreachable
    else if k = 2 then .ofText 200 "\x7b\"result\": \x7b\"txid\": \"bb\"\x7d\x7d"
    else .ofText 200 "\x7b\"result\": \x7b\"txid\": \"aa\"\x7d\x7d"
  have hlisted : (turns 0).call Node.pendingCall =
      .ok (.list (["aa", "bb", "aa"].map Json.text)) := by
    dsimp only [turns]
    cbv
  have hfirst : (turns 1).transaction "aa" = .error (.node (.transport .unreachable)) := rfl
  have hbb : (turns 2).transaction "bb" = .ok (.bare "bb") := by
    dsimp only [turns]
    cbv
  have hagain : (turns 3).transaction "aa" = .ok (.bare "aa") := by
    dsimp only [turns]
    cbv
  have hnext : ({} : Snapshot).updateInTurns turns =
      .ok ⟨1, [("bb", .bare "bb"), ("aa", .bare "aa")], [], []⟩ := by
    dsimp only [turns]
    cbv
  have hsublist := h {} _ turns ["aa", "bb", "aa"] hlisted (by
    rintro (_ | _ | _ | k) txid hk
    · obtain rfl := Option.some.inj hk
      exact .inr ⟨_, hfirst, .inl rfl⟩
    · obtain rfl := Option.some.inj hk
      exact .inl ⟨_, hbb, rfl⟩
    · obtain rfl := Option.some.inj hk
      exact .inl ⟨_, hagain, rfl⟩
    · cases hk) hnext
  exact absurd hsublist (by decide)

end Snapshot

end InscriptionLedger
