import InscriptionLedger.Proofs.Snapshots

/-!
# What a node may answer

A node may answer anything to a call, and something else when it is asked again. Most failures to
make a transaction of an answer are passed over when a snapshot is rebuilt: those of the connection,
of the status and the shape of the answer, an error that is an object, and values that cannot be
read. Two kinds of answers are not, and no snapshot comes of them: an error that is no object, and a
transaction with a part of the wrong type or a number that is no decimal or beyond its range.
Neither does one come of a transaction whose id is a list or an object while it has an inscription
or an output, unless another one is given for the same id later.

## Main definitions

* `Outcome.FailsIn`: outcomes whose failures are of a kind
* `Failure.IsUncaught`: failures to read a transaction that are not passed over
* `Node.Breaks`: the answers that no snapshot comes of
* `Snapshot.AreNamed`: transactions that a snapshot can be made of

## Main results

* `Transaction.failsIn_ofNode?`, `Node.failsIn_transaction`: how reading a transaction can fail, and
  asking for one
* `Node.breaks_iff`: the answers that no snapshot comes of, by what is made of them
* `Snapshot.updateInTurns_eq_ok_iff`: the updates that are made
* `Snapshot.updateInTurns_of_pending`: which lists of ids are gone through, and what they bring
-/

namespace InscriptionLedger

/-! ## Failures of a kind -/

/-- An outcome whose failure, if it fails, is of a kind. -/
def Outcome.FailsIn {α : Type} (P : Failure → Prop) (x : Outcome α) : Prop :=
  ∀ f, x = .error f → P f

namespace Outcome.FailsIn

variable {α β : Type} {P : Failure → Prop}

theorem ok (a : α) : FailsIn P (.ok a) := nofun

theorem error {f : Failure} (h : P f) : FailsIn P (.error f : Outcome α) := by
  rintro _ ⟨⟩
  exact h

theorem imp {Q : Failure → Prop} {x : Outcome α} (hx : FailsIn P x) (h : ∀ f, P f → Q f) :
    FailsIn Q x :=
  fun f hf => h f (hx f hf)

theorem bind {x : Outcome α} {g : α → Outcome β} (hx : FailsIn P x)
    (hg : ∀ a, FailsIn P (g a)) : FailsIn P (x >>= g) := by
  cases x with
  | ok a => exact hg a
  | error f => exact error (hx f rfl)

theorem map {x : Outcome α} (hx : FailsIn P x) (g : α → β) : FailsIn P (x.map g) := by
  cases x with
  | ok a => exact ok _
  | error f => exact error (hx f rfl)

theorem mapM {g : α → Outcome β} (hg : ∀ a, FailsIn P (g a)) (xs : List α) :
    FailsIn P (xs.mapM g) := by
  induction xs with
  | nil => exact ok _
  | cons a rest ih =>
    rw [List.mapM_cons]
    exact (hg a).bind fun b => ih.bind fun bs => ok _

theorem foldlM {g : β → α → Outcome β} (hg : ∀ b a, FailsIn P (g b a)) (xs : List α) (b : β) :
    FailsIn P (xs.foldlM g b) := by
  induction xs generalizing b with
  | nil => exact ok _
  | cons a rest ih =>
    rw [List.foldlM_cons]
    exact (hg b a).bind ih

end Outcome.FailsIn

open Outcome (FailsIn)

/-! ## Sorting -/

namespace Sorting

variable {α : Type} {P : Failure → Prop} {before? : α → α → Outcome Bool}
  (h : ∀ a b, FailsIn P (before? a b))

include h

theorem failsIn_spanRun? (descends : Bool) (last : α) (xs : List α) :
    FailsIn P (spanRun? before? descends last xs) := by
  induction xs generalizing last with
  | nil => exact .ok _
  | cons a rest ih =>
    rw [spanRun?]
    refine (h a last).bind fun b => ?_
    split
    · exact (ih a).bind fun parts => .ok _
    · exact .ok _

theorem failsIn_firstRun? (xs : List α) : FailsIn P (firstRun? before? xs) := by
  match xs with
  | [] => exact .ok _
  | [a] => exact .ok _
  | a :: b :: rest =>
    rw [firstRun?]
    exact (h b a).bind fun descends =>
      (failsIn_spanRun? h descends b rest).bind fun parts => .ok _

theorem failsIn_slot? (sorted : List α) (a : α) (low high : Nat) :
    FailsIn P (slot? before? sorted a low high) := by
  fun_induction slot? before? sorted a low high with
  | case1 low high hlt middle hnone => exact .ok _
  | case2 low high hlt middle m hm ih ih' =>
    refine (h a m).bind fun b => ?_
    split
    · exact ih
    · exact ih'
  | case3 low high hle => exact .ok _

theorem failsIn_sort? (xs : List α) : FailsIn P (sort? before? xs) := by
  refine (failsIn_firstRun? h xs).bind fun parts => .foldlM (fun sorted a => ?_) _ _
  exact (failsIn_slot? h sorted a 0 sorted.length).bind fun k => .ok _

end Sorting

/-! ## Reading a transaction -/

/-- Failures to read a transaction that are not passed over: a value of the wrong type, a text that
is no decimal, a number beyond the range of decimals or of integers. -/
inductive Failure.IsUncaught : Failure → Prop
  | wrongType : IsUncaught .wrongType
  | decimalText : IsUncaught .decimalText
  | decimalRange : IsUncaught .decimalRange
  | magnitude : IsUncaught .magnitude

/-- Failures to read a transaction. -/
def Failure.IsReading (f : Failure) : Prop := f.isValueFault = true ∨ f.IsUncaught

theorem failsIn_requireWritable (b : Bool) : FailsIn Failure.IsReading (requireWritable b) := by
  cases b with
  | true => exact .ok ()
  | false => exact .error (.inl rfl)

namespace Json

theorem failsIn_show? (v : Json) : FailsIn Failure.IsReading v.show? :=
  (failsIn_requireWritable v.isShort).bind fun _ => .ok _

theorem failsIn_toInt (v : Json) : FailsIn Failure.IsReading v.toInt := by
  unfold toInt
  split
  · exact .ok _
  · exact .ok _
  · exact .ok _
  · exact .error (.inr .magnitude)
  · exact .error (.inl rfl)
  · split
    · exact .ok _
    · exact .error (.inl rfl)
  · exact .error (.inr .wrongType)

theorem failsIn_toBytes (v : Json) : FailsIn Failure.IsReading v.toBytes := by
  unfold toBytes
  split
  · split
    · exact .ok _
    · exact .error (.inl rfl)
  · exact .error (.inr .wrongType)

theorem failsIn_toMembers (v : Json) : FailsIn Failure.IsReading v.toMembers := by
  unfold toMembers
  split
  · exact .ok _
  · exact .error (.inr .wrongType)

theorem failsIn_toPartsIfPresent (v : Json) : FailsIn Failure.IsReading v.toPartsIfPresent := by
  unfold toPartsIfPresent toParts
  split
  · split
    · exact .ok _
    · exact .error (.inr .wrongType)
  · exact .ok _

mutual

theorem failsIn_before? (a b : Json) : FailsIn Failure.IsReading (a.before? b) := by
  unfold before?
  split
  · exact .ok _
  · next as bs => exact failsIn_itemsBefore? as bs
  · split
    · exact .ok _
    · exact .error (.inr .wrongType)

theorem failsIn_itemsBefore? : ∀ as bs : List Json, FailsIn Failure.IsReading (itemsBefore? as bs)
  | [], [] => .ok _
  | _ :: _, [] => .ok _
  | [], _ :: _ => .ok _
  | a :: as, b :: bs => by
    rw [itemsBefore?]
    split
    · exact failsIn_itemsBefore? as bs
    · exact failsIn_before? a b

end

theorem failsIn_sortByKey? {α : Type} (keyed : List (Json × α)) :
    FailsIn Failure.IsReading (sortByKey? keyed) := by
  unfold sortByKey?
  exact (Sorting.failsIn_sort? (fun x y => failsIn_before? x.1 y.1) keyed).map _

end Json

namespace Amount

theorem failsIn_ofLiteral (l : Decimal.Literal) : FailsIn Failure.IsReading (ofLiteral l) := by
  unfold ofLiteral
  split
  · dsimp only
    split
    · split
      · exact .ok _
      · split
        · exact .error (.inr .decimalRange)
        · exact .ok _
    · exact .error (.inr .decimalText)
  · exact .error (.inr .magnitude)
  · exact .error (.inr .decimalText)
  · exact .error (.inl rfl)

theorem failsIn_ofJson (v : Json) : FailsIn Failure.IsReading (ofJson v) := by
  refine (Json.failsIn_show? v).bind fun text => ?_
  split
  · exact failsIn_ofLiteral _
  · exact .error (.inr .decimalText)

end Amount

theorem failsIn_readSpent? (members : List (String × Json)) :
    FailsIn Failure.IsReading (readSpent? members) := by
  unfold readSpent?
  split
  · exact .ok _
  · exact (Json.failsIn_toInt _).bind fun vout => .ok _

theorem failsIn_readScript? (v : Json) : FailsIn Failure.IsReading (readScript? v) := by
  unfold readScript?
  split
  · refine (Json.failsIn_toMembers v).bind fun members => ?_
    dsimp only
    split
    · exact Json.failsIn_toBytes _
    · exact .ok _
  · exact .ok _

theorem failsIn_readId? (members : List (String × Json)) :
    FailsIn Failure.IsReading (readId? members) := by
  unfold readId?
  dsimp only
  split
  · exact .ok _
  · split
    · exact .ok _
    · exact .error (.inl rfl)

theorem TxIn.failsIn_ofNode? (v : Json) : FailsIn Failure.IsReading (ofNode? v) := by
  refine (Json.failsIn_toMembers v).bind fun members => ?_
  refine (failsIn_readSpent? members).bind fun previous => ?_
  refine (Json.failsIn_toPartsIfPresent _).bind fun items => ?_
  exact (FailsIn.mapM Json.failsIn_toBytes items).bind fun witness => .ok _

theorem TxOut.failsIn_ofNodeMembers? (members : List (String × Json)) :
    FailsIn Failure.IsReading (ofNodeMembers? members) := by
  refine (Amount.failsIn_ofJson _).bind fun value => ?_
  exact (failsIn_readScript? _).bind fun script => .ok _

/-- How reading a transaction of a node can fail. -/
theorem Transaction.failsIn_ofNode? (v : Json) : FailsIn Failure.IsReading (ofNode? v) := by
  refine (Json.failsIn_toMembers v).bind fun members => ?_
  refine (failsIn_readId? members).bind fun id => ?_
  refine (Json.failsIn_toPartsIfPresent _).bind fun ins => ?_
  refine (FailsIn.mapM TxIn.failsIn_ofNode? ins).bind fun inputs => ?_
  refine (Json.failsIn_toPartsIfPresent _).bind fun outs => ?_
  refine (FailsIn.mapM Json.failsIn_toMembers outs).bind fun listed => ?_
  refine (Json.failsIn_sortByKey? _).bind fun sorted => ?_
  exact (FailsIn.mapM TxOut.failsIn_ofNodeMembers? sorted).bind fun outputs => .ok _

theorem Failure.IsUncaught.isPassedOver_eq {f : Failure} (h : f.IsUncaught) :
    f.isPassedOver = false := by
  cases h with
  | wrongType => rfl
  | decimalText => rfl
  | decimalRange => rfl
  | magnitude => rfl

/-! ## Answers that no snapshot comes of -/

/-- An answer whose error counts as present, but is no object. -/
inductive Response.IsBare : Response → Prop
  | reply {status : Int} {isRefused : Bool} {body : Json.Document} {members : List (String × Json)}
    (object : body.value = .object members)
    (present : (Json.member members "error").isTruthy = true)
    (bare : (Json.member members "error").members? = none) :
    IsBare (.reply status isRefused (some body))

namespace Response

theorem failureOf_eq (error : Json) :
    failureOf error = .wrongType ∧ error.members? = none ∨
      (failureOf error).isNodeFault = true ∧ error.members? ≠ none := by
  cases error with
  | object members => exact .inr ⟨rfl, nofun⟩
  | null => exact .inl ⟨rfl, rfl⟩
  | bool _ => exact .inl ⟨rfl, rfl⟩
  | integer _ => exact .inl ⟨rfl, rfl⟩
  | double _ => exact .inl ⟨rfl, rfl⟩
  | text _ => exact .inl ⟨rfl, rfl⟩
  | list _ => exact .inl ⟨rfl, rfl⟩

/-- An answer with a bare error is of the wrong type. -/
theorem IsBare.result_eq {r : Response} (h : r.IsBare) : r.result = .error .wrongType := by
  obtain ⟨object, present, bare⟩ := h
  rw [result, object]
  change resultOf _ _ _ = _
  rw [resultOf, if_pos present]
  rcases failureOf_eq (Json.member _ "error") with ⟨hwrong, -⟩ | ⟨-, hobject⟩
  · rw [hwrong]
  · exact absurd bare hobject

/-- An answer that fails without a bare error is a failure of the node. -/
theorem isNodeFault_of_result {r : Response} (h : ¬r.IsBare) {f : Failure}
    (hf : r.result = .error f) : f.isNodeFault = true := by
  cases r with
  | unreachable =>
    obtain rfl := Except.error.inj hf
    rfl
  | reply status isRefused body =>
    cases body with
    | none =>
      obtain rfl := Except.error.inj hf
      rfl
    | some body =>
      rw [result] at hf
      split at hf
      · next members hobject =>
        rw [resultOf] at hf
        split at hf
        · next hpresent =>
          obtain rfl := Except.error.inj hf
          rcases failureOf_eq (Json.member members "error") with ⟨-, hbare⟩ | ⟨hnode, -⟩
          · exact absurd (.reply hobject hpresent hbare) h
          · exact hnode
        · split at hf
          · obtain rfl := Except.error.inj hf
            rfl
          · cases hf
      · obtain rfl := Except.error.inj hf
        rfl

/-- An answer fails as the node does, or it has a bare error. -/
theorem failsIn_result (r : Response) :
    FailsIn (fun f => f.isPassedOver = true ∨ f.IsUncaught) r.result := by
  intro f hf
  by_cases hbare : r.IsBare
  · rw [hbare.result_eq] at hf
    obtain rfl := Except.error.inj hf
    exact .inr .wrongType
  · exact .inl (Bool.or_eq_true_iff.2 (.inl (isNodeFault_of_result hbare hf)))

end Response

namespace Node

/-- A transaction that is asked for fails as the node does, or as reading a transaction does. -/
theorem failsIn_transaction (node : Node) (txid : TransactionId) :
    FailsIn (fun f => f.isPassedOver = true ∨ f.IsUncaught) (node.transaction txid) := by
  refine (Response.failsIn_result _).bind fun result => ?_
  split
  · refine (Transaction.failsIn_ofNode? _).imp fun f hf => ?_
    exact hf.imp_left fun hvalue => Bool.or_eq_true_iff.2 (.inr hvalue)
  · exact .error (.inl rfl)

variable {node : Node} {txid : String}

/-- The answers that no snapshot comes of: a bare error, and an object that is read as no
transaction other than by a value that cannot be read. -/
inductive Breaks (node : Node) (txid : String) : Prop
  | error (bare : (node (transactionCall txid 1)).IsBare)
  | content {members : List (String × Json)} {f : Failure}
    (result : node.call (transactionCall txid 1) = .ok (.object members))
    (fails : Transaction.ofNode? (.object members) = .error f) (uncaught : f.IsUncaught)

theorem transaction_of_error {f : Failure}
    (h : node.call (transactionCall txid 1) = .error f) : node.transaction txid = .error f := by
  rw [transaction, h]
  rfl

theorem transaction_of_object {members : List (String × Json)}
    (h : node.call (transactionCall txid 1) = .ok (.object members)) :
    node.transaction txid = Transaction.ofNode? (.object members) := by
  rw [transaction, h]
  rfl

theorem transaction_of_other {v : Json} (h : node.call (transactionCall txid 1) = .ok v)
    (hv : v.members? = none) :
    node.transaction txid = .error (.node (.transport (.notTransaction txid))) := by
  rw [transaction, h]
  cases v with
  | object members => cases hv
  | _ => rfl

/-- A failure to give a transaction that is not passed over comes of an answer that breaks. -/
theorem breaks_of_error {f : Failure} (h : node.transaction txid = .error f)
    (hf : f.isPassedOver = false) : node.Breaks txid ∧ f.IsUncaught := by
  obtain ⟨hnode, hvalue⟩ : f.isNodeFault = false ∧ f.isValueFault = false :=
    Bool.or_eq_false_iff.1 hf
  -- A bare error is the one failure of an answer as such that is not the node's.
  by_cases hbare : (node (transactionCall txid 1)).IsBare
  · rw [transaction_of_error hbare.result_eq] at h
    obtain rfl := Except.error.inj h
    exact ⟨.error hbare, .wrongType⟩
  · cases hcall : node.call (transactionCall txid 1) with
    | error g =>
      rw [transaction_of_error hcall] at h
      obtain rfl := Except.error.inj h
      rw [Response.isNodeFault_of_result hbare hcall] at hnode
      cases hnode
    | ok result =>
      cases result with
      | object members =>
        rw [transaction_of_object hcall] at h
        rcases Transaction.failsIn_ofNode? _ f h with hreads | huncaught
        · rw [hreads] at hvalue
          cases hvalue
        · exact ⟨.content hcall h huncaught, huncaught⟩
      | _ =>
        rw [transaction_of_other hcall rfl] at h
        obtain rfl := Except.error.inj h
        cases hnode

/-- Answers break that fail in a way that is not passed over. -/
theorem breaks_iff :
    node.Breaks txid ↔ ∃ f, node.transaction txid = .error f ∧ f.isPassedOver = false := by
  constructor
  · intro h
    cases h with
    | error bare => exact ⟨.wrongType, transaction_of_error bare.result_eq, rfl⟩
    | content result fails uncaught =>
      exact ⟨_, (transaction_of_object result).trans fails, uncaught.isPassedOver_eq⟩
  · exact fun ⟨_, hf, hpassed⟩ => (breaks_of_error hf hpassed).1

end Node

/-! ## Transactions that a snapshot can be made of -/

namespace Transaction

variable {t : Transaction}

theorem txid_of_mem_extract {y : InscriptionId × Inscription} (h : y ∈ t.extract) :
    y.1.txid = t.txid := by
  rw [extract_eq_zipIdx] at h
  obtain ⟨_, -, rfl⟩ := List.mem_map.1 h
  rfl

theorem txid_of_mem_outPoints {y : OutPoint × TxOut} (h : y ∈ t.outPoints) :
    y.1.txid = t.txid := by
  obtain ⟨_, -, rfl⟩ := List.mem_map.1 h
  rfl

theorem extract_eq_nil_iff : t.extract = [] ↔ t.contents = [] := List.map_eq_nil_iff.symm

theorem outPoints_eq_nil_iff : t.outPoints = [] ↔ t.outputs = [] := by simp [outPoints]

end Transaction

namespace Snapshot

variable {given : List (String × Transaction)}

/-- Transactions with parts have ids that are no lists and no objects. -/
def AreNamed (given : List (String × Transaction)) : Prop :=
  ∀ x ∈ given, x.2.txid.value.isScalar = false → x.2.contents = [] ∧ x.2.outputs = []

theorem forall_isScalar_iff {α : Type} {parts : Transaction → List α} {idOf : α → TransactionId}
    (given : List (String × Transaction)) (hid : ∀ t, ∀ y ∈ parts t, idOf y = t.txid) :
    (∀ y ∈ given.flatMap fun x => parts x.2, (idOf y).value.isScalar = true) ↔
      ∀ x ∈ given, x.2.txid.value.isScalar = false → parts x.2 = [] := by
  constructor
  · intro h x hx hcompound
    refine List.eq_nil_iff_forall_not_mem.2 fun y hy => ?_
    have hscalar := h y (List.mem_flatMap.2 ⟨x, hx, hy⟩)
    rw [hid x.2 y hy, hcompound] at hscalar
    cases hscalar
  · intro h y hy
    obtain ⟨x, hx, hy⟩ := List.mem_flatMap.1 hy
    rw [hid x.2 y hy]
    by_contra hcompound
    rw [Bool.not_eq_true] at hcompound
    rw [h x hx hcompound] at hy
    cases hy

theorem transactions_of_ofTransactions? {generation : Nat} {s : Snapshot}
    (h : ofTransactions? generation given = .ok s) : s.transactions = given := by
  unfold ofTransactions? at h
  dsimp only at h
  split at h
  · obtain rfl := Except.ok.inj h
    rfl
  · cases h

theorem eq_wrongType_of_ofTransactions? {generation : Nat} {f : Failure}
    (h : ofTransactions? generation given = .error f) : f = .wrongType := by
  unfold ofTransactions? at h
  dsimp only at h
  split at h
  · cases h
  · exact (Except.error.inj h).symm

/-- There is a snapshot of transactions exactly if those with parts have scalar ids. -/
theorem exists_ofTransactions?_iff (generation : Nat) :
    (∃ s, ofTransactions? generation given = .ok s) ↔ AreNamed given := by
  have hinscriptions := forall_isScalar_iff given fun _ _ hy => Transaction.txid_of_mem_extract hy
  have houtputs := forall_isScalar_iff given fun _ _ hy => Transaction.txid_of_mem_outPoints hy
  -- The ids that are checked are those of the parts, which are those of their transactions.
  have hall : (((given.flatMap fun x => x.2.extract).map fun x => x.1.txid) ++
        (given.flatMap fun x => x.2.outPoints).map fun x => x.1.txid).all
          (fun txid => txid.value.isScalar) = true ↔ AreNamed given := by
    rw [List.all_append, Bool.and_eq_true, List.all_eq_true, List.all_eq_true, List.forall_mem_map,
      List.forall_mem_map, hinscriptions, houtputs]
    simp only [Transaction.extract_eq_nil_iff, Transaction.outPoints_eq_nil_iff]
    constructor
    · exact fun h x hx hcompound => ⟨h.1 x hx hcompound, h.2 x hx hcompound⟩
    · exact fun h => ⟨fun x hx hcompound => (h x hx hcompound).1,
        fun x hx hcompound => (h x hx hcompound).2⟩
  constructor
  · rintro ⟨s, hs⟩
    by_contra hunnamed
    rw [ofTransactions?, if_neg (mt hall.1 hunnamed)] at hs
    cases hs
  · exact fun hnamed => ⟨_, if_pos (hall.2 hnamed)⟩

end Snapshot

/-! ## Updates from any node -/

/-- Whether an answer is passed over. -/
def Snapshot.isPassedOver (x : String × Outcome Transaction) : Bool :=
  match x.2 with
  | .ok _ => false
  | .error f => f.isPassedOver

namespace Snapshot

variable {turns : Nat → Node} {txids : List String} {answers : List (String × Outcome Transaction)}

theorem keep_eq_error_iff {found : List (String × Transaction)} {x : String × Outcome Transaction}
    {f : Failure} : keep found x = .error f ↔ x.2 = .error f ∧ f.isPassedOver = false := by
  obtain ⟨txid, answer⟩ := x
  cases answer with
  | ok t => simp [keep_of_ok]
  | error g =>
    cases hpassed : g.isPassedOver with
    | true =>
      rw [keep_of_passedOver found txid hpassed]
      constructor
      · nofun
      · rintro ⟨hf, hnot⟩
        obtain rfl := Except.error.inj hf
        rw [hpassed] at hnot
        cases hnot
    | false =>
      rw [keep_of_not_passedOver found txid hpassed]
      constructor
      · intro hf
        obtain rfl := Except.error.inj hf
        exact ⟨rfl, hpassed⟩
      · rintro ⟨hf, -⟩
        obtain rfl := Except.error.inj hf
        rfl

theorem foldlM_keep_eq_ok_iff {found : List (String × Transaction)} :
    answers.foldlM keep [] = .ok found ↔
      (∀ x ∈ answers, ∀ f, x.2 = .error f → f.isPassedOver = true) ∧ found = resolved answers := by
  constructor
  · intro h
    have hpassed : ∀ x ∈ answers, ∀ f, x.2 = .error f → f.isPassedOver = true := by
      intro x hmem f hf
      by_contra hnot
      obtain ⟨before, after, hkept⟩ := Outcome.exists_of_foldlM_eq_ok h x hmem
      rw [keep_eq_error_iff.2 ⟨hf, Bool.eq_false_of_not_eq_true hnot⟩] at hkept
      cases hkept
    rw [foldlM_keep hpassed] at h
    exact ⟨hpassed, (Except.ok.inj h).symm⟩
  · rintro ⟨hpassed, rfl⟩
    exact foldlM_keep hpassed

/-- Answers whose failures are all passed over are those of which none breaks. -/
theorem forall_isPassedOver_iff :
    (∀ x ∈ answersInTurns turns txids, ∀ f, x.2 = .error f → f.isPassedOver = true) ↔
      ∀ (k : Nat) (txid : String), txids[k]? = some txid → ¬(turns (k + 1)).Breaks txid := by
  constructor
  · intro h k txid hlisted hbreaks
    obtain ⟨f, hf, hnot⟩ := Node.breaks_iff.1 hbreaks
    rw [h _ (mem_answersInTurns.2 ⟨k, txid, hlisted, rfl⟩) f hf] at hnot
    cases hnot
  · intro h x hx f hf
    obtain ⟨k, txid, hlisted, rfl⟩ := mem_answersInTurns.1 hx
    by_contra hnot
    exact h k txid hlisted (Node.breaks_iff.2 ⟨f, hf, Bool.eq_false_of_not_eq_true hnot⟩)

/-- An update is made exactly if no answer breaks, and if there is a snapshot of what the answers
resolve to. -/
theorem updateInTurns_eq_ok_iff {snapshot next : Snapshot}
    (hlisted : (turns 0).call Node.pendingCall = .ok (.list (txids.map Json.text))) :
    snapshot.updateInTurns turns = .ok next ↔
      (∀ (k : Nat) (txid : String), txids[k]? = some txid → ¬(turns (k + 1)).Breaks txid) ∧
        ofTransactions? (snapshot.generation + 1) (resolved (answersInTurns turns txids)) =
          .ok next := by
  rw [updateInTurns, listPending_of_call hlisted, Outcome.ok_bind, Outcome.bind_eq_ok_iff,
    ← forall_isPassedOver_iff]
  constructor
  · rintro ⟨found, hfound, hnext⟩
    obtain ⟨hpassed, rfl⟩ := foldlM_keep_eq_ok_iff.1 hfound
    exact ⟨hpassed, hnext⟩
  · rintro ⟨hpassed, hnext⟩
    exact ⟨_, foldlM_keep hpassed, hnext⟩

theorem isUncaught_of_updateInTurns {snapshot : Snapshot} {f : Failure}
    (hlisted : (turns 0).call Node.pendingCall = .ok (.list (txids.map Json.text)))
    (h : snapshot.updateInTurns turns = .error f) : f.IsUncaught := by
  rw [updateInTurns, listPending_of_call hlisted, Outcome.ok_bind] at h
  cases hfound : (answersInTurns turns txids).foldlM keep [] with
  | error g =>
    rw [hfound] at h
    obtain rfl := Except.error.inj h
    obtain ⟨x, hx, found, hkept⟩ := Outcome.exists_of_foldlM_eq_error hfound
    obtain ⟨k, txid, -, rfl⟩ := mem_answersInTurns.1 hx
    obtain ⟨hf, hnot⟩ := keep_eq_error_iff.1 hkept
    exact (Node.breaks_of_error hf hnot).2
  | ok found =>
    rw [hfound, Outcome.ok_bind] at h
    rw [eq_wrongType_of_ofTransactions? h]
    exact .wrongType

/-- An update from a node that lists ids, whatever it answers when it is asked for each of them. It
is made exactly if no answer breaks and the transactions that the answers resolve to are named, and
then its transactions are these. Answers that are passed over make no difference: without the ids
that they were given for, the other answers bring the same. -/
theorem updateInTurns_of_pending (snapshot : Snapshot)
    (hlisted : (turns 0).call Node.pendingCall = .ok (.list (txids.map Json.text))) :
    ((∃ next, snapshot.updateInTurns turns = .ok next) ↔
      (∀ (k : Nat) (txid : String), txids[k]? = some txid → ¬(turns (k + 1)).Breaks txid) ∧
        AreNamed (resolved (answersInTurns turns txids))) ∧
    (∀ next, snapshot.updateInTurns turns = .ok next →
      next.transactions = resolved (answersInTurns turns txids)) ∧
    (∀ f, snapshot.updateInTurns turns = .error f → f.IsUncaught) ∧
    ∀ (turns' : Nat → Node) (txids' : List String),
      (turns' 0).call Node.pendingCall = .ok (.list (txids'.map Json.text)) →
      answersInTurns turns' txids' =
        (answersInTurns turns txids).filter (fun x => !isPassedOver x) →
      snapshot.updateInTurns turns' = snapshot.updateInTurns turns := by
  refine ⟨?_, fun next hnext => ?_, fun f hf => isUncaught_of_updateInTurns hlisted hf,
    fun turns' txids' hlisted' hanswers => ?_⟩
  · simp only [updateInTurns_eq_ok_iff hlisted, exists_and_left, exists_ofTransactions?_iff]
  · exact transactions_of_ofTransactions? ((updateInTurns_eq_ok_iff hlisted).1 hnext).2
  · have hkept : ((answersInTurns turns txids).filter fun x => !isPassedOver x).foldlM keep [] =
        (answersInTurns turns txids).foldlM keep [] := by
      refine Outcome.foldlM_filter (fun x _ hpassed found => ?_) []
      obtain ⟨txid, answer⟩ := x
      cases answer with
      | ok t => cases hpassed
      | error f => exact keep_of_passedOver found txid ((Bool.not_eq_false' _).mp hpassed)
    rw [updateInTurns, updateInTurns, listPending_of_call hlisted, listPending_of_call hlisted',
      Outcome.ok_bind, Outcome.ok_bind, hanswers, hkept]

/-- An id that the node does not answer for makes no difference: the update is the one from a node
that does not list it. -/
theorem updateInTurns_of_pending_unreachable :
    let listed (ids : String) : Response := .ofText 200 ids
    let a1 : Response := .ofText 200 "\x7b\"result\": \x7b\"txid\": \"a1\"\x7d\x7d"
    let turns : Nat → Node := fun k _ =>
      if k = 0 then listed "\x7b\"result\": [\"c3\", \"a1\"]\x7d"
      else if k = 1 then .unreachable else a1
    let turns' : Nat → Node := fun k _ =>
      if k = 0 then listed "\x7b\"result\": [\"a1\"]\x7d" else a1
    ∃ next, ({} : Snapshot).updateInTurns turns = .ok next ∧
      next.transactions = [("a1", .bare "a1")] ∧
      ({} : Snapshot).updateInTurns turns' = .ok next := by
  intro listed a1 turns turns'
  have hlisted : (turns 0).call Node.pendingCall =
      .ok (.list (["c3", "a1"].map Json.text)) := by
    dsimp only [turns, listed]
    cbv
  have hlisted' : (turns' 0).call Node.pendingCall = .ok (.list (["a1"].map Json.text)) := by
    dsimp only [turns', listed]
    cbv
  have ha1 : (turns 2).transaction "a1" = .ok (.bare "a1") := by
    dsimp only [turns, a1]
    cbv
  have hanswers : answersInTurns turns ["c3", "a1"] =
      [("c3", .error (.node (.transport .unreachable))), ("a1", .ok (.bare "a1"))] :=
    congrArg (fun answer => [("c3", (turns 1).transaction "c3"), ("a1", answer)]) ha1
  have hresolved : resolved (answersInTurns turns ["c3", "a1"]) = [("a1", .bare "a1")] := by
    have hfirst : ["a1"].eraseDups = ["a1"] := by decide
    rw [hanswers]
    change ["a1"].eraseDups.filterMap _ = _
    rw [hfirst]
    rfl
  have hbreaks : ∀ (k : Nat) (txid : String), ["c3", "a1"][k]? = some txid →
      ¬(turns (k + 1)).Breaks txid := by
    rintro (_ | _ | k) txid hk hbreaks
    · obtain rfl := Option.some.inj hk
      obtain ⟨f, hf, hnot⟩ := Node.breaks_iff.1 hbreaks
      obtain rfl := Except.error.inj hf
      cases hnot
    · obtain rfl := Option.some.inj hk
      obtain ⟨f, hf, -⟩ := Node.breaks_iff.1 hbreaks
      cases ha1.symm.trans hf
    · cases hk
  have hnamed : AreNamed (resolved (answersInTurns turns ["c3", "a1"])) := by
    rw [hresolved]
    simp [AreNamed, Transaction.bare, TransactionId.ofText, Json.isScalar]
  obtain ⟨hmade, htransactions, -, hother⟩ := updateInTurns_of_pending {} hlisted
  obtain ⟨next, hnext⟩ := hmade.2 ⟨hbreaks, hnamed⟩
  refine ⟨next, hnext, (htransactions next hnext).trans hresolved, ?_⟩
  rw [← hnext]
  refine hother turns' ["a1"] hlisted' ?_
  rw [hanswers]
  exact congrArg (fun answer => [("a1", answer)]) ha1

/-- Not every list of ids can be gone through: one amount that is no decimal stops the update. -/
theorem not_forall_exists_update :
    ¬∀ (snapshot : Snapshot) (node : Node) (txids : List String),
      node.call Node.pendingCall = .ok (.list (txids.map Json.text)) →
        ∃ next, snapshot.update node = .ok next := by
  intro h
  let node : Node := fun c =>
    if c.params = .list [] then .ofText 200 "\x7b\"result\": [\"aa\", \"bb\"]\x7d"
    else if c.params = .list [.text "aa", .integer 1] then .ofText 200
      "\x7b\"result\": \x7b\"txid\": \"aa\", \"vout\": [\x7b\"value\": \"x\"\x7d]\x7d\x7d"
    else .ofText 200 "\x7b\"result\": \x7b\"txid\": \"bb\"\x7d\x7d"
  have hlisted : node.call Node.pendingCall = .ok (.list (["aa", "bb"].map Json.text)) := by
    dsimp only [node]
    cbv
  have hfails : ({} : Snapshot).update node = .error .decimalText := by
    dsimp only [node]
    cbv
  obtain ⟨next, hnext⟩ := h {} node ["aa", "bb"] hlisted
  rw [hfails] at hnext
  cases hnext

end Snapshot

end InscriptionLedger
