import InscriptionLedger.Proofs.InscriptionEffect
import InscriptionLedger.Proofs.InscriptionViews
import InscriptionLedger.Proofs.NodeAnswers

/-!
# How a view can fail

A view is made, or something that it tells of is not found, or the index does not answer: so a view
may fail. It can also fail in other ways, and these are few. A transaction that is stored may not
read back, and one that the node is asked for may come as an answer that no transaction can be made
of; the least number has no number before it that fits into a column, and the greatest has none
behind it; and a satoshi that is recorded may be none.

## Main definitions

* `Outcome.Escapes`: outcomes that fail otherwise than a view may
* `Failure.IsMisread`: failures to read a stored form
* `Index.Misses`, `Index.Spoils`: transactions that an index does not give, and those that it fails
  to read
* `Viewer.Breaks`: the ways in which the view of an inscription fails otherwise

## Main results

* `Viewer.escapes_view_iff`: a view fails otherwise exactly in these ways
* `Viewer.not_forall_not_escapes_view`: it does at the greatest number
-/

namespace InscriptionLedger

/-! ## Failures that are none of a view -/

/-- Failures that a view may not have: all but those that tell that something is not found, or that
the index does not answer. -/
def Failure.IsStray : Failure → Prop
  | notFound _ | lookup _ => False
  | _ => True

/-- An outcome that fails, and not in one of the ways in which a view may fail. -/
def Outcome.Escapes {α : Type} (x : Outcome α) : Prop := ∃ f, x = .error f ∧ f.IsStray

namespace Outcome

variable {α β : Type}

@[simp] theorem escapes_ok {a : α} : Escapes (.ok a) ↔ False := by simp [Escapes]

@[simp] theorem escapes_error {f : Failure} : Escapes (.error f : Outcome α) ↔ f.IsStray := by
  simp [Escapes]

/-- Steps one after another fail otherwise where one of them does, behind others that succeed. -/
theorem escapes_bind_iff {x : Outcome α} {g : α → Outcome β} :
    Escapes (x >>= g) ↔ x.Escapes ∨ ∃ a, x = .ok a ∧ (g a).Escapes := by
  cases x with
  | ok a => simp
  | error f => simp

theorem escapes_map_iff {x : Outcome α} {g : α → β} : Escapes (x.map g) ↔ x.Escapes := by
  cases x with
  | ok a => simp [Except.map]
  | error f => simp [Except.map]

/-- An outcome that is a result unless it fails otherwise than a view may. -/
def Settles (x : Outcome α) : Prop := (∃ a, x = .ok a) ∨ x.Escapes

theorem escapes_bind_of_settles {x : Outcome α} {g : α → Outcome β} (hx : x.Settles)
    (hg : ∀ a, (g a).Escapes) : Escapes (x >>= g) := by
  rcases hx with ⟨a, rfl⟩ | hescapes
  · exact hg a
  · exact escapes_bind_iff.2 (.inl hescapes)

end Outcome

theorem Failure.IsUncaught.isStray {f : Failure} (h : f.IsUncaught) : f.IsStray := by
  cases h <;> trivial

theorem Failure.IsReading.isStray {f : Failure} (h : f.IsReading) : f.IsStray := by
  rcases h with hvalue | huncaught
  · cases f with
    | value fault => trivial
    | _ => cases hvalue
  · exact huncaught.isStray

/-! ## Stored transactions that do not read back -/

/-- Failures to read a stored form: a value cannot be read, or a member is missing. -/
def Failure.IsMisread (f : Failure) : Prop := f.IsReading ∨ f = .missingMember

theorem Failure.IsMisread.isStray {f : Failure} (h : f.IsMisread) : f.IsStray := by
  rcases h with hreading | rfl
  · exact hreading.isStray
  · trivial

section

open Outcome (FailsIn)

theorem OutPoint.failsIn_read? (s : String) : FailsIn Failure.IsMisread (OutPoint.read? s) := by
  unfold OutPoint.read?
  split
  · exact .ok _
  · exact .error (.inl (.inl rfl))

theorem failsIn_readPrevious? (v : Json) : FailsIn Failure.IsMisread (readPrevious? v) := by
  unfold readPrevious?
  split
  · refine FailsIn.bind ?_ fun s => (OutPoint.failsIn_read? s).bind fun p => .ok _
    unfold Json.toText
    split
    · exact .ok _
    · exact .error (.inl (.inr .wrongType))
  · exact .ok _

theorem Json.failsIn_toParts (v : Json) : FailsIn Failure.IsMisread v.toParts := by
  unfold toParts
  split
  · exact .ok _
  · exact .error (.inl (.inr .wrongType))

theorem Json.failsIn_required (members : List (String × Json)) (name : String) :
    FailsIn Failure.IsMisread (required members name) := by
  unfold required
  split
  · exact .ok _
  · exact .error (.inr rfl)

/-- What fails in reading a value fails as reading a stored form does. -/
theorem Outcome.FailsIn.isMisread {α : Type} {x : Outcome α} (h : FailsIn Failure.IsReading x) :
    FailsIn Failure.IsMisread x :=
  h.imp fun _ => .inl

theorem TxIn.failsIn_ofStored? (v : Json) : FailsIn Failure.IsMisread (ofStored? v) := by
  refine (Json.failsIn_toMembers v).isMisread.bind fun members => ?_
  refine (failsIn_readPrevious? _).bind fun previous => ?_
  refine (Json.failsIn_toParts _).bind fun items => ?_
  exact (FailsIn.mapM (fun v => (Json.failsIn_toBytes v).isMisread) items).bind fun witness => .ok _

theorem TxOut.failsIn_ofStored? (v : Json) : FailsIn Failure.IsMisread (ofStored? v) := by
  refine (Json.failsIn_toMembers v).isMisread.bind fun members => ?_
  refine (Json.failsIn_required members "value").bind fun value => ?_
  refine (Json.failsIn_toInt value).isMisread.bind fun satoshis => ?_
  refine (Json.failsIn_required members "script_pubkey").bind fun script => ?_
  exact (Json.failsIn_toBytes script).isMisread.bind fun bytes => .ok _

/-- How reading the stored form of a transaction can fail. -/
theorem Transaction.failsIn_ofStored? (v : Json) : FailsIn Failure.IsMisread (ofStored? v) := by
  refine (Json.failsIn_toMembers v).isMisread.bind fun members => ?_
  refine (Json.failsIn_toParts _).bind fun ins => ?_
  refine (FailsIn.mapM TxIn.failsIn_ofStored? ins).bind fun inputs => ?_
  refine (Json.failsIn_toParts _).bind fun outs => ?_
  refine (FailsIn.mapM TxOut.failsIn_ofStored? outs).bind fun outputs => ?_
  exact (Json.failsIn_required members "txid").bind fun id => .ok _

end

/-! ## Failing look-ups that are forgiven -/

namespace Viewer

theorem not_isStray_of_isLookup {f : Failure} (h : isLookup f = true) : ¬f.IsStray := by
  cases f with
  | lookup fault => exact id
  | _ => cases h

/-- To forgive failing look-ups changes nothing about other failures. -/
theorem escapes_orMissing_iff {α : Type} {x : Outcome (Option α)} :
    (orMissing isLookup x).Escapes ↔ x.Escapes := by
  cases x with
  | ok o => rfl
  | error f =>
    rw [orMissing]
    split
    · next h => simp [not_isStray_of_isLookup h]
    · rfl

end Viewer

/-! ## Reads that fail otherwise -/

namespace Index

/-- An id that a transaction is looked up under: it is readable, and can be put into a cell. -/
structure LooksUp (index : Index) (txid : TransactionId) : Prop where
  readable : index.unreadableTransactions.contains txid = false
  storable : txid.isStorable = true

/-- A transaction that an index does not give: its look-up fails, or no row is under the id. -/
inductive Misses (index : Index) (txid : TransactionId) : Prop
  | lookup (fails : ¬index.LooksUp txid)
  | row (fits : ∀ n ∈ txid.integers, fitsColumn n = true)
    (absent : ∀ r ∈ index.tables.transactions, r.isFor txid.cell? = false)

/-- A transaction that is looked up and cannot be read: its id is a number that does not fit, or the
document under the id is no transaction. -/
inductive Spoils (index : Index) (txid : TransactionId) : Prop
  | id (asked : index.LooksUp txid) {n : Int} (number : n ∈ txid.integers)
    (wide : fitsColumn n = false)
  | document (asked : index.LooksUp txid) (fits : ∀ n ∈ txid.integers, fitsColumn n = true)
    {r : TransactionRow} (stored : r ∈ index.tables.transactions)
    (under : r.isFor txid.cell? = true) (unread : ∀ u, ¬r.Denotes u)

variable {index : Index} {txid : TransactionId}

theorem transaction?_of_not_looksUp (hopen : index.isClosed = false) (h : ¬index.LooksUp txid) :
    ∃ fault, index.transaction? txid = .error (.lookup fault) := by
  unfold transaction?
  split
  · exact ⟨_, rfl⟩
  · next hreadable =>
    have hstorable : ¬txid.isStorable = true := fun hstorable =>
      h ⟨Bool.eq_false_of_not_eq_true hreadable, hstorable⟩
    rw [queryId, if_neg (by simp [hstorable, hopen])]
    exact ⟨_, rfl⟩

theorem transaction?_of_not_fit (hopen : index.isClosed = false) (hasked : index.LooksUp txid)
    (h : ¬∀ n ∈ txid.integers, fitsColumn n = true) :
    index.transaction? txid = .error .magnitude := by
  have hquery : index.queryId txid [] = .error .magnitude := by
    rw [queryId, if_pos (.inl hasked.storable), List.append_nil, query_of_not_fit hopen h]
  unfold transaction?
  rw [hasked.readable, hquery]
  rfl

theorem Spoils.looksUp (h : index.Spoils txid) : index.LooksUp txid := by
  cases h with
  | id asked _ _ => exact asked
  | document asked _ _ _ _ => exact asked

/-- The look-up of a transaction fails otherwise than a view may exactly if it is spoiled. -/
theorem escapes_transaction?_iff (hopen : index.isClosed = false)
    (hsound : index.tables.IsSound) : (index.transaction? txid).Escapes ↔ index.Spoils txid := by
  by_cases hasked : index.LooksUp txid
  · by_cases hfit : ∀ n ∈ txid.integers, fitsColumn n = true
    · rw [transaction?_eq hopen hasked.readable hasked.storable hfit]
      constructor
      · intro hescapes
        split at hescapes
        · next r hr =>
          obtain ⟨hmem, hunder⟩ := (find?_isFor_eq_some_iff hsound).1 hr
          refine .document hasked hfit hmem hunder fun u hu => ?_
          rw [hu.document] at hescapes
          simp [Except.map] at hescapes
        · simp at hescapes
      · intro hspoils
        cases hspoils with
        | id _ hnumber hwide =>
          rw [hfit _ hnumber] at hwide
          cases hwide
        | document _ _ hstored hunder hunread =>
          rw [(find?_isFor_eq_some_iff hsound).2 ⟨hstored, hunder⟩]
          refine Outcome.escapes_map_iff.2 ?_
          cases hread : Transaction.ofStored? _ with
          | ok u => exact absurd ((hsound.denotes_iff hstored).2 hread) (hunread u)
          | error f =>
            exact Outcome.escapes_error.2 (Transaction.failsIn_ofStored? _ f hread).isStray
    · rw [transaction?_of_not_fit hopen hasked hfit, Outcome.escapes_error]
      push Not at hfit
      obtain ⟨n, hn, hwide⟩ := hfit
      exact iff_of_true trivial (.id hasked hn (Bool.eq_false_of_not_eq_true hwide))
  · obtain ⟨fault, hfault⟩ := transaction?_of_not_looksUp hopen hasked
    rw [hfault, Outcome.escapes_error]
    exact iff_of_false nofun fun hspoils => hasked hspoils.looksUp

/-- With failing look-ups forgiven, no transaction comes of an id exactly if it is missed. -/
theorem orMissing_transaction?_eq_none_iff (hopen : index.isClosed = false) :
    Viewer.orMissing Viewer.isLookup (index.transaction? txid) = .ok none ↔ index.Misses txid := by
  by_cases hasked : index.LooksUp txid
  · by_cases hfit : ∀ n ∈ txid.integers, fitsColumn n = true
    · rw [transaction?_eq hopen hasked.readable hasked.storable hfit]
      constructor
      · intro hnone
        split at hnone
        · next r _ =>
          cases hread : Transaction.ofStored? r.document with
          | ok u =>
            rw [hread] at hnone
            cases hnone
          | error f =>
            rw [hread] at hnone
            have hf := (Transaction.failsIn_ofStored? r.document f hread).isStray
            have hescapes : (Viewer.orMissing Viewer.isLookup
                ((.error f : Outcome Transaction).map some)).Escapes :=
              Viewer.escapes_orMissing_iff.2 ⟨f, rfl, hf⟩
            rw [hnone] at hescapes
            exact (Outcome.escapes_ok.1 hescapes).elim
        · next hr => exact .row hfit (by simpa using hr)
      · intro hmisses
        cases hmisses with
        | lookup hfails => exact absurd hasked hfails
        | row _ habsent =>
          rw [List.find?_eq_none.2 (by simpa using habsent)]
          rfl
    · rw [transaction?_of_not_fit hopen hasked hfit]
      refine iff_of_false nofun fun hmisses => ?_
      cases hmisses with
      | lookup hfails => exact hfails hasked
      | row hfits _ => exact hfit hfits
  · obtain ⟨fault, hfault⟩ := transaction?_of_not_looksUp hopen hasked
    rw [hfault]
    exact iff_of_true rfl (.lookup hasked)

theorem settles_idOfNumber? (hopen : index.isClosed = false) {n : Int}
    (h : n ∉ index.unreadableNumbers) : (index.idOfNumber? n).Settles := by
  rw [idOfNumber?_eq_ite hopen h]
  split
  · exact .inl ⟨_, rfl⟩
  · exact .inr ⟨.magnitude, rfl, trivial⟩

theorem idOfNumber?_of_mem {n : Int} (h : n ∈ index.unreadableNumbers) :
    index.idOfNumber? n = .error (.lookup (.unreadableNumber n)) :=
  if_pos (List.contains_iff_mem.2 h)

/-- The look-up of a number fails otherwise than a view may exactly if the number does not fit. -/
theorem escapes_idOfNumber?_iff (hopen : index.isClosed = false) {n : Int} :
    (index.idOfNumber? n).Escapes ↔ n ∉ index.unreadableNumbers ∧ fitsColumn n = false := by
  by_cases hmem : n ∈ index.unreadableNumbers
  · rw [idOfNumber?_of_mem hmem, Outcome.escapes_error]
    exact iff_of_false nofun fun h => h.1 hmem
  · rw [idOfNumber?_eq_ite hopen hmem, and_iff_right hmem]
    cases fitsColumn n with
    | true => simp
    | false => exact iff_of_true ⟨.magnitude, rfl, trivial⟩ rfl

end Index

/-! ## Parts of a view -/

namespace Viewer

variable {viewer : Viewer}

/-- A node that is asked fails otherwise than a view may exactly if its answer is read as no
transaction, and the failure is not passed over. -/
theorem escapes_askNode_iff {s : String} :
    (viewer.askNode (.ofText s)).Escapes ↔ ∃ node, viewer.node? = some node ∧
      ∃ f, node.transaction (.ofText s) = .error f ∧ f.IsUncaught := by
  unfold askNode
  cases viewer.node? with
  | none => simp
  | some node =>
    simp only [Option.some.injEq, exists_eq_left']
    cases hanswer : node.transaction (.ofText s) with
    | ok t => simp [Except.map, orMissing]
    | error f =>
      simp only [Except.map, orMissing, Except.error.injEq, exists_eq_left']
      split
      · next hforgiven =>
        refine iff_of_false (by simp) fun huncaught => ?_
        have := huncaught.isPassedOver_eq
        rw [show f.isPassedOver = true from hforgiven] at this
        cases this
      · next hfails =>
        have huncaught := (Node.breaks_of_error hanswer (Bool.eq_false_of_not_eq_true hfails)).2
        exact iff_of_true (Outcome.escapes_error.2 huncaught.isStray) huncaught

/-- A transaction that is asked for fails otherwise than a view may if the index spoils it, or if it
misses it and the node's answer is at fault. -/
theorem escapes_currentTransaction_iff (hopen : viewer.index.isClosed = false)
    (hsound : viewer.index.tables.IsSound) {txid : TransactionId} :
    (viewer.currentTransaction txid).Escapes ↔ viewer.index.Spoils txid ∨
      viewer.index.Misses txid ∧ (viewer.askNode txid).Escapes := by
  unfold currentTransaction
  rw [Outcome.escapes_bind_iff, escapes_orMissing_iff, Index.escapes_transaction?_iff hopen hsound,
    ← Index.orMissing_transaction?_eq_none_iff hopen]
  refine or_congr_right ⟨?_, fun ⟨hmisses, hescapes⟩ => ⟨none, hmisses, hescapes⟩⟩
  rintro ⟨o, ho, hescapes⟩
  cases o with
  | some t => simp at hescapes
  | none => exact ⟨ho, hescapes⟩

theorem escapes_currentOutput_iff {id : InscriptionId} {place : SatPoint} :
    (viewer.currentOutput id place).Escapes ↔
      (viewer.currentTransaction place.outpoint.txid).Escapes := by
  unfold currentOutput
  rw [Outcome.escapes_bind_iff, or_iff_left]
  rintro ⟨o, -, hescapes⟩
  cases o with
  | none => simp at hescapes
  | some t =>
    dsimp only at hescapes
    split at hescapes
    · simp at hescapes
    · obtain ⟨f, hf, hfault⟩ := hescapes
      obtain rfl := Except.error.inj hf
      cases hfault

theorem escapes_previousOf_iff (hopen : viewer.index.isClosed = false) {number : Int}
    (hfit : fitsColumn number = true) :
    (viewer.previousOf number).Escapes ↔
      number = -2 ^ 63 ∧ -2 ^ 63 - 1 ∉ viewer.index.unreadableNumbers := by
  simp only [fitsColumn, Bool.and_eq_true, decide_eq_true_eq] at hfit
  unfold previousOf
  split
  · next hzero => simp [hzero]
  · rw [escapes_orMissing_iff, Index.escapes_idOfNumber?_iff hopen]
    constructor
    · rintro ⟨hreadable, hwide⟩
      obtain rfl : number = -2 ^ 63 := by
        simp [fitsColumn] at hwide
        omega
      exact ⟨rfl, hreadable⟩
    · rintro ⟨rfl, hreadable⟩
      exact ⟨hreadable, by decide⟩

theorem escapes_next_iff (hopen : viewer.index.isClosed = false) {number : Int}
    (hfit : fitsColumn number = true) :
    (viewer.index.idOfNumber? (number + 1)).Escapes ↔
      number = 2 ^ 63 - 1 ∧ 2 ^ 63 ∉ viewer.index.unreadableNumbers := by
  simp only [fitsColumn, Bool.and_eq_true, decide_eq_true_eq] at hfit
  rw [Index.escapes_idOfNumber?_iff hopen]
  constructor
  · rintro ⟨hreadable, hwide⟩
    obtain rfl : number = 2 ^ 63 - 1 := by
      simp [fitsColumn] at hwide
      omega
    exact ⟨rfl, hreadable⟩
  · rintro ⟨rfl, hreadable⟩
    exact ⟨hreadable, by decide⟩

/-- A satoshi is described unless it is recorded outside the range of satoshis. -/
theorem escapes_sat_iff {sat : Option Int} :
    (sat.mapM describeSat).Escapes ↔ ∃ n ∈ sat, ¬(0 ≤ n ∧ n ≤ lastSat) := by
  cases sat with
  | none => simp
  | some n =>
    change Outcome.Escapes ((describeSat n).map some) ↔ _
    rw [Outcome.escapes_map_iff]
    simp only [Option.mem_some_iff, exists_eq_left']
    by_cases hn : 0 ≤ n ∧ n ≤ lastSat
    · obtain ⟨v, hv⟩ := exists_describeSat hn
      rw [hv, Outcome.escapes_ok]
      exact iff_of_false id (not_not.2 hn)
    · refine iff_of_true ?_ hn
      rw [describeSat, Sat.ofNumber?_of_outside hn, Outcome.escapes_map_iff, Outcome.escapes_error]
      trivial

theorem escapes_firstOwner_iff (hopen : viewer.index.isClosed = false)
    (hsound : viewer.index.tables.IsSound) {id : InscriptionId} {place : SatPoint} :
    (viewer.firstOwner id place).Escapes ↔ viewer.index.Spoils id.txid := by
  unfold firstOwner
  rw [Outcome.escapes_bind_iff, Index.escapes_transaction?_iff hopen hsound, or_iff_left]
  rintro ⟨o, -, hescapes⟩
  cases o <;> simp at hescapes

/-! ## Views that fail otherwise -/

/-- The ways in which the view of an inscription fails otherwise than a view may: by the row of the
inscription and its place. -/
inductive Breaks (viewer : Viewer) (id : InscriptionId) (r : InscriptionRow) (place : SatPoint) :
    Prop
  | output (spoils : viewer.index.Spoils place.outpoint.txid)
  | node {node : Node} {f : Failure} (misses : viewer.index.Misses place.outpoint.txid)
    (asked : viewer.node? = some node)
    (answer : node.transaction place.outpoint.txid = .error f) (uncaught : f.IsUncaught)
  | least {output : Option TxOut} (shown : viewer.currentOutput id place = .ok output)
    (number : r.entry.number = -2 ^ 63) (asked : -2 ^ 63 - 1 ∉ viewer.index.unreadableNumbers)
  | greatest {output : Option TxOut} (shown : viewer.currentOutput id place = .ok output)
    (number : r.entry.number = 2 ^ 63 - 1) (asked : 2 ^ 63 ∉ viewer.index.unreadableNumbers)
  | sat {output : Option TxOut} (shown : viewer.currentOutput id place = .ok output)
    (next : r.entry.number + 1 ∉ viewer.index.unreadableNumbers) {n : Int}
    (recorded : n ∈ r.entry.sat) (outside : ¬(0 ≤ n ∧ n ≤ lastSat))
  | firstOwner {output : Option TxOut} (shown : viewer.currentOutput id place = .ok output)
    (next : r.entry.number + 1 ∉ viewer.index.unreadableNumbers)
    (spoils : viewer.index.Spoils id.txid)

/-- An inscription whose id cannot be written is not even looked up. -/
theorem view_of_unwritable {id : InscriptionId} (hid : id.isWritable = false) :
    viewer.view id = .error .unwritable := by
  have hrow : viewer.index.row? id = .error .unwritable := by
    rw [Index.row?, hid]
    rfl
  rw [view, Index.entry?, hrow]
  rfl

/-- An inscription whose id can be written, and whose view fails otherwise, has a row with a
place. -/
theorem exists_row_of_escapes (hopen : viewer.index.isClosed = false) {id : InscriptionId}
    (hid : id.isWritable = true) (h : (viewer.view id).Escapes) :
    ∃ r place, viewer.index.row? id = .ok (some r) ∧ r.location = some place := by
  have hread := Index.row?_eq_ite hopen id
  rw [if_pos hid] at hread
  cases hfind : viewer.index.tables.inscriptions.find? fun r => r.name == id.text with
  | none =>
    rw [hfind] at hread
    have hview : viewer.view id = .error (.notFound (.inscription id)) := by
      rw [view, Index.entry?, hread]
      rfl
    rw [hview] at h
    exact (Outcome.escapes_error.1 h).elim
  | some r =>
    rw [hfind] at hread
    cases hplace : r.location with
    | some place => exact ⟨r, place, hread, hplace⟩
    | none =>
      have hlocation : viewer.index.location? id = .ok none := by
        rw [Index.location?, hread, Outcome.ok_bind, Option.bind_some, hplace]
        rfl
      have hview : viewer.view id = .error (.notFound (.inscription id)) := by
        rw [view, Index.entry?, Index.content?, hread, hlocation]
        rfl
      rw [hview] at h
      exact (Outcome.escapes_error.1 h).elim

theorem settles_previousOf (hopen : viewer.index.isClosed = false) (number : Int) :
    (viewer.previousOf number).Settles := by
  unfold previousOf
  split
  · exact .inl ⟨none, rfl⟩
  · by_cases hmem : number - 1 ∈ viewer.index.unreadableNumbers
    · rw [Index.idOfNumber?_of_mem hmem]
      exact .inl ⟨none, rfl⟩
    · rcases Index.settles_idOfNumber? hopen hmem with ⟨o, ho⟩ | hescapes
      · rw [ho]
        exact .inl ⟨o, rfl⟩
      · exact .inr (escapes_orMissing_iff.2 hescapes)

theorem settles_sat (sat : Option Int) : (sat.mapM describeSat).Settles := by
  by_cases h : ∃ n ∈ sat, ¬(0 ≤ n ∧ n ≤ lastSat)
  · exact .inr (escapes_sat_iff.2 h)
  · push Not at h
    cases sat with
    | none => exact .inl ⟨none, rfl⟩
    | some n =>
      obtain ⟨v, hv⟩ := exists_describeSat (h n rfl)
      refine .inl ⟨some v, ?_⟩
      rw [Option.mapM_some, hv]
      rfl

section

variable (hopen : viewer.index.isClosed = false) (hsound : viewer.index.tables.IsSound)
  {id : InscriptionId} {r : InscriptionRow} {place : SatPoint}
  (hrow : viewer.index.row? id = .ok (some r)) (hplace : r.location = some place)
  (hfit : fitsColumn r.entry.number = true) (htext : place.outpoint.txid.IsText)

include hopen hsound hrow hplace hfit htext

/-- A view that fails otherwise breaks: in the first part that fails, behind those that succeed. -/
theorem breaks_of_escapes (h : (viewer.view id).Escapes) : viewer.Breaks id r place := by
  rw [view_eq_of_row hrow hplace] at h
  rcases Outcome.escapes_bind_iff.1 h with houtput | ⟨output, hshown, h⟩
  · rw [escapes_currentOutput_iff, escapes_currentTransaction_iff hopen hsound] at houtput
    rcases houtput with hspoils | ⟨hmisses, hasked⟩
    · exact .output hspoils
    · obtain ⟨s, hs⟩ := htext
      rw [hs, escapes_askNode_iff] at hasked
      obtain ⟨node, hnode, f, hanswer, huncaught⟩ := hasked
      exact .node hmisses hnode (hs ▸ hanswer) huncaught
  rcases Outcome.escapes_bind_iff.1 h with hprevious | ⟨previous, -, h⟩
  · obtain ⟨hnumber, hreadable⟩ := (escapes_previousOf_iff hopen hfit).1 hprevious
    exact .least hshown hnumber hreadable
  rcases Outcome.escapes_bind_iff.1 h with hnext | ⟨next, hnext, h⟩
  · obtain ⟨hnumber, hreadable⟩ := (escapes_next_iff hopen hfit).1 hnext
    exact .greatest hshown hnumber hreadable
  have hreadable : r.entry.number + 1 ∉ viewer.index.unreadableNumbers := by
    intro hmem
    rw [Index.idOfNumber?_of_mem hmem] at hnext
    cases hnext
  rcases Outcome.escapes_bind_iff.1 h with hsat | ⟨sat, -, h⟩
  · obtain ⟨n, hn, houtside⟩ := escapes_sat_iff.1 hsat
    exact .sat hshown hreadable hn houtside
  rcases Outcome.escapes_bind_iff.1 h with hfirst | ⟨firstOwner, -, h⟩
  · exact .firstOwner hshown hreadable ((escapes_firstOwner_iff hopen hsound).1 hfirst)
  · exact (Outcome.escapes_ok.1 h).elim

/-- A view that breaks fails otherwise: the parts before the one that breaks succeed, or fail
otherwise as well. -/
theorem escapes_of_breaks (h : viewer.Breaks id r place) : (viewer.view id).Escapes := by
  rw [view_eq_of_row hrow hplace]
  -- The output was shown or has failed otherwise; `previous` does not hide what comes behind it.
  have hprevious := settles_previousOf hopen r.entry.number
  cases h with
  | output hspoils =>
    refine Outcome.escapes_bind_iff.2 (.inl (escapes_currentOutput_iff.2 ?_))
    exact (escapes_currentTransaction_iff hopen hsound).2 (.inl hspoils)
  | node hmisses hnode hanswer huncaught =>
    have hasked : (viewer.askNode place.outpoint.txid).Escapes := by
      obtain ⟨s, hs⟩ := htext
      rw [hs] at hanswer ⊢
      exact escapes_askNode_iff.2 ⟨_, hnode, _, hanswer, huncaught⟩
    refine Outcome.escapes_bind_iff.2 (.inl (escapes_currentOutput_iff.2 ?_))
    exact (escapes_currentTransaction_iff hopen hsound).2 (.inr ⟨hmisses, hasked⟩)
  | least hshown hnumber hreadable =>
    rw [hshown, Outcome.ok_bind]
    refine Outcome.escapes_bind_iff.2 (.inl ?_)
    exact (escapes_previousOf_iff hopen hfit).2 ⟨hnumber, hreadable⟩
  | greatest hshown hnumber hreadable =>
    rw [hshown, Outcome.ok_bind]
    refine Outcome.escapes_bind_of_settles hprevious fun _ => ?_
    refine Outcome.escapes_bind_iff.2 (.inl ?_)
    exact (escapes_next_iff hopen hfit).2 ⟨hnumber, hreadable⟩
  | sat hshown hreadable hrecorded houtside =>
    rw [hshown, Outcome.ok_bind]
    have hnext := Index.settles_idOfNumber? hopen hreadable
    refine Outcome.escapes_bind_of_settles hprevious fun _ => ?_
    refine Outcome.escapes_bind_of_settles hnext fun _ => ?_
    exact Outcome.escapes_bind_iff.2 (.inl (escapes_sat_iff.2 ⟨_, hrecorded, houtside⟩))
  | firstOwner hshown hreadable hspoils =>
    rw [hshown, Outcome.ok_bind]
    have hnext := Index.settles_idOfNumber? hopen hreadable
    refine Outcome.escapes_bind_of_settles hprevious fun _ => ?_
    refine Outcome.escapes_bind_of_settles hnext fun _ => ?_
    refine Outcome.escapes_bind_of_settles (settles_sat _) fun _ => ?_
    exact Outcome.escapes_bind_iff.2 (.inl ((escapes_firstOwner_iff hopen hsound).2 hspoils))

end

end Viewer

/-! ## Views after a run -/

theorem SatPoint.isText_of_stored? {p q : SatPoint} (h : p.stored? = some q) :
    q.outpoint.txid.IsText := by
  simp only [stored?, OutPoint.stored?, Option.map_eq_some_iff] at h
  obtain ⟨_, ⟨s, -, rfl⟩, rfl⟩ := h
  exact ⟨s, rfl⟩

theorem InscriptionRow.isText_of_of? {id : InscriptionId} {fields : EntryFields}
    {content : Inscription} {location : Option SatPoint} {row : InscriptionRow}
    (h : of? id fields content location = some row) :
    ∀ p ∈ row.location, p.outpoint.txid.IsText := by
  simp only [of?, Option.bind_eq_bind, Option.bind_eq_some_iff, Option.pure_def,
    Option.some.injEq] at h
  obtain ⟨_, -, _, -, rfl⟩ := h
  intro p hp
  obtain ⟨_, -, hstored⟩ := Option.bind_eq_some_iff.1 hp
  exact SatPoint.isText_of_stored? hstored

namespace Index

/-- After a run the places of the inscriptions are in transactions whose ids are texts. -/
theorem isText_location_run (ws : List Write) :
    ∀ r ∈ (({} : Index).run ws).tables.inscriptions, ∀ p ∈ r.location, p.outpoint.txid.IsText := by
  refine run_induction (P := fun _ t =>
    ∀ r ∈ t.inscriptions, ∀ p ∈ r.location, p.outpoint.txid.IsText) ?_ ?_
  · intro _ hr
    cases hr
  · intro _ t w after _ hdone hstep
    cases hstep with
    | block b _ =>
      rw [Tables.inscriptions_storeBlock]
      exact hdone
    | transaction _ _ => exact hdone
    | inscription _ complete =>
      intro r hr
      rcases Tables.mem_putInscription.1 hr with ⟨hr, -⟩ | rfl
      · exact hdone r hr
      · exact InscriptionRow.isText_of_of? complete

/-- An index of which some numbers and some transactions are unreadable. -/
def withFaults (index : Index) (numbers : List Int) (txids : List TransactionId) : Index :=
  { index with unreadableNumbers := numbers, unreadableTransactions := txids }

end Index

namespace Viewer

/-- After a run, whatever numbers and transactions have become unreadable, and whatever the node
answers, a view fails otherwise than a view may exactly if the id cannot be written, or if the
inscription has a row with a place, and the view breaks in one of the ways there are. -/
theorem escapes_view_iff (ws : List Write) (numbers : List Int) (txids : List TransactionId)
    (network : Network) (key : OwnerKey) (node? : Option Node) (id : InscriptionId) :
    let viewer : Viewer := ⟨(({} : Index).run ws).withFaults numbers txids, network, key, node?⟩
    (viewer.view id).Escapes ↔ id.isWritable = false ∨
      ∃ r place, viewer.index.row? id = .ok (some r) ∧ r.location = some place ∧
        viewer.Breaks id r place := by
  intro viewer
  have hopen : viewer.index.isClosed = false := Index.isClosed_run {} ws
  have hsound : viewer.index.tables.IsSound := Index.isSound_run ws
  have hmem {r : InscriptionRow} (hrow : viewer.index.row? id = .ok (some r)) :
      r ∈ (({} : Index).run ws).tables.inscriptions := by
    exact List.mem_of_find?_eq_some ((Index.row?_eq_ok_iff hopen).1 hrow).2
  have hfit := Index.fitsColumn_number_run ws
  have htext := Index.isText_location_run ws
  constructor
  · intro hescapes
    cases hid : id.isWritable with
    | false => exact .inl rfl
    | true =>
      obtain ⟨r, place, hrow, hplace⟩ := exists_row_of_escapes hopen hid hescapes
      have hr := hmem hrow
      exact .inr ⟨r, place, hrow, hplace, breaks_of_escapes hopen hsound hrow hplace (hfit r hr)
        (htext r hr place hplace) hescapes⟩
  · rintro (hid | ⟨r, place, hrow, hplace, hbreaks⟩)
    · rw [view_of_unwritable hid]
      exact Outcome.escapes_error.2 trivial
    have hr := hmem hrow
    exact escapes_of_breaks hopen hsound hrow hplace (hfit r hr) (htext r hr place hplace) hbreaks

/-- The view of the inscription of the greatest number fails otherwise. -/
theorem not_forall_not_escapes_view :
    ¬∀ (ws : List Write) (numbers : List Int) (txids : List TransactionId) (network : Network)
      (key : OwnerKey) (node? : Option Node) (id : InscriptionId),
      ¬(view ⟨(({} : Index).run ws).withFaults numbers txids, network, key, node?⟩ id).Escapes := by
  intro h
  let id : InscriptionId := ⟨.ofText "a1", 0⟩
  let ws : List Write := [.inscription id ⟨some (2 ^ 63 - 1), some 5, some 0, some 0, none⟩ {}
    (some ⟨⟨.ofText "a1", 0⟩, 0⟩)]
  refine h ws [] [] .mainnet .vout none id ⟨.magnitude, ?_, trivial⟩
  cbv

end Viewer

end InscriptionLedger
