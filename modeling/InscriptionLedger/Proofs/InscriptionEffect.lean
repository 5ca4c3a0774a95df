import InscriptionLedger.Proofs.BlockEffect
import InscriptionLedger.Proofs.BlockListing

/-!
# The effect of storing an inscription

Inscriptions have unique ids and unique numbers, so that after every run each id that is found leads
to a number, and the number back to the id. An inscription that is stored takes the place of the one
that had its id and of the one that had its number; it is found as it was written, these two are
found no more, and all else is answered as before.

## Main definitions

* `Index.IsCatalogue`: an index whose inscriptions have names and numbers that can be asked for
* `Index.PairsNumbers`: ids and numbers lead to one another
* `Index.Lacks`: an inscription that no answer tells of
* `Index.InscriptionEffect`: the effect of storing an inscription on the answers

## Main results

* `Index.isCatalogue_run`: an index is a catalogue after a run of writes that name texts
* `Index.IsCatalogue.pairsNumbers`: in a catalogue ids and numbers lead to one another
* `Index.inscriptionEffect_of_write`: storing an inscription after a run has its effect
-/

namespace InscriptionLedger

/-! ## Catalogues -/

/-- An index that answers, and whose inscriptions are named by texts and have numbers that fit. -/
structure Index.IsCatalogue (index : Index) : Prop where
  isOpen : index.isClosed = false
  numbers : index.unreadableNumbers = []
  sound : index.tables.IsSound
  named : ∀ r ∈ index.tables.inscriptions, r.IsTextual
  fit : ∀ r ∈ index.tables.inscriptions, fitsColumn r.entry.number = true

theorem EntryFields.entry?_eq_some_iff {f : EntryFields} {e : Entry} :
    f.entry? = some e ↔ f = e.fields := by
  obtain ⟨number, height, fee, timestamp, sat⟩ := f
  constructor
  · intro h
    simp only [Option.bind_eq_bind, Option.bind_eq_some_iff, Option.pure_def, Option.some.injEq,
      entry?] at h
    obtain ⟨_, rfl, _, rfl, _, rfl, _, rfl, rfl⟩ := h
    rfl
  · intro h
    cases h
    rfl

namespace InscriptionRow

variable {id : InscriptionId} {fields : EntryFields} {content : Inscription}
  {location : Option SatPoint} {row : InscriptionRow}

theorem fields_of_of? (h : of? id fields content location = some row) :
    fields = row.entry.fields := by
  simp only [of?, Option.bind_eq_bind, Option.bind_eq_some_iff, Option.pure_def,
    Option.some.injEq] at h
  obtain ⟨_, -, _, hentry, rfl⟩ := h
  exact EntryFields.entry?_eq_some_iff.1 hentry

/-- The row of an inscription whose id and place are texts holds what was written. -/
theorem eq_of_of? (hid : id.txid.IsText) (hlocation : ∀ p ∈ location, p.outpoint.txid.IsText)
    (h : of? id fields content location = some row) :
    row = ⟨id.text, id, row.entry, content, location⟩ := by
  obtain ⟨txid, index⟩ := id
  obtain ⟨s, rfl⟩ : txid.IsText := hid
  have hstored : location.bind SatPoint.stored? = location := by
    cases location with
    | none => rfl
    | some p =>
      obtain ⟨⟨txid, vout⟩, offset⟩ := p
      obtain ⟨s', rfl⟩ : txid.IsText := hlocation _ rfl
      rfl
  simp only [of?, TransactionId.cell?_ofText, Option.bind_eq_bind, Option.bind_some,
    Option.pure_def, Option.bind_eq_some_iff, Option.some.injEq, hstored] at h
  obtain ⟨_, -, rfl⟩ := h
  rfl

theorem fitsColumn_number (hfit : (Statement.putInscription id fields content location).IsFit)
    (h : of? id fields content location = some row) : fitsColumn row.entry.number = true := by
  obtain rfl := fields_of_of? h
  exact hfit.fits _ (by simp [Statement.integers, EntryFields.integers, Entry.fields])

end InscriptionRow

theorem Tables.Step.fitsColumn_number {t after : Tables} {w : Write} (hstep : t.Step w after)
    (h : ∀ r ∈ t.inscriptions, fitsColumn r.entry.number = true) :
    ∀ r ∈ after.inscriptions, fitsColumn r.entry.number = true := by
  cases hstep with
  | block b _ =>
    rw [inscriptions_storeBlock]
    exact h
  | transaction _ _ => exact h
  | inscription fit complete =>
    intro r hr
    rcases mem_putInscription.1 hr with ⟨hr, -⟩ | rfl
    · exact h r hr
    · exact InscriptionRow.fitsColumn_number fit complete

/-- After a run the numbers of the inscriptions fit into their column. -/
theorem Index.fitsColumn_number_run (ws : List Write) :
    ∀ r ∈ (({} : Index).run ws).tables.inscriptions, fitsColumn r.entry.number = true :=
  run_induction (P := fun _ t => ∀ r ∈ t.inscriptions, fitsColumn r.entry.number = true)
    (fun _ hr => by cases hr) fun _ _ _ _ _ hdone hstep => hstep.fitsColumn_number hdone

/-- An index is a catalogue after a run of writes that name inscriptions by texts. -/
theorem Index.isCatalogue_run {ws : List Write} (h : ∀ w ∈ ws, w.NamesText) :
    (({} : Index).run ws).IsCatalogue where
  isOpen := isClosed_run {} ws
  numbers := unreadableNumbers_run {} ws
  sound := isSound_run ws
  named := run_induction (P := fun _ t => ∀ r ∈ t.inscriptions, r.IsTextual)
    (fun _ hr => by cases hr) fun _ _ w _ hw hdone hstep =>
      hstep.isTextual_inscriptions (h w hw) hdone
  fit := fitsColumn_number_run ws

/-! ## Ids and numbers -/

theorem InscriptionRow.clashes_eq_false_iff {r s : InscriptionRow} (hr : r.IsTextual)
    (hs : s.IsTextual) :
    r.clashes s = false ↔ r.id ≠ s.id ∧ r.entry.number ≠ s.entry.number := by
  rw [clashes_eq_false_iff_ne, hs.name, ne_eq, hr.name_eq_iff hs.txid]

namespace Index

/-- Ids and numbers lead to one another. -/
structure PairsNumbers (index : Index) : Prop where
  ofId : ∀ id e, id.txid.IsText → index.entry? id = .ok (some e) →
    index.idOfNumber? e.number = .ok (some id)
  ofNumber : ∀ n id, index.idOfNumber? n = .ok (some id) →
    id.txid.IsText ∧ ∃ e, index.entry? id = .ok (some e) ∧ e.number = n

namespace IsCatalogue

variable {index : Index} (h : index.IsCatalogue)

include h

theorem pairwise_apart : index.tables.inscriptions.Pairwise fun r s =>
    r.id ≠ s.id ∧ r.entry.number ≠ s.entry.number :=
  h.sound.inscriptions.imp_of_mem fun {r s} hr hs hclash =>
    (InscriptionRow.clashes_eq_false_iff (h.named r hr) (h.named s hs)).1 hclash

/-- Rows that share the id or the number are one. -/
theorem eq_of_shared {r s : InscriptionRow} (hr : r ∈ index.tables.inscriptions)
    (hs : s ∈ index.tables.inscriptions)
    (hshared : r.id = s.id ∨ r.entry.number = s.entry.number) : r = s := by
  have : Std.Symm fun r s : InscriptionRow => r.id ≠ s.id ∧ r.entry.number ≠ s.entry.number :=
    ⟨fun _ _ hapart => ⟨hapart.1.symm, hapart.2.symm⟩⟩
  by_contra hne
  obtain ⟨hid, hnumber⟩ := h.pairwise_apart.forall hr hs hne
  exact hshared.elim hid hnumber

theorem idOfNumber?_eq_some_iff {n : Int} {id : InscriptionId} :
    index.idOfNumber? n = .ok (some id) ↔
      ∃ r ∈ index.tables.inscriptions, r.entry.number = n ∧ r.id = id := by
  by_cases hfit : fitsColumn n = true
  · simp only [idOfNumber?_eq h.isOpen h.numbers hfit, Except.ok.injEq, Option.map_eq_some_iff,
      find?_key_eq_some_iff h.sound.pairwise_number, and_assoc]
  · -- A number that does not fit is not asked for, and no row has it.
    constructor
    · intro hfound
      unfold idOfNumber? at hfound
      rw [h.numbers, query_eq h.isOpen] at hfound
      obtain ⟨t, ht, -⟩ := Outcome.bind_eq_ok_iff.1 hfound
      obtain ⟨_, hrequire, -⟩ := Outcome.map_eq_ok_iff.1 ht
      exact absurd (requireFit_eq_ok_iff.1 hrequire n (List.mem_singleton.2 rfl)) hfit
    · rintro ⟨r, hr, rfl, -⟩
      exact absurd (h.fit r hr) hfit

theorem idOfNumber?_eq_none {n : Int} (hfit : fitsColumn n = true)
    (hnone : ∀ r ∈ index.tables.inscriptions, r.entry.number ≠ n) :
    index.idOfNumber? n = .ok none := by
  have hfind : index.tables.inscriptions.find? (fun r => r.entry.number == n) = none := by
    simpa using hnone
  rw [idOfNumber?_eq h.isOpen h.numbers hfit, hfind]
  rfl

/-- In a catalogue ids and numbers lead to one another. -/
theorem pairsNumbers : index.PairsNumbers where
  ofId id e hid hentry := by
    obtain ⟨r, hr, hrid, rfl⟩ := (entry?_eq_some_iff h.isOpen h.sound h.named hid).1 hentry
    exact h.idOfNumber?_eq_some_iff.2 ⟨r, hr, rfl, hrid⟩
  ofNumber n id hnumber := by
    obtain ⟨r, hr, hrn, rfl⟩ := h.idOfNumber?_eq_some_iff.1 hnumber
    have hid := (h.named r hr).txid
    exact ⟨hid, r.entry,
      (entry?_eq_some_iff h.isOpen h.sound h.named hid).2 ⟨r, hr, rfl, rfl⟩, hrn⟩

end IsCatalogue

end Index

/-! ## Listings -/

/-- The rows of the inscriptions by their numbers, greatest first, from a number down if one is
given. -/
def Tables.rowsFrom (t : Tables) (cursor : Option Int) : List InscriptionRow :=
  (t.inscriptions.filter fun r => cursor.all fun c => r.entry.number ≤ c).mergeSort
    fun x y => y.entry.number ≤ x.entry.number

theorem Tables.mem_of_mem_rowsIn {t : Tables} {p : OutPoint} {x : Int × InscriptionRow}
    (h : x ∈ t.rowsIn p) : x.2 ∈ t.inscriptions := by
  rw [rowsIn, List.mem_mergeSort, List.mem_filterMap] at h
  obtain ⟨r, hr, hplaced⟩ := h
  obtain ⟨_, -, rfl⟩ := Option.map_eq_some_iff.1 hplaced
  exact hr

theorem Tables.mem_rowsFrom {t : Tables} {cursor : Option Int} {r : InscriptionRow} :
    r ∈ t.rowsFrom cursor ↔ r ∈ t.inscriptions ∧ ∀ c ∈ cursor, r.entry.number ≤ c := by
  rw [rowsFrom, List.mem_mergeSort, List.mem_filter]
  cases cursor <;> simp

/-- The rows are sorted strictly, since no two have the same number. -/
theorem Tables.pairwise_rowsFrom {t : Tables} (h : t.IsSound) (cursor : Option Int) :
    (t.rowsFrom cursor).Pairwise fun x y => y.entry.number < x.entry.number := by
  refine pairwise_mergeSort_of_apart (R := fun x y => x.entry.number ≠ y.entry.number)
    (fun x y z hxy hyz => ?_) (fun x y => ?_) (fun hne => hne.symm) (fun x y hxy hne => ?_)
    (h.pairwise_number.filter _)
  · rw [decide_eq_true_eq] at hxy hyz ⊢
    omega
  · rw [Bool.or_eq_true, decide_eq_true_eq, decide_eq_true_eq]
    omega
  · rw [decide_eq_true_eq] at hxy
    omega

/-- What is kept of two strictly sorted lists is the same if it was the same before sorting. -/
theorem filter_mergeSort_congr {α : Type} {le : α → α → Bool} {lt : α → α → Prop}
    (hlt : ∀ a b, lt a b → ¬lt b a) {l l' : List α} (h : (l.mergeSort le).Pairwise lt)
    (h' : (l'.mergeSort le).Pairwise lt) {p : α → Bool} (hkept : l.filter p = l'.filter p) :
    (l.mergeSort le).filter p = (l'.mergeSort le).filter p := by
  have hperm : ((l.mergeSort le).filter p).Perm ((l'.mergeSort le).filter p) :=
    calc ((l.mergeSort le).filter p).Perm (l.filter p) := (List.mergeSort_perm l le).filter p
      _ = l'.filter p := hkept
      List.Perm _ ((l'.mergeSort le).filter p) := ((List.mergeSort_perm l' le).filter p).symm
  refine hperm.eq_of_pairwise ?_ (h.filter p) (h'.filter p)
  exact fun a b _ _ hab hba => absurd hba (hlt a b hab)

theorem filter_filterMap_eq {α β : Type} {f : α → Option β} {p : α → Bool} {q : β → Bool}
    (h : ∀ a b, f a = some b → q b = p a) (l : List α) :
    (l.filterMap f).filter q = (l.filter p).filterMap f := by
  rw [List.filter_filterMap, List.filterMap_filter]
  refine List.filterMap_congr fun a _ => ?_
  cases hf : f a with
  | none => simp
  | some b => simp [Option.filter, h a b hf]

namespace Index

variable {index : Index}

theorem takeCount_subset {α : Type} (count : Int) (xs : List α) : takeCount count xs ⊆ xs := by
  unfold takeCount
  split
  · exact List.Subset.refl _
  · exact List.take_subset _ _

theorem query_eq_ok {ns : List Int} {t : Tables} (h : index.query ns = .ok t) :
    t = index.tables := by
  unfold query at h
  split at h
  · cases h
  · obtain ⟨_, -, ht⟩ := Outcome.bind_eq_ok_iff.1 h
    exact (Except.ok.inj ht).symm

theorem onOutput_eq_ok {p : OutPoint} {ids : List InscriptionId} (h : index.onOutput p = .ok ids) :
    ids = (index.tables.rowsIn p).map fun x => x.2.id := by
  obtain ⟨t, ht, hids⟩ := Outcome.bind_eq_ok_iff.1 h
  unfold queryId at ht
  split at ht
  · obtain rfl := query_eq_ok ht
    exact (Except.ok.inj hids).symm
  · cases ht

theorem latest_eq_ok_iff (hopen : index.isClosed = false) {count : Int} {cursor : Option Int}
    {ids : List InscriptionId} :
    index.latest count cursor = .ok ids ↔
      (∀ n ∈ cursor.toList ++ [count], fitsColumn n = true) ∧
        ids = (takeCount count (index.tables.rowsFrom cursor)).map InscriptionRow.id := by
  unfold latest
  rw [query_eq hopen, Outcome.bind_eq_ok_iff]
  constructor
  · rintro ⟨t, ht, hids⟩
    obtain ⟨_, hrequire, rfl⟩ := Outcome.map_eq_ok_iff.1 ht
    exact ⟨requireFit_eq_ok_iff.1 hrequire, (Except.ok.inj hids).symm⟩
  · rintro ⟨hfit, rfl⟩
    exact ⟨_, Outcome.map_eq_ok_iff.2 ⟨(), requireFit_eq_ok_iff.2 hfit, rfl⟩, rfl⟩

/-! ## The effect -/

/-- An inscription that no answer tells of. -/
structure Lacks (index : Index) (id : InscriptionId) : Prop where
  entry : index.entry? id = .ok none
  content : index.content? id = .ok none
  location : index.location? id = .ok none
  number : ∀ n, index.idOfNumber? n ≠ .ok (some id)
  onOutput : ∀ p ids, index.onOutput p = .ok ids → id ∉ ids
  latest : ∀ count cursor ids, index.latest count cursor = .ok ids → id ∉ ids

/-- Indexes with the same answers about an inscription. -/
structure SameAbout (before after : Index) (id : InscriptionId) : Prop where
  entry : after.entry? id = before.entry? id
  content : after.content? id = before.content? id
  location : after.location? id = before.location? id

/-- Indexes with the same answers about blocks and transactions. -/
structure SameBlocks (before after : Index) : Prop where
  block : ∀ ref, after.block? ref = before.block? ref
  latestHash : after.latestHash? = before.latestHash?
  height : ∀ hash, after.heightOf? hash = before.heightOf? hash
  transaction : ∀ txid, after.transaction? txid = before.transaction? txid

/-- An inscription that is neither the one that is stored nor the one whose number it takes. -/
def isOther (id : InscriptionId) (holder : Option InscriptionId) (other : InscriptionId) : Bool :=
  other ≠ id ∧ some other ≠ holder

/-- What storing an inscription makes of the answers. -/
structure InscriptionEffect (before : Index) (id : InscriptionId) (e : Entry)
    (payload : Inscription) (satPoint : Option SatPoint) (after : Index) : Prop where
  /-- The inscription is found as it was written. -/
  entry : after.entry? id = .ok (some e)
  content : after.content? id = .ok (some payload)
  location : after.location? id = .ok satPoint
  /-- It is found under its number, -/
  number : after.idOfNumber? e.number = .ok (some id)
  /-- and in the output of its place only. -/
  place : ∀ p ids, p.txid.IsText → after.onOutput p = .ok ids →
    (id ∈ ids ↔ ∃ offset, satPoint = some ⟨p, offset⟩)
  /-- Another inscription that had the number is found no more. -/
  formerHolder : ∀ holder, holder ≠ id → before.idOfNumber? e.number = .ok (some holder) →
    after.Lacks holder
  /-- Another number that the inscription had is found no more. -/
  formerNumber : ∀ former, before.entry? id = .ok (some former) → former.number ≠ e.number →
    after.idOfNumber? former.number = .ok none ∧
      ∀ other found, other.txid.IsText → after.entry? other = .ok (some found) →
        found.number ≠ former.number
  /-- What is read of other ids does not change, -/
  otherId : ∀ other, other.txid.IsText → other ≠ id →
    before.idOfNumber? e.number ≠ .ok (some other) → before.SameAbout after other
  /-- nor of other numbers, -/
  otherNumber : ∀ n, n ≠ e.number →
    (∀ former, before.entry? id = .ok (some former) → n ≠ former.number) →
    after.idOfNumber? n = before.idOfNumber? n
  /-- nor how the others are listed in an output, -/
  onOutput : ∀ holder, before.idOfNumber? e.number = .ok holder → ∀ p,
    (after.onOutput p).map (List.filter (isOther id holder)) =
      (before.onOutput p).map (List.filter (isOther id holder))
  /-- nor how they are listed by their numbers. -/
  latest : ∀ holder, before.idOfNumber? e.number = .ok holder → ∀ count < 0, ∀ cursor,
    (after.latest count cursor).map (List.filter (isOther id holder)) =
      (before.latest count cursor).map (List.filter (isOther id holder))
  latestFirst : ∀ count cursor ids, after.latest count cursor = .ok ids →
    ∃ all, after.latest (-1) cursor = .ok all ∧ ids = takeCount count all
  blocks : before.SameBlocks after

/-! ## Storing an inscription has its effect -/

/-- The index with an inscription put. -/
def put (index : Index) (row : InscriptionRow) : Index :=
  { index with tables := index.tables.putInscription row }

section

variable {t : Tables}

theorem row?_congr {id : InscriptionId}
    (h : t.inscriptions.find? (fun r => r.name == id.text) =
      index.tables.inscriptions.find? fun r => r.name == id.text) :
    ({ index with tables := t } : Index).row? id = index.row? id := by
  unfold row?
  exact bind_congr fun _ => query_bind_congr (by rw [h]) []

theorem idOfNumber?_congr {n : Int}
    (h : t.inscriptions.find? (fun r => r.entry.number == n) =
      index.tables.inscriptions.find? fun r => r.entry.number == n) :
    ({ index with tables := t } : Index).idOfNumber? n = index.idOfNumber? n := by
  unfold idOfNumber?
  split
  · rfl
  · exact query_bind_congr (by rw [h]) [n]

theorem map_onOutput_congr {g : List InscriptionId → List InscriptionId} {p : OutPoint}
    (h : g ((t.rowsIn p).map fun x => x.2.id) =
      g ((index.tables.rowsIn p).map fun x => x.2.id)) :
    (({ index with tables := t } : Index).onOutput p).map g = (index.onOutput p).map g := by
  unfold onOutput
  rw [Outcome.map_bind, Outcome.map_bind]
  refine queryId_bind_congr ?_ p.txid [p.vout]
  exact congrArg Except.ok h

theorem map_latest_congr {g : List InscriptionId → List InscriptionId} {count : Int}
    {cursor : Option Int}
    (h : g ((takeCount count (t.rowsFrom cursor)).map InscriptionRow.id) =
      g ((takeCount count (index.tables.rowsFrom cursor)).map InscriptionRow.id)) :
    (({ index with tables := t } : Index).latest count cursor).map g =
      (index.latest count cursor).map g := by
  unfold latest
  rw [Outcome.map_bind, Outcome.map_bind]
  refine query_bind_congr ?_ (cursor.toList ++ [count])
  exact congrArg Except.ok h

/-- Answers about blocks and transactions do not depend on the table of the inscriptions. -/
theorem sameBlocks_of_eq (hblocks : t.blocks = index.tables.blocks)
    (htransactions : t.transactions = index.tables.transactions) :
    index.SameBlocks { index with tables := t } := by
  have hblock : blockOfRow t = blockOfRow index.tables := by
    funext row
    rw [blockOfRow, blockOfRow, documentsAt, documentsAt, htransactions]
  constructor
  · intro ref
    unfold block?
    exact query_bind_congr (by rw [hblocks, hblock]) _
  · unfold latestHash?
    exact query_bind_congr (by rw [hblocks]) []
  · intro hash
    unfold heightOf?
    exact query_bind_congr (by rw [hblocks]) []
  · exact fun txid => transaction?_congr (by rw [htransactions])

end

namespace IsCatalogue

variable (h : index.IsCatalogue) {row : InscriptionRow} (hrow : row.IsTextual)

include h

/-- An id that no row has is told of by no answer. -/
theorem lacks {id : InscriptionId} (hid : id.txid.IsText) (hwritable : id.isWritable = true)
    (hnone : ∀ r ∈ index.tables.inscriptions, r.id ≠ id) : index.Lacks id := by
  have hread : index.row? id = .ok none :=
    (row?_eq_none_iff h.isOpen h.named hid).2 ⟨hwritable, hnone⟩
  constructor
  case entry =>
    unfold entry?
    rw [hread]
    rfl
  case content =>
    unfold content?
    rw [hread]
    rfl
  case location =>
    unfold location?
    rw [hread]
    rfl
  case number =>
    intro n hn
    obtain ⟨r, hr, -, hrid⟩ := h.idOfNumber?_eq_some_iff.1 hn
    exact hnone r hr hrid
  case onOutput =>
    intro p ids hids hmem
    rw [onOutput_eq_ok hids, List.mem_map] at hmem
    obtain ⟨x, hx, rfl⟩ := hmem
    exact hnone x.2 (Tables.mem_of_mem_rowsIn hx) rfl
  case latest =>
    intro count cursor ids hids hmem
    rw [((latest_eq_ok_iff h.isOpen).1 hids).2, List.mem_map] at hmem
    obtain ⟨r, hr, rfl⟩ := hmem
    have hlisted := takeCount_subset count (index.tables.rowsFrom cursor) hr
    exact hnone r (Tables.mem_rowsFrom.1 hlisted).1 rfl

include hrow

theorem mem_put {r : InscriptionRow} :
    r ∈ (index.put row).tables.inscriptions ↔
      (r ∈ index.tables.inscriptions ∧ r.id ≠ row.id ∧ r.entry.number ≠ row.entry.number) ∨
        r = row := by
  refine Tables.mem_putInscription.trans (or_congr_left (and_congr_right fun hr => ?_))
  exact InscriptionRow.clashes_eq_false_iff (h.named r hr) hrow

/-- A row that is found before and does not clash with the one that is put is found again. -/
theorem find?_put {p : InscriptionRow → Bool}
    (hold : ∀ r ∈ index.tables.inscriptions, p r = true →
      r.id ≠ row.id ∧ r.entry.number ≠ row.entry.number)
    (hnew : p row = false) :
    (index.put row).tables.inscriptions.find? p = index.tables.inscriptions.find? p := by
  refine find?_filter_append (fun r hr hp => ?_) (by simpa using hnew)
  rw [Bool.not_eq_true', InscriptionRow.clashes_eq_false_iff (h.named r hr) hrow]
  exact hold r hr hp

/-- What is kept of the rows is as before, if no row is kept that clashes with the one that is put,
nor that one itself. -/
theorem filter_put {p : InscriptionRow → Bool}
    (hold : ∀ r ∈ index.tables.inscriptions, p r = true →
      r.id ≠ row.id ∧ r.entry.number ≠ row.entry.number)
    (hnew : p row = false) :
    (index.put row).tables.inscriptions.filter p = index.tables.inscriptions.filter p := by
  have hkept : (index.tables.inscriptions.filter fun r => !r.clashes row).filter p =
      index.tables.inscriptions.filter p := by
    rw [List.filter_filter]
    refine List.filter_congr fun r hr => ?_
    by_cases hp : p r = true
    · have hclash := (InscriptionRow.clashes_eq_false_iff (h.named r hr) hrow).2 (hold r hr hp)
      simp [hp, hclash]
    · simp [hp]
  rw [put, Tables.putInscription, List.filter_append, hkept, List.filter_singleton, hnew]
  simp

theorem isCatalogue_put (hwritable : row.id.isWritable = true)
    (hfit : fitsColumn row.entry.number = true) : (index.put row).IsCatalogue where
  isOpen := h.isOpen
  numbers := h.numbers
  sound := h.sound.putInscription hwritable
  named r hr := by
    rcases (h.mem_put hrow).1 hr with ⟨hr, -⟩ | rfl
    · exact h.named r hr
    · exact hrow
  fit r hr := by
    rcases (h.mem_put hrow).1 hr with ⟨hr, -⟩ | rfl
    · exact h.fit r hr
    · exact hfit

/-! ### What is found no more -/

/-- Another inscription that had the number is told of no more. -/
theorem lacks_put_of_holder (hput : (index.put row).IsCatalogue) {holder : InscriptionId}
    (hne : holder ≠ row.id) (hholder : index.idOfNumber? row.entry.number = .ok (some holder)) :
    (index.put row).Lacks holder := by
  obtain ⟨r, hr, hnumber, rfl⟩ := h.idOfNumber?_eq_some_iff.1 hholder
  refine hput.lacks (h.named r hr).txid (h.sound.writable r hr) fun s hs hid => ?_
  rcases (h.mem_put hrow).1 hs with ⟨hs, -, hkept⟩ | rfl
  · -- Its row is the one that had the number, which was not kept.
    obtain rfl := h.eq_of_shared hs hr (.inl hid)
    exact hkept hnumber
  · exact hne hid.symm

/-- Another number that the inscription had is the number of no row. -/
theorem number_put_of_former {former : Entry}
    (hformer : index.entry? row.id = .ok (some former)) (hne : former.number ≠ row.entry.number) :
    ∀ r ∈ (index.put row).tables.inscriptions, r.entry.number ≠ former.number := by
  obtain ⟨s, hs, hid, rfl⟩ := (entry?_eq_some_iff h.isOpen h.sound h.named hrow.txid).1 hformer
  intro r hr hnumber
  rcases (h.mem_put hrow).1 hr with ⟨hr, hkept, -⟩ | rfl
  · obtain rfl := h.eq_of_shared hr hs (.inr hnumber)
    exact hkept hid
  · exact hne hnumber.symm

/-! ### What stays -/

theorem row?_put_of_ne {other : InscriptionId} (hother : other.txid.IsText) (hne : other ≠ row.id)
    (hholder : index.idOfNumber? row.entry.number ≠ .ok (some other)) :
    (index.put row).row? other = index.row? other := by
  have hfind : (index.put row).tables.inscriptions.find? (fun r => r.name == other.text) =
      index.tables.inscriptions.find? fun r => r.name == other.text := by
    refine h.find?_put hrow (fun r hr hname => ?_) ?_
    · rw [beq_iff_eq, (h.named r hr).name_eq_iff hother] at hname
      obtain rfl := hname
      exact ⟨hne, fun hnumber => hholder (h.idOfNumber?_eq_some_iff.2 ⟨r, hr, hnumber, rfl⟩)⟩
    · rw [beq_eq_false_iff_ne, ne_eq, hrow.name_eq_iff hother]
      exact hne.symm
  exact row?_congr hfind

theorem sameAbout_put {other : InscriptionId} (hother : other.txid.IsText) (hne : other ≠ row.id)
    (hholder : index.idOfNumber? row.entry.number ≠ .ok (some other)) :
    index.SameAbout (index.put row) other := by
  have hread := h.row?_put_of_ne hrow hother hne hholder
  constructor
  case entry =>
    unfold entry?
    rw [hread]
  case content =>
    unfold content?
    rw [hread]
  case location =>
    unfold location?
    rw [hread]

theorem idOfNumber?_put_of_ne {n : Int} (hne : n ≠ row.entry.number)
    (hformer : ∀ former, index.entry? row.id = .ok (some former) → n ≠ former.number) :
    (index.put row).idOfNumber? n = index.idOfNumber? n := by
  have hfind : (index.put row).tables.inscriptions.find? (fun r => r.entry.number == n) =
      index.tables.inscriptions.find? fun r => r.entry.number == n := by
    refine h.find?_put hrow (fun r hr hnumber => ?_) ?_
    · rw [beq_iff_eq] at hnumber
      refine ⟨fun hid => hformer r.entry ?_ hnumber.symm, hnumber.symm ▸ hne⟩
      exact (entry?_eq_some_iff h.isOpen h.sound h.named hrow.txid).2 ⟨r, hr, hid, rfl⟩
    · exact beq_eq_false_iff_ne.2 hne.symm
  exact idOfNumber?_congr hfind

/-- The rows of the inscriptions that are neither the one that is put nor the one whose number it
takes are those from before. -/
theorem filter_isOther_put {holder : Option InscriptionId}
    (hholder : index.idOfNumber? row.entry.number = .ok holder) :
    ((index.put row).tables.inscriptions.filter fun r => isOther row.id holder r.id) =
      index.tables.inscriptions.filter fun r => isOther row.id holder r.id := by
  refine h.filter_put hrow (fun r hr hother => ?_) (by simp [isOther])
  simp only [isOther, ne_eq, decide_eq_true_eq] at hother
  refine ⟨hother.1, fun hnumber => hother.2 ?_⟩
  have hfound := h.idOfNumber?_eq_some_iff.2 ⟨r, hr, hnumber, rfl⟩
  rw [hholder] at hfound
  exact (Except.ok.inj hfound).symm

/-! ### Listings -/

theorem filter_rowsIn_put (hput : (index.put row).IsCatalogue) {holder : Option InscriptionId}
    (hholder : index.idOfNumber? row.entry.number = .ok holder) (p : OutPoint) :
    ((index.put row).tables.rowsIn p).filter (fun x => isOther row.id holder x.2.id) =
      (index.tables.rowsIn p).filter fun x => isOther row.id holder x.2.id := by
  have hplaced : ∀ (r : InscriptionRow) (x : Int × InscriptionRow),
      (offsetIn? p r).map (fun offset => (offset, r)) = some x →
        isOther row.id holder x.2.id = isOther row.id holder r.id := by
    intro r x hx
    obtain ⟨_, -, rfl⟩ := Option.map_eq_some_iff.1 hx
    rfl
  refine filter_mergeSort_congr ?_ (Tables.pairwise_rowsIn hput.sound p)
    (Tables.pairwise_rowsIn h.sound p) ?_
  · intro x y hxy hyx
    omega
  · rw [filter_filterMap_eq hplaced, filter_filterMap_eq hplaced]
    exact congrArg _ (h.filter_isOther_put hrow hholder)

theorem filter_rowsFrom_put (hput : (index.put row).IsCatalogue) {holder : Option InscriptionId}
    (hholder : index.idOfNumber? row.entry.number = .ok holder) (cursor : Option Int) :
    ((index.put row).tables.rowsFrom cursor).filter (fun r => isOther row.id holder r.id) =
      (index.tables.rowsFrom cursor).filter fun r => isOther row.id holder r.id := by
  refine filter_mergeSort_congr ?_ (Tables.pairwise_rowsFrom hput.sound cursor)
    (Tables.pairwise_rowsFrom h.sound cursor) ?_
  · intro x y hxy hyx
    omega
  · rw [List.filter_comm _ _ (index.put row).tables.inscriptions,
      List.filter_comm _ _ index.tables.inscriptions]
    exact congrArg _ (h.filter_isOther_put hrow hholder)

theorem onOutput_put (hput : (index.put row).IsCatalogue) {holder : Option InscriptionId}
    (hholder : index.idOfNumber? row.entry.number = .ok holder) (p : OutPoint) :
    ((index.put row).onOutput p).map (List.filter (isOther row.id holder)) =
      (index.onOutput p).map (List.filter (isOther row.id holder)) := by
  refine map_onOutput_congr ?_
  rw [List.filter_map, List.filter_map]
  exact congrArg _ (h.filter_rowsIn_put hrow hput hholder p)

theorem latest_put (hput : (index.put row).IsCatalogue) {holder : Option InscriptionId}
    (hholder : index.idOfNumber? row.entry.number = .ok holder) {count : Int} (hcount : count < 0)
    (cursor : Option Int) :
    ((index.put row).latest count cursor).map (List.filter (isOther row.id holder)) =
      (index.latest count cursor).map (List.filter (isOther row.id holder)) := by
  have hall (rows : List InscriptionRow) : takeCount count rows = rows := if_pos hcount
  refine map_latest_congr ?_
  rw [hall, hall, List.filter_map, List.filter_map]
  exact congrArg _ (h.filter_rowsFrom_put hrow hput hholder cursor)

omit hrow in
/-- So many of the greatest numbers are the first of all. -/
theorem latest_eq_takeCount {count : Int} {cursor : Option Int} {ids : List InscriptionId}
    (hids : index.latest count cursor = .ok ids) :
    ∃ all, index.latest (-1) cursor = .ok all ∧ ids = takeCount count all := by
  obtain ⟨hfit, rfl⟩ := (latest_eq_ok_iff h.isOpen).1 hids
  refine ⟨(index.tables.rowsFrom cursor).map InscriptionRow.id,
    (latest_eq_ok_iff h.isOpen).2 ⟨fun n hn => ?_, rfl⟩, ?_⟩
  · rcases List.mem_append.1 hn with hn | hn
    · exact hfit n (List.mem_append_left _ hn)
    · obtain rfl := List.mem_singleton.1 hn
      decide
  · unfold takeCount
    split
    · rfl
    · exact List.map_take

/-! ### All answers -/

theorem inscriptionEffect_put (hput : (index.put row).IsCatalogue) :
    index.InscriptionEffect row.id row.entry row.content row.location (index.put row) := by
  have hmem : row ∈ (index.put row).tables.inscriptions := (h.mem_put hrow).2 (.inr rfl)
  have hread : (index.put row).row? row.id = .ok (some row) :=
    (row?_eq_some_iff hput.isOpen hput.sound hput.named hrow.txid).2 ⟨hmem, rfl⟩
  constructor
  case entry =>
    unfold entry?
    rw [hread]
    rfl
  case content =>
    unfold content?
    rw [hread]
    rfl
  case location =>
    unfold location?
    rw [hread]
    rfl
  case number => exact hput.idOfNumber?_eq_some_iff.2 ⟨row, hmem, rfl, rfl⟩
  case place =>
    intro p ids hp hids
    simp only [onOutput_eq_ok hids, List.mem_map, Prod.exists, Tables.mem_rowsIn hp]
    constructor
    · -- A listed row that has the id is the one that was put.
      rintro ⟨offset, r, ⟨hr, hlocation⟩, hid⟩
      obtain rfl := hput.eq_of_shared hr hmem (.inl hid)
      exact ⟨offset, hlocation⟩
    · rintro ⟨offset, hlocation⟩
      exact ⟨offset, row, ⟨hmem, hlocation⟩, rfl⟩
  case formerHolder =>
    intro holder hne hholder
    exact h.lacks_put_of_holder hrow hput hne hholder
  case formerNumber =>
    intro former hformer hne
    have hgone := h.number_put_of_former hrow hformer hne
    obtain ⟨s, hs, -, rfl⟩ := (entry?_eq_some_iff h.isOpen h.sound h.named hrow.txid).1 hformer
    refine ⟨hput.idOfNumber?_eq_none (h.fit s hs) hgone, fun other found hother hfound => ?_⟩
    obtain ⟨r, hr, -, rfl⟩ :=
      (entry?_eq_some_iff hput.isOpen hput.sound hput.named hother).1 hfound
    exact hgone r hr
  case otherId => exact fun other hother hne hholder => h.sameAbout_put hrow hother hne hholder
  case otherNumber => exact fun n hne hformer => h.idOfNumber?_put_of_ne hrow hne hformer
  case onOutput => exact fun holder hholder p => h.onOutput_put hrow hput hholder p
  case latest => exact fun holder hholder count hcount => h.latest_put hrow hput hholder hcount
  case latestFirst => exact fun count cursor ids hids => hput.latest_eq_takeCount hids
  case blocks => exact sameBlocks_of_eq rfl rfl

end IsCatalogue

/-- After a run of writes that name inscriptions by texts, ids and numbers lead to one another, and
an inscription that is stored, with all of its entry, has its effect. -/
theorem inscriptionEffect_of_write {ws : List Write} (htext : ∀ w ∈ ws, w.NamesText) :
    (({} : Index).run ws).PairsNumbers ∧
      ∀ (id : InscriptionId) (fields : EntryFields) (content : Inscription)
        (location : Option SatPoint) (after : Index),
        id.txid.IsText → (∀ p ∈ location, p.outpoint.txid.IsText) →
        (({} : Index).run ws).write (.inscription id fields content location) = (after, none) →
        ∃ e, fields = e.fields ∧
          (({} : Index).run ws).InscriptionEffect id e content location after := by
  have hindex := isCatalogue_run htext
  refine ⟨hindex.pairsNumbers, fun id fields content location after hid hlocation hwrite => ?_⟩
  obtain ⟨-, t, hstep, rfl⟩ := write_eq_none_iff.1 hwrite
  cases hstep with
  | inscription fit complete =>
    rename_i row
    have hfit := InscriptionRow.fitsColumn_number fit complete
    have hrow := InscriptionRow.isTextual_of_of? hid complete
    refine ⟨row.entry, InscriptionRow.fields_of_of? complete, ?_⟩
    have hput := hindex.isCatalogue_put hrow
      (InscriptionRow.isWritable_of_of? fit.writable complete) hfit
    have heffect := hindex.inscriptionEffect_put hrow hput
    rw [InscriptionRow.eq_of_of? hid hlocation complete] at heffect ⊢
    exact heffect

/-- An inscription that takes the number of a second one and leaves its own; a third one stays. -/
theorem inscriptionEffect_of_write_renumbered :
    let first : InscriptionId := ⟨.ofText "a1", 0⟩
    let second : InscriptionId := ⟨.ofText "a2", 0⟩
    let third : InscriptionId := ⟨.ofText "a3", 0⟩
    let ws : List Write := [
      .inscription first ⟨some 1, some 5, some 0, some 0, some 9⟩ ⟨some [1], none⟩
        (some ⟨⟨.ofText "a1", 0⟩, 0⟩),
      .inscription second ⟨some 2, some 5, some 0, some 0, none⟩ {} none,
      .inscription third ⟨some 3, some 6, some 0, some 0, none⟩ {} none]
    let w : Write :=
      .inscription first ⟨some 2, some 7, some 0, some 0, none⟩ ⟨some [], none⟩ none
    (({} : Index).run ws).PairsNumbers ∧ ∃ after, (({} : Index).run ws).write w = (after, none) ∧
      after.entry? first = .ok (some ⟨2, 7, 0, 0, none⟩) ∧
      after.content? first = .ok (some ⟨some [], none⟩) ∧ after.location? first = .ok none ∧
      after.idOfNumber? 2 = .ok (some first) ∧ after.Lacks second ∧
      after.idOfNumber? 1 = .ok none ∧ (({} : Index).run ws).SameAbout after third := by
  intro first second third ws w
  have htext : ∀ w ∈ ws, w.NamesText := by
    simp [ws, first, second, third, Write.NamesText, TransactionId.IsText]
  have hholder : (({} : Index).run ws).idOfNumber? 2 = .ok (some second) := by cbv
  have hformer : Index.entry? (({} : Index).run ws) first = .ok (some ⟨1, 5, 0, 0, some 9⟩) := by
    cbv
  have hdone : ((({} : Index).run ws).write w).2 = none := by cbv
  rcases hwrite : (({} : Index).run ws).write w with ⟨after, failure⟩
  rw [hwrite] at hdone
  obtain rfl : failure = none := hdone
  obtain ⟨hpairs, hall⟩ := inscriptionEffect_of_write htext
  obtain ⟨e, hfields, heffect⟩ := hall first _ _ none after ⟨"a1", rfl⟩ (by simp) hwrite
  obtain rfl : (⟨2, 7, 0, 0, none⟩ : Entry) = e := by
    obtain ⟨number, height, fee, timestamp, sat⟩ := e
    cases hfields
    rfl
  refine ⟨hpairs, after, rfl, heffect.entry, heffect.content, heffect.location, heffect.number,
    heffect.formerHolder second (by decide) hholder, ?_, ?_⟩
  · exact (heffect.formerNumber _ hformer (by decide)).1
  · refine heffect.otherId third ⟨"a3", rfl⟩ (by decide) ?_
    rw [hholder]
    exact fun heq => absurd (Option.some.inj (Except.ok.inj heq)) (by decide)

end Index

end InscriptionLedger
