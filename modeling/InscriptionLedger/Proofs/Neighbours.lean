import InscriptionLedger.Proofs.InscriptionEffect
import InscriptionLedger.Proofs.InscriptionViews
import InscriptionLedger.View.Listing

/-!
# Neighbours in number

A view tells the inscription of the number before its own and that of the number behind it. The two
are looked up one by one, and nothing is asked below zero. As ids and numbers lead to one another,
the views together are a list that is linked both ways, with ends at the gaps in the numbering; the
last of them is the view of the greatest number.

## Main definitions

* `Viewer.Adjoins`: a view that tells the neighbours of a row

## Main results

* `Viewer.previousOf_eq`: the inscription before a number is the one of the number less one
* `Viewer.adjoins_of_view`: views tell the neighbours of their rows
* `Viewer.exists_row_of_latestView`: the latest view is that of the greatest number
* `Viewer.neighbours_run`: after a run views are linked both ways, up to the latest
-/

namespace InscriptionLedger

/-! ## The rows of numbers -/

namespace Index.IsCatalogue

variable {index : Index} (h : index.IsCatalogue)

include h

/-- A number leads to a row exactly if it is the number of the row. -/
theorem idOfNumber?_eq_id_iff {s : InscriptionRow} (hs : s ∈ index.tables.inscriptions) {n : Int} :
    index.idOfNumber? n = .ok (some s.id) ↔ s.entry.number = n := by
  rw [h.idOfNumber?_eq_some_iff]
  constructor
  · rintro ⟨r, hr, rfl, hid⟩
    rw [h.eq_of_shared hr hs (.inl hid)]
  · exact fun hn => ⟨s, hs, hn, rfl⟩

/-- What is looked up under a number is missing exactly if no row has the number. -/
theorem eq_none_iff_of_idOfNumber? {n : Int} {found : Option InscriptionId}
    (hfound : index.idOfNumber? n = .ok found) :
    found = none ↔ ∀ s ∈ index.tables.inscriptions, s.entry.number ≠ n := by
  constructor
  · rintro rfl s hs rfl
    rw [(h.idOfNumber?_eq_id_iff hs).2 rfl] at hfound
    cases hfound
  · intro hnone
    cases found with
    | none => rfl
    | some id =>
      obtain ⟨r, hr, hn, -⟩ := h.idOfNumber?_eq_some_iff.1 hfound
      exact absurd hn (hnone r hr)

end Index.IsCatalogue

/-- All rows stand in the listing that starts from no number. -/
theorem Tables.mem_rowsFrom_none {t : Tables} {r : InscriptionRow} :
    r ∈ t.rowsFrom none ↔ r ∈ t.inscriptions :=
  mem_rowsFrom.trans (and_iff_left nofun)

/-! ## Views of neighbours -/

namespace Viewer

/-- A view tells the neighbours of a row: the rows whose numbers are next to its own. -/
structure Adjoins (viewer : Viewer) (r : InscriptionRow) (v : InscriptionView) : Prop where
  entry : v.entry = r.entry
  next : ∀ s ∈ viewer.index.tables.inscriptions,
    v.next = some s.id ↔ s.entry.number = r.entry.number + 1
  previous : ∀ s ∈ viewer.index.tables.inscriptions,
    v.previous = some s.id ↔ r.entry.number = s.entry.number + 1
  noNext : v.next = none ↔
    ∀ s ∈ viewer.index.tables.inscriptions, s.entry.number ≠ r.entry.number + 1
  noPrevious : v.previous = none ↔
    ∀ s ∈ viewer.index.tables.inscriptions, s.entry.number ≠ r.entry.number - 1

section

variable {viewer : Viewer} (h : viewer.index.IsCatalogue)

include h

/-- The row of a view is the one that has the id. -/
theorem joins_of_view {r : InscriptionRow} (hr : r ∈ viewer.index.tables.inscriptions)
    {v : InscriptionView} (hv : viewer.view r.id = .ok v) : viewer.Joins r.id r v := by
  obtain ⟨s, hjoins⟩ := view_eq_ok_iff.1 hv
  obtain ⟨hs, hid⟩ :=
    (Index.row?_eq_some_iff h.isOpen h.sound h.named (h.named r hr).txid).1 hjoins.row
  obtain rfl : s = r := h.eq_of_shared hs hr (.inl hid)
  exact hjoins

/-- The greatest number is that of the first row that is listed. -/
theorem exists_row_of_latestView {v : InscriptionView} (hv : viewer.latestView = .ok v) :
    ∃ r ∈ viewer.index.tables.inscriptions, viewer.view r.id = .ok v ∧
      ∀ s ∈ viewer.index.tables.inscriptions, s.entry.number ≤ r.entry.number := by
  obtain ⟨id, hid, hview⟩ := Outcome.bind_eq_ok_iff.1 hv
  obtain ⟨ids, hids, hhead⟩ := Outcome.map_eq_ok_iff.1 (found_eq_ok_iff.1 hid)
  obtain ⟨-, rfl⟩ := (Index.latest_eq_ok_iff h.isOpen).1 hids
  cases hrows : viewer.index.tables.rowsFrom none with
  | nil =>
    rw [hrows] at hhead
    cases hhead
  | cons r rest =>
    rw [hrows] at hhead
    obtain rfl : r.id = id := Option.some.inj hhead
    have hsorted := Tables.pairwise_rowsFrom h.sound none
    rw [hrows, List.pairwise_cons] at hsorted
    refine ⟨r, Tables.mem_rowsFrom_none.1 (hrows ▸ List.mem_cons_self), hview, fun s hs => ?_⟩
    rw [← Tables.mem_rowsFrom_none, hrows] at hs
    rcases List.mem_cons.1 hs with rfl | hs
    · exact le_rfl
    · exact (hsorted.1 s hs).le

variable (hnumber : ∀ r ∈ viewer.index.tables.inscriptions, 0 ≤ r.entry.number)

include hnumber

/-- Where no number is negative, the inscription before a number is the one of the number less one,
also before zero. -/
theorem previousOf_eq (n : Int) : viewer.previousOf n = viewer.index.idOfNumber? (n - 1) := by
  rw [previousOf]
  split
  · next hzero =>
    rw [hzero]
    symm
    apply h.idOfNumber?_eq_none (by decide)
    intro r hr hbelow
    have := hnumber r hr
    omega
  · -- The look-up of a number fails only because the number does not fit, which is not forgiven.
    rw [Index.idOfNumber?_eq_ite h.isOpen (by simp [h.numbers])]
    split <;> rfl

/-- The view of a row tells the neighbours of the row. -/
theorem adjoins_of_view {r : InscriptionRow} (hr : r ∈ viewer.index.tables.inscriptions)
    {v : InscriptionView} (hv : viewer.view r.id = .ok v) : viewer.Adjoins r v := by
  have hjoins := joins_of_view h hr hv
  have hnext := hjoins.next
  have hprevious := hjoins.previous
  rw [previousOf_eq h hnumber] at hprevious
  constructor
  case entry => exact hjoins.entry
  case next =>
    intro s hs
    rw [← h.idOfNumber?_eq_id_iff hs, hnext, Except.ok.injEq]
  case previous =>
    intro s hs
    have hbefore : r.entry.number = s.entry.number + 1 ↔ s.entry.number = r.entry.number - 1 := by
      omega
    rw [hbefore, ← h.idOfNumber?_eq_id_iff hs, hprevious, Except.ok.injEq]
  case noNext => exact h.eq_none_iff_of_idOfNumber? hnext
  case noPrevious => exact h.eq_none_iff_of_idOfNumber? hprevious

end

/-- After a run of writes that name inscriptions by texts, and give them numbers that are not
negative, views are linked both ways: each tells the neighbours of its row, one is the next of
another exactly if that one is the previous of it, and the latest is the view of the greatest number
and has no next. -/
theorem neighbours_run {viewer : Viewer} {ws : List Write} (htext : ∀ w ∈ ws, w.NamesText)
    (hindex : viewer.index = ({} : Index).run ws)
    (hnumber : ∀ r ∈ viewer.index.tables.inscriptions, 0 ≤ r.entry.number) :
    (∀ r ∈ viewer.index.tables.inscriptions, ∀ v, viewer.view r.id = .ok v →
      viewer.Adjoins r v ∧
      ∀ s ∈ viewer.index.tables.inscriptions, ∀ w, viewer.view s.id = .ok w →
        (v.next = some s.id ↔ w.previous = some r.id)) ∧
    ∀ v, viewer.latestView = .ok v →
      (∃ r ∈ viewer.index.tables.inscriptions, viewer.view r.id = .ok v ∧
        ∀ s ∈ viewer.index.tables.inscriptions, s.entry.number ≤ r.entry.number) ∧
      v.next = none := by
  have h : viewer.index.IsCatalogue := by
    rw [hindex]
    exact Index.isCatalogue_run htext
  refine ⟨fun r hr v hv => ?_, fun v hv => ?_⟩
  · have hadjoins := adjoins_of_view h hnumber hr hv
    refine ⟨hadjoins, fun s hs w hw => ?_⟩
    rw [hadjoins.next s hs, (adjoins_of_view h hnumber hs hw).previous r hr]
  · obtain ⟨r, hr, hview, hgreatest⟩ := exists_row_of_latestView h hv
    refine ⟨⟨r, hr, hview, hgreatest⟩, ?_⟩
    rw [(adjoins_of_view h hnumber hr hview).noNext]
    intro s hs hbehind
    have := hgreatest s hs
    omega

/-- Two inscriptions with numbers one after another and a third one behind a gap. -/
theorem neighbours_run_gap :
    let first : InscriptionId := ⟨.ofText "a1", 0⟩
    let second : InscriptionId := ⟨.ofText "a1", 1⟩
    let third : InscriptionId := ⟨.ofText "a2", 0⟩
    let place : SatPoint := ⟨⟨.ofText "a1", 0⟩, 0⟩
    let ws : List Write := [
      .inscription third ⟨some 3, some 6, some 0, some 0, none⟩ {} (some place),
      .inscription first ⟨some 0, some 5, some 0, some 0, none⟩ {} (some place),
      .inscription second ⟨some 1, some 5, some 0, some 0, none⟩ {} (some place)]
    let viewer : Viewer := { index := ({} : Index).run ws }
    ∃ v v' v'', viewer.view first = .ok v ∧ viewer.view second = .ok v' ∧
      viewer.latestView = .ok v'' ∧ v.previous = none ∧ v.next = some second ∧
      v'.previous = some first ∧ v'.next = none ∧ v''.id = third ∧ v''.previous = none ∧
      v''.next = none := by
  intro first second third place ws viewer
  let row (id : InscriptionId) (number height : Int) : InscriptionRow :=
    ⟨id.text, id, ⟨number, height, 0, 0, none⟩, {}, some place⟩
  have hrows : viewer.index.tables.inscriptions =
      [row third 3 6, row first 0 5, row second 1 5] := by
    simp only [row]
    cbv
  have htext : ∀ w ∈ ws, w.NamesText := by
    simp [ws, first, second, third, Write.NamesText, TransactionId.IsText]
  have hindex : viewer.index = ({} : Index).run ws := by simp only [viewer]
  have hnumber : ∀ r ∈ viewer.index.tables.inscriptions, 0 ≤ r.entry.number := by
    simp [hrows, row]
  obtain ⟨v, hv⟩ : ∃ v, viewer.view first = .ok v := ⟨_, by cbv⟩
  obtain ⟨v', hv'⟩ : ∃ v, viewer.view second = .ok v := ⟨_, by cbv⟩
  obtain ⟨v'', hv''⟩ : ∃ v, viewer.latestView = .ok v := ⟨_, by cbv⟩
  obtain ⟨hviews, hlatest⟩ := neighbours_run htext hindex hnumber
  obtain ⟨hfirst, hlinked⟩ := hviews (row first 0 5) (by simp [hrows]) v hv
  obtain ⟨hsecond, -⟩ := hviews (row second 1 5) (by simp [hrows]) v' hv'
  obtain ⟨⟨r, hr, hview, hgreatest⟩, hlast⟩ := hlatest v'' hv''
  obtain rfl : r = row third 3 6 := by
    have hthree := hgreatest (row third 3 6) (by simp [hrows])
    rw [hrows] at hr
    simp only [List.mem_cons, List.not_mem_nil, or_false] at hr
    rcases hr with rfl | rfl | rfl
    · rfl
    · exact absurd hthree (by simp [row])
    · exact absurd hthree (by simp [row])
  have hnext : v.next = some second :=
    (hfirst.next (row second 1 5) (by simp [hrows])).2 (by simp [row])
  refine ⟨v, v', v'', hv, hv', hv'', hfirst.noPrevious.2 ?_, hnext,
    (hlinked (row second 1 5) (by simp [hrows]) v' hv').1 hnext, hsecond.noNext.2 ?_,
    id_of_view hview, ?_, hlast⟩
  · simp [hrows, row]
  · simp [hrows, row]
  · refine (hviews _ hr v'' hview).1.noPrevious.2 ?_
    simp [hrows, row]

end Viewer

end InscriptionLedger
