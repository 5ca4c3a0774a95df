import InscriptionLedger.Proofs.Neighbours

/-!
# Ranges of numbers

The views of a range are looked up number by number, and a number that no inscription has is passed
over. What comes of it is one view for each inscription whose number lies in the range, in the order
of the numbers; a range that is cut in two is told in two parts, and a range of one number tells
what is told of that number.

## Main definitions

* `Tables.rowsBetween`: the rows whose numbers lie in a range
* `Tables.rowsOfNumbers`: the rows of so many numbers, in the order of these
* `Viewer.Covers`: views that tell the inscriptions of a range of numbers

## Main results

* `Tables.perm_rowsOfNumbers`: going through the numbers of a range meets each of its rows once
* `Viewer.viewsOfRange_eq`: the views of a range are those of its rows
* `Viewer.viewsOfRange_append`: a range that is cut in two
* `Viewer.covers_run`: after a run the inscriptions of a range are told if each has a view
-/

namespace InscriptionLedger

/-! ## Rows by number -/

namespace Tables

/-- The row of a number. -/
def rowOf? (t : Tables) (number : Int) : Option InscriptionRow :=
  t.inscriptions.find? fun r => r.entry.number == number

/-- The rows whose numbers lie in a range, both ends included. -/
def rowsBetween (t : Tables) (start stop : Int) : List InscriptionRow :=
  t.inscriptions.filter fun r => start ≤ r.entry.number ∧ r.entry.number ≤ stop

/-- The rows of so many numbers from a number up, in the order of these. -/
def rowsOfNumbers (t : Tables) (start : Int) : Nat → List InscriptionRow
  | 0 => []
  | count + 1 => (t.rowOf? start).toList ++ t.rowsOfNumbers (start + 1) count

theorem mem_rowsBetween {t : Tables} {start stop : Int} {r : InscriptionRow} :
    r ∈ t.rowsBetween start stop ↔
      r ∈ t.inscriptions ∧ start ≤ r.entry.number ∧ r.entry.number ≤ stop := by
  rw [rowsBetween, List.mem_filter, decide_eq_true_eq]

/-- Numbers that are gone through in two parts. -/
theorem rowsOfNumbers_add (t : Tables) (start : Int) (count more : Nat) :
    t.rowsOfNumbers start (count + more) =
      t.rowsOfNumbers start count ++ t.rowsOfNumbers (start + count) more := by
  induction count generalizing start with
  | zero => simp [rowsOfNumbers]
  | succ count ih =>
    have hstart : start + ↑(count + 1) = start + 1 + ↑count := by
      push_cast
      ring
    rw [Nat.succ_add, rowsOfNumbers, rowsOfNumbers, ih, hstart, List.append_assoc]

section

variable {t : Tables} (h : t.IsSound)

include h

theorem rowOf?_eq_some_iff {n : Int} {r : InscriptionRow} :
    t.rowOf? n = some r ↔ r ∈ t.inscriptions ∧ r.entry.number = n :=
  find?_key_eq_some_iff h.pairwise_number

theorem mem_rowsOfNumbers {start : Int} {count : Nat} {r : InscriptionRow} :
    r ∈ t.rowsOfNumbers start count ↔
      r ∈ t.inscriptions ∧ start ≤ r.entry.number ∧ r.entry.number < start + count := by
  induction count generalizing start with
  | zero =>
    simp only [rowsOfNumbers, List.not_mem_nil, false_iff]
    omega
  | succ count ih =>
    rw [rowsOfNumbers, List.mem_append, Option.mem_toList, rowOf?_eq_some_iff h, ih, ← and_or_left]
    refine and_congr_right fun _ => ?_
    push_cast
    omega

/-- The numbers are gone through upwards. -/
theorem pairwise_rowsOfNumbers (start : Int) (count : Nat) :
    (t.rowsOfNumbers start count).Pairwise fun r s => r.entry.number < s.entry.number := by
  induction count generalizing start with
  | zero => exact .nil
  | succ count ih =>
    rw [rowsOfNumbers, List.pairwise_append]
    refine ⟨?_, ih (start + 1), fun r hr s hs => ?_⟩
    · cases t.rowOf? start with
      | none => exact .nil
      | some r => exact List.pairwise_singleton _ r
    · rw [Option.mem_toList, rowOf?_eq_some_iff h] at hr
      have habove := ((mem_rowsOfNumbers h).1 hs).2.1
      omega

/-- Going through the numbers of a range meets each of its rows once. -/
theorem perm_rowsOfNumbers {start stop : Int} (hle : start ≤ stop) :
    (t.rowsOfNumbers start (stop - start + 1).toNat).Perm (t.rowsBetween start stop) := by
  have hrows : (t.rowsOfNumbers start (stop - start + 1).toNat).Nodup :=
    (pairwise_rowsOfNumbers h _ _).imp fun {r s} hlt heq => by
      rw [heq] at hlt
      omega
  have hbetween : (t.rowsBetween start stop).Nodup :=
    (h.pairwise_number.imp fun {r s} hne heq => hne (by rw [heq])).filter _
  -- Neither list has a row twice, so that it is enough that they have the same rows.
  apply (List.perm_ext_iff_of_nodup hrows hbetween).2
  intro r
  rw [mem_rowsOfNumbers h, mem_rowsBetween]
  refine and_congr_right fun _ => ?_
  omega

end

end Tables

/-! ## Looking up the numbers of a range -/

/-- The numbers between two that fit into a column fit. -/
theorem fitsColumn_of_between {start stop n : Int} (hstart : fitsColumn start = true)
    (hstop : fitsColumn stop = true) (hle : start ≤ n) (hle' : n ≤ stop) :
    fitsColumn n = true := by
  simp only [fitsColumn, Bool.and_eq_true, decide_eq_true_eq] at hstart hstop ⊢
  omega

namespace Viewer

section

variable {viewer : Viewer} (h : viewer.index.IsCatalogue)

include h

theorem idOfNumber?_eq_rowOf? {n : Int} (hfit : fitsColumn n = true) :
    viewer.index.idOfNumber? n = .ok ((viewer.index.tables.rowOf? n).map InscriptionRow.id) := by
  rw [Index.idOfNumber?_eq h.isOpen h.numbers hfit]
  rfl

theorem idsFrom_eq {start : Int} {count : Nat}
    (hfit : ∀ n, start ≤ n → n < start + count → fitsColumn n = true) :
    idsFrom viewer.index start count =
      .ok ((viewer.index.tables.rowsOfNumbers start count).map InscriptionRow.id) := by
  induction count generalizing start with
  | zero => rfl
  | succ count ih =>
    have hrest : ∀ n, start + 1 ≤ n → n < start + 1 + count → fitsColumn n = true := by
      intro n hle hlt
      apply hfit
      · omega
      · push_cast
        omega
    have hfirst : fitsColumn start = true := by
      apply hfit
      · exact le_rfl
      · push_cast
        omega
    rw [idsFrom, idOfNumber?_eq_rowOf? h hfirst, Outcome.ok_bind, ih hrest, Outcome.ok_bind,
      Tables.rowsOfNumbers, List.map_append]
    cases viewer.index.tables.rowOf? start with
    | none => rfl
    | some r => rfl

variable {start stop : Int} (hstart : fitsColumn start = true) (hstop : fitsColumn stop = true)

include hstart hstop

/-- The views of a range are those of its rows, in the order of the numbers. -/
theorem viewsOfRange_eq (hle : start ≤ stop) :
    viewer.viewsOfRange start stop =
      ((viewer.index.tables.rowsOfNumbers start (stop - start + 1).toNat).map
        InscriptionRow.id).mapM viewer.view := by
  have hfit : ∀ n, start ≤ n → n < start + (stop - start + 1).toNat → fitsColumn n = true := by
    intro n hle' hlt
    exact fitsColumn_of_between hstart hstop hle' (by omega)
  rw [viewsOfRange, if_neg (by omega), idsFrom_eq h hfit, Outcome.ok_bind]

/-- A range that is cut in two is told in two parts. -/
theorem viewsOfRange_append {m : Int} (hle : start ≤ m) (hlt : m < stop) :
    viewer.viewsOfRange start stop = do
      let lower ← viewer.viewsOfRange start m
      let upper ← viewer.viewsOfRange (m + 1) stop
      return lower ++ upper := by
  have hlower : fitsColumn m = true := fitsColumn_of_between hstart hstop hle hlt.le
  have hupper : fitsColumn (m + 1) = true :=
    fitsColumn_of_between hstart hstop (by omega) (by omega)
  have hcount : (stop - start + 1).toNat =
      (m - start + 1).toNat + (stop - (m + 1) + 1).toNat := by
    omega
  have hnext : start + ((m - start + 1).toNat : Int) = m + 1 := by omega
  rw [viewsOfRange_eq h hstart hstop (by omega), viewsOfRange_eq h hstart hlower hle,
    viewsOfRange_eq h hupper hstop (by omega), hcount, Tables.rowsOfNumbers_add, hnext,
    List.map_append, List.mapM_append]

end

/-! ## Views of a range -/

/-- The views of a range are those of the inscriptions that are looked up. -/
theorem idsFrom_of_viewsOfRange {viewer : Viewer} {start stop : Int} {views : List InscriptionView}
    (h : viewer.viewsOfRange start stop = .ok views) :
    idsFrom viewer.index start (stop - start + 1).toNat = .ok (views.map InscriptionView.id) := by
  unfold viewsOfRange at h
  split at h
  · cases h
  · obtain ⟨ids, hids, hviews⟩ := Outcome.bind_eq_ok_iff.1 h
    rw [hids, map_id_of_mapM_view hviews]

/-- What is told of a single number: the view of its inscription and no other, or no view if no
inscription has the number. -/
def TellsNumber (viewer : Viewer) (n : Int) : Prop :=
  (∃ v, viewer.viewOfNumber n = .ok v ∧ viewer.viewsOfRange n n = .ok [v]) ∨
    viewer.viewOfNumber n = .error (.notFound (.inscriptionNumber n)) ∧
      viewer.viewsOfRange n n = .ok []

/-- Views tell the inscriptions of a range of numbers: there is one for each row whose number lies
in the range, and they are in the order of the numbers. A range is told in two parts at any cut, and
number by number. -/
structure Covers (viewer : Viewer) (start stop : Int) (views : List InscriptionView) : Prop where
  told : viewer.viewsOfRange start stop = .ok views
  /-- The rows of the range, in some order, and the views stand one for one. -/
  rows : ∃ rows : List InscriptionRow,
    rows.Perm (viewer.index.tables.rowsBetween start stop) ∧
      List.Forall₂ (fun r v => viewer.view r.id = .ok v ∧ v.id = r.id ∧ v.entry = r.entry) rows
        views
  ordered : views.Pairwise fun v w => v.entry.number < w.entry.number
  cut : ∀ m, start ≤ m → m < stop → ∃ lower upper, viewer.viewsOfRange start m = .ok lower ∧
    viewer.viewsOfRange (m + 1) stop = .ok upper ∧ views = lower ++ upper
  single : ∀ n, start ≤ n → n ≤ stop → viewer.TellsNumber n

section

variable {viewer : Viewer} (h : viewer.index.IsCatalogue)

include h

/-- A range of one number tells what is told of that number. -/
theorem tellsNumber {n : Int} (hfit : fitsColumn n = true)
    (hviews : ∀ r ∈ viewer.index.tables.rowsBetween n n, ∃ v, viewer.view r.id = .ok v) :
    viewer.TellsNumber n := by
  have hrange := viewsOfRange_eq h hfit hfit le_rfl
  have hrows : viewer.index.tables.rowsOfNumbers n (n - n + 1).toNat =
      (viewer.index.tables.rowOf? n).toList := by
    simp [Tables.rowsOfNumbers]
  rw [hrows] at hrange
  rw [TellsNumber, hrange, viewOfNumber, idOfNumber?_eq_rowOf? h hfit]
  cases hrow : viewer.index.tables.rowOf? n with
  | none => exact .inr ⟨rfl, rfl⟩
  | some r =>
    obtain ⟨hr, hn⟩ := (Tables.rowOf?_eq_some_iff h.sound).1 hrow
    obtain ⟨v, hv⟩ := hviews r (Tables.mem_rowsBetween.2 ⟨hr, hn.ge, hn.le⟩)
    refine .inl ⟨v, hv, ?_⟩
    exact Outcome.mapM_eq_ok_iff.2 (.cons hv .nil)

/-- The inscriptions of a range are told if each has a view. -/
theorem exists_covers {start stop : Int} (hstart : fitsColumn start = true)
    (hstop : fitsColumn stop = true) (hle : start ≤ stop)
    (hviews : ∀ r ∈ viewer.index.tables.rowsBetween start stop, ∃ v, viewer.view r.id = .ok v) :
    ∃ views, viewer.Covers start stop views := by
  have hperm := Tables.perm_rowsOfNumbers h.sound hle
  obtain ⟨views, hall⟩ := exists_forall₂ fun r hr => hviews r (hperm.mem_iff.1 hr)
  have htold : viewer.viewsOfRange start stop = .ok views := by
    rw [viewsOfRange_eq h hstart hstop hle, Outcome.mapM_eq_ok_iff, List.forall₂_map_left_iff]
    exact hall
  have hrows : List.Forall₂ (fun r v => viewer.view r.id = .ok v ∧ v.id = r.id ∧ v.entry = r.entry)
      (viewer.index.tables.rowsOfNumbers start (stop - start + 1).toNat) views := by
    have hstored := (List.forall₂_and_left _ _).2
      ⟨fun r hr => ((Tables.mem_rowsOfNumbers h.sound).1 hr).1, hall⟩
    refine hstored.imp fun r v ⟨hr, hv⟩ => ?_
    have hjoins := joins_of_view h hr hv
    exact ⟨hv, hjoins.id, hjoins.entry⟩
  refine ⟨views, ?_⟩
  constructor
  case told => exact htold
  case rows => exact ⟨_, hperm, hrows⟩
  case ordered =>
    have hnumbers : (viewer.index.tables.rowsOfNumbers start (stop - start + 1).toNat).map
        (fun r => r.entry.number) = views.map fun v => v.entry.number := by
      rw [← List.forall₂_eq_eq_eq, List.forall₂_map_left_iff, List.forall₂_map_right_iff]
      exact hrows.imp fun r v hrv => by rw [hrv.2.2]
    have hordered := List.pairwise_map.2 (Tables.pairwise_rowsOfNumbers h.sound start
      (stop - start + 1).toNat)
    rw [hnumbers] at hordered
    exact List.pairwise_map.1 hordered
  case cut =>
    intro m hm hm'
    rw [viewsOfRange_append h hstart hstop hm hm', Outcome.bind_eq_ok_iff] at htold
    obtain ⟨lower, hlower, htold⟩ := htold
    obtain ⟨upper, hupper, htold⟩ := Outcome.bind_eq_ok_iff.1 htold
    exact ⟨lower, upper, hlower, hupper, (Except.ok.inj htold).symm⟩
  case single =>
    intro n hn hn'
    refine tellsNumber h (fitsColumn_of_between hstart hstop hn hn') fun r hr => hviews r ?_
    rw [Tables.mem_rowsBetween] at hr ⊢
    exact ⟨hr.1, by omega, by omega⟩

end

/-- After a run of writes that name inscriptions by texts, the inscriptions of a range of numbers
are told if each has a view; a range whose start is behind its end is refused. -/
theorem covers_run {viewer : Viewer} {ws : List Write} (htext : ∀ w ∈ ws, w.NamesText)
    (hindex : viewer.index = ({} : Index).run ws) :
    (∀ start stop : Int, fitsColumn start = true → fitsColumn stop = true → start ≤ stop →
      (∀ r ∈ viewer.index.tables.rowsBetween start stop, ∃ v, viewer.view r.id = .ok v) →
      ∃ views, viewer.Covers start stop views) ∧
    ∀ start stop : Int, stop < start →
      viewer.viewsOfRange start stop = .error (.badRequest .reversedRange) := by
  have h : viewer.index.IsCatalogue := by
    rw [hindex]
    exact Index.isCatalogue_run htext
  constructor
  · intro start stop hstart hstop hle hviews
    exact exists_covers h hstart hstop hle hviews
  · intro start stop hlt
    rw [viewsOfRange, if_pos hlt]

/-- Two inscriptions with numbers one after another and a third one behind a gap, told in the order
of their numbers; the number in the gap is told as none. -/
theorem covers_run_gap :
    let first : InscriptionId := ⟨.ofText "a1", 0⟩
    let second : InscriptionId := ⟨.ofText "a1", 1⟩
    let third : InscriptionId := ⟨.ofText "a2", 0⟩
    let place : SatPoint := ⟨⟨.ofText "a1", 0⟩, 0⟩
    let ws : List Write := [
      .inscription third ⟨some 3, some 6, some 0, some 0, none⟩ {} (some place),
      .inscription first ⟨some 0, some 5, some 0, some 0, none⟩ {} (some place),
      .inscription second ⟨some 1, some 5, some 0, some 0, none⟩ {} (some place)]
    let viewer : Viewer := { index := ({} : Index).run ws }
    ∃ views, viewer.Covers (-1) 4 views ∧
      views.map InscriptionView.id = [first, second, third] ∧
      viewer.viewOfNumber 2 = .error (.notFound (.inscriptionNumber 2)) ∧
      viewer.viewsOfRange 2 2 = .ok [] ∧
      viewer.viewsOfRange 4 3 = .error (.badRequest .reversedRange) := by
  intro first second third place ws viewer
  have htext : ∀ w ∈ ws, w.NamesText := by
    simp [ws, first, second, third, Write.NamesText, TransactionId.IsText]
  have hindex : viewer.index = ({} : Index).run ws := by simp only [viewer]
  obtain ⟨hcovers, hreversed⟩ := covers_run htext hindex
  have hviews : ∀ r ∈ viewer.index.tables.rowsBetween (-1) 4, ∃ v, viewer.view r.id = .ok v := by
    have hrows : (viewer.index.tables.rowsBetween (-1) 4).map InscriptionRow.id =
        [third, first, second] := by
      cbv
    intro r hr
    have hid := List.mem_map_of_mem (f := InscriptionRow.id) hr
    rw [hrows] at hid
    simp only [List.mem_cons, List.not_mem_nil, or_false] at hid
    rcases hid with hid | hid | hid
    · rw [hid]
      exact ⟨_, by cbv⟩
    · rw [hid]
      exact ⟨_, by cbv⟩
    · rw [hid]
      exact ⟨_, by cbv⟩
  obtain ⟨views, hviews⟩ := hcovers (-1) 4 (by decide) (by decide) (by decide) hviews
  refine ⟨views, hviews, ?_, ?_, ?_, hreversed 4 3 (by decide)⟩
  · have hids : idsFrom viewer.index (-1) (4 - -1 + 1).toNat = .ok [first, second, third] := by cbv
    rw [idsFrom_of_viewsOfRange hviews.told] at hids
    exact Except.ok.inj hids
  · cbv
  · cbv

end Viewer

end InscriptionLedger
