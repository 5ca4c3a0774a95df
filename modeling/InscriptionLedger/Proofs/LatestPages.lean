import InscriptionLedger.Proofs.Neighbours

/-!
# Pages of the latest inscriptions

The inscriptions are listed by their numbers, greatest first. What stands behind an inscription in
the listing from any number is the listing from the number below its own. So whoever asks for the
first so many, and goes on from below the last one of each page until a page is short, comes to an
end, and has met each inscription once.

## Main definitions

* `Index.ListsFrom`: ids that list the inscriptions from a number down
* `Index.Pages`: the pages that are read one behind another, up to the first short one
* `Index.IsPaged`: an index whose pages join to its listing

## Main results

* `Tables.rowsFrom_behind`: what stands behind a row is listed from the number below
* `Index.exists_pages`: going through the pages comes to an end, and they join to the listing
* `Index.isPaged_run`: an index without negative numbers is paged after a run
-/

namespace InscriptionLedger

/-- What stands behind a row is the listing from the number below its own. -/
theorem Tables.rowsFrom_behind {t : Tables} (h : t.IsSound) {cursor : Option Int}
    {before behind : List InscriptionRow} {r : InscriptionRow}
    (hrows : t.rowsFrom cursor = before ++ r :: behind) :
    t.rowsFrom (some (r.entry.number - 1)) = behind := by
  have hsorted := t.pairwise_rowsFrom h cursor
  rw [hrows, List.pairwise_append, List.pairwise_cons] at hsorted
  obtain ⟨-, ⟨hbelow, hbehind⟩, habove⟩ := hsorted
  have hfrom := t.pairwise_rowsFrom h (some (r.entry.number - 1))
  have hnodup {rows : List InscriptionRow}
      (hrows : rows.Pairwise fun x y => y.entry.number < x.entry.number) : rows.Nodup :=
    hrows.imp fun {x y} hlt heq => by
      rw [heq] at hlt
      omega
  have hmem (s : InscriptionRow) :
      s ∈ t.rowsFrom cursor ↔ s ∈ before ∨ s = r ∨ s ∈ behind := by
    rw [hrows, List.mem_append, List.mem_cons]
  have hr : r ∈ t.rowsFrom cursor := (hmem r).2 (.inr (.inl rfl))
  -- Both lists are sorted strictly, so that it is enough that they have the same rows.
  have hperm : (t.rowsFrom (some (r.entry.number - 1))).Perm behind := by
    apply (List.perm_ext_iff_of_nodup (hnodup hfrom) (hnodup hbehind)).2
    intro s
    rw [mem_rowsFrom]
    constructor
    · rintro ⟨hs, hle⟩
      have hlt : s.entry.number ≤ r.entry.number - 1 := hle _ rfl
      have hcursor : s ∈ t.rowsFrom cursor :=
        mem_rowsFrom.2 ⟨hs, fun c hc => by
          have := (mem_rowsFrom.1 hr).2 c hc
          omega⟩
      rcases (hmem s).1 hcursor with hs | rfl | hs
      · have := habove s hs r List.mem_cons_self
        omega
      · omega
      · exact hs
    · intro hs
      refine ⟨(mem_rowsFrom.1 ((hmem s).2 (.inr (.inr hs)))).1, fun c hc => ?_⟩
      obtain rfl := Option.some.inj hc
      have := hbelow s hs
      omega
  refine hperm.eq_of_pairwise (fun x y _ _ hxy hyx => ?_) hfrom hbehind
  omega

namespace Index

/-- Ids list the inscriptions from a number down, or all if no number is given: those that are
recorded with numbers up to it, each once, in falling order of the numbers. -/
structure ListsFrom (index : Index) (cursor : Option Int) (ids : List InscriptionId) : Prop where
  mem : ∀ id, id ∈ ids ↔ id.txid.IsText ∧
    ∃ e, index.entry? id = .ok (some e) ∧ ∀ c ∈ cursor, e.number ≤ c
  falling : ids.Pairwise fun a b => ∃ e f, index.entry? a = .ok (some e) ∧
    index.entry? b = .ok (some f) ∧ f.number < e.number

/-- The pages that are read one behind another. A page that is shorter than asked for is the last
one; behind any other, the next starts from the number below that of its last inscription. -/
inductive Pages (index : Index) (count : Int) : Option Int → List (List InscriptionId) → Prop
  | last {cursor : Option Int} {page : List InscriptionId}
    (told : index.latest count cursor = .ok page) (short : page.length < count) :
    index.Pages count cursor [page]
  | more {cursor : Option Int} {page : List InscriptionId} {id : InscriptionId} {e : Entry}
    {pages : List (List InscriptionId)}
    (told : index.latest count cursor = .ok page) (full : ¬page.length < count)
    (behind : page.getLast? = some id) (entry : index.entry? id = .ok (some e))
    (rest : index.Pages count (some (e.number - 1)) pages) :
    index.Pages count cursor (page :: pages)

/-- No other pages are read from the same number. -/
theorem Pages.unique {index : Index} {count : Int} {cursor : Option Int}
    {pages others : List (List InscriptionId)} (h : index.Pages count cursor pages)
    (hothers : index.Pages count cursor others) : pages = others := by
  induction h generalizing others with
  | last told short =>
    cases hothers with
    | last told' short' =>
      rw [told] at told'
      rw [Except.ok.inj told']
    | more told' full' =>
      rw [told] at told'
      obtain rfl := Except.ok.inj told'
      exact absurd short full'
  | more told full behind entry rest ih =>
    cases hothers with
    | last told' short' =>
      rw [told] at told'
      obtain rfl := Except.ok.inj told'
      exact absurd short' full
    | more told' full' behind' entry' rest' =>
      rw [told] at told'
      obtain rfl := Except.ok.inj told'
      rw [behind] at behind'
      obtain rfl := Option.some.inj behind'
      rw [entry] at entry'
      obtain rfl := Option.some.inj (Except.ok.inj entry')
      rw [ih rest']

section

variable {index : Index} (h : index.IsCatalogue)

include h

theorem entry?_of_mem {r : InscriptionRow} (hr : r ∈ index.tables.inscriptions) :
    index.entry? r.id = .ok (some r.entry) :=
  (entry?_eq_some_iff h.isOpen h.sound h.named (h.named r hr).txid).2 ⟨r, hr, rfl, rfl⟩

/-- The rows from a number down list the inscriptions. -/
theorem listsFrom_rowsFrom (cursor : Option Int) :
    index.ListsFrom cursor ((index.tables.rowsFrom cursor).map InscriptionRow.id) := by
  constructor
  case mem =>
    intro id
    rw [List.mem_map]
    constructor
    · rintro ⟨r, hr, rfl⟩
      obtain ⟨hr, hle⟩ := Tables.mem_rowsFrom.1 hr
      exact ⟨(h.named r hr).txid, r.entry, entry?_of_mem h hr, hle⟩
    · rintro ⟨hid, e, hentry, hle⟩
      obtain ⟨r, hr, rfl, rfl⟩ := (entry?_eq_some_iff h.isOpen h.sound h.named hid).1 hentry
      exact ⟨r, Tables.mem_rowsFrom.2 ⟨hr, hle⟩, rfl⟩
  case falling =>
    have hsorted := Tables.pairwise_rowsFrom h.sound cursor
    refine List.pairwise_map.2 (hsorted.imp_of_mem fun {r s} hr hs hlt => ?_)
    exact ⟨r.entry, s.entry, entry?_of_mem h (Tables.mem_rowsFrom.1 hr).1,
      entry?_of_mem h (Tables.mem_rowsFrom.1 hs).1, hlt⟩

variable {count : Int} (hcount : fitsColumn count = true)

include hcount

theorem latest_eq_take (hnonneg : 0 ≤ count) {cursor : Option Int}
    (hcursor : ∀ c ∈ cursor, fitsColumn c = true) :
    index.latest count cursor =
      .ok (((index.tables.rowsFrom cursor).map InscriptionRow.id).take count.toNat) := by
  refine (latest_eq_ok_iff h.isOpen).2 ⟨fun n hn => ?_, ?_⟩
  · rcases List.mem_append.1 hn with hn | hn
    · exact hcursor n (Option.mem_toList.1 hn)
    · rwa [List.mem_singleton.1 hn]
  · rw [takeCount, if_neg (by omega), List.map_take]

/-- Going through the pages comes to an end, and they join to the listing. -/
theorem exists_pages (hpos : 1 ≤ count)
    (hnumber : ∀ r ∈ index.tables.inscriptions, 0 ≤ r.entry.number) (cursor : Option Int)
    (hcursor : ∀ c ∈ cursor, fitsColumn c = true) :
    ∃ pages, index.Pages count cursor pages ∧
      pages.flatten = (index.tables.rowsFrom cursor).map InscriptionRow.id := by
  -- Each page makes the rest of the listing shorter, since it has at least one inscription.
  induction hlength : (index.tables.rowsFrom cursor).length using Nat.strongRecOn
    generalizing cursor with
  | ind n ih =>
    have htold := latest_eq_take h hcount (by omega) hcursor
    rw [← List.map_take] at htold
    rcases Nat.lt_or_ge n count.toNat with hshort | hfull
    · rw [List.take_of_length_le (by omega)] at htold
      refine ⟨_, .last htold ?_, List.flatten_singleton⟩
      rw [List.length_map]
      omega
    · -- The listing is cut behind the last row of the page.
      obtain ⟨k, hk⟩ : ∃ k, count.toNat = k + 1 := ⟨count.toNat - 1, by omega⟩
      have hlt : k < (index.tables.rowsFrom cursor).length := by omega
      have hcut : index.tables.rowsFrom cursor = (index.tables.rowsFrom cursor).take k ++
          (index.tables.rowsFrom cursor)[k] :: (index.tables.rowsFrom cursor).drop (k + 1) := by
        rw [List.getElem_cons_drop, List.take_append_drop]
      have hpage : (index.tables.rowsFrom cursor).take count.toNat =
          (index.tables.rowsFrom cursor).take k ++ [(index.tables.rowsFrom cursor)[k]] := by
        rw [hk, List.take_succ_eq_append_getElem hlt]
      generalize (index.tables.rowsFrom cursor)[k] = r at hcut hpage
      have hlisted : r ∈ index.tables.rowsFrom cursor := by
        rw [hcut]
        exact List.mem_append_right _ List.mem_cons_self
      have hr := (Tables.mem_rowsFrom.1 hlisted).1
      have hbehind := Tables.rowsFrom_behind h.sound hcut
      have hfit : ∀ c ∈ some (r.entry.number - 1), fitsColumn c = true := by
        intro c hc
        obtain rfl := Option.some.inj hc
        have hnonneg := hnumber r hr
        have hfits := h.fit r hr
        simp only [fitsColumn, Bool.and_eq_true, decide_eq_true_eq] at hfits ⊢
        omega
      obtain ⟨pages, hpages, hjoin⟩ := ih _ (by rw [hbehind, List.length_drop]; omega) _ hfit rfl
      refine ⟨_, .more htold ?_ ?_ (entry?_of_mem h hr) hpages, ?_⟩
      · rw [List.length_map, List.length_take]
        omega
      · rw [hpage, List.map_append, List.map_singleton, List.getLast?_concat]
      · rw [List.flatten_cons, hjoin, hbehind, ← List.map_append, hk, List.take_append_drop]

end

/-- An index that is read from the greatest number down: the first so many of the inscriptions from
any number, and all of them by pages of one size. -/
structure IsPaged (index : Index) : Prop where
  first : ∀ cursor : Option Int, (∀ c ∈ cursor, fitsColumn c = true) →
    ∃ ids, index.ListsFrom cursor ids ∧ ∀ count, 0 ≤ count → fitsColumn count = true →
      index.latest count cursor = .ok (ids.take count.toNat)
  ends : ∀ count, 1 ≤ count → fitsColumn count = true → ∃! pages, index.Pages count none pages
  joins : ∀ count, 1 ≤ count → fitsColumn count = true → ∀ pages,
    index.Pages count none pages → index.ListsFrom none pages.flatten

/-- After a run of writes that name inscriptions by texts, an index without negative numbers is
paged. -/
theorem isPaged_run {ws : List Write} (htext : ∀ w ∈ ws, w.NamesText)
    (hnumber : ∀ r ∈ (({} : Index).run ws).tables.inscriptions, 0 ≤ r.entry.number) :
    (({} : Index).run ws).IsPaged := by
  have h := isCatalogue_run htext
  constructor
  case first =>
    intro cursor hcursor
    refine ⟨_, listsFrom_rowsFrom h cursor, fun count hnonneg hcount => ?_⟩
    exact latest_eq_take h hcount hnonneg hcursor
  case ends =>
    intro count hpos hcount
    obtain ⟨pages, hpages, -⟩ := exists_pages h hcount hpos hnumber none nofun
    exact ⟨pages, hpages, fun others hothers => hothers.unique hpages⟩
  case joins =>
    intro count hpos hcount others hothers
    obtain ⟨pages, hpages, hjoin⟩ := exists_pages h hcount hpos hnumber none nofun
    rw [hothers.unique hpages, hjoin]
    exact listsFrom_rowsFrom h none

/-- Three inscriptions with a gap in their numbers, of which one had another number before, on pages
of two and on pages of three, behind which stands an empty one. -/
theorem isPaged_run_gap :
    let first : InscriptionId := ⟨.ofText "a1", 0⟩
    let second : InscriptionId := ⟨.ofText "a1", 1⟩
    let third : InscriptionId := ⟨.ofText "a2", 0⟩
    let ws : List Write := [
      .inscription first ⟨some 7, some 5, some 0, some 0, none⟩ {} none,
      .inscription third ⟨some 3, some 6, some 0, some 0, none⟩ {} none,
      .inscription first ⟨some 0, some 5, some 0, some 0, none⟩ {} none,
      .inscription second ⟨some 1, some 5, some 0, some 0, none⟩ {} none]
    (({} : Index).run ws).IsPaged ∧
      (({} : Index).run ws).Pages 2 none [[third, second], [first]] ∧
      (({} : Index).run ws).Pages 3 none [[third, second, first], []] := by
  intro first second third ws
  have htext : ∀ w ∈ ws, w.NamesText := by
    simp [ws, first, second, third, Write.NamesText, TransactionId.IsText]
  have hnumber : ∀ r ∈ (({} : Index).run ws).tables.inscriptions, 0 ≤ r.entry.number := by
    have hrows : (({} : Index).run ws).tables.inscriptions.map (fun r => r.entry.number) =
        [3, 0, 1] := by
      cbv
    intro r hr
    have hn := List.mem_map_of_mem (f := fun r : InscriptionRow => r.entry.number) hr
    rw [hrows] at hn
    revert hn
    generalize r.entry.number = n
    decide +revert
  refine ⟨isPaged_run htext hnumber, ?_, ?_⟩
  · refine .more (e := ⟨1, 5, 0, 0, none⟩) (by cbv) (by decide) rfl (by cbv) ?_
    exact .last (by cbv) (by decide)
  · refine .more (e := ⟨0, 5, 0, 0, none⟩) (by cbv) (by decide) rfl (by cbv) ?_
    exact .last (by cbv) (by decide)

end Index

end InscriptionLedger
