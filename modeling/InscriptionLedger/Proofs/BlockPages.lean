import InscriptionLedger.Proofs.NumeralText
import InscriptionLedger.Proofs.ViewFailures
import InscriptionLedger.View.Listing

/-!
# Pages of a block

A page is cut from the ids of a block before any view is made. So a page within the block is the
same part of all views of the block, and pages one behind another join to all of them. A request for
a page fails in three ways of its own, one before the other: the window is negative, the block is
not stored, the window reaches behind the block. The last blames the request only if the end of the
window can be told, which has to be written. Nothing else that is asked for on the way blames the
request.

## Main definitions

* `Failure.IsBlameless`: failures that do not blame the request
* `Viewer.pagesFrom`: pages one behind another
* `Viewer.Paginates`: the pages of a block, by its views and its number of inscriptions

## Main results

* `Viewer.failsIn_view`: a view never blames the request
* `Viewer.pageOfBlock_eq_badRequest_iff`: the windows that are refused
* `Viewer.pagesFrom_eq`: pages one behind another join to the views of one page
* `Viewer.paginates`: the pages of any block of an open index
* `Viewer.not_forall_pageOfBlock_eq_badRequest`: a window behind a block that is not blamed
-/

namespace InscriptionLedger

open Outcome (FailsIn)

/-! ## Failures that do not blame the request -/

/-- Failures that do not blame the request. -/
def Failure.IsBlameless : Failure → Prop
  | badRequest _ => False
  | _ => True

theorem Failure.IsMisread.isBlameless {f : Failure} (h : f.IsMisread) : f.IsBlameless := by
  rcases h with (hvalue | huncaught) | rfl
  · cases f with
    | value fault => trivial
    | _ => cases hvalue
  · cases huncaught <;> trivial
  · trivial

namespace Index

variable (index : Index)

theorem failsIn_requireFit (ns : List Int) : FailsIn Failure.IsBlameless (requireFit ns) := by
  unfold requireFit
  split
  · exact .ok _
  · exact .error trivial

theorem failsIn_query (ns : List Int) : FailsIn Failure.IsBlameless (index.query ns) := by
  unfold query
  split
  · exact .error trivial
  · exact (failsIn_requireFit ns).bind fun _ => .ok _

theorem failsIn_queryId (txid : TransactionId) (ns : List Int) :
    FailsIn Failure.IsBlameless (index.queryId txid ns) := by
  unfold queryId
  split
  · exact index.failsIn_query _
  · exact .error trivial

theorem failsIn_ofStored? (v : Json) : FailsIn Failure.IsBlameless (Transaction.ofStored? v) :=
  (Transaction.failsIn_ofStored? v).imp fun _ => Failure.IsMisread.isBlameless

theorem failsIn_block? (ref : BlockRef) : FailsIn Failure.IsBlameless (index.block? ref) := by
  refine (index.failsIn_query _).bind fun t => ?_
  split
  · next row _ =>
    have hdocuments := FailsIn.mapM failsIn_ofStored? (documentsAt t row.height)
    exact (hdocuments.bind fun transactions => .ok _).bind fun b => .ok _
  · exact .ok _

theorem failsIn_idOfNumber? (n : Int) : FailsIn Failure.IsBlameless (index.idOfNumber? n) := by
  unfold idOfNumber?
  split
  · exact .error trivial
  · exact (index.failsIn_query _).bind fun t => .ok _

theorem failsIn_transaction? (txid : TransactionId) :
    FailsIn Failure.IsBlameless (index.transaction? txid) := by
  unfold transaction?
  split
  · exact .error trivial
  · refine (index.failsIn_queryId _ _).bind fun t => ?_
    split
    · exact (failsIn_ofStored? _).bind fun t => .ok _
    · exact .ok _

theorem failsIn_idsOfBlock (b : Block) : FailsIn Failure.IsBlameless (index.idsOfBlock b) := by
  refine (FailsIn.mapM (fun t => ?_) _).bind fun ids => .ok _
  refine (FailsIn.mapM (fun p => ?_) _).bind fun ids => .ok _
  exact (index.failsIn_queryId _ _).bind fun t => .ok _

end Index

namespace Viewer

section

variable (viewer : Viewer)

theorem failsIn_found {α : Type} {entity : Entity} {looked : Outcome (Option α)}
    (h : FailsIn Failure.IsBlameless looked) :
    FailsIn Failure.IsBlameless (found entity looked) := by
  refine h.bind fun o => ?_
  split
  · exact .ok _
  · exact .error trivial

theorem failsIn_orMissing {α : Type} {isForgiven : Failure → Bool} {looked : Outcome (Option α)}
    (h : FailsIn Failure.IsBlameless looked) :
    FailsIn Failure.IsBlameless (orMissing isForgiven looked) := by
  cases looked with
  | ok o => exact .ok _
  | error f =>
    rw [orMissing]
    split
    · exact .ok _
    · exact h

theorem failsIn_askNode (txid : TransactionId) :
    FailsIn Failure.IsBlameless (viewer.askNode txid) := by
  unfold askNode
  split
  · exact .ok _
  · next node _ =>
    refine failsIn_orMissing (FailsIn.map ?_ _)
    refine (node.failsIn_transaction txid).imp fun f hf => ?_
    rcases hf with hpassed | huncaught
    · cases f with
      | badRequest fault => cases hpassed
      | _ => trivial
    · exact Failure.IsMisread.isBlameless (.inl (.inr huncaught))

theorem failsIn_currentOutput (id : InscriptionId) (place : SatPoint) :
    FailsIn Failure.IsBlameless (viewer.currentOutput id place) := by
  have htransaction : FailsIn Failure.IsBlameless
      (viewer.currentTransaction place.outpoint.txid) := by
    refine (failsIn_orMissing (viewer.index.failsIn_transaction? _)).bind fun o => ?_
    split
    · exact .ok _
    · exact viewer.failsIn_askNode _
  refine htransaction.bind fun o => ?_
  split
  · exact .ok _
  · split
    · exact .ok _
    · exact .error trivial

theorem failsIn_previousOf (n : Int) : FailsIn Failure.IsBlameless (viewer.previousOf n) := by
  unfold previousOf
  split
  · exact .ok _
  · exact failsIn_orMissing (viewer.index.failsIn_idOfNumber? _)

theorem failsIn_sat (sat : Option Int) :
    FailsIn Failure.IsBlameless (sat.mapM describeSat) := by
  cases sat with
  | none => exact .ok _
  | some n =>
    change FailsIn _ ((describeSat n).map some)
    refine FailsIn.map ?_ _
    unfold describeSat
    refine FailsIn.map ?_ _
    by_cases hn : 0 ≤ n ∧ n ≤ lastSat
    · rw [Sat.ofNumber?, dif_pos hn]
      exact .ok _
    · rw [Sat.ofNumber?_of_outside hn]
      exact .error trivial

theorem failsIn_firstOwner (id : InscriptionId) (place : SatPoint) :
    FailsIn Failure.IsBlameless (viewer.firstOwner id place) := by
  refine (viewer.index.failsIn_transaction? _).bind fun o => ?_
  split
  · exact .ok _
  · exact .ok _

/-- A view never blames the request. -/
theorem failsIn_view (id : InscriptionId) : FailsIn Failure.IsBlameless (viewer.view id) := by
  have hrow : FailsIn Failure.IsBlameless (viewer.index.row? id) := by
    refine FailsIn.bind ?_ fun _ => (viewer.index.failsIn_query _).bind fun t => .ok _
    exact (failsIn_requireWritable _).imp fun _ h => Failure.IsMisread.isBlameless (.inl h)
  -- The parts of a view, in the order in which they are looked up.
  refine (failsIn_found (hrow.bind fun o => .ok _)).bind fun entry => ?_
  refine (failsIn_found (hrow.bind fun o => .ok _)).bind fun content => ?_
  refine (failsIn_found (hrow.bind fun o => .ok _)).bind fun place => ?_
  refine (viewer.failsIn_currentOutput id place).bind fun output => ?_
  refine (viewer.failsIn_previousOf _).bind fun previous => ?_
  refine (viewer.index.failsIn_idOfNumber? _).bind fun next => ?_
  refine (failsIn_sat entry.sat).bind fun sat => ?_
  exact (viewer.failsIn_firstOwner id place).bind fun firstOwner => .ok _

theorem failsIn_allIdsOfBlock (ref : BlockRef) :
    FailsIn Failure.IsBlameless (viewer.allIdsOfBlock ref) :=
  (failsIn_found (viewer.index.failsIn_block? ref)).bind fun b => viewer.index.failsIn_idsOfBlock b

end

/-! ## One page -/

section

variable {viewer : Viewer} {ref : BlockRef} {ids : List InscriptionId} {start count : Int}

theorem countOfBlock_eq_ok_iff {n : Nat} :
    viewer.countOfBlock ref = .ok n ↔
      ∃ ids, viewer.allIdsOfBlock ref = .ok ids ∧ ids.length = n := by
  simp only [countOfBlock, Outcome.bind_eq_ok_iff, Outcome.pure_eq_ok, Except.ok.injEq]

/-- What is told of a window that reaches behind a block with so many inscriptions. -/
def behind (ref : BlockRef) (start stop : Int) (available : Nat) : Failure :=
  if Numeral.isShort stop then .badRequest (.windowOutside start stop available ref)
  else .unwritable

theorem pageOfBlock_of_not_negative (hstart : 0 ≤ start) (hcount : 0 ≤ count) :
    viewer.pageOfBlock ref start count = viewer.allIdsOfBlock ref >>= fun ids =>
      if (ids.length : Int) < start + count then
        .error (behind ref start (start + count) ids.length)
      else ((ids.drop start.toNat).take count.toNat).mapM viewer.view := by
  have hends : (Numeral.isShort start && Numeral.isShort (start + count)) =
      Numeral.isShort (start + count) := by
    cases hstop : Numeral.isShort (start + count) with
    | true => rw [Numeral.isShort_of_le hstart (by omega) hstop, Bool.and_true]
    | false => exact Bool.and_false _
  rw [pageOfBlock, if_neg (by omega), hends]
  refine bind_congr fun ids => ?_
  unfold behind
  cases Numeral.isShort (start + count) <;> rfl

theorem behind_eq_badRequest_iff {stop : Int} {available : Nat} {fault : RequestFault} :
    behind ref start stop available = .badRequest fault ↔
      Numeral.isShort stop = true ∧ fault = .windowOutside start stop available ref := by
  unfold behind
  cases Numeral.isShort stop with
  | true => simp [eq_comm]
  | false => simp [Failure.unwritable]

/-- A window that is not negative is refused exactly if it reaches behind the block and its end can
be told. -/
theorem pageOfBlock_eq_badRequest_iff (hstart : 0 ≤ start) (hcount : 0 ≤ count)
    {fault : RequestFault} :
    viewer.pageOfBlock ref start count = .error (.badRequest fault) ↔
      ∃ n : Nat, viewer.countOfBlock ref = .ok n ∧ n < start + count ∧
        Numeral.isShort (start + count) = true ∧
        fault = .windowOutside start (start + count) n ref := by
  rw [pageOfBlock_of_not_negative hstart hcount]
  cases hids : viewer.allIdsOfBlock ref with
  | error f =>
    -- There is no number to reach behind, and what failed does not blame the request.
    refine iff_of_false (fun hpage => ?_) ?_
    · obtain rfl := Except.error.inj hpage
      exact viewer.failsIn_allIdsOfBlock ref _ hids
    · rintro ⟨n, hn, -⟩
      obtain ⟨ids, hok, -⟩ := countOfBlock_eq_ok_iff.1 hn
      rw [hids] at hok
      cases hok
  | ok ids =>
    have hn : viewer.countOfBlock ref = .ok ids.length :=
      countOfBlock_eq_ok_iff.2 ⟨ids, hids, rfl⟩
    simp only [hn, Outcome.ok_bind, Except.ok.injEq, exists_eq_left']
    split
    · next hbehind => rw [Except.error.injEq, behind_eq_badRequest_iff, and_iff_right hbehind]
    · next hwithin =>
      refine iff_of_false (fun hpage => ?_) fun h => hwithin h.1
      exact FailsIn.mapM viewer.failsIn_view _ _ hpage

theorem pageOfBlock_of_le {start count : Nat} (hids : viewer.allIdsOfBlock ref = .ok ids)
    (hle : start + count ≤ ids.length) :
    viewer.pageOfBlock ref start count = ((ids.drop start).take count).mapM viewer.view := by
  rw [pageOfBlock_of_not_negative (Int.natCast_nonneg _) (Int.natCast_nonneg _), hids,
    Outcome.ok_bind, if_neg (by omega), Int.toNat_natCast, Int.toNat_natCast]

/-- A block that is not stored is not found. -/
theorem allIdsOfBlock_of_missing (hopen : viewer.index.isClosed = false) (href : ref.IsFit)
    (hmissing : ∀ row ∈ viewer.index.tables.blocks, Index.isBlock ref row = false) :
    viewer.allIdsOfBlock ref = .error (.notFound (.block ref)) := by
  rw [allIdsOfBlock, block, (Index.block?_eq_none_iff hopen).2 ⟨href, hmissing⟩]
  rfl

/-! ## Pages one behind another -/

/-- Pages of so many inscriptions each, one behind another. -/
def pagesFrom (viewer : Viewer) (ref : BlockRef) (start : Nat) :
    List Nat → Outcome (List (List InscriptionView))
  | [] => .ok []
  | count :: counts => do
    let page ← viewer.pageOfBlock ref start count
    return page :: (← viewer.pagesFrom ref (start + count) counts)

/-- Pages one behind another join to the views of one page. -/
theorem pagesFrom_eq (hids : viewer.allIdsOfBlock ref = .ok ids) {start : Nat} {counts : List Nat}
    (hle : start + counts.sum ≤ ids.length) :
    (viewer.pagesFrom ref start counts).map List.flatten =
      ((ids.drop start).take counts.sum).mapM viewer.view := by
  induction counts generalizing start with
  | nil => rfl
  | cons count counts ih =>
    rw [List.sum_cons] at hle
    -- The views of the joined page are those of the first one and those of the others.
    rw [List.sum_cons, List.take_add, List.drop_drop, List.mapM_append, ← ih (by omega), pagesFrom,
      pageOfBlock_of_le hids (by omega)]
    cases ((ids.drop start).take count).mapM viewer.view with
    | error f => rfl
    | ok page =>
      cases viewer.pagesFrom ref (start + count) counts with
      | error f => rfl
      | ok pages => rfl

end

/-- The pages of a block: a window is refused if it is negative, then if the block is not stored,
and then if it reaches behind the block; any other page is a part of the views of the block, and
pages that cut the block join to its views. The failures stand in the order in which they are
told. -/
structure Paginates (viewer : Viewer) (ref : BlockRef) : Prop where
  negative : ∀ start count : Int, start < 0 ∨ count < 0 →
    viewer.pageOfBlock ref start count = .error (.badRequest .negativeWindow)
  missing : (∀ row ∈ viewer.index.tables.blocks, Index.isBlock ref row = false) →
    ∀ start count : Int, 0 ≤ start → 0 ≤ count →
      viewer.pageOfBlock ref start count = .error (.notFound (.block ref))
  /-- The request is blamed for a window behind the block whose end can be told. -/
  outside : ∀ start count : Int, 0 ≤ start → 0 ≤ count → ∀ fault,
    viewer.pageOfBlock ref start count = .error (.badRequest fault) ↔
      ∃ n : Nat, viewer.countOfBlock ref = .ok n ∧ n < start + count ∧
        Numeral.isShort (start + count) = true ∧
        fault = .windowOutside start (start + count) n ref
  /-- It is refused as well if its end cannot be told. -/
  untold : ∀ start count : Int, 0 ≤ start → 0 ≤ count → ∀ n : Nat,
    viewer.countOfBlock ref = .ok n → n < start + count →
    Numeral.isShort (start + count) = false →
    viewer.pageOfBlock ref start count = .error .unwritable
  /-- Where all views of the block are made, so are those of any page. -/
  inside : ∀ views, viewer.viewsOfBlock ref = .ok views →
    viewer.countOfBlock ref = .ok views.length ∧
      ∀ start count : Nat, start + count ≤ views.length →
        viewer.pageOfBlock ref start count = .ok ((views.drop start).take count)
  cut : ∀ counts : List Nat, viewer.countOfBlock ref = .ok counts.sum →
    (viewer.pagesFrom ref 0 counts).map List.flatten = viewer.viewsOfBlock ref

/-- The pages of any block of an open index. -/
theorem paginates {viewer : Viewer} (hopen : viewer.index.isClosed = false) {ref : BlockRef}
    (href : ref.IsFit) : viewer.Paginates ref := by
  constructor
  case negative =>
    intro start count hnegative
    rw [pageOfBlock, if_pos hnegative]
  case missing =>
    intro hmissing start count hstart hcount
    rw [pageOfBlock_of_not_negative hstart hcount, allIdsOfBlock_of_missing hopen href hmissing]
    rfl
  case outside =>
    intro start count hstart hcount fault
    exact pageOfBlock_eq_badRequest_iff hstart hcount
  case untold =>
    intro start count hstart hcount n hn hbehind hlong
    obtain ⟨ids, hids, rfl⟩ := countOfBlock_eq_ok_iff.1 hn
    rw [pageOfBlock_of_not_negative hstart hcount, hids, Outcome.ok_bind, if_pos hbehind, behind,
      hlong]
    rfl
  case inside =>
    intro views hviews
    obtain ⟨ids, hids, hviews⟩ := Outcome.bind_eq_ok_iff.1 hviews
    have hall := Outcome.mapM_eq_ok_iff.1 hviews
    refine ⟨countOfBlock_eq_ok_iff.2 ⟨ids, hids, hall.length_eq⟩, fun start count hle => ?_⟩
    rw [pageOfBlock_of_le hids (hall.length_eq ▸ hle), Outcome.mapM_eq_ok_iff]
    exact List.forall₂_take count (List.forall₂_drop start hall)
  case cut =>
    intro counts hcounts
    obtain ⟨ids, hids, hlength⟩ := countOfBlock_eq_ok_iff.1 hcounts
    rw [pagesFrom_eq hids (by omega), List.drop_zero, ← hlength, List.take_length, viewsOfBlock,
      hids]
    rfl

/-- A block of two inscriptions, cut into pages of which some are empty; an empty page at its end, a
page that reaches behind it, and a page of a block that is not stored. -/
theorem paginates_pair :
    let first : InscriptionId := ⟨.ofText "a1", 0⟩
    let second : InscriptionId := ⟨.ofText "a2", 0⟩
    let b : Block := ⟨"b1", 5, [⟨.ofText "a1", [], [⟨100, []⟩]⟩, ⟨.ofText "a2", [], [⟨70, []⟩]⟩]⟩
    let ws : List Write := [.ofBlock b,
      .inscription first ⟨some 0, some 5, some 0, some 0, none⟩ {} (some ⟨⟨.ofText "a2", 0⟩, 0⟩),
      .inscription second ⟨some 1, some 5, some 0, some 0, none⟩ {} (some ⟨⟨.ofText "a1", 0⟩, 3⟩)]
    let viewer : Viewer := { index := ({} : Index).run ws }
    ∃ views, viewer.viewsOfBlock (.hash "b1") = .ok views ∧
      views.map InscriptionView.id = [second, first] ∧
      (viewer.pagesFrom (.hash "b1") 0 [0, 1, 0, 1, 0]).map List.flatten = .ok views ∧
      viewer.pageOfBlock (.hash "b1") 2 0 = .ok [] ∧
      viewer.pageOfBlock (.hash "b1") 1 2 =
        .error (.badRequest (.windowOutside 1 3 2 (.hash "b1"))) ∧
      viewer.pageOfBlock (.height 6) 0 7 = .error (.notFound (.block (.height 6))) := by
  intro first second b ws viewer
  have hopen : viewer.index.isClosed = false := Index.isClosed_run {} ws
  have hpages : viewer.Paginates (.hash "b1") := paginates hopen trivial
  have hother : viewer.Paginates (.height 6) := paginates hopen (show fitsColumn 6 = true from rfl)
  have hids : viewer.allIdsOfBlock (.hash "b1") = .ok [second, first] := by cbv
  have hcount : viewer.countOfBlock (.hash "b1") = .ok 2 :=
    countOfBlock_eq_ok_iff.2 ⟨_, hids, rfl⟩
  obtain ⟨views, hviews⟩ : ∃ views, viewer.viewsOfBlock (.hash "b1") = .ok views := ⟨_, by cbv⟩
  have hmap : views.map InscriptionView.id = [second, first] := by
    rw [viewsOfBlock, hids, Outcome.ok_bind] at hviews
    exact map_id_of_mapM_view hviews
  have hlength : views.length = 2 := by
    rw [← List.length_map (f := InscriptionView.id), hmap]
    rfl
  refine ⟨views, hviews, hmap, ?_, ?_, ?_, ?_⟩
  · rw [hpages.cut [0, 1, 0, 1, 0] hcount, hviews]
  · have hend := (hpages.inside views hviews).2 2 0 hlength.ge
    rwa [List.take_zero] at hend
  · exact (hpages.outside 1 2 (by decide) (by decide) _).2
      ⟨2, hcount, by decide, by cbv, rfl⟩
  · have hblocks : viewer.index.tables.blocks = [⟨5, "b1"⟩] := by cbv
    refine hother.missing (fun row hrow => ?_) 0 7 le_rfl (by decide)
    rw [hblocks, List.mem_singleton] at hrow
    rw [hrow]
    decide

/-- A window whose end has too many digits reaches behind an empty block, and the request is not
blamed for it. -/
theorem not_forall_pageOfBlock_eq_badRequest :
    ¬∀ (ws : List Write) (ref : BlockRef) (start count : Int) (n : Nat),
      let viewer : Viewer := { index := ({} : Index).run ws }
      ref.IsFit → 0 ≤ start → 0 ≤ count → viewer.countOfBlock ref = .ok n → n < start + count →
        ∃ fault, viewer.pageOfBlock ref start count = .error (.badRequest fault) := by
  intro h
  let ws : List Write := [.ofBlock ⟨"b1", 5, []⟩]
  let viewer : Viewer := { index := ({} : Index).run ws }
  have hcount : viewer.countOfBlock (.height 5) = .ok 0 := by cbv
  obtain ⟨k, hk⟩ : ∃ k, Numeral.maxDigits ≤ k := ⟨_, le_rfl⟩
  have hlong : Numeral.isShort (0 + 10 ^ k) = false := by
    rw [Int.zero_add]
    exact Numeral.isShort_pow hk
  obtain ⟨fault, hfault⟩ := h ws (.height 5) 0 (10 ^ k) 0 (show fitsColumn 5 = true from rfl) le_rfl
    (by positivity) hcount (by positivity)
  have hpages : viewer.Paginates (.height 5) :=
    paginates (Index.isClosed_run {} ws) (show fitsColumn 5 = true from rfl)
  rw [hpages.untold 0 (10 ^ k) le_rfl (by positivity) 0 hcount (by positivity) hlong] at hfault
  cases hfault

end Viewer

end InscriptionLedger
