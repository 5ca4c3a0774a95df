import InscriptionLedger.Proofs.Outcome
import InscriptionLedger.Sorting

/-!
# Lists sorted by keys

Where the comparison goes by keys in a linear order, sorting never fails and gives the values with
their keys in that order: the run at the front is sorted, halving finds the place of a further
value, and a value at its place leaves the list sorted. Values with different keys are thus put in
one order, however they are listed.

## Main definitions

* `GoesBy before? key xs`: the comparison of values is that of their keys
* `IsSorted key xs`: the keys of a list never fall
* `Divides key xs a k`: a place between the values that go before another one and the rest

## Main results

* `exists_firstRun?`, `exists_slot?`, `exists_insert?`: what the parts of sorting give
* `exists_sort?`: sorting gives a sorted list
* `sort?_eq_of_perm`: a sorted list is what every listing of its values is sorted to
-/

namespace InscriptionLedger.Sorting

variable {α β : Type} [LinearOrder β] {before? : α → α → Outcome Bool} {key : α → β}

/-- The comparison of these values is that of their keys. -/
def GoesBy (before? : α → α → Outcome Bool) (key : α → β) (xs : List α) : Prop :=
  ∀ a ∈ xs, ∀ b ∈ xs, before? a b = .ok (decide (key a < key b))

/-- The keys of a list never fall. -/
def IsSorted (key : α → β) (xs : List α) : Prop := xs.Pairwise fun a b => key a ≤ key b

/-- The values in front of a place go before another one or with it, and the rest behind it. -/
structure Divides (key : α → β) (xs : List α) (a : α) (k : Nat) : Prop where
  front : ∀ b ∈ xs.take k, key b ≤ key a
  back : ∀ b ∈ xs.drop k, key a < key b

theorem GoesBy.subset {xs ys : List α} (h : GoesBy before? key ys) (hsub : xs ⊆ ys) :
    GoesBy before? key xs :=
  fun a ha b hb => h a (hsub ha) b (hsub hb)

/-! ## The run at the front -/

/-- The run goes on in its direction from the last value in front of it. -/
theorem exists_spanRun? {last : α} {xs : List α} (h : GoesBy before? key (last :: xs))
    (descends : Bool) :
    ∃ run tail, spanRun? before? descends last xs = .ok (run, tail) ∧
      List.IsChain (fun a b => decide (key b < key a) = descends) (last :: run) := by
  -- The relation is the test itself, so that both directions are one case.
  induction xs generalizing last with
  | nil => exact ⟨[], [], rfl, .singleton last⟩
  | cons a rest ih =>
    rw [spanRun?, h a (by simp) last (by simp), Outcome.ok_bind]
    by_cases hnext : decide (key a < key last) = descends
    · obtain ⟨run, tail, hspan, hchain⟩ := ih (h.subset (List.subset_cons_self last (a :: rest)))
      refine ⟨a :: run, tail, ?_, .cons_cons hnext hchain⟩
      rw [if_pos hnext, hspan]
      rfl
    · exact ⟨[], a :: rest, if_neg hnext, .singleton last⟩

/-- A run of one direction is sorted once it is turned around if it descends. -/
theorem isSorted_of_isChain {descends : Bool} {xs : List α}
    (h : List.IsChain (fun a b => decide (key b < key a) = descends) xs) :
    IsSorted key (if descends then xs.reverse else xs) := by
  cases descends with
  | true =>
    have hfalls : List.IsChain (fun a b => key b < key a) xs := h.imp fun _ _ => of_decide_eq_true
    have : IsTrans α fun a b => key b < key a := ⟨fun _ _ _ hab hbc => hbc.trans hab⟩
    exact List.pairwise_reverse.2 (hfalls.pairwise.imp le_of_lt)
  | false =>
    have hrises : List.IsChain (fun a b => key a ≤ key b) xs :=
      h.imp fun _ _ hab => not_lt.1 (of_decide_eq_false hab)
    have : IsTrans α fun a b => key a ≤ key b := ⟨fun _ _ _ => le_trans⟩
    exact hrises.pairwise

/-- The run at the front is sorted. -/
theorem exists_firstRun? {xs : List α} (h : GoesBy before? key xs) :
    ∃ front rest, firstRun? before? xs = .ok (front, rest) ∧ IsSorted key front := by
  match xs with
  | [] => exact ⟨[], [], rfl, .nil⟩
  | [a] => exact ⟨[a], [], rfl, List.pairwise_singleton _ a⟩
  | a :: b :: rest =>
    obtain ⟨run, tail, hspan, hchain⟩ :=
      exists_spanRun? (h.subset (List.subset_cons_self a (b :: rest))) (decide (key b < key a))
    have hall : List.IsChain (fun c d => decide (key d < key c) = decide (key b < key a))
        (a :: b :: run) := .cons_cons rfl hchain
    refine ⟨_, tail, ?_, isSorted_of_isChain hall⟩
    rw [firstRun?, h b (by simp) a (by simp), Outcome.ok_bind, hspan]
    rfl

/-! ## The place of a value -/

/-- In a sorted list the values up to one that does not come behind another do not either. -/
theorem forall_take_succ_le {sorted : List α} {a : α} (hsorted : IsSorted key sorted) {i : Nat}
    (hi : i < sorted.length) (hle : key sorted[i] ≤ key a) :
    ∀ b ∈ sorted.take (i + 1), key b ≤ key a := by
  intro b hb
  obtain ⟨j, hj, rfl⟩ := List.mem_take_iff_getElem.1 hb
  rcases Nat.lt_or_eq_of_le (Nat.lt_succ_iff.1 (lt_min_iff.1 hj).1) with hlt | rfl
  · exact (List.pairwise_iff_getElem.1 hsorted j i _ hi hlt).trans hle
  · exact hle

/-- In a sorted list the values from one that comes behind another on come behind it too. -/
theorem forall_drop_lt {sorted : List α} {a : α} (hsorted : IsSorted key sorted) {i : Nat}
    (hi : i < sorted.length) (hlt : key a < key sorted[i]) :
    ∀ b ∈ sorted.drop i, key a < key b := by
  rw [List.drop_eq_getElem_cons hi, List.forall_mem_cons]
  refine ⟨hlt, fun b hb => ?_⟩
  obtain ⟨j, hj, rfl⟩ := List.mem_drop_iff_getElem.1 hb
  exact hlt.trans_le (List.pairwise_iff_getElem.1 hsorted i (i + 1 + j) hi (by omega) (by omega))

/-- Halving finds the place of a value among sorted ones. -/
theorem exists_slot? {sorted : List α} {a : α} (h : GoesBy before? key (a :: sorted))
    (hsorted : IsSorted key sorted) {low high : Nat} (hle : low ≤ high)
    (hlength : high ≤ sorted.length) (hfront : ∀ b ∈ sorted.take low, key b ≤ key a)
    (hback : ∀ b ∈ sorted.drop high, key a < key b) :
    ∃ k, slot? before? sorted a low high = .ok k ∧ Divides key sorted a k := by
  -- What stands in front of `low` never goes behind the value, and what stands from `high` on does.
  induction hwidth : high - low using Nat.strongRecOn generalizing low high with
  | ind width ih =>
    rw [slot?]
    split
    case isFalse hend =>
      obtain rfl : low = high := by omega
      exact ⟨low, rfl, hfront, hback⟩
    case isTrue hlt =>
      have hmiddle : low + (high - low) / 2 < sorted.length := by omega
      have hcompare := h a List.mem_cons_self _ (List.mem_cons_of_mem a (List.getElem_mem hmiddle))
      simp only [List.getElem?_eq_getElem hmiddle, hcompare, Outcome.ok_bind, decide_eq_true_eq]
      split
      case isTrue hbefore =>
        exact ih _ (by omega) (by omega) (by omega) hfront
          (forall_drop_lt hsorted hmiddle hbefore) rfl
      case isFalse hbehind =>
        exact ih _ (by omega) (by omega) hlength
          (forall_take_succ_le hsorted hmiddle (not_lt.1 hbehind)) hback rfl

/-! ## The sorted list -/

/-- A value at its place leaves the list sorted. -/
theorem Divides.isSorted {sorted : List α} {a : α} {k : Nat} (h : Divides key sorted a k)
    (hsorted : IsSorted key sorted) : IsSorted key (sorted.take k ++ a :: sorted.drop k) := by
  rw [IsSorted, List.pairwise_append, List.pairwise_cons]
  refine ⟨hsorted.sublist (List.take_sublist k sorted),
    ⟨fun b hb => (h.back b hb).le, hsorted.sublist (List.drop_sublist k sorted)⟩, ?_⟩
  intro b hb c hc
  rcases List.mem_cons.1 hc with rfl | hc
  · exact h.front b hb
  · exact (h.front b hb).trans (h.back c hc).le

/-- A further value goes to its place. -/
theorem exists_insert? {sorted : List α} {a : α} (h : GoesBy before? key (a :: sorted))
    (hsorted : IsSorted key sorted) :
    ∃ after, insert? before? sorted a = .ok after ∧ IsSorted key after := by
  obtain ⟨k, hk, hdivides⟩ := exists_slot? h hsorted (Nat.zero_le _) le_rfl (by simp) (by simp)
  refine ⟨_, ?_, hdivides.isSorted hsorted⟩
  rw [insert?, hk]
  rfl

theorem exists_foldlM_insert? {front rest : List α} (h : GoesBy before? key (front ++ rest))
    (hsorted : IsSorted key front) :
    ∃ after, rest.foldlM (insert? before?) front = .ok after ∧ IsSorted key after := by
  induction rest generalizing front with
  | nil => exact ⟨front, rfl, hsorted⟩
  | cons a rest ih =>
    obtain ⟨next, hnext, hnextSorted⟩ :=
      exists_insert? (a := a) (h.subset (by simp)) hsorted
    rw [List.foldlM_cons, hnext, Outcome.ok_bind]
    have hperm := ((perm_of_insert? hnext).append_right rest).trans List.perm_middle.symm
    exact ih (h.subset hperm.subset) hnextSorted

/-- Sorting by keys gives a sorted list of the values. -/
theorem exists_sort? {xs : List α} (h : GoesBy before? key xs) :
    ∃ ys, sort? before? xs = .ok ys ∧ IsSorted key ys := by
  obtain ⟨front, rest, hfront, hsorted⟩ := exists_firstRun? h
  obtain ⟨ys, hys, hall⟩ :=
    exists_foldlM_insert? (h.subset (perm_of_firstRun? hfront).subset) hsorted
  refine ⟨ys, ?_, hall⟩
  rw [sort?, hfront]
  exact hys

/-- Values with different keys have one order, to which every listing of them is sorted. -/
theorem sort?_eq_of_perm {xs ys : List α} (h : GoesBy before? key xs) (hperm : xs.Perm ys)
    (hrises : ys.Pairwise fun a b => key a < key b) : sort? before? xs = .ok ys := by
  obtain ⟨zs, hzs, hsorted⟩ := exists_sort? h
  have hsame : zs.Perm ys := (perm_of_sort? hzs).trans hperm
  have hnodup : (ys.map key).Nodup := List.pairwise_map.2 (hrises.imp ne_of_lt)
  have hinjective : ∀ a b, a ∈ zs → b ∈ ys → key a ≤ key b → key b ≤ key a → a = b :=
    fun a b ha hb hab hba =>
      List.inj_on_of_nodup_map hnodup (hsame.subset ha) hb (le_antisymm hab hba)
  rw [hzs, hsame.eq_of_pairwise hinjective hsorted (hrises.imp le_of_lt)]

end InscriptionLedger.Sorting
