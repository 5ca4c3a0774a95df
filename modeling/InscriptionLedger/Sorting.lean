import InscriptionLedger.Failure

/-!
# Sorting

Values are sorted by a comparison that can fail. Values of which neither comes before the other keep
their order. Where a comparison is no order, as that of undefined numbers, the result depends on
which values are compared: the list starts with a run that is kept, or turned around if it descends,
and each further value goes into the sorted ones at a place found by halving. That is how lists of
fewer than sixty-four values are sorted; longer ones are sorted in parts that are merged, with the
same result where the comparison orders the values, but not always where it does not.

## Main definitions

* `Sorting.firstRun?`: the run at the front, ascending, and what follows it
* `Sorting.slot?`: the place of a value among sorted ones
* `Sorting.sort?`: the sorted list

## Main results

* `Sorting.perm_of_sort?`: sorting keeps the values
-/

namespace InscriptionLedger.Sorting

variable {α : Type}

/-- The values at the front that go on in one direction from a last one, and what follows them. -/
def spanRun? (before? : α → α → Outcome Bool) (descends : Bool) (last : α) :
    List α → Outcome (List α × List α)
  | [] => .ok ([], [])
  | a :: rest => do
    if (← before? a last) = descends then
      let (run, tail) ← spanRun? before? descends a rest
      return (a :: run, tail)
    else return ([], a :: rest)

/-- The run at the front, turned around if it descends, and what follows it. -/
def firstRun? (before? : α → α → Outcome Bool) : List α → Outcome (List α × List α)
  | a :: b :: rest => do
    let descends ← before? b a
    let (run, tail) ← spanRun? before? descends b rest
    let front := a :: b :: run
    return (if descends then front.reverse else front, tail)
  | short => .ok (short, [])

/-- How many of the sorted values a value goes behind, at least `low` and at most `high`. -/
def slot? (before? : α → α → Outcome Bool) (sorted : List α) (a : α) (low high : Nat) :
    Outcome Nat :=
  if low < high then
    let middle := low + (high - low) / 2
    match sorted[middle]? with
    | none => .ok low
    | some m => do
      if ← before? a m then slot? before? sorted a low middle
      else slot? before? sorted a (middle + 1) high
  else .ok low
termination_by high - low

/-- The sorted values with a further one. -/
def insert? (before? : α → α → Outcome Bool) (sorted : List α) (a : α) : Outcome (List α) := do
  let k ← slot? before? sorted a 0 sorted.length
  return sorted.take k ++ a :: sorted.drop k

/-- The sorted list. -/
def sort? (before? : α → α → Outcome Bool) (xs : List α) : Outcome (List α) := do
  let (front, rest) ← firstRun? before? xs
  rest.foldlM (insert? before?) front

/-! ## Sorting keeps the values -/

variable {before? : α → α → Outcome Bool}

theorem append_of_spanRun? {descends : Bool} {last : α} {xs run tail : List α}
    (h : spanRun? before? descends last xs = .ok (run, tail)) : run ++ tail = xs := by
  induction xs generalizing last run tail with
  | nil =>
    cases h
    rfl
  | cons a rest ih =>
    rw [spanRun?] at h
    cases hb : before? a last with
    | error f =>
      rw [hb] at h
      cases h
    | ok b =>
      rw [hb] at h
      change (if b = descends then _ else _) = _ at h
      split at h
      · cases hr : spanRun? before? descends a rest with
        | error f =>
          rw [hr] at h
          cases h
        | ok parts =>
          rw [hr] at h
          cases h
          simp [ih hr]
      · cases h
        rfl

theorem perm_of_firstRun? {xs front rest : List α}
    (h : firstRun? before? xs = .ok (front, rest)) : (front ++ rest).Perm xs := by
  match xs with
  | [] =>
    cases h
    exact .refl _
  | [a] =>
    cases h
    exact .refl _
  | a :: b :: more =>
    rw [firstRun?] at h
    cases hb : before? b a with
    | error f =>
      rw [hb] at h
      cases h
    | ok descends =>
      rw [hb] at h
      cases hr : spanRun? before? descends b more with
      | error f =>
        change (spanRun? before? descends b more >>= _) = _ at h
        rw [hr] at h
        cases h
      | ok parts =>
        change (spanRun? before? descends b more >>= _) = _ at h
        rw [hr] at h
        cases h
        have hm := append_of_spanRun? hr
        split
        · refine ((List.reverse_perm _).append_right _).trans ?_
          simp [hm]
        · simp [hm]

theorem perm_of_insert? {sorted after : List α} {a : α}
    (h : insert? before? sorted a = .ok after) : after.Perm (a :: sorted) := by
  rw [insert?] at h
  cases hk : slot? before? sorted a 0 sorted.length with
  | error f =>
    rw [hk] at h
    cases h
  | ok k =>
    rw [hk] at h
    cases h
    refine List.perm_middle.trans ?_
    rw [List.take_append_drop]

theorem perm_of_foldlM_insert? {front rest after : List α}
    (h : rest.foldlM (insert? before?) front = .ok after) : after.Perm (front ++ rest) := by
  induction rest generalizing front with
  | nil =>
    cases h
    simp
  | cons a rest ih =>
    rw [List.foldlM_cons] at h
    cases hi : insert? before? front a with
    | error f =>
      rw [hi] at h
      cases h
    | ok next =>
      rw [hi] at h
      refine (ih h).trans ?_
      refine ((perm_of_insert? hi).append_right rest).trans ?_
      exact List.perm_middle.symm

/-- Sorting keeps the values. -/
theorem perm_of_sort? {xs ys : List α} (h : sort? before? xs = .ok ys) : ys.Perm xs := by
  rw [sort?] at h
  cases hf : firstRun? before? xs with
  | error f =>
    rw [hf] at h
    cases h
  | ok parts =>
    rw [hf] at h
    exact (perm_of_foldlM_insert? h).trans (perm_of_firstRun? hf)

end InscriptionLedger.Sorting
