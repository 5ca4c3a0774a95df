import InscriptionLedger.Keyed
import Mathlib

/-!
# Keyed lists that are built up

A value put under a new key comes last. Of pairs put one after another each key keeps the place in
which it comes first and holds the value that comes last. Where keys are told apart, the pairs are
the keyed list as they stand, and what is found under a key is what stands there.

## Main results

* `Keyed.put_of_get?_none`, `Keyed.exists_put_eq`: a value under a new key, and one that is replaced
* `Keyed.ofPairs_eq_filterMap`: pairs put one after another
* `Keyed.ofPairs_eq_self`: pairs with keys that are apart
* `Keyed.get?_eq_some_iff`: what is found in such a list
* `nodup_eraseDups`: a list without its repetitions
-/

namespace InscriptionLedger

theorem nodup_eraseDups {α : Type} [BEq α] [LawfulBEq α] : ∀ l : List α, l.eraseDups.Nodup
  | [] => .nil
  | a :: l => by
    rw [List.eraseDups_cons, List.nodup_cons]
    refine ⟨fun hmem => ?_, nodup_eraseDups _⟩
    simp [List.mem_eraseDups] at hmem
termination_by l => l.length
decreasing_by exact Nat.lt_succ_of_le (List.length_filter_le _ _)

namespace Keyed

variable {κ ν : Type} [BEq κ]

/-- Pairs whose keys are told apart. -/
def IsApart (pairs : List (κ × ν)) : Prop := pairs.Pairwise fun x y => (x.1 == y.1) = false

theorem get?_eq_none_iff {xs : List (κ × ν)} {k : κ} :
    get? xs k = none ↔ ∀ x ∈ xs, (x.1 == k) = false := by
  induction xs with
  | nil => simp
  | cons x rest ih =>
    by_cases h : (x.1 == k) = true
    · simp [get?, h]
    · simp [get?, h, ih]

/-- A value under a new key comes last. -/
theorem put_of_get?_none {xs : List (κ × ν)} {k : κ} (h : get? xs k = none) (v : ν) :
    put xs k v = xs ++ [(k, v)] := by
  induction xs with
  | nil => rfl
  | cons x rest ih =>
    obtain ⟨hx, hrest⟩ := List.forall_mem_cons.1 (get?_eq_none_iff.1 h)
    rw [put, hx, ih (get?_eq_none_iff.2 hrest)]
    rfl

theorem mem_of_get?_eq_some [LawfulBEq κ] {xs : List (κ × ν)} {k : κ} {v : ν}
    (h : get? xs k = some v) : (k, v) ∈ xs := by
  induction xs with
  | nil => cases h
  | cons x rest ih =>
    obtain ⟨key, value⟩ := x
    rw [get?] at h
    split at h
    · next hkey =>
      rw [← Option.some.inj h, ← eq_of_beq hkey]
      exact List.mem_cons_self ..
    · exact List.mem_cons_of_mem _ (ih h)

/-- A value under a key that is present is replaced where it stands. -/
theorem exists_put_eq {xs : List (κ × ν)} {k : κ} {v : ν} (h : get? xs k = some v) (w : ν) :
    ∃ front key back, (key == k) = true ∧ xs = front ++ (key, v) :: back ∧
      put xs k w = front ++ (key, w) :: back := by
  induction xs with
  | nil => cases h
  | cons x rest ih =>
    obtain ⟨key, value⟩ := x
    rw [get?] at h
    split at h
    · next hkey =>
      obtain rfl := Option.some.inj h
      exact ⟨[], key, rest, hkey, rfl, by rw [put, if_pos hkey]; rfl⟩
    · next hkey =>
      obtain ⟨front, key', back, hkey', hrest, hput⟩ := ih h
      refine ⟨(key, value) :: front, key', back, hkey', ?_, ?_⟩
      · rw [hrest, List.cons_append]
      · rw [put, if_neg hkey, hput, List.cons_append]

/-- Where keys are apart, what is found under a key is what stands under an equal one. -/
theorem get?_eq_some_iff [EquivBEq κ] {xs : List (κ × ν)} (h : IsApart xs) {k : κ} {v : ν} :
    get? xs k = some v ↔ ∃ key, (key, v) ∈ xs ∧ (key == k) = true := by
  induction xs with
  | nil => simp
  | cons x rest ih =>
    obtain ⟨key, value⟩ := x
    obtain ⟨hkey, hrest⟩ := List.pairwise_cons.1 h
    by_cases hk : (key == k) = true
    · -- No other key equals the first.
      rw [get?, if_pos hk, Option.some.injEq]
      constructor
      · rintro rfl
        exact ⟨key, List.mem_cons_self .., hk⟩
      · rintro ⟨other, hmem, hother⟩
        rcases List.mem_cons.1 hmem with heq | hmem
        · exact (congrArg Prod.snd heq).symm
        · have hapart := hkey _ hmem
          rw [BEq.trans hk (BEq.symm hother)] at hapart
          cases hapart
    · rw [get?, if_neg hk, ih hrest]
      refine exists_congr fun other => and_congr_left fun hother => ?_
      rw [List.mem_cons, Prod.mk.injEq, or_iff_right]
      rintro ⟨rfl, -⟩
      exact hk hother

theorem foldl_put_eq_append {pairs acc : List (κ × ν)} (h : IsApart (acc ++ pairs)) :
    pairs.foldl (fun xs pair => put xs pair.1 pair.2) acc = acc ++ pairs := by
  induction pairs generalizing acc with
  | nil => simp
  | cons x rest ih =>
    have hnew : get? acc x.1 = none := by
      refine get?_eq_none_iff.2 fun y hy => ?_
      exact (List.pairwise_append.1 h).2.2 y hy x (List.mem_cons_self ..)
    rw [List.append_cons acc x rest] at h ⊢
    rw [List.foldl_cons, put_of_get?_none hnew]
    exact ih h

/-- Pairs whose keys are apart are the keyed list as they stand. -/
theorem ofPairs_eq_self {pairs : List (κ × ν)} (h : IsApart pairs) : ofPairs pairs = pairs :=
  foldl_put_eq_append h

/-! ### Pairs put one after another -/

theorem ofPairs_concat (pairs : List (κ × ν)) (pair : κ × ν) :
    ofPairs (pairs ++ [pair]) = put (ofPairs pairs) pair.1 pair.2 := List.foldl_concat ..

/-- The keys stand in the order in which they come first. -/
theorem keys_ofPairs [LawfulBEq κ] (pairs : List (κ × ν)) :
    (ofPairs pairs).map Prod.fst = (pairs.map Prod.fst).eraseDups := by
  induction pairs using List.reverseRecOn with
  | nil => rfl
  | append_singleton done pair ih =>
    have hpresent : ((ofPairs done).any fun x => x.1 == pair.1) = true ↔
        pair.1 ∈ done.map Prod.fst := by
      rw [← List.mem_eraseDups, ← ih, List.any_eq_true, List.mem_map]
      simp only [beq_iff_eq]
    rw [ofPairs_concat, keys_put, ih, List.map_append, List.eraseDups_append]
    by_cases hmem : pair.1 ∈ done.map Prod.fst
    · have hnone : [pair.1].removeAll (done.map Prod.fst) = [] := by
        simpa [List.removeAll] using hmem
      rw [if_pos (hpresent.2 hmem), List.map_singleton, hnone, List.eraseDups_nil, List.append_nil]
    · have hnew : [pair.1].removeAll (done.map Prod.fst) = [pair.1] := by
        simpa [List.removeAll] using hmem
      rw [if_neg (mt hpresent.1 hmem), List.map_singleton, hnew]
      rfl

/-- Under a key the value stands that comes last. -/
theorem get?_ofPairs [LawfulBEq κ] (pairs : List (κ × ν)) (k : κ) :
    get? (ofPairs pairs) k = get? pairs.reverse k := by
  induction pairs using List.reverseRecOn with
  | nil => rfl
  | append_singleton done pair ih =>
    obtain ⟨key, v⟩ := pair
    rw [ofPairs_concat, List.reverse_concat, get?]
    by_cases hk : (key == k) = true
    · rw [if_pos hk, eq_of_beq hk, get?_put_self]
    · rw [if_neg hk, get?_put_of_ne _ v (Bool.eq_false_of_not_eq_true hk), ih]

/-- A keyed list is made from its keys. -/
theorem eq_filterMap_get? [LawfulBEq κ] {xs : List (κ × ν)} (h : (xs.map Prod.fst).Nodup) :
    xs = (xs.map Prod.fst).filterMap fun k => (get? xs k).map fun v => (k, v) := by
  induction xs with
  | nil => rfl
  | cons x rest ih =>
    obtain ⟨hkey, hrest⟩ := List.nodup_cons.1 h
    have htail : ((rest.map Prod.fst).filterMap fun k => (get? (x :: rest) k).map fun v => (k, v)) =
        rest := by
      refine Eq.trans (List.filterMap_congr fun k hk => ?_) (ih hrest).symm
      have hne : (x.1 == k) = false := beq_eq_false_iff_ne.2 fun heq => hkey (heq ▸ hk)
      rw [get?, hne]
      rfl
    rw [List.map_cons, List.filterMap_cons, htail, get?, if_pos BEq.rfl]
    rfl

/-- Pairs put one after another: the keys in the order in which they come first, each with the value
that comes last. -/
theorem ofPairs_eq_filterMap [LawfulBEq κ] (pairs : List (κ × ν)) :
    ofPairs pairs = (pairs.map Prod.fst).eraseDups.filterMap fun k =>
      (get? pairs.reverse k).map fun v => (k, v) := by
  have hnodup : ((ofPairs pairs).map Prod.fst).Nodup := by
    rw [keys_ofPairs]
    exact nodup_eraseDups _
  calc ofPairs pairs
      = ((ofPairs pairs).map Prod.fst).filterMap fun k =>
          (get? (ofPairs pairs) k).map fun v => (k, v) := eq_filterMap_get? hnodup
    _ = _ := by simp only [keys_ofPairs, get?_ofPairs]

end Keyed

end InscriptionLedger
