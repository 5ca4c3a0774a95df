/-!
# Keyed lists

A keyed list holds values under distinct keys, in the order in which the keys first came. Putting a
value under a key that is present replaces the value and keeps the key and its place. Keys are told
apart by `==`, which may hold of keys that differ in form.

## Main definitions

* `Keyed.get? xs k`, `Keyed.put xs k v`: the value under a key
* `Keyed.ofPairs pairs`: the keyed list of pairs put one after another

## Main results

* `Keyed.get?_put_self`, `Keyed.get?_put_of_ne`: a value is found under its own key
* `Keyed.keys_put`: the keys after a value is put
-/

namespace InscriptionLedger.Keyed

variable {κ ν : Type} [BEq κ]

/-- The value under a key. -/
def get? : List (κ × ν) → κ → Option ν
  | [], _ => none
  | (key, value) :: rest, k => if key == k then some value else get? rest k

/-- The list with a value put under a key. -/
def put : List (κ × ν) → κ → ν → List (κ × ν)
  | [], k, v => [(k, v)]
  | (key, value) :: rest, k, v =>
    if key == k then (key, v) :: rest else (key, value) :: put rest k v

/-- The keyed list of pairs put one after another. -/
def ofPairs (pairs : List (κ × ν)) : List (κ × ν) :=
  pairs.foldl (fun xs pair => put xs pair.1 pair.2) []

@[simp] theorem get?_nil (k : κ) : get? ([] : List (κ × ν)) k = none := rfl

@[simp] theorem get?_put_self [ReflBEq κ] (xs : List (κ × ν)) (k : κ) (v : ν) :
    get? (put xs k v) k = some v := by
  induction xs with
  | nil => simp [put, get?]
  | cons x rest ih => by_cases h : (x.1 == k) = true <;> simp [put, get?, h, ih]

theorem get?_put_of_ne [EquivBEq κ] (xs : List (κ × ν)) {k other : κ} (v : ν)
    (hne : (k == other) = false) : get? (put xs k v) other = get? xs other := by
  induction xs with
  | nil => simp [put, get?, hne]
  | cons x rest ih =>
    by_cases h : (x.1 == k) = true
    · have hx : (x.1 == other) = false := by rw [BEq.congr_left h, hne]
      simp [put, get?, h, hx]
    · by_cases h' : (x.1 == other) = true <;> simp_all [put, get?]

/-- A new key comes last; a key that is present keeps its place. -/
theorem keys_put (xs : List (κ × ν)) (k : κ) (v : ν) :
    (put xs k v).map Prod.fst =
      if xs.any fun x => x.1 == k then xs.map Prod.fst else xs.map Prod.fst ++ [k] := by
  induction xs with
  | nil => simp [put]
  | cons x rest ih =>
    by_cases h : (x.1 == k) = true
    · simp [put, h]
    · by_cases h' : (rest.any fun y => y.1 == k) = true <;> simp [put, h, ih, h']

end InscriptionLedger.Keyed
