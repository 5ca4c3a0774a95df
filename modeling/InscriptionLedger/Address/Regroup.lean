import InscriptionLedger.Failure

/-!
# Regrouping bits

A sequence of groups of bits is cut anew into groups of another width; zero bits fill the last one.
The reader keeps no more bits than it still needs.

## Main definitions

* `Regroup.groups width acc bits`: the whole groups among the lowest bits of a number
* `Regroup.regroup source target data`: the values of the new width
* `Regroup.regroup?`: the same for widths that need not make sense
-/

namespace InscriptionLedger.Regroup

/-- The whole groups of a width among the lowest `bits` bits of a number, highest first. -/
def groups (width acc bits : Nat) : List Nat :=
  (List.range (bits / width)).map fun i => (acc >>> (bits - width * (i + 1))) % (1 <<< width)

/-- The bits that stay of a number of `source` bits read behind the bits in hand. -/
def accumulate (source target acc : Nat) (value : Int) : Nat :=
  let room : Nat := 1 <<< (source + target - 1)
  ((acc <<< source) ||| (value % (room : Int)).toNat) % room

/-- The new groups of the rest of a sequence, with the bits in hand. -/
def regroupFrom (source target acc bits : Nat) : List Int → List Nat
  | [] => if bits = 0 then [] else [(acc <<< (target - bits)) % (1 <<< target)]
  | value :: rest =>
    let acc := accumulate source target acc value
    let bits := bits + source
    groups target acc bits ++ regroupFrom source target acc (bits % target) rest

/-- The values of the new width. -/
def regroup (source target : Nat) (data : List Int) : List Nat := regroupFrom source target 0 0 data

/-- The values of the new width, for widths that need not make sense. -/
def regroup? (source target : Int) (data : List Int) : Outcome (List Nat) :=
  if target < 0 ∨ source + target < 1 ∨ (source < 0 ∧ data ≠ []) then .error .unreadable
  else .ok (regroup source.toNat target.toNat data)

end InscriptionLedger.Regroup
