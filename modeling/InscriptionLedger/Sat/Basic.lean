import InscriptionLedger.Failure

/-!
# Satoshis

Every satoshi has the number under which it is mined. The first block of an epoch halves the subsidy
of the one before; from the 34th epoch on nothing is mined. A satoshi's number thus fixes its epoch,
its block and its place in the block's subsidy.

## Main definitions

* `subsidy epoch`: the satoshis that a block of an epoch mines
* `epochStart epoch`: the number of the first satoshi of an epoch
* `Sat`: a satoshi; `Sat.ofNumber? n` is the satoshi of a number
* `Sat.epoch`, `Sat.height`, `Sat.third`: its epoch, its block, and its place in the block
* `Degree`, `Sat.degree`: the notation that tells a block's place in the cycles

## Main results

* `supply_eq`: all epochs together mine the supply
-/

namespace InscriptionLedger

/-- The satoshis of a bitcoin. -/
def coinValue : Nat := 100000000

/-- The blocks of an epoch. -/
def halvingInterval : Nat := 210000

/-- The blocks between two adjustments of the difficulty. -/
def adjustmentInterval : Nat := 2016

/-- The epochs of a cycle, after which halving and adjustment coincide. -/
def cycleEpochs : Nat := 6

/-- The first epoch whose blocks mine nothing. -/
def barrenEpoch : Nat := 33

/-- The number of all satoshis. -/
def supply : Nat := 2099999997690000

/-- The number of the last satoshi. -/
def lastSat : Nat := supply - 1

/-- The satoshis that a block of an epoch mines. -/
def subsidy (epoch : Nat) : Nat :=
  if epoch < barrenEpoch then (50 * coinValue) >>> epoch else 0

/-- The satoshis that a block of an epoch mines; there are no negative epochs. -/
def subsidyAt? (epoch : Int) : Outcome Nat :=
  if epoch < 0 then .error .unreadable else .ok (subsidy epoch.toNat)

/-- The number of the first satoshi of an epoch. -/
def epochStart : Nat → Nat
  | 0 => 0
  | epoch + 1 => epochStart epoch + subsidy epoch * halvingInterval

/-- All epochs together mine the supply. -/
theorem supply_eq : epochStart barrenEpoch = supply := by decide

/-- A satoshi, by its number. -/
structure Sat where
  number : Nat
  number_le : number ≤ lastSat

namespace Sat

/-- The satoshi of a number. -/
def ofNumber? (n : Int) : Outcome Sat :=
  if h : 0 ≤ n ∧ n ≤ lastSat then .ok ⟨n.toNat, by omega⟩
  else do
    requireWritable (Numeral.isShort n)
    throw (.value (.satRange n))

theorem ofNumber?_of_outside {n : Int} (h : ¬(0 ≤ n ∧ n ≤ lastSat)) :
    ofNumber? n = .error (.value (if Numeral.isShort n then .satRange n else .unwritable)) := by
  rw [ofNumber?, dif_neg h]
  cases Numeral.isShort n <;> rfl

/-- The greatest epoch, up to a bound, that starts at or before a number. -/
def epochUpTo (n : Nat) : Nat → Nat
  | 0 => 0
  | epoch + 1 => if epochStart (epoch + 1) ≤ n then epoch + 1 else epochUpTo n epoch

/-- The epoch in which the satoshi is mined. -/
def epoch (s : Sat) : Nat := epochUpTo s.number barrenEpoch

/-- The satoshis mined before it in its epoch. -/
def epochPosition (s : Sat) : Nat := s.number - epochStart s.epoch

/-- The height of the block that mines it. -/
def height (s : Sat) : Nat := s.epoch * halvingInterval + s.epochPosition / subsidy s.epoch

/-- The satoshis mined before it in its block. -/
def third (s : Sat) : Nat := s.epochPosition % subsidy s.epoch

/-- The cycle of its epoch. -/
def cycle (s : Sat) : Nat := s.epoch / cycleEpochs

/-- The adjustment period of its block. -/
def period (s : Sat) : Nat := s.height / adjustmentInterval

end Sat

/-- A place in the cycles: the cycle, the block's place in its epoch and in its adjustment period,
and the satoshi's place in its block. -/
structure Degree where
  hour : Nat
  minute : Nat
  second : Nat
  third : Nat
  deriving DecidableEq, Repr

/-- The text of a degree, such as `0°1′1″0‴`. -/
def Degree.text (d : Degree) : String :=
  Numeral.write d.hour ++ "°" ++ Numeral.write d.minute ++ "′" ++ Numeral.write d.second ++ "″"
    ++ Numeral.write d.third ++ "‴"

namespace Sat

/-- The satoshi's place in the cycles. -/
def degree (s : Sat) : Degree where
  hour := s.height / (cycleEpochs * halvingInterval)
  minute := s.height % halvingInterval
  second := s.height % adjustmentInterval
  third := s.third

/-- The block and the place in it, with a point between them. -/
def decimal (s : Sat) : String := Numeral.write s.height ++ "." ++ Numeral.write s.third

/-- The share of the supply mined before the satoshi, in percent. -/
def percentile (s : Sat) : String :=
  let share := Binary64.ofRatio false s.number lastSat
  Decimal.write .plain (share.mul (.ofInt 100)) ++ "%"

end Sat

end InscriptionLedger
