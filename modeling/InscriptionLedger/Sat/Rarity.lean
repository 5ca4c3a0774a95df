import InscriptionLedger.Sat.Name

/-!
# Rarity

The first satoshi of a block is rarer than the others, and the more of the cycles start with its
block the rarer it is.

## Main definitions

* `Rarity`, `Sat.rarity`: the grades, read off the degree
* `SatView`, `Sat.view`: all that is told of a satoshi
* `describeSat n`: the view of the satoshi of a number
-/

namespace InscriptionLedger

/-- The grades of rarity. -/
inductive Rarity
  | common
  | uncommon
  | rare
  | epic
  | legendary
  | mythic
  deriving DecidableEq, Repr

/-- The name of a grade. -/
def Rarity.text : Rarity → String
  | common => "common"
  | uncommon => "uncommon"
  | rare => "rare"
  | epic => "epic"
  | legendary => "legendary"
  | mythic => "mythic"

/-- The grade of a degree: which of its parts are zero. -/
def Degree.rarity (d : Degree) : Rarity :=
  if d.hour = 0 ∧ d.minute = 0 ∧ d.second = 0 ∧ d.third = 0 then .mythic
  else if d.minute = 0 ∧ d.second = 0 ∧ d.third = 0 then .legendary
  else if d.minute = 0 ∧ d.third = 0 then .epic
  else if d.second = 0 ∧ d.third = 0 then .rare
  else if d.third = 0 then .uncommon
  else .common

/-- The grade of a satoshi. -/
def Sat.rarity (s : Sat) : Rarity := s.degree.rarity

/-- All that is told of a satoshi. -/
structure SatView where
  number : Nat
  decimal : String
  degree : String
  percentile : String
  name : String
  cycle : Nat
  epoch : Nat
  period : Nat
  block : Nat
  offset : Nat
  rarity : Rarity
  deriving DecidableEq, Repr

/-- The view of a satoshi. -/
def Sat.view (s : Sat) : SatView where
  number := s.number
  decimal := s.decimal
  degree := s.degree.text
  percentile := s.percentile
  name := s.name
  cycle := s.cycle
  epoch := s.epoch
  period := s.period
  block := s.height
  offset := s.third
  rarity := s.rarity

/-- The view of the satoshi of a number. -/
def describeSat (n : Int) : Outcome SatView := (Sat.ofNumber? n).map Sat.view

/-- The members of a view. -/
def SatView.toJson (v : SatView) : Json :=
  .object [("number", .integer v.number), ("decimal", .text v.decimal), ("degree", .text v.degree),
    ("percentile", .text v.percentile), ("name", .text v.name), ("cycle", .integer v.cycle),
    ("epoch", .integer v.epoch), ("period", .integer v.period), ("block", .integer v.block),
    ("offset", .integer v.offset), ("rarity", .text v.rarity.text)]

end InscriptionLedger
