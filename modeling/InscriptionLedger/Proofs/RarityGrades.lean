import InscriptionLedger.Proofs.SatPlaces
import InscriptionLedger.Sat.Rarity

/-!
# Grades of rarity on the chain

The rarity of a satoshi is read off its degree, whose parts are a quotient and remainders of the
height. On the chain it means this: only the first satoshi of a block is rarer than common, and the
very first block is above all others, the first block of a cycle above that of an epoch, and that of
an epoch above that of an adjustment period. The conditions overlap, since a block starts a cycle
exactly if it starts an epoch and an adjustment period at once.

## Main definitions

* `Sat.IsMinedIn`, `Sat.IsFirstOf`: the block that mines a satoshi, and the first satoshi of a block
* `Sat.IsGraded`: a satoshi whose rarity is told by its place on the chain

## Main results

* `cycle_dvd_iff`: the blocks that start a cycle
* `Sat.rarity_eq`: the rarity of a satoshi, by what its block starts
* `Sat.isMinedIn_iff_and_isGraded`: each satoshi is mined in one block, and is graded by it
-/

namespace InscriptionLedger

/-! ## Blocks that start a cycle -/

/-- A block starts a cycle exactly if it starts an epoch and an adjustment period. -/
theorem cycle_dvd_iff (height : Nat) :
    cycleEpochs * halvingInterval ∣ height ↔
      halvingInterval ∣ height ∧ adjustmentInterval ∣ height := by
  rw [← lcm_halvingInterval_adjustmentInterval, Nat.lcm_dvd_iff]

/-- The first cycle has no other block than the very first that starts a cycle. -/
theorem eq_zero_iff_of_cycle (height : Nat) :
    height = 0 ↔ height / (cycleEpochs * halvingInterval) = 0 ∧
      cycleEpochs * halvingInterval ∣ height := by
  constructor
  · rintro rfl
    exact ⟨Nat.zero_div _, Nat.dvd_zero _⟩
  · rintro ⟨hfirst, hstarts⟩
    rw [← Nat.div_mul_cancel hstarts, hfirst, Nat.zero_mul]

namespace Sat

variable (s : Sat)

/-! ## The block of a satoshi -/

/-- A block mines a satoshi: what the blocks below it mine ends before the satoshi, or just there,
and what they and it mine ends behind. -/
def IsMinedIn (s : Sat) (height : Nat) : Prop :=
  minedBefore height ≤ s.number ∧ s.number < minedBefore (height + 1)

/-- The first satoshi of a block has the number of all that the blocks below mine. -/
def IsFirstOf (s : Sat) (height : Nat) : Prop := s.number = minedBefore height

instance (height : Nat) : Decidable (s.IsFirstOf height) :=
  inferInstanceAs (Decidable (s.number = minedBefore height))

theorem isMinedIn_iff {height : Nat} : s.IsMinedIn height ↔ height = s.height := by
  have hnumber := s.number_eq
  constructor
  · rintro ⟨hstart, hend⟩
    rw [minedBefore_succ] at hend
    have hplace : s.number - minedBefore height < blockSubsidy height := by omega
    exact (eq_of_minedBefore_add_eq hplace s.third_lt (by omega)).1
  · rintro rfl
    have hplace := s.third_lt
    rw [IsMinedIn, minedBefore_succ]
    omega

theorem third_eq_zero_iff : s.third = 0 ↔ s.IsFirstOf s.height := by
  have hnumber := s.number_eq
  rw [IsFirstOf]
  omega

/-! ## The grade of a satoshi -/

/-- The rarity of a satoshi, by what its block starts. -/
theorem rarity_eq : s.rarity =
    if s.IsFirstOf s.height then
      if s.height = 0 then .mythic
      else if cycleEpochs * halvingInterval ∣ s.height then .legendary
      else if halvingInterval ∣ s.height then .epic
      else if adjustmentInterval ∣ s.height then .rare
      else .uncommon
    else .common := by
  have hepoch : s.degree.minute = 0 ↔ halvingInterval ∣ s.height :=
    Nat.dvd_iff_mod_eq_zero.symm
  have hperiod : s.degree.second = 0 ↔ adjustmentInterval ∣ s.height :=
    Nat.dvd_iff_mod_eq_zero.symm
  have hcycle : s.degree.minute = 0 ∧ s.degree.second = 0 ↔
      cycleEpochs * halvingInterval ∣ s.height := by
    rw [hepoch, hperiod, cycle_dvd_iff]
  have hzero : s.degree.hour = 0 ∧ s.degree.minute = 0 ∧ s.degree.second = 0 ↔ s.height = 0 := by
    rw [hcycle, eq_zero_iff_of_cycle s.height]
    rfl
  have hfirst : s.degree.third = 0 ↔ s.IsFirstOf s.height := s.third_eq_zero_iff
  simp only [← hzero, ← hcycle, ← hepoch, ← hperiod, ← hfirst]
  unfold rarity Degree.rarity
  by_cases h : s.degree.third = 0
  · simp [h]
  · simp [h]

/-- A satoshi whose rarity is told by its place on the chain: it is common unless it is the first of
its block; otherwise the grade tells whether the block is the very first, and if not whether it
starts a cycle, only an epoch, only an adjustment period, or nothing. -/
structure IsGraded (s : Sat) (height : Nat) : Prop where
  common : s.rarity = .common ↔ ¬s.IsFirstOf height
  mythic : s.rarity = .mythic ↔ s.IsFirstOf height ∧ height = 0
  legendary : s.rarity = .legendary ↔
    s.IsFirstOf height ∧ 0 < height ∧ cycleEpochs * halvingInterval ∣ height
  epic : s.rarity = .epic ↔
    s.IsFirstOf height ∧ halvingInterval ∣ height ∧ ¬cycleEpochs * halvingInterval ∣ height
  rare : s.rarity = .rare ↔
    s.IsFirstOf height ∧ adjustmentInterval ∣ height ∧ ¬halvingInterval ∣ height
  uncommon : s.rarity = .uncommon ↔
    s.IsFirstOf height ∧ ¬halvingInterval ∣ height ∧ ¬adjustmentInterval ∣ height

theorem isGraded : s.IsGraded s.height := by
  have hcycle := cycle_dvd_iff s.height
  have hzero := eq_zero_iff_of_cycle s.height
  -- The grades are gone through in the order in which they are tried; where one is found, the
  -- conditions of those above it fail, and so do those of the ones below.
  constructor <;> rw [rarity_eq] <;> split_ifs <;> grind

/-- Each satoshi is mined in the block of its height and in no other, and its rarity is told by its
place in that block and by what the block starts: a cycle where both an epoch and an adjustment
period start. -/
theorem isMinedIn_iff_and_isGraded :
    (∀ height, s.IsMinedIn height ↔ height = s.height) ∧ s.IsGraded s.height ∧
      (cycleEpochs * halvingInterval ∣ s.height ↔
        halvingInterval ∣ s.height ∧ adjustmentInterval ∣ s.height) :=
  ⟨fun _ => s.isMinedIn_iff, s.isGraded, cycle_dvd_iff s.height⟩

end Sat

end InscriptionLedger
