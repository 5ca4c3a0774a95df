import InscriptionLedger.Proofs.NumeralText
import InscriptionLedger.Sat.Basic

/-!
# Places of satoshis

Satoshis are numbered in the order in which they are mined, so that a number is as many as the
blocks below its own mine and its place in that block. Within an epoch each block mines as much,
which is why the block and the place are a quotient and a remainder. The degree of a satoshi keeps
of the height only its cycle and its places in the epoch and in the adjustment period; they still
tell it, since a cycle is the shortest time that holds epochs and adjustment periods in whole.

## Main definitions

* `blockSubsidy height`, `minedBefore height`: what a block mines, and what the blocks below mine
* `Sat.IsPlaced`: a satoshi whose block and place tell its number

## Main results

* `minedBefore_mul_halvingInterval`: the blocks below an epoch mine the satoshis before it
* `Sat.number_eq`: the number of a satoshi, by its block and its place
* `Sat.isPlaced_and_exists_unique`: each place in a block is that of one satoshi, and no other place
  is
* `Sat.degree_eq_iff`: satoshis are told apart by their degrees, and by the texts of these
-/

namespace InscriptionLedger

/-! ## What blocks mine -/

/-- The satoshis that the block of a height mines. -/
def blockSubsidy (height : Nat) : Nat := subsidy (height / halvingInterval)

/-- The satoshis that the blocks below a height mine. -/
def minedBefore (height : Nat) : Nat := ∑ h ∈ Finset.range height, blockSubsidy h

theorem minedBefore_succ (height : Nat) :
    minedBefore (height + 1) = minedBefore height + blockSubsidy height :=
  Finset.sum_range_succ _ _

theorem minedBefore_mono : Monotone minedBefore := by
  refine monotone_nat_of_le_succ fun height => ?_
  rw [minedBefore_succ]
  exact Nat.le_add_right _ _

theorem add_div_halvingInterval (epoch : Nat) {block : Nat} (h : block < halvingInterval) :
    (epoch * halvingInterval + block) / halvingInterval = epoch := by
  rw [Nat.add_comm, Nat.add_mul_div_right _ _ (by decide), Nat.div_eq_of_lt h, Nat.zero_add]

theorem blockSubsidy_add (epoch : Nat) {block : Nat} (h : block < halvingInterval) :
    blockSubsidy (epoch * halvingInterval + block) = subsidy epoch := by
  rw [blockSubsidy, add_div_halvingInterval epoch h]

/-- The blocks of an epoch all mine as much. -/
theorem minedBefore_add (epoch : Nat) {blocks : Nat} (h : blocks ≤ halvingInterval) :
    minedBefore (epoch * halvingInterval + blocks) =
      minedBefore (epoch * halvingInterval) + subsidy epoch * blocks := by
  induction blocks with
  | zero => rw [Nat.add_zero, Nat.mul_zero, Nat.add_zero]
  | succ block ih =>
    rw [← Nat.add_assoc, minedBefore_succ, ih (by omega), blockSubsidy_add epoch h,
      Nat.mul_succ, Nat.add_assoc]

/-- The blocks below an epoch mine the satoshis before it. -/
theorem minedBefore_mul_halvingInterval (epoch : Nat) :
    minedBefore (epoch * halvingInterval) = epochStart epoch := by
  induction epoch with
  | zero => simp [minedBefore, epochStart]
  | succ epoch ih => rw [Nat.succ_mul, minedBefore_add epoch le_rfl, ih, epochStart]

/-- Before a higher block starts, a lower one has mined all that it mines. -/
theorem minedBefore_add_lt {height height' third : Nat} (hlt : height < height')
    (h : third < blockSubsidy height) : minedBefore height + third < minedBefore height' := by
  have hbelow := minedBefore_mono (Nat.succ_le_of_lt hlt)
  rw [Nat.succ_eq_add_one, minedBefore_succ] at hbelow
  omega

/-- A block and a place in it are told by the satoshis mined before. -/
theorem eq_of_minedBefore_add_eq {height height' third third' : Nat}
    (h : third < blockSubsidy height) (h' : third' < blockSubsidy height')
    (heq : minedBefore height + third = minedBefore height' + third') :
    height = height' ∧ third = third' := by
  rcases Nat.lt_trichotomy height height' with hlt | rfl | hlt
  · have hbelow := minedBefore_add_lt hlt h
    omega
  · exact ⟨rfl, Nat.add_left_cancel heq⟩
  · have hbelow := minedBefore_add_lt hlt h'
    omega

/-! ## The epoch of a satoshi -/

namespace Sat

theorem epochStart_epochUpTo_le (n bound : Nat) : epochStart (epochUpTo n bound) ≤ n := by
  induction bound with
  | zero => exact Nat.zero_le n
  | succ bound ih =>
    rw [epochUpTo]
    split
    · next hstart => exact hstart
    · exact ih

/-- Epochs up to the bound that start at or before a number are not behind the one found. -/
theorem le_epochUpTo {n bound epoch : Nat} (hbound : epoch ≤ bound)
    (hstart : epochStart epoch ≤ n) : epoch ≤ epochUpTo n bound := by
  induction bound with
  | zero => exact hbound
  | succ bound ih =>
    rw [epochUpTo]
    split
    · exact hbound
    · next hlater =>
      have hne : epoch ≠ bound + 1 := by
        rintro rfl
        exact hlater hstart
      exact ih (by omega)

variable (s : Sat)

theorem epochStart_epoch_le : epochStart s.epoch ≤ s.number := epochStart_epochUpTo_le _ _

theorem epoch_lt : s.epoch < barrenEpoch := by
  by_contra hge
  have hstarts : epochStart barrenEpoch ≤ epochStart s.epoch := by
    rw [← minedBefore_mul_halvingInterval, ← minedBefore_mul_halvingInterval]
    exact minedBefore_mono (Nat.mul_le_mul_right _ (by omega))
  have hstart := s.epochStart_epoch_le
  have hnumber := s.number_le
  rw [supply_eq] at hstarts
  unfold lastSat at hnumber
  have : 0 < supply := by decide
  omega

theorem number_lt_epochStart_succ : s.number < epochStart (s.epoch + 1) := by
  by_contra hge
  have hlater : s.epoch + 1 ≤ s.epoch := le_epochUpTo s.epoch_lt (by omega)
  omega

/-- A satoshi stands among those that the blocks of its epoch mine. -/
theorem epochPosition_lt : s.epochPosition < subsidy s.epoch * halvingInterval := by
  have hend := s.number_lt_epochStart_succ
  have hstart := s.epochStart_epoch_le
  rw [epochStart] at hend
  unfold epochPosition
  omega

theorem subsidy_epoch_pos : 0 < subsidy s.epoch := by
  apply Nat.pos_of_mul_pos_right
  exact Nat.zero_lt_of_lt s.epochPosition_lt

/-! ## The block of a satoshi -/

theorem height_lt_of_epoch : s.epochPosition / subsidy s.epoch < halvingInterval := by
  rw [Nat.div_lt_iff_lt_mul s.subsidy_epoch_pos, Nat.mul_comm]
  exact s.epochPosition_lt

theorem blockSubsidy_height : blockSubsidy s.height = subsidy s.epoch :=
  blockSubsidy_add s.epoch s.height_lt_of_epoch

theorem height_div_halvingInterval : s.height / halvingInterval = s.epoch :=
  add_div_halvingInterval s.epoch s.height_lt_of_epoch

theorem third_lt : s.third < blockSubsidy s.height := by
  rw [blockSubsidy_height]
  exact Nat.mod_lt _ s.subsidy_epoch_pos

/-- The number of a satoshi is as many as the blocks below its own mine, and its place in the
block. -/
theorem number_eq : s.number = minedBefore s.height + s.third := by
  have hstart := s.epochStart_epoch_le
  calc s.number = epochStart s.epoch + s.epochPosition := by unfold epochPosition; omega
    _ = epochStart s.epoch +
        (subsidy s.epoch * (s.epochPosition / subsidy s.epoch) + s.third) := by
      rw [third, Nat.div_add_mod]
    _ = minedBefore s.height + s.third := by
      rw [height, minedBefore_add s.epoch s.height_lt_of_epoch.le,
        minedBefore_mul_halvingInterval, Nat.add_assoc]

theorem eq_of_number_eq {s t : Sat} (h : s.number = t.number) : s = t := by
  cases s
  cases t
  cases h
  rfl

/-- The satoshi of a number is the one that has the number. -/
theorem ofNumber?_eq_ok_iff {n : Int} {s : Sat} : ofNumber? n = .ok s ↔ (s.number : Int) = n := by
  have hlast := s.number_le
  by_cases hn : 0 ≤ n ∧ n ≤ lastSat
  · rw [ofNumber?, dif_pos hn, Except.ok.injEq]
    constructor
    · rintro rfl
      dsimp only
      omega
    · exact fun h => eq_of_number_eq (by dsimp only; omega)
  · rw [ofNumber?_of_outside hn]
    constructor
    · intro h
      cases h
    · omega

/-- Satoshis are told apart by their blocks and their places in these. -/
theorem eq_of_height_eq_of_third_eq {s t : Sat} (hheight : s.height = t.height)
    (hthird : s.third = t.third) : s = t := by
  apply eq_of_number_eq
  rw [s.number_eq, t.number_eq, hheight, hthird]

/-- A satoshi whose block and place tell its number: its epoch mines something, so that it has a
block and a place there, these are within their ranges, and the numbers below its own are mined
before. -/
structure IsPlaced (s : Sat) : Prop where
  subsidy_pos : 0 < subsidy s.epoch
  epoch : s.epoch = s.height / halvingInterval
  cycle : s.cycle = s.degree.hour
  height_lt : s.height < barrenEpoch * halvingInterval
  third_lt : s.third < blockSubsidy s.height
  number : s.number = minedBefore s.height + s.third

theorem isPlaced : s.IsPlaced where
  subsidy_pos := s.subsidy_epoch_pos
  epoch := s.height_div_halvingInterval.symm
  cycle := by
    change s.epoch / cycleEpochs = s.height / (cycleEpochs * halvingInterval)
    rw [Nat.mul_comm, ← Nat.div_div_eq_div_mul, height_div_halvingInterval]
  height_lt := by
    rw [← Nat.div_lt_iff_lt_mul (by decide), height_div_halvingInterval]
    exact s.epoch_lt
  third_lt := s.third_lt
  number := s.number_eq

/-- Each place in a block below the barren epochs is that of a satoshi. -/
theorem exists_of_place {height third : Nat} (hheight : height < barrenEpoch * halvingInterval)
    (hthird : third < blockSubsidy height) : ∃ s : Sat, s.height = height ∧ s.third = third := by
  have hlast : minedBefore height + third ≤ lastSat := by
    have hbelow := minedBefore_add_lt hheight hthird
    rw [minedBefore_mul_halvingInterval, supply_eq] at hbelow
    unfold lastSat
    omega
  let s : Sat := ⟨minedBefore height + third, hlast⟩
  exact ⟨s, eq_of_minedBefore_add_eq s.third_lt hthird s.number_eq.symm⟩

/-- The numbers up to the last, and no others, are those of satoshis, each of which has a block and
a place there that tell the number; and the places in the blocks below the barren epochs, and no
others, are each that of exactly one satoshi. -/
theorem isPlaced_and_exists_unique :
    (∀ n : Int, 0 ≤ n ∧ n ≤ lastSat ↔
      ∃ s : Sat, ofNumber? n = .ok s ∧ (s.number : Int) = n ∧ s.IsPlaced) ∧
    ∀ height third : Nat,
      height < barrenEpoch * halvingInterval ∧ third < blockSubsidy height ↔
        ∃! s : Sat, s.height = height ∧ s.third = third := by
  refine ⟨fun n => ⟨?_, ?_⟩, fun height third => ⟨?_, ?_⟩⟩
  · intro hn
    let s : Sat := ⟨n.toNat, by omega⟩
    have hnumber : (s.number : Int) = n := Int.toNat_of_nonneg hn.1
    exact ⟨s, ofNumber?_eq_ok_iff.2 hnumber, hnumber, s.isPlaced⟩
  · rintro ⟨s, -, rfl, -⟩
    exact ⟨Int.natCast_nonneg _, Int.ofNat_le.2 s.number_le⟩
  · rintro ⟨hheight, hthird⟩
    obtain ⟨s, rfl, rfl⟩ := exists_of_place hheight hthird
    exact ⟨s, ⟨rfl, rfl⟩, fun t ht => eq_of_height_eq_of_third_eq ht.1 ht.2⟩
  · rintro ⟨s, ⟨rfl, rfl⟩, -⟩
    exact ⟨s.isPlaced.height_lt, s.third_lt⟩

end Sat

/-! ## Degrees -/

/-- A cycle is the shortest time that holds epochs and adjustment periods in whole. -/
theorem lcm_halvingInterval_adjustmentInterval :
    Nat.lcm halvingInterval adjustmentInterval = cycleEpochs * halvingInterval := by
  decide

/-- A height is told by its cycle, its place in the epoch and its place in the adjustment period. -/
theorem eq_of_cycle_of_places {m n : Nat}
    (hcycle : m / (cycleEpochs * halvingInterval) = n / (cycleEpochs * halvingInterval))
    (hepoch : m % halvingInterval = n % halvingInterval)
    (hperiod : m % adjustmentInterval = n % adjustmentInterval) : m = n := by
  have hplace : m % (cycleEpochs * halvingInterval) = n % (cycleEpochs * halvingInterval) := by
    rw [← lcm_halvingInterval_adjustmentInterval]
    exact Nat.mod_lcm hepoch hperiod
  rw [← Nat.div_add_mod m (cycleEpochs * halvingInterval), hcycle, hplace, Nat.div_add_mod]

theorem Degree.toList_text (d : Degree) :
    d.text.toList = Numeral.natChars d.hour ++ '°' :: (Numeral.natChars d.minute ++ '′' ::
      (Numeral.natChars d.second ++ '″' :: (Numeral.natChars d.third ++ ['‴']))) := by
  simp [text, Numeral.write]

/-- Degrees are told apart by their texts, since no sign in these is one of a numeral. -/
theorem Degree.text_injective : Function.Injective Degree.text := by
  intro d e h
  have hchars : d.text.toList = e.text.toList := by rw [h]
  rw [toList_text, toList_text, Numeral.natChars_append_cons_inj (by decide),
    Numeral.natChars_append_cons_inj (by decide), Numeral.natChars_append_cons_inj (by decide),
    Numeral.natChars_append_cons_inj (by decide)] at hchars
  obtain ⟨hhour, hminute, hsecond, hthird, -⟩ := hchars
  cases d
  cases e
  rw [Degree.mk.injEq]
  exact ⟨hhour, hminute, hsecond, hthird⟩

theorem Sat.degree_injective : Function.Injective Sat.degree := by
  intro s t h
  rw [degree, degree, Degree.mk.injEq] at h
  obtain ⟨hcycle, hepoch, hperiod, hthird⟩ := h
  exact eq_of_height_eq_of_third_eq (eq_of_cycle_of_places hcycle hepoch hperiod) hthird

/-- Satoshis are told apart by their degrees, and also by the texts of their degrees. -/
theorem Sat.degree_eq_iff (s t : Sat) :
    (s.degree = t.degree ↔ s.number = t.number) ∧
      (s.degree.text = t.degree.text ↔ s.number = t.number) := by
  have hnumber : s.number = t.number ↔ s = t := ⟨eq_of_number_eq, congrArg Sat.number⟩
  rw [Degree.text_injective.eq_iff, degree_injective.eq_iff, hnumber]
  exact ⟨Iff.rfl, Iff.rfl⟩

end InscriptionLedger
