import InscriptionLedger.Amount
import InscriptionLedger.Proofs.DecimalTexts
import InscriptionLedger.Proofs.Outcome

/-!
# Amounts rounded to satoshis

The satoshis of an amount are rounded twice: the product to the working precision, then to an
integer. An amount that fits the working precision loses nothing in the first rounding, since its
product with a power of ten has no more digits. Its satoshis are therefore the integer nearest to
the product, a tie going to the even neighbour; they are exact where the product is an integer, grow
with the amount and change their sign with it. A product beyond the range of decimals has none, and
a literal has a wider range of its own: the first digit's exponent is at most `maxLiteralMagnitude`
and the last digit's at least `minLiteralExponent`, which for a zero counts as well.

## Main definitions

* `Denotes s x`: the texts of a number
* `IsUnrepresentable s`: the texts of decimals beyond the range of literals
* `HasDigits digits x`: the numbers with at most so many significant digits
* `IsAmount v x`: the values whose text is a number within the working precision
* `IsInRange x`: the amounts whose satoshis are within the range of decimals
* `IsConverted v x n`: a value has these satoshis, and they are nearest to the product
* `inCoins sats`: the amount of so many satoshis

## Main results

* `denotes_iff`: the texts of a number are those that are read as a decimal of its value
* `IsAmount.ofJson_of_inCoins`: the amount of satoshis is converted to them
* `ofJson_of_isAmount`: an amount in range has the nearest satoshis, and one beyond it has none
* `ofJson_of_isUnrepresentable`: what is no literal has none either
* `not_forall_isConverted`: an amount within the range of decimals may have satoshis beyond it
-/

namespace InscriptionLedger.Amount

open Decimal Numeral Text

/-! ## Numbers and their texts -/

/-- The number of a sign and a magnitude. -/
def withSign (negative : Bool) (x : ℚ) : ℚ := if negative then -x else x

theorem abs_withSign (negative : Bool) (d : Scientific) :
    |withSign negative d.value| = d.value := by
  cases negative with
  | false => exact abs_of_nonneg d.value_nonneg
  | true => exact (abs_neg d.value).trans (abs_of_nonneg d.value_nonneg)

theorem withSign_mul (negative : Bool) (x y : ℚ) :
    withSign negative x * y = withSign negative (x * y) := by
  cases negative with
  | false => rfl
  | true => exact neg_mul x y

@[simp] theorem withSign_zero (negative : Bool) : withSign negative 0 = 0 := by
  cases negative with
  | false => rfl
  | true => exact neg_zero

/-- The characters of a text that count: those between the blanks around it, without underscores. -/
def spelling (s : String) : List Char := (trimBy isBlank s.toList).filter (· != '_')

/-- A text stands for a number: it spells a decimal of that value, within the range of literals. -/
def Denotes (s : String) (x : ℚ) : Prop :=
  ∃ negative d, Spells (spelling s) negative d ∧ isRepresentable d ∧ x = withSign negative d.value

/-- A text spells a decimal that is beyond the range of literals. -/
def IsUnrepresentable (s : String) : Prop :=
  ∃ negative d, Spells (spelling s) negative d ∧ isRepresentable d = false

/-- The texts of a number are those that are read as a decimal of its value. -/
theorem denotes_iff {s : String} {x : ℚ} :
    Denotes s x ↔ ∃ negative d,
      Literal.ofAmount? s = some (.number negative d.coefficient d.exponent) ∧
        isRepresentable d ∧ x = withSign negative d.value := by
  simp only [Denotes, spelling, Literal.ofAmount?, Literal.ofChars?_eq_some_number_iff]

/-- A number has at most so many significant digits. -/
def HasDigits (digits : ℕ) (x : ℚ) : Prop :=
  ∃ (m : ℕ) (j : ℤ), m < 10 ^ digits ∧ |x| = m * 10 ^ j

/-- The text of a value, which can be written, stands for a number that fits the working
precision. -/
structure IsAmount (v : Json) (x : ℚ) : Prop where
  short : v.isShort = true
  denotes : Denotes v.shown x
  digits : HasDigits precision x

/-- The satoshis of an amount are within the range of decimals. -/
def IsInRange (x : ℚ) : Prop := |x| * satsPerCoin < 10 ^ (maxMagnitude + 1)

instance : DecidablePred IsInRange := fun x =>
  inferInstanceAs (Decidable (|x| * satsPerCoin < 10 ^ (maxMagnitude + 1)))

/-- Fewer satoshis than the working precision can count are in range. -/
theorem isInRange_of_lt {x : ℚ} (h : |x| * satsPerCoin < 10 ^ precision) : IsInRange x := by
  refine h.trans_le ?_
  rw [← zpow_natCast]
  exact zpow_le_zpow_right₀ (by norm_num) (by decide)

/-- The coins of so many satoshis. -/
def inCoins (sats : ℤ) : ℚ := sats / satsPerCoin

theorem inCoins_mul_satsPerCoin (sats : ℤ) : inCoins sats * satsPerCoin = sats :=
  div_mul_cancel₀ _ (by decide)

/-- A value has these satoshis, which are the integer nearest to those of its number. -/
structure IsConverted (v : Json) (x : ℚ) (n : ℤ) : Prop where
  ofJson_eq : ofJson v = .ok n
  nearest : IsNearestEven (x * satsPerCoin) n

theorem hasDigits_withSign {digits : ℕ} {negative : Bool} {d : Scientific} :
    HasDigits digits (withSign negative d.value) ↔ HasDigits digits d.value := by
  rw [HasDigits, HasDigits, abs_withSign, abs_of_nonneg d.value_nonneg]

/-- A text that spells a decimal with few enough digits is an amount. -/
theorem isAmount_of_spells {s : String} {x : ℚ} {cs : List Char} {negative : Bool} {d : Scientific}
    (htext : spelling s = cs) (h : Spells cs negative d) (hx : x = withSign negative d.value)
    (hrepresentable : isRepresentable d) (hdigits : d.coefficient < 10 ^ precision) :
    IsAmount (.text s) x where
  short := rfl
  denotes := ⟨negative, d, htext ▸ h, hrepresentable, hx⟩
  digits := hx ▸ hasDigits_withSign.2
    ⟨d.coefficient, d.exponent, hdigits, abs_of_nonneg d.value_nonneg⟩

/-! ## One rounding -/

/-- The digits of a number are those in front of a decimal's last zeros. -/
theorem exists_eq_mul_of_hasDigits {digits : ℕ} {d : Scientific} (h : HasDigits digits d.value) :
    ∃ m k, d.coefficient = m * 10 ^ k ∧ m < 10 ^ digits := by
  obtain ⟨m, j, hm, hvalue⟩ := h
  rw [abs_of_nonneg d.value_nonneg, Scientific.value] at hvalue
  have hten : (10 : ℚ) ≠ 0 := by norm_num
  -- Either the decimal has zeros behind the digits of the number, or it has no more digits.
  rcases le_total d.exponent j with hle | hle
  · obtain ⟨k, hk⟩ := Int.eq_ofNat_of_zero_le (sub_nonneg.2 hle)
    refine ⟨m, k, ?_, hm⟩
    have hsplit : (10 : ℚ) ^ j = 10 ^ k * 10 ^ d.exponent := by
      rw [(by omega : j = k + d.exponent), zpow_add₀ hten, zpow_natCast]
    rw [hsplit, ← mul_assoc, mul_left_inj' (zpow_ne_zero _ hten)] at hvalue
    exact_mod_cast hvalue
  · obtain ⟨k, hk⟩ := Int.eq_ofNat_of_zero_le (sub_nonneg.2 hle)
    refine ⟨d.coefficient, 0, by simp, lt_of_le_of_lt ?_ hm⟩
    have hsplit : (10 : ℚ) ^ d.exponent = 10 ^ k * 10 ^ j := by
      rw [(by omega : d.exponent = k + j), zpow_add₀ hten, zpow_natCast]
    rw [hsplit, ← mul_assoc, mul_left_inj' (zpow_ne_zero _ hten)] at hvalue
    have hm : d.coefficient * 10 ^ k = m := by exact_mod_cast hvalue
    rw [← hm]
    exact Nat.le_mul_of_pos_right _ (Nat.pow_pos (by decide))

/-- The satoshis of a decimal before they are rounded. -/
def product (d : Scientific) : Scientific := ⟨d.coefficient * satsPerCoin, d.exponent⟩

theorem value_product (d : Scientific) : (product d).value = d.value * satsPerCoin := by
  rw [product, Scientific.value, Scientific.value]
  push_cast
  ring

/-- The first rounding keeps the product of a decimal that fits the working precision. -/
theorem value_roundTo_product {d : Scientific} (h : HasDigits precision d.value) :
    ((product d).roundTo precision).value = d.value * satsPerCoin := by
  obtain ⟨m, k, hcoefficient, hm⟩ := exists_eq_mul_of_hasDigits h
  have hproduct : (product d).coefficient = m * 10 ^ (k + 8) := by
    rw [product, hcoefficient, pow_add, mul_assoc]
    rfl
  rw [Scientific.value_roundTo hproduct (by decide) hm, value_product]

/-- The satoshis are beyond the range if the product is. -/
theorem lt_magnitude_roundTo_iff {d : Scientific} (h : HasDigits precision d.value)
    (hne : d.coefficient ≠ 0) :
    maxMagnitude < ((product d).roundTo precision).magnitude ↔
      10 ^ (maxMagnitude + 1) ≤ d.value * satsPerCoin := by
  have hvalue := value_roundTo_product h
  have hproduct : ((product d).roundTo precision).coefficient ≠ 0 := by
    rw [Ne, ← Scientific.value_eq_zero_iff, hvalue, mul_eq_zero, Scientific.value_eq_zero_iff]
    exact not_or.2 ⟨hne, by decide⟩
  rw [Scientific.lt_magnitude_iff hproduct, hvalue]

theorem isNearestEven_withSign {negative : Bool} {x : ℚ} {n : ℕ} (h : IsNearestEven x n) :
    IsNearestEven (withSign negative x) (signed negative n) := by
  cases negative with
  | false => exact h
  | true => exact h.neg

/-! ## The satoshis of a text -/

section

variable {v : Json} {x : ℚ}

/-- A value whose text stands for a number is converted as one of its decimals. -/
theorem ofJson_of_denotes (hshort : v.isShort = true) (h : Denotes v.shown x) :
    ∃ negative d, x = withSign negative d.value ∧
      ofJson v =
        if d.coefficient = 0 then .ok 0
        else if maxMagnitude < ((product d).roundTo precision).magnitude then .error .decimalRange
        else .ok (signed negative ((product d).roundTo precision).nearest) := by
  obtain ⟨negative, d, hliteral, hrepresentable, hx⟩ := denotes_iff.1 h
  refine ⟨negative, d, hx, ?_⟩
  rw [ofJson, Json.show?_eq_ite, if_pos hshort, Outcome.ok_bind, hliteral]
  exact if_pos hrepresentable

/-- A value whose text spells a decimal beyond the range of literals is not converted. -/
theorem ofJson_of_isUnrepresentable (hshort : v.isShort = true) (h : IsUnrepresentable v.shown) :
    ofJson v = .error .decimalText := by
  obtain ⟨negative, d, hspells, hbeyond⟩ := h
  have hliteral : Literal.ofAmount? v.shown = some (.number negative d.coefficient d.exponent) :=
    Literal.ofChars?_eq_some_number_iff.2 hspells
  rw [ofJson, Json.show?_eq_ite, if_pos hshort, Outcome.ok_bind, hliteral]
  exact if_neg (Bool.eq_false_iff.1 hbeyond)

/-- An amount in range has satoshis, and they are nearest to the product. -/
theorem IsAmount.exists_isConverted (h : IsAmount v x) (hrange : IsInRange x) :
    ∃ n, IsConverted v x n := by
  obtain ⟨negative, d, rfl, hread⟩ := ofJson_of_denotes h.short h.denotes
  have hdigits := hasDigits_withSign.1 h.digits
  rw [IsInRange, abs_withSign] at hrange
  by_cases hzero : d.coefficient = 0
  · rw [if_pos hzero] at hread
    refine ⟨0, hread, ?_⟩
    rw [Scientific.value_eq_zero_iff.2 hzero, withSign_mul, zero_mul, withSign_zero]
    exact .of_intCast 0
  · have hwithin := (lt_magnitude_roundTo_iff hdigits hzero).not.2 hrange.not_ge
    rw [if_neg hzero, if_neg hwithin] at hread
    refine ⟨_, hread, ?_⟩
    rw [withSign_mul, ← value_roundTo_product hdigits]
    exact isNearestEven_withSign (Scientific.isNearestEven_nearest _)

/-- An amount beyond the range has none. -/
theorem IsAmount.ofJson_of_not_isInRange (h : IsAmount v x) (hrange : ¬ IsInRange x) :
    ofJson v = .error .decimalRange := by
  obtain ⟨negative, d, rfl, hread⟩ := ofJson_of_denotes h.short h.denotes
  have hdigits := hasDigits_withSign.1 h.digits
  rw [IsInRange, abs_withSign, not_lt] at hrange
  have hne : d.coefficient ≠ 0 := by
    intro hzero
    rw [Scientific.value_eq_zero_iff.2 hzero, zero_mul] at hrange
    exact hrange.not_gt (by positivity)
  rw [hread, if_neg hne, if_pos ((lt_magnitude_roundTo_iff hdigits hne).2 hrange)]

/-- The amount of so many satoshis is converted to them, if they are in range. -/
theorem IsAmount.ofJson_of_inCoins {sats : ℤ} (h : IsAmount v (inCoins sats)) :
    ofJson v = if IsInRange (inCoins sats) then .ok sats else .error .decimalRange := by
  split
  case isTrue hrange =>
    obtain ⟨n, hn⟩ := h.exists_isConverted hrange
    have hnearest := hn.nearest
    rw [inCoins_mul_satsPerCoin] at hnearest
    rw [hn.ofJson_eq, hnearest.unique (.of_intCast sats)]
  case isFalse hrange => exact h.ofJson_of_not_isInRange hrange

/-! ## Amounts against each other -/

/-- An amount in range has the integer nearest to its satoshis, a tie going to the even neighbour:
exactly its satoshis where they are an integer, no more than a greater amount has, and the opposite
of what the opposite amount has. An amount beyond the range has none, and neither has a text beyond
the range of literals. -/
theorem ofJson_of_isAmount :
    (IsAmount v x → IsInRange x → ∃ n, IsConverted v x n ∧
      (∀ k : ℤ, x * satsPerCoin = k → n = k) ∧
      ∀ w y, IsAmount w y → IsInRange y →
        ∃ m, IsConverted w y m ∧ (x ≤ y → n ≤ m) ∧ (y = -x → m = -n)) ∧
    (IsAmount v x → ¬ IsInRange x → ofJson v = .error .decimalRange) ∧
    (v.isShort = true → IsUnrepresentable v.shown → ofJson v = .error .decimalText) := by
  refine ⟨fun h hrange => ?_, IsAmount.ofJson_of_not_isInRange, ofJson_of_isUnrepresentable⟩
  obtain ⟨n, hn⟩ := h.exists_isConverted hrange
  refine ⟨n, hn, fun k hk => ?exact, fun w y hw hrangew => ?against⟩
  case exact =>
    have hnearest := hn.nearest
    rw [hk] at hnearest
    exact hnearest.unique (.of_intCast k)
  case against =>
    obtain ⟨m, hm⟩ := hw.exists_isConverted hrangew
    refine ⟨m, hm, fun hle => ?_, fun hneg => ?_⟩
    · exact hn.nearest.le_of_le hm.nearest (mul_le_mul_of_nonneg_right hle (Nat.cast_nonneg _))
    · have hnearest := hm.nearest
      rw [hneg, neg_mul] at hnearest
      exact hnearest.unique hn.nearest.neg

end

/-- Blanks, underscores and zeros at the end do not matter, and a tie goes to the even neighbour on
both sides of zero. -/
theorem ofJson_of_isAmount_tie :
    IsAmount (.text " -2_.50e-8 ") (-25 / 10 ^ 9) ∧ IsInRange (-25 / 10 ^ 9) ∧
      ofJson (.text " -2_.50e-8 ") = .ok (-2) ∧
      IsAmount (.text "0.000000025") (25 / 10 ^ 9) ∧ IsInRange (25 / 10 ^ 9) ∧
      ofJson (.text "0.000000025") = .ok 2 := by
  have hminus : IsAmount (.text " -2_.50e-8 ") (-25 / 10 ^ 9) := by
    have htail : IsExponent ['e', '-', '8'] (-8) :=
      .given (.inl rfl) .minus (areDigits_map_digitChar [8] (by decide)) (by decide)
    have hspells : Spells "-2.50e-8".toList true ⟨250, -10⟩ :=
      .intro .minus (areDigits_map_digitChar [2] (by decide))
        (.point (areDigits_map_digitChar [5, 0] (by decide))) htail (by decide)
    have hvalue : -25 / 10 ^ 9 = withSign true (Scientific.value ⟨250, -10⟩) := by
      norm_num [withSign, Scientific.value]
    exact isAmount_of_spells (by decide +kernel) hspells hvalue (by decide +kernel) (by decide)
  have hplus : IsAmount (.text "0.000000025") (25 / 10 ^ 9) := by
    have hspells : Spells "0.000000025".toList false ⟨25, -9⟩ :=
      .intro .absent (areDigits_map_digitChar [0] (by decide))
        (.point (areDigits_map_digitChar [0, 0, 0, 0, 0, 0, 0, 2, 5] (by decide))) .absent
        (by decide)
    have hvalue : 25 / 10 ^ 9 = withSign false (Scientific.value ⟨25, -9⟩) := by
      norm_num [withSign, Scientific.value]
    exact isAmount_of_spells (by decide +kernel) hspells hvalue (by decide +kernel) (by decide)
  have hrangeMinus : IsInRange (-25 / 10 ^ 9) :=
    isInRange_of_lt (by norm_num [satsPerCoin, precision, abs_div])
  have hrangePlus : IsInRange (25 / 10 ^ 9) :=
    isInRange_of_lt (by norm_num [satsPerCoin, precision, abs_div])
  obtain ⟨n, hn, -, hagainst⟩ := ofJson_of_isAmount.1 hminus hrangeMinus
  obtain ⟨m, hm, -, hopposite⟩ := hagainst _ _ hplus hrangePlus
  have htwo : IsNearestEven (-25 / 10 ^ 9 * satsPerCoin) (-2) := by
    constructor
    · norm_num [satsPerCoin, abs_le]
    · exact fun _ => by decide
  obtain rfl := hn.nearest.unique htwo
  obtain rfl := hopposite (by norm_num)
  exact ⟨hminus, hrangeMinus, hn.ofJson_eq, hplus, hrangePlus, hm.ofJson_eq⟩

/-! ## The end of the range -/

/-- A number that is zero or has its first digit within the range of decimals. -/
def IsInContext (x : ℚ) : Prop :=
  x ≠ 0 → 10 ^ (-maxMagnitude) ≤ |x| ∧ |x| < 10 ^ (maxMagnitude + 1)

theorem exists_inCoins_beyond : ∃ sats, inCoins sats = 10 ^ (999992 : ℤ) := by
  have hall (k : ℕ) : inCoins (10 ^ k * satsPerCoin) = 10 ^ (k : ℤ) := by
    rw [inCoins, zpow_natCast]
    push_cast
    exact mul_div_cancel_right₀ _ (by decide)
  exact ⟨_, hall 999992⟩

theorem isAmount_beyond : IsAmount (.text "1E+999992") (10 ^ (999992 : ℤ)) := by
  have hspells : Spells "1E+999992".toList false ⟨1, 999992⟩ :=
    .intro .absent (areDigits_map_digitChar [1] (by decide)) .absent
      (.given (.inr rfl) .plus (areDigits_map_digitChar [9, 9, 9, 9, 9, 2] (by decide))
        (by decide)) (by decide)
  have hvalue : 10 ^ (999992 : ℤ) = withSign false (Scientific.value ⟨1, 999992⟩) := by
    rw [withSign, if_neg (by decide), Scientific.value, Nat.cast_one, one_mul]
  exact isAmount_of_spells (by decide +kernel) hspells hvalue (by decide +kernel) (by decide)

theorem not_isInRange_beyond : ¬ IsInRange (10 ^ (999992 : ℤ)) := by
  have hsats : (satsPerCoin : ℚ) = 10 ^ (8 : ℤ) := by norm_num [satsPerCoin]
  rw [IsInRange, abs_of_pos (by positivity), hsats, ← zpow_add₀ (by norm_num)]
  exact lt_irrefl _

/-- The satoshis of an amount within the range of decimals may be beyond it. -/
theorem not_forall_isConverted :
    ¬ ∀ v x, IsAmount v x → IsInContext x → ∃ n, IsConverted v x n := by
  intro hall
  have hcontext : IsInContext (10 ^ (999992 : ℤ)) := by
    rw [IsInContext, abs_of_pos (by positivity)]
    exact fun _ => ⟨zpow_le_zpow_right₀ (by norm_num) (by decide),
      zpow_lt_zpow_right₀ (by norm_num) (by decide)⟩
  obtain ⟨n, hn⟩ := hall _ _ isAmount_beyond hcontext
  have hfails := hn.ofJson_eq
  rw [isAmount_beyond.ofJson_of_not_isInRange not_isInRange_beyond] at hfails
  cases hfails

end InscriptionLedger.Amount
