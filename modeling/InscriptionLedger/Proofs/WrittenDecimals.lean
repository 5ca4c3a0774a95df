import InscriptionLedger.Decimal.Written
import InscriptionLedger.Proofs.DecimalTexts

/-!
# Decimals that are written

A decimal is written positionally, with its digits before a point and behind it and zeros where
digits are missing, or with an exponent. Either way the text spells a decimal of its value. The
shortest decimal of a number does not end in a zero, so that its value tells it from all others; the
text in which the number is exchanged therefore tells it apart as well.

## Main definitions

* `Scientific.IsReduced`: decimals without zeros at their end
* `Scientific.whole`, `Scientific.fraction`: the digits of a decimal before its point and behind it
* `Scientific.IsExchanged`: the decimals that are spelled when a decimal is exchanged

## Main results

* `Scientific.IsReduced.eq_of_value_eq`: reduced decimals are told apart by their values
* `Scientific.positional_eq`: positional notation by the digits before the point and behind it
* `Scientific.spells_positional`, `Scientific.spells_scientific`: both notations spell the decimal
* `exists_spells_exchange`: the text in which a number is exchanged spells its decimal
* `append_eq_append_iff_of_spells`: texts that spell reduced decimals tell them apart
-/

namespace InscriptionLedger

/-! ## Zeros around digits -/

namespace Numeral

/-- Zeros in front of digits count for nothing. -/
theorem value_replicate_append (k : Nat) (ds : List Nat) :
    value (List.replicate k 0 ++ ds) = value ds := by
  induction k with
  | zero => rfl
  | succ k ih =>
    rw [List.replicate_succ, List.cons_append]
    exact ih

theorem value_append_replicate (ds : List Nat) (k : Nat) :
    value (ds ++ List.replicate k 0) = value ds * 10 ^ k := by
  induction k with
  | zero => rw [List.replicate_zero, List.append_nil, pow_zero, Nat.mul_one]
  | succ k ih =>
    rw [List.replicate_succ', ← List.append_assoc, value_append, ih, pow_succ]
    ring

/-- Zeros in front of the digits of a number are digits too. -/
theorem replicate_append_natDigits_lt (k n : Nat) :
    ∀ x ∈ List.replicate k 0 ++ natDigits n, x < 10 := by
  rw [List.forall_mem_append]
  refine ⟨fun x hx => ?_, fun _ => natDigits_lt⟩
  rw [List.eq_of_mem_replicate hx]
  decide

/-- A number that is not zero is multiplied by a power of ten by zeros behind its digits. -/
theorem natDigits_mul_pow {n : Nat} (h : n ≠ 0) (k : Nat) :
    natDigits (n * 10 ^ k) = natDigits n ++ List.replicate k 0 := by
  induction k with
  | zero => rw [pow_zero, Nat.mul_one, List.replicate_zero, List.append_nil]
  | succ k ih =>
    have hpos : 0 < n * 10 ^ k := Nat.mul_pos (Nat.pos_of_ne_zero h) (Nat.pow_pos (by decide))
    rw [pow_succ, ← Nat.mul_assoc, natDigits_of_le (by omega), Nat.mul_div_cancel _ (by decide),
      Nat.mul_mod_left, ih, List.replicate_succ', List.append_assoc]

theorem getLast?_natDigits (n : Nat) : (natDigits n).getLast? = some (n % 10) := by
  rcases Nat.lt_or_ge n 10 with h | h
  · rw [natDigits_of_lt h, Nat.mod_eq_of_lt h]
    rfl
  · rw [natDigits_of_le h, List.getLast?_concat]

/-- Only zero starts with a zero. -/
theorem eq_zero_of_head?_natDigits {n : Nat} (h : (natDigits n).head? = some 0) : n = 0 := by
  obtain ⟨ds, hds⟩ := List.head?_eq_some_iff.1 h
  obtain rfl := eq_nil_of_natDigits_eq_zero_cons hds
  rw [← value_natDigits n, hds]
  rfl

end Numeral

namespace Decimal

open Numeral

namespace Scientific

/-! ## Reduced decimals -/

/-- A decimal does not end in a zero, unless it is zero. -/
def IsReduced (d : Scientific) : Prop := d.coefficient % 10 = 0 → d = ⟨0, 0⟩

theorem isReduced_reduce (d : Scientific) : d.reduce.IsReduced := by
  induction d using reduce.induct with
  | case1 d h =>
    rw [reduce, if_pos h]
    exact fun _ => rfl
  | case2 d h h' ih =>
    rw [reduce, if_neg h, if_pos h']
    exact ih
  | case3 d h h' =>
    rw [reduce, if_neg h, if_neg h']
    exact fun hlast => absurd hlast h'

theorem isReduced_shortest (significand : Nat) (exponent : Int) :
    (shortest significand exponent).IsReduced := by
  unfold shortest
  split
  · exact fun _ => rfl
  · exact isReduced_reduce _

/-- Zeros behind the digits take the place of a part of the exponent. -/
theorem value_mk_add (c k : Nat) (e : Int) : value ⟨c, k + e⟩ = value ⟨c * 10 ^ k, e⟩ := by
  have h : (⟨c * 10 ^ k, e⟩ : Scientific).coefficient = c * 10 ^ k := rfl
  rw [value_of_eq_mul h, add_comm]

theorem coefficient_eq_of_value_eq {c c' : Nat} {e : Int} (h : value ⟨c, e⟩ = value ⟨c', e⟩) :
    c = c' := by
  have hscale : (10 : ℚ) ^ e ≠ 0 := zpow_ne_zero _ (by norm_num)
  exact_mod_cast mul_right_cancel₀ hscale h

/-- A decimal with a zero at its end is reduced only if it is zero. -/
theorem IsReduced.eq_zero {c k : Nat} {e : Int} (h : IsReduced ⟨c * 10 ^ (k + 1), e⟩) :
    c = 0 ∧ e = 0 := by
  have hzero := h (by rw [pow_succ, ← Nat.mul_assoc, Nat.mul_mod_left])
  rw [mk.injEq, Nat.mul_eq_zero] at hzero
  exact ⟨hzero.1.resolve_right (Nat.pow_pos (by decide)).ne', hzero.2⟩

/-- Reduced decimals are told apart by their values. -/
theorem IsReduced.eq_of_value_eq {d d' : Scientific} (h : d.IsReduced) (h' : d'.IsReduced)
    (hvalue : d.value = d'.value) : d = d' := by
  wlog hle : d.exponent ≤ d'.exponent generalizing d d'
  · exact (this h' h hvalue.symm (by omega)).symm
  obtain ⟨c, e⟩ := d
  obtain ⟨c', e'⟩ := d'
  obtain ⟨k, rfl⟩ : ∃ k : ℕ, e' = k + e :=
    ⟨(e' - e).toNat, by dsimp only at hle; omega⟩
  rw [value_mk_add] at hvalue
  obtain rfl := coefficient_eq_of_value_eq hvalue
  cases k with
  | zero => rw [pow_zero, Nat.mul_one, Int.natCast_zero, zero_add]
  | succ k =>
    -- The decimal of the smaller exponent ends in a zero, so that both are zero.
    obtain ⟨rfl, rfl⟩ := h.eq_zero
    rw [h' (Nat.zero_mod 10), Nat.zero_mul]

/-- A reduced decimal is an integer if it has no digit behind its point. -/
theorem IsReduced.nonneg_iff {d : Scientific} (h : d.IsReduced) :
    0 ≤ d.exponent ↔ ∃ n : ℕ, d.value = n := by
  have hinteger (n : ℕ) : value ⟨n, 0⟩ = n := by rw [value, zpow_zero, mul_one]
  obtain ⟨c, e⟩ := d
  constructor
  · intro hwhole
    obtain ⟨k, rfl⟩ := Int.eq_ofNat_of_zero_le hwhole
    exact ⟨c * 10 ^ k, by rw [← hinteger, ← value_mk_add, add_zero]⟩
  · rintro ⟨n, hn⟩
    by_contra hneg
    obtain ⟨k, rfl⟩ : ∃ k : ℕ, e = -(k + 1 : ℕ) :=
      ⟨(-e).toNat - 1, by dsimp only at hneg; omega⟩
    rw [← hinteger, ← add_neg_cancel ((k + 1 : ℕ) : ℤ), value_mk_add] at hn
    obtain rfl := coefficient_eq_of_value_eq hn
    have := h.eq_zero.2
    omega

/-! ## Digits before a point and behind it -/

/-- The number of digits behind the point. -/
def places (d : Scientific) : Nat := (-d.exponent).toNat

/-- The coefficient with zeros in place of an exponent. -/
def expanded (d : Scientific) : Nat := d.coefficient * 10 ^ d.exponent.toNat

/-- All digits of a decimal, with zeros in front so that one stands before the point. -/
def padded (d : Scientific) : List Nat :=
  List.replicate (d.places + 1 - (natDigits d.coefficient).length) 0 ++
    (natDigits d.coefficient ++ List.replicate d.exponent.toNat 0)

/-- The digits before the point. -/
def whole (d : Scientific) : List Nat := d.padded.take (d.padded.length - d.places)

/-- The digits behind the point. -/
def fraction (d : Scientific) : List Nat := d.padded.drop (d.padded.length - d.places)

section

variable (d : Scientific)

theorem whole_append_fraction : d.whole ++ d.fraction = d.padded := List.take_append_drop ..

theorem places_lt_length_padded : d.places < d.padded.length := by
  rw [padded, List.length_append, List.length_append, List.length_replicate]
  omega

theorem length_fraction : d.fraction.length = d.places := by
  have := d.places_lt_length_padded
  rw [fraction, List.length_drop]
  omega

theorem fraction_eq_nil_iff : d.fraction = [] ↔ 0 ≤ d.exponent := by
  rw [← List.length_eq_zero_iff, length_fraction, places]
  omega

theorem whole_ne_nil : d.whole ≠ [] := by
  have := d.places_lt_length_padded
  rw [← List.length_pos_iff, whole, List.length_take]
  omega

theorem value_padded : Numeral.value d.padded = d.expanded := by
  rw [padded, value_replicate_append, value_append_replicate, value_natDigits, expanded]

theorem padded_lt : ∀ x ∈ d.padded, x < 10 := by
  rw [padded, ← List.append_assoc, List.forall_mem_append]
  refine ⟨replicate_append_natDigits_lt _ _, fun x hx => ?_⟩
  rw [List.eq_of_mem_replicate hx]
  decide

/-- Positional notation writes the digits before the point and those behind it, if there are
some. -/
theorem positional_eq (tail : List Char) :
    positional tail d = d.whole.map digitChar ++
      if d.fraction = [] then tail else '.' :: d.fraction.map digitChar := by
  have hzero : digitChar 0 = '0' := rfl
  have hdigits := List.length_pos_iff.2 (natDigits_ne_nil d.coefficient)
  unfold positional
  by_cases hwhole : 0 ≤ d.exponent
  · have hplaces : d.places = 0 := Int.toNat_of_nonpos (by omega)
    rw [if_pos hwhole, if_pos (d.fraction_eq_nil_iff.2 hwhole), whole, hplaces, Nat.sub_zero,
      List.take_length, padded, hplaces, Nat.sub_eq_zero_of_le hdigits, List.replicate_zero,
      List.nil_append, List.map_append, List.map_replicate, hzero, natChars]
  · have hpadded : d.padded.map digitChar = List.replicate
        ((-d.exponent).toNat + 1 - (natChars d.coefficient).length) '0' ++
          natChars d.coefficient := by
      rw [padded, Int.toNat_of_nonpos (by omega), List.replicate_zero, List.append_nil,
        List.map_append, List.map_replicate, hzero, natChars, List.length_map, places]
    rw [if_neg hwhole, if_neg (mt d.fraction_eq_nil_iff.1 hwhole)]
    dsimp only
    rw [← hpadded, List.length_map, whole, fraction, List.map_take, List.map_drop, places]

/-- Behind a fraction no tail is written. -/
theorem positional_of_neg (tail : List Char) (h : d.exponent < 0) :
    positional tail d = positional [] d := by
  have hfraction : d.fraction ≠ [] := mt d.fraction_eq_nil_iff.1 (by omega)
  rw [positional_eq, positional_eq, if_neg hfraction, if_neg hfraction]

/-! ## Values of what is written -/

theorem value_expanded (h : 0 ≤ d.exponent) : value ⟨d.expanded, 0⟩ = d.value := by
  rw [expanded, ← value_mk_add, Int.toNat_of_nonneg h, add_zero]

theorem mk_expanded_places (h : d.exponent < 0) :
    (⟨d.expanded, -d.places⟩ : Scientific) = d := by
  rw [expanded, Int.toNat_of_nonpos h.le, pow_zero, Nat.mul_one, places,
    Int.toNat_of_nonneg (by omega), neg_neg]

/-- Zeros in place of an exponent do not change the value. -/
theorem value_expanded_places : value ⟨d.expanded, -d.places⟩ = d.value := by
  rcases le_or_gt 0 d.exponent with hwhole | hfraction
  · have hplaces : d.places = 0 := Int.toNat_of_nonpos (by omega)
    rw [hplaces, Int.natCast_zero, neg_zero, d.value_expanded hwhole]
  · rw [d.mk_expanded_places hfraction]

end

/-- The decimals that are spelled when a decimal is exchanged: itself, or an integer with a zero
behind its point. -/
inductive IsExchanged (d : Scientific) : Scientific → Prop
  | self : IsExchanged d d
  | point : 0 ≤ d.exponent → IsExchanged d ⟨10 * d.expanded, -1⟩

theorem IsExchanged.value_eq {d d' : Scientific} (h : d.IsExchanged d') : d'.value = d.value := by
  cases h with
  | self => rfl
  | point hwhole =>
    have htenfold := value_mk_add d.expanded 1 (-1)
    rw [pow_one, Nat.mul_comm] at htenfold
    exact htenfold.symm.trans (d.value_expanded hwhole)

end Scientific

/-! ## Texts that spell a decimal -/

theorem isSign_writeSign (negative : Bool) : IsSign (writeSign negative) negative := by
  cases negative with
  | false => exact .absent
  | true => exact .minus

theorem isFraction_digits {fs : List Nat} (hlt : ∀ x ∈ fs, x < 10) :
    IsFraction (if fs = [] then [] else '.' :: fs.map digitChar) fs := by
  split
  · next hnone =>
    rw [hnone]
    exact .absent
  · exact .point (areDigits_map_digitChar fs hlt)

/-- Digits with a point before the last ones, if there are some, spell a decimal. -/
theorem spells_digits (negative : Bool) {ws fs : List Nat} (hne : ws ≠ [])
    (hlt : ∀ x ∈ ws ++ fs, x < 10) :
    Spells (writeSign negative ++ (ws.map digitChar ++
      if fs = [] then [] else '.' :: fs.map digitChar)) negative
        ⟨value (ws ++ fs), -fs.length⟩ := by
  rw [List.forall_mem_append] at hlt
  have h := Spells.intro (isSign_writeSign negative) (areDigits_map_digitChar ws hlt.1)
    (isFraction_digits hlt.2) .absent (List.append_ne_nil_of_left_ne_nil hne fs)
  rwa [List.append_nil, zero_sub] at h

/-- An exponent is written with its sign and at least two digits. -/
theorem isExponent_written (e : Int) :
    IsExponent ('e' :: (if e < 0 then '-' else '+') ::
      (List.replicate (2 - (natChars e.natAbs).length) '0' ++ natChars e.natAbs)) e := by
  have hsign : IsSign [if e < 0 then '-' else '+'] (decide (e < 0)) := by
    by_cases h : e < 0
    · rw [if_pos h, decide_eq_true h]
      exact .minus
    · rw [if_neg h, decide_eq_false h]
      exact .plus
  have hdigits := areDigits_map_digitChar _
    (replicate_append_natDigits_lt (2 - (natChars e.natAbs).length) e.natAbs)
  rw [List.map_append, List.map_replicate] at hdigits
  have h := IsExponent.given (.inl rfl) hsign hdigits
    (List.append_ne_nil_of_right_ne_nil _ (natDigits_ne_nil _))
  rwa [value_replicate_append, value_natDigits, signed_natAbs] at h

namespace Scientific

/-- Positional notation spells the decimal, with zeros in place of an exponent. -/
theorem spells_positional (negative : Bool) (d : Scientific) :
    Spells (writeSign negative ++ positional [] d) negative ⟨d.expanded, -d.places⟩ := by
  have hlt : ∀ x ∈ d.whole ++ d.fraction, x < 10 := by
    rw [whole_append_fraction]
    exact d.padded_lt
  have h := spells_digits negative d.whole_ne_nil hlt
  rwa [← positional_eq, whole_append_fraction, value_padded, length_fraction] at h

/-- An integer with a zero behind its point spells ten times its digits. -/
theorem spells_positional_point (negative : Bool) {d : Scientific} (h : 0 ≤ d.exponent) :
    Spells (writeSign negative ++ positional ['.', '0'] d) negative ⟨10 * d.expanded, -1⟩ := by
  have hfraction := d.fraction_eq_nil_iff.2 h
  have hwhole : d.whole = d.padded := by
    rw [← whole_append_fraction, hfraction, List.append_nil]
  have hlt : ∀ x ∈ d.whole ++ [0], x < 10 := by
    rw [List.forall_mem_append, hwhole]
    exact ⟨d.padded_lt, by simp⟩
  have hspells := spells_digits negative d.whole_ne_nil hlt
  have hvalue : Numeral.value (d.whole ++ [0]) = 10 * d.expanded := by
    rw [Numeral.value_append, hwhole, value_padded, Nat.add_zero]
  rw [hvalue, if_neg (List.cons_ne_nil _ _)] at hspells
  rw [positional_eq, if_pos hfraction]
  exact hspells

/-- Notation with an exponent writes the first digit before the point. -/
theorem scientific_eq {d : Scientific} {first : Nat} {rest : List Nat}
    (h : natDigits d.coefficient = first :: rest) :
    scientific [] d = [first].map digitChar ++
      ((if rest = [] then [] else '.' :: rest.map digitChar) ++
        'e' :: (if d.exponent + rest.length < 0 then '-' else '+') ::
          (List.replicate (2 - (natChars (d.exponent + rest.length).natAbs).length) '0' ++
            natChars (d.exponent + rest.length).natAbs)) := by
  unfold scientific
  rw [natChars, h]
  cases rest with
  | nil => rfl
  | cons second more => simp

/-- Notation with an exponent spells the decimal. -/
theorem spells_scientific (negative : Bool) (d : Scientific) :
    Spells (writeSign negative ++ scientific [] d) negative d := by
  obtain ⟨first, rest, hdigits⟩ := List.exists_cons_of_ne_nil (natDigits_ne_nil d.coefficient)
  have hlt : ∀ x ∈ first :: rest, x < 10 := fun x hx => natDigits_lt (hdigits ▸ hx)
  rw [List.forall_mem_cons] at hlt
  have h := Spells.intro (isSign_writeSign negative)
    (areDigits_map_digitChar [first] (List.forall_mem_singleton.2 hlt.1)) (isFraction_digits hlt.2)
    (isExponent_written (d.exponent + rest.length)) (List.cons_ne_nil _ _)
  rwa [← scientific_eq hdigits, List.singleton_append, ← hdigits, value_natDigits,
    add_sub_cancel_right] at h

end Scientific

/-- The text in which a number is exchanged spells its decimal, which may have a zero behind its
point. -/
theorem exists_spells_exchange (negative : Bool) (d : Scientific) :
    ∃ d', Spells (writeSign negative ++ writeMagnitude .exchange d) negative d' ∧
      d.IsExchanged d' := by
  unfold writeMagnitude
  split
  · rcases le_or_gt 0 d.exponent with hwhole | hfraction
    · exact ⟨_, d.spells_positional_point negative hwhole, .point hwhole⟩
    · refine ⟨d, ?_, .self⟩
      have h := d.spells_positional negative
      rw [d.mk_expanded_places hfraction] at h
      rw [d.positional_of_neg _ hfraction]
      exact h
  · exact ⟨d, d.spells_scientific negative, .self⟩

/-! ## Texts that tell decimals apart -/

/-- A text spells one decimal. -/
theorem Spells.unique {cs : List Char} {negative negative' : Bool} {d d' : Scientific}
    (h : Spells cs negative d) (h' : Spells cs negative' d') : negative = negative' ∧ d = d' := by
  have heq := (Literal.ofChars?_of_spells h).symm.trans (Literal.ofChars?_of_spells h')
  simp only [Option.some.injEq, Literal.number.injEq] at heq
  obtain ⟨hsign, hcoefficient, hexponent⟩ := heq
  refine ⟨hsign, ?_⟩
  cases d
  cases d'
  exact Scientific.mk.injEq .. ▸ ⟨hcoefficient, hexponent⟩

/-- Where texts spell decimals of the values that they are written for, they tell apart signs and
reduced decimals. -/
theorem append_eq_append_iff_of_spells {chars : Scientific → List Char}
    (hspells : ∀ negative d, ∃ d', Spells (writeSign negative ++ chars d) negative d' ∧
      d'.value = d.value) {negative negative' : Bool} {d d' : Scientific} (h : d.IsReduced)
    (h' : d'.IsReduced) :
    writeSign negative ++ chars d = writeSign negative' ++ chars d' ↔
      negative = negative' ∧ d = d' := by
  constructor
  · intro heq
    obtain ⟨s, hs, hvalue⟩ := hspells negative d
    obtain ⟨s', hs', hvalue'⟩ := hspells negative' d'
    rw [heq] at hs
    obtain ⟨hsign, rfl⟩ := hs.unique hs'
    exact ⟨hsign, h.eq_of_value_eq h' (hvalue.symm.trans hvalue')⟩
  · rintro ⟨rfl, rfl⟩
    rfl

end Decimal

end InscriptionLedger
