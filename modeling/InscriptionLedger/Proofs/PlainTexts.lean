import InscriptionLedger.Proofs.WrittenDecimals

/-!
# Plain texts of numbers

A number has two texts of its shortest decimal: the one in which it is exchanged, which may have an
exponent, and the plain one, which has none. Both spell the same number with the same sign. The
plain text is what is left of the exchanged decimal in positional notation when the zeros at the end
of its fraction are dropped, and the point with them if nothing stands behind it. Zeros of an
integer are kept, so that the two texts tell apart the same numbers.

## Main definitions

* `PlainText`: digits before a point and behind it, without zeros that could be left out
* `Scientific.IsReduced.plainText`: the plain text of a decimal that does not end in a zero
* `trimFraction`: a text without the zeros at the end of its fraction
* `IsPlainFor`: what the plain text of a number is, beside the text in which it is exchanged

## Main results

* `trimFraction_chars`: a plain text has nothing to drop
* `trimFraction_positional`: the plain text is the trimmed positional notation of what is exchanged
* `exists_isPlainFor`: the plain texts of all finite numbers
-/

namespace InscriptionLedger.Decimal

open Numeral

/-! ## Digits of a plain text -/

/-- The digits of a plain text: before the point at least one, and a zero in front of no others;
behind it none, or digits that do not end in a zero. -/
structure PlainText where
  whole : List Nat
  fraction : List Nat
  lt : ∀ x ∈ whole ++ fraction, x < 10
  whole_ne_nil : whole ≠ []
  first : whole.head? = some 0 → whole = [0]
  last : fraction.getLast? ≠ some 0

namespace PlainText

variable (p : PlainText)

/-- The characters of a plain text; a point stands before a fraction only. -/
def chars : List Char :=
  p.whole.map digitChar ++ if p.fraction = [] then [] else '.' :: p.fraction.map digitChar

/-- The decimal that a plain text spells. -/
def decimal : Scientific := ⟨value (p.whole ++ p.fraction), -p.fraction.length⟩

theorem spells (negative : Bool) : Spells (writeSign negative ++ p.chars) negative p.decimal :=
  spells_digits negative p.whole_ne_nil p.lt

end PlainText

namespace Scientific.IsReduced

variable {d : Scientific}

/-- A zero stands before the point only if no other digit does. -/
theorem whole_eq_of_head? (h : d.IsReduced) (hzero : d.whole.head? = some 0) : d.whole = [0] := by
  rcases Nat.eq_zero_or_pos (d.places + 1 - (natDigits d.coefficient).length) with hnone | hsome
  · -- The first digit is that of the coefficient, which is then zero.
    have hhead : d.whole.head? = (natDigits d.coefficient).head? := by
      have hlt := d.places_lt_length_padded
      rw [whole, List.head?_take, if_neg (by omega), padded, hnone, List.replicate_zero,
        List.nil_append, List.head?_append_of_ne_nil _ (natDigits_ne_nil _)]
    have hcoefficient := eq_zero_of_head?_natDigits (hhead.symm.trans hzero)
    obtain rfl := h (by rw [hcoefficient])
    simp [whole, padded, places, natDigits_of_lt]
  · -- The only digit before the point is a zero that was put there.
    have hexponent : d.exponent.toNat = 0 := by
      have := List.length_pos_iff.2 (natDigits_ne_nil d.coefficient)
      rw [places] at hsome
      omega
    obtain ⟨k, hk⟩ := Nat.exists_eq_add_one.2 hsome
    have hlength : d.padded.length - d.places = 1 := by
      rw [padded, hexponent, List.length_append, List.length_append, List.length_replicate,
        List.length_replicate]
      omega
    rw [whole, hlength, padded, hk, List.replicate_succ]
    rfl

/-- A fraction does not end in a zero. -/
theorem getLast?_fraction_ne (h : d.IsReduced) : d.fraction.getLast? ≠ some 0 := by
  intro hzero
  have hne : d.fraction ≠ [] := by
    intro hnil
    rw [hnil] at hzero
    cases hzero
  have hneg := mt d.fraction_eq_nil_iff.2 hne
  have hlast : d.fraction.getLast? = some (d.coefficient % 10) := by
    rw [← List.getLast?_append_of_ne_nil d.whole hne, whole_append_fraction, padded,
      Int.toNat_of_nonpos (by omega), List.replicate_zero, List.append_nil,
      List.getLast?_append_of_ne_nil _ (natDigits_ne_nil _), getLast?_natDigits]
  rw [hlast, Option.some.injEq] at hzero
  rw [h hzero] at hneg
  exact hneg le_rfl

/-- The plain text of a decimal that does not end in a zero. -/
def plainText (h : d.IsReduced) : PlainText where
  whole := d.whole
  fraction := d.fraction
  lt := by
    rw [whole_append_fraction]
    exact d.padded_lt
  whole_ne_nil := d.whole_ne_nil
  first := h.whole_eq_of_head?
  last := h.getLast?_fraction_ne

theorem chars_plainText (h : d.IsReduced) : h.plainText.chars = positional [] d :=
  (d.positional_eq []).symm

theorem decimal_plainText (h : d.IsReduced) :
    h.plainText.decimal = ⟨d.expanded, -d.places⟩ := by
  have hvalue := d.value_padded
  rw [← whole_append_fraction] at hvalue
  rw [PlainText.decimal, plainText, hvalue, length_fraction]

/-- An integer is written with zeros in place of its exponent. -/
theorem positional_of_nonneg (h : d.IsReduced) (hwhole : 0 ≤ d.exponent) :
    positional [] d = natChars d.expanded := by
  rw [positional, if_pos hwhole, List.append_nil, expanded]
  rcases eq_or_ne d.coefficient 0 with hzero | hne
  · -- Zero has no exponent.
    rw [h (by rw [hzero]), Int.toNat_zero, pow_zero, Nat.mul_one, List.replicate_zero,
      List.append_nil]
  · rw [natChars, natChars, natDigits_mul_pow hne, List.map_append, List.map_replicate]
    rfl

end Scientific.IsReduced

/-! ## Zeros that are dropped -/

/-- A text without the zeros at the end of its fraction, and without the point if nothing stands
behind it. -/
def trimFraction (cs : List Char) : List Char :=
  if '.' ∈ cs then (cs.rdropWhile (· = '0')).rdropWhile (· = '.') else cs

theorem digitChar_ne_point {x : Nat} (h : x < 10) : digitChar x ≠ '.' := by
  have all : ∀ m : Fin 10, digitChar m ≠ '.' := by decide
  exact all ⟨x, h⟩

theorem digitChar_ne_zero {x : Nat} (h : x < 10) (hne : x ≠ 0) : digitChar x ≠ '0' := by
  have all : ∀ m : Fin 10, m.val ≠ 0 → digitChar m ≠ '0' := by decide
  exact all ⟨x, h⟩ hne

theorem not_mem_writeSign_append {negative : Bool} {ds : List Nat} (h : ∀ x ∈ ds, x < 10) :
    '.' ∉ writeSign negative ++ ds.map digitChar := by
  intro hmem
  rcases List.mem_append.1 hmem with hmem | hmem
  · cases negative <;> simp [writeSign] at hmem
  · obtain ⟨x, hx, heq⟩ := List.mem_map.1 hmem
    exact digitChar_ne_point (h x hx) heq

/-- A plain text has nothing to drop: without a point its zeros are kept, and a fraction does not
end in one. -/
theorem trimFraction_chars (negative : Bool) (p : PlainText) :
    trimFraction (writeSign negative ++ p.chars) = writeSign negative ++ p.chars := by
  have hlt := List.forall_mem_append.1 p.lt
  unfold trimFraction
  rcases List.eq_nil_or_concat p.fraction with hnone | ⟨front, x, hfraction⟩
  · rw [if_neg]
    rw [PlainText.chars, if_pos hnone, List.append_nil]
    exact not_mem_writeSign_append hlt.1
  · have hx : x < 10 := hlt.2 x (by rw [hfraction]; simp)
    have hne : x ≠ 0 := by
      rintro rfl
      exact p.last (by rw [hfraction, List.concat_eq_append, List.getLast?_concat])
    obtain ⟨start, hstart⟩ : ∃ start, writeSign negative ++ p.chars = start ++ [digitChar x] := by
      refine ⟨writeSign negative ++ (p.whole.map digitChar ++ '.' :: front.map digitChar), ?_⟩
      rw [PlainText.chars, if_neg (by rw [hfraction]; simp), hfraction]
      simp
    split
    · rw [hstart, List.rdropWhile_concat_neg _ _ _ (by simpa using digitChar_ne_zero hx hne),
        List.rdropWhile_concat_neg _ _ _ (by simpa using digitChar_ne_point hx)]
    · rfl

/-- An integer that is written with a zero behind its point loses both. -/
theorem trimFraction_natChars_point (negative : Bool) (n : Nat) :
    trimFraction (writeSign negative ++ (natChars n ++ ['.', '0'])) =
      writeSign negative ++ natChars n := by
  obtain ⟨front, x, hdigits⟩ := (List.eq_nil_or_concat (natDigits n)).resolve_left
    (natDigits_ne_nil n)
  have hx : x < 10 := natDigits_lt (n := n) (by rw [hdigits]; simp)
  have hsplit : writeSign negative ++ (natChars n ++ ['.', '0']) =
      writeSign negative ++ natChars n ++ ['.'] ++ ['0'] := by simp
  have hstart : writeSign negative ++ natChars n =
      writeSign negative ++ front.map digitChar ++ [digitChar x] := by
    rw [natChars, hdigits]
    simp
  -- The first pass stops at the point, the second at the last digit before it.
  unfold trimFraction
  rw [if_pos (by simp), hsplit, List.rdropWhile_concat_pos _ _ _ (by simp),
    List.rdropWhile_concat_neg _ _ _ (by simp), List.rdropWhile_concat_pos _ _ _ (by simp), hstart,
    List.rdropWhile_concat_neg _ _ _ (by simpa using digitChar_ne_point hx)]

theorem padded_tenfold (n : Nat) : Scientific.padded ⟨10 * n, -1⟩ = natDigits n ++ [0] := by
  rcases Nat.eq_zero_or_pos n with rfl | hpos
  · simp [Scientific.padded, Scientific.places, natDigits_of_lt]
  · have hdigits : natDigits (10 * n) = natDigits n ++ [0] := by
      rw [natDigits_of_le (by omega), Nat.mul_div_cancel_left n (by decide), Nat.mul_mod_right]
    have := List.length_pos_iff.2 (natDigits_ne_nil n)
    rw [Scientific.padded, Scientific.places, hdigits, Nat.sub_eq_zero_of_le (by simp; omega)]
    simp

/-- Ten times a number, with a point before the last digit, is the number with a zero behind its
point. -/
theorem positional_tenfold (n : Nat) : positional [] ⟨10 * n, -1⟩ = natChars n ++ ['.', '0'] := by
  have hlength : (natDigits n ++ [0]).length - Scientific.places ⟨10 * n, -1⟩ =
      (natDigits n).length := by
    rw [List.length_append]
    rfl
  rw [Scientific.positional_eq, Scientific.whole, Scientific.fraction, padded_tenfold, hlength,
    List.take_left, List.drop_left]
  rfl

/-- The zeros and the point that an exchanged decimal has more than the reduced one are dropped. -/
theorem trimFraction_positional (negative : Bool) {d d' : Scientific} (h : d.IsReduced)
    (hd' : d.IsExchanged d') :
    trimFraction (writeSign negative ++ positional [] d') =
      writeSign negative ++ positional [] d := by
  cases hd' with
  | self => rw [← h.chars_plainText, trimFraction_chars]
  | point hwhole =>
    rw [positional_tenfold, trimFraction_natChars_point, h.positional_of_nonneg hwhole]

/-! ## The plain texts of numbers -/

/-- What the plain text of a number is, beside the text in which it is exchanged: it spells the same
value with the same sign, has the digits of a plain text, which have a fraction unless the value is
an integer, and is what is left when zeros and a point are dropped of the positional notation. -/
structure IsPlainFor (negative : Bool) (exchanged text : String) (d : Scientific) (p : PlainText) :
    Prop where
  spells_exchanged : Spells exchanged.toList negative d
  spells_text : Spells text.toList negative p.decimal
  value_eq : p.decimal.value = d.value
  toList_text : text.toList = writeSign negative ++ p.chars
  trimmed : text.toList = trimFraction (writeSign negative ++ positional [] d)
  fraction_eq_nil_iff : p.fraction = [] ↔ ∃ n : ℕ, d.value = n

theorem toList_write (style : Style) (negative : Bool) (significand : Nat) (exponent : Int) :
    (write style (.finite negative significand exponent)).toList =
      writeSign negative ++ writeMagnitude style (shortest significand exponent) :=
  String.toList_ofList

theorem writeMagnitude_plain (d : Scientific) : writeMagnitude .plain d = positional [] d := rfl

/-- The plain texts of all finite numbers, which tell apart the same numbers as the texts in which
these are exchanged. -/
theorem exists_isPlainFor (negative : Bool) (significand : Nat) (exponent : Int) :
    (∃ d p, IsPlainFor negative (write .exchange (.finite negative significand exponent))
      (write .plain (.finite negative significand exponent)) d p) ∧
    ∀ negative' significand' exponent',
      write .plain (.finite negative significand exponent) =
          write .plain (.finite negative' significand' exponent') ↔
        write .exchange (.finite negative significand exponent) =
          write .exchange (.finite negative' significand' exponent') := by
  have hreduced := Scientific.isReduced_shortest
  constructor
  · obtain ⟨d, hspells, hd⟩ := exists_spells_exchange negative (shortest significand exponent)
    have h := hreduced significand exponent
    refine ⟨d, h.plainText, ?_⟩
    have htext : (write .plain (.finite negative significand exponent)).toList =
        writeSign negative ++ h.plainText.chars := by
      rw [toList_write, writeMagnitude_plain, h.chars_plainText]
    constructor
    case spells_exchanged => rwa [toList_write]
    case spells_text =>
      rw [htext]
      exact h.plainText.spells negative
    case value_eq => rw [h.decimal_plainText, Scientific.value_expanded_places, hd.value_eq]
    case toList_text => exact htext
    case trimmed => rw [htext, h.chars_plainText, trimFraction_positional negative h hd]
    case fraction_eq_nil_iff =>
      rw [hd.value_eq, ← h.nonneg_iff]
      exact Scientific.fraction_eq_nil_iff _
  · intro negative' significand' exponent'
    -- Either text tells apart the signs and the shortest decimals.
    rw [← String.toList_inj, ← String.toList_inj, toList_write, toList_write, toList_write,
      toList_write, append_eq_append_iff_of_spells _ (hreduced _ _) (hreduced _ _),
      append_eq_append_iff_of_spells _ (hreduced _ _) (hreduced _ _)]
    · intro s d
      obtain ⟨d', hspells, hd'⟩ := exists_spells_exchange s d
      exact ⟨d', hspells, hd'.value_eq⟩
    · intro s d
      exact ⟨_, d.spells_positional s, d.value_expanded_places⟩

end InscriptionLedger.Decimal
