import InscriptionLedger.Text.Numeral
import Mathlib

/-!
# Numerals read back

A numeral that is written reads back, as long as it has no more digits than a numeral may have. What
is read is never longer when it is written again, so that every integer that was read reads back.

## Main results

* `Numeral.readChars?_intChars`: what is written reads back
* `Numeral.readChars?_map_digitChar`: digits with any leading zeros are read as their number
* `Numeral.digitCount_of_readChars?`: an integer that was read is short enough to be read again
* `Numeral.natChars_injective`, `Numeral.intChars_injective`: numbers and integers are told apart by
  their numerals
* `Numeral.natChars_append_cons_inj`: a numeral is told from what follows it
* `Numeral.lt_pow_digitCount`, `Numeral.pow_digitCount_le`: the number of digits and the number
* `Numeral.isShort_of_le`, `Numeral.isShort_pow`: integers that are short, and some that are not
-/

namespace InscriptionLedger.Numeral

open Text

/-! ## The digits of a numeral -/

theorem decimalValue?_digitChar {d : Nat} (h : d < 10) : decimalValue? (digitChar d) = some d := by
  have all : ∀ m : Fin 10, decimalValue? (digitChar m) = some m.val := by decide
  exact all ⟨d, h⟩

/-- The characters that numerals are made of. -/
def isNumeralChar (c : Char) : Bool := c == '-' || (0x30 ≤ c.toNat && c.toNat ≤ 0x39)

theorem isNumeralChar_digitChar {d : Nat} (h : d < 10) : isNumeralChar (digitChar d) = true := by
  have all : ∀ m : Fin 10, isNumeralChar (digitChar m) = true := by decide
  exact all ⟨d, h⟩

theorem isDigit_digitChar {d : Nat} (h : d < 10) : isDigit (digitChar d) = true := by
  rw [isDigit, decimalValue?_digitChar h]
  rfl

theorem digitChar_ne {d : Nat} (h : d < 10) :
    digitChar d ≠ '_' ∧ digitChar d ≠ '+' ∧ digitChar d ≠ '-' := by
  have all : ∀ m : Fin 10, digitChar m ≠ '_' ∧ digitChar m ≠ '+' ∧ digitChar m ≠ '-' := by decide
  exact all ⟨d, h⟩

theorem isBlank_of_isNumeralChar {c : Char} (h : isNumeralChar c = true) : isBlank c = false := by
  have hc : c.toNat = 0x2D ∨ (0x30 ≤ c.toNat ∧ c.toNat ≤ 0x39) := by
    simp only [isNumeralChar, Bool.or_eq_true, beq_iff_eq, Bool.and_eq_true, decide_eq_true_eq] at h
    rcases h with rfl | h
    · exact .inl rfl
    · exact .inr h
  simp only [isBlank, isNumberBlank, Bool.or_eq_false_iff, Bool.and_eq_false_iff,
    decide_eq_false_iff_not, beq_eq_false_iff_ne]
  omega

theorem mem_natChars {n : Nat} {c : Char} (h : c ∈ natChars n) : isNumeralChar c = true := by
  obtain ⟨d, hd, rfl⟩ := List.mem_map.1 h
  exact isNumeralChar_digitChar (natDigits_lt hd)

theorem mem_intChars {n : Int} {c : Char} (h : c ∈ intChars n) : isNumeralChar c = true := by
  unfold intChars at h
  split at h
  · rcases List.mem_cons.1 h with rfl | h
    · decide
    · exact mem_natChars h
  · exact mem_natChars h

theorem natChars_ne_nil (n : Nat) : natChars n ≠ [] := by
  simp [natChars, natDigits_ne_nil]

theorem intChars_ne_nil (n : Int) : intChars n ≠ [] := by
  unfold intChars
  split
  · simp
  · exact natChars_ne_nil _

@[simp] theorem intChars_natCast (n : Nat) : intChars (n : Int) = natChars n := by
  simp [intChars]

/-! ## Reading the digits -/

theorem digits?_map_digitChar {ds : List Nat} (hne : ds ≠ []) (hlt : ∀ d ∈ ds, d < 10) :
    digits? (ds.map digitChar) = some ds := by
  induction ds with
  | nil => exact absurd rfl hne
  | cons d rest ih =>
    have hd := decimalValue?_digitChar (hlt d List.mem_cons_self)
    cases rest with
    | nil => simp [digits?, hd]
    | cons e more =>
      have he := hlt e (by simp)
      have hrest := ih (by simp) fun x hx => hlt x (List.mem_cons_of_mem d hx)
      simp only [List.map_cons] at hrest ⊢
      -- The second clause of the reader is for an underscore, which no digit is.
      rw [digits?]
      · simp [hd, hrest]
      · simp
      · intro tail h
        exact (digitChar_ne he).1 (List.cons.inj h).1

theorem digits?_natChars (n : Nat) : digits? (natChars n) = some (natDigits n) :=
  digits?_map_digitChar (natDigits_ne_nil n) fun _ => natDigits_lt

/-- A zero stands in front of no other digits. -/
theorem eq_nil_of_natDigits_eq_zero_cons {n : Nat} {ds : List Nat} (h : natDigits n = 0 :: ds) :
    ds = [] := by
  induction n using Nat.strongRecOn generalizing ds with
  | ind n ih =>
    rcases Nat.lt_or_ge n 10 with hn | hn
    · rw [natDigits_of_lt hn] at h
      exact (List.cons.inj h).2.symm
    · obtain ⟨e, es, hes⟩ := List.exists_cons_of_ne_nil (natDigits_ne_nil (n / 10))
      rw [natDigits_of_le hn, hes] at h
      obtain ⟨rfl, -⟩ := List.cons.inj h
      obtain rfl := ih (n / 10) (by omega) hes
      have hzero := value_natDigits (n / 10)
      rw [hes] at hzero
      change 0 = n / 10 at hzero
      omega

/-- Numbers are told apart by their numerals. -/
theorem natChars_injective : Function.Injective natChars := by
  intro m n h
  have hdigits : natDigits m = natDigits n := by
    have := digits?_natChars m
    rw [h, digits?_natChars n] at this
    exact (Option.some.inj this).symm
  rw [← value_natDigits m, hdigits, value_natDigits n]

/-- A numeral is told from what follows it by a sign that is none of numerals. -/
theorem natChars_append_cons_inj {m n : Nat} {c : Char} (hc : isNumeralChar c = false)
    {xs ys : List Char} : natChars m ++ c :: xs = natChars n ++ c :: ys ↔ m = n ∧ xs = ys := by
  have htake (k : Nat) (zs : List Char) :
      (natChars k ++ c :: zs).takeWhile isNumeralChar = natChars k := by
    rw [List.takeWhile_append_of_pos fun _ => mem_natChars,
      List.takeWhile_cons_of_neg (by simp [hc]), List.append_nil]
  constructor
  · intro h
    have hnumeral := htake m xs
    rw [h, htake n ys] at hnumeral
    obtain rfl := natChars_injective hnumeral
    rw [List.append_cancel_left_eq, List.cons.injEq] at h
    exact ⟨rfl, h.2⟩
  · rintro ⟨rfl, rfl⟩
    rfl

/-- What is read as digits is a run of at least one, all below ten. -/
theorem digits?_lt {cs : List Char} {ds : List Nat} (h : digits? cs = some ds) :
    ds ≠ [] ∧ ∀ d ∈ ds, d < 10 := by
  fun_induction digits? cs generalizing ds with
  | case1 => cases h
  | case2 c =>
    obtain ⟨d, hd, rfl⟩ := Option.map_eq_some_iff.1 h
    simpa using decimalValue?_lt hd
  | case3 c rest ih =>
    simp only [Option.bind_eq_bind, Option.bind_eq_some_iff, Option.pure_def,
      Option.some.injEq] at h
    obtain ⟨d, hd, more, hmore, rfl⟩ := h
    simpa using ⟨decimalValue?_lt hd, (ih hmore).2⟩
  | case4 c rest _ _ ih =>
    simp only [Option.bind_eq_bind, Option.bind_eq_some_iff, Option.pure_def,
      Option.some.injEq] at h
    obtain ⟨d, hd, more, hmore, rfl⟩ := h
    simpa using ⟨decimalValue?_lt hd, (ih hmore).2⟩

/-! ## The number of digits -/

/-- An integer that was read is short enough to be read again. -/
theorem digitCount_of_readChars? {cs : List Char} {n : Int} (h : readChars? cs = some n) :
    digitCount n.natAbs ≤ maxDigits := by
  simp only [readChars?] at h
  split at h
  · next digits hdigits =>
    split at h
    · next hlength =>
      obtain rfl := Option.some.inj h
      obtain ⟨hne, hlt⟩ := digits?_lt hdigits
      rw [natAbs_signed]
      exact Nat.le_trans (digitCount_value_le hne hlt) hlength
    · cases h
  · cases h

/-! ## Reading a numeral -/

theorem trimBy_of_isNumeralChar {cs : List Char} (h : ∀ c ∈ cs, isNumeralChar c = true) :
    trimBy isNumberBlank cs = cs := by
  have hblank : ∀ c ∈ cs, isNumberBlank c = false := by
    intro c hc
    have := isBlank_of_isNumeralChar (h c hc)
    simp only [isBlank, Bool.or_eq_false_iff] at this
    exact this.1
  refine trimBy_eq_self ⟨?_, ?_⟩
  · exact fun c hc => hblank c (List.mem_of_mem_head? hc)
  · exact fun c hc => hblank c (List.mem_of_mem_getLast? hc)

theorem splitSign_intChars (n : Int) :
    splitSign (intChars n) = (decide (n < 0), natChars n.natAbs) := by
  unfold intChars
  split
  · next h => simp [splitSign, h]
  · next h =>
    have hhead : ∀ c ∈ (natChars n.natAbs).head?, c ≠ '+' ∧ c ≠ '-' := by
      intro c hc
      obtain ⟨d, hd, rfl⟩ := List.mem_map.1 (List.mem_of_mem_head? hc)
      exact (digitChar_ne (natDigits_lt hd)).2
    rw [splitSign]
    · simp [h]
    · intro rest hrest
      exact (hhead '+' (by simp [hrest])).1 rfl
    · intro rest hrest
      exact (hhead '-' (by simp [hrest])).2 rfl

theorem signed_natAbs (n : Int) : signed (decide (n < 0)) n.natAbs = n := by
  unfold signed
  split
  · next h => simp at h; omega
  · next h => simp at h; omega

/-- Integers are told apart by their numerals. -/
theorem intChars_injective : Function.Injective intChars := by
  intro m n h
  have hsplit := splitSign_intChars m
  rw [h, splitSign_intChars n, Prod.mk.injEq] at hsplit
  rw [← signed_natAbs m, ← signed_natAbs n, hsplit.1, natChars_injective hsplit.2]

/-- What is written reads back, unless it has too many digits. -/
theorem readChars?_intChars {n : Int} (h : digitCount n.natAbs ≤ maxDigits) :
    readChars? (intChars n) = some n := by
  unfold digitCount at h
  simp [readChars?, trimBy_of_isNumeralChar fun _ => mem_intChars, splitSign_intChars,
    digits?_natChars, h, signed_natAbs]

/-- A run of decimal digits is read as the number that they denote, with any leading zeros. -/
theorem readChars?_map_digitChar {digits : List Nat} (hne : digits ≠ [])
    (hlt : ∀ d ∈ digits, d < 10) (hshort : digits.length ≤ maxDigits) :
    readChars? (digits.map digitChar) = some (value digits : Int) := by
  have htrim : trimBy isNumberBlank (digits.map digitChar) = digits.map digitChar :=
    trimBy_of_isNumeralChar (List.forall_mem_map.2 fun d hd => isNumeralChar_digitChar (hlt d hd))
  have hsign : splitSign (digits.map digitChar) = (false, digits.map digitChar) := by
    obtain ⟨d, rest, rfl⟩ := List.exists_cons_of_ne_nil hne
    obtain ⟨-, hplus, hminus⟩ := digitChar_ne (hlt d List.mem_cons_self)
    rw [List.map_cons, splitSign]
    · exact fun _ h => hplus (List.cons.inj h).1
    · exact fun _ h => hminus (List.cons.inj h).1
  simp [readChars?, htrim, hsign, digits?_map_digitChar hne hlt, hshort, signed]

/-- An integer that is read of a text without a minus is not negative. -/
theorem nonneg_of_readChars? {cs : List Char} (hminus : '-' ∉ cs) {n : Int}
    (h : readChars? cs = some n) : 0 ≤ n := by
  have hsign : (splitSign (trimBy isNumberBlank cs)).1 = false := by
    unfold splitSign
    split
    · rfl
    · next rest hcs => exact absurd (mem_of_mem_trimBy (hcs ▸ List.mem_cons_self)) hminus
    · rfl
  simp only [readChars?, hsign] at h
  split at h
  · split at h
    · rw [← Option.some.inj h]
      exact Int.natCast_nonneg _
    · cases h
  · cases h

/-! ## The number of digits -/

theorem lt_pow_digitCount (n : Nat) : n < 10 ^ digitCount n := by
  induction n using Nat.strongRecOn with
  | ind n ih =>
    rcases Nat.lt_or_ge n 10 with h | h
    · rwa [digitCount, natDigits_of_lt h, List.length_singleton, pow_one]
    · have hquotient : n / 10 < 10 ^ digitCount (n / 10) := ih (n / 10) (by omega)
      rw [digitCount] at hquotient
      rw [digitCount, natDigits_of_le h, List.length_append, List.length_singleton, pow_succ]
      omega

theorem digitCount_le {n k : Nat} (hk : 0 < k) (hn : n < 10 ^ k) : digitCount n ≤ k := by
  induction k generalizing n with
  | zero => omega
  | succ k ih =>
    rcases Nat.lt_or_ge n 10 with h | h
    · simp [digitCount, natDigits_of_lt h]
    · have hdiv : n / 10 < 10 ^ k := by rw [Nat.pow_succ] at hn; omega
      have hpos : 0 < k := by
        rcases Nat.eq_zero_or_pos k with rfl | hk'
        · omega
        · exact hk'
      have := ih hpos hdiv
      rw [digitCount, natDigits_of_le h, List.length_append, List.length_singleton]
      exact Nat.succ_le_succ this

theorem digitCount_pos (n : Nat) : 0 < digitCount n :=
  List.length_pos_iff.2 (natDigits_ne_nil n)

theorem pow_digitCount_le {n : Nat} (h : n ≠ 0) : 10 ^ (digitCount n - 1) ≤ n := by
  by_contra hlt
  rcases Nat.eq_zero_or_pos (digitCount n - 1) with hone | hmore
  · rw [hone] at hlt
    omega
  · have hle := digitCount_le hmore (Nat.not_le.1 hlt)
    omega

/-- What lies between zero and a short integer is short. -/
theorem isShort_of_le {m n : Int} (hm : 0 ≤ m) (hle : m ≤ n) (hn : isShort n = true) :
    isShort m = true := by
  have hlt : m.natAbs < 10 ^ digitCount n.natAbs :=
    lt_of_le_of_lt (by omega) (lt_pow_digitCount n.natAbs)
  exact isShort_iff.2 ((digitCount_le (digitCount_pos _) hlt).trans (isShort_iff.1 hn))

theorem lt_digitCount_pow (k : Nat) : k < digitCount (10 ^ k) :=
  (Nat.pow_lt_pow_iff_right (by decide)).1 (lt_pow_digitCount (10 ^ k))

/-- An integer with more digits than a numeral may have. -/
theorem isShort_pow {k : Nat} (h : maxDigits ≤ k) : isShort (10 ^ k) = false := by
  rw [Bool.eq_false_iff, ne_eq, isShort_iff, Int.natAbs_pow, not_le]
  exact h.trans_lt (lt_digitCount_pow k)

end InscriptionLedger.Numeral
