import InscriptionLedger.Address.Base58
import Mathlib

/-!
# Base 58 read back

A text in base 58 is read back by its leading zero digits, each of which stands for a zero byte, and
by the number that the other digits denote, which is written in as few bytes as it takes. So bytes
are told apart by their texts, and a checked text tells its version and its payload. The number of a
checked text lies between that of its first byte and that of the next one, followed by zeros; with
the size of the payload this fixes the first digits that a text can have.

## Main definitions

* `Base58.bytesOf n`: the bytes of a number, most significant first, as few as it takes
* `Base58.decode s`: the bytes that a text denotes

## Main results

* `Base58.toList_encode`: the leading zeros of a text and its other digits
* `Base58.decode_encode`: the text of bytes denotes them
* `Base58.checkEncode_inj`: a checked text tells its version and its payload
* `Base58.head?_checkEncode`: the first digits that a checked text can have
-/

namespace InscriptionLedger.Base58

/-! ## Digits -/

/-- The value of a digit. -/
def digitValue (c : Char) : Nat := alphabet.idxOf c

theorem digitValue_digit {v : Nat} (h : v < 58) : digitValue (digit v) = v := by
  have all : ∀ v : Fin 58, digitValue (digit v) = v.val := by decide
  exact all ⟨v, h⟩

theorem digit_eq_iff {v w : Nat} (hv : v < 58) (hw : w < 58) : digit v = digit w ↔ v = w := by
  constructor
  · intro h
    rw [← digitValue_digit hv, h, digitValue_digit hw]
  · exact congrArg digit

theorem digits_of_pos {n : Nat} (h : 0 < n) : digits n = digits (n / 58) ++ [n % 58] := by
  rw [digits, if_neg h.ne']

theorem digits_zero : digits 0 = [] := by rw [digits, if_pos rfl]

theorem digits_lt {n d : Nat} (h : d ∈ digits n) : d < 58 := by
  induction n using Nat.strongRecOn with
  | ind n ih =>
    rcases Nat.eq_zero_or_pos n with rfl | hn
    · rw [digits_zero] at h
      cases h
    · rw [digits_of_pos hn] at h
      rcases List.mem_append.1 h with h | h
      · exact ih (n / 58) (by omega) h
      · rw [List.mem_singleton.1 h]
        exact Nat.mod_lt n (by decide)

theorem digits_ne_nil {n : Nat} (h : 0 < n) : digits n ≠ [] := by
  rw [digits_of_pos h]
  exact List.append_ne_nil_of_right_ne_nil _ (List.cons_ne_nil _ _)

theorem digits_of_lt {n : Nat} (h : 0 < n) (h' : n < 58) : digits n = [n] := by
  rw [digits_of_pos h, Nat.div_eq_of_lt h', Nat.mod_eq_of_lt h', digits_zero, List.nil_append]

/-- A number of more than one digit starts as it does without the last one. -/
theorem head?_digits_of_le {n : Nat} (h : 58 ≤ n) : (digits n).head? = (digits (n / 58)).head? := by
  rw [digits_of_pos (by omega), List.head?_append_of_ne_nil _ (digits_ne_nil (by omega))]

/-- A number starts with the digit that it has in front of so many others. -/
theorem head?_digits {n d k : Nat} (hd : 0 < d) (hd' : d < 58) (hlow : d * 58 ^ k ≤ n)
    (hhigh : n < (d + 1) * 58 ^ k) : (digits n).head? = some d := by
  -- Each step drops the last digit of the number and one of the others.
  induction k generalizing n with
  | zero =>
    obtain rfl : n = d := by omega
    rw [digits_of_lt hd hd', List.head?_cons]
  | succ k ih =>
    rw [Nat.pow_succ, ← Nat.mul_assoc] at hlow hhigh
    have hpos : 0 < d * 58 ^ k := Nat.mul_pos hd (Nat.pow_pos (by decide))
    rw [head?_digits_of_le (by omega), ih (by omega) (by omega)]

/-- No number starts with a zero. -/
theorem head?_digits_ne_zero (n : Nat) : (digits n).head? ≠ some 0 := by
  induction n using Nat.strongRecOn with
  | ind n ih =>
    rcases Nat.eq_zero_or_pos n with rfl | hn
    · simp [digits_zero]
    · rcases Nat.lt_or_ge n 58 with hlt | hge
      · rw [digits_of_lt hn hlt, List.head?_cons, Ne, Option.some.injEq]
        omega
      · rw [head?_digits_of_le hge]
        exact ih (n / 58) (by omega)

/-- The digits of a number tell their values. -/
theorem map_digitValue_digits (n : Nat) : ((digits n).map digit).map digitValue = digits n := by
  rw [List.map_map]
  exact (List.map_congr_left fun d hd => digitValue_digit (digits_lt hd)).trans (List.map_id _)

/-! ## Bytes -/

/-- The bytes of a number, most significant first, as few as it takes. -/
def bytesOf (n : Nat) : Bytes := if n = 0 then [] else bytesOf (n / 256) ++ [UInt8.ofNat (n % 256)]
termination_by n
decreasing_by omega

theorem bytesOf_eq_nil_iff {n : Nat} : bytesOf n = [] ↔ n = 0 := by
  rw [bytesOf]
  split
  · next h => simp [h]
  · next h => simp [h]

theorem bytesOf_mul_add {n : Nat} {b : UInt8} (h : 256 * n + b.toNat ≠ 0) :
    bytesOf (256 * n + b.toNat) = bytesOf n ++ [b] := by
  have hb := b.toNat_lt
  rw [bytesOf, if_neg h, Nat.mul_add_div (by decide), Nat.div_eq_of_lt hb, Nat.mul_add_mod,
    Nat.mod_eq_of_lt hb, UInt8.ofNat_toNat, Nat.add_zero]

theorem value_append_singleton (bytes : Bytes) (b : UInt8) :
    value (bytes ++ [b]) = 256 * value bytes + b.toNat := by
  rw [value, List.foldl_append]
  rfl

theorem value_lt (bytes : Bytes) : value bytes < 256 ^ bytes.length := by
  induction bytes using List.reverseRecOn with
  | nil => exact Nat.one_pos
  | append_singleton bytes b ih =>
    have hb := b.toNat_lt
    rw [value_append_singleton, List.length_append, List.length_singleton, Nat.pow_succ]
    omega

/-- The first byte of a list counts as many as lists of the size of the rest. -/
theorem value_cons (b : UInt8) (bytes : Bytes) :
    value (b :: bytes) = b.toNat * 256 ^ bytes.length + value bytes := by
  induction bytes using List.reverseRecOn with
  | nil => simp [value]
  | append_singleton bytes c ih =>
    rw [← List.cons_append, value_append_singleton, ih, value_append_singleton, List.length_append,
      List.length_singleton, Nat.pow_succ]
    ring

/-- The number of bytes is written in the bytes behind the leading zeros. -/
theorem bytesOf_value (bytes : Bytes) : bytesOf (value bytes) = bytes.dropWhile (· == 0) := by
  induction bytes using List.reverseRecOn with
  | nil => exact bytesOf_eq_nil_iff.2 rfl
  | append_singleton bytes b ih =>
    rw [value_append_singleton, List.dropWhile_append, ← ih]
    split
    · next hempty =>
      rw [List.isEmpty_iff, bytesOf_eq_nil_iff] at hempty
      rw [hempty]
      rcases eq_or_ne b 0 with rfl | hne
      · exact bytesOf_eq_nil_iff.2 rfl
      · have hpos : b.toNat ≠ 0 := fun h => hne (UInt8.toNat_inj.1 h)
        rw [bytesOf_mul_add (by omega), bytesOf_eq_nil_iff.2 rfl,
          List.dropWhile_cons_of_neg (by simpa using hne)]
        rfl
    · next hmore =>
      rw [List.isEmpty_iff, bytesOf_eq_nil_iff] at hmore
      exact bytesOf_mul_add (by omega)

/-! ## Texts -/

/-- The bytes that a text denotes: a zero for each leading zero digit, and those of the number that
the other digits denote. -/
def decode (s : String) : Bytes :=
  List.replicate (s.toList.takeWhile (· == '1')).length 0 ++
    bytesOf (digitsValue ((s.toList.dropWhile (· == '1')).map digitValue))

theorem toList_encode (bytes : Bytes) :
    (encode bytes).toList =
      List.replicate (leadingZeros bytes) '1' ++ (digits (value bytes)).map digit :=
  String.toList_ofList

/-- The digits of a number do not start with a zero. -/
theorem takeWhile_map_digit (n : Nat) : ((digits n).map digit).takeWhile (· == '1') = [] := by
  cases hdigits : digits n with
  | nil => rfl
  | cons d rest =>
    have hne : d ≠ 0 := by
      rintro rfl
      exact head?_digits_ne_zero n (by rw [hdigits, List.head?_cons])
    have hd : d < 58 := digits_lt (hdigits ▸ List.mem_cons_self)
    have hdigit : ¬digit d = '1' := fun h => hne ((digit_eq_iff hd (by decide)).1 h)
    rw [List.map_cons, List.takeWhile_cons_of_neg (by simpa using hdigit)]

/-- The leading zero digits of a text are as many as the leading zero bytes. -/
theorem takeWhile_encode (bytes : Bytes) :
    (encode bytes).toList.takeWhile (· == '1') = List.replicate (leadingZeros bytes) '1' := by
  rw [toList_encode, List.takeWhile_append_of_pos (by simp), takeWhile_map_digit, List.append_nil]

theorem dropWhile_encode (bytes : Bytes) :
    (encode bytes).toList.dropWhile (· == '1') = (digits (value bytes)).map digit := by
  have hall := List.takeWhile_append_dropWhile (p := (· == '1')) (l := (encode bytes).toList)
  rw [takeWhile_encode] at hall
  exact List.append_cancel_left (hall.trans (toList_encode bytes))

/-- The text of bytes denotes them. -/
@[simp] theorem decode_encode (bytes : Bytes) : decode (encode bytes) = bytes := by
  have hzeros : List.replicate (leadingZeros bytes) 0 = bytes.takeWhile (· == 0) := by
    rw [eq_comm, List.eq_replicate_iff]
    exact ⟨rfl, fun b hb => by simpa using List.mem_takeWhile_imp hb⟩
  rw [decode, takeWhile_encode, dropWhile_encode, map_digitValue_digits, digitsValue_digits,
    bytesOf_value, List.length_replicate, hzeros, List.takeWhile_append_dropWhile]

theorem encode_injective : Function.Injective encode := Function.LeftInverse.injective decode_encode

/-! ## Checked texts -/

@[simp] theorem length_check (bytes : Bytes) : (check bytes).length = 4 := by
  simp [check]

/-- A checked text tells its version and its payload. -/
theorem checkEncode_inj {payload payload' : Bytes} {version version' : UInt8} :
    checkEncode payload [version] = checkEncode payload' [version'] ↔
      version = version' ∧ payload = payload' := by
  constructor
  · intro h
    have hbytes := (List.append_inj' (encode_injective h) (by simp)).1
    rwa [List.singleton_append, List.singleton_append, List.cons.injEq] at hbytes
  · rintro ⟨rfl, rfl⟩
    rfl

/-! ## First characters -/

/-- A number of bytes lies between its first byte and the next one, followed by zeros. -/
theorem value_cons_between (b : UInt8) (bytes : Bytes) :
    b.toNat * 256 ^ bytes.length ≤ value (b :: bytes) ∧
      value (b :: bytes) < (b.toNat + 1) * 256 ^ bytes.length := by
  have hrest := value_lt bytes
  rw [value_cons, Nat.succ_mul]
  omega

/-- The text of bytes that start with a zero starts with a zero. -/
theorem head?_encode_zero (bytes : Bytes) : (encode (0 :: bytes)).toList.head? = some '1' := by
  rw [toList_encode, leadingZeros, List.takeWhile_cons_of_pos (by decide), List.length_cons,
    List.replicate_succ, List.cons_append, List.head?_cons]

/-- The text of bytes that do not start with a zero starts as their number does. -/
theorem head?_encode {b : UInt8} (hb : b ≠ 0) (bytes : Bytes) :
    (encode (b :: bytes)).toList.head? = (digits (value (b :: bytes))).head?.map digit := by
  rw [toList_encode, leadingZeros, List.takeWhile_cons_of_neg (by simpa using hb), List.length_nil,
    List.replicate_zero, List.nil_append, List.head?_map]

/-- A checked text of twenty bytes starts with one of the digits between which all numbers are that
start with its version, if these have as many digits. -/
theorem head?_checkEncode {payload : Bytes} (h : payload.length = 20) {version : UInt8}
    {low high k : Nat} (hpos : 0 < low) (hdigit : high ≤ 58)
    (hlow : low * 58 ^ k ≤ version.toNat * 256 ^ 24)
    (hhigh : (version.toNat + 1) * 256 ^ 24 ≤ high * 58 ^ k) :
    ∃ d, low ≤ d ∧ d < high ∧ (checkEncode payload [version]).toList.head? = some (digit d) := by
  have hpow : 0 < 58 ^ k := Nat.pow_pos (by decide)
  have hversion : version ≠ 0 := by
    rintro rfl
    have := Nat.mul_pos hpos hpow
    simp at hlow
    omega
  have hbetween := value_cons_between version (payload ++ check (version :: payload))
  rw [List.length_append, length_check, h] at hbetween
  have hencode : checkEncode payload [version] =
      encode (version :: (payload ++ check (version :: payload))) := rfl
  generalize payload ++ check (version :: payload) = rest at hbetween hencode
  have hd : low ≤ value (version :: rest) / 58 ^ k :=
    (Nat.le_div_iff_mul_le hpow).2 (hlow.trans hbetween.1)
  have hd' : value (version :: rest) / 58 ^ k < high :=
    (Nat.div_lt_iff_lt_mul hpow).2 (hbetween.2.trans_le hhigh)
  refine ⟨value (version :: rest) / 58 ^ k, hd, hd', ?_⟩
  rw [hencode, head?_encode hversion, head?_digits (by omega) (by omega) (Nat.div_mul_le_self _ _)
    ((Nat.div_lt_iff_lt_mul hpow).1 (Nat.lt_succ_self _)), Option.map_some]

end InscriptionLedger.Base58
