import InscriptionLedger.Proofs.Base58Reading

/-!
# Checked texts by the rules of base 58

A text in base 58 is read by three rules: all its characters are digits, each zero digit at its
front stands for a zero byte at the front of the bytes, and its other digits denote the number of
the other bytes, which are as few as that number takes. For each sequence of bytes one text meets
these rules, and it is the one that is written. So a checked text tells its version, its payload and
the check behind them, however long these are and however many zeros they start with.

## Main definitions

* `Base58.IsFewest n bytes`: the fewest bytes of a number
* `Base58.IsTextOf text bytes`: a text that the rules read as bytes

## Main results

* `Base58.isFewest_iff`: the fewest bytes of a number are those that do not start with a zero
* `Base58.isTextOf_iff`: the one text of bytes is the one that is written
* `Base58.checkEncode_isTextOf`: a checked text is the one text of its version, its payload and the
  check
-/

namespace InscriptionLedger.Base58

/-! ## The fewest bytes of a number -/

/-- The fewest bytes that denote a number, most significant first. -/
structure IsFewest (n : Nat) (bytes : Bytes) : Prop where
  value : value bytes = n
  length_le : ∀ other : Bytes, Base58.value other = n → bytes.length ≤ other.length

/-- Bytes that do not start with a zero denote a number of their size. -/
theorem le_value {b : UInt8} (h : b ≠ 0) (bytes : Bytes) :
    256 ^ bytes.length ≤ value (b :: bytes) := by
  have hb : 0 < b.toNat := by
    refine Nat.pos_of_ne_zero fun hzero => h ?_
    exact UInt8.toNat_inj.1 hzero
  calc 256 ^ bytes.length ≤ b.toNat * 256 ^ bytes.length := Nat.le_mul_of_pos_left _ hb
    _ ≤ b.toNat * 256 ^ bytes.length + value bytes := Nat.le_add_right _ _
    _ = value (b :: bytes) := (value_cons b bytes).symm

/-- The fewest bytes of a number are those that do not start with a zero. -/
theorem isFewest_iff {n : Nat} {bytes : Bytes} :
    IsFewest n bytes ↔ value bytes = n ∧ bytes.head? ≠ some 0 := by
  cases bytes with
  | nil => exact ⟨fun h => ⟨h.value, nofun⟩, fun h => ⟨h.1, fun _ _ => Nat.zero_le _⟩⟩
  | cons b rest =>
    rw [List.head?_cons, Ne, Option.some.injEq]
    constructor
    · intro h
      refine ⟨h.value, ?_⟩
      rintro rfl
      have hrest : value rest = n := by
        rw [← h.value, value_cons, UInt8.toNat_zero, Nat.zero_mul, Nat.zero_add]
      have := h.length_le rest hrest
      rw [List.length_cons] at this
      omega
    · rintro ⟨rfl, hb⟩
      refine ⟨rfl, fun other hother => ?_⟩
      have hlt : 256 ^ rest.length < 256 ^ other.length :=
        (le_value hb rest).trans_lt (hother ▸ value_lt other)
      exact (Nat.pow_lt_pow_iff_right (by decide)).1 hlt

/-- Leading zeros do not count. -/
theorem value_dropWhile (bytes : Bytes) : value (bytes.dropWhile (· == 0)) = value bytes := by
  induction bytes with
  | nil => rfl
  | cons b rest ih =>
    rcases eq_or_ne b 0 with rfl | hne
    · rw [List.dropWhile_cons_of_pos (by decide), ih, value_cons, UInt8.toNat_zero, Nat.zero_mul,
        Nat.zero_add]
    · rw [List.dropWhile_cons_of_neg (by simpa using hne)]

theorem isFewest_dropWhile (bytes : Bytes) :
    IsFewest (value bytes) (bytes.dropWhile (· == 0)) := by
  refine isFewest_iff.2 ⟨value_dropWhile bytes, fun hzero => ?_⟩
  have := List.head?_dropWhile_not (· == 0) bytes
  rw [hzero] at this
  simp at this

/-! ## Digits -/

theorem digitValue_lt {c : Char} (h : c ∈ alphabet) : digitValue c < 58 :=
  List.idxOf_lt_length_of_mem h

theorem digit_digitValue {c : Char} (h : c ∈ alphabet) : digit (digitValue c) = c := by
  have hlt : alphabet.idxOf c < alphabet.length := List.idxOf_lt_length_of_mem h
  rw [digit, digitValue, List.getD_eq_getElem _ _ hlt, List.getElem_idxOf]

theorem digit_mem {v : Nat} (h : v < 58) : digit v ∈ alphabet := by
  have hlt : v < alphabet.length := h
  rw [digit, List.getD_eq_getElem _ _ hlt]
  exact List.getElem_mem hlt

theorem digitsValue_append_singleton (ds : List Nat) (d : Nat) :
    digitsValue (ds ++ [d]) = 58 * digitsValue ds + d := by
  rw [digitsValue, List.foldl_append]
  rfl

/-- Digits that do not start with a zero are those of their number. -/
theorem digits_digitsValue {ds : List Nat} (hlt : ∀ d ∈ ds, d < 58) (hhead : ds.head? ≠ some 0) :
    digits (digitsValue ds) = ds := by
  induction ds using List.reverseRecOn with
  | nil => exact digits_zero
  | append_singleton ds d ih =>
    rw [List.forall_mem_append] at hlt
    have hd : d < 58 := hlt.2 d (List.mem_singleton_self d)
    rcases eq_or_ne ds [] with rfl | hne
    · have hpos : d ≠ 0 := by
        rintro rfl
        exact hhead rfl
      show digits (58 * 0 + d) = [d]
      rw [digits_of_lt (by omega) (by omega), Nat.mul_zero, Nat.zero_add]
    · rw [List.head?_append_of_ne_nil _ hne] at hhead
      have hds := ih hlt.1 hhead
      have hpos : digitsValue ds ≠ 0 := by
        intro hzero
        rw [hzero, digits_zero] at hds
        exact hne hds.symm
      rw [digitsValue_append_singleton, digits_of_pos (by omega), Nat.mul_add_div (by decide),
        Nat.div_eq_of_lt hd, Nat.mul_add_mod, Nat.mod_eq_of_lt hd, Nat.add_zero, hds]

/-! ## The rules -/

/-- A text that is read as bytes: its characters are digits, each zero digit at its front stands for
a zero byte at theirs, and the number of its other digits is that of the other bytes, which are the
fewest of it. -/
structure IsTextOf (text : String) (bytes : Bytes) : Prop where
  digits : ∀ c ∈ text.toList, c ∈ alphabet
  zeros : (text.toList.takeWhile (· == '1')).length = (bytes.takeWhile (· == 0)).length
  others : IsFewest (digitsValue ((text.toList.dropWhile (· == '1')).map digitValue))
    (bytes.dropWhile (· == 0))

theorem mem_alphabet_of_mem_encode {bytes : Bytes} {c : Char} (h : c ∈ (encode bytes).toList) :
    c ∈ alphabet := by
  rw [toList_encode, List.mem_append] at h
  rcases h with h | h
  · rw [List.eq_of_mem_replicate h]
    exact digit_mem (v := 0) (by decide)
  · obtain ⟨d, hd, rfl⟩ := List.mem_map.1 h
    exact digit_mem (digits_lt hd)

theorem digitsValue_encode (bytes : Bytes) :
    digitsValue (((encode bytes).toList.dropWhile (· == '1')).map digitValue) = value bytes := by
  rw [dropWhile_encode, map_digitValue_digits, digitsValue_digits]

/-- The text that is written is read as the bytes. -/
theorem isTextOf_encode (bytes : Bytes) : IsTextOf (encode bytes) bytes := by
  constructor
  case digits => exact fun c => mem_alphabet_of_mem_encode
  case zeros =>
    rw [takeWhile_encode, List.length_replicate]
    rfl
  case others =>
    rw [digitsValue_encode]
    exact isFewest_dropWhile bytes

/-- The digits behind the zeros of a text are those of the number that they denote. -/
theorem dropWhile_of_digits {cs : List Char} (h : ∀ c ∈ cs, c ∈ alphabet) :
    cs.dropWhile (· == '1') =
      (digits (digitsValue ((cs.dropWhile (· == '1')).map digitValue))).map digit := by
  have hdigits : ∀ c ∈ cs.dropWhile (· == '1'), c ∈ alphabet :=
    fun c hc => h c ((List.dropWhile_suffix _).subset hc)
  -- A digit that stands for zero is the one that is dropped, so the first one left is another.
  have hhead : ((cs.dropWhile (· == '1')).map digitValue).head? ≠ some 0 := by
    rw [List.head?_map, Ne, Option.map_eq_some_iff]
    rintro ⟨c, hc, hzero⟩
    have hone : c = digit 0 := by rw [← hzero, digit_digitValue (hdigits c (List.mem_of_head? hc))]
    have := List.head?_dropWhile_not (· == '1') cs
    rw [hc, hone] at this
    cases this
  rw [digits_digitsValue (List.forall_mem_map.2 fun c hc => digitValue_lt (hdigits c hc)) hhead,
    List.map_map]
  exact ((List.map_congr_left fun c hc => digit_digitValue (hdigits c hc)).trans
    (List.map_id _)).symm

/-- The one text that is read as bytes is the one that is written. -/
theorem isTextOf_iff {text : String} {bytes : Bytes} :
    IsTextOf text bytes ↔ text = encode bytes := by
  constructor
  · intro h
    have hvalue : digitsValue ((text.toList.dropWhile (· == '1')).map digitValue) = value bytes :=
      h.others.value.symm.trans (value_dropWhile bytes)
    have hzeros : text.toList.takeWhile (· == '1') = List.replicate (leadingZeros bytes) '1' :=
      List.eq_replicate_iff.2 ⟨h.zeros, fun c hc => by simpa using List.mem_takeWhile_imp hc⟩
    rw [← String.toList_inj, toList_encode, ← hzeros, ← hvalue, ← dropWhile_of_digits h.digits,
      List.takeWhile_append_dropWhile]
  · rintro rfl
    exact isTextOf_encode bytes

/-- A checked text is the one text of its version, its payload and the first four bytes of their
double digest, and it denotes them. -/
theorem checkEncode_isTextOf (payload version : Bytes) :
    let bytes := version ++ payload ++ (Sha256.doubleDigest (version ++ payload)).take 4
    decode (checkEncode payload version) = bytes ∧
      ∀ text, IsTextOf text bytes ↔ text = checkEncode payload version :=
  ⟨decode_encode _, fun _ => isTextOf_iff⟩

end InscriptionLedger.Base58
