import InscriptionLedger.Proofs.IdentifierTexts

/-!
# Names of inscriptions

An inscription is named by sixty-four characters, the letter and digits. All texts of sixty-four
hexadecimal digits are taken, but so are texts with ASCII blanks among the characters, since these
may stand between the digits of two bytes: such a text names a transaction whose id is no
hexadecimal number of thirty-two bytes.

## Main definitions

* `isLowerHexDigit`: the digits of transaction ids
* `InscriptionId.IsHexName`: inscriptions whose transactions are named as documented
* `InscriptionId.IsNamedBy`: what a text tells of the inscription that it names

## Main results

* `InscriptionId.read?_of_hexDigits`: sixty-four digits of either case, the letter and a decimal
  numeral name an inscription
* `InscriptionId.isNamedBy_of_read?`: the transaction of an inscription that was read is made of
  digits and ASCII blanks, and is a hexadecimal number if the text holds no such blank
* `InscriptionId.not_forall_isHexName`: a text that holds one
-/

namespace InscriptionLedger

open Text

/-- The digits in which the ids of transactions are written. -/
def isLowerHexDigit (c : Char) : Bool :=
  (0x30 ≤ c.toNat && c.toNat ≤ 0x39) || (0x61 ≤ c.toNat && c.toNat ≤ 0x66)

theorem isLowerHexDigit_toLower {c : Char} (h : (Hex.digitValue? c).isSome) :
    isLowerHexDigit c.toLower = true := by
  rw [← (Hex.toLower_spec c).1] at h
  have hupper : ¬(0x41 ≤ c.toLower.toNat ∧ c.toLower.toNat ≤ 0x46) := by
    rintro ⟨hfirst, hlast⟩
    have hfalse := c.isUpper_toLower_eq_false
    have htrue : c.toLower.isUpper = true := decide_eq_true
      ⟨UInt32.le_iff_toNat_le.2 hfirst, UInt32.le_iff_toNat_le.2 (Nat.le_trans hlast (by decide))⟩
    rw [hfalse] at htrue
    cases htrue
  unfold Hex.digitValue? at h
  dsimp only at h
  rw [if_neg hupper] at h
  simp only [isLowerHexDigit, Bool.or_eq_true, Bool.and_eq_true, decide_eq_true_eq]
  split_ifs at h with hdecimal hletter
  · exact .inl hdecimal
  · exact .inr hletter
  · cases h

theorem isAsciiBlank_of_isLowerHexDigit {c : Char} (h : isLowerHexDigit c = true) :
    isAsciiBlank c = false := by
  simp only [isLowerHexDigit, Bool.or_eq_true, Bool.and_eq_true, decide_eq_true_eq] at h
  simp only [isAsciiBlank, Bool.or_eq_false_iff, Bool.and_eq_false_iff, decide_eq_false_iff_not,
    beq_eq_false_iff_ne]
  omega

theorem isAsciiBlank_of_isDigit {c : Char} (h : isDigit c = true) : isAsciiBlank c = false := by
  have all : ∀ n : Fin 33, isDigit (Char.ofNat n) = true → isAsciiBlank (Char.ofNat n) = false := by
    decide
  rcases Nat.lt_or_ge c.toNat 33 with hlow | hhigh
  · have := all ⟨c.toNat, hlow⟩
    rw [Char.ofNat_toNat] at this
    exact this h
  · simp only [isAsciiBlank, Bool.or_eq_false_iff, Bool.and_eq_false_iff, decide_eq_false_iff_not,
      beq_eq_false_iff_ne]
    omega

/-! ## Texts that name inscriptions -/

/-- Pairs of digits are read as bytes. -/
theorem Hex.exists_readChars?_eq {cs : List Char} (hpairs : cs.length % 2 = 0)
    (hdigits : ∀ c ∈ cs, (digitValue? c).isSome) : ∃ bytes, readChars? cs = some bytes := by
  fun_induction readChars? cs with
  | case1 => exact ⟨[], rfl⟩
  | case2 c => simp at hpairs
  | case3 c => simp at hpairs
  | case4 c d rest hblank =>
    have := isBlank_of_digitValue? (hdigits c List.mem_cons_self)
    rw [isBlank_of_isAsciiBlank hblank] at this
    cases this
  | case5 c d rest hblank ih =>
    simp only [List.forall_mem_cons, Option.isSome_iff_exists] at hdigits
    obtain ⟨⟨high, hhigh⟩, ⟨low, hlow⟩, hrest⟩ := hdigits
    rw [List.length_cons, List.length_cons] at hpairs
    obtain ⟨bytes, hbytes⟩ := ih (by omega) fun c hc => Option.isSome_iff_exists.2 (hrest c hc)
    exact ⟨UInt8.ofNat (16 * high + low) :: bytes, by simp only [hhigh, hlow, hbytes]; rfl⟩

namespace InscriptionId

/-- Sixty-four hexadecimal digits of either case, the letter and a decimal numeral name an
inscription. -/
theorem read?_of_hexDigits {s : String} {before after txid : List Char} {digits : List Nat}
    (hs : s.toList = before ++ (txid ++ 'i' :: digits.map Numeral.digitChar) ++ after)
    (hbefore : ∀ c ∈ before, isBlank c = true) (hafter : ∀ c ∈ after, isBlank c = true)
    (hlength : txid.length = 64) (hhex : ∀ c ∈ txid, (Hex.digitValue? c).isSome)
    (hne : digits ≠ []) (hlt : ∀ d ∈ digits, d < 10) (hshort : digits.length ≤ Numeral.maxDigits) :
    read? s = .ok ⟨.ofText (String.ofList (txid.map Char.toLower)), Numeral.value digits⟩ := by
  have hne' : txid ≠ [] := List.ne_nil_of_length_pos (by omega)
  have htrim : IsTrimmed isBlank (txid ++ 'i' :: digits.map Numeral.digitChar) := by
    refine isTrimmed_append_cons hne' (fun c hc => ?_) (by simpa using hne) fun c hc => ?_
    · exact Hex.isBlank_of_digitValue? (hhex c (List.mem_of_mem_head? hc))
    · obtain ⟨d, hd, rfl⟩ := List.mem_map.1 hc
      exact Numeral.isBlank_of_isNumeralChar (Numeral.isNumeralChar_digitChar (hlt d hd))
  have hchars : ofChars? (txid ++ 'i' :: digits.map Numeral.digitChar) =
      some ⟨.ofText (String.ofList (txid.map Char.toLower)), Numeral.value digits⟩ := by
    refine ofChars?_eq_some_iff.2 ⟨txid, _, rfl, hlength, ?_, fun c hc => ?_, ?_, rfl⟩
    · exact Hex.exists_readChars?_eq (by omega) hhex
    · obtain ⟨d, hd, rfl⟩ := List.mem_map.1 hc
      exact Numeral.isDigit_digitChar (hlt d hd)
    · exact Numeral.readChars?_map_digitChar hne hlt hshort
  rw [read?, hs, trimBy_append htrim hbefore hafter, hchars]

/-! ## Inscriptions that texts name -/

/-- An inscription whose transaction is named by thirty-two bytes in lower-case digits and whose
index is a natural number. -/
def IsHexName (id : InscriptionId) : Prop :=
  ∃ (txid : List Char) (n : Nat), txid.length = 64 ∧ (∀ c ∈ txid, isLowerHexDigit c = true) ∧
    id.txid = .ofText (String.ofList txid) ∧ id.index = n ∧
    id.text.toList = txid ++ 'i' :: Numeral.natChars n

/-- What a text without blanks around it tells of the inscription that it names: its transaction is
a text of sixty-four characters that are digits or ASCII blanks, its index is the number behind the
letter, which is not negative, and the transaction is a hexadecimal number exactly if the text holds
no ASCII blank. -/
structure IsNamedBy (id : InscriptionId) (cs : List Char) : Prop where
  txid : ∃ txid : List Char, id.txid = .ofText (String.ofList txid) ∧ txid.length = 64 ∧
    (∀ c ∈ txid, isLowerHexDigit c = true ∨ isAsciiBlank c = true) ∧
    ∀ c ∈ txid.head?, isLowerHexDigit c = true
  index : ∃ before digits, cs = before ++ 'i' :: digits ∧
    Numeral.readChars? digits = some id.index ∧ 0 ≤ id.index
  isHexName_iff : id.IsHexName ↔ ∀ c ∈ cs, isAsciiBlank c = false

theorem isNamedBy_of_read? {s : String} {id : InscriptionId} (h : read? s = .ok id) :
    id.IsNamedBy (trimBy isBlank s.toList) := by
  have hchars : ofChars? (trimBy isBlank s.toList) = some id := by
    unfold read? at h
    split at h
    · next hchars => rw [hchars, Except.ok.inj h]
    · cases h
  have htrim := isTrimmed_trimBy isBlank s.toList
  generalize trimBy isBlank s.toList = cs at hchars htrim
  obtain ⟨txid, index, rfl, hlength, ⟨bytes, hbytes⟩, hdigits, hn, htxid⟩ :=
    ofChars?_eq_some_iff.1 hchars
  have hne : txid ≠ [] := List.ne_nil_of_length_pos (by omega)
  have hlower (c : Char) (hc : c ∈ txid) :
      isLowerHexDigit c.toLower = true ∨ isAsciiBlank c.toLower = true := by
    rw [(Hex.toLower_spec c).2]
    exact (Hex.mem_of_readChars? hbytes c hc).imp_left isLowerHexDigit_toLower
  constructor
  case txid =>
    refine ⟨txid.map Char.toLower, htxid, by rw [List.length_map, hlength], ?_, fun d hd => ?_⟩
    · exact List.forall_mem_map.2 hlower
    · rw [List.head?_map, Option.mem_def, Option.map_eq_some_iff] at hd
      obtain ⟨c, hc, rfl⟩ := hd
      apply isLowerHexDigit_toLower
      refine Hex.isSome_of_head hbytes hc (htrim.head c ?_)
      rwa [List.head?_append_of_ne_nil _ hne]
  case index => exact ⟨txid, index, rfl, hn, index_nonneg_of_readChars? hdigits hn⟩
  case isHexName_iff =>
    -- Behind the letter stand digits, so that a blank in the text is one of the transaction.
    have hindex : ∀ c ∈ 'i' :: index, isAsciiBlank c = false :=
      List.forall_mem_cons.2 ⟨by decide, fun c hc => isAsciiBlank_of_isDigit (hdigits c hc)⟩
    constructor
    · rintro ⟨chars, -, -, hhex, htext, -⟩
      rw [htxid] at htext
      obtain rfl : txid.map Char.toLower = chars := by
        simpa using congrArg (fun id : TransactionId => id.text.toList) htext
      refine List.forall_mem_append.2 ⟨fun c hc => ?_, hindex⟩
      rw [← (Hex.toLower_spec c).2]
      exact isAsciiBlank_of_isLowerHexDigit (hhex _ (List.mem_map_of_mem hc))
    · intro hblank
      obtain ⟨n, hindexed⟩ := Int.eq_ofNat_of_zero_le (index_nonneg_of_readChars? hdigits hn)
      refine ⟨txid.map Char.toLower, n, by rw [List.length_map, hlength], ?_, htxid, hindexed, ?_⟩
      · refine List.forall_mem_map.2 fun c hc => (hlower c hc).resolve_right fun hascii => ?_
        rw [(Hex.toLower_spec c).2, hblank c (List.mem_append_left _ hc)] at hascii
        cases hascii
      · rw [toList_text, htxid, hindexed, TransactionId.text_ofText, String.toList_ofList,
          Numeral.intChars_natCast]

/-- What a text names: an inscription that is read of it is named by it, and it is read if it is
made of sixty-four hexadecimal digits of either case, the letter and a decimal numeral, with any
blanks around them. -/
theorem read?_names (s : String) :
    (∀ id, read? s = .ok id → id.IsNamedBy (trimBy isBlank s.toList)) ∧
    ∀ (before after txid : List Char) (digits : List Nat),
      s.toList = before ++ (txid ++ 'i' :: digits.map Numeral.digitChar) ++ after →
      (∀ c ∈ before, isBlank c = true) → (∀ c ∈ after, isBlank c = true) →
      txid.length = 64 → (∀ c ∈ txid, (Hex.digitValue? c).isSome) →
      digits ≠ [] → (∀ d ∈ digits, d < 10) → digits.length ≤ Numeral.maxDigits →
      read? s = .ok ⟨.ofText (String.ofList (txid.map Char.toLower)), Numeral.value digits⟩ :=
  ⟨fun _ => isNamedBy_of_read?, fun _ _ _ _ => read?_of_hexDigits⟩

/-- A text in capitals, with a zero in front of its index and wide blanks around it. -/
theorem read?_names_capitals :
    let s := String.ofList (['\u2003'] ++ (List.replicate 64 'A' ++ ['i', '0', '7']) ++ ['\u2003'])
    let id : InscriptionId := ⟨.ofText (String.ofList (List.replicate 64 'a')), 7⟩
    read? s = .ok id ∧ id.IsHexName := by
  intro s id
  obtain ⟨named, accepted⟩ := read?_names s
  have hread : read? s = .ok id := by
    have hwide : ∀ c ∈ ['\u2003'], isBlank c = true := List.forall_mem_singleton.2 (by decide)
    have h := accepted _ _ (List.replicate 64 'A') [0, 7] String.toList_ofList hwide hwide rfl
      (fun c hc => by rw [List.eq_of_mem_replicate hc]; rfl) (by decide) (by decide) (by decide)
    rwa [List.map_replicate] at h
  refine ⟨hread, (named id hread).isHexName_iff.2 fun c hc => ?_⟩
  have hmem := mem_of_mem_trimBy hc
  simp only [s, String.toList_ofList, List.mem_append, List.mem_replicate, List.mem_cons,
    List.not_mem_nil, or_false] at hmem
  rcases hmem with (rfl | ⟨-, rfl⟩ | rfl | rfl | rfl) | rfl <;> decide

/-- A text can name an inscription whose transaction is not named by thirty-two bytes: here those of
thirty-one and two blanks. -/
theorem not_forall_isHexName : ¬∀ s id, read? s = .ok id → id.IsHexName := by
  intro h
  let txid := String.ofList ((List.replicate 31 ['a', 'b']).flatten ++ [' ', ' '])
  have hread : read? (txid ++ "i0") = .ok ⟨.ofText txid, 0⟩ :=
    Outcome.toOption_eq_some_iff.1 (by decide +kernel)
  obtain ⟨chars, -, -, hhex, htxid, -⟩ := h _ _ hread
  have hchars : txid.toList = chars := by
    simpa using congrArg (fun id : TransactionId => id.text.toList) htxid
  have hblank : ' ' ∈ txid.toList := by
    decide +kernel
  have := hhex ' ' (hchars ▸ hblank)
  revert this
  decide

end InscriptionId

end InscriptionLedger
