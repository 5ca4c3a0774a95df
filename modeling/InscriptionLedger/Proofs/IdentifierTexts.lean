import InscriptionLedger.Proofs.StoredForm
import InscriptionLedger.Text.Lower

/-!
# Texts of identifiers

An identifier that was read has one text, however it was given: with blanks around it, with a sign,
underscores or leading zeros in its numbers, with digits of another script or capital letters. That
text reads back as the identifier, so it can stand for the identifier wherever a text is needed, as
the key of a table or the place in a stored transaction.

## Main definitions

* `IsCanonical`: a reader of texts and a writer whose texts read back

## Main results

* `Hex.readChars?_map_toLower`: hexadecimal text is read the same in lower case
* `InscriptionId.ofChars?_text`, `SatPoint.ofChars?_text`: the texts of identifiers read back
* `identifiers_isCanonical`: what is read of any text has one text, and it reads back
-/

namespace InscriptionLedger

open Text

/-- A reader of texts that fails with a wording of its own, and a writer whose texts read back: with
any blanks around them, and to one value each. -/
structure IsCanonical {α : Type} (read : String → Outcome α) (write : α → String) (head : String) :
    Prop where
  outcome : ∀ s, (∃ v, read s = .ok v) ∨
    ∃ fault, read s = .error (.value fault) ∧ fault.message? = some (head ++ s)
  again : ∀ s v, read s = .ok v → ∀ before after : String,
    (∀ c ∈ before.toList, isBlank c = true) → (∀ c ∈ after.toList, isBlank c = true) →
      read (before ++ write v ++ after) = .ok v
  injective : ∀ s t v w, read s = .ok v → read t = .ok w → write v = write w → v = w

section

variable {α : Type} {read : String → Outcome α} {write : α → String} {head : String}

/-- A reader that drops the blanks around a text is canonical if it reads back the text of what it
read, and that text has no blanks around it. -/
theorem isCanonical_of_ofChars? (ofChars? : List Char → Option α) (fault : String → ValueFault)
    (hsome : ∀ s v, ofChars? (trimBy isBlank s.toList) = some v → read s = .ok v)
    (hnone : ∀ s, ofChars? (trimBy isBlank s.toList) = none → read s = .error (.value (fault s)))
    (hwording : ∀ s, (fault s).message? = some (head ++ s))
    (htext : ∀ cs v, IsTrimmed isBlank cs → ofChars? cs = some v →
      IsTrimmed isBlank (write v).toList ∧ ofChars? (write v).toList = some v) :
    IsCanonical read write head := by
  have again : ∀ s v, read s = .ok v → ∀ before after : String,
      (∀ c ∈ before.toList, isBlank c = true) → (∀ c ∈ after.toList, isBlank c = true) →
        read (before ++ write v ++ after) = .ok v := by
    intro s v hv before after hbefore hafter
    cases hchars : ofChars? (trimBy isBlank s.toList) with
    | none =>
      rw [hnone s hchars] at hv
      cases hv
    | some w =>
      rw [hsome s w hchars] at hv
      obtain rfl := Except.ok.inj hv
      obtain ⟨htrim, hback⟩ := htext _ w (isTrimmed_trimBy _ _) hchars
      apply hsome
      rw [String.toList_append, String.toList_append, trimBy_append htrim hbefore hafter, hback]
  constructor
  case outcome =>
    intro s
    cases hchars : ofChars? (trimBy isBlank s.toList) with
    | none => exact .inr ⟨fault s, hnone s hchars, hwording s⟩
    | some v => exact .inl ⟨v, hsome s v hchars⟩
  case again => exact again
  case injective =>
    intro s t v w hv hw heq
    have hback := again s v hv "" "" nofun nofun
    rw [heq, again t w hw "" "" nofun nofun] at hback
    exact (Except.ok.inj hback).symm

end

/-! ## Hexadecimal text -/

namespace Hex

/-- A letter means the same in lower case, as a digit and as a blank. -/
theorem toLower_spec (c : Char) :
    digitValue? c.toLower = digitValue? c ∧ isAsciiBlank c.toLower = isAsciiBlank c := by
  have all : ∀ n : Fin 26,
      digitValue? (Char.ofNat (0x41 + n)).toLower = digitValue? (Char.ofNat (0x41 + n)) ∧
      isAsciiBlank (Char.ofNat (0x41 + n)).toLower = isAsciiBlank (Char.ofNat (0x41 + n)) := by
    decide
  cases h : c.isUpper with
  | true =>
    obtain ⟨n, rfl⟩ := exists_ofNat_of_isUpper h
    exact all n
  | false => rw [Char.toLower_eq_of_not_isUpper (by simp [h])]; exact ⟨rfl, rfl⟩

/-- Hexadecimal text is read the same in lower case. -/
theorem readChars?_map_toLower (cs : List Char) :
    readChars? (cs.map Char.toLower) = readChars? cs := by
  fun_induction readChars? cs with
  | case1 => rfl
  | case2 c h => simp [readChars?, (toLower_spec c).2, h]
  | case3 c h => simp [readChars?, (toLower_spec c).2, h]
  | case4 c d rest h ih =>
    rw [List.map_cons] at ih
    simp [readChars?, (toLower_spec c).2, h, ih]
  | case5 c d rest h ih =>
    simp [readChars?, toLower_spec, h, ih]

/-- What is read as bytes is made of digits and ASCII blanks. -/
theorem mem_of_readChars? {cs : List Char} {bytes : Bytes} (h : readChars? cs = some bytes) :
    ∀ c ∈ cs, (digitValue? c).isSome ∨ isAsciiBlank c = true := by
  fun_induction readChars? cs generalizing bytes with
  | case1 => exact nofun
  | case2 c hblank => exact List.forall_mem_singleton.2 (.inr hblank)
  | case3 c hblank => cases h
  | case4 c d rest hblank ih => exact List.forall_mem_cons.2 ⟨.inr hblank, ih h⟩
  | case5 c d rest hblank ih =>
    simp only [Option.bind_eq_bind, Option.bind_eq_some_iff, Option.pure_def] at h
    obtain ⟨high, hhigh, low, hlow, more, hmore, -⟩ := h
    refine List.forall_mem_cons.2 ⟨.inl ?_, List.forall_mem_cons.2 ⟨.inl ?_, ih hmore⟩⟩
    · rw [hhigh]; rfl
    · rw [hlow]; rfl

/-- A hexadecimal digit is no blank. -/
theorem isBlank_of_digitValue? {c : Char} (h : (digitValue? c).isSome) : isBlank c = false := by
  have hc : (0x30 ≤ c.toNat ∧ c.toNat ≤ 0x39) ∨ (0x41 ≤ c.toNat ∧ c.toNat ≤ 0x66) := by
    unfold digitValue? at h
    dsimp only at h
    split_ifs at h
    · exact .inl ‹_›
    · exact .inr (by omega)
    · exact .inr (by omega)
    · cases h
  simp only [isBlank, isNumberBlank, Bool.or_eq_false_iff, Bool.and_eq_false_iff,
    decide_eq_false_iff_not, beq_eq_false_iff_ne]
  omega

theorem isBlank_of_isAsciiBlank {c : Char} (h : isAsciiBlank c = true) : isBlank c = true := by
  simp only [isAsciiBlank, Bool.or_eq_true, Bool.and_eq_true, decide_eq_true_eq, beq_iff_eq] at h
  simp only [isBlank, isNumberBlank, Bool.or_eq_true, Bool.and_eq_true, decide_eq_true_eq,
    beq_iff_eq]
  omega

/-- Hexadecimal text that does not start with a blank starts with a digit. -/
theorem isSome_of_head {cs : List Char} {bytes : Bytes} (h : readChars? cs = some bytes)
    {c : Char} (hc : c ∈ cs.head?) (hblank : isBlank c = false) : (digitValue? c).isSome := by
  refine (mem_of_readChars? h c (List.mem_of_mem_head? hc)).resolve_right fun hascii => ?_
  rw [isBlank_of_isAsciiBlank hascii] at hblank
  cases hblank

end Hex

/-! ## Inscriptions -/

namespace InscriptionId

/-- How an inscription is spelled without blanks around it: sixty-four characters that are read as
bytes, the letter, and digits. -/
theorem ofChars?_eq_some_iff {cs : List Char} {id : InscriptionId} :
    ofChars? cs = some id ↔ ∃ txid index, cs = txid ++ 'i' :: index ∧ txid.length = 64 ∧
      (∃ bytes, Hex.readChars? txid = some bytes) ∧ (∀ c ∈ index, isDigit c = true) ∧
      Numeral.readChars? index = some id.index ∧
      id.txid = .ofText (String.ofList (txid.map Char.toLower)) := by
  constructor
  · intro h
    unfold ofChars? at h
    split at h
    · cases h
    · next txid index hsplit =>
      obtain ⟨rfl, -⟩ := append_of_splitLast? hsplit
      split at h
      · next hshape =>
        obtain ⟨hlength, -, hdigits⟩ := hshape
        rw [List.all_eq_true] at hdigits
        split at h
        · next bytes n hbytes hn =>
          obtain rfl := Option.some.inj h
          exact ⟨txid, index, rfl, hlength, ⟨bytes, hbytes⟩, hdigits, hn, rfl⟩
        · cases h
      · cases h
  · rintro ⟨txid, index, rfl, hlength, ⟨bytes, hbytes⟩, hdigits, hn, htxid⟩
    have hletter : 'i' ∉ index := fun hi => by
      have := hdigits _ hi
      revert this
      decide
    have hne : index ≠ [] := by
      rintro rfl
      cases hn
    rw [ofChars?, splitLast?_append hletter]
    dsimp only
    rw [if_pos ⟨hlength, hne, List.all_eq_true.2 hdigits⟩, hbytes, hn]
    dsimp only
    rw [← htxid]

/-- The index of an inscription that was read is not negative. -/
theorem index_nonneg_of_readChars? {index : List Char} {n : Int}
    (hdigits : ∀ c ∈ index, isDigit c = true) (hn : Numeral.readChars? index = some n) : 0 ≤ n := by
  refine Numeral.nonneg_of_readChars? (fun hminus => ?_) hn
  have := hdigits _ hminus
  revert this
  decide

/-- The inscription that was read of a text has a text without blanks around it, which reads
back. -/
theorem ofChars?_text {cs : List Char} (htrim : IsTrimmed isBlank cs) {id : InscriptionId}
    (h : ofChars? cs = some id) :
    IsTrimmed isBlank id.text.toList ∧ ofChars? id.text.toList = some id := by
  obtain ⟨txid, index, rfl, hlength, ⟨bytes, hbytes⟩, hdigits, hn, htxid⟩ :=
    ofChars?_eq_some_iff.1 h
  have hne : txid ≠ [] := List.ne_nil_of_length_pos (by omega)
  have htext : id.text.toList = txid.map Char.toLower ++ 'i' :: Numeral.intChars id.index := by
    rw [toList_text, htxid, TransactionId.text_ofText, String.toList_ofList]
  rw [htext]
  constructor
  · refine isTrimmed_append_intChars (by simpa using hne) (fun d hd => ?_) _
    rw [List.head?_map, Option.mem_def, Option.map_eq_some_iff] at hd
    obtain ⟨c, hc, rfl⟩ := hd
    have hblank := htrim.head c (by rw [List.head?_append_of_ne_nil _ hne]; exact hc)
    apply Hex.isBlank_of_digitValue?
    rw [(Hex.toLower_spec c).1]
    exact Hex.isSome_of_head hbytes hc hblank
  · refine ofChars?_eq_some_iff.2 ⟨txid.map Char.toLower, Numeral.intChars id.index, rfl,
      ?_, ?_, ?_, ?_, ?_⟩
    · rw [List.length_map, hlength]
    · exact ⟨bytes, by rw [Hex.readChars?_map_toLower, hbytes]⟩
    · intro c hc
      obtain ⟨k, hk⟩ := Int.eq_ofNat_of_zero_le (index_nonneg_of_readChars? hdigits hn)
      rw [hk, Numeral.intChars_natCast] at hc
      obtain ⟨d, hd, rfl⟩ := List.mem_map.1 hc
      exact Numeral.isDigit_digitChar (Numeral.natDigits_lt hd)
    · exact Numeral.readChars?_intChars (Numeral.digitCount_of_readChars? hn)
    · rw [htxid, List.map_map]
      congr 3
      funext c
      exact c.toLower_toLower_eq_toLower.symm

end InscriptionId

/-! ## Places of satoshis -/

theorem SatPoint.toList_text (p : SatPoint) :
    p.text.toList = p.outpoint.text.toList ++ ':' :: Numeral.intChars p.offset := by
  simp [SatPoint.text, Numeral.write]

/-- The place that was read of a text has a text without blanks around it, which reads back. -/
theorem SatPoint.ofChars?_text {cs : List Char} {p : SatPoint} (h : SatPoint.ofChars? cs = some p) :
    IsTrimmed isBlank p.text.toList ∧ SatPoint.ofChars? p.text.toList = some p := by
  unfold SatPoint.ofChars? at h
  split at h
  · cases h
  · split at h
    · next outpoint offset q n hq hn =>
      obtain rfl := Option.some.inj h
      have hplain := OutPoint.isPlain_of_ofChars? (isTrimmed_trimBy _ _) hq
      have htrim := hplain.isTrimmed_text
      rw [toList_text]
      constructor
      · exact isTrimmed_append_intChars (by simp [OutPoint.toList_text]) htrim.head n
      · rw [SatPoint.ofChars?, splitLast?_append (intChars_not_mem (by decide))]
        dsimp only
        rw [trimBy_eq_self htrim, hplain.ofChars?_text,
          Numeral.readChars?_intChars (Numeral.digitCount_of_readChars? hn)]
    · cases h

/-! ## The three kinds -/

/-- Every text is read as an inscription, or fails with the wording for inscriptions and the text;
and what was read of any text has one text of its own, which reads back with any blanks around it.
The same holds of outputs and of places. -/
theorem identifiers_isCanonical :
    IsCanonical InscriptionId.read? InscriptionId.text "Invalid inscription id: " ∧
    IsCanonical OutPoint.read? OutPoint.text "Invalid outpoint: " ∧
    IsCanonical SatPoint.read? SatPoint.text "Invalid satpoint: " := by
  refine ⟨?inscription, ?output, ?place⟩
  case inscription =>
    refine isCanonical_of_ofChars? InscriptionId.ofChars? .inscriptionId (fun s id h => ?_)
      (fun s h => ?_) (fun _ => rfl) fun _ _ htrim h => InscriptionId.ofChars?_text htrim h
    · rw [InscriptionId.read?, h]
    · rw [InscriptionId.read?, h]
  case output =>
    refine isCanonical_of_ofChars? OutPoint.ofChars? .outPoint (fun s p h => ?_)
      (fun s h => ?_) (fun _ => rfl) fun _ _ htrim h => ?_
    · rw [OutPoint.read?, h]
    · rw [OutPoint.read?, h]
    · have hplain := OutPoint.isPlain_of_ofChars? htrim h
      exact ⟨hplain.isTrimmed_text, hplain.ofChars?_text⟩
  case place =>
    refine isCanonical_of_ofChars? SatPoint.ofChars? .satPoint (fun s p h => ?_)
      (fun s h => ?_) (fun _ => rfl) fun _ _ _ h => SatPoint.ofChars?_text h
    · rw [SatPoint.read?, h]
    · rw [SatPoint.read?, h]

/-- A transaction with a colon in it, and numbers with signs, an underscore, leading zeros and
digits of another script. -/
example : (SatPoint.read? " a:b:+0_٣: -00 ").toOption.map SatPoint.text = some "a:b:3:0" := by
  decide +kernel

end InscriptionLedger
