import InscriptionLedger.Index.Cell
import InscriptionLedger.Proofs.NumeralText
import InscriptionLedger.Proofs.Outcome
import InscriptionLedger.Transaction.Stored

/-!
# Stored forms read back

The stored form of a transaction reads back as the transaction, if the texts of the outputs that it
spends read back. That is so for every transaction that was itself read from a stored form. The
texts of inscriptions tell apart all inscriptions whose transactions are texts.

## Main definitions

* `TransactionId.IsText`: ids that are texts
* `OutPoint.IsPlain`: outputs whose texts read back
* `Transaction.IsReadable`: transactions that some stored form denotes

## Main results

* `OutPoint.read?_text`: the text of a plain output reads back
* `Transaction.ofStored?_toStored`: the stored form of a readable transaction reads back
* `InscriptionId.text_injective`: inscriptions are told apart by their texts
-/

namespace InscriptionLedger

open Text

/-! ## Ids that are texts -/

/-- An id that is a text. -/
def TransactionId.IsText (id : TransactionId) : Prop := ∃ s : String, id = .ofText s

/-- An id that is a text equals no other id. -/
theorem TransactionId.ofText_beq_iff {s : String} {id : TransactionId} :
    (ofText s == id) = true ↔ id = ofText s := by
  constructor
  · intro h
    have hcanonical : Json.text s = id.value.canonical := Json.same_iff.1 h
    obtain ⟨value⟩ := id
    -- Only a text has the canonical form of a text: a number that is whole has that of an integer.
    cases value with
    | text t =>
      have heq : s = t := by simpa [Json.canonical] using hcanonical
      rw [heq, ofText]
    | double x =>
      rw [Json.canonical] at hcanonical
      split at hcanonical
      · cases hcanonical
      · cases hcanonical
    | null => cases hcanonical
    | bool _ => cases hcanonical
    | integer _ => cases hcanonical
    | list _ => cases hcanonical
    | object _ => cases hcanonical
  · rintro rfl
    exact BEq.rfl

namespace TransactionId.IsText

variable {a b : TransactionId}

theorem cell?_inj (ha : a.IsText) (hb : b.IsText) : a.cell? = b.cell? ↔ a = b := by
  obtain ⟨s, rfl⟩ := ha
  obtain ⟨t, rfl⟩ := hb
  constructor
  · intro h
    rw [cell?_ofText, cell?_ofText, Option.some.injEq] at h
    rw [h]
  · exact congrArg cell?

end TransactionId.IsText

theorem intChars_not_mem {n : Int} {c : Char} (h : Numeral.isNumeralChar c = false) :
    c ∉ Numeral.intChars n := by
  intro hc
  rw [Numeral.mem_intChars hc] at h
  cases h

theorem InscriptionId.toList_text (id : InscriptionId) :
    id.text.toList = id.txid.text.toList ++ 'i' :: Numeral.intChars id.index := by
  simp [InscriptionId.text, Numeral.write]

/-- Inscriptions of transactions that are texts are told apart by their texts. -/
theorem InscriptionId.text_injective {a b : InscriptionId} (ha : a.txid.IsText) (hb : b.txid.IsText)
    (h : a.text = b.text) : a = b := by
  obtain ⟨txid, index⟩ := a
  obtain ⟨txid', index'⟩ := b
  obtain ⟨s, hs⟩ := ha
  obtain ⟨s', hs'⟩ := hb
  dsimp only at hs hs'
  subst hs hs'
  have split (s : String) (n : Int) : splitLast? 'i' (InscriptionId.mk (.ofText s) n).text.toList =
      some (s.toList, Numeral.intChars n) := by
    rw [InscriptionId.toList_text]
    exact splitLast?_append (intChars_not_mem (by decide)) _
  have parts := split s index
  rw [h, split s' index', Option.some.injEq, Prod.mk.injEq] at parts
  rw [String.toList_inj.1 parts.1, Numeral.intChars_injective parts.2]

/-! ## Texts of outputs -/

/-- An output whose text reads back: its transaction is a text that does not start with a blank, and
its position has no more digits than a numeral may have. -/
structure OutPoint.IsPlain (p : OutPoint) : Prop where
  txid : ∃ c cs, p.txid = .ofText (String.ofList (c :: cs)) ∧ isBlank c = false
  vout : Numeral.digitCount p.vout.natAbs ≤ Numeral.maxDigits

/-- A text in two parts has no blanks around it if the first does not start with one and there are
none in the second. -/
theorem isTrimmed_append_cons {before after : List Char} {sep : Char} (hne : before ≠ [])
    (hhead : ∀ c ∈ before.head?, isBlank c = false) (hne' : after ≠ [])
    (hafter : ∀ c ∈ after, isBlank c = false) : IsTrimmed isBlank (before ++ sep :: after) := by
  constructor
  case head =>
    intro c hc
    rw [List.head?_append_of_ne_nil _ hne] at hc
    exact hhead c hc
  case last =>
    intro c hc
    rw [List.getLast?_append_of_ne_nil _ (by simp), List.getLast?_cons_of_ne_nil hne'] at hc
    exact hafter c (List.mem_of_mem_getLast? hc)

theorem isTrimmed_append_intChars {cs : List Char} {sep : Char} (hne : cs ≠ [])
    (hhead : ∀ c ∈ cs.head?, isBlank c = false) (n : Int) :
    IsTrimmed isBlank (cs ++ sep :: Numeral.intChars n) :=
  isTrimmed_append_cons hne hhead (Numeral.intChars_ne_nil n) fun _ hc =>
    Numeral.isBlank_of_isNumeralChar (Numeral.mem_intChars hc)

theorem OutPoint.toList_text (p : OutPoint) :
    p.text.toList = p.txid.text.toList ++ ':' :: Numeral.intChars p.vout := by
  simp [OutPoint.text, Numeral.write]

/-- The output of a text without blanks around it is plain. -/
theorem OutPoint.isPlain_of_ofChars? {cs : List Char} (htrim : IsTrimmed isBlank cs) {p : OutPoint}
    (h : OutPoint.ofChars? cs = some p) : p.IsPlain := by
  unfold OutPoint.ofChars? at h
  split at h
  · cases h
  · next txid vout hsplit =>
    obtain ⟨rfl, -⟩ := append_of_splitLast? hsplit
    split at h
    · cases h
    · next hne =>
      obtain ⟨n, hn, rfl⟩ := Option.map_eq_some_iff.1 h
      obtain ⟨c, rest, rfl⟩ := List.exists_cons_of_ne_nil hne
      exact ⟨⟨c, rest, rfl, htrim.head c rfl⟩, Numeral.digitCount_of_readChars? hn⟩

/-- An output that was read is plain. -/
theorem OutPoint.isPlain_of_read? {s : String} {p : OutPoint} (h : OutPoint.read? s = .ok p) :
    p.IsPlain := by
  unfold OutPoint.read? at h
  split at h
  · next q hq =>
    obtain rfl := Except.ok.inj h
    exact isPlain_of_ofChars? (isTrimmed_trimBy _ _) hq
  · cases h

namespace OutPoint.IsPlain

variable {p : OutPoint} (h : p.IsPlain)

include h

/-- The text of a plain output has no blanks around it. -/
theorem isTrimmed_text : IsTrimmed isBlank p.text.toList := by
  obtain ⟨c, cs, htxid, hc⟩ := h.txid
  rw [toList_text, htxid, TransactionId.text_ofText, String.toList_ofList]
  refine isTrimmed_append_intChars (List.cons_ne_nil c cs) (fun d hd => ?_) _
  obtain rfl := Option.some.inj hd
  exact hc

theorem ofChars?_text : OutPoint.ofChars? p.text.toList = some p := by
  obtain ⟨c, cs, htxid, -⟩ := h.txid
  rw [toList_text, htxid, TransactionId.text_ofText, String.toList_ofList, OutPoint.ofChars?,
    splitLast?_append (intChars_not_mem (by decide))]
  dsimp only
  rw [if_neg (List.cons_ne_nil c cs), Numeral.readChars?_intChars h.vout, Option.map_some, ← htxid]

end OutPoint.IsPlain

/-- The text of a plain output reads back. -/
theorem OutPoint.read?_text {p : OutPoint} (h : p.IsPlain) : OutPoint.read? p.text = .ok p := by
  rw [OutPoint.read?, trimBy_eq_self h.isTrimmed_text, h.ofChars?_text]

/-! ## Stored transactions -/

/-- A transaction that some stored form denotes. -/
def Transaction.IsReadable (t : Transaction) : Prop := ∃ value, Transaction.ofStored? value = .ok t

@[simp] theorem toBytes_storedBytes (bytes : Bytes) : (storedBytes bytes).toBytes = .ok bytes := by
  simp [storedBytes, Json.toBytes, Hex.read?, Hex.write]

theorem TxIn.ofStored?_toJson {i : TxIn} (h : ∀ p ∈ i.previous, p.IsPlain) :
    TxIn.ofStored? i.toJson = .ok i := by
  have hprevious : readPrevious? (Json.ofOption (fun p : OutPoint => .text p.text) i.previous) =
      .ok i.previous := by
    cases hp : i.previous with
    | none => rfl
    | some p =>
      have htruthy : (Json.text p.text).isTruthy = true := by
        simp [Json.isTruthy, OutPoint.text]
      simp [Json.ofOption, readPrevious?, htruthy, Json.toText, OutPoint.read?_text (h p hp)]
  have hwitness : (i.witness.map storedBytes).mapM Json.toBytes = .ok i.witness :=
    Outcome.mapM_eq_ok_iff.2 (List.forall₂_map_left_iff.2
      (List.forall₂_same.2 fun bytes _ => toBytes_storedBytes bytes))
  simp [TxIn.ofStored?, TxIn.toJson, Json.toMembers, Json.member, Json.memberOr, Keyed.get?,
    Json.toParts, Json.parts?, hprevious, hwitness]

theorem TxOut.ofStored?_toJson (o : TxOut) : TxOut.ofStored? o.toJson = .ok o := by
  simp [TxOut.ofStored?, TxOut.toJson, Json.toMembers, Json.required, Keyed.get?, Json.toInt]

theorem Transaction.ofStored?_toStored_of_plain {t : Transaction}
    (h : ∀ i ∈ t.inputs, ∀ p ∈ i.previous, p.IsPlain) :
    Transaction.ofStored? t.toStored = .ok t := by
  have hinputs : (t.inputs.map TxIn.toJson).mapM TxIn.ofStored? = .ok t.inputs :=
    Outcome.mapM_eq_ok_iff.2 (List.forall₂_map_left_iff.2
      (List.forall₂_same.2 fun i hi => TxIn.ofStored?_toJson (h i hi)))
  have houtputs : (t.outputs.map TxOut.toJson).mapM TxOut.ofStored? = .ok t.outputs :=
    Outcome.mapM_eq_ok_iff.2 (List.forall₂_map_left_iff.2
      (List.forall₂_same.2 fun o _ => TxOut.ofStored?_toJson o))
  simp [Transaction.ofStored?, Transaction.toStored, Json.toMembers, Json.memberOr, Json.required,
    Keyed.get?, Json.toParts, Json.parts?, hinputs, houtputs]

theorem TxIn.isPlain_of_ofStored? {value : Json} {i : TxIn} (h : TxIn.ofStored? value = .ok i) :
    ∀ p ∈ i.previous, p.IsPlain := by
  simp only [TxIn.ofStored?, Outcome.bind_eq_ok_iff, Outcome.pure_eq_ok, Except.ok.injEq] at h
  obtain ⟨members, -, previous, hprevious, items, -, witness, -, rfl⟩ := h
  intro p hp
  obtain rfl : previous = some p := by simpa using hp
  unfold readPrevious? at hprevious
  split at hprevious
  · simp only [Outcome.bind_eq_ok_iff, Outcome.pure_eq_ok, Except.ok.injEq,
      Option.some.injEq] at hprevious
    obtain ⟨s, -, q, hq, rfl⟩ := hprevious
    exact OutPoint.isPlain_of_read? hq
  · cases hprevious

theorem Transaction.IsReadable.isPlain {t : Transaction} (h : t.IsReadable) :
    ∀ i ∈ t.inputs, ∀ p ∈ i.previous, p.IsPlain := by
  obtain ⟨value, h⟩ := h
  simp only [Transaction.ofStored?, Outcome.bind_eq_ok_iff, Outcome.pure_eq_ok,
    Except.ok.injEq] at h
  obtain ⟨members, -, parts, -, inputs, hinputs, _, -, outputs, -, id, -, rfl⟩ := h
  intro i hi
  obtain ⟨part, -, hpart⟩ := Outcome.exists_of_mem_mapM hinputs hi
  exact TxIn.isPlain_of_ofStored? hpart

/-- The stored form of a readable transaction reads back. -/
theorem Transaction.ofStored?_toStored {t : Transaction} (h : t.IsReadable) :
    Transaction.ofStored? t.toStored = .ok t :=
  Transaction.ofStored?_toStored_of_plain h.isPlain

/-- Transactions that are read from what is stored of them have their ids. -/
theorem Transaction.txid_of_ofStored?_toStored {t u : Transaction}
    (h : Transaction.ofStored? t.toStored = .ok u) : u.txid = t.txid := by
  simp only [Transaction.ofStored?, Transaction.toStored, Json.toMembers, Json.required,
    Outcome.bind_eq_ok_iff, Outcome.pure_eq_ok, Except.ok.injEq] at h
  obtain ⟨_, rfl, _, -, _, -, _, -, _, -, id, hid, rfl⟩ := h
  simp [Keyed.get?] at hid
  rw [← hid]

/-- A transaction without inputs and outputs. -/
def Transaction.bare (txid : String) : Transaction := ⟨.ofText txid, [], []⟩

theorem Transaction.isReadable_of_inputs_eq_nil {t : Transaction} (h : t.inputs = []) :
    t.IsReadable :=
  ⟨t.toStored, ofStored?_toStored_of_plain (by simp [h])⟩

theorem Transaction.isReadable_bare (txid : String) : (bare txid).IsReadable :=
  isReadable_of_inputs_eq_nil rfl

end InscriptionLedger
