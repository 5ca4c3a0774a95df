import InscriptionLedger.Proofs.JsonText
import InscriptionLedger.Proofs.StoredForm

/-!
# Stored transactions as texts

The stored form of a transaction reads back as the transaction, as a value and as a text, if the
outputs that it spends are named by texts that do not start with a blank. The only bound is the one
on numerals: an integer with more digits than can be read cannot be written either, so that there is
no stored form, or no text of it. What was read of any stored form, however lenient, is stored in
one form, which reads back.

## Main definitions

* `OutPoint.IsNamed`: outputs of transactions that are named by texts
* `Transaction.IsNamed`: transactions that spend such outputs
* `Transaction.HasShortPositions`, `Transaction.HasShortNumbers`: transactions whose positions of
  outputs, or other integers, have no more digits than can be read

## Main results

* `Transaction.isExact_toStored`, `Transaction.isShort_toStored_iff`: what the text of a stored form
  can hold
* `Transaction.storing_readsBack`: stored forms and their texts read back
* `Transaction.not_forall_exists_toStored?`: a transaction that has no stored form
-/

namespace InscriptionLedger

open Text

/-! ## Outputs -/

/-- An output of a transaction that is named by a text which does not start with a blank. -/
def OutPoint.IsNamed (p : OutPoint) : Prop :=
  ∃ c cs, p.txid = .ofText (String.ofList (c :: cs)) ∧ isBlank c = false

theorem OutPoint.isPlain_iff {p : OutPoint} :
    p.IsPlain ↔ p.IsNamed ∧ Numeral.digitCount p.vout.natAbs ≤ Numeral.maxDigits :=
  ⟨fun h => ⟨h.txid, h.vout⟩, fun h => ⟨h.1, h.2⟩⟩

namespace Transaction

/-- A transaction that spends outputs of transactions that are named by texts. -/
def IsNamed (t : Transaction) : Prop := ∀ i ∈ t.inputs, ∀ p ∈ i.previous, p.IsNamed

/-- A transaction that spends outputs whose positions have no more digits than can be read. -/
def HasShortPositions (t : Transaction) : Prop :=
  ∀ i ∈ t.inputs, ∀ p ∈ i.previous, Numeral.digitCount p.vout.natAbs ≤ Numeral.maxDigits

/-- A transaction whose satoshis, and any integers in its id, have no more digits than can be
read. -/
structure HasShortNumbers (t : Transaction) : Prop where
  txid : t.txid.value.isShort = true
  value : ∀ o ∈ t.outputs, Numeral.digitCount o.value.natAbs ≤ Numeral.maxDigits

variable {t : Transaction}

/-- A transaction has a stored form exactly if the positions are short. -/
theorem hasStored_iff (h : t.IsNamed) : t.hasStored = true ↔ t.HasShortPositions := by
  rw [hasStored, List.all_eq_true]
  refine forall₂_congr fun i hi => ?_
  rw [Option.all_eq_true]
  refine forall₂_congr fun p hp => ?_
  obtain ⟨c, cs, htxid, -⟩ := h i hi p hp
  rw [OutPoint.isWritable, htxid, ← Numeral.isShort_iff]
  rfl

theorem toStored?_eq_ok (h : t.IsNamed) (hshort : t.HasShortPositions) :
    t.toStored? = .ok t.toStored := by
  rw [toStored?, (hasStored_iff h).2 hshort]
  rfl

theorem toStored?_eq_error (h : t.IsNamed) (hlong : ¬t.HasShortPositions) :
    t.toStored? = .error .unwritable := by
  rw [toStored?, Bool.eq_false_iff.2 (mt (hasStored_iff h).1 hlong)]
  rfl

/-- The stored form of a transaction with short positions reads back. -/
theorem HasShortPositions.ofStored?_toStored (hshort : t.HasShortPositions) (h : t.IsNamed) :
    ofStored? t.toStored = .ok t :=
  ofStored?_toStored_of_plain fun i hi p hp =>
    OutPoint.isPlain_iff.2 ⟨h i hi p hp, hshort i hi p hp⟩

/-! ## The texts of stored forms -/

section

variable {p : Json → Bool} (hnull : p .null = true) (htext : ∀ s, p (.text s) = true)
  (hlist : ∀ items, p (.list items) = true)
  (hobject : ∀ members : List (String × Json), (members.map Prod.fst).Nodup →
    p (.object members) = true)

include htext hobject

theorem throughout_txOut_iff (o : TxOut) :
    o.toJson.throughout p = true ↔ p (.integer o.value) = true := by
  have hscript : (storedBytes o.script).throughout p = true := htext (Hex.write o.script)
  rw [TxOut.toJson, Json.throughout, hobject _ (by simp)]
  simp [Json.throughoutMembers, Json.throughout, hscript]

include hnull hlist

theorem throughout_txIn (i : TxIn) : i.toJson.throughout p = true := by
  have hprevious : (Json.ofOption (fun q : OutPoint => .text q.text) i.previous).throughout p =
      true := by
    cases i.previous with
    | none => exact hnull
    | some q => exact htext q.text
  have hwitness : (Json.list (i.witness.map storedBytes)).throughout p = true :=
    (Json.throughout_list_map (hlist _)).2 fun bytes _ => htext (Hex.write bytes)
  rw [TxIn.toJson, Json.throughout, hobject _ (by simp)]
  simp [Json.throughoutMembers, hprevious, hwitness]

/-- A class that holds of null, of texts, of lists and of objects that have each name once holds
throughout a stored form if it holds throughout the id and of all satoshis. -/
theorem throughout_toStored_iff :
    t.toStored.throughout p = true ↔
      t.txid.value.throughout p = true ∧ ∀ o ∈ t.outputs, p (.integer o.value) = true := by
  have hinputs : (Json.list (t.inputs.map TxIn.toJson)).throughout p = true :=
    (Json.throughout_list_map (hlist _)).2 fun i _ => throughout_txIn hnull htext hlist hobject i
  have houtputs : (Json.list (t.outputs.map TxOut.toJson)).throughout p = true ↔
      ∀ o ∈ t.outputs, p (.integer o.value) = true :=
    (Json.throughout_list_map (hlist _)).trans
      (forall₂_congr fun o _ => throughout_txOut_iff htext hobject o)
  rw [toStored, Json.throughout, hobject _ (by simp)]
  simp [Json.throughoutMembers, hinputs, houtputs]

end

theorem isExact_toStored (h : t.txid.value.isExact = true) :
    t.toStored.isExact = true :=
  (throughout_toStored_iff rfl (fun _ => rfl) (fun _ => rfl) fun _ => decide_eq_true).2
    ⟨h, fun _ _ => rfl⟩

theorem isShort_toStored_iff :
    t.toStored.isShort = true ↔ t.HasShortNumbers := by
  refine (throughout_toStored_iff rfl (fun _ => rfl) (fun _ => rfl) fun _ _ => rfl).trans ?_
  exact ⟨fun h => ⟨h.1, fun o ho => of_decide_eq_true (h.2 o ho)⟩,
    fun h => ⟨h.txid, fun o ho => decide_eq_true (h.value o ho)⟩⟩

/-- The text of the stored form is written and reads back if all its integers are short. -/
theorem exists_compact?_toStored (h : t.IsNamed) (hexact : t.txid.value.isExact = true)
    (hpositions : t.HasShortPositions) (hnumbers : t.HasShortNumbers) :
    ∃ text, t.toStored.compact? = .ok text ∧ (Json.read? text).map ofStored? = some (.ok t) := by
  have hshort := isShort_toStored_iff.2 hnumbers
  refine ⟨t.toStored.compact, ?_, ?_⟩
  · rw [Json.compact?, hshort]
    rfl
  · rw [Json.read?_compact (isExact_toStored hexact), if_pos hshort, Option.map_some,
      hpositions.ofStored?_toStored h]

/-- Without short integers there is no text. -/
theorem toStored?_compact?_eq_error (h : t.IsNamed)
    (hlong : ¬(t.HasShortPositions ∧ t.HasShortNumbers)) :
    (t.toStored? >>= Json.compact?) = .error .unwritable := by
  by_cases hpositions : t.HasShortPositions
  · have hnumbers : t.toStored.isShort = false :=
      Bool.eq_false_iff.2 fun hshort => hlong ⟨hpositions, isShort_toStored_iff.1 hshort⟩
    rw [toStored?_eq_ok h hpositions, Outcome.ok_bind, Json.compact?, hnumbers]
    rfl
  · rw [toStored?_eq_error h hpositions]
    rfl

/-- Storing a transaction loses nothing. A transaction that spends named outputs has a stored form
if their positions are short, and this reads back as the transaction; it has a text if all integers
are short, and this does so too, if the id holds no floating-point number. Without short integers
storing fails. And what was read of any stored form has a stored form, which reads back. -/
theorem storing_readsBack :
    (∀ t : Transaction, t.IsNamed →
      (t.HasShortPositions → ∃ stored, t.toStored? = .ok stored ∧ ofStored? stored = .ok t) ∧
      (¬t.HasShortPositions → t.toStored? = .error .unwritable)) ∧
    (∀ t : Transaction, t.IsNamed → t.txid.value.isExact = true →
      (t.HasShortPositions → t.HasShortNumbers → ∃ text,
        (t.toStored? >>= Json.compact?) = .ok text ∧
          (Json.read? text).map ofStored? = some (.ok t)) ∧
      (¬(t.HasShortPositions ∧ t.HasShortNumbers) →
        (t.toStored? >>= Json.compact?) = .error .unwritable)) ∧
    ∀ value t, ofStored? value = .ok t →
      t.IsNamed ∧ t.HasShortPositions ∧
        ∃ stored, t.toStored? = .ok stored ∧ ofStored? stored = .ok t := by
  refine ⟨fun t h => ⟨fun hshort => ?_, toStored?_eq_error h⟩,
    fun t h hexact => ⟨fun hpositions hnumbers => ?_, toStored?_compact?_eq_error h⟩,
    fun value t hread => ?_⟩
  · exact ⟨_, toStored?_eq_ok h hshort, hshort.ofStored?_toStored h⟩
  · rw [toStored?_eq_ok h hpositions]
    exact exists_compact?_toStored h hexact hpositions hnumbers
  · have hplain := IsReadable.isPlain ⟨value, hread⟩
    have hnamed : t.IsNamed := fun i hi p hp => (hplain i hi p hp).txid
    have hshort : t.HasShortPositions := fun i hi p hp => (hplain i hi p hp).vout
    exact ⟨hnamed, hshort, _, toStored?_eq_ok hnamed hshort, hshort.ofStored?_toStored hnamed⟩

/-- A transaction that spends an output of one with a colon in its id, and what it is read of: a
form with a sign, zeros and an underscore in its numbers, blanks and a capital in its bytes, and an
input of which nothing is told. -/
theorem storing_readsBack_lenient :
    let t : Transaction := ⟨.ofText "a1", [⟨some ⟨.ofText "b:c", 1⟩, [[0xAB], []]⟩, ⟨none, []⟩],
      [⟨5000, [0x51]⟩, ⟨-1, []⟩]⟩
    let value : Json := .object [("outputs", .list [
        .object [("value", .text "+5_000"), ("script_pubkey", .text " 51 ")],
        .object [("script_pubkey", .text ""), ("value", .integer (-1))]]),
      ("txid", .text "a1"), ("inputs", .list [
        .object [("witness", .list [.text "aB", .text ""]), ("previous_output", .text " b:c:01 ")],
        .object []])]
    ofStored? value = .ok t ∧
      (∃ stored, t.toStored? = .ok stored ∧ ofStored? stored = .ok t) ∧
      ∃ text, (t.toStored? >>= Json.compact?) = .ok text ∧
        (Json.read? text).map ofStored? = some (.ok t) := by
  intro t value
  obtain ⟨stored, written, kept⟩ := storing_readsBack
  have hread : ofStored? value = .ok t := Outcome.toOption_eq_some_iff.1 (by decide +kernel)
  obtain ⟨hnamed, hshort, hback⟩ := kept value t hread
  have hsmall {n : Int} (hn : n.natAbs < 10 ^ 4) :
      Numeral.digitCount n.natAbs ≤ Numeral.maxDigits :=
    (Numeral.digitCount_le (by decide) hn).trans (by decide)
  have hnumbers : t.HasShortNumbers := by
    refine ⟨rfl, fun o ho => hsmall ?_⟩
    simp only [t, List.mem_cons, List.not_mem_nil, or_false] at ho
    rcases ho with rfl | rfl <;> decide
  exact ⟨hread, (stored t hnamed).1 hshort, (written t hnamed rfl).1 hshort hnumbers⟩

/-- A transaction need not have a stored form: the position of an output that it spends may have too
many digits. -/
theorem not_forall_exists_toStored? :
    ¬∀ t : Transaction, t.IsNamed →
      ∃ stored, t.toStored? = .ok stored ∧ ofStored? stored = .ok t := by
  intro hall
  obtain ⟨digits, hdigits⟩ : ∃ k, Numeral.maxDigits ≤ k := ⟨_, le_rfl⟩
  let t : Transaction := ⟨.ofText "a1", [⟨some ⟨.ofText "a", 10 ^ digits⟩, []⟩], []⟩
  have hnamed : t.IsNamed := by
    simp only [IsNamed, t, List.forall_mem_singleton, Option.mem_some_iff, forall_eq']
    exact ⟨'a', [], rfl, by decide⟩
  have hlong : ¬t.HasShortPositions := by
    simp only [HasShortPositions, t, List.forall_mem_singleton, Option.mem_some_iff, forall_eq']
    rw [← Numeral.isShort_iff, Numeral.isShort_pow hdigits]
    exact Bool.false_ne_true
  obtain ⟨stored, hstored, -⟩ := hall t hnamed
  rw [toStored?_eq_error hnamed hlong] at hstored
  cases hstored

end Transaction

end InscriptionLedger
