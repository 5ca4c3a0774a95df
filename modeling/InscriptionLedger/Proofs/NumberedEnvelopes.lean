import InscriptionLedger.Extraction
import InscriptionLedger.Proofs.EnvelopeScan
import InscriptionLedger.Proofs.Outcome

/-!
# Numbered envelopes

A witness spends by a script if the script stands last but one, not counting an annex. The
inscriptions of a transaction are those of the scripts of its inputs, inputs in order, numbered from
zero up across inputs and scripts; one script that cannot be split into tokens leaves none. An annex
put behind a witness that does not end in one changes nothing.

## Main definitions

* `Witness.SpendsBy`: a witness and the script that it spends by
* `TxIn.Finds`: the inscriptions of an input
* `TxIn.Annexes`: an input, and the same with an annex put behind its witness or not

## Main results

* `Witness.script?_eq_some_iff`: the script of a witness is the one that it spends by
* `Witness.script?_append`: an annex behind a witness that does not end in one changes nothing
* `Transaction.extract_eq_numbered`: the inscriptions of a transaction with their ids
-/

namespace InscriptionLedger

/-! ## Scripts of witnesses -/

namespace Witness

/-- A witness that spends by a script: behind the script stands a control block, and behind that an
annex may stand. A last item that could be an annex is one. -/
inductive SpendsBy : List Bytes → Bytes → Prop
  | plain (front : List Bytes) (script : Bytes) {control : Bytes} (last : isAnnex control = false) :
    SpendsBy (front ++ [script, control]) script
  | annexed (front : List Bytes) (script control : Bytes) {annex : Bytes}
    (last : isAnnex annex = true) : SpendsBy (front ++ [script, control, annex]) script

theorem withoutAnnex_eq_self {items : List Bytes}
    (h : ∀ last ∈ items.getLast?, isAnnex last = false) : withoutAnnex items = items := by
  refine if_neg ?_
  rintro ⟨-, hannex⟩
  obtain ⟨last, hlast, hannex⟩ := (Option.any_eq_true _ _).1 hannex
  rw [h last hlast] at hannex
  cases hannex

theorem dropLast_getLast?_eq_some_iff {items : List Bytes} {script : Bytes} :
    items.dropLast.getLast? = some script ↔
      ∃ front control, items = front ++ [script, control] := by
  rcases items.eq_nil_or_concat' with rfl | ⟨items, control, rfl⟩
  · simp
  · rw [List.dropLast_concat, List.getLast?_eq_some_iff]
    constructor
    · rintro ⟨front, rfl⟩
      exact ⟨front, control, by simp⟩
    · rintro ⟨front, control', heq⟩
      rw [List.append_cons front] at heq
      exact ⟨front, (List.append_inj' heq rfl).1⟩

/-- The script of a witness is the one that it spends by. -/
theorem script?_eq_some_iff {items : List Bytes} {script : Bytes} :
    script? items = some script ↔ SpendsBy items script := by
  constructor
  · intro h
    rcases items.eq_nil_or_concat' with rfl | ⟨items, last, rfl⟩
    · cases h
    · cases hlast : isAnnex last with
      | true =>
        by_cases hne : items = []
        · -- An annex alone is not left out, but nothing stands before it.
          subst hne
          simp [script?, withoutAnnex] at h
        · rw [script?, withoutAnnex_append hne hlast] at h
          obtain ⟨front, control, rfl⟩ := dropLast_getLast?_eq_some_iff.1 h
          rw [List.append_assoc]
          exact .annexed front script control hlast
      | false =>
        rw [script?, withoutAnnex_eq_self (by simpa using hlast)] at h
        obtain ⟨front, control, heq⟩ := dropLast_getLast?_eq_some_iff.1 h
        have hcontrol := congrArg List.getLast? heq
        rw [List.append_cons front, List.getLast?_concat, List.getLast?_concat] at hcontrol
        rw [heq]
        exact .plain front script (Option.some.inj hcontrol ▸ hlast)
  · intro h
    cases h with
    | plain front _ last =>
      rw [script?, withoutAnnex_eq_self (by simpa using last)]
      exact dropLast_getLast?_eq_some_iff.2 ⟨front, _, rfl⟩
    | annexed front _ control last =>
      have hsplit (annex : Bytes) :
          front ++ [script, control, annex] = (front ++ [script, control]) ++ [annex] := by simp
      rw [hsplit, script?, withoutAnnex_append (by simp) last]
      exact dropLast_getLast?_eq_some_iff.2 ⟨front, control, rfl⟩

/-- An annex behind a witness that does not end in one changes nothing. -/
theorem script?_append {items : List Bytes} (h : ∀ last ∈ items.getLast?, isAnnex last = false)
    {item : Bytes} (hitem : isAnnex item = true) : script? (items ++ [item]) = script? items := by
  by_cases hne : items = []
  · subst hne
    simp [script?, withoutAnnex]
  · rw [script?, script?, withoutAnnex_append hne hitem, withoutAnnex_eq_self h]

end Witness

/-! ## Inscriptions of inputs -/

/-- The inscriptions of an input: those of the script that its witness spends by, if it spends by
one. -/
inductive TxIn.Finds (i : TxIn) : List Inscription → Prop
  | script {script : Bytes} {found : List Inscription} (spends : Witness.SpendsBy i.witness script)
    (reads : Envelope.ofScript? script = .ok found) : i.Finds found
  | none (spends : ∀ script, ¬Witness.SpendsBy i.witness script) : i.Finds []

/-- An input, and the same with an annex put behind its witness, unless that ends in one, or not. -/
inductive TxIn.Annexes (i : TxIn) : TxIn → Prop
  | same : i.Annexes i
  | annex {item : Bytes} (bare : ∀ last ∈ i.witness.getLast?, Witness.isAnnex last = false)
    (tagged : Witness.isAnnex item = true) : i.Annexes { i with witness := i.witness ++ [item] }

theorem TxIn.envelopes?_eq_ok_iff {i : TxIn} {found : List Inscription} :
    i.envelopes? = .ok found ↔ i.Finds found := by
  constructor
  · intro h
    unfold envelopes? at h
    split at h
    · next script hscript => exact .script (Witness.script?_eq_some_iff.1 hscript) h
    · next hnone =>
      obtain rfl := Except.ok.inj h
      refine .none fun script hspends => ?_
      rw [Witness.script?_eq_some_iff.2 hspends] at hnone
      cases hnone
  · intro h
    cases h with
    | script spends reads =>
      rw [envelopes?, Witness.script?_eq_some_iff.2 spends]
      exact reads
    | none spends =>
      have hnone : Witness.script? i.witness = none := by
        rw [Option.eq_none_iff_forall_not_mem]
        exact fun script hscript => spends script (Witness.script?_eq_some_iff.1 hscript)
      rw [envelopes?, hnone]

theorem TxIn.Annexes.envelopes?_eq {i j : TxIn} (h : i.Annexes j) :
    j.envelopes? = i.envelopes? := by
  cases h with
  | same => rfl
  | annex bare tagged => rw [envelopes?, envelopes?, Witness.script?_append bare tagged]

theorem TxIn.mapM_envelopes?_eq {inputs inputs' : List TxIn}
    (h : List.Forall₂ TxIn.Annexes inputs inputs') :
    inputs'.mapM TxIn.envelopes? = inputs.mapM TxIn.envelopes? := by
  induction h with
  | nil => rfl
  | cons hi _ ih => rw [List.mapM_cons, List.mapM_cons, hi.envelopes?_eq, ih]

theorem Envelope.exists_ofScript? {script : Bytes} (h : (Script.tokens script).2 = none) :
    ∃ found, ofScript? script = .ok found :=
  ⟨_, ofScript?_of_tokens (Prod.ext rfl h)⟩

theorem Envelope.ofScript?_ne_ok {script : Bytes} (h : (Script.tokens script).2 ≠ none)
    (found : List Inscription) : ofScript? script ≠ .ok found := by
  obtain ⟨fault, hfault⟩ := Option.ne_none_iff_exists'.1 h
  have htokens : Script.tokens script = ((Script.tokens script).1, some fault) :=
    Prod.ext rfl hfault
  rw [ofScript?, Script.tokens?, htokens]
  rintro ⟨⟩

/-! ## Inscriptions of transactions -/

namespace Transaction

variable {t : Transaction}

theorem envelopes?_of_finds {founds : List (List Inscription)}
    (h : List.Forall₂ TxIn.Finds t.inputs founds) : t.envelopes? = .ok founds.flatten := by
  have hinputs : t.inputs.mapM TxIn.envelopes? = .ok founds :=
    Outcome.mapM_eq_ok_iff.2 (h.imp fun _ _ => TxIn.envelopes?_eq_ok_iff.2)
  rw [envelopes?, hinputs]
  rfl

theorem extract_of_envelopes?_ne_ok (h : ∀ found, t.envelopes? ≠ .ok found) : t.extract = [] := by
  unfold extract
  split
  · next found hfound => exact absurd hfound (h found)
  · rfl

theorem envelopes?_ne_ok_of_mem {i : TxIn} (hi : i ∈ t.inputs)
    (h : ∀ found, i.envelopes? ≠ .ok found) (found : List Inscription) :
    t.envelopes? ≠ .ok found := by
  intro hfound
  obtain ⟨founds, hfounds, -⟩ := Outcome.map_eq_ok_iff.1 hfound
  obtain ⟨k, hk, rfl⟩ := List.getElem_of_mem hi
  obtain ⟨hlength, hall⟩ := List.forall₂_iff_get.1 (Outcome.mapM_eq_ok_iff.1 hfounds)
  exact h _ (hall k hk (hlength ▸ hk))

theorem extract_of_annexes {inputs : List TxIn} (h : List.Forall₂ TxIn.Annexes t.inputs inputs) :
    ({ t with inputs } : Transaction).extract = t.extract := by
  simp only [extract, envelopes?, TxIn.mapM_envelopes?_eq h]

/-- The inscriptions of a transaction. If all scripts that inputs spend by can be split into tokens,
they are those of the inputs, one input after another, with the numbers from zero up; if one cannot,
there are none. An annex put behind some witnesses that do not end in one changes nothing. -/
theorem extract_eq_numbered (t : Transaction) :
    ((∀ i ∈ t.inputs, ∀ script, Witness.SpendsBy i.witness script →
        (Script.tokens script).2 = none) →
      ∃ founds, List.Forall₂ TxIn.Finds t.inputs founds ∧
        t.extract = founds.flatten.zipIdx.map fun x => (⟨t.txid, x.2⟩, x.1)) ∧
    (∀ i ∈ t.inputs, ∀ script, Witness.SpendsBy i.witness script →
      (Script.tokens script).2 ≠ none → t.extract = []) ∧
    ∀ inputs, List.Forall₂ TxIn.Annexes t.inputs inputs →
      ({ t with inputs } : Transaction).extract = t.extract := by
  refine ⟨fun htokens => ?_, fun i hi script hspends hfault => ?_, fun _ => extract_of_annexes⟩
  · -- An input that spends by no script has no inscriptions, so something is found in each.
    have hfinds : ∀ i ∈ t.inputs, ∃ found, i.Finds found := by
      intro i hi
      by_cases hspends : ∃ script, Witness.SpendsBy i.witness script
      · obtain ⟨script, hspends⟩ := hspends
        obtain ⟨found, hfound⟩ := Envelope.exists_ofScript? (htokens i hi script hspends)
        exact ⟨found, .script hspends hfound⟩
      · exact ⟨[], .none (not_exists.1 hspends)⟩
    obtain ⟨founds, hfounds⟩ := exists_forall₂ hfinds
    refine ⟨founds, hfounds, ?_⟩
    rw [extract, envelopes?_of_finds hfounds]
  · refine extract_of_envelopes?_ne_ok (envelopes?_ne_ok_of_mem hi fun found hfound => ?_)
    rw [TxIn.envelopes?, Witness.script?_eq_some_iff.2 hspends] at hfound
    exact Envelope.ofScript?_ne_ok hfault found hfound

/-- Three envelopes in two scripts, behind an input that spends by a key. Annexes behind the first
two witnesses change nothing; an input whose script ends inside a push leaves no inscription. -/
theorem extract_eq_numbered_three :
    let envelope (b : UInt8) : Bytes := [0x00, 0x63, 0x03, 0x6F, 0x72, 0x64, 0x00, 0x01, b, 0x68]
    let key : TxIn := ⟨none, [[0x01]]⟩
    let first : TxIn := ⟨none, [envelope 1 ++ envelope 2, [0xC0]]⟩
    let second : TxIn := ⟨none, [[0xAA], envelope 3, [0xC1], [0x50]]⟩
    let t : Transaction := ⟨.ofText "a1", [key, first, second], []⟩
    let annexed : Transaction := { t with inputs := [⟨none, [[0x01], [0x50, 0x00]]⟩,
      ⟨none, [envelope 1 ++ envelope 2, [0xC0], [0x50]]⟩, second] }
    let broken : Transaction := { t with inputs := t.inputs ++ [⟨none, [[0x4C], [0xC0]]⟩] }
    (∃ founds, List.Forall₂ TxIn.Finds t.inputs founds ∧
        t.extract = founds.flatten.zipIdx.map fun x => (⟨t.txid, x.2⟩, x.1)) ∧
      t.extract = [(⟨.ofText "a1", 0⟩, ⟨some [1], none⟩), (⟨.ofText "a1", 1⟩, ⟨some [2], none⟩),
        (⟨.ofText "a1", 2⟩, ⟨some [3], none⟩)] ∧
      annexed.extract = t.extract ∧ broken.extract = [] := by
  intro envelope key first second t annexed broken
  have htokens : ∀ i ∈ t.inputs, ∀ script, Witness.SpendsBy i.witness script →
      (Script.tokens script).2 = none := by
    have hkey : Witness.script? key.witness = none := rfl
    have hfirst : Witness.script? first.witness = some (envelope 1 ++ envelope 2) := rfl
    have hsecond : Witness.script? second.witness = some (envelope 3) := rfl
    simp only [t, List.forall_mem_cons, ← Witness.script?_eq_some_iff, hkey, hfirst, hsecond,
      Option.some.injEq, forall_eq']
    refine ⟨by simp, by cbv, by cbv, by simp⟩
  have hannexes : List.Forall₂ TxIn.Annexes t.inputs annexed.inputs :=
    .cons (.annex (by decide) rfl) (.cons (.annex (by decide) rfl) (.cons .same .nil))
  have hspends : Witness.SpendsBy [[0x4C], [0xC0]] [0x4C] := .plain [] _ rfl
  have hfault : (Script.tokens [0x4C]).2 = some .truncatedLength := by cbv
  refine ⟨(extract_eq_numbered t).1 htokens, by cbv, (extract_eq_numbered t).2.2 _ hannexes,
    (extract_eq_numbered broken).2.1 ⟨none, [[0x4C], [0xC0]]⟩ (by simp [broken]) _ hspends ?_⟩
  simp [hfault]

end Transaction

end InscriptionLedger
