import InscriptionLedger.Proofs.EnvelopeScan

/-!
# Envelopes that are read back

Envelopes are written into a script one after another, with other tokens before, between and behind
them. As long as no envelope starts among those tokens, the script has the inscriptions of the
envelopes, however their pushes are written: a value of a push may look like an opcode, a small
number may be pushed by its opcode, and a start cannot straddle the other tokens and an envelope.

## Main definitions

* `Envelope.Content`: the fields and the body that are written into an envelope
* `Envelope.AreAmong contents ts`: envelopes of the contents stand among the tokens

## Main results

* `Envelope.split_values`: the fields and the body are found again in the pushed values
* `Envelope.scan_of_areAmong`: what the search finds among the tokens
* `Envelope.ofScript?_of_areWritten`: the inscriptions of a script that the envelopes are written
  into are those of their contents
-/

namespace InscriptionLedger.Envelope

/-- What is written into an envelope: fields, each a tag and a value, and perhaps the chunks of a
body. The tag of a field is not empty, as an empty push starts the body. -/
structure Content where
  fields : List (Bytes × Bytes)
  body : Option (List Bytes)
  tagged : ∀ field ∈ fields, field.1 ≠ []

namespace Content

/-- The values to push: tags and values, then an empty one and the chunks. -/
def values (content : Content) : List Bytes :=
  content.fields.flatMap (fun field => [field.1, field.2]) ++ content.body.elim [] ([] :: ·)

/-- The inscription that is meant. -/
def inscription (content : Content) : Inscription where
  body := content.body.map List.flatten
  contentType := (content.fields.find? fun field => field.1 == contentTypeTag).map Prod.snd

end Content

/-! ## Fields and body -/

theorem split_cons_cons {tag : Bytes} (htag : tag ≠ []) (value : Bytes) (rest : List Bytes) :
    split (tag :: value :: rest) = ((tag, value) :: (split rest).1, (split rest).2) := by
  cases tag with
  | nil => exact absurd rfl htag
  | cons b tag => rfl

theorem split_flatMap_append {fields : List (Bytes × Bytes)} (h : ∀ field ∈ fields, field.1 ≠ [])
    (rest : List Bytes) :
    split (fields.flatMap (fun field => [field.1, field.2]) ++ rest) =
      (fields ++ (split rest).1, (split rest).2) := by
  induction fields with
  | nil => rfl
  | cons field fields ih =>
    obtain ⟨hfield, hfields⟩ := List.forall_mem_cons.1 h
    rw [List.flatMap_cons, List.append_assoc, List.cons_append, List.cons_append, List.nil_append,
      split_cons_cons hfield, ih hfields]
    rfl

theorem split_values (content : Content) :
    split content.values = (content.fields, content.body) := by
  rw [Content.values, split_flatMap_append content.tagged]
  cases content.body with
  | none => simp [split]
  | some chunks => simp [split]

theorem ofPushes_values (content : Content) : ofPushes content.values = content.inscription := by
  rw [ofPushes, split_values]
  rfl

/-! ## Envelopes among other tokens -/

/-- Envelopes of the contents stand among the tokens, one after another, and in the tokens before,
between and behind them no envelope starts. -/
inductive AreAmong : List Content → List Token → Prop
  | none {gap : List Token} (clear : ¬opening <:+: gap) : AreAmong [] gap
  | next {content : Content} {contents : List Content} {gap inside rest : List Token}
    (clear : ¬opening <:+: gap) (pushes : ArePushes inside content.values)
    (others : AreAmong contents rest) :
    AreAmong (content :: contents) (gap ++ (opening ++ (inside ++ ending :: rest)))

/-- A start does not reach out of a list into another start. -/
theorem opening_isPrefix_of_append {front rest : List Token} (hne : front ≠ [])
    (h : opening <+: front ++ rest) (hrest : rest = [] ∨ opening <+: rest) :
    opening <+: front := by
  rcases hrest with rfl | ⟨more, rfl⟩
  · rwa [List.append_nil] at h
  · -- Where the front ends, a push stands that starts the rest, but an opcode or a name is due.
    match front with
    | [first] =>
      obtain ⟨after, heq⟩ := h
      cases (List.cons.inj (List.cons.inj heq).2).1
    | [first, second] =>
      obtain ⟨after, heq⟩ := h
      cases (List.cons.inj (List.cons.inj (List.cons.inj heq).2).2).1
    | first :: second :: third :: front =>
      exact List.prefix_of_prefix_length_le h (List.prefix_append _ _) (by simp [opening])

theorem scan_gap_append {gap rest : List Token} (hgap : ¬opening <:+: gap)
    (hrest : rest = [] ∨ opening <+: rest) : scan (gap ++ rest) = scan rest := by
  induction gap with
  | nil => rfl
  | cons t gap ih =>
    rw [List.cons_append, scan_cons_of_not_prefix, ih fun h => hgap (h.trans ⟨[t], [], by simp⟩)]
    intro hstart
    exact hgap (opening_isPrefix_of_append (List.cons_ne_nil t gap) hstart hrest).isInfix

/-- The search takes up a complete envelope and goes on behind it. -/
theorem scan_complete_append {inside : List Token} {values : List Bytes}
    (h : ArePushes inside values) (rest : List Token) :
    scan (opening ++ (inside ++ ending :: rest)) = ofPushes values :: scan rest := by
  rw [scan_opening_append, collect_append h, collect_of_stops (by simp [Stops, ending]; rfl)]
  simp

theorem scan_of_areAmong {contents : List Content} {ts : List Token} (h : AreAmong contents ts) :
    scan ts = contents.map Content.inscription := by
  induction h with
  | @none gap clear =>
    have hgap := scan_gap_append clear (Or.inl rfl)
    rw [List.append_nil] at hgap
    rw [hgap, scan] <;> simp
  | next clear pushes _ ih =>
    rw [scan_gap_append clear (Or.inr ⟨_, rfl⟩), scan_complete_append pushes, ih, ofPushes_values]
    rfl

/-- A script that envelopes are written into has the inscriptions of their contents, in order, and
no other ones. -/
theorem ofScript?_of_areWritten {contents : List Content} {ts : List Token} {script : Bytes}
    (hts : AreAmong contents ts) (hscript : Script.AreWritten ts script) :
    ofScript? script = .ok (contents.map Content.inscription) := by
  rw [ofScript?_of_tokens (Script.tokens_of_areWritten hscript), scan_of_areAmong hts]

/-- Two envelopes with pushes of all forms: the first has a chunk that is the opcode of the end, the
second an empty value and no body. In front of each stands the beginning of a start. -/
theorem ofScript?_of_areWritten_pair :
    let first : Content := ⟨[([0x01], [0x61]), ([0x01], [])], some [[0x68], [0x10]], by simp⟩
    let second : Content := ⟨[([0x02, 0x03], [])], none, by simp⟩
    let before : List Token := [.push [], .opcode Opcode.startIf]
    let between : List Token := [.push [], .push [0xAA, 0xBB], .push []]
    let inside : List Token := [.opcode 0x51, .push [0x61], .push [0x01], .push [], .push [],
      .push [0x68], .opcode 0x60]
    let inside' : List Token := [.push [0x02, 0x03], .push []]
    let ts : List Token := before ++ (opening ++ (inside ++ ending ::
      (between ++ (opening ++ (inside' ++ ending :: [.opcode 0xAC])))))
    let script : Bytes :=
      [0x00, 0x63, 0x00, 0x63, 0x03, 0x6F, 0x72, 0x64, 0x51, 0x4C, 0x01, 0x61, 0x01, 0x01, 0x00,
        0x4D, 0x00, 0x00, 0x4E, 0x01, 0x00, 0x00, 0x00, 0x68, 0x60, 0x68, 0x00, 0x02, 0xAA, 0xBB,
        0x00, 0x4C, 0x00, 0x63, 0x4C, 0x03, 0x6F, 0x72, 0x64, 0x02, 0x02, 0x03, 0x00, 0x68, 0xAC]
    AreAmong [first, second] ts ∧ Script.AreWritten ts script ∧
      ofScript? script = .ok [⟨some [0x68, 0x10], some [0x61]⟩, ⟨none, none⟩] := by
  intro first second before between inside inside' ts script
  have hamong : AreAmong [first, second] ts := by
    refine .next (by decide) ?_ (.next (by decide) ?_ (.none (by decide)))
    · exact .cons (.number (n := 1) (by decide) (by decide)) (.cons (.data _) (.cons (.data _)
        (.cons (.data _) (.cons (.data _) (.cons (.data _)
          (.cons (.number (n := 16) (by decide) (by decide)) .nil))))))
    · exact .cons (.data _) (.cons (.data _) .nil)
  have hwritten : Script.AreWritten ts script := Script.tokens_eq_iff_areWritten.1 (by cbv)
  exact ⟨hamong, hwritten, ofScript?_of_areWritten hamong hwritten⟩

end InscriptionLedger.Envelope
