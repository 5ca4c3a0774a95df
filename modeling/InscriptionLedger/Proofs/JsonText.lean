import InscriptionLedger.Json.Reader
import InscriptionLedger.Json.Writer
import InscriptionLedger.Proofs.KeyedLists
import InscriptionLedger.Proofs.NumeralText

/-!
# Written JSON reads back

A value without floating-point numbers reads back from its text in any layout, with everything
behind the text left over. Only an integer can be in the way: a text in which one has more digits
than a numeral may have is not read at all.

## Main definitions

* `Json.isExact`: values without floating-point numbers, whose objects have each name once
* `Json.EndsNumber`: what can stand behind a number

## Main results

* `Json.readText?_writeText`: a written text reads back
* `Json.readValue?_writeWith`: so does a value in any layout, if it is short
* `Json.read?_compact`, `Json.read?_indented`: the texts of a value read back
-/

namespace InscriptionLedger.Json

open Numeral

/-! ## Values that texts can hold -/

theorem throughout_list_map {α : Type} {p : Json → Bool} {f : α → Json} {xs : List α}
    (hp : p (list (xs.map f)) = true) :
    (list (xs.map f)).throughout p = true ↔ ∀ x ∈ xs, (f x).throughout p = true := by
  rw [throughout, hp, Bool.true_and, throughoutItems_eq_true_iff, List.forall_mem_map]

/-- Whether a value is no floating-point number, and no object with a name twice. -/
def isExactPart : Json → Bool
  | double _ => false
  | object members => decide (members.map Prod.fst).Nodup
  | _ => true

/-- A value without floating-point numbers, whose objects have each name once. -/
def isExact (v : Json) : Bool := v.throughout isExactPart

theorem isExact_item {item : Json} {rest : List Json} :
    throughoutItems isExactPart (item :: rest) = true ↔
      item.isExact = true ∧ throughoutItems isExactPart rest = true := by
  rw [throughoutItems, Bool.and_eq_true, isExact]

theorem isExact_member {name : String} {value : Json} {rest : List (String × Json)} :
    throughoutMembers isExactPart ((name, value) :: rest) = true ↔
      value.isExact = true ∧ throughoutMembers isExactPart rest = true := by
  rw [throughoutMembers, Bool.and_eq_true, isExact]

theorem shortItems_cons (item : Json) (rest : List Json) :
    throughoutItems isShortPart (item :: rest) =
      (item.isShort && throughoutItems isShortPart rest) := by
  rw [throughoutItems, isShort]

theorem shortMembers_cons (name : String) (value : Json) (rest : List (String × Json)) :
    throughoutMembers isShortPart ((name, value) :: rest) =
      (value.isShort && throughoutMembers isShortPart rest) := by
  rw [throughoutMembers, isShort]

theorem isExact_list {items : List Json} :
    (list items).isExact = true ↔ throughoutItems isExactPart items = true := by
  simp [isExact, throughout, isExactPart]

theorem isExact_object {members : List (String × Json)} :
    (object members).isExact = true ↔
      (members.map Prod.fst).Nodup ∧ throughoutMembers isExactPart members = true := by
  simp [isExact, throughout, isExactPart]

/-! ## Characters -/

/-- The code points and units that a written character is read as. -/
def unitsOf (c : Char) : List Nat :=
  if c.toNat < 0x10000 then [c.toNat]
  else [0xD800 + (c.toNat - 0x10000) / 0x400, 0xDC00 + (c.toNat - 0x10000) % 0x400]

theorem joinUnits_unitsOf (c : Char) (us : List Nat) :
    joinUnits (unitsOf c ++ us) = c :: joinUnits us := by
  have hvalid : c.toNat < 0xD800 ∨ 0xDFFF < c.toNat ∧ c.toNat < 0x110000 := c.valid
  unfold unitsOf
  split
  · next h =>
    have hunit : (isHighSurrogate c.toNat || isLowSurrogate c.toNat) = false := by
      simp only [isHighSurrogate, isLowSurrogate, Bool.or_eq_false_iff, Bool.and_eq_false_iff,
        decide_eq_false_iff_not]
      omega
    obtain ⟨hhigh, hlow⟩ := Bool.or_eq_false_iff.1 hunit
    cases us with
    | nil => simp [joinUnits, hhigh, hlow]
    | cons u us => simp [joinUnits, hhigh, hlow]
  · next h =>
    have hpair : (isHighSurrogate (0xD800 + (c.toNat - 0x10000) / 0x400) &&
        isLowSurrogate (0xDC00 + (c.toNat - 0x10000) % 0x400)) = true := by
      simp only [isHighSurrogate, isLowSurrogate, Bool.and_eq_true, decide_eq_true_eq]
      omega
    have hjoin : 0x10000 + (0xD800 + (c.toNat - 0x10000) / 0x400 - 0xD800) * 0x400 +
        (0xDC00 + (c.toNat - 0x10000) % 0x400 - 0xDC00) = c.toNat := by
      omega
    simp only [List.cons_append, List.nil_append, joinUnits]
    rw [if_pos hpair, hjoin, Char.ofNat_toNat]

theorem readUnits?_writeUnit {n : Nat} (h : n < 0x10000) (cs : List Char) :
    readUnits? (writeUnit n ++ cs) = (readUnits? cs).map fun (us, tail) => (n :: us, tail) := by
  have hdigits : hexDigits 4 n = [Hex.digit (n / 4096 % 16), Hex.digit (n / 256 % 16),
      Hex.digit (n / 16 % 16), Hex.digit (n % 16)] := by
    simp [hexDigits, List.range, List.range.loop, Nat.shiftRight_eq_div_pow]
  have hunit : readUnit? (Hex.digit (n / 4096 % 16)) (Hex.digit (n / 256 % 16))
      (Hex.digit (n / 16 % 16)) (Hex.digit (n % 16)) = some n := by
    have hsum : 4096 * (n / 4096 % 16) + 256 * (n / 256 % 16) + 16 * (n / 16 % 16) + n % 16 =
        n := by
      omega
    simp [readUnit?, Hex.digitValue?_digit (Nat.mod_lt _ _), hsum]
  rw [writeUnit, hdigits]
  simp only [List.cons_append, List.nil_append, readUnits?, hunit]
  cases readUnits? cs <;> rfl

theorem readUnits?_escape {e c : Char} (h : unescape? e = some c) (cs : List Char) :
    readUnits? ('\\' :: e :: cs) =
      (readUnits? cs).map fun (us, tail) => (c.toNat :: us, tail) := by
  have hletter : e ≠ 'u' := by
    rintro rfl
    cases h
  rw [readUnits?]
  · rw [h]
    cases readUnits? cs <;> rfl
  · exact fun _ _ _ _ _ heq => absurd heq hletter

theorem readUnits?_plain {c : Char} (hquote : c ≠ '"') (hslash : c ≠ '\\') (h : 0x20 ≤ c.toNat)
    (cs : List Char) :
    readUnits? (c :: cs) = (readUnits? cs).map fun (us, tail) => (c.toNat :: us, tail) := by
  rw [readUnits?]
  · rw [if_neg (by simp [hslash]; omega)]
    cases readUnits? cs <;> rfl
  · exact hquote
  · exact fun _ _ _ _ _ heq _ => hslash heq
  · exact fun _ _ heq _ => hslash heq

/-- A written character is read as its unit, or as the two units that stand for it. -/
theorem readUnits?_writeChar (c : Char) (cs : List Char) :
    readUnits? (writeChar c ++ cs) =
      (readUnits? cs).map fun (us, tail) => (unitsOf c ++ us, tail) := by
  have hone (h : c.toNat < 0x10000) : unitsOf c = [c.toNat] := if_pos h
  unfold writeChar
  dsimp only
  split_ifs with hquote hslash hb ht hn hf hr hplain hunit
  · rw [hquote]
    exact readUnits?_escape rfl cs
  · rw [hslash]
    exact readUnits?_escape rfl cs
  · rw [hone (by omega), hb]
    exact readUnits?_escape (c := '\x08') rfl cs
  · rw [hone (by omega), ht]
    exact readUnits?_escape (c := '\t') rfl cs
  · rw [hone (by omega), hn]
    exact readUnits?_escape (c := '\n') rfl cs
  · rw [hone (by omega), hf]
    exact readUnits?_escape (c := '\x0C') rfl cs
  · rw [hone (by omega), hr]
    exact readUnits?_escape (c := '\r') rfl cs
  · rw [hone (by omega)]
    exact readUnits?_plain hquote hslash hplain.1 cs
  · rw [hone hunit, readUnits?_writeUnit hunit]
    rfl
  · have hvalid : c.toNat < 0xD800 ∨ 0xDFFF < c.toNat ∧ c.toNat < 0x110000 := c.valid
    rw [unitsOf, if_neg hunit, List.append_assoc, readUnits?_writeUnit (by omega),
      readUnits?_writeUnit (by omega), Option.map_map]
    rfl

/-- The characters of a written text are read up to its closing quote. -/
theorem readText?_writeText (s : String) (rest : List Char) :
    readText? (s.toList.flatMap writeChar ++ '"' :: rest) = some (s, rest) := by
  have hunits (cs : List Char) : readUnits? (cs.flatMap writeChar ++ '"' :: rest) =
      some (cs.flatMap unitsOf, rest) := by
    induction cs with
    | nil => rfl
    | cons c cs ih =>
      rw [List.flatMap_cons, List.append_assoc, readUnits?_writeChar, ih]
      rfl
  have hjoin (cs : List Char) : joinUnits (cs.flatMap unitsOf) = cs := by
    induction cs with
    | nil => rfl
    | cons c cs ih => rw [List.flatMap_cons, joinUnits_unitsOf, ih]
  simp only [readText?, hunits, Option.map_some, hjoin, String.ofList_toList]

/-! ## Numbers -/

/-- What can stand behind a number: no digit, point or letter of an exponent. -/
def EndsNumber (rest : List Char) : Prop :=
  ∀ c ∈ rest.head?, isNumeralChar c = false ∧ c ≠ '.' ∧ c ≠ 'e' ∧ c ≠ 'E'

theorem endsNumber_cons {c : Char} (hc : isNumeralChar c = false ∧ c ≠ '.' ∧ c ≠ 'e' ∧ c ≠ 'E')
    (cs : List Char) : EndsNumber (c :: cs) := by
  intro d hd
  obtain rfl := Option.some.inj hd
  exact hc

theorem endsNumber_comma (cs : List Char) : EndsNumber (',' :: cs) :=
  endsNumber_cons (by decide) cs

section

variable {rest : List Char} (hrest : EndsNumber rest)

include hrest

theorem spanDigits_map_digitChar {ds : List Nat} (hlt : ∀ d ∈ ds, d < 10) :
    spanDigits (ds.map digitChar ++ rest) = (ds, rest) := by
  have hdigit : ∀ d : Fin 10, 0x30 ≤ (digitChar d).toNat ∧ (digitChar d).toNat ≤ 0x39 ∧
      (digitChar d).toNat - 0x30 = d.val := by
    decide
  induction ds with
  | nil =>
    cases rest with
    | nil => rfl
    | cons c rest =>
      have hc : ¬(0x30 ≤ c.toNat ∧ c.toNat ≤ 0x39) := by
        have := (hrest c rfl).1
        simp only [isNumeralChar, Bool.or_eq_false_iff, Bool.and_eq_false_iff,
          decide_eq_false_iff_not] at this
        omega
      simp [spanDigits, hc]
  | cons d ds ih =>
    obtain ⟨hd, hds⟩ := List.forall_mem_cons.1 hlt
    obtain ⟨hlow, hhigh, hvalue⟩ := hdigit ⟨d, hd⟩
    simp only [List.map_cons, List.cons_append, spanDigits, ih hds]
    rw [if_pos ⟨hlow, hhigh⟩, hvalue]

theorem spanFraction_of_endsNumber : spanFraction rest = ([], rest) := by
  cases rest with
  | nil => rfl
  | cons c rest =>
    rw [spanFraction]
    exact fun _ heq => (hrest c rfl).2.1 (List.cons.inj heq).1

theorem spanExponent_of_endsNumber : spanExponent rest = (none, rest) := by
  cases rest with
  | nil => rfl
  | cons c rest =>
    obtain ⟨-, -, he, hE⟩ := hrest c rfl
    simp [spanExponent, he, hE]

/-- A number in ASCII digits is read up to what can stand behind it, unless it has too many. -/
theorem readNumber?_natChars (negative : Bool) (n : Nat) :
    readNumber? negative (natChars n ++ rest) =
      if digitCount n ≤ maxDigits then some (integer (signed negative n), rest) else none := by
  have hspan := spanDigits_map_digitChar hrest fun _ => natDigits_lt (n := n)
  obtain ⟨d, ds, hds⟩ := List.exists_cons_of_ne_nil (natDigits_ne_nil n)
  have hvalue := value_natDigits n
  have hzero : digitChar d = '0' → d = 0 ∧ ds = [] := by
    intro hd
    obtain rfl : d = 0 := by
      have := decimalValue?_digitChar (natDigits_lt (hds ▸ List.mem_cons_self))
      rw [hd] at this
      exact (Option.some.inj this).symm
    exact ⟨rfl, eq_nil_of_natDigits_eq_zero_cons hds⟩
  rw [natChars, digitCount]
  rw [hds] at hspan hvalue ⊢
  rw [List.map_cons, List.cons_append] at hspan ⊢
  unfold readNumber?
  split
  next _ whole tail heq =>
    have hwhole : (d :: ds, rest) = (whole, tail) := by
      rw [← heq]
      split
      · next _ behind hcs =>
        obtain ⟨hd, rfl⟩ := List.cons.inj hcs
        obtain ⟨rfl, rfl⟩ := hzero hd
        rfl
      · exact hspan.symm
    obtain ⟨rfl, rfl⟩ := Prod.mk.inj hwhole
    simp [spanFraction_of_endsNumber hrest, spanExponent_of_endsNumber hrest, hvalue]

/-- An integer is read up to what can stand behind it, unless it has too many digits. -/
theorem readScalar?_intChars (n : Int) :
    readScalar? (intChars n ++ rest) =
      if digitCount n.natAbs ≤ maxDigits then some (integer n, rest) else none := by
  have hnumber := readNumber?_natChars hrest (decide (n < 0)) n.natAbs
  rw [signed_natAbs] at hnumber
  rw [← hnumber]
  obtain ⟨d, ds, hds⟩ := List.exists_cons_of_ne_nil (natDigits_ne_nil n.natAbs)
  have hletter : ∀ d : Fin 10, digitChar d ≠ 'n' ∧ digitChar d ≠ 't' ∧ digitChar d ≠ 'f' ∧
      digitChar d ≠ 'N' ∧ digitChar d ≠ 'I' ∧ digitChar d ≠ '-' := by
    decide
  obtain ⟨hn, ht, hf, hN, hI, hminus⟩ := hletter ⟨d, natDigits_lt (hds ▸ List.mem_cons_self)⟩
  rw [intChars, natChars, hds, List.map_cons]
  split
  · next hneg =>
    rw [decide_eq_true hneg, List.cons_append, List.cons_append, readScalar?]
    exact fun _ heq => hI (List.cons.inj heq).1
  · next hneg =>
    rw [decide_eq_false hneg, List.cons_append, readScalar?]
    all_goals exact fun _ heq => absurd (List.cons.inj heq).1 ‹_›

end

/-! ## Blanks -/

/-- The blanks between the parts of a value. -/
def isSpace (c : Char) : Bool := c = ' ' ∨ c = '\t' ∨ c = '\n' ∨ c = '\r'

theorem skipBlank_cons {c : Char} (h : isSpace c = false) (cs : List Char) :
    skipBlank (c :: cs) = c :: cs := by
  rw [skipBlank, if_neg (of_decide_eq_false h)]

theorem skipBlank_colon (cs : List Char) : skipBlank (':' :: cs) = ':' :: cs :=
  skipBlank_cons (by decide) cs

theorem skipBlank_space (cs : List Char) : skipBlank (' ' :: cs) = skipBlank cs := by
  rw [skipBlank, if_pos (.inl rfl)]

theorem skipBlank_append {blank : List Char} (h : ∀ c ∈ blank, isSpace c = true)
    (cs : List Char) : skipBlank (blank ++ cs) = skipBlank cs := by
  induction blank with
  | nil => rfl
  | cons c blank ih =>
    obtain ⟨hc, hblank⟩ := List.forall_mem_cons.1 h
    rw [List.cons_append, skipBlank, if_pos (of_decide_eq_true hc), ih hblank]

theorem isSpace_of_mem_lineBreak {layout : Layout} {depth : Nat} {c : Char}
    (h : c ∈ layout.lineBreak depth) : isSpace c = true := by
  unfold Layout.lineBreak at h
  split at h
  · rcases List.mem_cons.1 h with rfl | h
    · rfl
    · rw [List.eq_of_mem_replicate h]
      rfl
  · cases h

theorem skipBlank_lineBreak (layout : Layout) (depth : Nat) (cs : List Char) :
    skipBlank (layout.lineBreak depth ++ cs) = skipBlank cs :=
  skipBlank_append (fun _ => isSpace_of_mem_lineBreak) cs

/-- A separator is a comma and blanks. -/
theorem exists_separator (layout : Layout) (depth : Nat) :
    ∃ blank, layout.separator depth = ',' :: blank ∧ ∀ c ∈ blank, isSpace c = true := by
  unfold Layout.separator
  split
  · exact ⟨_, rfl, fun _ => isSpace_of_mem_lineBreak⟩
  · exact ⟨[' '], rfl, List.forall_mem_singleton.2 rfl⟩

/-- What can stand behind a number can do so after blanks. -/
theorem endsNumber_of_skipBlank {cs : List Char} (h : EndsNumber (skipBlank cs)) :
    EndsNumber cs := by
  cases cs with
  | nil => exact h
  | cons d cs =>
    cases hd : isSpace d with
    | false => rwa [skipBlank_cons hd] at h
    | true =>
      intro c hc
      obtain rfl := Option.some.inj hc
      rcases of_decide_eq_true hd with rfl | rfl | rfl | rfl <;> decide

/-- Whether a character is neither a blank nor a closing bracket. -/
def isFirst (c : Char) : Bool := !isSpace c && c != ']' && c != '\x7d'

theorem isFirst_of_isNumeralChar {c : Char} (h : isNumeralChar c = true) : isFirst c = true := by
  have hne {d : Char} (hd : isNumeralChar d = false) : c ≠ d := by
    rintro rfl
    rw [h] at hd
    cases hd
  simp [isFirst, isSpace, hne (d := ' ') rfl, hne (d := '\t') rfl, hne (d := '\n') rfl,
    hne (d := '\r') rfl, hne (d := ']') rfl, hne (d := '\x7d') rfl]

/-- What starts with neither a blank nor a closing bracket. -/
def IsStart (cs : List Char) : Prop := ∃ c rest, cs = c :: rest ∧ isFirst c = true

namespace IsStart

variable {cs : List Char} (h : IsStart cs)

include h

theorem append (more : List Char) : IsStart (cs ++ more) := by
  obtain ⟨c, rest, rfl, hc⟩ := h
  exact ⟨c, rest ++ more, rfl, hc⟩

theorem skipBlank_eq : skipBlank cs = cs := by
  obtain ⟨c, rest, rfl, hc⟩ := h
  simp only [isFirst, Bool.and_eq_true, Bool.not_eq_true'] at hc
  exact skipBlank_cons hc.1.1 rest

theorem ne_cons (tail : List Char) : cs ≠ ']' :: tail ∧ cs ≠ '\x7d' :: tail := by
  obtain ⟨c, rest, rfl, hc⟩ := h
  simp only [isFirst, Bool.and_eq_true, bne_iff_ne] at hc
  exact ⟨fun heq => hc.1.2 (List.cons.inj heq).1, fun heq => hc.2 (List.cons.inj heq).1⟩

theorem length_pos : 0 < cs.length := by
  obtain ⟨c, rest, rfl, -⟩ := h
  exact Nat.succ_pos _

end IsStart

/-! ## One step of the reader -/

theorem writeText_append (s : String) (cs : List Char) :
    writeText s ++ cs = '"' :: (s.toList.flatMap writeChar ++ '"' :: cs) := by
  simp [writeText]

section

variable {fuel : Nat} {cs rest : List Char}

theorem readValue?_scalar {c : Char} (hquote : c ≠ '"') (hlist : c ≠ '[') (hobject : c ≠ '\x7b') :
    readValue? (fuel + 1) (c :: cs) = readScalar? (c :: cs) := by
  rw [readValue?]
  · exact fun _ heq => hquote (List.cons.inj heq).1
  · exact fun _ heq => hlist (List.cons.inj heq).1
  · exact fun _ heq => hobject (List.cons.inj heq).1

theorem readValue?_list {items : List Char} (hskip : skipBlank cs = items)
    (hstart : IsStart items) :
    readValue? (fuel + 1) ('[' :: cs) =
      (readItems? fuel items).map fun (values, tail) => (list values, tail) := by
  rw [readValue?, hskip]
  split
  · next tail => exact absurd rfl (hstart.ne_cons tail).1
  · rfl

theorem readValue?_object {members : List Char} (hskip : skipBlank cs = members)
    (hstart : IsStart members) :
    readValue? (fuel + 1) ('\x7b' :: cs) =
      (readMembers? fuel [] members).map fun (ms, tail) => (object ms, tail) := by
  rw [readValue?, hskip]
  split
  · next tail => exact absurd rfl (hstart.ne_cons tail).2
  · rfl

section

variable {item : Json} {behind : List Char}
  (hitem : readValue? fuel cs = if item.isShort then some (item, behind) else none)

include hitem

theorem readItems?_last (hclose : skipBlank behind = ']' :: rest) :
    readItems? (fuel + 1) cs =
      if throughoutItems isShortPart [item] then some ([item], rest) else none := by
  rw [shortItems_cons, throughoutItems, Bool.and_true, readItems?, hitem]
  split
  · simp [hclose]
  · rfl

theorem readItems?_more {more : List Char} {items : List Json}
    (hcomma : skipBlank behind = ',' :: more)
    (hitems : readItems? fuel (skipBlank more) =
      if throughoutItems isShortPart items then some (items, rest) else none) :
    readItems? (fuel + 1) cs =
      if throughoutItems isShortPart (item :: items) then some (item :: items, rest) else none := by
  rw [shortItems_cons, readItems?, hitem]
  cases item.isShort with
  | false => rfl
  | true =>
    simp only [if_true, hcomma, hitems, Option.bind_eq_bind, Option.bind_some, Bool.true_and]
    split <;> rfl

end

section

variable {shown behind : List Char} {value : Json} (name : String)
  (before : List (String × Json)) (hstart : IsStart shown)
  (hvalue : readValue? fuel shown = if value.isShort then some (value, behind) else none)

include hstart hvalue

theorem readMembers?_last (hclose : skipBlank behind = '\x7d' :: rest) :
    readMembers? (fuel + 1) before (writeText name ++ ':' :: ' ' :: shown) =
      if throughoutMembers isShortPart [(name, value)] then some (Keyed.put before name value, rest)
      else none := by
  rw [shortMembers_cons, throughoutMembers, Bool.and_true, writeText_append, readMembers?,
    readText?_writeText]
  simp only [Option.bind_eq_bind, Option.bind_some, skipBlank_colon, skipBlank_space,
    hstart.skipBlank_eq, hvalue]
  split
  · simp [hclose]
  · rfl

theorem readMembers?_more {more : List Char} {members : List (String × Json)}
    {found : List (String × Json)} (hcomma : skipBlank behind = ',' :: more)
    (hmembers : readMembers? fuel (Keyed.put before name value) (skipBlank more) =
      if throughoutMembers isShortPart members then some (found, rest) else none) :
    readMembers? (fuel + 1) before (writeText name ++ ':' :: ' ' :: shown) =
      if throughoutMembers isShortPart ((name, value) :: members) then some (found, rest)
      else none := by
  rw [shortMembers_cons, writeText_append, readMembers?, readText?_writeText]
  simp only [Option.bind_eq_bind, Option.bind_some, skipBlank_colon, skipBlank_space,
    hstart.skipBlank_eq, hvalue]
  cases value.isShort with
  | false => rfl
  | true => simp only [if_true, hcomma, hmembers, Option.bind_some, Bool.true_and]

end

end

/-! ## Values -/

theorem isStart_writeWith (layout : Layout) (depth : Nat) {v : Json} (h : v.isExact = true) :
    IsStart (writeWith layout depth v) := by
  cases v with
  | null => exact ⟨'n', ['u', 'l', 'l'], by simp [writeWith], rfl⟩
  | bool b =>
    cases b with
    | false => exact ⟨'f', ['a', 'l', 's', 'e'], by simp [writeWith], rfl⟩
    | true => exact ⟨'t', ['r', 'u', 'e'], by simp [writeWith], rfl⟩
  | integer n =>
    obtain ⟨c, cs, hcs⟩ := List.exists_cons_of_ne_nil (intChars_ne_nil n)
    have hc : isNumeralChar c = true := mem_intChars (hcs ▸ List.mem_cons_self)
    exact ⟨c, cs, by rw [writeWith, hcs], isFirst_of_isNumeralChar hc⟩
  | double x => simp [isExact, throughout, isExactPart] at h
  | text s => exact ⟨'"', _, by rw [writeWith, writeText, List.cons_append], rfl⟩
  | list items =>
    cases items with
    | nil => exact ⟨'[', _, by rw [writeWith], rfl⟩
    | cons item items =>
      exact ⟨'[', _, by simp only [writeWith, List.cons_append]; rfl, rfl⟩
  | object members =>
    cases members with
    | nil => exact ⟨'\x7b', _, by rw [writeWith], rfl⟩
    | cons member members =>
      exact ⟨'\x7b', _, by simp only [writeWith, List.cons_append]; rfl, rfl⟩

theorem writeItems_cons_cons (layout : Layout) (depth : Nat) (item next : Json)
    (more : List Json) :
    writeItems layout depth (item :: next :: more) = writeWith layout depth item ++
      layout.separator depth ++ writeItems layout depth (next :: more) := by
  rw [writeItems]
  exact nofun

theorem writeMembers_cons_cons (layout : Layout) (depth : Nat) (name : String) (value : Json)
    (next : String × Json) (more : List (String × Json)) :
    writeMembers layout depth ((name, value) :: next :: more) =
      writeText name ++ ':' :: ' ' :: writeWith layout depth value ++ layout.separator depth ++
        writeMembers layout depth (next :: more) := by
  rw [writeMembers]
  exact nofun

theorem isStart_writeItems (layout : Layout) (depth : Nat) {items : List Json} (hne : items ≠ [])
    (h : throughoutItems isExactPart items = true) : IsStart (writeItems layout depth items) := by
  cases items with
  | nil => exact absurd rfl hne
  | cons item rest =>
    have hitem := isStart_writeWith layout depth (isExact_item.1 h).1
    cases rest with
    | nil => rwa [writeItems]
    | cons next more =>
      rw [writeItems_cons_cons, List.append_assoc]
      exact hitem.append _

theorem isStart_writeMembers (layout : Layout) (depth : Nat) {members : List (String × Json)}
    (hne : members ≠ []) : IsStart (writeMembers layout depth members) := by
  have htext (name : String) (cs : List Char) : IsStart (writeText name ++ cs) :=
    ⟨'"', _, writeText_append name cs, rfl⟩
  cases members with
  | nil => exact absurd rfl hne
  | cons member rest =>
    cases rest with
    | nil =>
      rw [writeMembers]
      exact htext _ _
    | cons next more =>
      rw [writeMembers_cons_cons, List.append_assoc, List.append_assoc]
      exact htext _ _

theorem put_of_nodup {before rest : List (String × Json)} {name : String} {value : Json}
    (h : ((before ++ (name, value) :: rest).map Prod.fst).Nodup) :
    Keyed.put before name value = before ++ [(name, value)] := by
  apply Keyed.put_of_get?_none
  rw [Keyed.get?_eq_none_iff]
  intro x hx
  rw [List.map_append, List.map_cons, List.nodup_append] at h
  exact beq_eq_false_iff_ne.2 (h.2.2 _ (List.mem_map_of_mem hx) _ List.mem_cons_self)

section

variable {layout : Layout}

-- The fuel counts the characters: a bracket pays for the call that reads what it holds, and the
-- comma behind an item or a member for the call that reads the next ones.
mutual

/-- A value that is written in any layout reads back, if it is short. -/
theorem readValue?_writeWith : ∀ (v : Json) (depth fuel : Nat) {rest : List Char},
    v.isExact = true → EndsNumber rest → (writeWith layout depth v).length ≤ fuel + 1 →
      readValue? (fuel + 1) (writeWith layout depth v ++ rest) =
        if v.isShort then some (v, rest) else none
  | null, depth, fuel, rest, hexact, hrest, hfuel => by
    simp [writeWith, readValue?, readScalar?, readName?, dropName?, isShort, throughout,
      isShortPart]
  | bool b, depth, fuel, rest, hexact, hrest, hfuel => by
    cases b <;> simp [writeWith, readValue?, readScalar?, readName?, dropName?, isShort,
      throughout, isShortPart]
  | integer n, depth, fuel, rest, hexact, hrest, hfuel => by
    have hscalar := readScalar?_intChars hrest n
    obtain ⟨c, cs, hcs⟩ := List.exists_cons_of_ne_nil (intChars_ne_nil n)
    have hc : isNumeralChar c = true := mem_intChars (hcs ▸ List.mem_cons_self)
    rw [writeWith, hcs, List.cons_append, readValue?_scalar, ← List.cons_append, ← hcs, hscalar]
    · simp only [isShort_integer, Numeral.isShort_iff]
    all_goals
      rintro rfl
      exact absurd hc (by decide)
  | double x, depth, fuel, rest, hexact, hrest, hfuel => by
    simp [isExact, throughout, isExactPart] at hexact
  | text s, depth, fuel, rest, hexact, hrest, hfuel => by
    rw [writeWith, writeText_append, readValue?, readText?_writeText]
    simp [isShort, throughout, isShortPart]
  | list [], depth, fuel, rest, hexact, hrest, hfuel => by
    simp [writeWith, readValue?, skipBlank, isShort_list, throughoutItems]
  | list (item :: items), depth, fuel, rest, hexact, hrest, hfuel => by
    have hne := List.cons_ne_nil item items
    rw [isExact_list] at hexact
    have hstart := isStart_writeItems layout (depth + 1) hne hexact
    have hpos := hstart.length_pos
    rw [writeWith] at hfuel ⊢
    simp only [List.length_append, List.length_cons] at hfuel
    simp only [List.cons_append, List.append_assoc, List.nil_append]
    obtain ⟨fuel, rfl⟩ := Nat.exists_eq_add_of_le' (show 2 ≤ fuel by omega)
    have hclose : skipBlank (layout.lineBreak depth ++ ']' :: rest) = ']' :: rest := by
      rw [skipBlank_lineBreak, skipBlank_cons (by decide)]
    have hitems := readItems?_writeItems (item :: items) (depth + 1) fuel hne hexact hclose
      (by omega)
    have hstart' := hstart.append (layout.lineBreak depth ++ ']' :: rest)
    have hskip := (skipBlank_lineBreak layout (depth + 1) _).trans hstart'.skipBlank_eq
    rw [readValue?_list hskip hstart', hitems, isShort_list]
    split <;> rfl
  | object [], depth, fuel, rest, hexact, hrest, hfuel => by
    simp [writeWith, readValue?, skipBlank, isShort_object, throughoutMembers]
  | object (member :: members), depth, fuel, rest, hexact, hrest, hfuel => by
    have hne := List.cons_ne_nil member members
    obtain ⟨hnames, hexact⟩ := isExact_object.1 hexact
    have hstart := isStart_writeMembers layout (depth + 1) hne
    have hpos := hstart.length_pos
    rw [writeWith] at hfuel ⊢
    simp only [List.length_append, List.length_cons] at hfuel
    simp only [List.cons_append, List.append_assoc, List.nil_append]
    obtain ⟨fuel, rfl⟩ := Nat.exists_eq_add_of_le' (show 2 ≤ fuel by omega)
    have hclose : skipBlank (layout.lineBreak depth ++ '\x7d' :: rest) = '\x7d' :: rest := by
      rw [skipBlank_lineBreak, skipBlank_cons (by decide)]
    have hmembers : readMembers? (fuel + 2) [] _ = _ :=
      readMembers?_writeMembers (member :: members) (depth + 1) fuel hne hexact hnames hclose
        (by omega)
    have hstart' := hstart.append (layout.lineBreak depth ++ '\x7d' :: rest)
    have hskip := (skipBlank_lineBreak layout (depth + 1) _).trans hstart'.skipBlank_eq
    rw [readValue?_object hskip hstart', hmembers, isShort_object]
    split <;> rfl

/-- So do the items of a list, up to its closing bracket. -/
theorem readItems?_writeItems : ∀ (items : List Json) (depth fuel : Nat) {close rest : List Char},
    items ≠ [] → throughoutItems isExactPart items = true → skipBlank close = ']' :: rest →
    (writeItems layout depth items).length ≤ fuel + 1 →
      readItems? (fuel + 2) (writeItems layout depth items ++ close) =
        if throughoutItems isShortPart items then some (items, rest) else none
  | [], depth, fuel, close, rest, hne, hexact, hclose, hfuel => absurd rfl hne
  | [item], depth, fuel, close, rest, hne, hexact, hclose, hfuel => by
    have hends : EndsNumber close :=
      endsNumber_of_skipBlank (hclose ▸ endsNumber_cons (by decide) rest)
    rw [writeItems] at hfuel ⊢
    have hitem := readValue?_writeWith item depth fuel (isExact_item.1 hexact).1 hends hfuel
    exact readItems?_last hitem hclose
  | item :: next :: more, depth, fuel, close, rest, hne, hexact, hclose, hfuel => by
    have hne := List.cons_ne_nil next more
    obtain ⟨hexact, hmore⟩ := isExact_item.1 hexact
    obtain ⟨blank, hseparator, hblank⟩ := exists_separator layout depth
    have hstart := isStart_writeItems layout depth hne hmore
    have hpos := hstart.length_pos
    have hpos' := (isStart_writeWith layout depth hexact).length_pos
    rw [writeItems_cons_cons, hseparator] at hfuel ⊢
    simp only [List.length_append, List.length_cons] at hfuel
    simp only [List.append_assoc, List.cons_append]
    obtain ⟨fuel, rfl⟩ := Nat.exists_eq_add_of_le' (show 1 ≤ fuel by omega)
    have hitem := readValue?_writeWith item depth (fuel + 1) hexact
      (endsNumber_comma (blank ++ (writeItems layout depth (next :: more) ++ close))) (by omega)
    have hitems := readItems?_writeItems (next :: more) depth fuel hne hmore hclose (by omega)
    have hskip := (skipBlank_append hblank _).trans (hstart.append close).skipBlank_eq
    rw [← hskip] at hitems
    exact readItems?_more hitem (skipBlank_cons (by decide) _) hitems

/-- So do the members of an object, up to its closing bracket, behind those read before. -/
theorem readMembers?_writeMembers : ∀ (members : List (String × Json)) (depth fuel : Nat)
    {before : List (String × Json)} {close rest : List Char}, members ≠ [] →
    throughoutMembers isExactPart members = true →
    ((before ++ members).map Prod.fst).Nodup → skipBlank close = '\x7d' :: rest →
    (writeMembers layout depth members).length ≤ fuel + 1 →
      readMembers? (fuel + 2) before (writeMembers layout depth members ++ close) =
        if throughoutMembers isShortPart members then some (before ++ members, rest) else none
  | [], depth, fuel, before, close, rest, hne, hexact, hnames, hclose, hfuel => absurd rfl hne
  | [(name, value)], depth, fuel, before, close, rest, hne, hexact, hnames, hclose, hfuel => by
    have hends : EndsNumber close :=
      endsNumber_of_skipBlank (hclose ▸ endsNumber_cons (by decide) rest)
    have hexact := (isExact_member.1 hexact).1
    rw [writeMembers] at hfuel ⊢
    simp only [List.length_append, List.length_cons] at hfuel
    simp only [List.append_assoc, List.cons_append]
    have hstart := (isStart_writeWith layout depth hexact).append close
    have hvalue := readValue?_writeWith value depth fuel hexact hends (by omega)
    rw [← put_of_nodup hnames]
    exact readMembers?_last name before hstart hvalue hclose
  | (name, value) :: next :: more, depth, fuel, before, close, rest, hne, hexact, hnames, hclose,
      hfuel => by
    have hne := List.cons_ne_nil next more
    obtain ⟨hexact, hmore⟩ := isExact_member.1 hexact
    obtain ⟨blank, hseparator, hblank⟩ := exists_separator layout depth
    have hstart := isStart_writeWith layout depth hexact
    have hstart' := isStart_writeMembers layout depth hne
    have hpos := hstart.length_pos
    have hpos' := hstart'.length_pos
    rw [writeMembers_cons_cons, hseparator] at hfuel ⊢
    simp only [List.length_append, List.length_cons] at hfuel
    simp only [List.append_assoc, List.cons_append]
    obtain ⟨fuel, rfl⟩ := Nat.exists_eq_add_of_le' (show 1 ≤ fuel by omega)
    have hvalue := readValue?_writeWith value depth (fuel + 1) hexact
      (endsNumber_comma (blank ++ (writeMembers layout depth (next :: more) ++ close))) (by omega)
    have hput : before ++ (name, value) :: next :: more =
        Keyed.put before name value ++ next :: more := by
      rw [put_of_nodup hnames, List.append_assoc, List.singleton_append]
    rw [hput] at hnames ⊢
    have hmembers := readMembers?_writeMembers (next :: more) depth fuel hne hmore hnames hclose
      (by omega)
    have hskip := (skipBlank_append hblank _).trans (hstart'.append close).skipBlank_eq
    rw [← hskip] at hmembers
    exact readMembers?_more name before (hstart.append _) hvalue (skipBlank_cons (by decide) _)
      hmembers

end

end

/-! ## Texts of values -/

/-- What is written in a layout reads back, if it is short; else it is not read at all. -/
theorem readChars?_writeWith (layout : Layout) {v : Json} (h : v.isExact = true) :
    readChars? (writeWith layout 0 v) = if v.isShort then some v else none := by
  have hread : readValue? _ (writeWith layout 0 v ++ []) = _ :=
    readValue?_writeWith v 0 (writeWith layout 0 v).length h nofun (Nat.le_succ _)
  rw [List.append_nil] at hread
  rw [readChars?, (isStart_writeWith layout 0 h).skipBlank_eq, hread]
  cases v.isShort <;> rfl

/-- The text of a value on one line reads back, if it is short. -/
theorem read?_compact {v : Json} (h : v.isExact = true) :
    read? v.compact = if v.isShort then some v else none := by
  rw [read?, compact, String.toList_ofList, readChars?_writeWith _ h]

/-- The text of a value with one line for each part reads back, if it is short. -/
theorem read?_indented {v : Json} (h : v.isExact = true) :
    read? v.indented = if v.isShort then some v else none := by
  rw [read?, indented, String.toList_ofList, readChars?_writeWith _ h]

end InscriptionLedger.Json
