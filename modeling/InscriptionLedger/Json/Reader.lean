import InscriptionLedger.Json.Basic

/-!
# Reading JSON

The reader accepts the JSON grammar, with three additions: the names of the undefined number and of
the infinities. A number with a fraction or an exponent is a floating-point number, any other one an
integer. Of members with one name the last value counts, at the place of the first. Escaped
surrogates are joined in pairs; one without a partner, which no text holds, becomes the replacement
character.

## Main definitions

* `Json.read? s`: the value of a text
* `Json.readValue? fuel cs`: the value at the front of `cs`, and the rest
* `Json.readDocument? cs`: the document of a list of characters

## Main results

* `Json.isShort_of_readChars?`: what is read can be written

## Implementation notes

The fuel of the mutually recursive readers is the length of the text: every nested call has consumed
a character.
-/

namespace InscriptionLedger.Json

open Numeral

/-- The list without the blanks at its front. -/
def skipBlank : List Char → List Char
  | [] => []
  | c :: rest => if c = ' ' ∨ c = '\t' ∨ c = '\n' ∨ c = '\r' then skipBlank rest else c :: rest

/-- The ASCII digits at the front of a list, and the rest of it. -/
def spanDigits : List Char → List Nat × List Char
  | [] => ([], [])
  | c :: rest =>
    if 0x30 ≤ c.toNat ∧ c.toNat ≤ 0x39 then
      let (ds, tail) := spanDigits rest
      ((c.toNat - 0x30) :: ds, tail)
    else ([], c :: rest)

/-- The fraction at the front of a list, if a point and a digit stand there. -/
def spanFraction (cs : List Char) : List Nat × List Char :=
  match cs with
  | '.' :: rest =>
    match spanDigits rest with
    | ([], _) => ([], cs)
    | found => found
  | _ => ([], cs)

/-- The exponent at the front of a list, if a letter `e`, a sign or none, and a digit stand
there. -/
def spanExponent (cs : List Char) : Option Int × List Char :=
  match cs with
  | c :: rest =>
    if c = 'e' ∨ c = 'E' then
      let (negative, body) := splitSign rest
      match spanDigits body with
      | ([], _) => (none, cs)
      | (ds, tail) => (some (signed negative (value ds)), tail)
    else (none, cs)
  | [] => (none, [])

/-- The number of the given sign at the front of a list of digits. -/
def readNumber? (negative : Bool) (cs : List Char) : Option (Json × List Char) :=
  let (whole, afterWhole) := match cs with
    | '0' :: rest => ([0], rest)
    | _ => spanDigits cs
  match whole with
  | [] => none
  | _ =>
    let (fraction, afterFraction) := spanFraction afterWhole
    let (exponent, rest) := spanExponent afterFraction
    if fraction.isEmpty ∧ exponent.isNone then
      if whole.length ≤ maxDigits then some (integer (signed negative (value whole)), rest)
      else none
    else
      let coefficient := value (whole ++ fraction)
      some (double (.ofDecimal negative coefficient (exponent.getD 0 - fraction.length)), rest)

/-! ## Texts -/

/-- The number of four hexadecimal digits. -/
def readUnit? (a b c d : Char) : Option Nat := do
  return 4096 * (← Hex.digitValue? a) + 256 * (← Hex.digitValue? b) + 16 * (← Hex.digitValue? c)
    + (← Hex.digitValue? d)

/-- The character that a one-letter escape stands for. -/
def unescape? : Char → Option Char
  | '"' => some '"'
  | '\\' => some '\\'
  | '/' => some '/'
  | 'b' => some '\x08'
  | 'f' => some '\x0C'
  | 'n' => some '\n'
  | 'r' => some '\r'
  | 't' => some '\t'
  | _ => none

/-- The code points and escaped units up to the closing quote, and the rest after it. -/
def readUnits? : List Char → Option (List Nat × List Char)
  | [] => none
  | '"' :: rest => some ([], rest)
  | '\\' :: 'u' :: a :: b :: c :: d :: rest => do
    let unit ← readUnit? a b c d
    let (units, tail) ← readUnits? rest
    return (unit :: units, tail)
  | '\\' :: e :: rest => do
    let c ← unescape? e
    let (units, tail) ← readUnits? rest
    return (c.toNat :: units, tail)
  | c :: rest => do
    if c = '\\' ∨ c.toNat < 0x20 then none
    else
      let (units, tail) ← readUnits? rest
      return (c.toNat :: units, tail)

/-- Whether a unit is the first, or the second, of a surrogate pair. -/
def isHighSurrogate (n : Nat) : Bool := 0xD800 ≤ n && n < 0xDC00

@[inherit_doc isHighSurrogate]
def isLowSurrogate (n : Nat) : Bool := 0xDC00 ≤ n && n < 0xE000

/-- The characters of a list of code points and units. -/
def joinUnits : List Nat → List Char
  | [] => []
  | [n] => [if isHighSurrogate n || isLowSurrogate n then Utf8.replacement else Char.ofNat n]
  | n :: m :: rest =>
    if isHighSurrogate n && isLowSurrogate m then
      Char.ofNat (0x10000 + (n - 0xD800) * 0x400 + (m - 0xDC00)) :: joinUnits rest
    else if isHighSurrogate n || isLowSurrogate n then Utf8.replacement :: joinUnits (m :: rest)
    else Char.ofNat n :: joinUnits (m :: rest)

/-- The text after an opening quote, and the rest after the closing one. -/
def readText? (cs : List Char) : Option (String × List Char) :=
  (readUnits? cs).map fun (units, rest) => (String.ofList (joinUnits units), rest)

/-! ## Values -/

/-- The list after a name that it starts with. -/
def dropName? : List Char → List Char → Option (List Char)
  | [], cs => some cs
  | _ :: _, [] => none
  | x :: xs, c :: cs => if x = c then dropName? xs cs else none

/-- The value that a name at the front of a list stands for. -/
def readName? (name : String) (named : Json) (cs : List Char) : Option (Json × List Char) :=
  (dropName? name.toList cs).map fun rest => (named, rest)

/-- The value at the front of a list that starts with neither a bracket nor a quote. -/
def readScalar? (cs : List Char) : Option (Json × List Char) :=
  match cs with
  | 'n' :: _ => readName? "null" null cs
  | 't' :: _ => readName? "true" (bool true) cs
  | 'f' :: _ => readName? "false" (bool false) cs
  | 'N' :: _ => readName? "NaN" (double .undefined) cs
  | 'I' :: _ => readName? "Infinity" (double (.infinity false)) cs
  | '-' :: 'I' :: _ => readName? "-Infinity" (double (.infinity true)) cs
  | '-' :: rest => readNumber? true rest
  | _ => readNumber? false cs

mutual

/-- The value at the front of a list, and the rest. -/
def readValue? : Nat → List Char → Option (Json × List Char)
  | 0, _ => none
  | fuel + 1, cs =>
    match cs with
    | '"' :: rest => (readText? rest).map fun (s, tail) => (text s, tail)
    | '[' :: rest =>
      match skipBlank rest with
      | ']' :: tail => some (list [], tail)
      | items => (readItems? fuel items).map fun (values, tail) => (list values, tail)
    | '\x7b' :: rest =>
      match skipBlank rest with
      | '\x7d' :: tail => some (object [], tail)
      | members => (readMembers? fuel [] members).map fun (ms, tail) => (object ms, tail)
    | _ => readScalar? cs

/-- The items up to the closing bracket of a list, and the rest after it. -/
def readItems? : Nat → List Char → Option (List Json × List Char)
  | 0, _ => none
  | fuel + 1, cs => do
    let (item, rest) ← readValue? fuel cs
    match skipBlank rest with
    | ']' :: tail => some ([item], tail)
    | ',' :: more =>
      let (items, tail) ← readItems? fuel (skipBlank more)
      some (item :: items, tail)
    | _ => none

/-- The members up to the closing bracket of an object, added to those so far, and the rest after
it. -/
def readMembers? : Nat → List (String × Json) → List Char →
    Option (List (String × Json) × List Char)
  | 0, _, _ => none
  | fuel + 1, members, cs =>
    match cs with
    | '"' :: quoted => do
      let (name, afterName) ← readText? quoted
      match skipBlank afterName with
      | ':' :: rest =>
        let (value, afterValue) ← readValue? fuel (skipBlank rest)
        match skipBlank afterValue with
        | '\x7d' :: tail => some (Keyed.put members name value, tail)
        | ',' :: more => readMembers? fuel (Keyed.put members name value) (skipBlank more)
        | _ => none
      | _ => none
    | _ => none

end

/-- The value of a list of characters, with blanks around it. -/
def readChars? (cs : List Char) : Option Json :=
  match readValue? (cs.length + 1) (skipBlank cs) with
  | some (value, rest) => if (skipBlank rest).isEmpty then some value else none
  | none => none

/-- The value of a text. -/
def read? (s : String) : Option Json := readChars? s.toList

/-! ## What is read can be written -/

theorem spanDigits_lt {cs : List Char} {d : Nat} (h : d ∈ (spanDigits cs).1) : d < 10 := by
  induction cs with
  | nil => cases h
  | cons c rest ih =>
    rw [spanDigits] at h
    split at h
    · rcases List.mem_cons.1 h with rfl | h
      · omega
      · exact ih h
    · cases h

theorem isShort_of_readNumber? {negative : Bool} {cs rest : List Char} {v : Json}
    (h : readNumber? negative cs = some (v, rest)) : v.isShort = true := by
  have hwhole : ∀ d ∈ (match cs with
      | '0' :: rest => ([0], rest)
      | _ => spanDigits cs).1, d < 10 := by
    intro d hd
    split at hd
    · simp at hd
      omega
    · exact spanDigits_lt hd
  unfold readNumber? at h
  revert h hwhole
  generalize (match cs with
    | '0' :: rest => ([0], rest)
    | _ => spanDigits cs) = parts
  obtain ⟨whole, afterWhole⟩ := parts
  intro h hwhole
  cases whole with
  | nil => cases h
  | cons d ds =>
    dsimp only at h
    split at h
    · split at h
      · next hlength =>
        cases h
        refine Numeral.isShort_iff.2 ?_
        rw [natAbs_signed]
        exact Nat.le_trans (digitCount_value_le (List.cons_ne_nil d ds) hwhole) hlength
      · cases h
    · cases h
      rfl

theorem isShort_of_readScalar? {cs rest : List Char} {v : Json}
    (h : readScalar? cs = some (v, rest)) : v.isShort = true := by
  have hname {name : String} {named : Json} (hnamed : named.isShort = true)
      (h : readName? name named cs = some (v, rest)) : v.isShort = true := by
    obtain ⟨_, -, hvalue⟩ := Option.map_eq_some_iff.1 h
    cases hvalue
    exact hnamed
  unfold readScalar? at h
  split at h
  · exact hname rfl h
  · exact hname rfl h
  · exact hname rfl h
  · exact hname rfl h
  · exact hname rfl h
  · exact hname rfl h
  · exact isShort_of_readNumber? h
  · exact isShort_of_readNumber? h

theorem forall_isShort_put {members : List (String × Json)} (name : String) {value : Json}
    (h : ∀ m ∈ members, m.2.isShort = true) (hvalue : value.isShort = true) :
    ∀ m ∈ Keyed.put members name value, m.2.isShort = true := by
  induction members with
  | nil =>
    intro m hm
    cases List.mem_singleton.1 hm
    exact hvalue
  | cons first rest ih =>
    obtain ⟨hfirst, hrest⟩ := List.forall_mem_cons.1 h
    rw [Keyed.put]
    split
    · exact List.forall_mem_cons.2 ⟨hvalue, hrest⟩
    · exact List.forall_mem_cons.2 ⟨hfirst, ih hrest⟩

/-- What is read with some fuel can be written: a value, items, and members added to ones that can
be. -/
theorem isShort_of_fuel (fuel : Nat) :
    (∀ {cs rest v}, readValue? fuel cs = some (v, rest) → v.isShort = true) ∧
    (∀ {cs rest items}, readItems? fuel cs = some (items, rest) →
      ∀ v ∈ items, v.isShort = true) ∧
    ∀ {before cs rest members}, readMembers? fuel before cs = some (members, rest) →
      (∀ m ∈ before, m.2.isShort = true) → ∀ m ∈ members, m.2.isShort = true := by
  induction fuel with
  | zero => exact ⟨nofun, nofun, nofun⟩
  | succ fuel ih =>
    obtain ⟨ofValue, ofItems, ofMembers⟩ := ih
    refine ⟨?_, ?_, ?_⟩
    · intro cs rest v h
      unfold readValue? at h
      split at h
      · obtain ⟨_, -, hvalue⟩ := Option.map_eq_some_iff.1 h
        cases hvalue
        rfl
      · split at h
        · cases h
          rfl
        · obtain ⟨⟨items, _⟩, hitems, hvalue⟩ := Option.map_eq_some_iff.1 h
          cases hvalue
          rw [isShort_list, throughoutItems_eq_true_iff]
          exact ofItems hitems
      · split at h
        · cases h
          rfl
        · obtain ⟨⟨members, _⟩, hmembers, hvalue⟩ := Option.map_eq_some_iff.1 h
          cases hvalue
          rw [isShort_object, throughoutMembers_eq_true_iff]
          exact ofMembers hmembers nofun
      · exact isShort_of_readScalar? h
    · intro cs rest items h
      unfold readItems? at h
      obtain ⟨⟨item, afterItem⟩, hitem, h⟩ := Option.bind_eq_some_iff.1 h
      dsimp only at h
      split at h
      · cases h
        exact List.forall_mem_cons.2 ⟨ofValue hitem, nofun⟩
      · obtain ⟨⟨more, _⟩, hmore, h⟩ := Option.bind_eq_some_iff.1 h
        cases h
        exact List.forall_mem_cons.2 ⟨ofValue hitem, ofItems hmore⟩
      · cases h
    · intro before cs rest members h hbefore
      unfold readMembers? at h
      split at h
      · obtain ⟨⟨name, afterName⟩, -, h⟩ := Option.bind_eq_some_iff.1 h
        dsimp only at h
        split at h
        · obtain ⟨⟨value, afterValue⟩, hvalue, h⟩ := Option.bind_eq_some_iff.1 h
          have hput := forall_isShort_put name hbefore (ofValue hvalue)
          dsimp only at h
          split at h
          · cases h
            exact hput
          · exact ofMembers h hput
          · cases h
        · cases h
      · cases h

/-- What is read of a list of characters can be written. -/
theorem isShort_of_readChars? {cs : List Char} {v : Json} (h : readChars? cs = some v) :
    v.isShort = true := by
  unfold readChars? at h
  split at h
  · next value rest hvalue =>
    split at h
    · cases h
      exact (isShort_of_fuel _).1 hvalue
    · cases h
  · cases h

/-- The document of a list of characters. -/
def readDocument? (cs : List Char) : Option Document :=
  (readChars? cs).pmap Document.mk fun _ h => isShort_of_readChars? h

end InscriptionLedger.Json
