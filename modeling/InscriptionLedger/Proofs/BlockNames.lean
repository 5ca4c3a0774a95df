import InscriptionLedger.CommandLine.Run
import InscriptionLedger.Proofs.BlockReferences
import InscriptionLedger.Proofs.DecimalTexts
import InscriptionLedger.Proofs.IdentifierTexts

/-!
# Texts that name blocks

A text of sixty-four hexadecimal digits is to name a block by its hash, one of decimal digits by its
height, and any other text is to be refused as wrong usage. The digits are looked at first, and by
two classes that do not agree: what counts as a digit may be no decimal one, and what is made of
decimal digits may be too long for a numeral. So three kinds of texts are read otherwise. A hash of
decimal digits is taken for a height, and neither digits that are not decimal nor too many decimal
ones are refused as wrong usage.

## Main definitions

* `IsHash cs`, `IsHeight cs height`: characters that name a hash, and a height
* `nameOf raw`: the characters between the blanks around a text
* `Names raw outcome`: what a text is to name
* `HasFigure cs`: digits that are not all decimal
* `Strays cs`: the three kinds of texts that are read otherwise
* `FindsByHash viewer row raw`: a text that leads to the stored block whose hash it is

## Main results

* `Numeral.readChars?_eq_some_iff_of_isDigit`: the digits that are read as a number
* `names_readBlockRef_iff`: the texts that name what they are to name
* `readBlockRef_names`: what all texts name, and the hashes by which stored blocks are found
-/

namespace InscriptionLedger

open Text
open Decimal (AreDigits)

/-! ## Digits -/

/-- The blanks of texts, by their numbers. -/
def blankPoints : List Nat :=
  [0x09, 0x0A, 0x0B, 0x0C, 0x0D, 0x1C, 0x1D, 0x1E, 0x1F, 0x20, 0x85, 0xA0, 0x1680, 0x2000, 0x2001,
    0x2002, 0x2003, 0x2004, 0x2005, 0x2006, 0x2007, 0x2008, 0x2009, 0x200A, 0x2028, 0x2029, 0x202F,
    0x205F, 0x3000]

theorem toNat_mem_blankPoints {c : Char} (h : isBlank c = true) : c.toNat ∈ blankPoints := by
  simp only [isBlank, isNumberBlank, Bool.or_eq_true, Bool.and_eq_true, decide_eq_true_eq,
    beq_iff_eq] at h
  simp only [blankPoints, List.mem_cons, List.not_mem_nil, or_false]
  omega

/-- No digit of any script is a blank. -/
theorem isBlank_of_isDigit {c : Char} (h : isDigit c = true) : isBlank c = false := by
  have all : ∀ n ∈ blankPoints, isDigit (Char.ofNat n) = false := by decide +kernel
  by_contra hblank
  have hc := all _ (toNat_mem_blankPoints (Bool.eq_true_of_not_eq_false hblank))
  rw [Char.ofNat_toNat, h] at hc
  cases hc

theorem isDigit_of_decimalValue? {c : Char} (h : (decimalValue? c).isSome) : isDigit c = true :=
  Bool.or_eq_true_iff.2 (.inl h)

/-- A hexadecimal digit that counts as a digit is a decimal one. -/
theorem decimalValue?_of_digitValue? {c : Char} (hhex : (Hex.digitValue? c).isSome)
    (hdigit : isDigit c = true) : (decimalValue? c).isSome := by
  have all : ∀ n : Fin 0x67, (Hex.digitValue? (Char.ofNat n)).isSome →
      isDigit (Char.ofNat n) = true → (decimalValue? (Char.ofNat n)).isSome := by
    decide +kernel
  have hlt : c.toNat < 0x67 := by
    unfold Hex.digitValue? at hhex
    dsimp only at hhex
    split_ifs at hhex
    · omega
    · omega
    · omega
    · cases hhex
  have hc := all ⟨c.toNat, hlt⟩
  rw [Char.ofNat_toNat] at hc
  exact hc hhex hdigit

theorem ne_of_isDigit {c : Char} (h : isDigit c = true) : c ≠ '_' ∧ c ≠ '+' ∧ c ≠ '-' := by
  refine ⟨?_, ?_, ?_⟩
  all_goals
    rintro rfl
    revert h
    decide +kernel

namespace Numeral

/-- Without underscores, what is read as digits are decimal digits. -/
theorem digits?_eq_some_iff {cs : List Char} (hne : cs ≠ []) (h : '_' ∉ cs) {ds : List Nat} :
    digits? cs = some ds ↔ AreDigits cs ds := by
  fun_induction digits? cs generalizing ds with
  | case1 => exact absurd rfl hne
  | case2 c => simp [AreDigits, List.forall₂_cons_left_iff, eq_comm]
  | case3 c rest => simp at h
  | case4 c rest hnil _ ih =>
    have hrest := @ih (fun hnone => hnil (by rw [hnone]))
      fun hmem => h (List.mem_cons_of_mem c hmem)
    simp only [Option.bind_eq_bind, Option.bind_eq_some_iff, Option.pure_def, Option.some.injEq,
      hrest, AreDigits, List.forall₂_cons_left_iff]
    constructor
    · rintro ⟨d, hd, more, hmore, rfl⟩
      exact ⟨d, more, hd, hmore, rfl⟩
    · rintro ⟨d, more, hd, hmore, rfl⟩
      exact ⟨d, hd, more, hmore, rfl⟩

/-- Digits are read as a number if they are decimal and not too many. -/
theorem readChars?_eq_some_iff_of_isDigit {cs : List Char} (hne : cs ≠ [])
    (h : ∀ c ∈ cs, isDigit c = true) {n : Int} :
    readChars? cs = some n ↔
      cs.length ≤ maxDigits ∧ ∃ ds, AreDigits cs ds ∧ n = (value ds : Int) := by
  -- No digit is a blank, a sign or an underscore, so all of the text is read as digits.
  have hblank (c : Char) (hc : c ∈ cs) : isNumberBlank c = false :=
    (Bool.or_eq_false_iff.1 (isBlank_of_isDigit (h c hc))).1
  have htrim : trimBy isNumberBlank cs = cs :=
    trimBy_eq_self ⟨fun c hc => hblank c (List.mem_of_mem_head? hc),
      fun c hc => hblank c (List.mem_of_mem_getLast? hc)⟩
  have hsign : splitSign cs = (false, cs) :=
    Decimal.IsSign.absent.splitSign_append fun c hc =>
      (ne_of_isDigit (h c (List.mem_of_mem_head? hc))).2
  have hdigits {ds : List Nat} : digits? cs = some ds ↔ AreDigits cs ds :=
    digits?_eq_some_iff hne fun hmem => (ne_of_isDigit (h _ hmem)).1 rfl
  rw [readChars?, htrim, hsign]
  dsimp only
  cases hread : digits? cs with
  | none =>
    constructor
    · intro hnone
      cases hnone
    · rintro ⟨-, ds, hds, -⟩
      rw [hdigits.2 hds] at hread
      cases hread
  | some ds =>
    have hds := hdigits.1 hread
    rw [hds.length_eq]
    have hvalue : (∃ ds', AreDigits cs ds' ∧ n = (value ds' : Int)) ↔
        signed false (value ds) = n := by
      constructor
      · rintro ⟨ds', hds', rfl⟩
        rw [← hdigits, hread, Option.some.injEq] at hds'
        rw [hds']
        rfl
      · rintro rfl
        exact ⟨ds, hds, rfl⟩
    rw [hvalue]
    dsimp only
    by_cases hshort : ds.length ≤ maxDigits
    · rw [if_pos hshort, Option.some.injEq, and_iff_right hshort]
    · rw [if_neg hshort]
      constructor
      · intro hnone
        cases hnone
      · exact fun hread' => absurd hread'.1 hshort

theorem exists_areDigits_iff {cs : List Char} :
    (∃ ds, AreDigits cs ds) ↔ ∀ c ∈ cs, (decimalValue? c).isSome := by
  constructor
  · rintro ⟨ds, hds⟩
    induction hds with
    | nil => nofun
    | cons hd _ ih => exact List.forall_mem_cons.2 ⟨Option.isSome_of_eq_some hd, ih⟩
  · exact fun h => exists_forall₂ fun c hc => Option.isSome_iff_exists.1 (h c hc)

end Numeral

/-! ## The parts of a name -/

namespace CommandLine

/-- Sixty-four hexadecimal digits of either case. -/
structure IsHash (cs : List Char) : Prop where
  length_eq : cs.length = 64
  digits : ∀ c ∈ cs, (Hex.digitValue? c).isSome

/-- Decimal digits of any script, at least one, that denote a height. -/
structure IsHeight (cs : List Char) (height : Int) : Prop where
  ne_nil : cs ≠ []
  digits : ∃ ds, AreDigits cs ds ∧ height = (Numeral.value ds : Int)

/-- The characters between the blanks around a text. -/
def nameOf (raw : String) : List Char := trimBy isBlank raw.toList

/-- What a text is to name: sixty-four hexadecimal digits a hash, in lower case; otherwise decimal
digits a height; and all else is wrong usage. -/
structure Names (raw : String) (outcome : Outcome BlockRef) : Prop where
  hash : IsHash (nameOf raw) →
    outcome = .ok (.hash (String.ofList ((nameOf raw).map Char.toLower)))
  height : ∀ height, ¬IsHash (nameOf raw) → IsHeight (nameOf raw) height →
    outcome = .ok (.height height)
  usage : ¬IsHash (nameOf raw) → (∀ height, ¬IsHeight (nameOf raw) height) →
    outcome = .error (.usage (.blockRef raw))

/-- Digits that are not all decimal. -/
structure HasFigure (cs : List Char) : Prop where
  digits : ∀ c ∈ cs, isDigit c = true
  figure : ∃ c ∈ cs, decimalValue? c = none

/-- The names that are read otherwise: a hash of decimal digits, a height of too many digits, and
digits that are not decimal. -/
inductive Strays (cs : List Char) : Prop
  | decimal (height : Int) : IsHash cs → IsHeight cs height → Strays cs
  | long (height : Int) : IsHeight cs height → Numeral.maxDigits < cs.length → Strays cs
  | figure : HasFigure cs → Strays cs

variable {cs : List Char} {height : Int}

theorem IsHash.length_le (h : IsHash cs) : cs.length ≤ Numeral.maxDigits := by
  rw [h.length_eq]
  decide

/-- Digits that are all decimal denote a height. -/
theorem exists_isHeight_iff (hne : cs ≠ []) :
    (∃ height, IsHeight cs height) ↔ ∀ c ∈ cs, (decimalValue? c).isSome := by
  constructor
  · rintro ⟨height, -, ds, hds, -⟩
    exact Numeral.exists_areDigits_iff.1 ⟨ds, hds⟩
  · intro h
    obtain ⟨ds, hds⟩ := Numeral.exists_areDigits_iff.2 h
    exact ⟨_, hne, ds, hds, rfl⟩

theorem IsHeight.isDigit (h : IsHeight cs height) : ∀ c ∈ cs, isDigit c = true :=
  fun c hc => isDigit_of_decimalValue? ((exists_isHeight_iff h.ne_nil).1 ⟨height, h⟩ c hc)

/-! ## Reading names -/

variable {raw : String}

/-- Digits are read as a number. -/
theorem readBlockRef_of_digits (hne : nameOf raw ≠ [])
    (h : ∀ c ∈ nameOf raw, isDigit c = true) :
    readBlockRef raw = match Numeral.readChars? (nameOf raw) with
      | some height => .ok (.height height)
      | none => .error .unreadable := by
  unfold nameOf at hne h ⊢
  rw [readBlockRef]
  refine (if_pos ⟨hne, List.all_eq_true.2 h⟩).trans ?_
  cases Numeral.readChars? (trimBy isBlank raw.toList) with
  | none => rfl
  | some height => rfl

/-- Decimal digits are read as a height, unless they are too many. -/
theorem readBlockRef_of_isHeight (h : IsHeight (nameOf raw) height) :
    readBlockRef raw = if (nameOf raw).length ≤ Numeral.maxDigits then .ok (.height height)
      else .error .unreadable := by
  have hread {n : Int} := Numeral.readChars?_eq_some_iff_of_isDigit (n := n) h.ne_nil h.isDigit
  rw [readBlockRef_of_digits h.ne_nil h.isDigit]
  split_ifs with hshort
  · rw [hread.2 ⟨hshort, h.digits⟩]
  · cases hnone : Numeral.readChars? (nameOf raw) with
    | none => rfl
    | some n => exact absurd (hread.1 hnone).1 hshort

/-- Digits that are not all decimal cannot be read. -/
theorem readBlockRef_of_hasFigure (h : HasFigure (nameOf raw)) :
    readBlockRef raw = .error .unreadable := by
  obtain ⟨hdigits, c, hc, hnone⟩ := h
  have hne : nameOf raw ≠ [] := List.ne_nil_of_mem hc
  rw [readBlockRef_of_digits hne hdigits]
  cases hread : Numeral.readChars? (nameOf raw) with
  | none => rfl
  | some n =>
    obtain ⟨-, ds, hds, -⟩ := (Numeral.readChars?_eq_some_iff_of_isDigit hne hdigits).1 hread
    have := Numeral.exists_areDigits_iff.1 ⟨ds, hds⟩ c hc
    rw [hnone] at this
    cases this

/-- What holds something else than digits is a hash, or wrong usage. -/
theorem readBlockRef_of_other (h : ¬(nameOf raw ≠ [] ∧ ∀ c ∈ nameOf raw, isDigit c = true)) :
    (IsHash (nameOf raw) →
      readBlockRef raw = .ok (.hash (String.ofList ((nameOf raw).map Char.toLower)))) ∧
    (¬IsHash (nameOf raw) → readBlockRef raw = .error (.usage (.blockRef raw))) := by
  unfold nameOf at h ⊢
  have hdigits : ¬(trimBy isBlank raw.toList ≠ [] ∧
      (trimBy isBlank raw.toList).all isDigit = true) := by
    rwa [List.all_eq_true]
  rw [readBlockRef, if_neg hdigits]
  constructor
  · intro hhash
    exact if_pos ⟨hhash.length_eq, List.all_eq_true.2 hhash.digits⟩
  · intro hhash
    exact if_neg fun hcs => hhash ⟨hcs.1, List.all_eq_true.1 hcs.2⟩

/-- A text is read by what stands between its blanks: decimal digits, digits that are not all
decimal, or something else than digits. -/
theorem readBlockRef_cases (raw : String) :
    (∃ height, IsHeight (nameOf raw) height ∧ readBlockRef raw =
      if (nameOf raw).length ≤ Numeral.maxDigits then .ok (.height height)
      else .error .unreadable) ∨
    (HasFigure (nameOf raw) ∧ readBlockRef raw = .error .unreadable) ∨
    ((∀ height, ¬IsHeight (nameOf raw) height) ∧
      (IsHash (nameOf raw) ∧
          readBlockRef raw = .ok (.hash (String.ofList ((nameOf raw).map Char.toLower))) ∨
        ¬IsHash (nameOf raw) ∧ readBlockRef raw = .error (.usage (.blockRef raw)))) := by
  by_cases h : nameOf raw ≠ [] ∧ ∀ c ∈ nameOf raw, isDigit c = true
  · by_cases hdecimal : ∀ c ∈ nameOf raw, (decimalValue? c).isSome
    · obtain ⟨height, hheight⟩ := (exists_isHeight_iff h.1).2 hdecimal
      exact .inl ⟨height, hheight, readBlockRef_of_isHeight hheight⟩
    · simp only [not_forall] at hdecimal
      obtain ⟨c, hc, hnone⟩ := hdecimal
      have hfigure : HasFigure (nameOf raw) :=
        ⟨h.2, c, hc, Option.not_isSome_iff_eq_none.1 hnone⟩
      exact .inr (.inl ⟨hfigure, readBlockRef_of_hasFigure hfigure⟩)
  · refine .inr (.inr ⟨fun height hheight => h ⟨hheight.ne_nil, hheight.isDigit⟩, ?_⟩)
    obtain ⟨hhash, husage⟩ := readBlockRef_of_other h
    by_cases hcs : IsHash (nameOf raw)
    · exact .inl ⟨hcs, hhash hcs⟩
    · exact .inr ⟨hcs, husage hcs⟩

/-! ## What texts name -/

theorem IsHeight.unique {height' : Int} (h : IsHeight cs height) (h' : IsHeight cs height') :
    height = height' := by
  obtain ⟨-, ds, hds, rfl⟩ := h
  obtain ⟨-, ds', hds', rfl⟩ := h'
  have hunique : Relator.RightUnique fun c d => decimalValue? c = some d :=
    fun c d d' hd hd' => Option.some.inj (hd.symm.trans hd')
  rw [hunique.forall₂ hds hds']

/-- Hexadecimal digits that count as digits are decimal. -/
theorem HasFigure.not_isHash (h : HasFigure cs) : ¬IsHash cs := by
  obtain ⟨hdigits, c, hc, hnone⟩ := h
  intro hhash
  have := decimalValue?_of_digitValue? (hhash.digits c hc) (hdigits c hc)
  rw [hnone] at this
  cases this

theorem HasFigure.not_isHeight (h : HasFigure cs) : ¬IsHeight cs height := by
  obtain ⟨-, c, hc, hnone⟩ := h
  intro hheight
  have := (exists_isHeight_iff hheight.ne_nil).1 ⟨height, hheight⟩ c hc
  rw [hnone] at this
  cases this

theorem Strays.not_names (h : Strays (nameOf raw)) : ¬Names raw (readBlockRef raw) := by
  intro hnames
  -- What is read is a height in the first case, and nothing in the others.
  cases h with
  | decimal height hhash hheight =>
    have hread := hnames.hash hhash
    rw [readBlockRef_of_isHeight hheight, if_pos hhash.length_le] at hread
    cases hread
  | long height hheight hlong =>
    have hhash : ¬IsHash (nameOf raw) := fun hhash => Nat.not_lt.2 hhash.length_le hlong
    have hread := hnames.height height hhash hheight
    rw [readBlockRef_of_isHeight hheight, if_neg (Nat.not_le.2 hlong)] at hread
    cases hread
  | figure hfigure =>
    have hread := hnames.usage hfigure.not_isHash fun _ => hfigure.not_isHeight
    rw [readBlockRef_of_hasFigure hfigure] at hread
    cases hread

/-- The texts that name what they are to name are all but those of the three kinds. -/
theorem names_readBlockRef_iff : Names raw (readBlockRef raw) ↔ ¬Strays (nameOf raw) := by
  refine ⟨fun hnames hstrays => hstrays.not_names hnames, fun h => ?_⟩
  rcases readBlockRef_cases raw with ⟨height, hheight, hread⟩ | ⟨hfigure, -⟩ |
    ⟨hheight, ⟨hhash, hread⟩ | ⟨hhash, hread⟩⟩
  · have hhash : ¬IsHash (nameOf raw) := fun hhash => h (.decimal height hhash hheight)
    have hshort : (nameOf raw).length ≤ Numeral.maxDigits :=
      Nat.not_lt.1 fun hlong => h (.long height hheight hlong)
    rw [if_pos hshort] at hread
    refine ⟨fun hhash' => absurd hhash' hhash, fun height' _ hheight' => ?_, fun _ hnone => ?_⟩
    · rw [hread, hheight.unique hheight']
    · exact absurd hheight (hnone height)
  · exact absurd (.figure hfigure) h
  · exact ⟨fun _ => hread, fun height hnone => absurd hhash hnone, fun hnone => absurd hhash hnone⟩
  · exact ⟨fun hhash' => absurd hhash' hhash,
      fun height _ hheight' => absurd hheight' (hheight height), fun _ _ => hread⟩

/-- Exactly decimal digits that are not too many are read as a height, also where they are a
hash. -/
theorem readBlockRef_eq_height_iff :
    readBlockRef raw = .ok (.height height) ↔
      IsHeight (nameOf raw) height ∧ (nameOf raw).length ≤ Numeral.maxDigits := by
  constructor
  · intro h
    rcases readBlockRef_cases raw with ⟨height', hheight, hread⟩ | ⟨-, hread⟩ |
      ⟨-, ⟨-, hread⟩ | ⟨-, hread⟩⟩ <;> rw [hread] at h
    · split_ifs at h with hshort
      cases h
      exact ⟨hheight, hshort⟩
    all_goals cases h
  · rintro ⟨hheight, hshort⟩
    rw [readBlockRef_of_isHeight hheight, if_pos hshort]

/-- Exactly too many decimal digits and digits that are not all decimal cannot be read. -/
theorem readBlockRef_eq_unreadable_iff :
    readBlockRef raw = .error .unreadable ↔
      (∃ height, IsHeight (nameOf raw) height ∧ Numeral.maxDigits < (nameOf raw).length) ∨
        HasFigure (nameOf raw) := by
  constructor
  · intro h
    rcases readBlockRef_cases raw with ⟨height, hheight, hread⟩ | ⟨hfigure, -⟩ |
      ⟨-, ⟨-, hread⟩ | ⟨-, hread⟩⟩
    · rw [hread] at h
      split_ifs at h with hshort
      exact .inl ⟨height, hheight, Nat.not_le.1 hshort⟩
    · exact .inr hfigure
    all_goals
      rw [hread] at h
      cases h
  · rintro (⟨height, hheight, hlong⟩ | hfigure)
    · rw [readBlockRef_of_isHeight hheight, if_neg (Nat.not_le.2 hlong)]
    · exact readBlockRef_of_hasFigure hfigure

/-- Sixty-four hexadecimal digits are read as a hash exactly if one of them is a letter. -/
theorem readBlockRef_eq_hash_iff (h : IsHash (nameOf raw)) :
    readBlockRef raw = .ok (.hash (String.ofList ((nameOf raw).map Char.toLower))) ↔
      ∃ c ∈ nameOf raw, decimalValue? c = none := by
  constructor
  · intro hread
    by_contra hall
    have hne : nameOf raw ≠ [] := List.ne_nil_of_length_pos (by rw [h.length_eq]; decide)
    have hdecimal : ∀ c ∈ nameOf raw, (decimalValue? c).isSome := fun c hc =>
      Option.isSome_iff_ne_none.2 fun hnone => hall ⟨c, hc, hnone⟩
    obtain ⟨height, hheight⟩ := (exists_isHeight_iff hne).2 hdecimal
    rw [readBlockRef_eq_height_iff.2 ⟨hheight, h.length_le⟩] at hread
    cases hread
  · rintro ⟨c, hc, hnone⟩
    refine (readBlockRef_of_other fun hdigits => ?_).1 h
    have := decimalValue?_of_digitValue? (h.digits c hc) (hdigits.2 c hc)
    rw [hnone] at this
    cases this

/-! ## Hashes of stored blocks -/

/-- A letter in lower case is no digit either. -/
theorem decimalValue?_toLower (c : Char) : decimalValue? c.toLower = decimalValue? c := by
  have all : ∀ n : Fin 26, decimalValue? (Char.ofNat (0x41 + n)).toLower =
      decimalValue? (Char.ofNat (0x41 + n)) := by
    decide +kernel
  cases h : c.isUpper with
  | true =>
    obtain ⟨n, rfl⟩ := exists_ofNat_of_isUpper h
    exact all n
  | false => rw [Char.toLower_eq_of_not_isUpper (by simp [h])]

/-- A hash is one in any case. -/
theorem isHash_map_toLower_iff : IsHash (cs.map Char.toLower) ↔ IsHash cs := by
  constructor
  · rintro ⟨hlength, hdigits⟩
    rw [List.length_map] at hlength
    rw [List.forall_mem_map] at hdigits
    exact ⟨hlength, fun c hc => (Hex.toLower_spec c).1 ▸ hdigits c hc⟩
  · rintro ⟨hlength, hdigits⟩
    refine ⟨by rw [List.length_map, hlength], List.forall_mem_map.2 fun c hc => ?_⟩
    rw [(Hex.toLower_spec c).1]
    exact hdigits c hc

/-- If a text is the hash of a stored block, in any case and with any blanks around it, it names the
hash, and leads to the block, exactly if a letter is among its digits. -/
def FindsByHash (viewer : Viewer) (row : BlockRow) (raw : String) : Prop :=
  (nameOf raw).map Char.toLower = row.hash.toList → IsHash row.hash.toList →
    ((∃ b, b.blockRow = row ∧ readBlockRef raw = .ok (.hash row.hash) ∧
      viewer.block (.hash row.hash) = .ok b) ↔ ∃ c ∈ row.hash.toList, decimalValue? c = none)

theorem findsByHash {viewer : Viewer} (hfinds : viewer.index.FindsBlocks) {row : BlockRow}
    (hrow : row ∈ viewer.index.tables.blocks) (raw : String) : FindsByHash viewer row raw := by
  intro hraw hhash
  have hname : IsHash (nameOf raw) := by
    rw [← isHash_map_toLower_iff, hraw]
    exact hhash
  have hletter : (∃ c ∈ row.hash.toList, decimalValue? c = none) ↔
      ∃ c ∈ nameOf raw, decimalValue? c = none := by
    simp only [← hraw, List.mem_map, exists_exists_and_eq_and, decimalValue?_toLower]
  rw [hletter, ← readBlockRef_eq_hash_iff hname, hraw, String.ofList_toList]
  constructor
  · rintro ⟨b, -, hread, -⟩
    exact hread
  · intro hread
    obtain ⟨b, rfl, hb⟩ := hfinds.stored row hrow
    exact ⟨b, rfl, hread, Viewer.found_eq_ok_iff.2 hb⟩

/-- After a run, the blocks that are found by their hashes are those whose hashes hold a letter. -/
theorem findsByHash_run {ws : List Write} {viewer : Viewer}
    (hopen : viewer.index.isClosed = false)
    (htables : viewer.index.tables = (({} : Index).run ws).tables)
    (hreadable : ∀ w ∈ ws, ∀ u ∈ w.transactions, u.IsReadable) {row : BlockRow}
    (hrow : row ∈ viewer.index.tables.blocks) (raw : String) : FindsByHash viewer row raw := by
  have hsound : viewer.index.tables.IsSound := htables ▸ Index.isSound_run ws
  have hrows : ∀ r ∈ viewer.index.tables.transactions, ∃ u, r.Denotes u :=
    htables ▸ Index.exists_denotes_run hreadable
  exact findsByHash (Index.findsBlocks hopen hsound hrows) hrow raw

/-- What a text names. It names what it is to name unless it is of one of three kinds; a hash of
decimal digits is read as a height, and what else is of these kinds cannot be read. After a run of
readable writes, the blocks that are found by their hashes in an open index are those whose hashes
hold a letter. -/
theorem readBlockRef_names (raw : String) :
    (Names raw (readBlockRef raw) ↔ ¬Strays (nameOf raw)) ∧
    (∀ height, readBlockRef raw = .ok (.height height) ↔
      IsHeight (nameOf raw) height ∧ (nameOf raw).length ≤ Numeral.maxDigits) ∧
    (readBlockRef raw = .error .unreadable ↔
      (∃ height, IsHeight (nameOf raw) height ∧ Numeral.maxDigits < (nameOf raw).length) ∨
        HasFigure (nameOf raw)) ∧
    ∀ (ws : List Write) (viewer : Viewer), viewer.index.isClosed = false →
      viewer.index.tables = (({} : Index).run ws).tables →
      (∀ w ∈ ws, ∀ u ∈ w.transactions, u.IsReadable) →
        ∀ row ∈ viewer.index.tables.blocks, FindsByHash viewer row raw :=
  ⟨names_readBlockRef_iff, fun _ => readBlockRef_eq_height_iff, readBlockRef_eq_unreadable_iff,
    fun _ _ hopen htables hreadable _ hrow =>
      findsByHash_run hopen htables hreadable hrow raw⟩

/-- A block whose hash is named in capitals and with wide blanks around it. -/
theorem readBlockRef_names_capitals :
    let hash := String.ofList (List.replicate 63 '1' ++ ['f'])
    let viewer : Viewer :=
      ⟨({} : Index).run [.ofBlock ⟨hash, 5, [.bare "a1"]⟩], .mainnet, .vout, none⟩
    let raw := String.ofList ('\u2003' :: List.replicate 63 '1' ++ ['F', '\u2003'])
    ∃ b : Block, b.blockRow = ⟨5, hash⟩ ∧ readBlockRef raw = .ok (.hash hash) ∧
      viewer.block (.hash hash) = .ok b := by
  intro hash viewer raw
  have hopen : viewer.index.isClosed = false := Index.isClosed_run {} _
  have hreadable : ∀ w ∈ [Write.ofBlock ⟨hash, 5, [.bare "a1"]⟩], ∀ u ∈ w.transactions,
      u.IsReadable := by
    simp [Write.ofBlock, Write.transactions, Transaction.isReadable_bare]
  obtain ⟨-, -, -, hfinds⟩ := readBlockRef_names raw
  have hrow : (⟨5, hash⟩ : BlockRow) ∈ viewer.index.tables.blocks := by
    have hblocks : viewer.index.tables.blocks = [⟨5, hash⟩] := by cbv
    rw [hblocks]
    exact List.mem_singleton_self _
  have hchars : hash.toList = List.replicate 63 '1' ++ ['f'] := String.toList_ofList
  have hraw : (nameOf raw).map Char.toLower = hash.toList := by
    rw [hchars, nameOf, String.toList_ofList]
    decide +kernel
  have hhash : IsHash hash.toList := by
    rw [hchars]
    refine ⟨rfl, List.forall_mem_append.2 ⟨fun c hc => ?_, List.forall_mem_singleton.2 rfl⟩⟩
    rw [List.eq_of_mem_replicate hc]
    rfl
  have hletter : ∃ c ∈ hash.toList, decimalValue? c = none := by
    rw [hchars]
    refine ⟨'f', ?_, by decide +kernel⟩
    exact List.mem_append_right _ (List.mem_singleton_self _)
  exact (hfinds _ viewer hopen rfl hreadable _ hrow hraw hhash).2 hletter

/-- Two texts that do not name what they are to name: a digit that is not decimal, and a hash of
decimal digits. -/
theorem not_names_figure_and_ones :
    let ones := String.ofList (List.replicate 64 '1')
    ¬Names "²" (readBlockRef "²") ∧ ¬Names ones (readBlockRef ones) := by
  intro ones
  have hfigure : HasFigure (nameOf "²") := by
    have hname : nameOf "²" = ['²'] := by cbv
    have hdigit : isDigit '²' = true := by decide +kernel
    have hnone : decimalValue? '²' = none := by decide +kernel
    rw [hname]
    exact ⟨List.forall_mem_singleton.2 hdigit, '²', List.mem_singleton_self _, hnone⟩
  have hones : nameOf ones = (List.replicate 64 1).map Numeral.digitChar := by
    rw [nameOf, String.toList_ofList]
    decide +kernel
  have hdigits := Decimal.areDigits_map_digitChar (List.replicate 64 1) (by decide)
  have hheight : IsHeight (nameOf ones) (Numeral.value (List.replicate 64 1)) := by
    rw [hones]
    exact ⟨by decide, _, hdigits, rfl⟩
  have hhash : IsHash (nameOf ones) := by
    rw [hones, List.map_replicate]
    refine ⟨rfl, fun c hc => ?_⟩
    rw [List.eq_of_mem_replicate hc]
    rfl
  exact ⟨Strays.not_names (.figure hfigure), Strays.not_names (.decimal _ hhash hheight)⟩

end CommandLine

end InscriptionLedger
