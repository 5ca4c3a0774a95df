import InscriptionLedger.Proofs.Remainders

/-!
# Texts of witness programs read by the rules of their format

A text of a witness program is read as its format lays down: what stands before the last separator
is the human-readable part, what stands behind it are symbols, the first of which is the version and
the last six of which are a checksum. The checksum has to verify with the constant of the version,
and the symbols in between, taken as one stream of bits, are cut into bytes; less than a symbol may
be left over, and no bit of it may be set. This reading tells all that a text was written from.

## Main definitions

* `Bech32.Parts`, `Bech32.Parts.ofText?`: the human-readable part and the symbols of a text
* `Bech32.Parts.version?`, `Bech32.Parts.data`, `Bech32.Parts.program`: what the symbols stand for
* `Bech32.Parts.Tells`: parts by which the rules recover a witness program

## Main results

* `Bech32.Parts.ofText?_encode`: the text of a witness program falls into its parts
* `Bech32.verifies_symbolValues`: its symbols verify with the constant of its version
* `Bech32.exists_tells`: its parts tell what it was written from
-/

namespace InscriptionLedger.Bech32

/-! ## Taking a text apart -/

/-- The human-readable part of a text and the values of its symbols. -/
structure Parts where
  hrp : String
  symbols : List Nat

namespace Parts

/-- The parts of a text: before the last separator, and the symbols behind it. -/
def ofText? (text : String) : Option Parts := do
  let (front, back) ← Text.splitLast? '1' text.toList
  return ⟨String.ofList front, ← back.mapM alphabet.idxOf?⟩

/-- The version, which is the first symbol. -/
def version? (parts : Parts) : Option Nat := parts.symbols.head?

/-- The symbols between the version and the six of the checksum. -/
def data (parts : Parts) : List Nat := parts.symbols.tail.take (parts.symbols.tail.length - 6)

/-- The bytes of the data, and the bits left over. -/
def program (parts : Parts) : Bytes × List Bool :=
  let (bytes, rest) := Regroup.cut 8 (Regroup.stream 5 parts.data)
  (bytes.map UInt8.ofNat, rest)

/-- Parts by which the rules of the format recover a human-readable part, a version and a program:
the symbols verify with the constant of the version and with no other one. -/
structure Tells (parts : Parts) (hrp : String) (version : Nat) (program : Bytes) : Prop where
  front : parts.hrp = hrp
  head : parts.version? = some version
  bytes : parts.program.1 = program
  length_fill : parts.program.2.length < 5
  fill : ∀ bit ∈ parts.program.2, bit = false
  first : Verifies parts.hrp firstConstant parts.symbols ↔ version = 0
  modified : Verifies parts.hrp modifiedConstant parts.symbols ↔ version ≠ 0

end Parts

/-! ## The parts of a text that was written -/

theorem idxOf?_symbol {v : Nat} (h : v < 32) : alphabet.idxOf? (symbol v) = some v := by
  have all : ∀ v : Fin 32, alphabet.idxOf? (symbol (v.val : Int)) = some v.val := by decide
  exact all ⟨v, h⟩

theorem mapM_idxOf?_symbols {values : List Nat} (h : ∀ v ∈ values, v < 32) :
    (values.map fun v : Nat => symbol v).mapM alphabet.idxOf? = some values := by
  induction values with
  | nil => rfl
  | cons v rest ih =>
    rw [List.forall_mem_cons] at h
    rw [List.map_cons, List.mapM_cons, idxOf?_symbol h.1, ih h.2]
    rfl

/-- The text of a witness program falls into its human-readable part and its symbols. -/
theorem Parts.ofText?_encode (hrp : String) {version : Nat} (hversion : version < 32)
    (program : Bytes) :
    Parts.ofText? (encode hrp version program) =
      some ⟨hrp, symbolValues hrp version program⟩ := by
  rw [ofText?, splitLast?_encode hrp hversion]
  simp only [Option.bind_eq_bind, Option.bind_some,
    mapM_idxOf?_symbols fun _ => symbolValues_lt hversion, String.ofList_toList]
  rfl

/-! ## What the symbols stand for -/

/-- The groups of five bits that a program is cut into. -/
def groups (program : Bytes) : List Nat :=
  Regroup.regroup 8 5 ((program.map UInt8.toNat).map Int.ofNat)

theorem groups_lt {program : Bytes} {v : Nat} (h : v ∈ groups program) : v < 32 :=
  Regroup.regroupFrom_lt h

theorem programSymbols_eq (version : Nat) (program : Bytes) :
    programSymbols version program = (version :: groups program).map Int.ofNat := by
  have hprogram : (program.map fun b => (b.toNat : Int)) =
      (program.map UInt8.toNat).map Int.ofNat := List.map_map.symm
  rw [programSymbols, hprogram, List.map_cons]
  rfl

/-- The constant of a version. -/
def constantOfVersion (version : Nat) : Nat :=
  if version = 0 then firstConstant else modifiedConstant

theorem symbolValues_eq (hrp : String) (version : Nat) (program : Bytes) :
    symbolValues hrp version program = (version :: groups program) ++
      checksum hrp ((version :: groups program).map Int.ofNat) (constantOfVersion version) := by
  have hconstant : (if 1 ≤ (version : Int) then modifiedConstant else firstConstant) =
      constantOfVersion version := by
    rw [constantOfVersion]
    rcases Nat.eq_zero_or_pos version with rfl | hpos
    · rfl
    · rw [if_pos (by omega), if_neg (by omega)]
  rw [symbolValues, programSymbols_eq, hconstant]
  rfl

/-- The symbols of a text verify with the constant of its version. -/
theorem verifies_symbolValues (hrp : String) {version : Nat} (hversion : version < 32)
    (program : Bytes) :
    Verifies hrp (constantOfVersion version) (symbolValues hrp version program) := by
  have hconstant : constantOfVersion version < 2 ^ 30 := by
    rw [constantOfVersion]
    split <;> decide
  rw [symbolValues_eq]
  exact verifies_checksum (List.forall_mem_cons.2 ⟨hversion, fun _ => groups_lt⟩) hconstant

/-- Symbols that verify with one of the two constants do so with that one only. -/
theorem Verifies.iff_version {hrp : String} {version : Nat} {symbols : List Nat}
    (h : Verifies hrp (constantOfVersion version) symbols) :
    (Verifies hrp firstConstant symbols ↔ version = 0) ∧
      (Verifies hrp modifiedConstant symbols ↔ version ≠ 0) := by
  have hapart : firstConstant ≠ modifiedConstant := by decide
  rcases eq_or_ne version 0 with rfl | hne
  · rw [constantOfVersion, if_pos rfl] at h
    exact ⟨iff_of_true h rfl, iff_of_false (fun h' => hapart (h.unique h')) (· rfl)⟩
  · rw [constantOfVersion, if_neg hne] at h
    exact ⟨iff_of_false (fun h' => hapart (h'.unique h)) hne, iff_of_true h hne⟩

theorem Parts.data_symbolValues (hrp : String) (version : Nat) (program : Bytes) :
    Parts.data ⟨hrp, symbolValues hrp version program⟩ = groups program := by
  rw [data, symbolValues_eq, List.cons_append, List.tail_cons, List.length_append, length_checksum,
    Nat.add_sub_cancel, List.take_left]

/-- The groups of a program are cut into its bytes, and zeros that are less than a group. -/
theorem cut_groups (program : Bytes) :
    ∃ fill < 5, Regroup.cut 8 (Regroup.stream 5 (groups program)) =
      (program.map UInt8.toNat, List.replicate fill false) := by
  have hbytes : ∀ v ∈ program.map UInt8.toNat, v < 2 ^ 8 :=
    List.forall_mem_map.2 fun b _ => b.toNat_lt
  obtain ⟨fill, hfill, hstream⟩ := Regroup.stream_regroup (by decide : 0 < 5) hbytes
  refine ⟨fill, hfill, ?_⟩
  rw [groups, hstream]
  apply Regroup.cut_stream_append hbytes
  rw [List.length_replicate]
  omega

/-- The text of a witness program is written for every version that has a symbol, falls into parts
by the rules of the format, and these tell what it was written from. -/
theorem exists_tells (hrp : String) {version : Nat} (hversion : version < 32) (program : Bytes) :
    ∃ text parts, encode? hrp version program = .ok text ∧ Parts.ofText? text = some parts ∧
      parts.Tells hrp version program := by
  refine ⟨encode hrp version program, ⟨hrp, symbolValues hrp version program⟩, ?_,
    Parts.ofText?_encode hrp hversion program, ?_⟩
  · rw [encode?, if_pos (by omega)]
  · obtain ⟨fill, hfill, hcut⟩ := cut_groups program
    rw [← Parts.data_symbolValues hrp version program] at hcut
    obtain ⟨hfirst, hmodified⟩ := (verifies_symbolValues hrp hversion program).iff_version
    constructor
    case front => rfl
    case head =>
      rw [Parts.version?, symbolValues_eq]
      rfl
    case bytes =>
      rw [Parts.program, hcut]
      dsimp only
      rw [List.map_map]
      exact (List.map_congr_left fun b _ => UInt8.ofNat_toNat).trans (List.map_id program)
    case length_fill =>
      rw [Parts.program, hcut]
      dsimp only
      rwa [List.length_replicate]
    case fill =>
      rw [Parts.program, hcut]
      exact fun bit hbit => List.eq_of_mem_replicate hbit
    case first => exact hfirst
    case modified => exact hmodified

/-- A text of the greatest version, with a separator in its human-readable part and bits left over
behind its program. -/
theorem exists_tells_last :
    31 < 32 ∧ ∃ parts, Parts.ofText? "b1c1lw5arjt3a" = some parts ∧
      parts.Tells "b1c" 31 [0x75] := by
  refine ⟨by decide, ?_⟩
  obtain ⟨text, parts, htext, hparts, htells⟩ :=
    exists_tells "b1c" (by decide : 31 < 32) [0x75]
  have hwritten : (encode? "b1c" (31 : Nat) [0x75]).toOption = some "b1c1lw5arjt3a" := by
    decide +kernel
  rw [htext] at hwritten
  obtain rfl := Option.some.inj hwritten
  exact ⟨parts, hparts, htells⟩

end InscriptionLedger.Bech32
