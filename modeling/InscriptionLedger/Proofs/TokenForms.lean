import InscriptionLedger.Script.Token
import Mathlib

/-!
# Tokens as bytes

A token is written as one byte or as a push: the data behind their length, which has a form of its
own in the first byte, and three more in the bytes after it. Any form that the length fits may be
used, so that a list of tokens has many written forms; but bytes are the written form of one list at
most. The tokens of a script are those of its longest front that is written.

## Main definitions

* `Script.lengthField`: a length in so many bytes
* `Token.IsWritten`, `Script.AreWritten`: the written forms of a token and of a list of tokens

## Main results

* `Script.readToken_eq_ok_iff`: a token is read exactly where one of its forms stands
* `Script.tokens_append`: tokens are read from the front, whatever stands behind them
* `Script.tokens_eq_longest_written`: a script is split exactly if it is written, and otherwise as
  far as it is
-/

namespace InscriptionLedger

/-! ## Lengths -/

namespace Script

/-- A length in so many bytes, least significant first. -/
def lengthField : Nat → Nat → Bytes
  | 0, _ => []
  | width + 1, n => UInt8.ofNat (n % 256) :: lengthField width (n / 256)

@[simp] theorem length_lengthField (width n : Nat) : (lengthField width n).length = width := by
  induction width generalizing n with
  | zero => rfl
  | succ width ih => rw [lengthField, List.length_cons, ih]

theorem littleEndian_lengthField {width n : Nat} (h : n < 256 ^ width) :
    littleEndian (lengthField width n) = n := by
  induction width generalizing n with
  | zero =>
    rw [pow_zero] at h
    obtain rfl : n = 0 := by omega
    rfl
  | succ width ih =>
    have hrest : n / 256 < 256 ^ width := by
      rw [pow_succ] at h
      exact Nat.div_lt_of_lt_mul (by rwa [Nat.mul_comm] at h)
    rw [lengthField, littleEndian, ih hrest, UInt8.toNat_ofNat']
    omega

theorem lengthField_littleEndian (field : Bytes) :
    lengthField field.length (littleEndian field) = field := by
  induction field with
  | nil => rfl
  | cons b rest ih =>
    have hb : b.toNat < 256 := b.toNat_lt
    have hmod : (b.toNat + 256 * littleEndian rest) % 256 = b.toNat := by omega
    have hdiv : (b.toNat + 256 * littleEndian rest) / 256 = littleEndian rest := by omega
    rw [littleEndian, List.length_cons, lengthField, hmod, hdiv, ih, UInt8.ofNat_toNat]

theorem littleEndian_lt (field : Bytes) : littleEndian field < 256 ^ field.length := by
  induction field with
  | nil => simp [littleEndian]
  | cons b rest ih =>
    have hb : b.toNat < 256 := b.toNat_lt
    rw [littleEndian, List.length_cons, pow_succ]
    omega

end Script

/-! ## Written forms -/

/-- The first bytes of pushes whose lengths stand behind them, with the widths of the lengths. -/
def Script.fieldForms : List (UInt8 × Nat) :=
  [(Opcode.pushData1, 1), (Opcode.pushData2, 2), (Opcode.pushData4, 4)]

/-- The bytes that a token is written as. Data stands behind its length: the first byte itself up to
seventy-five, or a field of one, two or four bytes. The bytes behind those that start a push are
opcodes. -/
inductive Token.IsWritten : Token → Bytes → Prop
  | direct (data : Bytes) (fits : data.length ≤ 75) :
    IsWritten (.push data) (UInt8.ofNat data.length :: data)
  | field (data : Bytes) {code : UInt8} {width : Nat} (form : (code, width) ∈ Script.fieldForms)
    (fits : data.length < 256 ^ width) :
    IsWritten (.push data) (code :: (Script.lengthField width data.length ++ data))
  | opcode (code : UInt8) (first : 0x4F ≤ code) : IsWritten (.opcode code) [code]

/-- The bytes that tokens are written as, one after another. -/
inductive Script.AreWritten : List Token → Bytes → Prop
  | nil : AreWritten [] []
  | cons {t : Token} {ts : List Token} {head tail : Bytes} (token : t.IsWritten head)
    (rest : AreWritten ts tail) : AreWritten (t :: ts) (head ++ tail)

theorem Token.IsWritten.exists_cons {t : Token} {bytes : Bytes} (h : t.IsWritten bytes) :
    ∃ code rest, bytes = code :: rest := by
  cases h with
  | direct data _ => exact ⟨_, _, rfl⟩
  | field data _ _ => exact ⟨_, _, rfl⟩
  | opcode code _ => exact ⟨_, _, rfl⟩

namespace Script

/-! ## Reading one token -/

theorem lead_eq_push_iff {code : UInt8} {n : Nat} :
    lead code = .push n ↔ code.toNat = n ∧ n ≤ 75 := by
  unfold lead
  split
  · next h =>
    rw [Lead.push.injEq]
    constructor
    · rintro rfl
      exact ⟨rfl, h⟩
    · exact fun hn => hn.1
  · next h =>
    constructor
    · intro hlead
      split_ifs at hlead
    · rintro ⟨rfl, hn⟩
      exact absurd hn h

theorem lead_eq_pushField_iff {code : UInt8} {width : Nat} :
    lead code = .pushField width ↔ (code, width) ∈ fieldForms := by
  unfold lead fieldForms
  split_ifs with hle h1 h2 h4
  · -- A byte that is a length itself is none of the three.
    simp only [List.mem_cons, Prod.mk.injEq, List.not_mem_nil, or_false, false_iff]
    rintro (⟨rfl, -⟩ | ⟨rfl, -⟩ | ⟨rfl, -⟩) <;> exact absurd hle (by decide)
  · subst h1
    simp [Opcode.pushData1, Opcode.pushData2, Opcode.pushData4, eq_comm]
  · subst h2
    simp [Opcode.pushData1, Opcode.pushData2, Opcode.pushData4, eq_comm]
  · subst h4
    simp [Opcode.pushData1, Opcode.pushData2, Opcode.pushData4, eq_comm]
  · simp [h1, h2, h4]

theorem lead_eq_opcode_iff {code : UInt8} : lead code = .opcode ↔ 0x4F ≤ code := by
  unfold lead Opcode.pushData1 Opcode.pushData2 Opcode.pushData4
  rw [UInt8.le_iff_toNat_le]
  split_ifs with hle h1 h2 h4
  · simp; omega
  · simp [h1]
  · simp [h2]
  · simp [h4]
  · simp only [← UInt8.toNat_inj] at h1 h2 h4
    simp at h1 h2 h4 ⊢
    omega

theorem readPush_eq_ok_iff {length : Nat} {rest tail : Bytes} {t : Token} :
    readPush length rest = .ok (t, tail) ↔
      ∃ data, t = .push data ∧ data.length = length ∧ rest = data ++ tail := by
  unfold readPush
  constructor
  · intro h
    simp only at h
    split at h
    · cases h
    · next hlong =>
      cases h
      refine ⟨rest.take length, rfl, ?_, (List.take_append_drop length rest).symm⟩
      rw [List.length_take] at hlong ⊢
      omega
  · rintro ⟨data, rfl, rfl, rfl⟩
    simp

/-- A token is read exactly where one of its forms stands, and what stands behind it is left. -/
theorem readToken_eq_ok_iff {code : UInt8} {rest tail : Bytes} {t : Token} :
    readToken code rest = .ok (t, tail) ↔
      ∃ body, t.IsWritten (code :: body) ∧ rest = body ++ tail := by
  constructor
  · intro h
    unfold readToken at h
    split at h
    · next hlead =>
      cases h
      exact ⟨[], .opcode code (lead_eq_opcode_iff.1 hlead), rfl⟩
    · next hlead =>
      obtain ⟨hcode, hfits⟩ := lead_eq_push_iff.1 hlead
      obtain ⟨data, rfl, rfl, rfl⟩ := readPush_eq_ok_iff.1 h
      refine ⟨data, ?_, rfl⟩
      have hdirect := Token.IsWritten.direct data hfits
      rwa [← hcode, UInt8.ofNat_toNat] at hdirect
    · next width hlead =>
      simp only at h
      split at h
      · cases h
      · next hlong =>
        obtain ⟨data, rfl, hlength, hdrop⟩ := readPush_eq_ok_iff.1 h
        -- The field is there in full, and is the only one of its width with this length.
        have hwidth : (rest.take width).length = width := by
          rw [List.length_take] at hlong ⊢
          omega
        have hfield : lengthField width data.length = rest.take width := by
          have := lengthField_littleEndian (rest.take width)
          rwa [hwidth, ← hlength] at this
        have hfits : data.length < 256 ^ width := by
          have := littleEndian_lt (rest.take width)
          rwa [hwidth, ← hlength] at this
        refine ⟨_, .field data (lead_eq_pushField_iff.1 hlead) hfits, ?_⟩
        rw [hfield, List.append_assoc, ← hdrop, List.take_append_drop]
  · rintro ⟨body, hwritten, rfl⟩
    unfold readToken
    cases hwritten with
    | direct data fits =>
      have hlead : lead (UInt8.ofNat body.length) = .push body.length := by
        refine lead_eq_push_iff.2 ⟨?_, fits⟩
        rw [UInt8.toNat_ofNat']
        omega
      rw [hlead]
      exact readPush_eq_ok_iff.2 ⟨body, rfl, rfl, rfl⟩
    | @field data _ width form fits =>
      have htake : (lengthField width data.length ++ data ++ tail).take width =
          lengthField width data.length := by
        rw [List.append_assoc, List.take_left' (length_lengthField ..)]
      have hdrop : (lengthField width data.length ++ data ++ tail).drop width = data ++ tail := by
        rw [List.append_assoc, List.drop_left' (length_lengthField ..)]
      rw [lead_eq_pushField_iff.2 form]
      simp only [htake, hdrop, length_lengthField, lt_irrefl, if_false,
        littleEndian_lengthField fits]
      exact readPush_eq_ok_iff.2 ⟨data, rfl, rfl, rfl⟩
    | opcode _ first => rw [lead_eq_opcode_iff.2 first, List.nil_append]

theorem AreWritten.readToken_ne_error {ts : List Token} {code : UInt8} {body : Bytes}
    (h : AreWritten ts (code :: body)) (left : Bytes) (fault : ScriptFault) :
    readToken code (body ++ left) ≠ .error fault := by
  generalize hbytes : code :: body = bytes at h
  cases h with
  | nil => cases hbytes
  | @cons t _ head tail token _ =>
    obtain ⟨code', first, rfl⟩ := token.exists_cons
    rw [List.cons_append] at hbytes
    obtain ⟨rfl, rfl⟩ := List.cons.inj hbytes
    have hread : readToken code (first ++ tail ++ left) = .ok (t, tail ++ left) :=
      readToken_eq_ok_iff.2 ⟨first, token, List.append_assoc ..⟩
    intro hfault
    rw [hread] at hfault
    cases hfault

/-! ## Splitting a script -/

@[simp] theorem tokens_nil : tokens [] = ([], none) := by
  rw [tokens]

theorem tokens_of_readToken {code : UInt8} {rest tail : Bytes} {t : Token}
    (h : readToken code rest = .ok (t, tail)) :
    tokens (code :: rest) = (t :: (tokens tail).1, (tokens tail).2) := by
  rw [tokens]
  split
  · next fault hfault =>
    rw [h] at hfault
    cases hfault
  · next hok =>
    rw [h] at hok
    cases hok
    rfl

theorem tokens_of_fault {code : UInt8} {rest : Bytes} {fault : ScriptFault}
    (h : readToken code rest = .error fault) : tokens (code :: rest) = ([], some fault) := by
  rw [tokens]
  split
  · next hfault =>
    rw [h] at hfault
    cases hfault
    rfl
  · next hok =>
    rw [h] at hok
    cases hok

/-- Tokens that stand in front are read first, and then what stands behind them. -/
theorem tokens_append {ts : List Token} {bytes : Bytes} (h : AreWritten ts bytes) (rest : Bytes) :
    tokens (bytes ++ rest) = (ts ++ (tokens rest).1, (tokens rest).2) := by
  induction h with
  | nil => rfl
  | @cons t ts head tail token _ ih =>
    obtain ⟨code, body, rfl⟩ := token.exists_cons
    have hread : readToken code (body ++ (tail ++ rest)) = .ok (t, tail ++ rest) :=
      readToken_eq_ok_iff.2 ⟨body, token, rfl⟩
    rw [List.append_assoc, List.cons_append, tokens_of_readToken hread, ih]
    rfl

theorem tokens_of_areWritten {ts : List Token} {bytes : Bytes} (h : AreWritten ts bytes) :
    tokens bytes = (ts, none) := by
  simpa using tokens_append h []

/-- The tokens of a script are written in its front; behind them stands nothing, or bytes that do
not start with a token. -/
theorem exists_written_front (script : Bytes) :
    ∃ written rest, script = written ++ rest ∧ AreWritten (tokens script).1 written ∧
      (rest = [] ∧ (tokens script).2 = none ∨
        ∃ code body fault, rest = code :: body ∧ readToken code body = .error fault ∧
          (tokens script).2 = some fault) := by
  -- A token that is read leaves fewer bytes, which have a front of their own.
  induction hlength : script.length using Nat.strongRecOn generalizing script with
  | ind n ih =>
    cases script with
    | nil => exact ⟨[], [], rfl, by rw [tokens_nil]; exact .nil, .inl ⟨rfl, by rw [tokens_nil]⟩⟩
    | cons code body =>
      cases hread : readToken code body with
      | error fault =>
        rw [tokens_of_fault hread]
        exact ⟨[], code :: body, rfl, .nil, .inr ⟨code, body, fault, rfl, hread, rfl⟩⟩
      | ok result =>
        obtain ⟨t, tail⟩ := result
        have hshorter : tail.length < n := by
          have := readToken_length_le hread
          rw [← hlength, List.length_cons]
          omega
        obtain ⟨written, rest, rfl, hwritten, hrest⟩ := ih _ hshorter tail rfl
        obtain ⟨first, htoken, rfl⟩ := readToken_eq_ok_iff.1 hread
        rw [tokens_of_readToken hread]
        refine ⟨(code :: first) ++ written, rest, ?_, .cons htoken hwritten, hrest⟩
        rw [List.append_assoc, List.cons_append]

theorem tokens_eq_iff_areWritten {script : Bytes} {ts : List Token} :
    tokens script = (ts, none) ↔ AreWritten ts script := by
  refine ⟨fun h => ?_, tokens_of_areWritten⟩
  obtain ⟨written, rest, rfl, hwritten, ⟨rfl, -⟩ | ⟨_, _, fault, -, -, hfault⟩⟩ :=
    exists_written_front script
  · rw [h] at hwritten
    rwa [List.append_nil]
  · rw [h] at hfault
    cases hfault

/-- A script is split into tokens exactly if it is their written form. Any other script has a fault
behind the tokens of its longest front that is a written form. -/
theorem tokens_eq_longest_written (script : Bytes) :
    (∀ ts, tokens script = (ts, none) ↔ AreWritten ts script) ∧
      ((∀ ts, ¬AreWritten ts script) →
        ∃ ts fault written, tokens script = (ts, some fault) ∧ written <+: script ∧
          AreWritten ts written ∧
          ∀ us front, front <+: script → AreWritten us front → front <+: written) := by
  refine ⟨fun ts => tokens_eq_iff_areWritten, fun hnone => ?_⟩
  obtain ⟨written, rest, hscript, hwritten, ⟨rfl, -⟩ | ⟨code, body, fault, rfl, hread, hfault⟩⟩ :=
    exists_written_front script
  · rw [List.append_nil] at hscript
    rw [← hscript] at hwritten
    exact absurd hwritten (hnone _)
  · refine ⟨(tokens script).1, fault, written, Prod.ext rfl hfault, ⟨_, hscript.symm⟩, hwritten, ?_⟩
    intro us front hfront hus
    rcases List.prefix_or_prefix_of_prefix hfront ⟨_, hscript.symm⟩ with hshort | hlong
    · exact hshort
    · obtain ⟨more, rfl⟩ := hlong
      obtain ⟨left, hleft⟩ := hfront
      rw [hscript, List.append_assoc, List.append_cancel_left_eq] at hleft
      have hsplit := tokens_append hwritten more
      rw [tokens_of_areWritten hus] at hsplit
      have hmore : AreWritten (tokens more).1 more :=
        tokens_eq_iff_areWritten.1 (Prod.ext rfl (Prod.mk.inj hsplit).2.symm)
      cases more with
      | nil => rw [List.append_nil]
      | cons code' more =>
        obtain ⟨rfl, rfl⟩ := List.cons.inj hleft
        exact absurd hread (hmore.readToken_ne_error left fault)

/-- A script that ends in the length of a push, behind a push and an opcode. -/
theorem tokens_eq_longest_written_truncated :
    let script : Bytes := [0x4C, 0x01, 0xAA, 0xAC, 0x4D, 0x05]
    (∀ ts, ¬AreWritten ts script) ∧
      tokens script = ([.push [0xAA], .opcode 0xAC], some .truncatedLength) ∧
      ∃ written, written <+: script ∧ AreWritten [.push [0xAA], .opcode 0xAC] written ∧
        ∀ us front, front <+: script → AreWritten us front → front <+: written := by
  intro script
  have hsplit : tokens script = ([.push [0xAA], .opcode 0xAC], some .truncatedLength) := by cbv
  have hnone : ∀ ts, ¬AreWritten ts script := by
    intro ts hts
    have hwhole := ((tokens_eq_longest_written script).1 ts).2 hts
    rw [hsplit] at hwhole
    cases hwhole
  obtain ⟨ts, fault, written, htokens, hfront, hwritten, hlongest⟩ :=
    (tokens_eq_longest_written script).2 hnone
  rw [hsplit] at htokens
  obtain ⟨rfl, -⟩ := Prod.mk.inj htokens
  exact ⟨hnone, hsplit, written, hfront, hwritten, hlongest⟩

end Script

end InscriptionLedger
