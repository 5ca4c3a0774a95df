import InscriptionLedger.Text.Hex

/-!
# UTF-8 with replacement

Bytes are decoded as UTF-8. Whatever is not well formed is replaced: each maximal initial part of
a well-formed sequence, and each byte that starts none, becomes one replacement character.

## Main definitions

* `Utf8.lead? b`: what must follow a byte that starts a longer sequence
* `Utf8.decode bytes`: the decoded text
-/

namespace InscriptionLedger.Utf8

/-- The character that stands for what is not well formed. -/
def replacement : Char := '\uFFFD'

/-- An incomplete sequence: the bits so far, how many bytes must follow, and the range of the next
one. -/
structure Pending where
  bits : Nat
  missing : Nat
  low : Nat
  high : Nat
  deriving DecidableEq, Repr

/-- The incomplete sequence that a byte starts. The range of the second byte leaves out overlong
forms, surrogates and what is beyond the last code point. -/
def lead? (b : UInt8) : Option Pending :=
  let n := b.toNat
  if 0xC2 ≤ n ∧ n ≤ 0xDF then some ⟨n - 0xC0, 1, 0x80, 0xBF⟩
  else if n = 0xE0 then some ⟨0, 2, 0xA0, 0xBF⟩
  else if n = 0xED then some ⟨13, 2, 0x80, 0x9F⟩
  else if 0xE1 ≤ n ∧ n ≤ 0xEF then some ⟨n - 0xE0, 2, 0x80, 0xBF⟩
  else if n = 0xF0 then some ⟨0, 3, 0x90, 0xBF⟩
  else if 0xF1 ≤ n ∧ n ≤ 0xF3 then some ⟨n - 0xF0, 3, 0x80, 0xBF⟩
  else if n = 0xF4 then some ⟨4, 3, 0x80, 0x8F⟩
  else none

/-- The characters of the bytes that follow an incomplete sequence, or none. -/
def decodeFrom : Option Pending → Bytes → List Char
  | none, [] => []
  | some _, [] => [replacement]
  | pending, b :: rest =>
    let start : List Char :=
      if b.toNat < 0x80 then Char.ofNat b.toNat :: decodeFrom none rest
      else match lead? b with
        | some p => decodeFrom (some p) rest
        | none => replacement :: decodeFrom none rest
    match pending with
    | none => start
    | some p =>
      if p.low ≤ b.toNat ∧ b.toNat ≤ p.high then
        let bits := 64 * p.bits + b.toNat % 64
        if p.missing ≤ 1 then Char.ofNat bits :: decodeFrom none rest
        else decodeFrom (some ⟨bits, p.missing - 1, 0x80, 0xBF⟩) rest
      else replacement :: start

/-- The text of a sequence of bytes. -/
def decode (bytes : Bytes) : String := String.ofList (decodeFrom none bytes)

end InscriptionLedger.Utf8
