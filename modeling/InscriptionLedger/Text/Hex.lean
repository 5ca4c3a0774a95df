import InscriptionLedger.Text.Blank

/-!
# Hexadecimal text

Bytes are written as pairs of lower-case digits. They are read from digits of either case, with
ASCII blanks allowed before, between and after the pairs, but not inside one.

## Main definitions

* `Bytes`: a list of bytes
* `Hex.write bytes`, `Hex.read? s`: the two directions

## Main results

* `Hex.readChars?_writeChars`: what is written reads back
-/

namespace InscriptionLedger

/-- A sequence of bytes. -/
abbrev Bytes := List UInt8

namespace Hex

open Text

/-- The digit of a value below sixteen. -/
def digit (n : Nat) : Char := if n < 10 then Char.ofNat (0x30 + n) else Char.ofNat (0x57 + n)

/-- The value of a hexadecimal digit of either case. -/
def digitValue? (c : Char) : Option Nat :=
  let n := c.toNat
  if 0x30 ≤ n ∧ n ≤ 0x39 then some (n - 0x30)
  else if 0x61 ≤ n ∧ n ≤ 0x66 then some (n - 0x57)
  else if 0x41 ≤ n ∧ n ≤ 0x46 then some (n - 0x37)
  else none

/-- The characters of a sequence of bytes. -/
def writeChars : Bytes → List Char
  | [] => []
  | b :: rest => digit (b.toNat / 16) :: digit (b.toNat % 16) :: writeChars rest

/-- The text of a sequence of bytes. -/
def write (bytes : Bytes) : String := String.ofList (writeChars bytes)

/-- The bytes that a list of characters denotes. -/
def readChars? : List Char → Option Bytes
  | [] => some []
  | [c] => if isAsciiBlank c then some [] else none
  | c :: d :: rest =>
    if isAsciiBlank c then readChars? (d :: rest)
    else do
      let high ← digitValue? c
      let low ← digitValue? d
      return UInt8.ofNat (16 * high + low) :: (← readChars? rest)

/-- The bytes that a text denotes. -/
def read? (s : String) : Option Bytes := readChars? s.toList

/-! ## What is written reads back -/

theorem digitValue?_digit {n : Nat} (h : n < 16) : digitValue? (digit n) = some n := by
  have : ∀ m : Fin 16, digitValue? (digit m) = some m.val := by decide
  exact this ⟨n, h⟩

theorem isAsciiBlank_digit {n : Nat} (h : n < 16) : isAsciiBlank (digit n) = false := by
  have : ∀ m : Fin 16, isAsciiBlank (digit m) = false := by decide
  exact this ⟨n, h⟩

/-- What is written reads back. -/
@[simp] theorem readChars?_writeChars (bytes : Bytes) :
    readChars? (writeChars bytes) = some bytes := by
  induction bytes with
  | nil => rfl
  | cons b rest ih =>
    have hb := b.toNat_lt
    have hhigh : b.toNat / 16 < 16 := by omega
    have hlow : b.toNat % 16 < 16 := Nat.mod_lt _ (by decide)
    have hsum : 16 * (b.toNat / 16) + b.toNat % 16 = b.toNat := Nat.div_add_mod _ _
    simp [writeChars, readChars?, isAsciiBlank_digit hhigh, digitValue?_digit hhigh,
      digitValue?_digit hlow, ih, hsum, -UInt8.ofNat_add, -UInt8.ofNat_mul]

end Hex

end InscriptionLedger
