import InscriptionLedger.Digest.Sha256

/-!
# Base 58

Bytes are written as a number in base 58, with one more zero digit in front for each leading zero
byte. A checked text ends with the first four bytes of the double digest of what stands before.

## Main definitions

* `Base58.encode bytes`: the text of bytes
* `Base58.checkEncode payload version`: the checked text of a payload behind a version

## Main results

* `Base58.digitsValue_digits`: the digits of a number denote it
-/

namespace InscriptionLedger.Base58

/-- The digits, in the order of their values. -/
def alphabet : List Char := "123456789ABCDEFGHJKLMNPQRSTUVWXYZabcdefghijkmnopqrstuvwxyz".toList

/-- The digit of a value below 58. -/
def digit (value : Nat) : Char := alphabet.getD value '1'

/-- The digit values of a number, most significant first; zero has none. -/
def digits (n : Nat) : List Nat := if n = 0 then [] else digits (n / 58) ++ [n % 58]
termination_by n
decreasing_by omega

/-- The number that digit values denote. -/
def digitsValue (ds : List Nat) : Nat := ds.foldl (fun n d => 58 * n + d) 0

/-- The number of bytes given most significant first. -/
def value (bytes : Bytes) : Nat := bytes.foldl (fun n b => 256 * n + b.toNat) 0

/-- The zero bytes at the front of a list. -/
def leadingZeros (bytes : Bytes) : Nat := (bytes.takeWhile (· == 0)).length

/-- The text of bytes. -/
def encode (bytes : Bytes) : String :=
  String.ofList (List.replicate (leadingZeros bytes) (digit 0) ++ (digits (value bytes)).map digit)

/-- The first four bytes of the double digest. -/
def check (bytes : Bytes) : Bytes := (Sha256.doubleDigest bytes).take 4

/-- The checked text of a payload behind a version. -/
def checkEncode (payload version : Bytes) : String :=
  let bytes := version ++ payload
  encode (bytes ++ check bytes)

/-- The digits of a number denote it. -/
@[simp] theorem digitsValue_digits (n : Nat) : digitsValue (digits n) = n := by
  induction n using Nat.strongRecOn with
  | ind n ih =>
    rw [digits]
    split
    · next h => simp [digitsValue, h]
    · have := ih (n / 58) (by omega)
      simp only [digitsValue, List.foldl_append, List.foldl_cons, List.foldl_nil] at this ⊢
      rw [this]
      omega

end InscriptionLedger.Base58
