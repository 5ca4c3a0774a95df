import InscriptionLedger.Address.Regroup

/-!
# Bech32

A witness program is written as symbols of five bits behind a human-readable part and a separator,
followed by a checksum of six symbols. The checksum is a polynomial remainder; the constant that it
must equal tells version zero from the later versions.

## Main definitions

* `Bech32.polymod values`: the remainder
* `Bech32.checksum hrp data constant`: the symbols that make the remainder equal a constant
* `Bech32.encode hrp version program`: the text of a witness program
-/

namespace InscriptionLedger.Bech32

/-- The symbols, in the order of their values. -/
def alphabet : List Char := "qpzry9x8gf2tvdw0s3jn54khce6mua7l".toList

/-- The symbol of a value; a negative one counts from the end. -/
def symbol (value : Int) : Char := alphabet.getD (value % 32).toNat 'q'

/-- The constant of version zero. -/
def firstConstant : Nat := 1

/-- The constant of the later versions. -/
def modifiedConstant : Nat := 0x2BC830A3

/-- The remainders of the five highest coefficients. -/
def generators : List Nat := [0x3B6A57B2, 0x26508E6D, 0x1EA119FA, 0x3D4233DD, 0x2A1462B3]

/-- The sum of the generators at the bits of a number. -/
def generatorSum (top : Nat) : Nat :=
  generators.zipIdx.foldl (fun acc (g, i) => if top.testBit i then acc ^^^ g else acc) 0

/-- The bits of an integer in two's complement, inverted where the number has ones. -/
def invertBits (n : Nat) : Int → Int
  | .ofNat m => .ofNat (m ^^^ n)
  | .negSucc m => .negSucc (m ^^^ n)

/-- The remainder after one more value. -/
def polymodStep (chk value : Int) : Int :=
  let low := (chk % 0x2000000).toNat
  let top := (chk / 0x2000000 % 32).toNat
  invertBits (low <<< 5 ^^^ generatorSum top) value

/-- The remainder of a sequence of values. -/
def polymod (values : List Int) : Int := values.foldl polymodStep 1

/-- The values of a human-readable part: the high bits of its characters, a zero, the low bits. -/
def expand (hrp : String) : List Int :=
  hrp.toList.map (fun c => ((c.toNat / 32 : Nat) : Int)) ++
    0 :: hrp.toList.map fun c => ((c.toNat % 32 : Nat) : Int)

/-- The constant of a version of the format, by its name. -/
def constantOf (spec : String) : Nat := if spec = "bech32m" then modifiedConstant else firstConstant

/-- The symbols that make the remainder equal a constant. -/
def checksum (hrp : String) (data : List Int) (constant : Nat) : List Nat :=
  let remainder := invertBits constant (polymod (expand hrp ++ data ++ List.replicate 6 0))
  (List.range 6).map fun i => (remainder.shiftRight (5 * (5 - i)) % 32).toNat

/-- The symbol values of a witness program behind its version. -/
def programSymbols (version : Int) (program : Bytes) : List Int :=
  version :: (Regroup.regroup 8 5 (program.map fun b => (b.toNat : Int))).map Int.ofNat

/-- The text of a witness program. -/
def encode (hrp : String) (version : Int) (program : Bytes) : String :=
  let data := programSymbols version program
  let check := checksum hrp data (if 1 ≤ version then modifiedConstant else firstConstant)
  hrp ++ "1" ++ String.ofList ((data ++ check.map Int.ofNat).map symbol)

/-- The text of a witness program whose version has a symbol. -/
def encode? (hrp : String) (version : Int) (program : Bytes) : Outcome String :=
  if -32 ≤ version ∧ version < 32 then .ok (encode hrp version program) else .error .symbol

end InscriptionLedger.Bech32
