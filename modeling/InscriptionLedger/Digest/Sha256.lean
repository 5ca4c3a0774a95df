import InscriptionLedger.Text.Hex

/-!
# SHA-256

The digest of a sequence of bytes. The padded message is cut into blocks of sixteen words; each
block is mixed into a state of eight words in sixty-four rounds, whose message words come from a
window of the sixteen latest ones.

## Main definitions

* `Sha256.digest bytes`: the digest
* `Sha256.doubleDigest bytes`: the digest of the digest

## Main results

* `Sha256.length_digest`: a digest has thirty-two bytes
-/

namespace InscriptionLedger.Sha256

/-- The round constants: the first bits of the fractions of the cube roots of the first primes. -/
def roundConstants : List UInt32 :=
  [0x428A2F98, 0x71374491, 0xB5C0FBCF, 0xE9B5DBA5, 0x3956C25B, 0x59F111F1, 0x923F82A4, 0xAB1C5ED5,
    0xD807AA98, 0x12835B01, 0x243185BE, 0x550C7DC3, 0x72BE5D74, 0x80DEB1FE, 0x9BDC06A7, 0xC19BF174,
    0xE49B69C1, 0xEFBE4786, 0x0FC19DC6, 0x240CA1CC, 0x2DE92C6F, 0x4A7484AA, 0x5CB0A9DC, 0x76F988DA,
    0x983E5152, 0xA831C66D, 0xB00327C8, 0xBF597FC7, 0xC6E00BF3, 0xD5A79147, 0x06CA6351, 0x14292967,
    0x27B70A85, 0x2E1B2138, 0x4D2C6DFC, 0x53380D13, 0x650A7354, 0x766A0ABB, 0x81C2C92E, 0x92722C85,
    0xA2BFE8A1, 0xA81A664B, 0xC24B8B70, 0xC76C51A3, 0xD192E819, 0xD6990624, 0xF40E3585, 0x106AA070,
    0x19A4C116, 0x1E376C08, 0x2748774C, 0x34B0BCB5, 0x391C0CB3, 0x4ED8AA4A, 0x5B9CCA4F, 0x682E6FF3,
    0x748F82EE, 0x78A5636F, 0x84C87814, 0x8CC70208, 0x90BEFFFA, 0xA4506CEB, 0xBEF9A3F7, 0xC67178F2]

/-- The state between blocks. -/
structure State where
  a : UInt32
  b : UInt32
  c : UInt32
  d : UInt32
  e : UInt32
  f : UInt32
  g : UInt32
  h : UInt32
  deriving DecidableEq, Repr

/-- The state before the first block: the first bits of the fractions of the square roots of the
first eight primes. -/
def State.start : State :=
  ⟨0x6A09E667, 0xBB67AE85, 0x3C6EF372, 0xA54FF53A, 0x510E527F, 0x9B05688C, 0x1F83D9AB, 0x5BE0CD19⟩

/-- A word turned right by so many bits. -/
def turnRight (x n : UInt32) : UInt32 := (x >>> n) ||| (x <<< (32 - n))

/-- The message word after a window of sixteen. -/
def nextWord (window : List UInt32) : UInt32 :=
  let x := window.getD 1 0
  let y := window.getD 14 0
  let early := turnRight x 7 ^^^ turnRight x 18 ^^^ (x >>> 3)
  let late := turnRight y 17 ^^^ turnRight y 19 ^^^ (y >>> 10)
  window.getD 0 0 + early + window.getD 9 0 + late

/-- The state after a round with a constant and a message word. -/
def State.round (s : State) (constant word : UInt32) : State :=
  let mixE := turnRight s.e 6 ^^^ turnRight s.e 11 ^^^ turnRight s.e 25
  let choice := (s.e &&& s.f) ^^^ (~~~s.e &&& s.g)
  let mixA := turnRight s.a 2 ^^^ turnRight s.a 13 ^^^ turnRight s.a 22
  let majority := (s.a &&& s.b) ^^^ (s.a &&& s.c) ^^^ (s.b &&& s.c)
  let t := s.h + mixE + choice + constant + word
  ⟨t + mixA + majority, s.a, s.b, s.c, s.d + t, s.e, s.f, s.g⟩

/-- The state after a round for each constant, the message words coming from the window. -/
def State.rounds (s : State) : List UInt32 → List UInt32 → State
  | [], _ => s
  | constant :: rest, window =>
    rounds (s.round constant (window.getD 0 0)) rest (window.drop 1 ++ [nextWord window])

/-- The words of two states added. -/
def State.add (s t : State) : State :=
  ⟨s.a + t.a, s.b + t.b, s.c + t.c, s.d + t.d, s.e + t.e, s.f + t.f, s.g + t.g, s.h + t.h⟩

/-- The state after a block of words. -/
def State.block (s : State) (words : List UInt32) : State := s.add (s.rounds roundConstants words)

/-- The bytes of a number, most significant first. -/
def bigEndian (width n : Nat) : Bytes :=
  (List.range width).reverse.map fun i => UInt8.ofNat (n >>> (8 * i))

/-- The message with a one bit, zeros and its length in bits behind it; a multiple of 64 bytes. -/
def pad (bytes : Bytes) : Bytes :=
  let zeros := (119 - bytes.length % 64) % 64
  bytes ++ 0x80 :: (List.replicate zeros 0 ++ bigEndian 8 (8 * bytes.length))

/-- The words of bytes, most significant byte first. -/
def words : Bytes → List UInt32
  | a :: b :: c :: d :: rest =>
    (a.toUInt32 <<< 24 ||| b.toUInt32 <<< 16 ||| c.toUInt32 <<< 8 ||| d.toUInt32) :: words rest
  | _ => []

/-- The state after all whole blocks of a list of words. -/
def State.blocks (s : State) (message : List UInt32) : State :=
  if 16 ≤ message.length then (s.block (message.take 16)).blocks (message.drop 16) else s
termination_by message.length
decreasing_by simp; omega

/-- The bytes of a state. -/
def State.bytes (s : State) : Bytes :=
  [s.a, s.b, s.c, s.d, s.e, s.f, s.g, s.h].flatMap fun word => bigEndian 4 word.toNat

/-- The digest of a sequence of bytes. -/
def digest (bytes : Bytes) : Bytes := (State.start.blocks (words (pad bytes))).bytes

/-- The digest of the digest. -/
def doubleDigest (bytes : Bytes) : Bytes := digest (digest bytes)

@[simp] theorem length_bigEndian (width n : Nat) : (bigEndian width n).length = width := by
  simp [bigEndian]

/-- A digest has thirty-two bytes. -/
@[simp] theorem length_digest (bytes : Bytes) : (digest bytes).length = 32 := by
  simp [digest, State.bytes]

@[simp] theorem length_doubleDigest (bytes : Bytes) : (doubleDigest bytes).length = 32 :=
  length_digest _

end InscriptionLedger.Sha256
