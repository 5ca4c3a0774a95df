import InscriptionLedger.Text.Hex
import InscriptionLedger.Text.Numeral

/-!
# Script tokens

A script is a sequence of tokens: pushes of data and plain opcodes. The length of a push stands in
the opcode itself, or in one, two or four bytes after it, least significant first; the shortest form
need not be used. A script that ends inside a push has the tokens before it and a fault.

## Main definitions

* `Token`: a push or an opcode
* `ScriptFault`: why a script cannot be split into tokens
* `readToken`: the token that a byte starts, and the bytes after it
* `tokens script`: the tokens of a script, and the fault that ended them
* `Token.pushed?`: the data that a token pushes, small numbers included
-/

namespace InscriptionLedger

/-- A token of a script. -/
inductive Token
  | push (data : Bytes)
  | opcode (code : UInt8)
  deriving DecidableEq, Repr

namespace Opcode

/-- Pushes with a length of one, two or four bytes. -/
def pushData1 : UInt8 := 0x4C

@[inherit_doc pushData1]
def pushData2 : UInt8 := 0x4D

@[inherit_doc pushData1]
def pushData4 : UInt8 := 0x4E

/-- Pushes the number minus one. -/
def oneNegate : UInt8 := 0x4F

/-- Pushes the number one; the fifteen opcodes after it push the numbers up to sixteen. -/
def one : UInt8 := 0x51

/-- Pushes the number sixteen. -/
def sixteen : UInt8 := 0x60

/-- Starts a conditional part. -/
def startIf : UInt8 := 0x63

/-- Ends a conditional part. -/
def endIf : UInt8 := 0x68

end Opcode

/-- Why a script cannot be split into tokens. -/
inductive ScriptFault
  | truncatedLength
  | pushOverrun (length : Nat)
  deriving DecidableEq, Repr

/-- The wording of the fault. -/
def ScriptFault.message : ScriptFault → String
  | truncatedLength => "Truncated push length"
  | pushOverrun length =>
    "Push of " ++ Numeral.write length ++ " bytes runs past the end of the script"

namespace Script

/-- What a first byte says of its token. -/
inductive Lead
  | opcode
  | push (length : Nat)
  | pushField (width : Nat)
  deriving DecidableEq, Repr

/-- What a first byte says of its token. -/
def lead (code : UInt8) : Lead :=
  if code.toNat ≤ 0x4B then .push code.toNat
  else if code = Opcode.pushData1 then .pushField 1
  else if code = Opcode.pushData2 then .pushField 2
  else if code = Opcode.pushData4 then .pushField 4
  else .opcode

/-- The number of bytes given least significant first. -/
def littleEndian : Bytes → Nat
  | [] => 0
  | b :: rest => b.toNat + 256 * littleEndian rest

/-- The push of so many bytes at the front of a list, and the bytes after it. -/
def readPush (length : Nat) (rest : Bytes) : Except ScriptFault (Token × Bytes) :=
  let data := rest.take length
  if data.length < length then .error (.pushOverrun length) else .ok (.push data, rest.drop length)

/-- The token that a byte starts, and the bytes after it. -/
def readToken (code : UInt8) (rest : Bytes) : Except ScriptFault (Token × Bytes) :=
  match lead code with
  | .opcode => .ok (.opcode code, rest)
  | .push length => readPush length rest
  | .pushField width =>
    let field := rest.take width
    if field.length < width then .error .truncatedLength
    else readPush (littleEndian field) (rest.drop width)

theorem readPush_length_le {length : Nat} {rest tail : Bytes} {t : Token}
    (h : readPush length rest = .ok (t, tail)) : tail.length ≤ rest.length := by
  simp only [readPush] at h
  split at h
  · cases h
  · cases h
    simp

/-- A token leaves no more bytes than follow its first one. -/
theorem readToken_length_le {code : UInt8} {rest tail : Bytes} {t : Token}
    (h : readToken code rest = .ok (t, tail)) : tail.length ≤ rest.length := by
  simp only [readToken] at h
  split at h
  · cases h
    exact Nat.le_refl _
  · exact readPush_length_le h
  · split at h
    · cases h
    · have := readPush_length_le h
      simp at this
      omega

/-- The tokens of a script, and the fault that ended them. -/
def tokens (script : Bytes) : List Token × Option ScriptFault :=
  match script with
  | [] => ([], none)
  | code :: rest =>
    match _h : readToken code rest with
    | .error fault => ([], some fault)
    | .ok (token, tail) =>
      let (more, fault) := tokens tail
      (token :: more, fault)
termination_by script.length
decreasing_by
  have := readToken_length_le _h
  simp
  omega

/-- The tokens of a script that has no fault. -/
def tokens? (script : Bytes) : Except ScriptFault (List Token) :=
  match tokens script with
  | (found, none) => .ok found
  | (_, some fault) => .error fault

end Script

/-- The data that a token pushes; the opcodes of small numbers push one byte. -/
def Token.pushed? : Token → Option Bytes
  | push data => some data
  | opcode code =>
    if code = Opcode.oneNegate then some [0x81]
    else if Opcode.one ≤ code ∧ code ≤ Opcode.sixteen then some [code - Opcode.one + 1]
    else none

end InscriptionLedger
