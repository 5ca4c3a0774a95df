import InscriptionLedger.Address.Base58
import InscriptionLedger.Address.Bech32
import InscriptionLedger.Address.Network

/-!
# Address templates

The scripts that have an address pay to a public key hash, to a script hash or to a witness program.
Any other script has none.

## Main definitions

* `Template`: the kinds of scripts that have an address
* `Template.script`, `Template.ofScript?`: the script of a template, and the other way
* `Template.address`, `Network.address?`: the address of a template and of a script

## Main results

* `Template.script_ofScript?`: a recognised script is the script of its template
-/

namespace InscriptionLedger

/-- The kinds of scripts that have an address. -/
inductive Template
  | publicKeyHash (hash : Bytes)
  | scriptHash (hash : Bytes)
  | witness (version : Nat) (program : Bytes)
  deriving DecidableEq, Repr

namespace Template

/-- The opcode that pushes a witness version. -/
def versionOpcode (version : Nat) : UInt8 :=
  if version = 0 then 0x00 else UInt8.ofNat (0x50 + version)

/-- The witness version that an opcode pushes. -/
def version? (code : UInt8) : Option Nat :=
  if code = 0x00 then some 0
  else if 0x51 ≤ code ∧ code ≤ 0x60 then some (code.toNat - 0x50)
  else none

/-- The script of a template. -/
def script : Template → Bytes
  | publicKeyHash hash => 0x76 :: 0xA9 :: UInt8.ofNat hash.length :: (hash ++ [0x88, 0xAC])
  | scriptHash hash => 0xA9 :: UInt8.ofNat hash.length :: (hash ++ [0x87])
  | witness version program => versionOpcode version :: UInt8.ofNat program.length :: program

/-- Whether a template has the sizes that the network accepts. -/
def isStandard : Template → Bool
  | publicKeyHash hash => hash.length == 20
  | scriptHash hash => hash.length == 20
  | witness version program =>
    version ≤ 16 && 2 ≤ program.length && program.length ≤ 40 &&
      (version != 0 || program.length == 20 || program.length == 32)

/-- The templates that a script could have, by its bytes at the fixed places. -/
def candidates (bytes : Bytes) : List Template :=
  [publicKeyHash ((bytes.drop 3).take 20), scriptHash ((bytes.drop 2).take 20)] ++
    match bytes.head?.bind version? with
    | some version => [witness version (bytes.drop 2)]
    | none => []

/-- The template of a script: the first standard one whose script it is. -/
def ofScript? (bytes : Bytes) : Option Template :=
  (candidates bytes).find? fun t => t.isStandard && t.script == bytes

/-- The address of a template. -/
def address (network : Network) : Template → String
  | publicKeyHash hash => Base58.checkEncode hash [network.publicKeyHashVersion]
  | scriptHash hash => Base58.checkEncode hash [network.scriptHashVersion]
  | witness version program => Bech32.encode network.hrp version program

/-- A recognised script is the script of its template, which is standard. -/
theorem script_ofScript? {bytes : Bytes} {t : Template} (h : ofScript? bytes = some t) :
    t.script = bytes ∧ t.isStandard = true := by
  have := List.find?_some h
  simp only [Bool.and_eq_true, beq_iff_eq] at this
  exact this.symm

end Template

/-- The address of a script. -/
def Network.address? (network : Network) (bytes : Bytes) : Option String :=
  (Template.ofScript? bytes).map (Template.address network)

end InscriptionLedger
