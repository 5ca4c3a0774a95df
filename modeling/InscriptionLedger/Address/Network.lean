import InscriptionLedger.Failure
import InscriptionLedger.Text.Lower

/-!
# Networks

The networks on which addresses exist. They differ in the human-readable part of addresses of
witness programs and in the version bytes of the other addresses; all networks for tests share the
latter.

## Main definitions

* `Network`, `Network.text`, `Network.read?`
* `Network.hrp`, `Network.publicKeyHashVersion`, `Network.scriptHashVersion`
-/

namespace InscriptionLedger

/-- A network. -/
inductive Network
  | mainnet
  | testnet
  | signet
  | regtest
  deriving DecidableEq, Repr

namespace Network

/-- The name of a network. -/
def text : Network → String
  | mainnet => "mainnet"
  | testnet => "testnet"
  | signet => "signet"
  | regtest => "regtest"

/-- The network of a name in lower case; some have short names. -/
def ofName? : String → Option Network
  | "mainnet" | "main" | "bitcoin" => some mainnet
  | "testnet" | "test" => some testnet
  | "signet" => some signet
  | "regtest" => some regtest
  | _ => none

/-- The network that a text names, in any case and with blanks around it. -/
def read? (s : String) : Outcome Network :=
  match ofName? (Text.lower (Text.trim s)) with
  | some network => .ok network
  | none => .error (.value (.chain s))

/-- The human-readable part of addresses of witness programs. -/
def hrp : Network → String
  | mainnet => "bc"
  | testnet | signet => "tb"
  | regtest => "bcrt"

/-- The version byte of addresses of public key hashes. -/
def publicKeyHashVersion : Network → UInt8
  | mainnet => 0x00
  | _ => 0x6F

/-- The version byte of addresses of script hashes. -/
def scriptHashVersion : Network → UInt8
  | mainnet => 0x05
  | _ => 0xC4

end Network

end InscriptionLedger
