import InscriptionLedger.Identifier.Basic
import InscriptionLedger.Json.Basic

/-!
# Failures

Every operation that can fail answers with the cause of its failure. The causes fall into families:
something asked for is unknown, a request is unreasonable, the index or the node does not answer, a
setting or an argument is wrong, a value cannot be read.

## Main definitions

* `Failure`: the causes
* `Failure.message?`: the wording of a cause that has one
* `Failure.isViewFault`, `Failure.isNodeFault`, `Failure.isValueFault`: the families that callers
  treat alike
* `requireWritable`, `Json.show?`: what is written into a text must not hold an integer that is too
  long
-/

namespace InscriptionLedger

/-- Something that was asked for and is not known. -/
inductive Entity
  | inscription (id : InscriptionId)
  | currentOutput (id : InscriptionId)
  | inscriptionNumber (number : Int)
  | latestInscription
  | block (ref : BlockRef)
  | tip
  | latestBlock
  deriving DecidableEq, Repr

/-- The text of something that is not known. -/
def Entity.text : Entity → String
  | inscription id => "inscription " ++ id.text
  | currentOutput id => "inscription " ++ id.text ++ " current transaction output"
  | inscriptionNumber number => "inscription number " ++ Numeral.write number
  | latestInscription => "latest inscription"
  | block ref => "block " ++ ref.text
  | tip => "block None"
  | latestBlock => "latest block"

/-- Why a request is unreasonable. -/
inductive RequestFault
  | reversedRange
  | negativeWindow
  | windowOutside (start stop : Int) (available : Nat) (block : BlockRef)
  | negativeLimit
  deriving DecidableEq, Repr

/-- The wording of the fault. -/
def RequestFault.message : RequestFault → String
  | reversedRange => "range start greater than range end"
  | negativeWindow => "pagination start and count must be non-negative"
  | windowOutside start stop available block =>
    "page " ++ Numeral.write start ++ ".." ++ Numeral.write stop ++ " is outside the "
      ++ Numeral.write available ++ " inscriptions in block " ++ block.text
  | negativeLimit => "limit must be non-negative"

/-- Why the index does not answer. -/
inductive LookupFault
  | closed
  | unstorable (value : Json)
  | unreadableNumber (number : Int)
  | unreadableTransaction (txid : TransactionId)
  deriving DecidableEq, Repr

/-- The wording of the fault. -/
def LookupFault.message : LookupFault → String
  | closed => "Index query failed: Cannot operate on a closed database."
  | unstorable (.list _) =>
    "Index query failed: Error binding parameter 1: type 'list' is not supported"
  | unstorable _ =>
    "Index query failed: Error binding parameter 1: type 'dict' is not supported"
  | unreadableNumber number => "number " ++ Numeral.write number ++ " unreadable"
  | unreadableTransaction txid => "transaction " ++ txid.text ++ " unreadable"

/-- Why no answer of the node could be understood. -/
inductive TransportFault
  | unreachable
  | unauthorized
  | refused (status : Int)
  | malformed
  | unexpected
  | unexplained (status : Int)
  | notTransaction (txid : TransactionId)
  deriving DecidableEq, Repr

/-- The wording of the fault. -/
def TransportFault.message : TransportFault → String
  | unreachable =>
    "RPC connection failed. Ensure your Bitcoin node is reachable, authentication is valid, "
      ++ "and BTC_RPC_* variables (or ~/.ordview.yaml) point to the right host and port."
  | unauthorized =>
    "Unauthorized (401). Ensure BTC_RPC_USER/BTC_RPC_PASSWORD (or your .ordview.yaml) "
      ++ "contain valid credentials."
  | refused _ =>
    "RPC server returned an HTTP error; check the URL, authentication, and BTC_RPC_* settings."
  | malformed => "RPC server returned malformed JSON"
  | unexpected => "RPC server returned an unexpected payload"
  | unexplained status => "RPC server returned HTTP " ++ Numeral.write status
  | notTransaction txid => "Node returned a non-object transaction for " ++ txid.text

/-- The HTTP status that a fault reports. -/
def TransportFault.status? : TransportFault → Option Int
  | unauthorized => some 401
  | refused status => some status
  | unexplained status => some status
  | _ => none

/-- Why a call of the node failed: the node answered with an error, or no answer arrived. The code
and the message of an error are parts of a document, so that they can be written. -/
inductive NodeFault
  | error (code message : Json)
  | transport (fault : TransportFault)
  deriving Repr

/-- The wording of the fault. -/
def NodeFault.message : NodeFault → String
  | error code message => "RPC error " ++ code.shown ++ ": " ++ message.shown
  | transport fault => fault.message

/-- Why the settings are wrong. -/
inductive SettingsFault
  | fileMissing (path : String)
  | fileShape (path : String)
  | sectionShape (name path : String)
  | port (source text : String)
  | endpoint (text : String)
  | credentials
  | timeout (text : String)
  | chain (text : String)
  | unwritableChain
  | ownerKey (text : String)
  deriving DecidableEq, Repr

/-- The wording of the fault. -/
def SettingsFault.message : SettingsFault → String
  | fileMissing path => "Config file not found: " ++ path
  | fileShape path =>
    "Expected " ++ path ++ " to contain a YAML object with 'rpc'/'view' sections"
  | sectionShape name path => "Expected '" ++ name ++ "' to be a mapping in " ++ path
  | port source text => "Invalid port in " ++ source ++ ": " ++ text
  | endpoint text => "Invalid RPC endpoint URL: " ++ text
  | credentials =>
    "RPC credentials must be provided via BTC_RPC_* environment variables or a config file"
  | timeout text => "Invalid RPC timeout: " ++ text
  | chain text => "Unknown chain: " ++ text
  | unwritableChain =>
    "Exceeds the limit (4300 digits) for integer string conversion; "
      ++ "use sys.set_int_max_str_digits() to increase the limit"
  | ownerKey text => "original_owner_key must be one of vout, offset; got " ++ text

/-- Why the arguments of a command are wrong. -/
inductive UsageFault
  | blockRef (text : String)
  | inscriptionId (text : String)
  | halfWindow
  | indexMissing (path : String)
  deriving DecidableEq, Repr

/-- The wording of the fault. -/
def UsageFault.message : UsageFault → String
  | blockRef text => "expected a block height or 64-character hex hash, got: " ++ text
  | inscriptionId text => "Invalid inscription id: " ++ text
  | halfWindow => "--start and --count must be given together"
  | indexMissing path =>
    "confirmed index not found at " ++ path ++ "; pass --index-path or set ORDVIEW_INDEX_PATH"

/-- Why a value is wrong; `unreadable` stands for texts of numbers, bytes and addresses, and
`unwritable` for integers that are too long to be written. These have no wording of their own. -/
inductive ValueFault
  | inscriptionId (text : String)
  | outPoint (text : String)
  | satPoint (text : String)
  | missingTxid
  | satRange (number : Int)
  | chain (text : String)
  | missingHeight
  | ownerKey (text : String)
  | unreadable
  | unwritable
  deriving DecidableEq, Repr

/-- The wording of the fault. -/
def ValueFault.message? : ValueFault → Option String
  | inscriptionId text => some ("Invalid inscription id: " ++ text)
  | outPoint text => some ("Invalid outpoint: " ++ text)
  | satPoint text => some ("Invalid satpoint: " ++ text)
  | missingTxid => some "Transaction JSON is missing a txid"
  | satRange number => some ("Sat number out of range: " ++ Numeral.write number)
  | chain text => some ("Unknown chain: " ++ text)
  | missingHeight => some "Blocks stored in the index need a height"
  | ownerKey text => some ("Unsupported original owner key: " ++ text)
  | unreadable | unwritable => none

/-- The cause of a failure. The last ten have no wording: a text is no decimal, a decimal is beyond
the range of decimals, a magnitude is beyond what can hold it, a required column is empty, a value
cannot be put into a column, an index that is written to is closed, a symbol is outside the
alphabet, a required member is missing, a path starts at the home of an unknown account, a value has
the wrong type. -/
inductive Failure
  | notFound (entity : Entity)
  | badRequest (fault : RequestFault)
  | unavailable (fault : NodeFault)
  | lookup (fault : LookupFault)
  | settings (fault : SettingsFault)
  | usage (fault : UsageFault)
  | node (fault : NodeFault)
  | value (fault : ValueFault)
  | decimalText
  | decimalRange
  | magnitude
  | emptyColumn
  | unstorable
  | closedStore
  | symbol
  | missingMember
  | unknownAccount
  | wrongType
  deriving Repr

/-- The result of an operation that can fail. -/
abbrev Outcome (α : Type) := Except Failure α

namespace Failure

/-- The wording of a cause that has one. -/
def message? : Failure → Option String
  | notFound entity => some (entity.text ++ " not found")
  | badRequest fault => some fault.message
  | unavailable fault => some ("Could not list mempool transactions: " ++ fault.message)
  | lookup fault => some fault.message
  | settings fault => some fault.message
  | usage fault => some fault.message
  | node fault => some fault.message
  | value fault => fault.message?
  | _ => none

/-- Failures to make a view: what was asked for is unknown, the request is unreasonable, or the
index or the node does not answer. -/
def isViewFault : Failure → Bool
  | notFound _ | badRequest _ | unavailable _ | lookup _ => true
  | _ => false

/-- Failures of a call to the node. -/
def isNodeFault : Failure → Bool
  | node _ => true
  | _ => false

/-- Failures of reading a value. -/
def isValueFault : Failure → Bool
  | value _ => true
  | _ => false

/-- The failure of reading a text that has no wording of its own. -/
def unreadable : Failure := value .unreadable

/-- The failure of writing an integer that is too long. -/
def unwritable : Failure := value .unwritable

end Failure

/-! ## What is written into texts -/

/-- What is written into a text must be writable. -/
def requireWritable (isWritable : Bool) : Outcome Unit :=
  if isWritable then .ok () else .error .unwritable

/-- The text of a value in messages, if all its integers can be written. -/
def Json.show? (value : Json) : Outcome String := do
  requireWritable value.isShort
  return value.shown

@[simp] theorem requireWritable_true : requireWritable true = .ok () := rfl

@[simp] theorem requireWritable_false : requireWritable false = .error .unwritable := rfl

theorem requireWritable_eq_ok_iff {b : Bool} {u : Unit} : requireWritable b = .ok u ↔ b = true := by
  cases b <;> simp

theorem Json.show?_eq_ite (value : Json) :
    value.show? = if value.isShort then .ok value.shown else .error .unwritable := by
  unfold show?
  cases value.isShort <;> rfl

@[simp] theorem Json.show?_text (s : String) : (Json.text s).show? = .ok s := rfl

end InscriptionLedger
