import InscriptionLedger.Text.Split
import InscriptionLedger.Transaction.FromNode

/-!
# The node

A node answers calls by name and parameters. An answer is a status and a body, which should be an
object with a result or an error; a node may also be out of reach. A status may refuse the call, but
an error in the body explains more. Which statuses refuse, and which body a reply holds, is left to
what transports the calls; a body is a document, so that its integers can be written.

## Main definitions

* `Call`, `Response`, `Node`: a call, an answer, and what answers
* `Response.result`: the result in an answer, or why there is none
* `Node.pending`, `Node.transaction`: the calls that views are made from
* `NodeFault.hint?`: advice on errors that are common
-/

namespace InscriptionLedger

/-- A call of a node. -/
structure Call where
  method : String
  params : Json := .list []
  deriving Repr

/-- An answer: none, or what is transported of a reply: its status, whether that refuses the call,
and the body, if it is a document. -/
inductive Response
  | unreachable
  | reply (status : Int) (isRefused : Bool) (body : Option Json.Document)
  deriving Repr

/-- What answers calls. -/
abbrev Node := Call → Response

/-- The call with parameters, if any are present; they are sent as a text. -/
def Call.of? (method : String) (params : Json) : Outcome Call := do
  requireWritable params.isShort
  return ⟨method, if params.isTruthy then params else .list []⟩

namespace Response

/-- Why a reply without a document came. -/
def faultOf (status : Int) (isRefused : Bool) : TransportFault :=
  if status = 401 then .unauthorized
  else if isRefused then .refused status
  else .malformed

/-- The failure that an error in a body tells of. -/
def failureOf (error : Json) : Failure :=
  match error with
  | .object members =>
    .node (.error (Json.memberOr members "code" (.integer (-1)))
      (Json.memberOr members "message" (.text "unknown")))
  | _ => .wrongType

/-- The result in a body. -/
def resultOf (status : Int) (isRefused : Bool) (members : List (String × Json)) : Outcome Json :=
  let error := Json.member members "error"
  if error.isTruthy then .error (failureOf error)
  else if isRefused then .error (.node (.transport (.unexplained status)))
  else .ok (Json.member members "result")

/-- The result in an answer, or why there is none. -/
def result : Response → Outcome Json
  | unreachable => .error (.node (.transport .unreachable))
  | reply status isRefused none => .error (.node (.transport (faultOf status isRefused)))
  | reply status isRefused (some body) =>
    match body.value with
    | .object members => resultOf status isRefused members
    | _ => .error (.node (.transport .unexpected))

end Response

namespace Node

/-- The result of a call. -/
def call (node : Node) (c : Call) : Outcome Json := (node c).result

/-- The call that lists the pending transactions. -/
def pendingCall : Call := ⟨"getrawmempool", .list []⟩

/-- The call that asks for a transaction. -/
def transactionCall (txid : TransactionId) (verbosity : Int) : Call :=
  ⟨"getrawtransaction", .list [txid.value, .integer verbosity]⟩

/-- The ids of the pending transactions, which are parts of a document. -/
def pending (node : Node) : Outcome (List String) := do
  return (← (← node.call pendingCall).toPartsIfPresent).map Json.shown

/-- The transaction of an id. -/
def transaction (node : Node) (txid : TransactionId) : Outcome Transaction := do
  match ← node.call (transactionCall txid 1) with
  | .object members => Transaction.ofNode? (.object members)
  | _ => throw (.node (.transport (.notTransaction txid)))

end Node

/-! ## Advice -/

/-- What a node says of a transaction that it does not know. -/
def unknownTransaction : String := "No such mempool or blockchain transaction"

/-- Whether a code is a number. -/
def isCode (n : Int) : Json → Bool
  | .integer value => value == n
  | .double value => value.integer? == some n
  | _ => false

/-- Whether a text occurs in a value: in a text, among the items of a list or among the names of an
object's members. -/
def occursInJson (part : String) : Json → Outcome Bool
  | .text value => .ok (Text.occursIn part.toList value.toList)
  | .list items => .ok (items.any fun
    | .text item => item == part
    | _ => false)
  | .object members => .ok (members.any fun m => m.1 == part)
  | _ => .error .wrongType

/-- Advice on an error of a node, by its code and its message. -/
def adviceOn (code message : Json) : Outcome (Option String) :=
  if isCode (-5) code then do
    if ← occursInJson unknownTransaction message then
      return some ("The node does not know this transaction. It may have left the mempool, or the "
        ++ "node needs -txindex=1 to serve confirmed transactions that do not touch its wallet.")
    else return none
  else if isCode (-28) code then
    .ok (some ("The node is still warming up (loading blocks or verifying the chain). "
      ++ "Retry shortly."))
  else if isCode (-32601) code then
    .ok (some "The node does not support this RPC method; check the Bitcoin Core version.")
  else .ok none

/-- Advice on the error that an object tells of. -/
def adviceOnObject (members : List (String × Json)) : Outcome (Option String) := do
  let message ← (Json.memberOr members "message" (.text "")).show?
  adviceOn (Json.member members "code") (.text message)

/-- Advice on a fault. -/
def NodeFault.hint? : NodeFault → Outcome (Option String)
  | error code message => adviceOn code message
  | transport _ => .ok none

end InscriptionLedger
