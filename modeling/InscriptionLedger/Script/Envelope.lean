import InscriptionLedger.Inscription
import InscriptionLedger.Script.Token

/-!
# Envelopes

An envelope is a conditional part of a script that is never run: an empty push, the opcode that
starts the part, a push of the protocol's name, then fields and a body, then the opcode that ends
it. A field is a tag and a value; an empty tag starts the body, which is the rest of the pushes
joined.

## Main definitions

* `Envelope.collect ts`: the pushes at the front of a list of tokens, and how they end
* `Envelope.ofPushes pushes`: the inscription of an envelope's pushes
* `Envelope.scan ts`: the inscriptions of the complete envelopes among the tokens
* `Envelope.ofScript? script`: the inscriptions of a script
-/

namespace InscriptionLedger.Envelope

/-- The name of the protocol. -/
def protocolName : Bytes := [0x6F, 0x72, 0x64]

/-- The tag of the content type. -/
def contentTypeTag : Bytes := [0x01]

/-- The pushes at the front of a list of tokens: whether the end of the part follows them, and what
stands after the token that ends them. -/
def collect : List Token → List Bytes × Bool × List Token
  | [] => ([], false, [])
  | token :: rest =>
    if token = .opcode Opcode.endIf then ([], true, rest)
    else match token.pushed? with
      | none => ([], false, rest)
      | some data =>
        let (pushes, closed, tail) := collect rest
        (data :: pushes, closed, tail)

/-- Collecting consumes tokens from the front. -/
theorem collect_length_le (ts : List Token) : (collect ts).2.2.length ≤ ts.length := by
  induction ts with
  | nil => simp [collect]
  | cons t rest ih =>
    rw [collect]
    split
    · simp
    · cases t.pushed? with
      | none => simp
      | some data => exact Nat.le_succ_of_le ih

/-- The fields before the body, and the pushes of the body. A tag without a value is no field. -/
def split : List Bytes → List (Bytes × Bytes) × Option (List Bytes)
  | [] => ([], none)
  | [] :: chunks => ([], some chunks)
  -- A tag at the end has no value.
  | [_] => ([], none)
  | tag :: value :: rest =>
    let (fields, body) := split rest
    ((tag, value) :: fields, body)

/-- The inscription of an envelope's pushes: the first content type counts. -/
def ofPushes (pushes : List Bytes) : Inscription :=
  let (fields, body) := split pushes
  { body := body.map List.flatten
    contentType := (fields.find? fun field => field.1 == contentTypeTag).map Prod.snd }

/-- Whether three tokens open an envelope. -/
def opens (first second third : Token) : Bool :=
  first = .push [] && second = .opcode Opcode.startIf && third = .push protocolName

/-- The inscriptions of the complete envelopes among the tokens. After an envelope, complete or
broken off, the search goes on behind the token that ended it. -/
def scan : List Token → List Inscription
  | first :: second :: third :: inside =>
    if opens first second third then
      -- Whatever ended the part has been consumed: an opening inside it is not seen again.
      let found := collect inside
      if found.2.1 then ofPushes found.1 :: scan found.2.2 else scan found.2.2
    else scan (second :: third :: inside)
  | _ => []
termination_by ts => ts.length
decreasing_by
  · exact Nat.lt_of_le_of_lt (collect_length_le inside) (by simp; omega)
  · exact Nat.lt_of_le_of_lt (collect_length_le inside) (by simp; omega)
  · simp

/-- The inscriptions of a script. -/
def ofScript? (script : Bytes) : Except ScriptFault (List Inscription) :=
  (Script.tokens? script).map scan

end InscriptionLedger.Envelope
