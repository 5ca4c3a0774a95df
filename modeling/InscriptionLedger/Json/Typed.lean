import InscriptionLedger.Decimal.Binary64
import InscriptionLedger.Failure

/-!
# Typed contents of JSON values

A value is read as an integer, a floating-point number, bytes, a text, an object or a sequence. A
value of the wrong type is told apart from one of a right type that cannot be read.

## Main definitions

* `Json.toInt`, `Json.toBinary64`: the numbers, booleans and numerals
* `Json.toBytes`, `Json.toText`, `Json.toMembers`, `Json.toParts`: the other contents
* `Json.required`: a member that must be present
-/

namespace InscriptionLedger.Json

/-- The integer of a value: a fraction is dropped, a text is read as a numeral. -/
def toInt : Json → Outcome Int
  | integer value => .ok value
  | bool value => .ok (if value then 1 else 0)
  | double (.finite negative significand exponent) =>
    .ok (Binary64.truncate negative significand exponent)
  | double (.infinity _) => .error .magnitude
  | double .undefined => .error .unreadable
  | text value =>
    match Numeral.read? value with
    | some n => .ok n
    | none => .error .unreadable
  | _ => .error .wrongType

/-- The floating-point number of a value; an integer must not be beyond the range. -/
def toBinary64 : Json → Outcome Binary64
  | double value => .ok value
  | bool value => .ok (.ofInt (if value then 1 else 0))
  | integer value =>
    match Binary64.ofInt value with
    | .infinity _ => .error .magnitude
    | x => .ok x
  | text value =>
    match Binary64.read? value with
    | some x => .ok x
    | none => .error .unreadable
  | _ => .error .wrongType

/-- The bytes of a hexadecimal text. -/
def toBytes : Json → Outcome Bytes
  | text value =>
    match Hex.read? value with
    | some bytes => .ok bytes
    | none => .error .unreadable
  | _ => .error .wrongType

/-- The text of a value that must be a text. -/
def toText : Json → Outcome String
  | text value => .ok value
  | _ => .error .wrongType

/-- The members of a value that must be an object. -/
def toMembers : Json → Outcome (List (String × Json))
  | object members => .ok members
  | _ => .error .wrongType

/-- The parts of a value that must be compound. -/
def toParts (value : Json) : Outcome (List Json) :=
  match value.parts? with
  | some parts => .ok parts
  | none => .error .wrongType

/-- The parts of a value; one that does not count as present has none. -/
def toPartsIfPresent (value : Json) : Outcome (List Json) :=
  if value.isTruthy then value.toParts else .ok []

/-- The value of a member that must be present. -/
def required (members : List (String × Json)) (name : String) : Outcome Json :=
  match Keyed.get? members name with
  | some value => .ok value
  | none => .error .missingMember

/-- The value of a member, or another value where there is none. -/
def memberOr (members : List (String × Json)) (name : String) (otherwise : Json) : Json :=
  (Keyed.get? members name).getD otherwise

/-- A JSON value for what may be absent. -/
def ofOption {α : Type} (f : α → Json) : Option α → Json
  | some a => f a
  | none => null

end InscriptionLedger.Json
