import InscriptionLedger.Json.Typed
import InscriptionLedger.Settings.PathName

/-!
# Sources of settings

A setting is taken from the overrides, from the environment or from a section of a file, in that
order, and else has a default. The file may be missing unless it was asked for.

## Main definitions

* `Sources`: the overrides, the environment and the file
* `Sources.members?`: the members of a section of the file
* `firstGiven`: the first value that is given
* `Sources.override`, `Sources.ofEnvironment`, `Sources.nodeVariable`: values of the other sources
-/

namespace InscriptionLedger

/-- Where settings come from. The content of the file is absent if there is no such file. -/
structure Sources where
  path : PathName
  isRequired : Bool := false
  content : Option Json := none
  environment : List (String × String) := []
  overrides : List (String × Json) := []
  homes : Homes := {}
  deriving Repr

/-- The first value that is given; null is none. -/
def firstGiven : List Json → Json
  | [] => .null
  | .null :: rest => firstGiven rest
  | value :: _ => value

namespace Sources

/-- The members of the file; one that holds nothing has none. -/
def fileMembers? (s : Sources) : Outcome (List (String × Json)) :=
  match s.content with
  | none => if s.isRequired then .error (.settings (.fileMissing s.path.text)) else .ok []
  | some content =>
    if content.isTruthy then
      match content with
      | .object members => .ok members
      | _ => .error (.settings (.fileShape s.path.text))
    else .ok []

/-- The members of a section of the file. -/
def members? (s : Sources) (name : String) : Outcome (List (String × Json)) := do
  match Json.member (← s.fileMembers?) name with
  | .null => return []
  | .object members => return members
  | _ => throw (.settings (.sectionShape name s.path.text))

/-- The value of an override. -/
def override (s : Sources) (name : String) : Json := Json.member s.overrides name

/-- The value of a variable. -/
def ofEnvironment (s : Sources) (name : String) : Json :=
  Json.ofOption .text (Keyed.get? s.environment name)

/-- The first value that counts as present, or else the second. -/
def presentOr (first second : Json) : Json := if first.isTruthy then first else second

/-- The value of a variable that tells of the node, under one of two names. -/
def nodeVariable (s : Sources) (name : String) : Json :=
  presentOr (s.ofEnvironment ("BTC_RPC_" ++ name)) (s.ofEnvironment ("ORDVIEW_RPC_" ++ name))

end Sources

end InscriptionLedger
