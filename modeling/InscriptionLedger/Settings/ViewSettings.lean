import InscriptionLedger.Address.Network
import InscriptionLedger.Settings.Sources
import InscriptionLedger.View.Basic

/-!
# Settings of views

What views are made for: the network, the place of the index, and the selection of the first
owner.

## Main definitions

* `ViewSettings`, `ViewSettings.load?`: the settings, and where they come from
-/

namespace InscriptionLedger

/-- What views are made for. -/
structure ViewSettings where
  network : Network := .mainnet
  indexPath : Option PathName := none
  ownerKey : OwnerKey := .vout
  deriving DecidableEq, Repr

namespace ViewSettings

/-- The network that a value names. If a value cannot be written, that is a fault of the settings
too. -/
def network? (raw : Json) : Outcome Network :=
  match raw.show? with
  | .ok name =>
    match Network.read? name with
    | .ok network => .ok network
    | .error _ => .error (.settings (.chain name))
  | .error _ => .error (.settings .unwritableChain)

/-- The path that a value gives; one that does not count as present gives none. -/
def path? (homes : Homes) (raw : Json) : Outcome (Option PathName) :=
  if raw.isTruthy then do
    return some (← (PathName.read (← raw.toText)).expandHome homes)
  else .ok none

/-- The selection that a value names, in any case. -/
def ownerKey? (raw : Json) : Outcome OwnerKey := do
  let name := Text.lower (← raw.show?)
  match OwnerKey.ofName? name with
  | some key => return key
  | none => throw (.settings (.ownerKey name))

/-- The value of a setting by its name in the overrides and the file, and its variable. -/
def given (s : Sources) (file : List (String × Json)) (name variableName : String)
    (default : Json) : Json :=
  firstGiven [s.override name, s.ofEnvironment variableName, Json.member file name, default]

/-- The settings of the sources. -/
def load? (s : Sources) : Outcome ViewSettings := do
  let file ← s.members? "view"
  let network ← network? (given s file "chain" "ORDVIEW_CHAIN" (.text "mainnet"))
  let indexPath ← path? s.homes (given s file "index_path" "ORDVIEW_INDEX_PATH" .null)
  let ownerKey ←
    ownerKey? (given s file "original_owner_key" "ORDVIEW_ORIGINAL_OWNER_KEY" (.text "vout"))
  return { network, indexPath, ownerKey }

end ViewSettings

end InscriptionLedger
