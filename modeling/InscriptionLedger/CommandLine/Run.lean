import InscriptionLedger.CommandLine.Invocation
import InscriptionLedger.Json.Writer
import InscriptionLedger.Mempool
import InscriptionLedger.Settings.NodeSettings
import InscriptionLedger.Settings.ViewSettings

/-!
# Running commands

A command is run in surroundings that hold the environment, the files and the nodes. Its answer is
printed as JSON; the failures that a user can mend are told, with advice on errors of the node.

## Main definitions

* `readBlockRef`, `readInscriptionId`: texts that name a block and an inscription
* `Surroundings`, `Query.answer`, `Invocation.answer`: what is answered, and in which surroundings
* `Report`, `run`: what is told of a run
-/

namespace InscriptionLedger.CommandLine

/-- The block that a text names: digits are a height, sixty-four hexadecimal digits a hash. -/
def readBlockRef (raw : String) : Outcome BlockRef :=
  let cs := Text.trimBy Text.isBlank raw.toList
  if cs ≠ [] ∧ cs.all Text.isDigit then
    match Numeral.readChars? cs with
    | some height => .ok (.height height)
    | none => .error .unreadable
  else if cs.length = 64 ∧ cs.all (fun c => (Hex.digitValue? c).isSome) then
    .ok (.hash (String.ofList (cs.map Char.toLower)))
  else .error (.usage (.blockRef raw))

/-- The inscription that a text names. -/
def readInscriptionId (raw : String) : Outcome InscriptionId :=
  match InscriptionId.read? raw with
  | .ok id => .ok id
  | .error _ => .error (.usage (.inscriptionId raw))

/-- What a command is run in: the environment, the files and the nodes. -/
structure Surroundings where
  homes : Homes
  environment : List (String × String)
  defaultConfig : PathName
  defaultIndex : PathName
  readConfig : PathName → Option Json
  openIndex : PathName → Option Index
  node : NodeSettings → Node

/-- The value of a setting that was given; one without a value counts as given, but not as
present. -/
def settingValue : Option String → Json
  | some s => .text s
  | none => .list []

/-- The members that are given. -/
def givenMembers (members : List (String × Option (Option String))) : List (String × Json) :=
  members.filterMap fun (name, given) => given.map fun value => (name, settingValue value)

namespace Invocation

/-- The settings among the options. -/
def overrides (i : Invocation) : List (String × Json) :=
  givenMembers [("chain", i.chain), ("index_path", i.indexPath), ("original_owner_key", i.ownerKey)]

/-- The path of the settings; an empty one is none. -/
def configPath (homes : Homes) (default : PathName) (i : Invocation) : Outcome PathName :=
  match i.config with
  | none | some "" => .ok default
  | some given => (PathName.read given).expandHome homes

/-- The sources of settings of an invocation, without overrides. -/
def sources (w : Surroundings) (i : Invocation) : Outcome Sources := do
  let path ← i.configPath w.homes w.defaultConfig
  return {
    path
    isRequired := i.config.getD "" != ""
    content := w.readConfig path
    environment := w.environment
    homes := w.homes }

/-- The settings of views for an invocation. -/
def viewSettings (i : Invocation) (s : Sources) : Outcome ViewSettings :=
  ViewSettings.load? { s with overrides := i.overrides }

/-- The node of an invocation, unless it is offline or the settings of the node are wrong. -/
def node? (w : Surroundings) (i : Invocation) (s : Sources) : Outcome (Option Node) :=
  if i.isOffline then .ok none
  else match NodeSettings.load? s with
    | .ok settings => .ok (some (w.node settings))
    | .error (.settings _) => .ok none
    | .error f => .error f

/-- What views are made from: the settings are read first, then the index is opened. -/
def viewer (w : Surroundings) (i : Invocation) (s : Sources) : Outcome Viewer := do
  let settings ← i.viewSettings s
  let path := settings.indexPath.getD w.defaultIndex
  match w.openIndex path with
  | none => throw (.usage (.indexMissing path.text))
  | some index =>
    return {
      index
      network := settings.network
      ownerKey := settings.ownerKey
      node? := ← i.node? w s }

end Invocation

/-- The views of a page of a block. A negative start is told before a count without a value. -/
def pageViews (viewer : Viewer) (ref : BlockRef) :
    Option Int → Option Int → Outcome (List InscriptionView)
  | some start, some count => viewer.pageOfBlock ref start count
  | some start, none =>
    if start < 0 then .error (.badRequest .negativeWindow) else .error .wrongType
  | none, _ => .error .wrongType

/-- The views of a block, all of them or a page. -/
def blockViews (viewer : Viewer) (ref : BlockRef) (start count : Option (Option Int)) :
    Outcome (List InscriptionView) :=
  match start, count with
  | none, none => viewer.viewsOfBlock ref
  | some start, some count => pageViews viewer ref start count
  | _, _ => .error (.usage .halfWindow)

/-- The members of an inscription of a block. -/
def idToJson (id : InscriptionId) : Json :=
  .object [("inscription_id", .text id.text), ("transaction_id", id.txid.value)]

/-- The inscriptions of a block, grouped or not; the limit must have a value. -/
def blockIds (viewer : Viewer) (ref : BlockRef) (limit : Option Int) (isGrouped : Bool) :
    Outcome Json :=
  match limit with
  | none => .error .wrongType
  | some limit =>
    if isGrouped then (viewer.groupsOfBlock ref limit).map Viewer.groupsToJson
    else do return .list ((← viewer.idsOfBlock ref limit).map idToJson)

/-- The pending inscriptions, or one of them; an empty text names none. -/
def pendingViews (snapshot : Snapshot) (inscription : Option String) : Outcome Json :=
  match inscription with
  | none | some "" => .ok (.list (snapshot.views.map LightView.toJson))
  | some raw => do return (← snapshot.view (← readInscriptionId raw)).toJson

/-- The answer of a query. -/
def Query.answer (viewer : Viewer) : Query → Outcome Json
  | inscription raw => do return (← viewer.view (← readInscriptionId raw)).toJson
  | inscriptionNumber number => (viewer.viewOfNumber number).map InscriptionView.toJson
  | inscriptions start (some stop) => do
    return .list ((← viewer.viewsOfRange start stop).map InscriptionView.toJson)
  | inscriptions _ none => .error .wrongType
  | latestInscription => viewer.latestView.map InscriptionView.toJson
  | blockInscriptions raw start count => do
    return .list ((← blockViews viewer (← readBlockRef raw) start count).map InscriptionView.toJson)
  | blockInscriptionCount raw => do
    return .integer (← viewer.countOfBlock (← readBlockRef raw))
  | blockOutputs raw => do
    return .list ((← viewer.outputsOfBlock (← readBlockRef raw)).map OutputView.toJson)
  | blockInscriptionIds raw limit isGrouped => do
    blockIds viewer (← readBlockRef raw) limit isGrouped
  | latestBlock => do (← viewer.latestBlock).toJson?
  | latestBlockHeight => viewer.latestHeight.map Json.integer

/-- The answer of an invocation. -/
def Invocation.answer (w : Surroundings) (i : Invocation) : Outcome Json := do
  let s ← i.sources w
  match i.command with
  | .mempool inscription =>
    let settings ← NodeSettings.load? s
    pendingViews (← Snapshot.update {} (w.node settings)) inscription
  | .query q => q.answer (← i.viewer w s)

/-! ## Reports -/

/-- What is told of a run. -/
inductive Report
  | usage
  | help
  | printed (text : String)
  | failed (text : String)
  | broken (failure : Failure)
  deriving Repr

/-- Whether a user can mend a failure. -/
def isTold : Failure → Bool
  | .usage _ | .settings _ => true
  | f => f.isViewFault || f.isNodeFault

/-- Advice on the fault of the node behind a failure. -/
def hintOn : Failure → Outcome (Option String)
  | .node fault | .unavailable fault => fault.hint?
  | _ => .ok none

/-- The text that tells of a failure. -/
def failureText (f : Failure) (hint : Option String) : String :=
  "error: " ++ f.message?.getD "" ++ (hint.map ("\nHint: " ++ ·)).getD "" ++ "\n"

/-- What is told of a failure. -/
def Report.ofFailure (f : Failure) : Report :=
  if isTold f then
    match hintOn f with
    | .ok hint => .failed (failureText f hint)
    | .error g => .broken g
  else .broken f

/-- The run of arguments. -/
def run (w : Surroundings) (arguments : List String) : Report :=
  match Invocation.read arguments with
  | .error .usage => .usage
  | .error .help => .help
  | .ok invocation =>
    match invocation.answer w with
    | .ok value =>
      match value.indented? with
      | .ok text => .printed (text ++ "\n")
      | .error f => .broken f
    | .error f => .ofFailure f

end InscriptionLedger.CommandLine
