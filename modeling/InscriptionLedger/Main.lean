import InscriptionLedger.CommandLine.Run
import InscriptionLedger.Index.Journal

/-!
# The program

The arguments, the environment and the files are read, the command is run, and its report is
printed. The settings are read from a file of JSON, the index from a journal. Nodes are out of
reach.
-/

namespace InscriptionLedger.CommandLine

/-- The variables of the environment that count. -/
def variableNames : List String :=
  ["ORDVIEW_CHAIN", "ORDVIEW_INDEX_PATH", "ORDVIEW_ORIGINAL_OWNER_KEY"] ++
    (["BTC_RPC_", "ORDVIEW_RPC_"].flatMap fun start =>
      ["USER", "PASSWORD", "HOST", "PORT", "USE_HTTPS", "TIMEOUT", "ENDPOINT", "URL"].map
        (start ++ ·))

/-- The variables that are set. -/
def readEnvironment : IO (List (String × String)) :=
  variableNames.filterMapM fun name => do
    return (← IO.getEnv name).map fun value => (name, value)

/-- The text of a file, if it can be read. -/
def readText? (path : PathName) : IO (Option String) := do
  try return some (← IO.FS.readFile path.text)
  catch _ => return none

/-- The home directories of the accounts, which a file lists with six colons a line. -/
def readAccounts : IO (List (String × String)) := do
  let text := (← readText? (.read "/etc/passwd")).getD ""
  return (text.splitOn "\n").filterMap fun line =>
    match line.splitOn ":" with
    | [name, _, _, _, _, home, _] => some (name, home)
    | _ => none

/-- The surroundings with the files that an invocation asks for. -/
def surroundings (i : Invocation) : IO Surroundings := do
  let home := (← IO.getEnv "HOME").getD ""
  let inHome (names : List String) : PathName :=
    let start := PathName.read home
    { start with names := start.names ++ names }
  let bare : Surroundings := {
    homes := { own := home, accounts := ← readAccounts }
    environment := ← readEnvironment
    defaultConfig := inHome [".ordview.yaml"]
    defaultIndex := inHome [".ordview", "index.sqlite"]
    readConfig := fun _ => none
    openIndex := fun _ => none
    node := fun _ _ => .unreachable }
  let config := (i.configPath bare.homes bare.defaultConfig).toOption.getD bare.defaultConfig
  let content := (← readText? config).map fun text => (Json.read? text).getD (.text text)
  let w := { bare with readConfig := fun path => if path = config then content else none }
  let settings := (i.sources w >>= i.viewSettings).toOption
  let path := (settings.bind ViewSettings.indexPath).getD w.defaultIndex
  let index := (← readText? path).map fun text => Index.ofJournal (text.splitOn "\n")
  return { w with openIndex := fun p => if p = path then index else none }

/-- Prints a report and gives the exit status. -/
def Report.print : Report → IO UInt32
  | usage => do
    IO.eprintln ("usage: the command is one of " ++ ", ".intercalate (commandGrammars.map Prod.fst))
    return 2
  | help => do
    IO.println ("commands: " ++ ", ".intercalate (commandGrammars.map Prod.fst))
    return 0
  | printed text => do
    IO.print text
    return 0
  | failed text => do
    IO.eprint text
    return 1
  | broken failure => do
    IO.eprintln ("error: " ++ failure.message?.getD "a value cannot be read")
    return 1

/-- Runs a command and gives the exit status. -/
def program (arguments : List String) : IO UInt32 := do
  match Invocation.read arguments with
  | .error .usage => Report.usage.print
  | .error .help => Report.help.print
  | .ok invocation => (run (← surroundings invocation) arguments).print

end InscriptionLedger.CommandLine

/-- Runs a command. -/
def main (arguments : List String) : IO UInt32 := InscriptionLedger.CommandLine.program arguments
