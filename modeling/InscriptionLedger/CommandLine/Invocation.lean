import InscriptionLedger.CommandLine.Arguments
import InscriptionLedger.View.Listing

/-!
# Invocations

An invocation is a command with the options that hold for every command.

## Main definitions

* `Query`, `Command`, `Invocation`: what is asked for
* `Invocation.read`: the invocation of arguments
-/

namespace InscriptionLedger.CommandLine

/-- What is asked of the index. Texts that name inscriptions and blocks are read when the query is
answered. A range can lack its end, and a number that was given can lack its value. -/
inductive Query
  | inscription (id : String)
  | inscriptionNumber (number : Int)
  | inscriptions (start : Int) (stop : Option Int)
  | latestInscription
  | blockInscriptions (block : String) (start count : Option (Option Int))
  | blockInscriptionCount (block : String)
  | blockOutputs (block : String)
  | blockInscriptionIds (block : String) (limit : Option Int) (isGrouped : Bool)
  | latestBlock
  | latestBlockHeight
  deriving DecidableEq, Repr

/-- What is asked for: something of the index, or the pending inscriptions. -/
inductive Command
  | query (q : Query)
  | mempool (inscription : Option String)
  deriving DecidableEq, Repr

/-- A command with the options that hold for every command. Those that are settings may have been
given without a value. -/
structure Invocation where
  config : Option String
  indexPath : Option (Option String)
  chain : Option (Option String)
  ownerKey : Option (Option String)
  isOffline : Bool
  command : Command
  deriving DecidableEq, Repr

/-- The grammars of the commands by their names. -/
def commandGrammars : List (String × Grammar) :=
  [("inscription", { positionals := [.text] }),
    ("inscription-number", { positionals := [.integer] }),
    ("inscriptions", { positionals := [.integer, .integer] }),
    ("latest-inscription", {}),
    ("block-inscriptions",
      { options := [⟨"--start", some .integer⟩, ⟨"--count", some .integer⟩]
        positionals := [.text] }),
    ("block-inscription-count", { positionals := [.text] }),
    ("block-outputs", { positionals := [.text] }),
    ("block-inscription-ids",
      { options := [⟨"--limit", some .integer⟩, ⟨"--by-transaction", none⟩]
        positionals := [.text] }),
    ("latest-block", {}),
    ("latest-block-height", {}),
    ("mempool", { options := [⟨"--inscription", some .text⟩] })]

/-- The grammar of an invocation. -/
def invocationGrammar : Grammar where
  options := [⟨"--config", some .text⟩, ⟨"--index-path", some .text⟩, ⟨"--chain", some .text⟩,
    ⟨"--original-owner-key", some (.oneOf [OwnerKey.vout.text, OwnerKey.offset.text])⟩,
    ⟨"--no-rpc-fallback", none⟩]
  positionals := [.oneOf (commandGrammars.map Prod.fst)]
  hasCommand := true

/-- An option that was given, with its value if it has one. -/
def Values.option? (v : Values) (name : String) : Option (Option String) :=
  Keyed.get? v.options name

/-- An option that was given, with the number that is its value. -/
def Values.integer? (v : Values) (name : String) : Option (Option Int) :=
  (v.option? name).map fun value => value.bind Numeral.read?

/-- The query of a name with the values of its arguments. -/
def Query.of? (name : String) (v : Values) : Option Query :=
  match name, v.positionals with
  | "inscription", [id] => some (inscription id)
  | "inscription-number", [number] => do return inscriptionNumber (← Numeral.read? number)
  | "inscriptions", [start, stop] => do
    return inscriptions (← Numeral.read? start) (Numeral.read? stop)
  | "latest-inscription", [] => some latestInscription
  | "block-inscriptions", [block] =>
    some (blockInscriptions block (v.integer? "--start") (v.integer? "--count"))
  | "block-inscription-count", [block] => some (blockInscriptionCount block)
  | "block-outputs", [block] => some (blockOutputs block)
  | "block-inscription-ids", [block] =>
    some (blockInscriptionIds block ((v.integer? "--limit").getD (some Viewer.defaultLimit))
      (v.option? "--by-transaction").isSome)
  | "latest-block", [] => some latestBlock
  | "latest-block-height", [] => some latestBlockHeight
  | _, _ => none

/-- The command of a name with the values of its arguments. -/
def Command.of? (name : String) (v : Values) : Option Command :=
  if name = "mempool" then some (mempool (v.option? "--inscription").join)
  else (Query.of? name v).map query

/-- The invocation of the values of arguments and of those behind the command. -/
def Invocation.of? (top : Values) (name : String) (v : Values) : Option Invocation := do
  return {
    config := (top.option? "--config").join
    indexPath := top.option? "--index-path"
    chain := top.option? "--chain"
    ownerKey := top.option? "--original-owner-key"
    isOffline := (top.option? "--no-rpc-fallback").isSome
    command := ← Command.of? name v }

/-- The invocation of arguments. -/
def Invocation.read (arguments : List String) : Except Stop Invocation := do
  let top ← invocationGrammar.read arguments
  let name := top.positionals.headD ""
  let v ← ((Keyed.get? commandGrammars name).getD {}).read top.rest
  if top.hasExtras || v.hasExtras then throw .usage
  else match of? top name v with
    | some invocation => return invocation
    | none => throw .usage

end InscriptionLedger.CommandLine
