import InscriptionLedger.Keyed
import InscriptionLedger.Text.Numeral
import InscriptionLedger.Text.Split

/-!
# Arguments

Arguments are read by a grammar of options and positional arguments. An option may be shortened to a
beginning that no other option has, and its value may stand behind an equals sign. A negative number
is no option, and neither is a text with a blank in it. Behind two hyphens nothing is an option, and
two more of them in place of a later positional argument leave it without a value, as they do behind
an equals sign. A command takes all arguments behind it.

## Main definitions

* `Grammar`: the options and positional arguments
* `Grammar.classify`: what an argument is
* `Grammar.read`: the values of arguments
-/

namespace InscriptionLedger.CommandLine

open Text

/-- What a value must be. -/
inductive ValueKind
  | text
  | integer
  | oneOf (names : List String)
  deriving DecidableEq, Repr

/-- Whether a text is such a value. -/
def ValueKind.accepts (s : String) : ValueKind → Bool
  | text => true
  | integer => (Numeral.read? s).isSome
  | oneOf names => names.contains s

/-- An option, with a value or without one. -/
structure OptionForm where
  name : String
  value : Option ValueKind := none
  deriving DecidableEq, Repr

/-- The options and positional arguments. The last positional argument may be a command, which takes
all arguments behind it. -/
structure Grammar where
  options : List OptionForm := []
  positionals : List ValueKind := []
  hasCommand : Bool := false
  deriving Repr

/-- Why reading stopped: the arguments are wrong, or help was asked for. -/
inductive Stop
  | usage
  | help
  deriving DecidableEq, Repr

/-- What an option name stands for; help is asked for by its letter or by its name. -/
inductive Target
  | help (byLetter : Bool)
  | option (form : OptionForm)
  deriving DecidableEq, Repr

/-- What an argument is. -/
inductive Piece
  | separator
  | plain (text : String)
  | option (target : Target) (attached : Option String) (text : String)
  | unknownOption (text : String)
  deriving DecidableEq, Repr

/-- The argument as it was given. -/
def Piece.text : Piece → String
  | separator => "--"
  | plain s => s
  | option _ _ s => s
  | unknownOption s => s

/-- Whether a text is a negative number: a hyphen and digits, with a point at most before the
last. -/
def isNegativeNumber (cs : List Char) : Bool :=
  let isDecimal (c : Char) := (decimalValue? c).isSome
  let areDigits (ds : List Char) := ds != [] && ds.all isDecimal
  match cs with
  | '-' :: body =>
    -- One line end behind the number does not matter.
    let body := if body.getLast? == some '\n' then body.dropLast else body
    areDigits body || match splitFirst? (· == '.') body with
      | some (whole, fraction) => whole.all isDecimal && areDigits fraction
      | none => false
  | _ => false

namespace Grammar

/-- The names of the options, help among them. -/
def names (g : Grammar) : List (String × Target) :=
  ("-h", .help true) :: ("--help", .help false) ::
    g.options.map fun form => (form.name, .option form)

/-- The option of a name. -/
def named? (g : Grammar) (name : String) : Option Target :=
  (g.names.find? fun x => x.1 == name).map Prod.snd

/-- What stands before and after the first equals sign. -/
def splitValue (s : String) : String × Option String :=
  match splitFirst? (· == '=') s.toList with
  | some (name, value) => (String.ofList name, some (String.ofList value))
  | none => (s, none)

/-- The options of which a text can be the beginning, with the value attached to it. Whatever
follows the letter of help is attached to it. -/
def candidates (g : Grammar) (s : String) : List (Target × Option String) :=
  if s.startsWith "--" then
    let (name, attached) := splitValue s
    (g.names.filter fun x => name.toList.isPrefixOf x.1.toList).map fun x => (x.2, attached)
  else match s.toList with
    | '-' :: 'h' :: more => [(.help true, some (String.ofList more))]
    | _ => []

/-- What an argument that is no name of an option is. -/
def classifyOther (s : String) : Piece :=
  if isNegativeNumber s.toList || s.toList.contains ' ' then .plain s else .unknownOption s

/-- What an argument is that may be the beginning of an option; the beginning of several options is
wrong. -/
def classifyShortened (g : Grammar) (s : String) : Except Stop Piece :=
  match g.candidates s with
  | [] => .ok (classifyOther s)
  | [(target, attached)] => .ok (.option target attached s)
  | _ => .error .usage

/-- What an argument is. The whole name of an option goes before a beginning, also one with a value
attached. -/
def classify (g : Grammar) (s : String) : Except Stop Piece :=
  if !s.startsWith "-" || s == "-" then .ok (.plain s)
  else match g.named? s with
    | some target => .ok (.option target none s)
    | none =>
      match splitValue s with
      | (name, some value) =>
        match g.named? name with
        | some target => .ok (.option target (some value) s)
        | none => g.classifyShortened s
      | _ => g.classifyShortened s

/-- What the arguments are. -/
def classifyAll (g : Grammar) : List String → Except Stop (List Piece)
  | [] => .ok []
  | "--" :: rest => .ok (.separator :: rest.map .plain)
  | s :: rest => do return (← g.classify s) :: (← g.classifyAll rest)

end Grammar

/-- The values of arguments: those of the options in order (nothing for an option that was given
without one), those of the positional arguments (two hyphens for one that has none), the arguments
behind a command, and whether there were more than the grammar has. -/
structure Values where
  options : List (String × Option String) := []
  positionals : List String := []
  rest : List String := []
  hasExtras : Bool := false
  deriving DecidableEq, Repr

namespace Values

/-- The values with an option and its value. -/
def withOption (v : Values) (name : String) (value : Option String) : Values :=
  { v with options := Keyed.put v.options name value }

/-- The values with the next positional one. -/
def withPositional (v : Values) (value : String) : Values :=
  { v with positionals := v.positionals ++ [value] }

/-- The values with the next positional one, a command, and the arguments behind it. -/
def withCommand (v : Values) (value : String) (rest : List Piece) : Values :=
  { v.withPositional value with rest := rest.map Piece.text }

/-- The values with an argument that the grammar has no place for. -/
def withExtra (v : Values) : Values := { v with hasExtras := true }

end Values

/-- Whether a text stands for a value that is missing: two hyphens behind another positional
argument. -/
def Values.isMissing (v : Values) (value : String) : Bool :=
  value == "--" && !v.positionals.isEmpty

/-- Why reading stops at the letter of help with a text attached to it: more of the same letter ask
for help again, and anything else is wrong. -/
def stopAfterLetter (attached : String) : Stop :=
  if attached ≠ "" ∧ attached.toList.all (· == 'h') then .help else .usage

/-- The value that is attached to an option, if it has the right kind; two hyphens are none. -/
def attachedValue? (kind : ValueKind) (attached : String) : Option (Option String) :=
  if attached = "--" then some none
  else if kind.accepts attached then some (some attached)
  else none

/-- The pieces without a separator in front. -/
def dropSeparator : List Piece → List Piece
  | .separator :: rest => rest
  | pieces => pieces

theorem length_dropSeparator_le (pieces : List Piece) :
    (dropSeparator pieces).length ≤ pieces.length := by
  unfold dropSeparator
  split <;> simp

/-- The values of pieces, for the positional arguments still to come. -/
def readPieces (hasCommand : Bool) (kinds : List ValueKind) (v : Values) :
    List Piece → Except Stop Values
  | [] => if kinds = [] then .ok v else .error .usage
  | .option (.help _) none _ :: _ => .error .help
  | .option (.help byLetter) (some more) _ :: _ =>
    .error (if byLetter then stopAfterLetter more else .usage)
  | .option (.option ⟨name, none⟩) none _ :: rest =>
    readPieces hasCommand kinds (v.withOption name none) rest
  | .option (.option ⟨_, none⟩) (some _) _ :: _ => .error .usage
  | .option (.option ⟨name, some kind⟩) (some attached) _ :: rest =>
    match attachedValue? kind attached with
    | some value => readPieces hasCommand kinds (v.withOption name value) rest
    | none => .error .usage
  | .option (.option ⟨name, some kind⟩) none _ :: .plain value :: rest =>
    if kind.accepts value then readPieces hasCommand kinds (v.withOption name (some value)) rest
    else .error .usage
  | .option (.option ⟨_, some _⟩) none _ :: _ => .error .usage
  | .unknownOption _ :: rest => readPieces hasCommand kinds v.withExtra rest
  | .plain value :: rest =>
    match kinds with
    | [] => readPieces hasCommand [] v.withExtra rest
    | kind :: more =>
      if !kind.accepts value && !v.isMissing value then .error .usage
      -- A command takes everything behind it, options included.
      else if more = [] ∧ hasCommand then .ok (v.withCommand value rest)
      -- The separator behind a positional argument goes with it.
      else readPieces hasCommand more (v.withPositional value) (dropSeparator rest)
  | .separator :: rest =>
    -- With nothing left to read for, the separator itself is one argument too many.
    if kinds = [] ∨ rest = [] then readPieces hasCommand kinds v.withExtra rest
    -- A separator is no command.
    else if hasCommand ∧ kinds.length = 1 then .error .usage
    else readPieces hasCommand kinds v rest
termination_by pieces => pieces.length
decreasing_by
  all_goals simp only [List.length_cons]
  all_goals first
    | omega
    | exact Nat.lt_succ_of_le (length_dropSeparator_le _)

/-- The values of arguments. -/
def Grammar.read (g : Grammar) (arguments : List String) : Except Stop Values := do
  readPieces g.hasCommand g.positionals {} (← g.classifyAll arguments)

end InscriptionLedger.CommandLine
