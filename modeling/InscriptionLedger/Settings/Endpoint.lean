import InscriptionLedger.Json.Typed
import InscriptionLedger.Settings.HostAddress
import InscriptionLedger.Text.Lower

/-!
# Endpoints

The endpoint of a node is given as a URL, of which the scheme, the host and the port count. Blanks
and controls in front are dropped, as are line ends and tabs anywhere.

## Main definitions

* `Endpoint`: what a URL tells of the endpoint
* `Endpoint.read?`: the endpoint of a value
-/

namespace InscriptionLedger

/-- What a URL tells of the endpoint; whether it is secure, only if it has a scheme. -/
structure Endpoint where
  host : Option String := none
  port : Option Int := none
  isSecure : Option Bool := none
  deriving DecidableEq, Repr

namespace Endpoint

open Text

/-- The characters of a URL that count. -/
def clean (s : String) : List Char :=
  (s.toList.dropWhile fun c => c.toNat ≤ 0x20).filter fun c =>
    c != '\t' && c != '\r' && c != '\n'

/-- Whether a character may stand in a scheme. -/
def isSchemeChar (c : Char) : Bool := c.isAlphanum || c == '+' || c == '-' || c == '.'

/-- The scheme of a URL in lower case, if it has one, and what follows it. -/
def splitScheme (cs : List Char) : Option (List Char) × List Char :=
  match splitFirst? (· == ':') cs with
  | some (scheme, rest) =>
    if scheme.head?.any Char.isAlpha && scheme.all isSchemeChar then
      (some (scheme.map Char.toLower), rest)
    else (none, cs)
  | none => (none, cs)

/-- The authority after a scheme: what stands between two slashes and the next delimiter. -/
def authority : List Char → List Char
  | '/' :: '/' :: rest => rest.takeWhile fun c => c != '/' && c != '?' && c != '#'
  | _ => []

/-- The characters that stand for several ones, with a delimiter among them. -/
def compoundDelimiters : List Nat :=
  [0x2047, 0x2048, 0x2049, 0x2100, 0x2101, 0x2105, 0x2106, 0x2A74, 0xFE13, 0xFE16, 0xFE55, 0xFE56,
    0xFE5F, 0xFE6B, 0xFF03, 0xFF0F, 0xFF1A, 0xFF1F, 0xFF20]

/-- What follows the last user separator of an authority. -/
def hostInfo (cs : List Char) : List Char :=
  match splitLast? '@' cs with
  | some (_, info) => info
  | none => cs

/-- What stands before and after the first character, with nothing after it if there is none. -/
def cut (sep : Char) (cs : List Char) : List Char × List Char :=
  (splitFirst? (· == sep) cs).getD (cs, [])

/-- The host that must be fit to stand between brackets, in an authority with brackets. Nothing
stands before them, and behind them nothing or a port. -/
def bracketedHost? (cs : List Char) : Option (List Char) :=
  match splitFirst? (· == '[') (hostInfo cs) with
  | some ([], inside) =>
    let (host, rest) := cut ']' inside
    if rest = [] ∨ rest.head? = some ':' then some host else none
  | some _ => none
  -- The brackets belong to the user, and yet the host must be fit for them.
  | none => some (cut ':' (hostInfo cs)).1

/-- Whether the brackets of an authority are in order. -/
def hasGoodBrackets (cs : List Char) : Bool :=
  if cs.contains '[' || cs.contains ']' then
    cs.contains '[' && cs.contains ']' && (bracketedHost? cs).any HostAddress.isBracketed
  else true

/-- Whether an authority can be read. -/
def isGood (cs : List Char) : Bool :=
  hasGoodBrackets cs && !cs.any fun c => compoundDelimiters.contains c.toNat

/-- The host and the port of an authority. -/
def hostAndPort (cs : List Char) : List Char × List Char :=
  match splitFirst? (· == '[') (hostInfo cs) with
  | some (_, inside) =>
    let (host, rest) := cut ']' inside
    (host, (cut ':' rest).2)
  | none => cut ':' (hostInfo cs)

/-- A host in lower case; a zone is kept as it is. -/
def lowerHost (cs : List Char) : String :=
  let host := cs.takeWhile (· != '%')
  lower (String.ofList host) ++ String.ofList (cs.drop host.length)

/-- The port of characters; none of them, no port. -/
def port? (cs : List Char) : Outcome (Option Int) :=
  if cs = [] then .ok none
  else if cs.all Char.isDigit && cs.length ≤ Numeral.maxDigits then
    let value := Numeral.value (cs.map fun c => c.toNat - 0x30)
    if value ≤ 65535 then .ok (some value) else .error .unreadable
  else .error .unreadable

/-- The endpoint of a URL. -/
def ofText? (s : String) : Outcome Endpoint :=
  let (scheme, rest) := splitScheme (clean s)
  let netloc := authority rest
  if isGood netloc then
    let (host, portText) := hostAndPort netloc
    -- That there is neither a scheme nor a host is told before the port is read.
    if scheme.isNone ∧ host = [] then .error (.settings (.endpoint s))
    else do
      return {
        host := if host = [] then none else some (lowerHost host)
        port := ← port? portText
        isSecure := scheme.map fun name => name == "https".toList }
  else .error .unreadable

/-- The endpoint of a value; one that does not count as present tells nothing. -/
def read? (value : Json) : Outcome Endpoint :=
  if value.isTruthy then do ofText? (← value.toText) else .ok {}

end Endpoint

end InscriptionLedger
