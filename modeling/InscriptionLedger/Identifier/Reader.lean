import InscriptionLedger.Failure
import InscriptionLedger.Text.Hex
import InscriptionLedger.Text.Split

/-!
# Reading identifiers

Identifiers are read from texts with blanks around them. The last separator counts, so that the
transaction of an output may itself hold colons. A failure names the text as it was given.

## Main definitions

* `InscriptionId.read?`, `OutPoint.read?`, `SatPoint.read?`: the readers
* `InscriptionId.ofChars?`, `OutPoint.ofChars?`, `SatPoint.ofChars?`: the identifiers of trimmed
  texts
-/

namespace InscriptionLedger

open Text

/-- The inscription of a text without blanks around it: 64 characters of hexadecimal text, an `i`
and a run of digits. The transaction is kept in lower case. -/
def InscriptionId.ofChars? (cs : List Char) : Option InscriptionId :=
  match splitLast? 'i' cs with
  | none => none
  | some (txid, index) =>
    if txid.length = 64 ∧ index ≠ [] ∧ index.all isDigit then
      match Hex.readChars? txid, Numeral.readChars? index with
      | some _, some n => some ⟨.ofText (String.ofList (txid.map Char.toLower)), n⟩
      | _, _ => none
    else none

/-- The output of a text without blanks around it: a transaction, a colon and an integer. -/
def OutPoint.ofChars? (cs : List Char) : Option OutPoint :=
  match splitLast? ':' cs with
  | none => none
  | some (txid, vout) =>
    if txid = [] then none
    else (Numeral.readChars? vout).map fun n => ⟨.ofText (String.ofList txid), n⟩

/-- The place of a text without blanks around it: an output, a colon and an integer. -/
def SatPoint.ofChars? (cs : List Char) : Option SatPoint :=
  match splitLast? ':' cs with
  | none => none
  | some (outpoint, offset) =>
    match OutPoint.ofChars? (trimBy isBlank outpoint), Numeral.readChars? offset with
    | some p, some n => some ⟨p, n⟩
    | _, _ => none

/-- The inscription that a text names. -/
def InscriptionId.read? (s : String) : Outcome InscriptionId :=
  match ofChars? (trimBy isBlank s.toList) with
  | some id => .ok id
  | none => .error (.value (.inscriptionId s))

/-- The output that a text names. -/
def OutPoint.read? (s : String) : Outcome OutPoint :=
  match ofChars? (trimBy isBlank s.toList) with
  | some p => .ok p
  | none => .error (.value (.outPoint s))

/-- The place that a text names. -/
def SatPoint.read? (s : String) : Outcome SatPoint :=
  match ofChars? (trimBy isBlank s.toList) with
  | some p => .ok p
  | none => .error (.value (.satPoint s))

end InscriptionLedger
