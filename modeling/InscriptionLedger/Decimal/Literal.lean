import InscriptionLedger.Text.Numeral

/-!
# Decimal literals

The texts of decimal numbers: an optional sign, digits with an optional point and an optional
exponent, or the name of an infinity or of an undefined number. Two readers share this grammar. An
amount may hold underscores anywhere; a measure only between two digits, and its undefined number
has neither payload nor signal.

## Main definitions

* `Literal`: the value of a literal, exactly as written
* `Literal.ofChars? cs`: the literal of a text without underscores
* `Literal.ofAmount? s`, `Literal.ofMeasure? s`: the two readers
-/

namespace InscriptionLedger.Decimal

open Text Numeral

/-- The value of a decimal literal: `coefficient · 10 ^ exponent` with a sign, an infinity, or an
undefined number with its payload digits. -/
inductive Literal
  | number (negative : Bool) (coefficient : Nat) (exponent : Int)
  | infinity (negative : Bool)
  | undefined (signalling : Bool) (payload : List Nat)
  deriving DecidableEq, Repr

namespace Literal

/-- The decimal digits at the front of a list, and the rest of it. -/
def spanDigits : List Char → List Nat × List Char
  | [] => ([], [])
  | c :: rest =>
    match decimalValue? c with
    | some d => let (ds, tail) := spanDigits rest; (d :: ds, tail)
    | none => ([], c :: rest)

/-- The exponent part of a literal: nothing, or a letter `e`, a sign and digits. -/
def exponent? : List Char → Option Int
  | [] => some 0
  | c :: rest =>
    if c = 'e' ∨ c = 'E' then
      let (negative, body) := splitSign rest
      match spanDigits body with
      | (d :: ds, []) => some (signed negative (value (d :: ds)))
      | _ => none
    else none

/-- The finite literal of the given sign in the rest of a text. -/
def number? (negative : Bool) (cs : List Char) : Option Literal :=
  let (whole, rest) := spanDigits cs
  let (fraction, tail) := match rest with
    | '.' :: more => spanDigits more
    | _ => ([], rest)
  match whole ++ fraction with
  | [] => none
  | digits => (exponent? tail).map fun e => number negative (value digits) (e - fraction.length)

/-- The payload of an undefined number: digits up to the end. -/
def payload? (signalling : Bool) (cs : List Char) : Option Literal :=
  match spanDigits cs with
  | (ds, []) => some (undefined signalling ds)
  | _ => none

/-- The literal of a text in which no underscore is left. -/
def ofChars? (cs : List Char) : Option Literal :=
  let (negative, body) := splitSign cs
  match body.map Char.toLower with
  | ['i', 'n', 'f'] => some (infinity negative)
  | ['i', 'n', 'f', 'i', 'n', 'i', 't', 'y'] => some (infinity negative)
  | 'n' :: 'a' :: 'n' :: _ => payload? false (body.drop 3)
  | 's' :: 'n' :: 'a' :: 'n' :: _ => payload? true (body.drop 4)
  | _ => number? negative body

/-- The list without its underscores, each of which must stand between two digits. -/
def dropUnderscores? : List Char → Option (List Char)
  | [] => some []
  | '_' :: _ => none
  | [c] => some [c]
  | c :: '_' :: d :: rest =>
    if (decimalValue? c).isSome ∧ (decimalValue? d).isSome then
      (dropUnderscores? (d :: rest)).map (c :: ·)
    else none
  | c :: rest => (dropUnderscores? rest).map (c :: ·)

/-- The literal of an amount: blanks around it and underscores anywhere are ignored. -/
def ofAmount? (s : String) : Option Literal :=
  ofChars? ((trimBy isBlank s.toList).filter (· != '_'))

/-- The literal of a measure: number blanks around it are ignored, underscores stand between
digits, and an undefined number is plain. -/
def ofMeasure? (s : String) : Option Literal :=
  match (dropUnderscores? (trimBy isNumberBlank s.toList)).bind ofChars? with
  | some (undefined true _) => none
  | some (undefined false (_ :: _)) => none
  | result => result

end Literal

end InscriptionLedger.Decimal
