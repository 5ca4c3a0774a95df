import InscriptionLedger.Decimal.Precision

/-!
# Written numbers

A binary64 number is written with the digits of a decimal near it, either positionally or with an
exponent. Which one, and the spellings around the digits, are a style.

## Main definitions

* `Style`: the choices that a format makes
* `Style.exchange`: the form in which numbers are exchanged, such as `30.0` or `1e-08`
* `Style.plain`: positional notation without a point that no digit follows
* `positional d`, `scientific d`: the two notations of an exact decimal
* `write style x`: the text of a number with the digits of its shortest decimal
* `writeRounded style digits x`: the text of a number rounded to so many digits
-/

namespace InscriptionLedger.Decimal

open Numeral

/-- The choices of a number format: the decimal exponents written positionally, what follows an
integer and a single digit before an exponent, and the names of the numbers that have no digits. -/
structure Style where
  isPositional : Int → Bool
  integerTail : String
  mantissaTail : String
  infinity : String
  undefined : String

/-- Numbers as they are exchanged: positional from `10 ^ -4` up to `10 ^ 16`, always with a
point. -/
def Style.exchange : Style where
  isPositional e := -4 ≤ e && e < 16
  integerTail := ".0"
  mantissaTail := ""
  infinity := "inf"
  undefined := "nan"

/-- Numbers in plain notation: always positional, with a point only before a fraction. -/
def Style.plain : Style where
  isPositional _ := true
  integerTail := ""
  mantissaTail := ""
  infinity := "Infinity"
  undefined := "NaN"

/-- Positional notation: digits, and a point and more digits iff the number is no integer. -/
def positional (integerTail : List Char) (d : Scientific) : List Char :=
  let ds := natChars d.coefficient
  if 0 ≤ d.exponent then ds ++ List.replicate d.exponent.toNat '0' ++ integerTail
  else
    let places := (-d.exponent).toNat
    let padded := List.replicate (places + 1 - ds.length) '0' ++ ds
    padded.take (padded.length - places) ++ '.' :: padded.drop (padded.length - places)

/-- Notation with an exponent: one digit, a point if more follow, and an exponent of at least two
digits with its sign. -/
def scientific (mantissaTail : List Char) (d : Scientific) : List Char :=
  let ds := natChars d.coefficient
  let e := d.exponent + (ds.length - 1 : Nat)
  let mantissa := match ds with
    | first :: second :: rest => first :: '.' :: second :: rest
    | short => short ++ mantissaTail
  let magnitude := natChars e.natAbs
  mantissa ++ 'e' :: (if e < 0 then '-' else '+') ::
    (List.replicate (2 - magnitude.length) '0' ++ magnitude)

/-- The characters of a finite number without its sign. -/
def writeMagnitude (style : Style) (d : Scientific) : List Char :=
  if style.isPositional d.magnitude then positional style.integerTail.toList d
  else scientific style.mantissaTail.toList d

/-- The sign of a written number. -/
def writeSign (negative : Bool) : List Char := if negative then ['-'] else []

/-- The text of a number with the digits of its shortest decimal. -/
def write (style : Style) : Binary64 → String
  | .undefined => style.undefined
  | .infinity negative => String.ofList (writeSign negative ++ style.infinity.toList)
  | .finite negative significand exponent =>
    String.ofList (writeSign negative ++ writeMagnitude style (shortest significand exponent))

/-- The text of a number rounded to so many digits; zero has no sign. -/
def writeRounded (style : Style) (digits : Nat) : Binary64 → String
  | .undefined => style.undefined
  | .infinity negative => String.ofList (writeSign negative ++ style.infinity.toList)
  | .finite negative significand exponent =>
    let d := ((Scientific.ofBinary significand exponent).roundAwayTo digits).reduce
    String.ofList (writeSign (negative && significand != 0) ++ writeMagnitude style d)

end InscriptionLedger.Decimal
