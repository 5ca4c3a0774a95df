import InscriptionLedger.Json.Canonical
import InscriptionLedger.Sorting

/-!
# The order of JSON values

Numbers, true and false among them, are ordered by magnitude, texts by their characters, and lists
by the first items that are not equal, a list before its continuations. Other values, and values of
different kinds, cannot be compared. The undefined number comes neither before nor behind a number.

## Main definitions

* `Quantity`: an exact number, an infinity or the undefined number
* `Json.before?`: whether one value comes before another
* `Json.sortByKey?`: values sorted by their keys
-/

namespace InscriptionLedger

/-- A number as it is compared: a quotient with a positive denominator, an infinity, or the
undefined number. -/
inductive Quantity
  | ratio (numerator : Int) (denominator : Nat)
  | infinite (negative : Bool)
  | undefined
  deriving DecidableEq, Repr

namespace Quantity

/-- The quantity of a floating-point number. -/
def ofBinary64 : Binary64 → Quantity
  | .finite negative significand exponent =>
    let (numerator, denominator) := Binary64.ratio significand exponent
    ratio (Numeral.signed negative numerator) denominator
  | .infinity negative => infinite negative
  | .undefined => undefined

/-- Whether one number is less than another. -/
def isLess : Quantity → Quantity → Bool
  | ratio a b, ratio c d => a * d < c * b
  | ratio _ _, infinite negative => !negative
  | infinite negative, ratio _ _ => negative
  | infinite a, infinite b => a && !b
  | _, _ => false

end Quantity

namespace Json

/-- The number that a value is. -/
def quantity? : Json → Option Quantity
  | integer value => some (.ratio value 1)
  | bool value => some (.ratio (if value then 1 else 0) 1)
  | double value => some (.ofBinary64 value)
  | _ => none

mutual

/-- Whether one value comes before another. -/
def before? : Json → Json → Outcome Bool
  | text a, text b => .ok (a < b)
  | list a, list b => itemsBefore? a b
  | a, b =>
    match a.quantity?, b.quantity? with
    | some x, some y => .ok (x.isLess y)
    | _, _ => .error .wrongType

/-- Whether the items of one list come before those of another. -/
def itemsBefore? : List Json → List Json → Outcome Bool
  | _, [] => .ok false
  | [], _ :: _ => .ok true
  | a :: as, b :: bs => if a.same b then itemsBefore? as bs else a.before? b

end

/-- The values in the order of their keys; values with one key keep their order. One value alone
needs no key that can be compared. -/
def sortByKey? {α : Type} (keyed : List (Json × α)) : Outcome (List α) :=
  (Sorting.sort? (fun x y => x.1.before? y.1) keyed).map fun sorted => sorted.map Prod.snd

end Json

end InscriptionLedger
