import InscriptionLedger.Decimal.Written
import InscriptionLedger.Keyed
import InscriptionLedger.Text.Printable
import InscriptionLedger.Text.Utf8

/-!
# JSON values

A JSON value keeps integers and floating-point numbers apart, and keeps the members of an object in
the order in which their names first occur; each name occurs once, so that members are a keyed list.

Texts, here and throughout, are well-formed Unicode: their characters are code points other than
surrogates. A surrogate without a partner, which an escape may stand for, is thus no part of any
text; where one is read, the replacement character is.

## Main definitions

* `Json`: the values
* `Json.isTruthy`: whether a value counts as present; null, false, zeros and empty values do not
* `Json.isScalar`: whether a value has no parts
* `Json.members?`, `Json.parts?`: the members of an object, and the parts of any compound value
* `Json.throughout`: whether a class holds of a value and of all values in it
* `Json.isShort`: whether all integers in a value are short enough to be written
* `Json.Document`: a value that a text holds
* `Json.shown`: the text of a value in messages
-/

namespace InscriptionLedger

/-- A JSON value. -/
inductive Json
  | null
  | bool (value : Bool)
  | integer (value : Int)
  | double (value : Binary64)
  | text (value : String)
  | list (items : List Json)
  | object (members : List (String × Json))
  deriving Repr, Inhabited

namespace Json

/-- Whether a value counts as present. -/
def isTruthy : Json → Bool
  | null => false
  | bool value => value
  | integer value => value != 0
  | double value => !value.isZero
  | text value => !value.isEmpty
  | list items => !items.isEmpty
  | object members => !members.isEmpty

/-- Whether a value is neither a list nor an object. -/
def isScalar : Json → Bool
  | list _ | object _ => false
  | _ => true

/-- The members of an object. -/
def members? : Json → Option (List (String × Json))
  | object members => some members
  | _ => none

/-- The parts of a value that can be gone through: the items of a list, the characters of a text,
the names of an object's members. -/
def parts? : Json → Option (List Json)
  | list items => some items
  | text value => some (value.toList.map fun c => text (String.singleton c))
  | object members => some (members.map fun m => text m.1)
  | _ => none

/-- The value of a member, or `null` where there is none. -/
def member (members : List (String × Json)) (name : String) : Json :=
  (Keyed.get? members name).getD null

/-! ## Values that can be written -/

mutual

/-- Whether a class holds of a value and of all values in it. -/
def throughout (p : Json → Bool) : Json → Bool
  | list items => p (list items) && throughoutItems p items
  | object members => p (object members) && throughoutMembers p members
  | value => p value

/-- Whether a class holds throughout the items of a list. -/
def throughoutItems (p : Json → Bool) : List Json → Bool
  | [] => true
  | item :: rest => throughout p item && throughoutItems p rest

/-- Whether a class holds throughout the members of an object. -/
def throughoutMembers (p : Json → Bool) : List (String × Json) → Bool
  | [] => true
  | (_, value) :: rest => throughout p value && throughoutMembers p rest

end

/-- Whether a value is no integer that is too long to be written. -/
def isShortPart : Json → Bool
  | integer value => Numeral.isShort value
  | _ => true

/-- Whether all integers in a value are short enough to be written. -/
def isShort (v : Json) : Bool := v.throughout isShortPart

theorem throughoutItems_eq_true_iff {p : Json → Bool} {items : List Json} :
    throughoutItems p items = true ↔ ∀ v ∈ items, v.throughout p = true := by
  induction items with
  | nil => simp [throughoutItems]
  | cons item rest ih => rw [throughoutItems, Bool.and_eq_true, ih, List.forall_mem_cons]

theorem throughoutMembers_eq_true_iff {p : Json → Bool} {members : List (String × Json)} :
    throughoutMembers p members = true ↔ ∀ m ∈ members, m.2.throughout p = true := by
  induction members with
  | nil => simp [throughoutMembers]
  | cons m rest ih => rw [throughoutMembers, Bool.and_eq_true, ih, List.forall_mem_cons]

theorem isShort_list (items : List Json) :
    (list items).isShort = throughoutItems isShortPart items := by
  simp [isShort, throughout, isShortPart]

theorem isShort_object (members : List (String × Json)) :
    (object members).isShort = throughoutMembers isShortPart members := by
  simp [isShort, throughout, isShortPart]

@[simp] theorem isShort_text (s : String) : (text s).isShort = true := rfl

@[simp] theorem isShort_integer (n : Int) : (integer n).isShort = Numeral.isShort n := rfl

/-- A value that a text holds: as a numeral that is too long is not read, all integers in it can be
written. -/
structure Document where
  value : Json
  isShort : value.isShort = true
  deriving Repr

/-! ## Values in messages -/

/-- The hexadecimal digits of a number, at least `width` of them. -/
def hexDigits (width n : Nat) : List Char :=
  (List.range width).reverse.map fun i => Hex.digit ((n >>> (4 * i)) % 16)

/-- A character that is not printable, by its number: two, four or eight hexadecimal digits. -/
def numberedChar (n : Nat) : List Char :=
  if n < 0x100 then '\\' :: 'x' :: hexDigits 2 n
  else if n < 0x10000 then '\\' :: 'u' :: hexDigits 4 n
  else '\\' :: 'U' :: hexDigits 8 n

/-- A character of a quoted text: the quote, the backslash and what is not printable are escaped. -/
def quotedChar (quote c : Char) : List Char :=
  if c = quote ∨ c = '\\' then ['\\', c]
  else if c = '\n' then ['\\', 'n']
  else if c = '\r' then ['\\', 'r']
  else if c = '\t' then ['\\', 't']
  else if Text.isPrintable c then [c]
  else numberedChar c.toNat

/-- A quoted text: single quotes, unless the text has those and no double ones. -/
def quoted (s : String) : List Char :=
  let cs := s.toList
  let quote := if cs.contains '\'' && !cs.contains '"' then '"' else '\''
  quote :: cs.flatMap (quotedChar quote) ++ [quote]

mutual

/-- The characters of a value inside another one: texts are quoted. -/
def shownWithin : Json → List Char
  | null => "None".toList
  | bool true => "True".toList
  | bool false => "False".toList
  | integer value => Numeral.intChars value
  | double value => (Decimal.write .exchange value).toList
  | text value => quoted value
  | list items => '[' :: shownItems items ++ [']']
  | object members => '\x7b' :: shownMembers members ++ ['\x7d']

/-- The characters of the items of a list, separated by commas. -/
def shownItems : List Json → List Char
  | [] => []
  | [item] => shownWithin item
  | item :: rest => shownWithin item ++ ',' :: ' ' :: shownItems rest

/-- The characters of the members of an object, separated by commas. -/
def shownMembers : List (String × Json) → List Char
  | [] => []
  | [(name, value)] => quoted name ++ ':' :: ' ' :: shownWithin value
  | (name, value) :: rest =>
    quoted name ++ ':' :: ' ' :: shownWithin value ++ ',' :: ' ' :: shownMembers rest

end

/-- The text of a value in messages; a text is shown as it is. -/
def shown : Json → String
  | text value => value
  | other => String.ofList (shownWithin other)

end Json

end InscriptionLedger
