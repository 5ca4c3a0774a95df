import InscriptionLedger.Failure

/-!
# Writing JSON

Texts are written in ASCII: what is beyond it is escaped in units of sixteen bits. A value is
written on one line, or with one line for each item or member and two blanks of indentation for each
level. A value that holds an integer which is too long is not written.

## Main definitions

* `Json.Layout`: what separates the parts of a value
* `Json.writeWith layout depth value`: the characters of a value at a depth
* `Json.compact`, `Json.indented`: the texts of a value in the two layouts
* `Json.compact?`, `Json.indented?`: the texts of a value that can be written
-/

namespace InscriptionLedger.Json

/-- The escape of a unit of sixteen bits. -/
def writeUnit (n : Nat) : List Char := '\\' :: 'u' :: hexDigits 4 n

/-- A character of a written text. -/
def writeChar (c : Char) : List Char :=
  let n := c.toNat
  if c = '"' then ['\\', '"']
  else if c = '\\' then ['\\', '\\']
  else if n = 0x08 then ['\\', 'b']
  else if n = 0x09 then ['\\', 't']
  else if n = 0x0A then ['\\', 'n']
  else if n = 0x0C then ['\\', 'f']
  else if n = 0x0D then ['\\', 'r']
  else if 0x20 ≤ n ∧ n < 0x7F then [c]
  else if n < 0x10000 then writeUnit n
  else
    let rest := n - 0x10000
    writeUnit (0xD800 + rest / 0x400) ++ writeUnit (0xDC00 + rest % 0x400)

/-- A written text with its quotes. -/
def writeText (s : String) : List Char := '"' :: s.toList.flatMap writeChar ++ ['"']

/-- A written floating-point number. -/
def writeDouble : Binary64 → List Char
  | .undefined => "NaN".toList
  | .infinity negative => Decimal.writeSign negative ++ "Infinity".toList
  | finite => (Decimal.write .exchange finite).toList

/-- What separates the parts of a value: lines with so many blanks of indentation for each level, or
nothing but a blank after each comma. -/
structure Layout where
  indentation : Option Nat

/-- The characters before the first part at a depth, and after the last part one level up. -/
def Layout.lineBreak (layout : Layout) (depth : Nat) : List Char :=
  match layout.indentation with
  | some width => '\n' :: List.replicate (width * depth) ' '
  | none => []

/-- The characters between two parts at a depth. -/
def Layout.separator (layout : Layout) (depth : Nat) : List Char :=
  match layout.indentation with
  | some _ => ',' :: layout.lineBreak depth
  | none => [',', ' ']

mutual

/-- The characters of a value at a depth. -/
def writeWith (layout : Layout) (depth : Nat) : Json → List Char
  | null => "null".toList
  | bool true => "true".toList
  | bool false => "false".toList
  | integer value => Numeral.intChars value
  | double value => writeDouble value
  | text value => writeText value
  | list [] => ['[', ']']
  | list (item :: rest) =>
    '[' :: layout.lineBreak (depth + 1) ++ writeItems layout (depth + 1) (item :: rest)
      ++ layout.lineBreak depth ++ [']']
  | object [] => ['\x7b', '\x7d']
  | object (member :: rest) =>
    '\x7b' :: layout.lineBreak (depth + 1) ++ writeMembers layout (depth + 1) (member :: rest)
      ++ layout.lineBreak depth ++ ['\x7d']

/-- The characters of the items of a list at a depth. -/
def writeItems (layout : Layout) (depth : Nat) : List Json → List Char
  | [] => []
  | [item] => writeWith layout depth item
  | item :: rest =>
    writeWith layout depth item ++ layout.separator depth ++ writeItems layout depth rest

/-- The characters of the members of an object at a depth. -/
def writeMembers (layout : Layout) (depth : Nat) : List (String × Json) → List Char
  | [] => []
  | [(name, value)] => writeText name ++ ':' :: ' ' :: writeWith layout depth value
  | (name, value) :: rest =>
    writeText name ++ ':' :: ' ' :: writeWith layout depth value ++ layout.separator depth
      ++ writeMembers layout depth rest

end

/-- The text of a value on one line. -/
def compact (value : Json) : String := String.ofList (writeWith ⟨none⟩ 0 value)

/-- The text of a value with one line for each part and two blanks for each level. -/
def indented (value : Json) : String := String.ofList (writeWith ⟨some 2⟩ 0 value)

/-- The text on one line of a value that can be written. -/
def compact? (value : Json) : Outcome String := do
  requireWritable value.isShort
  return value.compact

/-- The text with one line for each part of a value that can be written. -/
def indented? (value : Json) : Outcome String := do
  requireWritable value.isShort
  return value.indented

end InscriptionLedger.Json
