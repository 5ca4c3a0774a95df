import InscriptionLedger.Json.Reader
import InscriptionLedger.Node.Basic

/-!
# Replies as texts

A node sends a status and a body. Statuses from 400 to 599 refuse the call. The body is a sequence
of bytes, given by the text that they are in UTF-8; nothing else tells its encoding. The JSON in it
may be in another encoding, with units of two or four bytes. As JSON starts with ASCII characters,
the zeros among the first four bytes tell the width of the units and the order of their bytes. A
mark at the front of UTF-8 is dropped.

## Main definitions

* `Body.Encoding`, `Body.encoding?`: the encodings, and that of a body
* `Body.decode?`: the characters of a body
* `Response.ofText`: the answer that is transported by a status and a text
-/

namespace InscriptionLedger.Body

/-- The encoding of a body; wider units have their highest byte first or last. -/
inductive Encoding
  | utf8
  | utf16 (highFirst : Bool)
  | utf32 (highFirst : Bool)
  deriving DecidableEq, Repr

/-- The encoding that the first bytes tell; other zeros among them tell none. -/
def encoding? : Bytes → Option Encoding
  | a :: b :: c :: d :: _ =>
    match a == 0, b == 0, c == 0, d == 0 with
    | false, false, false, false => some .utf8
    | true, false, true, false => some (.utf16 true)
    | false, true, false, true => some (.utf16 false)
    | true, true, true, false => some (.utf32 true)
    | false, true, true, true => some (.utf32 false)
    | _, _, _, _ => none
  | _ => some .utf8

/-- The number of a unit's bytes. -/
def unit (highFirst : Bool) (bytes : Bytes) : Nat :=
  (if highFirst then bytes else bytes.reverse).foldl (fun n b => 256 * n + b.toNat) 0

/-- The units of two bytes, if none is cut short. -/
def units16? (highFirst : Bool) : Bytes → Option (List Nat)
  | [] => some []
  | a :: b :: rest => (units16? highFirst rest).map (unit highFirst [a, b] :: ·)
  | _ => none

/-- The units of four bytes, if none is cut short. -/
def units32? (highFirst : Bool) : Bytes → Option (List Nat)
  | [] => some []
  | a :: b :: c :: d :: rest => (units32? highFirst rest).map (unit highFirst [a, b, c, d] :: ·)
  | _ => none

/-- Whether a number is a code point of a character. -/
def isCodePoint (n : Nat) : Bool := n < 0xD800 || (0xE000 ≤ n && n < 0x110000)

/-- The code points of units of two bytes; surrogates are joined in pairs. -/
def joinPairs : List Nat → List Nat
  | n :: m :: rest =>
    if Json.isHighSurrogate n && Json.isLowSurrogate m then
      (0x10000 + (n - 0xD800) * 0x400 + (m - 0xDC00)) :: joinPairs rest
    else n :: joinPairs (m :: rest)
  | short => short

/-- The characters of code points. -/
def charsOf? (points : List Nat) : Option (List Char) :=
  if points.all isCodePoint then some (points.map Char.ofNat) else none

/-- The text of UTF-8 without the mark at its front. -/
def dropMark : List Char → List Char
  | [] => []
  | c :: rest => if c = '\uFEFF' then rest else c :: rest

/-- The bytes of a body. -/
def bytes (body : String) : Bytes := body.toUTF8.data.toList

/-- The characters of a body, if it is well formed in its encoding. -/
def decode? (body : String) : Option (List Char) :=
  match encoding? (bytes body) with
  | some .utf8 => some (dropMark body.toList)
  | some (.utf16 highFirst) =>
    (units16? highFirst (bytes body)).bind fun units => charsOf? (joinPairs units)
  | some (.utf32 highFirst) => (units32? highFirst (bytes body)).bind charsOf?
  | none => none

end InscriptionLedger.Body

namespace InscriptionLedger

/-- The answer that is transported by a status and a text. -/
def Response.ofText (status : Int) (text : String) : Response :=
  .reply status (400 ≤ status && status < 600) ((Body.decode? text).bind Json.readDocument?)

end InscriptionLedger
