import InscriptionLedger.Text.Hex
import InscriptionLedger.Text.Split

/-!
# Host addresses

The forms of an address between brackets in a URL: an IPv6 address, with a zone behind it if need
be, or an address of a later version.

## Main definitions

* `HostAddress.isIpv4`, `HostAddress.isIpv6`, `HostAddress.isFuture`: the forms
* `HostAddress.isBracketed`: what may stand between brackets
-/

namespace InscriptionLedger.HostAddress

open Text

/-- Whether characters are a decimal number from 0 to 255 without leading zeros. -/
def isOctet (cs : List Char) : Bool :=
  let value := cs.foldl (fun n c => 10 * n + (c.toNat - 0x30)) 0
  cs != [] && cs.all (fun c => '0' ≤ c && c ≤ '9') && cs.length ≤ 3 &&
    (cs.head? != some '0' || cs == ['0']) && value ≤ 255

/-- Whether characters are an IPv4 address: four octets. -/
def isIpv4 (cs : List Char) : Bool :=
  let octets := splitAt (· == '.') cs
  octets.length == 4 && octets.all isOctet

/-- Whether characters are up to four hexadecimal digits. -/
def isHextet (cs : List Char) : Bool :=
  cs != [] && cs.length ≤ 4 && cs.all fun c => (Hex.digitValue? c).isSome

/-- The parts of an IPv6 address between colons, an IPv4 address at its end counting as two. -/
def ipv6Parts? (cs : List Char) : Option (List (List Char)) :=
  let parts := splitAt (· == ':') cs
  if parts.length < 3 then none
  else match parts.getLast? with
    | none => none
    | some last =>
      if last.contains '.' then
        if isIpv4 last then some (parts.dropLast ++ [['0'], ['0']]) else none
      else some parts

/-- The parts before and after the first empty one that has neighbours on both sides. -/
def splitAtGap? (parts : List (List Char)) : Option (List (List Char) × List (List Char)) :=
  match parts with
  | [] => none
  | first :: rest =>
    let before := rest.dropLast.takeWhile (· != [])
    if before.length < rest.dropLast.length then
      some (first :: before, rest.drop (before.length + 1))
    else none

/-- Whether the parts on one side of a gap are hextets; a single empty part closes the gap. -/
def isSide (parts : List (List Char)) : Bool := parts == [[]] || parts.all isHextet

/-- The hextets on one side of a gap. -/
def sideLength (parts : List (List Char)) : Nat := if parts == [[]] then 0 else parts.length

/-- Whether parts are those of an IPv6 address: eight hextets, or fewer with one gap. -/
def isIpv6Parts (parts : List (List Char)) : Bool :=
  parts.length ≤ 9 &&
    match splitAtGap? parts with
    | some (high, low) =>
      isSide high && isSide low && sideLength high + sideLength low ≤ 7
    | none => parts.length == 8 && parts.all isHextet

/-- The address before a zone, and whether the zone is well formed. -/
def splitZone (cs : List Char) : List Char × Bool :=
  match splitFirst? (· == '%') cs with
  | some (address, zone) => (address, zone != [] && !zone.contains '%')
  | none => (cs, true)

/-- Whether characters are an IPv6 address, with a zone if need be. -/
def isIpv6 (cs : List Char) : Bool :=
  let (address, isZoned) := splitZone cs
  isZoned && !cs.contains '/' && (ipv6Parts? address).any isIpv6Parts

/-- Whether characters after a `v` are a version, a point and an address of that version. -/
def isFuture (cs : List Char) : Bool :=
  let version := cs.takeWhile fun c => (Hex.digitValue? c).isSome
  version != [] && match cs.drop version.length with
    | '.' :: address => address != []
    | _ => false

/-- Whether characters may stand between brackets. -/
def isBracketed : List Char → Bool
  | 'v' :: rest => isFuture rest
  | cs => isIpv6 cs

end InscriptionLedger.HostAddress
