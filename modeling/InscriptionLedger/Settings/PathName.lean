import InscriptionLedger.Failure
import InscriptionLedger.Keyed
import InscriptionLedger.Text.Split

/-!
# Path names

A path name is a root and the names on the way from it. Empty names and single dots are dropped,
double dots are kept. Exactly two slashes in front are a root of their own; more are one.

## Main definitions

* `PathName`, `PathName.read`, `PathName.text`
* `Homes`: the home directories of the user and of accounts
* `PathName.expandHome`: a leading tilde stands for a home directory
-/

namespace InscriptionLedger

/-- A path name. -/
structure PathName where
  root : String
  names : List String
  deriving DecidableEq, Repr

/-- The home directories: the user's and those of the accounts that are known by name. -/
structure Homes where
  own : String := ""
  accounts : List (String × String) := []
  deriving Repr

/-- The home directory of an account; without a name, the user's. -/
def Homes.get? (h : Homes) (account : String) : Option String :=
  if account = "" then some h.own else Keyed.get? h.accounts account

namespace PathName

/-- The root of a text with so many slashes in front. -/
def rootOf : Nat → String
  | 0 => ""
  | 2 => "//"
  | _ => "/"

/-- The path name of a text. -/
def read (s : String) : PathName where
  root := rootOf (s.toList.takeWhile (· == '/')).length
  names := ((Text.splitAt (· == '/') s.toList).filter fun name => name != [] && name != ['.']).map
    String.ofList

/-- The text of a path name. -/
def text (p : PathName) : String :=
  if p.root = "" ∧ p.names = [] then "." else p.root ++ "/".intercalate p.names

/-- The text of a home directory, without slashes at its end. -/
def homeText (home : String) : String :=
  let trimmed := Text.dropEndWhile (· == '/') home.toList
  if trimmed = [] then "/" else String.ofList trimmed

/-- The path name with a home directory for a leading tilde. A tilde before a name stands for the
home of an account. A home directory does not start with a tilde itself. -/
def expandHome (homes : Homes) (p : PathName) : Outcome PathName :=
  match p.root, p.names with
  | "", first :: rest =>
    match first.toList with
    | '~' :: account =>
      match (homes.get? (String.ofList account)).map homeText with
      | some home =>
        if home.toList.head? = some '~' then .error .unknownAccount
        else
          let start := read home
          .ok { start with names := start.names ++ rest }
      | none => .error .unknownAccount
    | _ => .ok p
  | _, _ => .ok p

end PathName

end InscriptionLedger
