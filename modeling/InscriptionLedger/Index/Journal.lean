import InscriptionLedger.Index.Basic
import InscriptionLedger.Json.Reader

/-!
# Journals

A write has a written form, an object that names the kind of write and its parts. A journal is a
text with one write on each line; the index of a journal is that of its writes one after another.

## Main definitions

* `Write.ofJson?`: the write of a written form
* `Index.ofJournal`: the index of a journal
-/

namespace InscriptionLedger

/-- A part that may be null. -/
def optionally {α : Type} (read : Json → Outcome α) : Json → Outcome (Option α)
  | .null => .ok none
  | value => (read value).map some

/-- A part that counts only if it is present. -/
def ifPresent {α : Type} (read : Json → Outcome α) (value : Json) : Outcome (Option α) :=
  if value.isTruthy then (read value).map some else .ok none

namespace Write

/-- The members of the fields of an entry. -/
def fieldsOf? (members : List (String × Json)) : Outcome EntryFields := do
  let integer (name : String) := optionally Json.toInt (Json.member members name)
  return ⟨← integer "number", ← integer "height", ← integer "fee", ← integer "timestamp",
    ← integer "sat"⟩

/-- The write of a block. -/
def blockOf? (members : List (String × Json)) : Outcome Write := do
  let items ← (Json.member members "transactions").toPartsIfPresent
  let transactions ← items.mapM Transaction.ofStored?
  let hash ← optionally Json.toText (Json.member members "hash")
  let height ← optionally Json.toInt (Json.member members "height")
  return .block hash height transactions

/-- The write of an inscription. -/
def inscriptionOf? (members : List (String × Json)) : Outcome Write := do
  let id ← InscriptionId.read? (← (Json.member members "id").toText)
  let fields ← fieldsOf? members
  let body ← optionally Json.toBytes (Json.member members "body")
  let contentType ← optionally Json.toBytes (Json.member members "content_type")
  let location ← ifPresent (fun v => v.toText >>= SatPoint.read?) (Json.member members "satpoint")
  return .inscription id fields ⟨body, contentType⟩ location

/-- The write of a written form, if its kind is known. -/
def ofMembers? (kind : String) (members : List (String × Json)) : Option (Outcome Write) :=
  match kind with
  | "add_block" => some (blockOf? members)
  | "add_transaction" =>
    some ((Transaction.ofStored? (Json.member members "tx")).map Write.transaction)
  | "add_inscription" => some (inscriptionOf? members)
  | _ => none

/-- The write of a written form. -/
def ofJson? (value : Json) : Option (Outcome Write) :=
  match value with
  | .object members =>
    match Json.member members "do" with
    | .text kind => ofMembers? kind members
    | _ => none
  | _ => none

end Write

namespace Index

/-- The index after the write of a line; a line that tells of none changes nothing. -/
def afterLine (index : Index) (line : String) : Index :=
  match (Json.read? line).bind Write.ofJson? with
  | some (.ok w) => (index.write w).1
  | _ => index

/-- The index of a journal. -/
def ofJournal (lines : List String) : Index := lines.foldl afterLine {}

end Index

end InscriptionLedger
