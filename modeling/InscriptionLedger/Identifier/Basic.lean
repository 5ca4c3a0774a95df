import InscriptionLedger.Json.Canonical

/-!
# Identifiers

An inscription is named by the transaction that made it and the position of its envelope there, an
output by a transaction and the position of the output, a satoshi's place by an output and an offset
in it. Each has a text and a lexicographic order. The id of a transaction is a text, unless a
document holds another value in its place; identifiers are told apart by `==`, as values.

## Main definitions

* `TransactionId`: the id of a transaction
* `InscriptionId`, `OutPoint`, `SatPoint`: the identifiers
* `InscriptionId.text`, `OutPoint.text`, `SatPoint.text`: their texts
* `InscriptionId.isWritable`, `OutPoint.isWritable`: whether these can be written
* `InscriptionId.le`, `OutPoint.le`, `SatPoint.le`: their orders
* `BlockRef`: a block by its height or by its hash

## Main results

* `TransactionId.beq_ofText`: ids that are texts are told apart as texts
-/

namespace InscriptionLedger

/-- The id of a transaction, as a document holds it. -/
structure TransactionId where
  value : Json
  deriving DecidableEq, Repr

namespace TransactionId

/-- The id that is a text. -/
def ofText (s : String) : TransactionId := ⟨.text s⟩

instance : Coe String TransactionId := ⟨ofText⟩

/-- The text of an id in messages and in other identifiers. -/
def text (id : TransactionId) : String := id.value.shown

instance : BEq TransactionId := ⟨fun a b => a.value.same b.value⟩

instance : EquivBEq TransactionId where
  rfl := Json.same_iff.2 rfl
  symm h := Json.same_iff.2 (Json.same_iff.1 h).symm
  trans h h' := Json.same_iff.2 ((Json.same_iff.1 h).trans (Json.same_iff.1 h'))

/-- Ids that are texts are told apart as texts. -/
@[simp] theorem beq_ofText {a b : String} : (ofText a == ofText b) = (a == b) := Json.same_text

@[simp] theorem text_ofText (s : String) : (ofText s).text = s := rfl

end TransactionId

/-- An inscription: the transaction that made it and the position of its envelope. -/
structure InscriptionId where
  txid : TransactionId
  index : Int
  deriving DecidableEq, Repr

instance : BEq InscriptionId := ⟨fun a b => a.txid == b.txid && a.index == b.index⟩

theorem InscriptionId.beq_iff {a b : InscriptionId} :
    (a == b) = true ↔ (a.txid == b.txid) = true ∧ a.index = b.index := by
  change (a.txid == b.txid && a.index == b.index) = true ↔ _
  simp

instance : EquivBEq InscriptionId where
  rfl := InscriptionId.beq_iff.2 ⟨BEq.rfl, rfl⟩
  symm h :=
    let ⟨ht, hi⟩ := InscriptionId.beq_iff.1 h
    InscriptionId.beq_iff.2 ⟨BEq.symm ht, hi.symm⟩
  trans h h' :=
    let ⟨ht, hi⟩ := InscriptionId.beq_iff.1 h
    let ⟨ht', hi'⟩ := InscriptionId.beq_iff.1 h'
    InscriptionId.beq_iff.2 ⟨BEq.trans ht ht', hi.trans hi'⟩

/-- An output of a transaction. -/
structure OutPoint where
  txid : TransactionId
  vout : Int
  deriving DecidableEq, Repr

instance : BEq OutPoint := ⟨fun a b => a.txid == b.txid && a.vout == b.vout⟩

theorem OutPoint.beq_iff {a b : OutPoint} :
    (a == b) = true ↔ (a.txid == b.txid) = true ∧ a.vout = b.vout := by
  change (a.txid == b.txid && a.vout == b.vout) = true ↔ _
  simp

instance : EquivBEq OutPoint where
  rfl := OutPoint.beq_iff.2 ⟨BEq.rfl, rfl⟩
  symm h :=
    let ⟨ht, hv⟩ := OutPoint.beq_iff.1 h
    OutPoint.beq_iff.2 ⟨BEq.symm ht, hv.symm⟩
  trans h h' :=
    let ⟨ht, hv⟩ := OutPoint.beq_iff.1 h
    let ⟨ht', hv'⟩ := OutPoint.beq_iff.1 h'
    OutPoint.beq_iff.2 ⟨BEq.trans ht ht', hv.trans hv'⟩

/-- A place in an output: an offset in satoshis. -/
structure SatPoint where
  outpoint : OutPoint
  offset : Int
  deriving DecidableEq, Repr

/-- A block, referred to by its height or by its hash. -/
inductive BlockRef
  | height (value : Int)
  | hash (value : String)
  deriving DecidableEq, Repr

/-- The text of an inscription id, such as `<txid>i0`. -/
def InscriptionId.text (id : InscriptionId) : String :=
  id.txid.text ++ "i" ++ Numeral.write id.index

/-- The text of an output, such as `<txid>:0`. -/
def OutPoint.text (p : OutPoint) : String := p.txid.text ++ ":" ++ Numeral.write p.vout

/-- Whether the text of an inscription id can be written. -/
def InscriptionId.isWritable (id : InscriptionId) : Bool :=
  id.txid.value.isShort && Numeral.isShort id.index

/-- Whether the text of an output can be written. -/
def OutPoint.isWritable (p : OutPoint) : Bool := p.txid.value.isShort && Numeral.isShort p.vout

/-- The text of a place, such as `<txid>:0:0`. -/
def SatPoint.text (p : SatPoint) : String := p.outpoint.text ++ ":" ++ Numeral.write p.offset

/-- The text of a reference to a block. -/
def BlockRef.text : BlockRef → String
  | height value => Numeral.write value
  | hash value => value

/-- The order by transaction, then envelope. -/
def InscriptionId.le (a b : InscriptionId) : Bool :=
  a.txid.text < b.txid.text || (a.txid.text == b.txid.text && a.index ≤ b.index)

/-- The order by transaction, then output. -/
def OutPoint.le (a b : OutPoint) : Bool :=
  a.txid.text < b.txid.text || (a.txid.text == b.txid.text && a.vout ≤ b.vout)

/-- The order by output, then offset. -/
def SatPoint.le (a b : SatPoint) : Bool :=
  if a.outpoint = b.outpoint then a.offset ≤ b.offset else a.outpoint.le b.outpoint

end InscriptionLedger
