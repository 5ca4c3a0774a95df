import InscriptionLedger.Proofs.Amounts
import InscriptionLedger.Proofs.IdentifierTexts
import InscriptionLedger.Proofs.SortedLists
import InscriptionLedger.Transaction.FromNode

/-!
# Transactions told by a node

A node tells a transaction as an object. It lists the outputs in an order of its own, each with its
position, an amount in coins and a script in hexadecimal digits of either case; an input names the
output that it spends, if it spends one, and lists its witness. However a transaction is told, it is
read as itself, unless the satoshis of an amount are beyond the range of decimals.

## Main definitions

* `Json.TellsBytes`, `Json.TellsEach`: values that tell bytes, and lists that tell items
* `TxIn.IsTold`, `TxOut.IsTold`: the members of an object that tell an input or an output
* `Transaction.IsTold`: the members of an object that tell a transaction

## Main results

* `Json.sortByKey?_of_positions`: positioned values are put in the order of their positions
* `Transaction.ofNode?_of_isTold`: a transaction that is told is read as itself, in every order of
  its outputs
* `Transaction.not_forall_ofNode?_of_isTold`: an amount may have satoshis beyond the range
-/

namespace InscriptionLedger

/-! ## Bytes and lists -/

namespace Json

/-- A value tells bytes: it is a text of their hexadecimal digits, in either case. -/
def TellsBytes (value : Json) (bytes : Bytes) : Prop :=
  ∃ s, value = .text s ∧ s.toList.map Char.toLower = Hex.writeChars bytes

/-- A value tells items one by one: it is a list of values that tell them, or null if there are
none. -/
inductive TellsEach {α : Type} (tells : Json → α → Prop) : Json → List α → Prop
  | null : TellsEach tells .null []
  | list {parts : List Json} {items : List α} :
    List.Forall₂ tells parts items → TellsEach tells (.list parts) items

theorem TellsBytes.toBytes {value : Json} {bytes : Bytes} (h : TellsBytes value bytes) :
    value.toBytes = .ok bytes := by
  obtain ⟨s, rfl, hdigits⟩ := h
  have hread : Hex.read? s = some bytes := by
    rw [Hex.read?, ← Hex.readChars?_map_toLower, hdigits, Hex.readChars?_writeChars]
  rw [Json.toBytes, hread]

theorem TellsEach.toPartsIfPresent {α : Type} {tells : Json → α → Prop} {value : Json}
    {items : List α} (h : TellsEach tells value items) :
    ∃ parts, value.toPartsIfPresent = .ok parts ∧ List.Forall₂ tells parts items := by
  cases h with
  | null => exact ⟨[], rfl, .nil⟩
  | @list parts _ hall =>
    refine ⟨parts, ?_, hall⟩
    cases parts with
    | nil => rfl
    | cons part rest => rfl

end Json

/-! ## Inputs and outputs -/

/-- The members of an object name the output that an input spends, or none. -/
inductive TellsSpent (members : List (String × Json)) : Option OutPoint → Prop
  | none : Json.member members "txid" = .null → TellsSpent members none
  | some {o : OutPoint} : Json.member members "txid" = o.txid.value → o.txid.value ≠ .null →
    Json.memberOr members "vout" (.integer 0) = .integer o.vout → TellsSpent members (some o)

/-- The members of an object tell an input. -/
structure TxIn.IsTold (members : List (String × Json)) (i : TxIn) : Prop where
  previous : TellsSpent members i.previous
  witness : Json.TellsEach Json.TellsBytes (Json.member members "txinwitness") i.witness

/-- The members of an object tell the output at a position. -/
structure TxOut.IsTold (members : List (String × Json)) (o : TxOut) (position : Nat) : Prop where
  position : Json.memberOr members "n" (.integer 0) = .integer position
  value : Amount.IsAmount (Json.memberOr members "value" (.integer 0)) (Amount.inCoins o.value)
  script : ∃ parts, Json.member members "scriptPubKey" = .object parts ∧
    Json.TellsBytes (Json.member parts "hex") o.script

theorem TellsSpent.readSpent? {members : List (String × Json)} {spent : Option OutPoint}
    (h : TellsSpent members spent) : InscriptionLedger.readSpent? members = .ok spent := by
  cases h with
  | none hnull => rw [InscriptionLedger.readSpent?, hnull]
  | some hid hne hvout =>
    rw [InscriptionLedger.readSpent?, hid]
    split
    · next hnull => exact absurd hnull hne
    · rw [hvout]
      rfl

/-- An input that is told is read as itself. -/
theorem TxIn.IsTold.ofNode? {members : List (String × Json)} {i : TxIn} (h : IsTold members i) :
    TxIn.ofNode? (.object members) = .ok i := by
  obtain ⟨items, hitems, hall⟩ := h.witness.toPartsIfPresent
  have hwitness : items.mapM Json.toBytes = .ok i.witness :=
    Outcome.mapM_eq_ok_iff.2 (hall.imp fun _ _ => Json.TellsBytes.toBytes)
  rw [TxIn.ofNode?, Json.toMembers, Outcome.ok_bind, h.previous.readSpent?, Outcome.ok_bind, hitems,
    Outcome.ok_bind, hwitness]
  rfl

/-- The script that an object tells, which may be empty. -/
theorem readScript?_of_tellsBytes {parts : List (String × Json)} {script : Bytes}
    (h : Json.TellsBytes (Json.member parts "hex") script) :
    readScript? (.object parts) = .ok script := by
  have htruthy : (Json.object parts).isTruthy = true := by
    cases parts with
    | nil =>
      obtain ⟨s, hs, -⟩ := h
      cases hs
    | cons part rest => rfl
  rw [readScript?, if_pos htruthy, Json.toMembers, Outcome.ok_bind]
  dsimp only
  -- An empty text does not count as present, but it tells no bytes either.
  split
  case isTrue => exact h.toBytes
  case isFalse hempty =>
    obtain ⟨s, hs, hdigits⟩ := h
    rw [hs, Json.isTruthy, Bool.not_eq_true, Bool.not_eq_false', String.isEmpty_iff] at hempty
    rw [hempty] at hdigits
    cases script with
    | nil => rfl
    | cons b rest => cases hdigits

/-- An output that is told is read as itself, if its satoshis are in range. -/
theorem TxOut.IsTold.ofNodeMembers? {members : List (String × Json)} {o : TxOut} {position : Nat}
    (h : IsTold members o position) :
    TxOut.ofNodeMembers? members =
      if Amount.IsInRange (Amount.inCoins o.value) then .ok o else .error .decimalRange := by
  obtain ⟨parts, hparts, hscript⟩ := h.script
  rw [TxOut.ofNodeMembers?, h.value.ofJson_of_inCoins, hparts, readScript?_of_tellsBytes hscript]
  split
  · rfl
  · rfl

/-! ## The order of the outputs -/

namespace Json

theorem before?_integer (a b : Int) :
    (Json.integer a).before? (.integer b) = .ok (decide (a < b)) := by
  simp [before?, quantity?, Quantity.isLess]

/-- The integer of a key; a key that has none counts as zero. -/
def position (key : Json) : Int := key.toInt.toOption.getD 0

/-- Values whose keys are positions are put in the order of these. -/
theorem sortByKey?_of_positions {α : Type} {key : α → Json} {xs ys : List α} (hperm : xs.Perm ys)
    (hkeys : ∀ i (hi : i < ys.length), key ys[i] = .integer i) :
    sortByKey? (xs.map fun x => (key x, x)) = .ok ys := by
  have hinteger : ∀ x ∈ ys, ∃ n, key x = .integer n := by
    intro x hx
    obtain ⟨i, hi, rfl⟩ := List.getElem_of_mem hx
    exact ⟨i, hkeys i hi⟩
  have hgoes : Sorting.GoesBy (fun x y : Json × α => x.1.before? y.1) (fun x => x.1.position)
      (xs.map fun x => (key x, x)) := by
    simp only [Sorting.GoesBy, List.forall_mem_map]
    intro x hx y hy
    obtain ⟨m, hm⟩ := hinteger x (hperm.subset hx)
    obtain ⟨n, hn⟩ := hinteger y (hperm.subset hy)
    rw [hm, hn, before?_integer]
    rfl
  have hrises : (ys.map fun x => (key x, x)).Pairwise fun x y => x.1.position < y.1.position := by
    rw [List.pairwise_map, List.pairwise_iff_getElem]
    intro i j hi hj hlt
    rw [hkeys i hi, hkeys j hj]
    exact Int.ofNat_lt.2 hlt
  rw [sortByKey?, Sorting.sort?_eq_of_perm hgoes (hperm.map _) hrises]
  simp [Except.map, Function.comp_def]

end Json

/-! ## Transactions -/

namespace Transaction

/-- A value is an object whose members tell an input. -/
def TellsInput (value : Json) (i : TxIn) : Prop :=
  ∃ members, value = .object members ∧ TxIn.IsTold members i

/-- A value is an object whose members tell the output at a position. -/
def TellsOutput (value : Json) (placed : TxOut × Nat) : Prop :=
  ∃ members, value = .object members ∧ TxOut.IsTold members placed.1 placed.2

/-- The members of an object tell a transaction: its id is a text that is not empty, and its outputs
are listed in any order. -/
structure IsTold (members : List (String × Json)) (t : Transaction) : Prop where
  txid : ∃ s, s ≠ "" ∧ Json.member members "txid" = .text s ∧ t.txid = .ofText s
  inputs : Json.TellsEach TellsInput (Json.member members "vin") t.inputs
  outputs : ∃ order, order.Perm t.outputs.zipIdx ∧
    Json.TellsEach TellsOutput (Json.member members "vout") order

variable {members : List (String × Json)} {t : Transaction}

theorem exists_mapM_toMembers {parts : List Json} {order : List (TxOut × Nat)}
    (h : List.Forall₂ TellsOutput parts order) :
    ∃ listed, parts.mapM Json.toMembers = .ok listed ∧
      List.Forall₂ (fun item placed => TxOut.IsTold item placed.1 placed.2) listed order := by
  induction h with
  | nil => exact ⟨[], rfl, .nil⟩
  | cons hpart _ ih =>
    obtain ⟨item, rfl, hitem⟩ := hpart
    obtain ⟨listed, hlisted, hall⟩ := ih
    refine ⟨item :: listed, ?_, .cons hitem hall⟩
    rw [List.mapM_cons, hlisted]
    rfl

/-- The outputs are put in the order of their positions. -/
theorem exists_sorted {listed : List (List (String × Json))} {order : List (TxOut × Nat)}
    {outputs : List TxOut} (hperm : order.Perm outputs.zipIdx)
    (hall : List.Forall₂ (fun item placed => TxOut.IsTold item placed.1 placed.2) listed order) :
    ∃ sorted, Json.sortByKey? (listed.map fun item =>
        (Json.memberOr item "n" (.integer 0), item)) = .ok sorted ∧
      List.Forall₂ (fun item o => ∃ position, TxOut.IsTold item o position) sorted outputs := by
  -- What puts the listed outputs in order does so with the items that tell them.
  have hcomp : Relation.Comp (List.Forall₂ fun item placed => TxOut.IsTold item placed.1 placed.2)
      List.Perm listed outputs.zipIdx := ⟨order, hall, hperm⟩
  rw [List.forall₂_comp_perm_eq_perm_comp_forall₂] at hcomp
  obtain ⟨sorted, hsorted, hplaced⟩ := hcomp
  refine ⟨sorted, Json.sortByKey?_of_positions hsorted fun i hi => ?_, ?_⟩
  · have hi' : i < outputs.zipIdx.length := hplaced.length_eq ▸ hi
    have hposition := (hplaced.get hi hi').position
    rwa [List.get_eq_getElem, List.get_eq_getElem, List.getElem_zipIdx, Nat.zero_add] at hposition
  · have hfirst := hplaced.imp fun item placed htold =>
      (⟨placed.2, htold⟩ : ∃ n, TxOut.IsTold item placed.1 n)
    rwa [← List.forall₂_map_right_iff (R := fun item o => ∃ n, TxOut.IsTold item o n),
      List.zipIdx_map_fst] at hfirst

/-- A transaction that is told is read as itself, if the satoshis of its outputs are in range. -/
theorem IsTold.ofNode?_eq_ite (h : IsTold members t) :
    ofNode? (.object members) =
      if ∀ o ∈ t.outputs, Amount.IsInRange (Amount.inCoins o.value) then .ok t
      else .error .decimalRange := by
  obtain ⟨s, hne, hid, htxid⟩ := h.txid
  have hread : readId? members = .ok (.text s) := by
    rw [readId?, hid]
    exact if_pos (by simpa [Json.isTruthy] using hne)
  obtain ⟨ins, hins, htoldIns⟩ := h.inputs.toPartsIfPresent
  have hinputs : ins.mapM TxIn.ofNode? = .ok t.inputs := by
    refine Outcome.mapM_eq_ok_iff.2 (htoldIns.imp ?_)
    rintro _ i ⟨parts, rfl, hi⟩
    exact hi.ofNode?
  obtain ⟨order, hperm, hlist⟩ := h.outputs
  obtain ⟨outs, houts, htoldOuts⟩ := hlist.toPartsIfPresent
  obtain ⟨listed, hlisted, htoldListed⟩ := exists_mapM_toMembers htoldOuts
  obtain ⟨sorted, hsorted, htoldSorted⟩ := exists_sorted hperm htoldListed
  have houtputs : sorted.mapM TxOut.ofNodeMembers? =
      if ∀ o ∈ t.outputs, Amount.IsInRange (Amount.inCoins o.value) then .ok t.outputs
      else .error .decimalRange := by
    apply Outcome.mapM_eq_ite_of_forall₂ _ htoldSorted
    rintro item o ⟨position, htold⟩
    exact htold.ofNodeMembers?
  rw [ofNode?, Json.toMembers, Outcome.ok_bind, hread, Outcome.ok_bind, hins, Outcome.ok_bind,
    hinputs, Outcome.ok_bind, houts, Outcome.ok_bind, hlisted, Outcome.ok_bind]
  dsimp only
  rw [hsorted, Outcome.ok_bind, houtputs, ← TransactionId.ofText, ← htxid]
  split
  · rfl
  · rfl

/-- The outputs of a transaction that is told may be listed in any other order. -/
theorem IsTold.put_perm (h : IsTold members t) {listed other : List Json}
    (hlist : Json.member members "vout" = .list listed) (hperm : other.Perm listed) :
    IsTold (Keyed.put members "vout" (.list other)) t := by
  have hsame (name : String) (hne : ("vout" == name) = false) :
      Json.member (Keyed.put members "vout" (.list other)) name = Json.member members name := by
    rw [Json.member, Keyed.get?_put_of_ne _ _ hne, Json.member]
  have houts : Json.member (Keyed.put members "vout" (.list other)) "vout" = .list other := by
    rw [Json.member, Keyed.get?_put_self]
    rfl
  obtain ⟨order, horder, htells⟩ := h.outputs
  rw [hlist] at htells
  cases htells with
  | list hall =>
    obtain ⟨reordered, htold, hreordered⟩ := List.perm_comp_forall₂ hperm hall
    refine ⟨?_, ?_, reordered, hreordered.trans horder, ?_⟩
    · rw [hsame "txid" (by decide)]
      exact h.txid
    · rw [hsame "vin" (by decide)]
      exact h.inputs
    · rw [houts]
      exact .list htold

/-- The output of an item stands at the item's position. -/
theorem IsTold.exists_output (h : IsTold members t) {listed : List Json}
    (hlist : Json.member members "vout" = .list listed) {item : List (String × Json)} {i : Nat}
    (hitem : .object item ∈ listed) (hposition : Json.memberOr item "n" (.integer 0) = .integer i) :
    ∃ o, t.outputs[i]? = some o ∧ TxOut.IsTold item o i := by
  obtain ⟨order, horder, htells⟩ := h.outputs
  rw [hlist] at htells
  cases htells with
  | list hall =>
    obtain ⟨k, hk, hitemAt⟩ := List.getElem_of_mem hitem
    have hk' : k < order.length := hall.length_eq ▸ hk
    obtain ⟨members, hmembers, htold⟩ := hall.get hk hk'
    rw [List.get_eq_getElem, hitemAt] at hmembers
    obtain rfl := Json.object.inj hmembers
    have hplace := List.mem_zipIdx_iff_getElem?.1 (horder.subset (List.getElem_mem hk'))
    have hi : (i : Int) = (order[k].2 : Int) :=
      Json.integer.inj (hposition.symm.trans htold.position)
    obtain rfl := Int.ofNat.inj hi
    exact ⟨_, hplace, htold⟩

/-- A transaction that is told is read as itself, in whatever order its outputs are listed, and the
output at a position is that of the item with this position. Only where the satoshis of an output
are beyond the range of decimals is it not read. -/
theorem ofNode?_of_isTold (h : IsTold members t) :
    (ofNode? (.object members) =
      if ∀ o ∈ t.outputs, Amount.IsInRange (Amount.inCoins o.value) then .ok t
      else .error .decimalRange) ∧
    ∀ listed, Json.member members "vout" = .list listed →
      (∀ other, other.Perm listed →
        ofNode? (.object (Keyed.put members "vout" (.list other))) = ofNode? (.object members)) ∧
      ∀ (item : List (String × Json)) (i : Nat), .object item ∈ listed →
        Json.memberOr item "n" (.integer 0) = .integer i →
          ∃ o, t.outputs[i]? = some o ∧
            TxOut.ofNodeMembers? item =
              if Amount.IsInRange (Amount.inCoins o.value) then .ok o
              else .error .decimalRange := by
  refine ⟨h.ofNode?_eq_ite, fun listed hlist => ⟨fun other hperm => ?_, fun item i hitem hi => ?_⟩⟩
  · rw [(h.put_perm hlist hperm).ofNode?_eq_ite, h.ofNode?_eq_ite]
  · obtain ⟨o, ho, htold⟩ := h.exists_output hlist hitem hi
    exact ⟨o, ho, htold.ofNodeMembers?⟩

/-- Two outputs in the reverse order of their positions, a script in capitals and an empty one, and
an input that mints. -/
theorem ofNode?_of_isTold_reversed :
    ofNode? (.object
      [("txid", .text "ab"),
        ("vin", .list
          [.object [("coinbase", .text "0101")],
            .object [("txid", .text "cd"), ("vout", .integer 1),
              ("txinwitness", .list [.text "00Ff", .text ""])]]),
        ("vout", .list
          [.object [("n", .integer 1), ("value", .text "1e-4"),
              ("scriptPubKey", .object [("hex", .text "6A")])],
            .object [("n", .integer 0), ("value", .text "0.50"),
              ("scriptPubKey", .object [("hex", .text "")])]])]) =
      .ok ⟨.ofText "ab", [⟨none, []⟩, ⟨some ⟨.ofText "cd", 1⟩, [[0, 255], []]⟩],
        [⟨50000000, []⟩, ⟨10000, [0x6A]⟩]⟩ := by
  have hfirst : Amount.IsAmount (.text "0.50") (Amount.inCoins 50000000) := by
    have hspells : Decimal.Spells "0.50".toList false ⟨50, -2⟩ :=
      .intro .absent (Decimal.areDigits_map_digitChar [0] (by decide))
        (.point (Decimal.areDigits_map_digitChar [5, 0] (by decide))) .absent (by decide)
    have hvalue : Amount.inCoins 50000000 =
        Amount.withSign false (Decimal.Scientific.value ⟨50, -2⟩) := by
      norm_num [Amount.withSign, Decimal.Scientific.value, Amount.inCoins, Amount.satsPerCoin]
    exact Amount.isAmount_of_spells (by decide +kernel) hspells hvalue (by decide +kernel)
      (by decide)
  have hsecond : Amount.IsAmount (.text "1e-4") (Amount.inCoins 10000) := by
    have hspells : Decimal.Spells "1e-4".toList false ⟨1, -4⟩ :=
      .intro .absent (Decimal.areDigits_map_digitChar [1] (by decide)) .absent
        (.given (.inl rfl) .minus (Decimal.areDigits_map_digitChar [4] (by decide)) (by decide))
        (by decide)
    have hvalue : Amount.inCoins 10000 =
        Amount.withSign false (Decimal.Scientific.value ⟨1, -4⟩) := by
      norm_num [Amount.withSign, Decimal.Scientific.value, Amount.inCoins, Amount.satsPerCoin]
    exact Amount.isAmount_of_spells (by decide +kernel) hspells hvalue (by decide +kernel)
      (by decide)
  have hrange : ∀ o ∈ [(⟨50000000, []⟩ : TxOut), ⟨10000, [0x6A]⟩],
      Amount.IsInRange (Amount.inCoins o.value) := by
    simp only [List.forall_mem_cons, List.not_mem_nil, false_imp_iff, implies_true, and_true]
    constructor
    · exact Amount.isInRange_of_lt
        (by norm_num [Amount.inCoins, Amount.satsPerCoin, Amount.precision])
    · exact Amount.isInRange_of_lt
        (by norm_num [Amount.inCoins, Amount.satsPerCoin, Amount.precision])
  refine (ofNode?_of_isTold (t := ⟨_, _, [⟨50000000, []⟩, ⟨10000, [0x6A]⟩]⟩) ?_).1.trans
    (if_pos hrange)
  refine ⟨⟨"ab", by decide, rfl, rfl⟩,
    .list (.cons ⟨_, rfl, ?mints⟩ (.cons ⟨_, rfl, ?spends⟩ .nil)), _, List.Perm.swap _ _ _,
    .list (.cons ⟨_, rfl, ?second⟩ (.cons ⟨_, rfl, ?first⟩ .nil))⟩
  case mints => exact ⟨.none rfl, .null⟩
  case spends =>
    exact ⟨.some rfl (by decide) rfl, .list (.cons ⟨_, rfl, rfl⟩ (.cons ⟨_, rfl, rfl⟩ .nil))⟩
  case second => exact ⟨rfl, hsecond, _, rfl, _, rfl, rfl⟩
  case first => exact ⟨rfl, hfirst, _, rfl, _, rfl, rfl⟩

/-- The satoshis of an amount may be beyond the range of decimals. -/
theorem not_forall_ofNode?_of_isTold :
    ¬ ∀ members t, IsTold members t → ofNode? (.object members) = .ok t := by
  intro hall
  obtain ⟨sats, hsats⟩ := Amount.exists_inCoins_beyond
  have htold : IsTold
      [("txid", .text "ab"), ("vout", .list [.object [("n", .integer 0),
        ("value", .text "1E+999992"), ("scriptPubKey", .object [("hex", .text "51")])]])]
      ⟨.ofText "ab", [], [⟨sats, [0x51]⟩]⟩ := by
    refine ⟨⟨"ab", by decide, rfl, rfl⟩, .null, _, List.Perm.refl _,
      .list (.cons ⟨_, rfl, ?_⟩ .nil)⟩
    exact ⟨rfl, hsats ▸ Amount.isAmount_beyond, _, rfl, _, rfl, rfl⟩
  have hread := hall _ _ htold
  rw [htold.ofNode?_eq_ite, if_neg fun hrange => Amount.not_isInRange_beyond (hsats ▸
    hrange ⟨sats, [0x51]⟩ (List.mem_singleton_self _))] at hread
  cases hread

end Transaction

end InscriptionLedger
