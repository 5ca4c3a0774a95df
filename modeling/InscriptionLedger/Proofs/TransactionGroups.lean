import InscriptionLedger.Proofs.BlockViews
import InscriptionLedger.Proofs.KeyedLists

/-!
# Inscriptions grouped by their transactions

The first inscriptions of a block are told in groups, one for each transaction that made some of
them. An inscription joins the group of its transaction at its end, and starts a group behind the
others if it is the first of its transaction. The inscriptions of a transaction may stand in outputs
of several transactions, between inscriptions of others: what stands apart in the listing comes
together, in its order, and nothing is lost or told twice.

## Main definitions

* `firstPosition ids txid`: where the first inscription of a transaction stands in a listing
* `AreGroups ids groups`: the groups of a listing
* `Viewer.TellsGroups`: what is told of a block in groups

## Main results

* `AreGroups.addToGroup`: one more inscription keeps the groups those of the listing
* `areGroups_foldl`: the groups that are built up are those of the listing
* `Viewer.areGroups_run`: the groups of a stored block after a run, for any limit
* `Viewer.not_forall_groupsOfBlock`: a stored block that cannot be read has none
-/

namespace InscriptionLedger

/-! ## Groups of a listing -/

/-- The position of the first inscription of a transaction in a listing; its length if there is
none. -/
def firstPosition (ids : List InscriptionId) (txid : TransactionId) : Nat :=
  ids.findIdx fun id => id.txid = txid

/-- The groups of a listing: their transactions stand in the order of their first inscriptions, each
group is what the listing has of its transaction, and together they hold the listing. -/
structure AreGroups (ids : List InscriptionId)
    (groups : List (TransactionId × List InscriptionId)) : Prop where
  ordered : (groups.map Prod.fst).Pairwise fun a b => firstPosition ids a < firstPosition ids b
  nonempty : ∀ g ∈ groups, g.2 ≠ []
  eq_filter : ∀ g ∈ groups, g.2 = ids.filter fun id => id.txid = g.1
  perm : (groups.flatMap Prod.snd).Perm ids

theorem firstPosition_append_of_mem {ids : List InscriptionId} {id : InscriptionId} (h : id ∈ ids)
    (more : List InscriptionId) :
    firstPosition (ids ++ more) id.txid = firstPosition ids id.txid := by
  have hlt : firstPosition ids id.txid < ids.length :=
    List.findIdx_lt_length_of_exists ⟨id, h, decide_eq_true rfl⟩
  unfold firstPosition at hlt ⊢
  rw [List.findIdx_append, if_pos hlt]

theorem firstPosition_append_of_new {ids : List InscriptionId} {txid : TransactionId}
    (h : ∀ id ∈ ids, id.txid ≠ txid) (more : List InscriptionId) :
    firstPosition (ids ++ more) txid = ids.length + firstPosition more txid := by
  have hnone : ids.findIdx (fun id => id.txid = txid) = ids.length :=
    List.findIdx_eq_length_of_false fun id hid => decide_eq_false (h id hid)
  unfold firstPosition
  rw [List.findIdx_append, hnone, if_neg (lt_irrefl _), Nat.add_comm]

namespace AreGroups

variable {ids : List InscriptionId} {groups : List (TransactionId × List InscriptionId)}

theorem nil : AreGroups [] [] := ⟨.nil, nofun, nofun, .nil⟩

/-- A group holds an inscription of the listing, which its transaction made. -/
theorem exists_mem (h : AreGroups ids groups) {g : TransactionId × List InscriptionId}
    (hg : g ∈ groups) : ∃ id ∈ ids, id.txid = g.1 := by
  obtain ⟨id, hid⟩ := List.exists_mem_of_ne_nil _ (h.nonempty g hg)
  rw [h.eq_filter g hg] at hid
  obtain ⟨hmem, htxid⟩ := List.mem_filter.1 hid
  exact ⟨id, hmem, of_decide_eq_true htxid⟩

/-- An inscription of the listing has a group. -/
theorem exists_group (h : AreGroups ids groups) {id : InscriptionId} (hid : id ∈ ids) :
    ∃ g ∈ groups, id.txid = g.1 := by
  obtain ⟨g, hg, hmem⟩ := List.mem_flatMap.1 (h.perm.mem_iff.2 hid)
  rw [h.eq_filter g hg] at hmem
  exact ⟨g, hg, of_decide_eq_true (List.mem_filter.1 hmem).2⟩

theorem nodup (h : AreGroups ids groups) : (groups.map Prod.fst).Nodup := by
  refine h.ordered.imp ?_
  rintro a b hlt rfl
  exact lt_irrefl _ hlt

/-- The first positions of the transactions do not change when the listing goes on. -/
theorem ordered_append (h : AreGroups ids groups) (more : List InscriptionId) :
    (groups.map Prod.fst).Pairwise fun a b =>
      firstPosition (ids ++ more) a < firstPosition (ids ++ more) b := by
  have hkeep : ∀ a ∈ groups.map Prod.fst, firstPosition (ids ++ more) a = firstPosition ids a := by
    intro a ha
    obtain ⟨g, hg, rfl⟩ := List.mem_map.1 ha
    obtain ⟨id, hid, htxid⟩ := h.exists_mem hg
    rw [← htxid]
    exact firstPosition_append_of_mem hid more
  apply h.ordered.imp_of_mem
  intro a b ha hb hlt
  rwa [hkeep a ha, hkeep b hb]

/-- The group of another transaction is the same when an inscription comes behind. -/
theorem eq_filter_append (h : AreGroups ids groups) {g : TransactionId × List InscriptionId}
    (hg : g ∈ groups) {id : InscriptionId} (hne : id.txid ≠ g.1) :
    g.2 = (ids ++ [id]).filter fun x => x.txid = g.1 := by
  rw [List.filter_append, ← h.eq_filter g hg, List.filter_singleton, decide_eq_false hne,
    Bool.cond_false, List.append_nil]

/-- The first inscription of a transaction starts a group behind the others. -/
theorem append_group (h : AreGroups ids groups) {id : InscriptionId}
    (hnew : ∀ g ∈ groups, id.txid ≠ g.1) :
    AreGroups (ids ++ [id]) (groups ++ [(id.txid, [id])]) := by
  have hnone : ∀ x ∈ ids, x.txid ≠ id.txid := by
    intro x hx heq
    obtain ⟨g, hg, htxid⟩ := h.exists_group hx
    exact hnew g hg (heq.symm.trans htxid)
  constructor
  case ordered =>
    rw [List.map_append, List.pairwise_append]
    refine ⟨h.ordered_append [id], List.pairwise_singleton _ _, ?_⟩
    intro a ha b hb
    obtain ⟨g, hg, rfl⟩ := List.mem_map.1 ha
    obtain rfl := List.mem_singleton.1 hb
    obtain ⟨x, hx, htxid⟩ := h.exists_mem hg
    rw [← htxid, firstPosition_append_of_mem hx, firstPosition_append_of_new hnone]
    exact Nat.lt_add_right _ (List.findIdx_lt_length_of_exists ⟨x, hx, decide_eq_true rfl⟩)
  case nonempty =>
    intro g hg
    rcases List.mem_append.1 hg with hg | hg
    · exact h.nonempty g hg
    · rw [List.mem_singleton.1 hg]
      exact List.cons_ne_nil _ _
  case eq_filter =>
    intro g hg
    rcases List.mem_append.1 hg with hg | hg
    · exact h.eq_filter_append hg (hnew g hg)
    · rw [List.mem_singleton.1 hg, List.filter_append, List.filter_eq_nil_iff.2, List.nil_append,
        List.filter_singleton, decide_eq_true rfl, Bool.cond_true]
      exact fun x hx => by simp [hnone x hx]
  case perm =>
    rw [List.flatMap_append, List.flatMap_singleton]
    exact h.perm.append_right [id]

/-- An inscription of a transaction that has a group joins it at its end. -/
theorem join_group {front back : List (TransactionId × List InscriptionId)} {id : InscriptionId}
    {members : List InscriptionId} (h : AreGroups ids (front ++ (id.txid, members) :: back)) :
    AreGroups (ids ++ [id]) (front ++ (id.txid, members ++ [id]) :: back) := by
  have hother : ∀ g ∈ front ++ back, id.txid ≠ g.1 := by
    intro g hg heq
    have hnodup := h.nodup
    rw [List.map_append, List.map_cons, List.nodup_middle, List.nodup_cons] at hnodup
    apply hnodup.1
    rw [← List.map_append]
    exact List.mem_map.2 ⟨g, hg, heq.symm⟩
  have hgroup : (id.txid, members) ∈ front ++ (id.txid, members) :: back :=
    List.mem_append_right _ List.mem_cons_self
  have hmem {g : TransactionId × List InscriptionId}
      (hg : g ∈ front ++ (id.txid, members ++ [id]) :: back) :
      g = (id.txid, members ++ [id]) ∨
        g ∈ front ++ back ∧ g ∈ front ++ (id.txid, members) :: back := by
    simp only [List.mem_append, List.mem_cons] at hg ⊢
    tauto
  constructor
  case ordered => simpa using h.ordered_append [id]
  case nonempty =>
    intro g hg
    rcases hmem hg with rfl | ⟨-, hg⟩
    · exact List.append_ne_nil_of_right_ne_nil _ (List.cons_ne_nil _ _)
    · exact h.nonempty g hg
  case eq_filter =>
    intro g hg
    rcases hmem hg with rfl | ⟨hapart, hg⟩
    · rw [List.filter_append, ← h.eq_filter _ hgroup, List.filter_singleton, decide_eq_true rfl,
        Bool.cond_true]
    · exact h.eq_filter_append hg (hother g hapart)
  case perm =>
    refine .trans ?_ (h.perm.append_right [id])
    simp only [List.flatMap_append, List.flatMap_cons, List.append_assoc]
    -- The inscription moves behind the groups that follow its own.
    exact ((List.perm_append_comm).append_left members).append_left _

/-- One more inscription keeps the groups those of the listing. -/
theorem addToGroup (h : AreGroups ids groups) {id : InscriptionId} (hid : id.txid.IsText) :
    AreGroups (ids ++ [id]) (Viewer.addToGroup groups id) := by
  unfold Viewer.addToGroup
  cases hget : Keyed.get? groups id.txid with
  | none =>
    rw [Option.getD_none, List.nil_append, Keyed.put_of_get?_none hget]
    apply h.append_group
    intro g hg heq
    have hapart := Keyed.get?_eq_none_iff.1 hget g hg
    rw [heq, BEq.rfl] at hapart
    cases hapart
  | some members =>
    obtain ⟨front, txid, back, hkey, rfl, hput⟩ := Keyed.exists_put_eq hget (members ++ [id])
    obtain rfl : txid = id.txid := by
      obtain ⟨s, hs⟩ := hid
      rw [BEq.comm, hs, TransactionId.ofText_beq_iff] at hkey
      rw [hkey, hs]
    rw [Option.getD_some, hput]
    exact h.join_group

end AreGroups

/-- The groups that are built up from a listing are its groups. -/
theorem areGroups_foldl {ids : List InscriptionId} (htext : ∀ id ∈ ids, id.txid.IsText) :
    AreGroups ids (ids.foldl Viewer.addToGroup []) := by
  -- The induction is from the end, as an inscription joins the groups of those before it.
  induction ids using List.reverseRecOn with
  | nil => exact .nil
  | append_singleton ids id ih =>
    rw [List.forall_mem_append] at htext
    rw [List.foldl_append]
    exact (ih htext.1).addToGroup (htext.2 id (List.mem_singleton_self id))

/-- Together the groups hold as many inscriptions as the listing. -/
theorem AreGroups.sum_length {ids : List InscriptionId}
    {groups : List (TransactionId × List InscriptionId)} (h : AreGroups ids groups) :
    (groups.map fun g => g.2.length).sum = ids.length := by
  rw [← List.length_flatMap]
  exact h.perm.length_eq

/-! ## Groups of a block -/

namespace Viewer

/-- What is told of a block in groups: for any limit the groups of the first inscriptions of its
listing, with as many inscriptions as there are up to the limit. -/
structure TellsGroups (viewer : Viewer) (ref : BlockRef) (ids : List InscriptionId) : Prop where
  allIdsOfBlock : viewer.allIdsOfBlock ref = .ok ids
  countOfBlock : viewer.countOfBlock ref = .ok ids.length
  groupsOfBlock : ∀ limit : Nat, ∃ groups, viewer.groupsOfBlock ref limit = .ok groups ∧
    AreGroups (ids.take limit) groups ∧ (groups.map Prod.fst).Nodup ∧
    ((groups.flatMap Prod.snd).map InscriptionId.text).Nodup ∧
    (groups.map fun g => g.2.length).sum = min limit ids.length

variable {viewer : Viewer} {ref : BlockRef}

theorem groupsOfBlock_natCast (limit : Nat) :
    viewer.groupsOfBlock ref limit = viewer.allIdsOfBlock ref >>= fun ids =>
      .ok ((ids.take limit).foldl addToGroup []) := by
  rw [groupsOfBlock, idsOfBlock, if_neg (by omega), Int.toNat_natCast]
  cases viewer.allIdsOfBlock ref with
  | error f => rfl
  | ok ids => rfl

/-- A listing without repetitions, of transactions whose ids are texts, is told in its groups. -/
theorem tellsGroups {ids : List InscriptionId} (hids : viewer.allIdsOfBlock ref = .ok ids)
    (hnodup : ids.Nodup) (htext : ∀ id ∈ ids, id.txid.IsText) : viewer.TellsGroups ref ids where
  allIdsOfBlock := hids
  countOfBlock := by
    rw [countOfBlock, hids]
    rfl
  groupsOfBlock limit := by
    have hfirst : ∀ id ∈ ids.take limit, id.txid.IsText := fun id hid =>
      htext id (List.mem_of_mem_take hid)
    have hgroups := areGroups_foldl hfirst
    refine ⟨_, by rw [groupsOfBlock_natCast, hids]; rfl, hgroups, hgroups.nodup, ?_, ?_⟩
    · -- No two inscriptions of the listing have the same text.
      rw [(hgroups.perm.map _).nodup_iff]
      apply (hnodup.sublist (List.take_sublist limit ids)).map_on
      intro x hx y hy
      exact InscriptionId.text_injective (hfirst x hx) (hfirst y hy)
    · rw [hgroups.sum_length, List.length_take]

/-- The groups of a block that is stored, after a run and whatever look-ups of numbers and of
transactions fail: each inscription that stands in the block is told once, up to any limit, in the
group of its transaction. Only a block with more outputs than can be asked for has none. -/
theorem areGroups_run {ws : List Write} (hopen : viewer.index.isClosed = false)
    (htables : viewer.index.tables = (({} : Index).run ws).tables)
    (htext : ∀ w ∈ ws, w.IsTextual) (hreadable : ∀ w ∈ ws, ∀ u ∈ w.transactions, u.IsReadable)
    {row : BlockRow} (hrow : row ∈ viewer.index.tables.blocks)
    (href : Index.isBlock ref row = true) :
    ∃ b, viewer.index.block? ref = .ok (some b) ∧
      if ∀ u ∈ b.transactions, u.outputs.length ≤ 2 ^ 63 then
        ∃ ids, viewer.index.Lists b ids ∧ viewer.TellsGroups ref ids
      else ∀ limit : Nat, viewer.groupsOfBlock ref limit = .error .magnitude := by
  have hsound : viewer.index.tables.IsSound := htables ▸ Index.isSound_run ws
  have htextual : viewer.index.tables.IsTextual := htables ▸ Index.isTextual_run htext
  have hrows : ∀ r ∈ viewer.index.tables.transactions, ∃ u, r.Denotes u :=
    htables ▸ Index.exists_denotes_run hreadable
  obtain ⟨b, -, hblock, hb⟩ := Index.exists_block? hopen hsound hrows hrow href
  have hids : viewer.allIdsOfBlock ref = viewer.index.idsOfBlock b := by
    rw [allIdsOfBlock, block, found_eq_ok_iff.2 hblock, Outcome.ok_bind]
  rw [Index.idsOfBlock_eq hopen (hb.isText_txid htextual)] at hids
  refine ⟨b, hblock, ?_⟩
  split
  · next hfew =>
    rw [if_pos hfew] at hids
    have hlists := Index.lists_standings hopen hsound htextual hb
    exact ⟨_, hlists, tellsGroups hids hlists.nodup fun id hid => ((hlists.mem_iff id).1 hid).1⟩
  · next hmany =>
    intro limit
    rw [groupsOfBlock_natCast, hids, if_neg hmany, Outcome.error_bind]

/-- Two inscriptions of a transaction in outputs of two transactions, with one of another between
them: they come together, unless the limit ends before the second. -/
theorem areGroups_run_interleaved :
    let b : Block := ⟨"b1", 5, [⟨.ofText "a1", [], [⟨100, []⟩, ⟨50, []⟩]⟩,
      ⟨.ofText "a2", [], [⟨70, []⟩]⟩]⟩
    let ws : List Write := [.ofBlock b,
      .inscription ⟨.ofText "a1", 0⟩ ⟨some 0, some 5, some 0, some 0, none⟩ {}
        (some ⟨⟨.ofText "a1", 0⟩, 0⟩),
      .inscription ⟨.ofText "a2", 0⟩ ⟨some 1, some 5, some 0, some 0, none⟩ {}
        (some ⟨⟨.ofText "a1", 1⟩, 0⟩),
      .inscription ⟨.ofText "a1", 1⟩ ⟨some 2, some 5, some 0, some 0, none⟩ {}
        (some ⟨⟨.ofText "a2", 0⟩, 0⟩)]
    let viewer : Viewer := { index := { ({} : Index).run ws with unreadableNumbers := [1] } }
    viewer.TellsGroups (.hash "b1") [⟨.ofText "a1", 0⟩, ⟨.ofText "a2", 0⟩, ⟨.ofText "a1", 1⟩] ∧
      viewer.groupsOfBlock (.hash "b1") 3 =
        .ok [(.ofText "a1", [⟨.ofText "a1", 0⟩, ⟨.ofText "a1", 1⟩]),
          (.ofText "a2", [⟨.ofText "a2", 0⟩])] ∧
      viewer.groupsOfBlock (.hash "b1") 2 =
        .ok [(.ofText "a1", [⟨.ofText "a1", 0⟩]), (.ofText "a2", [⟨.ofText "a2", 0⟩])] := by
  intro b ws viewer
  have hopen : viewer.index.isClosed = false := by
    simp only [viewer]
    exact Index.isClosed_run {} ws
  have htables : viewer.index.tables = (({} : Index).run ws).tables := by simp only [viewer]
  have htext : ∀ w ∈ ws, w.IsTextual := by
    simp [ws, b, Write.IsTextual, Write.ofBlock, TransactionId.IsText]
  have hreadable : ∀ w ∈ ws, ∀ u ∈ w.transactions, u.IsReadable := by
    have hinputs : ∀ w ∈ ws, ∀ u ∈ w.transactions, u.inputs = [] := by
      simp [ws, b, Write.ofBlock, Write.transactions]
    exact fun w hw u hu => Transaction.isReadable_of_inputs_eq_nil (hinputs w hw u hu)
  have hrow : (⟨5, "b1"⟩ : BlockRow) ∈ viewer.index.tables.blocks := by
    have hblocks : viewer.index.tables.blocks = [⟨5, "b1"⟩] := by cbv
    rw [hblocks]
    exact List.mem_singleton_self _
  have href : Index.isBlock (.hash "b1") ⟨5, "b1"⟩ = true := by decide
  obtain ⟨b', hblock, htells⟩ := areGroups_run hopen htables htext hreadable hrow href
  have hread : viewer.index.block? (.hash "b1") = .ok (some b) := by cbv
  obtain rfl : b' = b := by simpa [hread] using hblock.symm
  rw [if_pos (by decide)] at htells
  obtain ⟨ids, -, htells⟩ := htells
  have hids : viewer.allIdsOfBlock (.hash "b1") =
      .ok [⟨.ofText "a1", 0⟩, ⟨.ofText "a2", 0⟩, ⟨.ofText "a1", 1⟩] := by cbv
  obtain rfl := Except.ok.inj (htells.allIdsOfBlock.symm.trans hids)
  exact ⟨htells, by cbv, by cbv⟩

/-- A stored block need not be told in groups: one that spends an output of a transaction with an
empty id cannot be read. -/
theorem not_forall_groupsOfBlock :
    ¬∀ (ws : List Write) (viewer : Viewer) (row : BlockRow) (ref : BlockRef) (limit : Nat),
      viewer.index.isClosed = false → viewer.index.tables = (({} : Index).run ws).tables →
      (∀ w ∈ ws, w.IsTextual) → row ∈ viewer.index.tables.blocks → Index.isBlock ref row = true →
        ∃ groups, viewer.groupsOfBlock ref limit = .ok groups := by
  intro hall
  let ws : List Write :=
    [.ofBlock ⟨"b1", 5, [⟨.ofText "a1", [⟨some ⟨.ofText "", 0⟩, []⟩], []⟩]⟩]
  let viewer : Viewer := { index := ({} : Index).run ws }
  have htext : ∀ w ∈ ws, w.IsTextual := by
    simp [ws, Write.IsTextual, Write.ofBlock, TransactionId.IsText]
  have hrow : (⟨5, "b1"⟩ : BlockRow) ∈ viewer.index.tables.blocks := by
    have hblocks : viewer.index.tables.blocks = [⟨5, "b1"⟩] := by cbv
    rw [hblocks]
    exact List.mem_singleton_self _
  obtain ⟨groups, hgroups⟩ := hall ws viewer _ (.height 5) 0 (Index.isClosed_run {} ws) rfl htext
    hrow (by decide)
  have hfails : viewer.groupsOfBlock (.height 5) (0 : Nat) = .error (.value (.outPoint ":0")) := by
    dsimp only [viewer, ws]
    cbv
  rw [hfails] at hgroups
  cases hgroups

end Viewer

end InscriptionLedger
