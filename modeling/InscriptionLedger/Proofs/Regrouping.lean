import InscriptionLedger.Proofs.BitStream

/-!
# Regrouping and regrouping back

Regrouped values are as few as can hold all bits. No bit is lost although the reader masks what it
has read: a reader that keeps every bit finds the same groups, since a group is cut before its bits
are out of reach. Values that are regrouped, and regrouped again with the widths swapped, are
therefore the values that they were, with zeros behind them.

## Main definitions

* `Regroup.unmaskedFrom`: the groups that a reader finds which keeps every bit
* `Regroup.IsRegrouped`: what regrouping makes of values

## Main results

* `Regroup.regroupFrom_eq_unmaskedFrom`: the mask loses no bit that is needed
* `Regroup.length_regroup`: the number of the new groups
* `Regroup.exists_regroup_regroup`: values that are regrouped back
* `Regroup.exists_isRegrouped`: the regrouping of values of a width
-/

namespace InscriptionLedger.Regroup

/-! ## The mask -/

/-- The new groups of the rest of a sequence, if the reader keeps every bit that it has read. -/
def unmaskedFrom (source target acc inHand : Nat) : List Nat → List Nat
  | [] => if inHand = 0 then [] else [(acc <<< (target - inHand)) % (1 <<< target)]
  | value :: rest =>
    let acc := acc <<< source ||| value
    let inHand := inHand + source
    groups target acc inHand ++ unmaskedFrom source target acc (inHand % target) rest

section

variable {source target inHand acc acc' : Nat}

/-- Groups are cut from the bits in hand, whatever stands above them; so are the bits that stay. -/
theorem groups_congr (target : Nat) (h : bits inHand acc = bits inHand acc') :
    groups target acc inHand = groups target acc' inHand ∧
      bits (inHand % target) acc = bits (inHand % target) acc' := by
  have hlength : (groups target acc inHand).length = (groups target acc' inHand).length := by
    rw [groups, groups, List.length_map, List.length_map]
  rw [← stream_groups_append target acc, ← stream_groups_append target acc'] at h
  obtain ⟨hgroups, hrest⟩ := List.append_inj h (by rw [length_stream, length_stream, hlength])
  exact ⟨stream_injective (fun _ => groups_lt) (fun _ => groups_lt) hlength hgroups, hrest⟩

/-- The last group, which zeros fill, is made of the bits in hand. -/
theorem lastGroup_congr (hle : inHand ≤ target) (h : bits inHand acc = bits inHand acc') :
    (acc <<< (target - inHand)) % (1 <<< target) =
      (acc' <<< (target - inHand)) % (1 <<< target) := by
  have hbits (n : Nat) : bits target (n <<< (target - inHand) % 2 ^ target) =
      bits inHand n ++ List.replicate (target - inHand) false := by
    rw [bits_mod le_rfl, ← bits_shiftLeft, Nat.add_sub_cancel' hle]
  have hlt (n : Nat) : n % 2 ^ target < 2 ^ target := Nat.mod_lt n (Nat.two_pow_pos target)
  rw [Nat.one_shiftLeft]
  apply eq_of_bits_eq (hlt _) (hlt _)
  rw [hbits, hbits, h]

/-- The mask loses no bit that is needed: a reader that keeps every bit finds the same groups. -/
theorem regroupFrom_eq_unmaskedFrom (htarget : 0 < target) {values : List Nat}
    (hvalues : ∀ v ∈ values, v < 2 ^ source) (hlt : inHand < target)
    (h : bits inHand acc = bits inHand acc') :
    regroupFrom source target acc inHand (values.map Int.ofNat) =
      unmaskedFrom source target acc' inHand values := by
  -- The two readers agree on the bits in hand, though not on those above them.
  induction values generalizing acc acc' inHand with
  | nil =>
    rw [List.map_nil, regroupFrom, unmaskedFrom, lastGroup_congr hlt.le h]
  | cons v rest ih =>
    rw [List.forall_mem_cons] at hvalues
    have hread : bits (inHand + source) (accumulate source target acc v) =
        bits (inHand + source) (acc' <<< source ||| v) := by
      rw [bits_accumulate hlt acc hvalues.1, h, bits_shiftLeft_or hvalues.1]
    obtain ⟨hgroups, hrest⟩ := groups_congr target hread
    rw [List.map_cons, regroupFrom, unmaskedFrom, Int.ofNat_eq_natCast, hgroups,
      ih hvalues.2 (Nat.mod_lt _ htarget) hrest]

end

/-! ## There and back -/

theorem stream_replicate_zero (width count : Nat) :
    stream width (List.replicate count 0) = List.replicate (width * count) false := by
  rw [stream, List.flatMap_replicate, bits_zero, List.flatten_replicate_replicate, Nat.mul_comm]

/-- Values whose stream is that of others with zeros behind it are these with zeros behind them. -/
theorem exists_append_replicate_zero {width : Nat} (hwidth : 0 < width) {vs ws : List Nat}
    (hvs : ∀ v ∈ vs, v < 2 ^ width) (hws : ∀ w ∈ ws, w < 2 ^ width) {fill : Nat}
    (h : stream width ws = stream width vs ++ List.replicate fill false) :
    ∃ zeros, ws = vs ++ List.replicate zeros 0 := by
  have hlengths := congrArg List.length h
  simp only [List.length_append, length_stream, List.length_replicate] at hlengths
  have hle : vs.length ≤ ws.length :=
    Nat.le_of_mul_le_mul_left (by rw [hlengths]; exact Nat.le_add_right _ _) hwidth
  obtain ⟨zeros, hzeros⟩ := Nat.exists_eq_add_of_le hle
  have hfill : fill = width * zeros := by
    rw [hzeros, Nat.mul_add] at hlengths
    exact (Nat.add_left_cancel hlengths).symm
  refine ⟨zeros, stream_injective hws ?_ ?_ ?_⟩
  · intro v hv
    rcases List.mem_append.1 hv with hv | hv
    · exact hvs v hv
    · rw [List.eq_of_mem_replicate hv]
      exact Nat.two_pow_pos width
  · rw [hzeros, List.length_append, List.length_replicate]
  · rw [h, stream_append, stream_replicate_zero, hfill]

section

variable {source target : Nat} (htarget : 0 < target) {values : List Nat}
  (hvalues : ∀ v ∈ values, v < 2 ^ source)

include htarget hvalues

/-- The new groups are as few as can hold all bits. -/
theorem length_regroup :
    (regroup source target (values.map Int.ofNat)).length =
      (source * values.length) ⌈/⌉ target := by
  obtain ⟨fill, hfill, hstream⟩ := stream_regroup htarget hvalues
  have hlengths := congrArg List.length hstream
  simp only [List.length_append, length_stream, List.length_replicate] at hlengths
  rw [Nat.ceilDiv_eq_add_pred_div]
  refine (Nat.div_eq_of_lt_le ?_ ?_).symm
  · rw [Nat.mul_comm _ target, hlengths]
    omega
  · rw [Nat.add_mul, Nat.one_mul, Nat.mul_comm _ target, hlengths]
    omega

/-- Values that are regrouped back are what they were, with zeros behind them. -/
theorem exists_regroup_regroup (hsource : 0 < source) :
    ∃ zeros, regroup target source
      ((regroup source target (values.map Int.ofNat)).map Int.ofNat) =
        values ++ List.replicate zeros 0 := by
  obtain ⟨fill, -, hstream⟩ := stream_regroup htarget hvalues
  have hgroups : ∀ g ∈ regroup source target (values.map Int.ofNat), g < 2 ^ target :=
    fun _ => regroupFrom_lt
  obtain ⟨fill', -, hback⟩ := stream_regroup hsource hgroups
  rw [hstream, List.append_assoc, List.replicate_append_replicate] at hback
  exact exists_append_replicate_zero hsource hvalues (fun _ => regroupFrom_lt) hback

end

/-! ## What regrouping makes of values -/

/-- The groups that values are cut into anew: as few as can hold all bits, each of the new width,
with the bits of the values and less than a group of zeros behind them. The mask has no part in
them, and they are cut back into the values, with zeros behind these. -/
structure IsRegrouped (source target : Nat) (values groups : List Nat) : Prop where
  length : groups.length = (source * values.length) ⌈/⌉ target
  lt : ∀ g ∈ groups, g < 2 ^ target
  stream : ∃ fill < target,
    stream target groups = stream source values ++ List.replicate fill false
  unmasked : groups = unmaskedFrom source target 0 0 values
  back : ∃ zeros, regroup? target source (groups.map Int.ofNat) =
    .ok (values ++ List.replicate zeros 0)

theorem regroup?_natCast {source target : Nat} (htarget : 0 < target) (data : List Int) :
    regroup? source target data = .ok (regroup source target data) := by
  rw [regroup?, if_neg (by omega), Int.toNat_natCast, Int.toNat_natCast]

/-- Values of any width are cut into groups of any other. -/
theorem exists_isRegrouped {source target : Nat} (hsource : 0 < source) (htarget : 0 < target)
    {values : List Nat} (hvalues : ∀ v ∈ values, v < 2 ^ source) :
    ∃ groups, regroup? source target (values.map Int.ofNat) = .ok groups ∧
      IsRegrouped source target values groups := by
  refine ⟨_, regroup?_natCast htarget _, ?_⟩
  constructor
  case length => exact length_regroup htarget hvalues
  case lt => exact fun _ => regroupFrom_lt
  case stream => exact stream_regroup htarget hvalues
  case unmasked => exact regroupFrom_eq_unmaskedFrom htarget hvalues htarget rfl
  case back =>
    obtain ⟨zeros, hback⟩ := exists_regroup_regroup htarget hvalues hsource
    exact ⟨zeros, by rw [regroup?_natCast hsource, hback]⟩

/-- Three values that are cut into two wider groups, and come back with three zeros. -/
theorem exists_isRegrouped_wider :
    0 < 5 ∧ 0 < 13 ∧ (∀ v ∈ [31, 0, 1], v < 2 ^ 5) ∧ IsRegrouped 5 13 [31, 0, 1] [7936, 2048] ∧
      regroup? 13 5 [7936, 2048] = .ok [31, 0, 1, 0, 0, 0] := by
  have hvalues : ∀ v ∈ [31, 0, 1], v < 2 ^ 5 := by decide
  obtain ⟨groups, hgroups, hregrouped⟩ :=
    exists_isRegrouped (by decide : 0 < 5) (by decide : 0 < 13) hvalues
  have hcut : regroup? (5 : Nat) (13 : Nat) ([31, 0, 1].map Int.ofNat) = .ok [7936, 2048] := by
    rfl
  obtain rfl := Except.ok.inj (hgroups.symm.trans hcut)
  exact ⟨by decide, by decide, hvalues, hregrouped, rfl⟩

end InscriptionLedger.Regroup
