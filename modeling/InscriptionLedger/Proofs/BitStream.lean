import InscriptionLedger.Address.Regroup
import Mathlib

/-!
# Regrouping keeps the stream of bits

Values of a width are read as a stream of bits, most significant first. Regrouping cuts the stream
anew: the values of the new width hold the bits of the old ones, and zeros behind them that fill the
last value. The bits in hand are all that the reader has to keep, as the mask of its accumulator is
wide enough for them and for one more value.

## Main definitions

* `Regroup.bits width n`: the lowest bits of a number
* `Regroup.stream width values`: the bits of values, one after another
* `Regroup.cut width stream`: the whole values in a stream of bits, and the bits left over

## Main results

* `Regroup.stream_injective`: values are told apart by their bits
* `Regroup.cut_stream_append`: values are cut from their stream, and what does not fill one is left
* `Regroup.bits_accumulate`: no bit in hand is masked
* `Regroup.stream_regroup`: regrouping keeps the stream, and fills it with zeros
* `Regroup.regroup_injective`: values cut into groups that are not wider are told apart by these
-/

namespace InscriptionLedger.Regroup

/-! ## Bits of a number -/

/-- The lowest bits of a number, most significant first. -/
def bits : Nat → Nat → List Bool
  | 0, _ => []
  | width + 1, n => n.testBit width :: bits width n

@[simp] theorem length_bits (width n : Nat) : (bits width n).length = width := by
  induction width with
  | zero => rfl
  | succ width ih => rw [bits, List.length_cons, ih]

/-- Numbers have the same lowest bits exactly if they have the same bits there. -/
theorem bits_eq_iff {width m n : Nat} :
    bits width m = bits width n ↔ ∀ i < width, m.testBit i = n.testBit i := by
  induction width with
  | zero => exact iff_of_true rfl fun i hi => absurd hi (Nat.not_lt_zero i)
  | succ width ih =>
    rw [bits, bits, List.cons.injEq, ih, Nat.forall_lt_succ_right, and_comm]

theorem bits_mod {width room : Nat} (h : width ≤ room) (n : Nat) :
    bits width (n % 2 ^ room) = bits width n := by
  apply bits_eq_iff.2
  intro i hi
  rw [Nat.testBit_mod_two_pow, decide_eq_true (by omega), Bool.true_and]

/-- The bits are those of the higher part and those of the lower part behind them. -/
theorem bits_add (high low n : Nat) :
    bits (high + low) n = bits high (n >>> low) ++ bits low n := by
  induction high with
  | zero => rw [Nat.zero_add, bits, List.nil_append]
  | succ high ih =>
    rw [Nat.succ_add, bits, bits, ih, Nat.testBit_shiftRight, Nat.add_comm low high,
      List.cons_append]

theorem bits_zero (width : Nat) : bits width 0 = List.replicate width false := by
  induction width with
  | zero => rfl
  | succ width ih => rw [bits, ih, Nat.zero_testBit, List.replicate_succ]

/-- A value moved up has its bits in front of the bits that come in. -/
theorem bits_shiftLeft_or {low v : Nat} (hv : v < 2 ^ low) (high n : Nat) :
    bits (high + low) (n <<< low ||| v) = bits high n ++ bits low v := by
  have hhigh : (n <<< low ||| v) >>> low = n := by
    rw [Nat.shiftRight_or_distrib, Nat.shiftLeft_shiftRight, Nat.shiftRight_eq_div_pow,
      Nat.div_eq_of_lt hv, Nat.or_zero]
  rw [bits_add, hhigh]
  refine congrArg (bits high n ++ ·) (bits_eq_iff.2 fun i hi => ?_)
  rw [Nat.testBit_or, Nat.testBit_shiftLeft, decide_eq_false (by omega), Bool.false_and,
    Bool.false_or]

/-- A number moved up has zeros behind its bits. -/
theorem bits_shiftLeft (high low n : Nat) :
    bits (high + low) (n <<< low) = bits high n ++ List.replicate low false := by
  have hor := bits_shiftLeft_or (Nat.two_pow_pos low) high n
  rwa [Nat.or_zero, bits_zero] at hor

/-- Numbers of a width are told apart by their bits. -/
theorem eq_of_bits_eq {width m n : Nat} (hm : m < 2 ^ width) (hn : n < 2 ^ width)
    (h : bits width m = bits width n) : m = n := by
  apply Nat.eq_of_testBit_eq
  intro i
  rcases Nat.lt_or_ge i width with hi | hi
  · exact bits_eq_iff.1 h i hi
  · have hwide := Nat.pow_le_pow_right Nat.two_pos hi
    rw [Nat.testBit_lt_two_pow (hm.trans_le hwide), Nat.testBit_lt_two_pow (hn.trans_le hwide)]

/-! ## Bits of several values -/

/-- The bits of values of a width, one after another. -/
def stream (width : Nat) (values : List Nat) : List Bool := values.flatMap (bits width)

@[simp] theorem stream_nil (width : Nat) : stream width [] = [] := rfl

@[simp] theorem stream_cons (width v : Nat) (rest : List Nat) :
    stream width (v :: rest) = bits width v ++ stream width rest := rfl

@[simp] theorem stream_append (width : Nat) (vs ws : List Nat) :
    stream width (vs ++ ws) = stream width vs ++ stream width ws :=
  List.flatMap_append

@[simp] theorem length_stream (width : Nat) (values : List Nat) :
    (stream width values).length = width * values.length := by
  induction values with
  | nil => rfl
  | cons v rest ih => rw [stream_cons, List.length_append, length_bits, ih, List.length_cons,
      Nat.mul_succ, Nat.add_comm]

/-- Values of a width are told apart by their bits. -/
theorem stream_injective {width : Nat} {vs ws : List Nat} (hvs : ∀ v ∈ vs, v < 2 ^ width)
    (hws : ∀ w ∈ ws, w < 2 ^ width) (hlength : vs.length = ws.length)
    (h : stream width vs = stream width ws) : vs = ws := by
  induction vs generalizing ws with
  | nil => exact (List.length_eq_zero_iff.1 hlength.symm).symm
  | cons v vs ih =>
    obtain ⟨w, ws, rfl⟩ := List.exists_cons_of_length_eq_add_one hlength.symm
    rw [List.forall_mem_cons] at hvs hws
    obtain ⟨hbits, hrest⟩ := List.append_inj h (by rw [length_bits, length_bits])
    rw [eq_of_bits_eq hvs.1 hws.1 hbits, ih hvs.2 hws.2 (Nat.succ.inj hlength) hrest]

/-! ## Values cut from a stream -/

/-- The number that bits denote, most significant first. -/
def ofBits (bs : List Bool) : Nat := bs.foldl (fun n b => 2 * n + b.toNat) 0

theorem foldl_bits (start width n : Nat) :
    (bits width n).foldl (fun n b => 2 * n + b.toNat) start =
      2 ^ width * start + n % 2 ^ width := by
  induction width generalizing start with
  | zero => simp [bits, Nat.mod_one]
  | succ width ih =>
    rw [bits, List.foldl_cons, ih, Nat.mod_pow_succ, Nat.toNat_testBit, Nat.pow_succ]
    ring

/-- A number of a width is that of its bits. -/
theorem ofBits_bits {width n : Nat} (h : n < 2 ^ width) : ofBits (bits width n) = n := by
  rw [ofBits, foldl_bits, Nat.mul_zero, Nat.zero_add, Nat.mod_eq_of_lt h]

/-- The whole values of a width in a stream of bits, and the bits left over. -/
def cut (width : Nat) (stream : List Bool) : List Nat × List Bool :=
  if 0 < width ∧ width ≤ stream.length then
    let (values, rest) := cut width (stream.drop width)
    (ofBits (stream.take width) :: values, rest)
  else ([], stream)
termination_by stream.length
decreasing_by
  rw [List.length_drop]
  omega

/-- Values are cut from their stream, and bits behind them that do not fill one are left over. -/
theorem cut_stream_append {width : Nat} {values : List Nat} (hvalues : ∀ v ∈ values, v < 2 ^ width)
    {rest : List Bool} (hrest : rest.length < width) :
    cut width (stream width values ++ rest) = (values, rest) := by
  induction values with
  | nil =>
    rw [stream_nil, List.nil_append, cut, if_neg]
    omega
  | cons v values ih =>
    rw [List.forall_mem_cons] at hvalues
    rw [stream_cons, List.append_assoc, cut, if_pos (by simp; omega),
      List.drop_left' (length_bits width v), List.take_left' (length_bits width v), ih hvalues.2,
      ofBits_bits hvalues.1]

/-! ## The reader's steps -/

/-- No bit in hand is masked: behind the bits in hand stand those of the value that was read. -/
theorem bits_accumulate {source target inHand : Nat} (h : inHand < target) (acc : Nat) {v : Nat}
    (hv : v < 2 ^ source) :
    bits (inHand + source) (accumulate source target acc v) = bits inHand acc ++ bits source v := by
  have hroom : ((v : Int) % ((2 ^ (source + target - 1) : Nat) : Int)).toNat = v := by
    rw [← Int.natCast_mod, Int.toNat_natCast, Nat.mod_eq_of_lt]
    exact hv.trans_le (Nat.pow_le_pow_right Nat.two_pos (by omega))
  unfold accumulate
  simp only [Nat.one_shiftLeft]
  rw [bits_mod (by omega), hroom, bits_shiftLeft_or hv]

/-- Groups cut from the top of the bits in hand hold these, but for the rest. -/
theorem stream_cuts_append (target acc count rest : Nat) :
    stream target ((List.range count).map fun i =>
      (acc >>> (target * count + rest - target * (i + 1))) % 2 ^ target) ++ bits rest acc =
        bits (target * count + rest) acc := by
  induction count with
  | zero =>
    rw [Nat.mul_zero, Nat.zero_add]
    rfl
  | succ count ih =>
    have hfirst : target * (count + 1) + rest - target * (0 + 1) = target * count + rest := by
      rw [Nat.mul_succ, Nat.zero_add, Nat.mul_one]
      omega
    have hothers (i : Nat) : target * (count + 1) + rest - target * (i + 1 + 1) =
        target * count + rest - target * (i + 1) := by
      rw [Nat.mul_succ, Nat.mul_succ target (i + 1)]
      omega
    have hsplit : target * (count + 1) + rest = target + (target * count + rest) := by
      rw [Nat.mul_succ]
      omega
    rw [List.range_succ_eq_map, List.map_cons, List.map_map, stream_cons, hfirst,
      bits_mod le_rfl, List.append_assoc]
    simp only [Function.comp_def, Nat.succ_eq_add_one, hothers]
    rw [ih, hsplit, bits_add target]

/-- The whole groups hold the bits in hand but for those that stay. -/
theorem stream_groups_append (target acc inHand : Nat) :
    stream target (groups target acc inHand) ++ bits (inHand % target) acc = bits inHand acc := by
  have hparts := stream_cuts_append target acc (inHand / target) (inHand % target)
  rw [Nat.div_add_mod] at hparts
  unfold groups
  simp only [Nat.one_shiftLeft]
  exact hparts

/-! ## Regrouping -/

section

variable {source target : Nat} (htarget : 0 < target)

include htarget

/-- The new groups hold the bits in hand and those of the rest, and zeros that fill the last
group. -/
theorem stream_regroupFrom {values : List Nat} (hvalues : ∀ v ∈ values, v < 2 ^ source)
    (acc : Nat) {inHand : Nat} (h : inHand < target) :
    ∃ fill < target, stream target (regroupFrom source target acc inHand (values.map Int.ofNat)) =
      bits inHand acc ++ stream source values ++ List.replicate fill false := by
  -- The induction is on what is still to be read, for any bits in hand.
  induction values generalizing acc inHand with
  | nil =>
    rw [List.map_nil, regroupFrom]
    split
    · next hnone =>
      subst hnone
      exact ⟨0, htarget, rfl⟩
    · next hsome =>
      refine ⟨target - inHand, by omega, ?_⟩
      have hbits := bits_shiftLeft inHand (target - inHand) acc
      rw [Nat.add_sub_cancel' h.le] at hbits
      rw [stream_cons, stream_nil, stream_nil, Nat.one_shiftLeft, bits_mod le_rfl, hbits,
        List.append_nil, List.append_nil]
  | cons v rest ih =>
    rw [List.forall_mem_cons] at hvalues
    obtain ⟨fill, hfill, hrest⟩ := ih hvalues.2 (accumulate source target acc (Int.ofNat v))
      (Nat.mod_lt (inHand + source) htarget)
    refine ⟨fill, hfill, ?_⟩
    rw [List.map_cons, regroupFrom, stream_append, hrest, ← List.append_assoc,
      ← List.append_assoc, stream_groups_append, Int.ofNat_eq_natCast,
      bits_accumulate h acc hvalues.1, stream_cons]
    simp only [List.append_assoc]

/-- Regrouping keeps the stream of bits, and fills it with zeros. -/
theorem stream_regroup {values : List Nat} (hvalues : ∀ v ∈ values, v < 2 ^ source) :
    ∃ fill < target, stream target (regroup source target (values.map Int.ofNat)) =
      stream source values ++ List.replicate fill false :=
  stream_regroupFrom htarget hvalues 0 htarget

/-- Values that are cut into groups that are not wider are told apart by these groups. -/
theorem regroup_injective (hle : target ≤ source) {vs ws : List Nat}
    (hvs : ∀ v ∈ vs, v < 2 ^ source) (hws : ∀ w ∈ ws, w < 2 ^ source)
    (h : regroup source target (vs.map Int.ofNat) = regroup source target (ws.map Int.ofNat)) :
    vs = ws := by
  obtain ⟨fill, hfill, hstream⟩ := stream_regroup htarget hvs
  obtain ⟨fill', hfill', hstream'⟩ := stream_regroup htarget hws
  rw [h, hstream'] at hstream
  have hcount (n fill : Nat) (hfill : fill < target) : (source * n + fill) / source = n := by
    rw [Nat.mul_add_div (by omega), Nat.div_eq_of_lt (by omega), Nat.add_zero]
  have hlengths := congrArg List.length hstream
  simp only [List.length_append, length_stream, List.length_replicate] at hlengths
  have hlength : vs.length = ws.length := by
    rw [← hcount vs.length fill hfill, ← hlengths, hcount ws.length fill' hfill']
  refine stream_injective hvs hws hlength (List.append_inj hstream.symm ?_).1
  rw [length_stream, length_stream, hlength]

end

theorem groups_lt {target acc inHand g : Nat} (h : g ∈ groups target acc inHand) :
    g < 2 ^ target := by
  obtain ⟨i, -, rfl⟩ := List.mem_map.1 h
  rw [Nat.one_shiftLeft]
  exact Nat.mod_lt _ (Nat.two_pow_pos target)

/-- The new groups are values of the new width. -/
theorem regroupFrom_lt {source target : Nat} {values : List Int} {acc inHand : Nat} {g : Nat}
    (h : g ∈ regroupFrom source target acc inHand values) : g < 2 ^ target := by
  induction values generalizing acc inHand with
  | nil =>
    rw [regroupFrom] at h
    split at h
    · cases h
    · rw [List.mem_singleton] at h
      rw [h, Nat.one_shiftLeft]
      exact Nat.mod_lt _ (Nat.two_pow_pos target)
  | cons v rest ih =>
    rw [regroupFrom] at h
    rcases List.mem_append.1 h with h | h
    · exact groups_lt h
    · exact ih h

end InscriptionLedger.Regroup
