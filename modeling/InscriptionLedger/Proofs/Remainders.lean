import InscriptionLedger.Proofs.Addresses

/-!
# Remainders and the errors that they show

The remainder of a sequence of symbols is a shift register of thirty bits, six symbols wide: a
symbol comes in at the low end, and what leaves at the high end is fed back as a sum of generators.
The register is linear in exclusive or, and its step loses nothing, as the low bits of a sum of
generators tell which generators are in it. Six symbols fill an empty register before anything is
fed back. So any wanted remainder is reached by six symbols behind the others, and symbols that
differ from these in a run of at most six places have another remainder, whatever follows.

## Main definitions

* `Bech32.feed chk`, `Bech32.shiftIn chk v`, `Bech32.remainder chk values`: the register's steps
* `Bech32.Verifies hrp constant symbols`: symbols that have the wanted remainder
* `Bech32.DiffersWithin size word other`: words that differ in a run of places only
* `Bech32.IsGuarded hrp constant word`: words whose errors are seen

## Main results

* `Bech32.remainder_xor`: the register is linear
* `Bech32.eq_of_remainder_eq`: nothing is lost on the way through the register
* `Bech32.remainder_eq_foldl`: six symbols fill an empty register
* `Bech32.verifies_checksum`: the symbols of a checksum reach the wanted remainder
* `Bech32.isGuarded_checksum`: a checksum shows errors in six neighbouring places
-/

namespace InscriptionLedger.Bech32

/-! ## The register -/

/-- The register after one more step: the low bits move up, the high ones are fed back. -/
def feed (chk : Nat) : Nat := (chk % 2 ^ 25) <<< 5 ^^^ generatorSum (chk / 2 ^ 25 % 2 ^ 5)

/-- The register after one more symbol. -/
def shiftIn (chk value : Nat) : Nat := value ^^^ feed chk

/-- The register after several symbols. -/
def remainder (chk : Nat) (values : List Nat) : Nat := values.foldl shiftIn chk

@[simp] theorem remainder_cons (chk v : Nat) (rest : List Nat) :
    remainder chk (v :: rest) = remainder (shiftIn chk v) rest := rfl

@[simp] theorem remainder_append (chk : Nat) (vs ws : List Nat) :
    remainder chk (vs ++ ws) = remainder (remainder chk vs) ws :=
  List.foldl_append

theorem polymodStep_natCast (chk v : Nat) :
    polymodStep (chk : Int) (v : Int) = (shiftIn chk v : Nat) := rfl

theorem polymod_natCast (values : List Nat) :
    polymod (values.map Int.ofNat) = (remainder 1 values : Nat) := by
  have hsteps (chk : Nat) :
      (values.map Int.ofNat).foldl polymodStep (chk : Int) = (remainder chk values : Nat) := by
    induction values generalizing chk with
    | nil => rfl
    | cons v rest ih =>
      rw [List.map_cons, List.foldl_cons, Int.ofNat_eq_natCast, polymodStep_natCast, ih,
        remainder_cons]
  exact hsteps 1

/-! ## Linearity -/

theorem foldl_generators_xor (gs : List (Nat × Nat)) (m n a b : Nat) :
    gs.foldl (fun acc (g, i) => if (m ^^^ n).testBit i then acc ^^^ g else acc) (a ^^^ b) =
      gs.foldl (fun acc (g, i) => if m.testBit i then acc ^^^ g else acc) a ^^^
        gs.foldl (fun acc (g, i) => if n.testBit i then acc ^^^ g else acc) b := by
  induction gs generalizing a b with
  | nil => rfl
  | cons x rest ih =>
    obtain ⟨g, i⟩ := x
    simp only [List.foldl_cons]
    rw [← ih]
    congr 1
    have hboth : a ^^^ g ^^^ (b ^^^ g) = a ^^^ b := by
      rw [Nat.xor_comm b g, ← Nat.xor_assoc, Nat.xor_assoc a g g, Nat.xor_self, Nat.xor_zero]
    rw [Nat.testBit_xor]
    cases m.testBit i <;> cases n.testBit i
    · rfl
    · exact Nat.xor_assoc a b g
    · simp only [Bool.bne_false, if_true, Bool.false_eq_true, if_false]
      ac_rfl
    · exact hboth.symm

theorem generatorSum_xor (m n : Nat) :
    generatorSum (m ^^^ n) = generatorSum m ^^^ generatorSum n :=
  foldl_generators_xor _ m n 0 0

theorem feed_xor (a b : Nat) : feed (a ^^^ b) = feed a ^^^ feed b := by
  unfold feed
  rw [Nat.xor_mod_two_pow, Nat.xor_div_two_pow, Nat.xor_mod_two_pow, Nat.shiftLeft_xor_distrib,
    generatorSum_xor]
  ac_rfl

theorem shiftIn_xor (a b u v : Nat) :
    shiftIn (a ^^^ b) (u ^^^ v) = shiftIn a u ^^^ shiftIn b v := by
  unfold shiftIn
  rw [feed_xor]
  ac_rfl

/-- The register is linear: the remainders of two sequences add up to that of their sum. -/
theorem remainder_xor {us vs : List Nat} (h : us.length = vs.length) (a b : Nat) :
    remainder (a ^^^ b) (List.zipWith (· ^^^ ·) us vs) = remainder a us ^^^ remainder b vs := by
  induction us generalizing vs a b with
  | nil =>
    obtain rfl := List.length_eq_zero_iff.1 h.symm
    rfl
  | cons u us ih =>
    obtain ⟨v, vs, rfl⟩ := List.exists_cons_of_length_eq_add_one h.symm
    rw [List.zipWith_cons_cons, remainder_cons, remainder_cons, remainder_cons, shiftIn_xor,
      ih (Nat.succ.inj h)]

/-! ## Nothing is lost -/

theorem generatorSum_lt {top : Nat} (h : top < 2 ^ 5) : generatorSum top < 2 ^ 30 := by
  have all : ∀ t : Fin 32, generatorSum t < 2 ^ 30 := by decide
  exact all ⟨top, h⟩

/-- The low bits of a sum of generators are zero only if no generator is in it. -/
theorem eq_zero_of_generatorSum_mod {top : Nat} (h : top < 2 ^ 5)
    (hlow : generatorSum top % 2 ^ 5 = 0) : top = 0 := by
  have all : ∀ t : Fin 32, generatorSum t % 2 ^ 5 = 0 → t.val = 0 := by decide
  exact all ⟨top, h⟩ hlow

theorem feed_of_lt {chk : Nat} (h : chk < 2 ^ 25) : feed chk = chk <<< 5 := by
  rw [feed, Nat.mod_eq_of_lt h, Nat.div_eq_of_lt h]
  exact Nat.xor_zero _

theorem feed_lt (chk : Nat) : feed chk < 2 ^ 30 := by
  have hmod : chk % 2 ^ 25 < 2 ^ 25 := Nat.mod_lt _ (by decide)
  refine Nat.xor_lt_two_pow ?_ (generatorSum_lt (Nat.mod_lt _ (by decide)))
  rw [Nat.shiftLeft_eq]
  omega

theorem shiftIn_lt (chk : Nat) {v : Nat} (h : v < 2 ^ 30) : shiftIn chk v < 2 ^ 30 :=
  Nat.xor_lt_two_pow h (feed_lt chk)

theorem remainder_lt {chk : Nat} (h : chk < 2 ^ 30) {values : List Nat}
    (hvalues : ∀ v ∈ values, v < 2 ^ 30) : remainder chk values < 2 ^ 30 := by
  induction values generalizing chk with
  | nil => exact h
  | cons v rest ih =>
    rw [List.forall_mem_cons] at hvalues
    exact ih (shiftIn_lt chk hvalues.1) hvalues.2

/-- What is fed back shows in the low bits, which the others do not reach. -/
theorem eq_zero_of_feed_eq_zero {chk : Nat} (h : chk < 2 ^ 30) (hfeed : feed chk = 0) :
    chk = 0 := by
  have htop : chk / 2 ^ 25 < 2 ^ 5 := by omega
  have hlow : generatorSum (chk / 2 ^ 25) % 2 ^ 5 = 0 := by
    have hsum := Nat.xor_eq_zero_iff.1 hfeed
    rw [Nat.mod_eq_of_lt htop] at hsum
    rw [← hsum, Nat.shiftLeft_eq, Nat.mul_mod_left]
  have hzero := eq_zero_of_generatorSum_mod htop hlow
  have hsmall : chk < 2 ^ 25 := by omega
  rw [feed_of_lt hsmall, Nat.shiftLeft_eq] at hfeed
  omega

theorem eq_of_feed_eq {a b : Nat} (ha : a < 2 ^ 30) (hb : b < 2 ^ 30) (h : feed a = feed b) :
    a = b := by
  refine Nat.xor_eq_zero_iff.1 (eq_zero_of_feed_eq_zero (Nat.xor_lt_two_pow ha hb) ?_)
  rw [feed_xor, h, Nat.xor_self]

/-- Registers that are told apart stay apart, whatever comes in. -/
theorem eq_of_remainder_eq {a b : Nat} (ha : a < 2 ^ 30) (hb : b < 2 ^ 30) {values : List Nat}
    (hvalues : ∀ v ∈ values, v < 2 ^ 30) (h : remainder a values = remainder b values) :
    a = b := by
  induction values generalizing a b with
  | nil => exact h
  | cons v rest ih =>
    rw [List.forall_mem_cons] at hvalues
    have hnext : shiftIn a v = shiftIn b v :=
      ih (shiftIn_lt a hvalues.1) (shiftIn_lt b hvalues.1) hvalues.2 h
    exact eq_of_feed_eq ha hb (Nat.xor_right_injective hnext)

/-! ## Six symbols fill the register -/

theorem shiftIn_of_lt {chk v : Nat} (h : chk < 2 ^ 25) (hv : v < 2 ^ 5) :
    shiftIn chk v = 32 * chk + v := by
  have hdiv : shiftIn chk v / 2 ^ 5 = chk := by
    rw [shiftIn, feed_of_lt h, Nat.xor_div_two_pow, Nat.div_eq_of_lt hv, Nat.shiftLeft_eq,
      Nat.mul_div_cancel _ (by decide), Nat.zero_xor]
  have hmod : shiftIn chk v % 2 ^ 5 = v := by
    rw [shiftIn, feed_of_lt h, Nat.xor_mod_two_pow, Nat.mod_eq_of_lt hv, Nat.shiftLeft_eq,
      Nat.mul_mod_left, Nat.xor_zero]
  omega

/-- As long as the register has room, the symbols stand in it one behind another. -/
theorem remainder_eq_foldl {symbols : List Nat} (hsymbols : ∀ v ∈ symbols, v < 32)
    {chk room : Nat} (hroom : symbols.length + room = 6) (hchk : chk < 32 ^ room) :
    remainder chk symbols = symbols.foldl (fun n v => 32 * n + v) chk := by
  induction symbols generalizing chk room with
  | nil => rfl
  | cons v rest ih =>
    rw [List.forall_mem_cons] at hsymbols
    rw [List.length_cons] at hroom
    have hsmall : chk < 2 ^ 25 := hchk.trans_le (Nat.pow_le_pow_right (by decide) (by omega) :
      32 ^ room ≤ 32 ^ 5)
    have hnext : 32 * chk + v < 32 ^ (room + 1) := by
      rw [Nat.pow_succ]
      omega
    rw [remainder_cons, List.foldl_cons, shiftIn_of_lt hsmall hsymbols.1,
      ih hsymbols.2 (by omega) hnext]

theorem eq_zero_of_foldl_eq_zero {symbols : List Nat} {n : Nat}
    (h : symbols.foldl (fun n v => 32 * n + v) n = 0) : n = 0 ∧ ∀ v ∈ symbols, v = 0 := by
  induction symbols generalizing n with
  | nil => exact ⟨h, nofun⟩
  | cons v rest ih =>
    obtain ⟨hn, hrest⟩ : 32 * n + v = 0 ∧ ∀ v ∈ rest, v = 0 := ih h
    exact ⟨by omega, List.forall_mem_cons.2 ⟨by omega, hrest⟩⟩

theorem eq_of_zipWith_xor {us vs : List Nat} (hlength : us.length = vs.length)
    (h : ∀ d ∈ List.zipWith (· ^^^ ·) us vs, d = 0) : us = vs := by
  induction us generalizing vs with
  | nil => exact (List.length_eq_zero_iff.1 hlength.symm).symm
  | cons u us ih =>
    obtain ⟨v, vs, rfl⟩ := List.exists_cons_of_length_eq_add_one hlength.symm
    rw [List.zipWith_cons_cons, List.forall_mem_cons] at h
    rw [Nat.xor_eq_zero_iff.1 h.1, ih (Nat.succ.inj hlength) h.2]

theorem zipWith_xor_lt {us vs : List Nat} {width : Nat} (hus : ∀ v ∈ us, v < 2 ^ width)
    (hvs : ∀ v ∈ vs, v < 2 ^ width) :
    ∀ d ∈ List.zipWith (· ^^^ ·) us vs, d < 2 ^ width := by
  intro d hd
  obtain ⟨i, hi, rfl⟩ := List.getElem_of_mem hd
  rw [List.getElem_zipWith]
  exact Nat.xor_lt_two_pow (hus _ (List.getElem_mem _)) (hvs _ (List.getElem_mem _))

theorem zipWith_zeros_xor {values : List Nat} {n : Nat} (h : values.length = n) :
    List.zipWith (· ^^^ ·) (List.replicate n 0) values = values := by
  induction values generalizing n with
  | nil => exact List.zipWith_nil_right
  | cons v rest ih =>
    obtain rfl := h
    rw [List.length_cons, List.replicate_succ, List.zipWith_cons_cons, Nat.zero_xor, ih rfl]

/-- At most six symbols are told by what they make of a register. -/
theorem eq_of_remainder_eq_of_short {us vs : List Nat} (hus : ∀ v ∈ us, v < 32)
    (hvs : ∀ v ∈ vs, v < 32) (hlength : us.length = vs.length) (hshort : us.length ≤ 6) {chk : Nat}
    (h : remainder chk us = remainder chk vs) : us = vs := by
  -- The difference of both comes into an empty register, which stays empty.
  have hsum := remainder_xor hlength chk chk
  rw [h, Nat.xor_self, Nat.xor_self] at hsum
  have hwidth : (List.zipWith (· ^^^ ·) us vs).length + (6 - us.length) = 6 := by
    rw [List.length_zipWith, ← hlength, Nat.min_self]
    omega
  have hdifferences : ∀ d ∈ List.zipWith (· ^^^ ·) us vs, d < 2 ^ 5 := zipWith_xor_lt hus hvs
  rw [remainder_eq_foldl hdifferences hwidth (Nat.pow_pos (by decide))] at hsum
  exact eq_of_zipWith_xor hlength (eq_zero_of_foldl_eq_zero hsum).2

/-! ## Words that differ in a run of places -/

/-- Two words of one length that differ, but only within a run of so many places. -/
structure DiffersWithin (size : Nat) (word other : List Nat) : Prop where
  length : other.length = word.length
  ne : other ≠ word
  window : ∃ start, ∀ i, other[i]? ≠ word[i]? → start ≤ i ∧ i < start + size

/-- Words that differ within a run are the same before the run and behind it. -/
theorem DiffersWithin.exists_append {size : Nat} {word other : List Nat}
    (h : DiffersWithin size word other) : ∃ before burst burst' after,
      word = before ++ burst ++ after ∧ other = before ++ burst' ++ after ∧
        burst'.length = burst.length ∧ burst.length ≤ size ∧ burst' ≠ burst := by
  obtain ⟨start, hsame⟩ := h.window
  have hsplit (l : List Nat) :
      l = l.take start ++ (l.drop start).take size ++ l.drop (start + size) := by
    rw [List.append_assoc, ← List.drop_drop, List.take_append_drop, List.take_append_drop]
  have hbefore : other.take start = word.take start := by
    apply List.ext_getElem?
    intro i
    rw [List.getElem?_take, List.getElem?_take]
    split
    · by_contra hne
      have := hsame i hne
      omega
    · rfl
  have hafter : other.drop (start + size) = word.drop (start + size) := by
    apply List.ext_getElem?
    intro i
    rw [List.getElem?_drop, List.getElem?_drop]
    by_contra hne
    have := hsame _ hne
    omega
  have hother := hsplit other
  rw [hbefore, hafter] at hother
  refine ⟨word.take start, (word.drop start).take size, (other.drop start).take size,
    word.drop (start + size), hsplit word, hother, ?_, List.length_take_le .., ?_⟩
  · simp only [List.length_take, List.length_drop, h.length]
  · intro hburst
    rw [hburst, ← hsplit word] at hother
    exact h.ne hother

/-- Words that differ within six places have other remainders. -/
theorem remainder_ne_of_differsWithin {word other : List Nat} (hword : ∀ v ∈ word, v < 32)
    (hother : ∀ v ∈ other, v < 32) (h : DiffersWithin 6 word other) {chk : Nat}
    (hchk : chk < 2 ^ 30) : remainder chk other ≠ remainder chk word := by
  obtain ⟨before, burst, burst', after, rfl, rfl, hlength, hshort, hne⟩ := h.exists_append
  simp only [List.forall_mem_append] at hword hother
  have hwide {v : Nat} (hv : v < 32) : v < 2 ^ 30 := hv.trans (by decide)
  have hfront := remainder_lt hchk fun v hv => hwide (hword.1.1 v hv)
  intro heq
  simp only [remainder_append] at heq
  have hburst := eq_of_remainder_eq (remainder_lt hfront fun v hv => hwide (hother.1.2 v hv))
    (remainder_lt hfront fun v hv => hwide (hword.1.2 v hv)) (fun v hv => hwide (hword.2 v hv)) heq
  exact hne (eq_of_remainder_eq_of_short hother.1.2 hword.1.2 hlength (hlength.trans_le hshort)
    hburst)

/-! ## Human-readable parts -/

/-- The values of a human-readable part. -/
def expansion (hrp : String) : List Nat :=
  hrp.toList.map (fun c => c.toNat / 32) ++ 0 :: hrp.toList.map fun c => c.toNat % 32

theorem expand_eq (hrp : String) : expand hrp = (expansion hrp).map Int.ofNat := by
  rw [expand, expansion, List.map_append, List.map_cons, List.map_map, List.map_map]
  rfl

/-- Every character, not only those that addresses have, is narrow enough for the register. -/
theorem expansion_lt {hrp : String} {v : Nat} (h : v ∈ expansion hrp) : v < 2 ^ 30 := by
  have hchar (c : Char) : c.toNat < 0x110000 := by
    have hvalid : c.toNat < 0xD800 ∨ 0xDFFF < c.toNat ∧ c.toNat < 0x110000 := c.valid
    omega
  rcases List.mem_append.1 h with h | h
  · obtain ⟨c, -, rfl⟩ := List.mem_map.1 h
    have := hchar c
    omega
  · rcases List.mem_cons.1 h with rfl | h
    · decide
    · obtain ⟨c, -, rfl⟩ := List.mem_map.1 h
      omega

/-- The symbols behind a human-readable part that make the remainder equal a constant. -/
def Verifies (hrp : String) (constant : Nat) (symbols : List Nat) : Prop :=
  polymod (expand hrp ++ symbols.map Int.ofNat) = constant

theorem verifies_iff {hrp : String} {constant : Nat} {symbols : List Nat} :
    Verifies hrp constant symbols ↔ remainder (remainder 1 (expansion hrp)) symbols = constant := by
  rw [Verifies, expand_eq, ← List.map_append, polymod_natCast, Int.natCast_inj, remainder_append]

/-- Symbols have one remainder. -/
theorem Verifies.unique {hrp : String} {c c' : Nat} {symbols : List Nat}
    (h : Verifies hrp c symbols) (h' : Verifies hrp c' symbols) : c = c' :=
  Int.natCast_inj.1 (h.symm.trans h')

/-! ## Checksums -/

theorem foldl_groups {n : Nat} (h : n < 2 ^ 30) :
    ((List.range 6).map fun i => (n >>> (5 * (5 - i))) % 32).foldl (fun n v => 32 * n + v) 0 =
      n := by
  simp only [List.range, List.range.loop, List.map_cons, List.map_nil, List.foldl_cons,
    List.foldl_nil, Nat.shiftRight_eq_div_pow]
  omega

theorem constantOf_lt (spec : String) : constantOf spec < 2 ^ 30 := by
  unfold constantOf
  split <;> decide

/-- The symbols of a checksum are the groups of the difference that is to be made up for. -/
theorem checksum_eq (hrp : String) (data : List Nat) (constant : Nat) :
    checksum hrp (data.map Int.ofNat) constant = (List.range 6).map fun i =>
      ((remainder (remainder 1 (expansion hrp ++ data)) (List.replicate 6 0) ^^^ constant) >>>
        (5 * (5 - i))) % 32 := by
  have hzeros : (List.replicate 6 0 : List Int) = (List.replicate 6 0).map Int.ofNat := rfl
  rw [checksum, expand_eq, hzeros, ← List.map_append, ← List.map_append, polymod_natCast,
    remainder_append]
  rfl

/-- In an empty register the symbols of a checksum make the difference between the remainder that
zeros in their places have and the constant. -/
theorem remainder_checksum {hrp : String} {data : List Nat} (hdata : ∀ v ∈ data, v < 32)
    {constant : Nat} (hconstant : constant < 2 ^ 30) :
    remainder 0 (checksum hrp (data.map Int.ofNat) constant) =
      remainder (remainder 1 (expansion hrp ++ data)) (List.replicate 6 0) ^^^ constant := by
  have hfront : remainder 1 (expansion hrp ++ data) < 2 ^ 30 := by
    refine remainder_lt (by decide) (List.forall_mem_append.2 ⟨fun _ => expansion_lt, ?_⟩)
    exact fun v hv => (hdata v hv).trans (by decide)
  have hzeros : remainder (remainder 1 (expansion hrp ++ data)) (List.replicate 6 0) < 2 ^ 30 :=
    remainder_lt hfront (by simp)
  have hroom : (checksum hrp (data.map Int.ofNat) constant).length + 0 = 6 :=
    length_checksum hrp (data.map Int.ofNat) constant
  rw [remainder_eq_foldl (fun _ => checksum_lt) hroom Nat.one_pos, checksum_eq,
    foldl_groups (Nat.xor_lt_two_pow hzeros hconstant)]

/-- The symbols of a checksum make the remainder equal the constant. -/
theorem verifies_checksum {hrp : String} {data : List Nat} (hdata : ∀ v ∈ data, v < 32)
    {constant : Nat} (hconstant : constant < 2 ^ 30) :
    Verifies hrp constant (data ++ checksum hrp (data.map Int.ofNat) constant) := by
  have hlength := length_checksum hrp (data.map Int.ofNat) constant
  -- The checksum is the sum of zeros in its places and of itself in an empty register.
  have hsame : (List.replicate 6 0).length =
      (checksum hrp (data.map Int.ofNat) constant).length :=
    List.length_replicate.trans hlength.symm
  have hsum := remainder_xor hsame (remainder 1 (expansion hrp ++ data)) 0
  rw [zipWith_zeros_xor hlength, Nat.xor_zero, remainder_checksum hdata hconstant,
    ← Nat.xor_assoc, Nat.xor_self, Nat.zero_xor] at hsum
  rw [verifies_iff, ← remainder_append, ← List.append_assoc, remainder_append, hsum]

/-! ## Errors that are seen -/

/-- A word that verifies, and of which no word does that has errors in six neighbouring places, one
symbol in place of another, or two neighbours in each other's places. -/
structure IsGuarded (hrp : String) (constant : Nat) (word : List Nat) : Prop where
  verifies : Verifies hrp constant word
  burst : ∀ other : List Nat, (∀ v ∈ other, v < 32) → DiffersWithin 6 word other →
    ¬Verifies hrp constant other
  replaced : ∀ before after v v', word = before ++ v :: after → v' < 32 → v' ≠ v →
    ¬Verifies hrp constant (before ++ v' :: after)
  swapped : ∀ before after v v', word = before ++ v :: v' :: after → v ≠ v' →
    ¬Verifies hrp constant (before ++ v' :: v :: after)

theorem differsWithin_append {before burst burst' after : List Nat} {size : Nat}
    (hlength : burst'.length = burst.length) (hshort : burst.length ≤ size) (hne : burst' ≠ burst) :
    DiffersWithin size (before ++ burst ++ after) (before ++ burst' ++ after) where
  length := by simp only [List.length_append, hlength]
  ne h := hne (List.append_cancel_left (List.append_cancel_right h))
  window := by
    refine ⟨before.length, fun i hi => ?_⟩
    by_contra houtside
    apply hi
    rcases Nat.lt_or_ge i before.length with hlt | hge
    · rw [List.append_assoc, List.append_assoc, List.getElem?_append_left hlt,
        List.getElem?_append_left hlt]
    · have hbehind : (before ++ burst).length ≤ i := by
        rw [List.length_append]
        omega
      have hbehind' : (before ++ burst').length ≤ i := by
        rw [List.length_append, hlength, ← List.length_append]
        exact hbehind
      rw [List.getElem?_append_right hbehind', List.getElem?_append_right hbehind,
        List.length_append, List.length_append, hlength]

/-- A word of symbols that verifies shows errors in six neighbouring places. -/
theorem Verifies.isGuarded {hrp : String} {constant : Nat} {word : List Nat}
    (h : Verifies hrp constant word) (hword : ∀ v ∈ word, v < 32) :
    IsGuarded hrp constant word := by
  have hburst (other : List Nat) (hother : ∀ v ∈ other, v < 32)
      (hdiffers : DiffersWithin 6 word other) : ¬Verifies hrp constant other := by
    intro hverifies
    have hstart : remainder 1 (expansion hrp) < 2 ^ 30 :=
      remainder_lt (by decide) fun _ => expansion_lt
    exact remainder_ne_of_differsWithin hword hother hdiffers hstart
      ((verifies_iff.1 hverifies).trans (verifies_iff.1 h).symm)
  constructor
  case verifies => exact h
  case burst => exact hburst
  case replaced =>
    rintro before after v v' rfl hv' hne
    simp only [List.forall_mem_append, List.forall_mem_cons] at hword
    have hdiffers : DiffersWithin 6 (before ++ [v] ++ after) (before ++ [v'] ++ after) :=
      differsWithin_append rfl (by decide : 1 ≤ 6) (by simpa using hne)
    rw [← List.append_cons, ← List.append_cons] at hdiffers
    refine hburst _ ?_ hdiffers
    simp only [List.forall_mem_append, List.forall_mem_cons]
    exact ⟨hword.1, hv', hword.2.2⟩
  case swapped =>
    rintro before after v v' rfl hne
    simp only [List.forall_mem_append, List.forall_mem_cons] at hword
    have hdiffers : DiffersWithin 6 (before ++ [v, v'] ++ after) (before ++ [v', v] ++ after) :=
      differsWithin_append rfl (by decide : 2 ≤ 6) (by simp [hne.symm])
    rw [List.append_assoc, List.append_assoc] at hdiffers
    refine hburst (before ++ v' :: v :: after) ?_ hdiffers
    simp only [List.forall_mem_append, List.forall_mem_cons]
    exact ⟨hword.1, hword.2.2.1, hword.2.1, hword.2.2.2⟩

/-- A checksum is six symbols. With them the symbols of any data verify, for the constant of either
version of the format, and errors in six neighbouring places are seen. -/
theorem isGuarded_checksum (hrp spec : String) {data : List Nat} (hdata : ∀ v ∈ data, v < 32) :
    let check := checksum hrp (data.map Int.ofNat) (constantOf spec)
    check.length = 6 ∧ (∀ v ∈ check, v < 32) ∧ IsGuarded hrp (constantOf spec) (data ++ check) := by
  intro check
  have hcheck : ∀ v ∈ check, v < 32 := fun _ => checksum_lt
  have hverifies : Verifies hrp (constantOf spec) (data ++ check) :=
    verifies_checksum hdata (constantOf_lt spec)
  exact ⟨length_checksum .., hcheck,
    hverifies.isGuarded (List.forall_mem_append.2 ⟨hdata, hcheck⟩)⟩

/-- The last symbol of some data and the first one of its checksum, in each other's places. -/
theorem isGuarded_checksum_swapped :
    (∀ v ∈ [16, 14, 20, 15], v < 32) ∧
      checksum "b1c" ([16, 14, 20, 15].map Int.ofNat) (constantOf "bech32m") =
        [2, 17, 13, 19, 8, 31] ∧
      Verifies "b1c" modifiedConstant [16, 14, 20, 15, 2, 17, 13, 19, 8, 31] ∧
      ¬Verifies "b1c" modifiedConstant [16, 14, 20, 2, 15, 17, 13, 19, 8, 31] := by
  have hdata : ∀ v ∈ [16, 14, 20, 15], v < 32 := by decide
  have hcheck : checksum "b1c" ([16, 14, 20, 15].map Int.ofNat) (constantOf "bech32m") =
      [2, 17, 13, 19, 8, 31] := by decide +kernel
  obtain ⟨-, -, hguarded⟩ := isGuarded_checksum "b1c" "bech32m" hdata
  rw [hcheck] at hguarded
  refine ⟨hdata, hcheck, hguarded.verifies, ?_⟩
  exact hguarded.swapped [16, 14, 20] [17, 13, 19, 8, 31] 15 2 rfl (by decide)

end InscriptionLedger.Bech32
