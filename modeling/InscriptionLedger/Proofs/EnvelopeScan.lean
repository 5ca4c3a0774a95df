import InscriptionLedger.Proofs.TokenForms
import InscriptionLedger.Script.Envelope

/-!
# The envelopes of a script

An envelope starts with an empty push, the opcode of a conditional part and a push of the protocol's
name; it is complete if pushes follow and then the opcode that ends the part. The search for
envelopes goes through the tokens once. Where a start is broken off it goes on behind the token that
broke it, so that a start is passed over exactly if its own opcode is that token: the starts that
run into one another are taken in pairs, and of each pair the first alone is seen.

## Main definitions

* `Token.Pushes`: the values that tokens push
* `Envelope.StartsAt`, `Envelope.IsComplete`: the starts among the tokens, and the envelopes
* `Envelope.RunsInto`, `Envelope.RunUp`: starts that are broken off by another start
* `Envelope.IsSeen`: the starts that are not passed over

## Main results

* `Envelope.collect_append`: the pushes that are collected
* `Envelope.RunsInto.isSeen_iff`: of two starts that run into one another one is seen
* `Envelope.ofScript?_eq_seen`: the inscriptions of a script are those of the complete envelopes
  whose starts are seen, and of all of them if no start runs into another
* `Envelope.not_forall_ofScript?_eq_complete`: in general a complete envelope can be lost
-/

namespace InscriptionLedger

/-! ## Pushed values -/

/-- The value that a token pushes: data as they are; the numbers from one to sixteen and minus one
have an opcode each. -/
inductive Token.Pushes : Token → Bytes → Prop
  | data (value : Bytes) : Pushes (.push value) value
  | number {n : Nat} (low : 1 ≤ n) (high : n ≤ 16) :
    Pushes (.opcode (UInt8.ofNat (0x50 + n))) [UInt8.ofNat n]
  | minusOne : Pushes (.opcode 0x4F) [0x81]

theorem Token.pushed?_eq_some_iff {t : Token} {value : Bytes} :
    t.pushed? = some value ↔ t.Pushes value := by
  constructor
  · intro h
    cases t with
    | push data =>
      obtain rfl := Option.some.inj h
      exact .data data
    | opcode code =>
      simp only [pushed?] at h
      split_ifs at h with hminus hnumber
      · obtain rfl := Option.some.inj h
        rw [hminus]
        exact .minusOne
      · obtain rfl := Option.some.inj h
        have hlow : 0x51 ≤ code.toNat := UInt8.le_iff_toNat_le.1 hnumber.1
        have hhigh : code.toNat ≤ 0x60 := UInt8.le_iff_toNat_le.1 hnumber.2
        have hcode : code = UInt8.ofNat (0x50 + (code.toNat - 0x50)) := by
          rw [← UInt8.toNat_inj, UInt8.toNat_ofNat']
          omega
        have hvalue : code - Opcode.one + 1 = UInt8.ofNat (code.toNat - 0x50) := by
          rw [← UInt8.toNat_inj, UInt8.toNat_ofNat', UInt8.toNat_add, UInt8.toNat_sub]
          simp [Opcode.one]
          omega
        rw [hvalue]
        nth_rewrite 1 [hcode]
        exact .number (by omega) (by omega)
  · intro h
    cases h with
    | data value => rfl
    | @number n low high =>
      have all : ∀ n < 17, 1 ≤ n →
          (Token.opcode (UInt8.ofNat (0x50 + n))).pushed? = some [UInt8.ofNat n] := by decide
      exact all n (by omega) low
    | minusOne => rfl

namespace Envelope

/-- The tokens that an envelope starts with. -/
def opening : List Token := [.push [], .opcode Opcode.startIf, .push protocolName]

/-- The token that ends an envelope. -/
def ending : Token := .opcode Opcode.endIf

/-- Tokens that push values one after another. -/
abbrev ArePushes : List Token → List Bytes → Prop := List.Forall₂ Token.Pushes

/-- Tokens that do not start with a push. -/
def Stops (ts : List Token) : Prop := ∀ t ∈ ts.head?, t.pushed? = none

theorem ArePushes.unique {inside : List Token} {values values' : List Bytes}
    (h : ArePushes inside values) (h' : ArePushes inside values') : values = values' := by
  induction h generalizing values' with
  | nil =>
    cases h'
    rfl
  | cons hv _ ih =>
    obtain _ | ⟨hv', hrest⟩ := h'
    rw [← Token.pushed?_eq_some_iff] at hv hv'
    rw [ih hrest, Option.some.inj (hv.symm.trans hv')]

/-- Pushes in front of a list do not reach behind the first token that is no push. -/
theorem ArePushes.prefix_of_append {front rest inside after : List Token} {values : List Bytes}
    (h : ArePushes front values) (hstop : Stops after) (heq : front ++ rest = inside ++ after) :
    front <+: inside := by
  induction h generalizing inside with
  | nil => exact List.nil_prefix
  | @cons t v front values hv _ ih =>
    cases inside with
    | nil =>
      obtain rfl : t :: (front ++ rest) = after := heq
      have hnone := hstop t rfl
      rw [Token.pushed?_eq_some_iff.2 hv] at hnone
      cases hnone
    | cons t' inside =>
      rw [List.cons_append, List.cons_append, List.cons.injEq] at heq
      obtain ⟨rfl, heq⟩ := heq
      exact List.cons_prefix_cons.2 ⟨rfl, ih heq⟩

/-- A start that begins among pushes begins with the last of them. -/
theorem eq_of_opening_append {left rest after : List Token} {values : List Bytes}
    (h : ArePushes left values) (hstop : Stops after) (heq : opening ++ rest = left ++ after) :
    left = [.push []] := by
  cases h with
  | nil =>
    rw [List.nil_append] at heq
    cases hstop (.push []) (by rw [← heq]; rfl)
  | cons _ h =>
    cases h with
    | nil => rw [(List.cons.inj heq).1]
    | cons hv _ =>
      rw [← (List.cons.inj (List.cons.inj heq).2).1, ← Token.pushed?_eq_some_iff] at hv
      cases hv

theorem exists_pushes (ts : List Token) :
    ∃ inside values after, ts = inside ++ after ∧ ArePushes inside values ∧ Stops after := by
  induction ts with
  | nil => exact ⟨[], [], [], rfl, .nil, fun _ h => by cases h⟩
  | cons t rest ih =>
    cases hvalue : t.pushed? with
    | none =>
      refine ⟨[], [], t :: rest, rfl, .nil, fun t' ht' => ?_⟩
      obtain rfl := Option.some.inj ht'
      exact hvalue
    | some v =>
      obtain ⟨inside, values, after, rfl, hinside, hstop⟩ := ih
      exact ⟨t :: inside, v :: values, after, rfl,
        .cons (Token.pushed?_eq_some_iff.1 hvalue) hinside, hstop⟩

/-! ## Collecting and searching -/

theorem collect_append {inside : List Token} {values : List Bytes} (h : ArePushes inside values)
    (rest : List Token) :
    collect (inside ++ rest) = (values ++ (collect rest).1, (collect rest).2) := by
  induction h with
  | nil => rfl
  | @cons t v inside values hv _ ih =>
    have hne : t ≠ .opcode Opcode.endIf := by
      rintro rfl
      cases Token.pushed?_eq_some_iff.2 hv
    rw [List.cons_append, collect, if_neg hne, Token.pushed?_eq_some_iff.2 hv]
    simp only [ih]
    rfl

theorem collect_of_stops {after : List Token} (h : Stops after) :
    collect after = ([], decide (after.head? = some ending), after.tail) := by
  cases after with
  | nil => rfl
  | cons t rest =>
    rw [collect]
    split
    · next hend => simp [ending, hend]
    · next hend =>
      rw [h t rfl]
      simp [ending, hend]

theorem opens_iff {first second third : Token} :
    opens first second third = true ↔ [first, second, third] = opening := by
  simp [opens, opening, and_assoc]

theorem scan_opening_append (inside : List Token) :
    scan (opening ++ inside) =
      if (collect inside).2.1 then ofPushes (collect inside).1 :: scan (collect inside).2.2
      else scan (collect inside).2.2 := by
  rw [opening, List.cons_append, List.cons_append, List.cons_append, List.nil_append, scan,
    if_pos (opens_iff.2 rfl)]

theorem scan_cons_of_not_prefix {t : Token} {rest : List Token} (h : ¬opening <+: t :: rest) :
    scan (t :: rest) = scan rest := by
  match rest with
  | [] => rw [scan, scan] <;> simp
  | [second] => rw [scan, scan] <;> simp
  | second :: third :: inside =>
    rw [scan, if_neg]
    rw [opens_iff]
    rintro hopens
    exact h ⟨inside, by rw [← hopens]; rfl⟩

/-! ## Starts and envelopes -/

/-- An envelope starts at a position among the tokens. -/
def StartsAt (ts : List Token) (p : Nat) : Prop := opening <+: ts.drop p

/-- A complete envelope at a position: its start, pushes of the values, and the end. -/
def IsComplete (ts : List Token) (p : Nat) (values : List Bytes) : Prop :=
  ∃ inside after, ts.drop p = opening ++ (inside ++ ending :: after) ∧ ArePushes inside values

/-- A start runs into another: nothing but pushes stands between them. -/
def RunsInto (ts : List Token) (p q : Nat) : Prop :=
  ∃ inside values after, ts.drop p = opening ++ (inside ++ (opening ++ after)) ∧
    ArePushes inside values ∧ q = p + 3 + inside.length

/-- So many starts run into one another, the last of them into the start at a position. -/
inductive RunUp (ts : List Token) : Nat → Nat → Prop
  | none {q : Nat} (apart : ∀ p, ¬RunsInto ts p q) : RunUp ts 0 q
  | next {n p q : Nat} (into : RunsInto ts p q) (before : RunUp ts n p) : RunUp ts (n + 1) q

/-- A start is seen if the starts that run into one another up to it are even in number. -/
def IsSeen (ts : List Token) (q : Nat) : Prop := ∃ n, Even n ∧ RunUp ts n q

variable {ts : List Token}

theorem IsComplete.startsAt {p : Nat} {values : List Bytes} (h : IsComplete ts p values) :
    StartsAt ts p := by
  obtain ⟨inside, after, heq, -⟩ := h
  exact ⟨_, heq.symm⟩

/-- What stands behind a start and so many tokens. -/
theorem drop_of_eq_opening_append {p : Nat} {inside rest : List Token}
    (h : ts.drop p = opening ++ (inside ++ rest)) : ts.drop (p + 3 + inside.length) = rest := by
  have hlength : p + 3 + inside.length = p + (opening ++ inside).length := by
    rw [List.length_append, ← Nat.add_assoc]
    rfl
  rw [hlength, ← List.drop_drop, h, ← List.append_assoc, List.drop_left]

namespace RunsInto

variable {p q : Nat}

theorem lt (h : RunsInto ts p q) : p < q := by
  obtain ⟨inside, values, after, -, -, rfl⟩ := h
  omega

theorem startsAt_left (h : RunsInto ts p q) : StartsAt ts p := by
  obtain ⟨inside, values, after, heq, -, -⟩ := h
  exact ⟨_, heq.symm⟩

theorem startsAt (h : RunsInto ts p q) : StartsAt ts q := by
  obtain ⟨inside, values, after, heq, -, rfl⟩ := h
  exact ⟨after, (drop_of_eq_opening_append heq).symm⟩

end RunsInto

/-- What stands at a start: the pushes behind it, and what follows them. -/
structure Part (ts : List Token) (p : Nat) (inside : List Token) (values : List Bytes)
    (after : List Token) : Prop where
  eq : ts.drop p = opening ++ (inside ++ after)
  pushes : ArePushes inside values
  stops : Stops after

theorem StartsAt.exists_part {p : Nat} (h : StartsAt ts p) :
    ∃ inside values after, Part ts p inside values after := by
  obtain ⟨rest, hrest⟩ := h
  obtain ⟨inside, values, after, rfl, hpushes, hstops⟩ := exists_pushes rest
  exact ⟨inside, values, after, hrest.symm, hpushes, hstops⟩

namespace Part

variable {p q : Nat} {inside after : List Token} {values : List Bytes}

theorem drop_behind (h : Part ts p inside values after) :
    ts.drop (p + 3 + inside.length + 1) = after.tail := by
  rw [← List.drop_drop, drop_of_eq_opening_append h.eq, List.drop_one]

/-- The envelope at a start is complete exactly if the end follows the pushes. -/
theorem isComplete_iff (h : Part ts p inside values after) {values' : List Bytes} :
    IsComplete ts p values' ↔ after.head? = some ending ∧ values' = values := by
  constructor
  · rintro ⟨inside', after', heq, hpushes⟩
    rw [h.eq, List.append_cancel_left_eq] at heq
    have hstops : Stops (ending :: after') := by
      intro t ht
      obtain rfl := Option.some.inj ht
      rfl
    have hle := h.pushes.prefix_of_append hstops heq
    have hge := hpushes.prefix_of_append h.stops heq.symm
    obtain rfl := hle.eq_of_length (Nat.le_antisymm hle.length_le hge.length_le)
    rw [List.append_cancel_left_eq] at heq
    rw [heq]
    exact ⟨rfl, hpushes.unique h.pushes⟩
  · rintro ⟨hend, rfl⟩
    obtain ⟨after', rfl⟩ := List.head?_eq_some_iff.1 hend
    exact ⟨inside, after', h.eq, h.pushes⟩

/-- Among the pushes behind a start another one has room only at their end, where its opcode is the
token that follows them. -/
theorem runsInto_of_startsAt (h : Part ts p inside values after) (hq : StartsAt ts q) (hlt : p < q)
    (hle : q ≤ p + 3 + inside.length) :
    RunsInto ts p q ∧ q + 1 = p + 3 + inside.length := by
  obtain ⟨k, rfl⟩ := Nat.exists_eq_add_of_lt hlt
  obtain ⟨rest, hrest⟩ := hq
  have hdrop := hrest
  rw [Nat.add_assoc, ← List.drop_drop, h.eq] at hdrop
  match k with
  -- The tokens of a start are all different, so that no start begins within another.
  | 0 => cases hdrop
  | 1 => cases (List.cons.inj hdrop).1
  | k + 2 =>
    have hk : k ≤ inside.length := by omega
    have hleft : opening ++ rest = inside.drop k ++ after := by
      rwa [← List.drop_append_of_le_length hk]
    have hone := eq_of_opening_append (List.forall₂_drop k h.pushes) h.stops hleft
    have hlength := congrArg List.length hone
    rw [List.length_drop, List.length_singleton] at hlength
    refine ⟨⟨inside.take k, values.take k, rest, ?_, List.forall₂_take k h.pushes, ?_⟩, by omega⟩
    · rw [hleft, ← List.append_assoc (inside.take k), List.take_append_drop, h.eq]
    · rw [List.length_take]
      omega

theorem succ_eq_of_runsInto (h : Part ts p inside values after) (hq : RunsInto ts p q) :
    q + 1 = p + 3 + inside.length := by
  refine (h.runsInto_of_startsAt hq.startsAt hq.lt ?_).2
  obtain ⟨inside', values', after', heq, hpushes, rfl⟩ := hq
  rw [h.eq, List.append_cancel_left_eq] at heq
  have := (hpushes.prefix_of_append h.stops heq.symm).length_le
  omega

end Part

theorem RunsInto.not_lt {p p' q : Nat} (h : RunsInto ts p q) (h' : RunsInto ts p' q) :
    ¬p < p' := by
  intro hlt
  obtain ⟨inside, values, after, hpart⟩ := h.startsAt_left.exists_part
  have hq := hpart.succ_eq_of_runsInto h
  have hp' := (hpart.runsInto_of_startsAt h'.startsAt_left hlt (by have := h'.lt; omega)).2
  have := h'.lt
  omega

/-- One start at most runs into another. -/
theorem RunsInto.unique {p p' q : Nat} (h : RunsInto ts p q) (h' : RunsInto ts p' q) : p = p' :=
  Nat.le_antisymm (Nat.le_of_not_lt (h'.not_lt h)) (Nat.le_of_not_lt (h.not_lt h'))

theorem RunUp.unique {m n q : Nat} (h : RunUp ts m q) (h' : RunUp ts n q) : m = n := by
  induction h generalizing n with
  | none apart =>
    cases h' with
    | none _ => rfl
    | next into _ => exact absurd into (apart _)
  | next into _ ih =>
    cases h' with
    | none apart => exact absurd into (apart _)
    | next into' before =>
      obtain rfl := into.unique into'
      rw [ih before]

theorem exists_runUp (ts : List Token) (q : Nat) : ∃ n, RunUp ts n q := by
  -- A start that runs into another stands before it.
  induction q using Nat.strongRecOn with
  | ind q ih =>
    by_cases hinto : ∃ p, RunsInto ts p q
    · obtain ⟨p, hp⟩ := hinto
      obtain ⟨n, hn⟩ := ih p hp.lt
      exact ⟨n + 1, .next hp hn⟩
    · exact ⟨0, .none fun p hp => hinto ⟨p, hp⟩⟩

theorem RunUp.isSeen_iff {n q : Nat} (h : RunUp ts n q) : IsSeen ts q ↔ Even n := by
  constructor
  · rintro ⟨m, heven, hm⟩
    rwa [h.unique hm]
  · exact fun heven => ⟨n, heven, h⟩

/-- Of two starts that run into one another one is seen. -/
theorem RunsInto.isSeen_iff {p q : Nat} (h : RunsInto ts p q) : IsSeen ts q ↔ ¬IsSeen ts p := by
  obtain ⟨n, hn⟩ := exists_runUp ts p
  rw [hn.isSeen_iff, (RunUp.next h hn).isSeen_iff, Nat.even_add_one]

theorem isSeen_of_apart {q : Nat} (h : ∀ p, ¬RunsInto ts p q) : IsSeen ts q :=
  ⟨0, Even.zero, .none h⟩

/-! ## What the search finds -/

/-- The values of complete envelopes whose starts are seen, from a position on: by their positions,
in order. -/
structure Finds (ts : List Token) (p : Nat) (found : List (Nat × List Bytes)) : Prop where
  ordered : found.Pairwise fun x y => x.1 < y.1
  mem_iff : ∀ q values, (q, values) ∈ found ↔ p ≤ q ∧ IsComplete ts q values ∧ IsSeen ts q

/-- No start that is seen before a position runs into one behind it. -/
def IsClear (ts : List Token) (p : Nat) : Prop :=
  ∀ s q, s < p → p ≤ q → RunsInto ts s q → ¬IsSeen ts s

theorem IsClear.isSeen {p : Nat} (h : IsClear ts p) : IsSeen ts p := by
  by_cases hinto : ∃ s, RunsInto ts s p
  · obtain ⟨s, hs⟩ := hinto
    exact hs.isSeen_iff.2 (h s p hs.lt le_rfl hs)
  · exact isSeen_of_apart fun s hs => hinto ⟨s, hs⟩

theorem IsClear.succ {p : Nat} (h : IsClear ts p) (hp : ¬StartsAt ts p) : IsClear ts (p + 1) := by
  intro s q hs hq hinto
  rcases Nat.lt_succ_iff_lt_or_eq.1 hs with hlt | rfl
  · exact h s q hlt (by omega) hinto
  · exact absurd hinto.startsAt_left hp

namespace Part

variable {p : Nat} {inside after : List Token} {values : List Bytes}

/-- A start up to the token that ends a start which is seen is not seen. -/
theorem not_isSeen (h : Part ts p inside values after) (hseen : IsSeen ts p) {q : Nat}
    (hq : StartsAt ts q) (hlt : p < q) (hle : q ≤ p + 3 + inside.length) : ¬IsSeen ts q := by
  rw [(h.runsInto_of_startsAt hq hlt hle).1.isSeen_iff, not_not]
  exact hseen

theorem isClear (h : Part ts p inside values after) (hclear : IsClear ts p) :
    IsClear ts (p + 3 + inside.length + 1) := by
  intro s q hs hq hinto
  rcases Nat.lt_trichotomy s p with hlt | rfl | hgt
  · exact hclear s q hlt (by omega) hinto
  · -- What the start runs into has its opcode before the search goes on.
    have := h.succ_eq_of_runsInto hinto
    omega
  · exact h.not_isSeen hclear.isSeen hinto.startsAt_left hgt (by omega)

/-- A start that is seen has its own envelope found, and then what is found behind the token that
ends it. -/
theorem finds (h : Part ts p inside values after) (hseen : IsSeen ts p)
    {found : List (Nat × List Bytes)} (hfound : Finds ts (p + 3 + inside.length + 1) found) :
    Finds ts p (if after.head? = some ending then (p, values) :: found else found) := by
  have behind : ∀ x ∈ found, p < x.1 := by
    intro x hx
    have := ((hfound.mem_iff x.1 x.2).1 hx).1
    omega
  constructor
  · split_ifs
    · exact List.pairwise_cons.2 ⟨behind, hfound.ordered⟩
    · exact hfound.ordered
  · intro q values'
    rcases Nat.lt_or_ge p q with hgt | hle
    · have hmem : ((q, values') ∈
          if after.head? = some ending then (p, values) :: found else found) ↔
            (q, values') ∈ found := by
        split_ifs
        · simp [Nat.ne_of_gt hgt]
        · rfl
      rw [hmem, hfound.mem_iff]
      constructor
      · rintro ⟨-, hcomplete, hq⟩
        exact ⟨hgt.le, hcomplete, hq⟩
      · rintro ⟨-, hcomplete, hq⟩
        refine ⟨?_, hcomplete, hq⟩
        by_contra hle
        exact h.not_isSeen hseen hcomplete.startsAt hgt (by omega) hq
    · -- Up to the start there is nothing but its own envelope, if this is complete.
      have hnot : (q, values') ∉ found := fun hmem => (behind _ hmem).not_ge hle
      split_ifs with hend
      · rw [List.mem_cons, or_iff_left hnot, Prod.mk.injEq]
        constructor
        · rintro ⟨rfl, rfl⟩
          exact ⟨le_rfl, h.isComplete_iff.2 ⟨hend, rfl⟩, hseen⟩
        · rintro ⟨hge, hcomplete, -⟩
          obtain rfl := Nat.le_antisymm hle hge
          exact ⟨rfl, (h.isComplete_iff.1 hcomplete).2⟩
      · refine iff_of_false hnot ?_
        rintro ⟨hge, hcomplete, -⟩
        obtain rfl := Nat.le_antisymm hle hge
        exact hend (h.isComplete_iff.1 hcomplete).1

end Part

/-- The search from a position finds what there is. -/
theorem exists_finds {p : Nat} (hclear : IsClear ts p) :
    ∃ found, Finds ts p found ∧ scan (ts.drop p) = found.map fun x => ofPushes x.2 := by
  -- On the tokens that are left; the position on which the search goes on is clear again.
  induction hleft : ts.length - p using Nat.strongRecOn generalizing p with
  | ind left ih =>
    rcases Nat.lt_or_ge p ts.length with hlt | hge
    · by_cases hstart : StartsAt ts p
      · obtain ⟨inside, values, after, hpart⟩ := hstart.exists_part
        obtain ⟨found, hfinds, hscan⟩ := ih _ (by omega) (hpart.isClear hclear) rfl
        refine ⟨_, hpart.finds hclear.isSeen hfinds, ?_⟩
        rw [hpart.eq, scan_opening_append, collect_append hpart.pushes,
          collect_of_stops hpart.stops, ← hpart.drop_behind, hscan]
        simp only [List.append_nil, decide_eq_true_eq]
        split_ifs <;> rfl
      · obtain ⟨found, ⟨hordered, hmem⟩, hscan⟩ := ih _ (by omega) (hclear.succ hstart) rfl
        refine ⟨found, ⟨hordered, fun q values => ?_⟩, ?_⟩
        · rw [hmem]
          refine and_congr_left fun hq => ⟨Nat.le_of_succ_le, fun hle => ?_⟩
          refine Nat.lt_of_le_of_ne hle ?_
          rintro rfl
          exact hstart hq.1.startsAt
        · rw [StartsAt, List.drop_eq_getElem_cons hlt] at hstart
          rw [List.drop_eq_getElem_cons hlt, scan_cons_of_not_prefix hstart, hscan]
    · -- Behind the last token there is nothing left to find.
      have hnil : ts.drop p = [] := List.drop_eq_nil_of_le hge
      refine ⟨[], ⟨.nil, fun q values => ?_⟩, by rw [hnil, scan] <;> simp⟩
      simp only [List.not_mem_nil, false_iff]
      rintro ⟨hle, ⟨inside, after, heq, -⟩, -⟩
      rw [List.drop_eq_nil_of_le (by omega)] at heq
      cases heq

theorem ofScript?_of_tokens {script : Bytes} {ts : List Token}
    (h : Script.tokens script = (ts, none)) : ofScript? script = .ok (scan ts) := by
  rw [ofScript?, Script.tokens?, h]
  rfl

/-- The inscriptions of a script are those of the complete envelopes whose starts are seen, in
order: one for each. If no start runs into another, every complete envelope has its inscription. -/
theorem ofScript?_eq_seen {script : Bytes} {ts : List Token}
    (h : Script.tokens script = (ts, none)) :
    ∃ found : List (Nat × List Bytes),
      ofScript? script = .ok (found.map fun x => ofPushes x.2) ∧
      found.Pairwise (fun x y => x.1 < y.1) ∧
      (∀ p values, (p, values) ∈ found ↔ IsComplete ts p values ∧ IsSeen ts p) ∧
      ((∀ p q, ¬RunsInto ts p q) →
        ∀ p values, (p, values) ∈ found ↔ IsComplete ts p values) := by
  have hclear : IsClear ts 0 := by
    intro s q hs
    exact absurd hs (Nat.not_lt_zero s)
  obtain ⟨found, ⟨hordered, hmem⟩, hscan⟩ := exists_finds hclear
  have hseen : ∀ p values, (p, values) ∈ found ↔ IsComplete ts p values ∧ IsSeen ts p := by
    intro p values
    rw [hmem, and_iff_right (Nat.zero_le p)]
  refine ⟨found, ?_, hordered, hseen, fun hapart p values => ?_⟩
  · rw [ofScript?_of_tokens h, ← hscan, List.drop_zero]
  · rw [hseen, and_iff_left (isSeen_of_apart fun q => hapart q p)]

/-- Three starts that run into one another, of which the last is seen, and its envelope found. -/
theorem ofScript?_eq_seen_third :
    let start : Bytes := [0x00, 0x63, 0x03, 0x6F, 0x72, 0x64]
    let script : Bytes := start ++ start ++ start ++ [0x00, 0x02, 0x68, 0x69, 0x68]
    let ts := opening ++ opening ++ opening ++ [.push [], .push [0x68, 0x69], ending]
    Script.tokens script = (ts, none) ∧ ofScript? script = .ok [ofPushes [[], [0x68, 0x69]]] ∧
      ∃ found : List (Nat × List Bytes),
        ofScript? script = .ok (found.map fun x => ofPushes x.2) ∧
        ∀ p values, (p, values) ∈ found ↔ IsComplete ts p values ∧ IsSeen ts p := by
  intro start script ts
  have htokens : Script.tokens script = (ts, none) := by cbv
  obtain ⟨found, hfound, -, hseen, -⟩ := ofScript?_eq_seen htokens
  exact ⟨htokens, by cbv, found, hfound, hseen⟩

/-- A start that runs into another has the envelope behind the other one lost: not every complete
envelope has its inscription. -/
theorem not_forall_ofScript?_eq_complete :
    ¬∀ (script : Bytes) (ts : List Token), Script.tokens script = (ts, none) →
      ∃ found : List (Nat × List Bytes),
        ofScript? script = .ok (found.map fun x => ofPushes x.2) ∧
        found.Pairwise (fun x y => x.1 < y.1) ∧
        ∀ p values, (p, values) ∈ found ↔ IsComplete ts p values := by
  intro hall
  let start : Bytes := [0x00, 0x63, 0x03, 0x6F, 0x72, 0x64]
  let script : Bytes := start ++ start ++ [0x00, 0x02, 0x68, 0x69, 0x68]
  let ts := opening ++ opening ++ [.push [], .push [0x68, 0x69], ending]
  have hnone : ofScript? script = .ok [] := by cbv
  obtain ⟨found, hfound, -, hmem⟩ := hall script ts (by cbv)
  rw [hnone] at hfound
  have hnil : found = [] := List.map_eq_nil_iff.1 (Except.ok.inj hfound).symm
  -- The second start has its envelope complete, but the first one has consumed its opcode.
  have hcomplete : IsComplete ts 3 [[], [0x68, 0x69]] :=
    ⟨[.push [], .push [0x68, 0x69]], [], rfl, .cons (.data []) (.cons (.data _) .nil)⟩
  rw [← hmem, hnil] at hcomplete
  cases hcomplete

end Envelope

end InscriptionLedger
