import InscriptionLedger.Proofs.SatPlaces
import InscriptionLedger.Sat.Name

/-!
# Names in alphabetical order

A name is a word of letters that denotes how far its satoshi is from the end of the supply. As no
letter is a zero, each number has one such word, and words are ordered as their numbers are: a
longer word denotes a greater number, and of two words of one length the later one does. So names
grow shorter, and among names of one length they come earlier, the later their satoshis are mined.

## Main definitions

* `wordCount k`: the number of words of at most so many letters
* `Sat.IsName s word`: the words that name a satoshi

## Main results

* `letters_lettersValue`: a word is the numeral of the number that it denotes
* `length_letters_le_iff`: the numbers whose numerals have at most so many letters
* `shortlex_letters_iff`: numerals are ordered as their numbers are
* `Sat.isName_iff_and_order`: a satoshi has one name, and how the names are ordered
-/

namespace InscriptionLedger

/-! ## Letters -/

/-- The letters of names. -/
def isLetter (c : Char) : Prop := 'a' ≤ c ∧ c ≤ 'z'

theorem isLetter_iff {c : Char} : isLetter c ↔ 0x61 ≤ c.toNat ∧ c.toNat ≤ 0x7A := Iff.rfl

theorem letterValue_between {c : Char} (h : isLetter c) :
    0 < letterValue c ∧ letterValue c ≤ 26 := by
  rw [isLetter_iff] at h
  unfold letterValue
  omega

theorem letter_letterValue {c : Char} (h : isLetter c) : letter (letterValue c) = c := by
  have hc := isLetter_iff.1 h
  rw [letter, letterValue, Nat.add_sub_cancel' (by omega), Char.ofNat_toNat]

theorem toNat_letter {v : Nat} (h : v ≤ 26) : (letter v).toNat = 0x60 + v := by
  have all : ∀ v : Fin 27, (letter v).toNat = 0x60 + v.val := by decide
  exact all ⟨v, by omega⟩

theorem isLetter_letter {v : Nat} (hpos : 0 < v) (h : v ≤ 26) : isLetter (letter v) := by
  rw [isLetter_iff, toNat_letter h]
  omega

theorem letter_lt_letter {v w : Nat} (hw : w ≤ 26) (h : v < w) : letter v < letter w := by
  show (letter v).toNat < (letter w).toNat
  rw [toNat_letter hw, toNat_letter (by omega)]
  omega

/-! ## Numerals -/

theorem letters_zero : letters 0 = [] := by rw [letters, if_pos rfl]

theorem letters_mul_add (x : Nat) {v : Nat} (hpos : 0 < v) (h : v ≤ 26) :
    letters (26 * x + v) = letters x ++ [letter v] := by
  have hdiv : (26 * x + v - 1) / 26 = x := by omega
  have hmod : (26 * x + v - 1) % 26 + 1 = v := by omega
  rw [letters, if_neg (by omega), hdiv, hmod]

/-- A number is zero, or the numeral of a smaller one stands before its last letter. -/
theorem exists_mul_add {x : Nat} (h : 0 < x) : ∃ y v, 0 < v ∧ v ≤ 26 ∧ x = 26 * y + v :=
  ⟨(x - 1) / 26, (x - 1) % 26 + 1, by omega, by omega, by omega⟩

/-- Numerals are told from their last letters on. -/
@[elab_as_elim]
theorem numeral_induction {motive : Nat → Prop} (zero : motive 0)
    (step : ∀ x v, 0 < v → v ≤ 26 → motive x → motive (26 * x + v)) (x : Nat) : motive x := by
  induction x using Nat.strongRecOn with
  | ind x ih =>
    rcases Nat.eq_zero_or_pos x with rfl | hx
    · exact zero
    · obtain ⟨y, v, hpos, hv, rfl⟩ := exists_mul_add hx
      exact step y v hpos hv (ih y (by omega))

theorem isLetter_of_mem_letters {x : Nat} {c : Char} (h : c ∈ letters x) : isLetter c := by
  induction x using numeral_induction with
  | zero =>
    rw [letters_zero] at h
    cases h
  | step x v hpos hv ih =>
    rw [letters_mul_add x hpos hv, List.mem_append, List.mem_singleton] at h
    rcases h with h | rfl
    · exact ih h
    · exact isLetter_letter hpos hv

theorem letters_eq_nil_iff {x : Nat} : letters x = [] ↔ x = 0 := by
  induction x using numeral_induction with
  | zero => exact iff_of_true letters_zero rfl
  | step x v hpos hv _ =>
    rw [letters_mul_add x hpos hv]
    exact iff_of_false (List.append_ne_nil_of_right_ne_nil _ (List.cons_ne_nil _ _)) (by omega)

theorem lettersValue_append_singleton (cs : List Char) (c : Char) :
    lettersValue (cs ++ [c]) = 26 * lettersValue cs + letterValue c := by
  rw [lettersValue, List.foldl_append]
  rfl

/-- A word is the numeral of the number that it denotes. -/
theorem letters_lettersValue {cs : List Char} (h : ∀ c ∈ cs, isLetter c) :
    letters (lettersValue cs) = cs := by
  induction cs using List.reverseRecOn with
  | nil => exact letters_zero
  | append_singleton cs c ih =>
    rw [List.forall_mem_append, List.forall_mem_singleton] at h
    obtain ⟨hpos, hle⟩ := letterValue_between h.2
    rw [lettersValue_append_singleton, letters_mul_add _ hpos hle, ih h.1, letter_letterValue h.2]

/-! ## Lengths -/

/-- The number of words of at most so many letters, the empty word apart. -/
def wordCount : Nat → Nat
  | 0 => 0
  | k + 1 => 26 * wordCount k + 26

/-- The numbers whose numerals have at most so many letters are the first ones, as many as there are
such words. -/
theorem length_letters_le_iff {x k : Nat} : (letters x).length ≤ k ↔ x ≤ wordCount k := by
  induction k generalizing x with
  | zero => rw [Nat.le_zero, List.length_eq_zero_iff, letters_eq_nil_iff, wordCount, Nat.le_zero]
  | succ k ih =>
    rcases Nat.eq_zero_or_pos x with rfl | hx
    · rw [letters_zero]
      exact iff_of_true (Nat.zero_le _) (Nat.zero_le _)
    · obtain ⟨y, v, hpos, hv, rfl⟩ := exists_mul_add hx
      rw [letters_mul_add y hpos hv, List.length_append, List.length_singleton,
        Nat.add_le_add_iff_right, ih, wordCount]
      omega

/-! ## Order -/

/-- What stands behind words of one length does not change their order. -/
theorem lex_append {xs ys : List Char} (h : List.Lex (· < ·) xs ys)
    (hlength : xs.length = ys.length) (us vs : List Char) :
    List.Lex (· < ·) (xs ++ us) (ys ++ vs) := by
  induction h with
  | nil => cases hlength
  | rel hlt => exact .rel hlt
  | cons _ ih => exact .cons (ih (Nat.succ.inj hlength))

theorem shortlex_append_singleton {xs ys : List Char} (h : List.Shortlex (· < ·) xs ys)
    (c d : Char) : List.Shortlex (· < ·) (xs ++ [c]) (ys ++ [d]) := by
  rcases List.shortlex_def.1 h with hshorter | ⟨hlength, hlex⟩
  · apply List.Shortlex.of_length_lt
    rw [List.length_append, List.length_append]
    exact Nat.succ_lt_succ hshorter
  · apply List.Shortlex.of_lex
    · rw [List.length_append, List.length_append, hlength]
      rfl
    · exact lex_append hlex hlength [c] [d]

/-- The numeral of a smaller number is shorter, or as long and earlier. -/
theorem shortlex_letters_of_lt {x y : Nat} (h : x < y) :
    List.Shortlex (· < ·) (letters x) (letters y) := by
  induction y using numeral_induction generalizing x with
  | zero => cases h
  | step y w hpos hw ih =>
    rw [letters_mul_add y hpos hw]
    rcases Nat.eq_zero_or_pos x with rfl | hx
    · rw [letters_zero]
      exact (List.shortlex_nil_or_eq_nil _).resolve_right (by simp)
    · obtain ⟨x, v, hpos', hv, rfl⟩ := exists_mul_add hx
      rw [letters_mul_add x hpos' hv]
      -- Either what stands in front is smaller, or it is the same and the last letter is earlier.
      rcases Nat.lt_or_ge x y with hlt | hge
      · exact shortlex_append_singleton (ih hlt) _ _
      · obtain rfl : x = y := by omega
        have hlast : letter v < letter w := letter_lt_letter hw (by omega)
        exact List.Shortlex.append_left ((List.shortlex_singleton_iff _ _).2 hlast) _

/-- Numerals are ordered as their numbers are. -/
theorem shortlex_letters_iff {x y : Nat} :
    List.Shortlex (· < ·) (letters x) (letters y) ↔ x < y := by
  constructor
  · intro h
    rcases Nat.lt_trichotomy x y with hlt | rfl | hgt
    · exact hlt
    · exact absurd h (Std.Asymm.asymm _ _ h)
    · exact absurd h (Std.Asymm.asymm _ _ (shortlex_letters_of_lt hgt))
  · exact shortlex_letters_of_lt

/-! ## Names -/

namespace Sat

/-- A word that names a satoshi: it has one to eleven letters, and denotes how far the satoshi is
from the end of the supply. -/
structure IsName (s : Sat) (word : String) : Prop where
  ne_empty : word ≠ ""
  length_le : word.length ≤ 11
  letters : ∀ c ∈ word.toList, isLetter c
  value : lettersValue word.toList = supply - s.number

theorem toList_name (s : Sat) : s.name.toList = InscriptionLedger.letters (supply - s.number) :=
  String.toList_ofList

theorem number_lt_supply (s : Sat) : s.number < supply := by
  have hle := s.number_le
  have hpos : 0 < supply := by decide
  unfold lastSat at hle
  omega

theorem isName_name (s : Sat) : s.IsName s.name := by
  have hlt := s.number_lt_supply
  constructor
  case ne_empty =>
    rw [Ne, ← String.toList_inj, toList_name]
    exact letters_eq_nil_iff.not.2 (by omega)
  case length_le =>
    have hbound : supply ≤ wordCount 11 := by decide
    rw [← String.length_toList, toList_name, length_letters_le_iff]
    omega
  case letters =>
    intro c hc
    rw [toList_name] at hc
    exact isLetter_of_mem_letters hc
  case value => rw [toList_name, lettersValue_letters]

/-- The one word that names a satoshi is its name. -/
theorem isName_iff {s : Sat} {word : String} : s.IsName word ↔ word = s.name := by
  constructor
  · intro h
    rw [← String.toList_inj, toList_name, ← h.value, letters_lettersValue h.letters]
  · rintro rfl
    exact s.isName_name

theorem name_inj {s t : Sat} : s.name = t.name ↔ s = t := by
  constructor
  · intro h
    have hs := s.number_lt_supply
    have ht := t.number_lt_supply
    have hvalue := s.isName_name.value
    rw [h, t.isName_name.value] at hvalue
    exact eq_of_number_eq (by omega)
  · exact congrArg name

/-- The names of satoshis that are mined earlier are longer, or as long and later. -/
theorem number_lt_iff {s t : Sat} :
    s.number < t.number ↔
      t.name.length < s.name.length ∨ t.name.length = s.name.length ∧ t.name < s.name := by
  have hs := s.number_lt_supply
  have ht := t.number_lt_supply
  have hdistance : s.number < t.number ↔ supply - t.number < supply - s.number := by omega
  rw [hdistance, ← shortlex_letters_iff, List.shortlex_def, ← toList_name, ← toList_name,
    String.length_toList, String.length_toList, String.lt_iff_toList_lt]
  rfl

/-- Each satoshi has one name, a word of one to eleven letters that denotes how far it is from the
end of the supply; two satoshis have two names; and the names are ordered against their satoshis,
the longer ones first. -/
theorem isName_iff_and_order :
    (∀ (s : Sat) (word : String), s.IsName word ↔ word = s.name) ∧
      (∀ s t : Sat, s.name = t.name ↔ s = t) ∧
      ∀ s t : Sat, s.number < t.number ↔
        t.name.length < s.name.length ∨ t.name.length = s.name.length ∧ t.name < s.name :=
  ⟨fun _ _ => isName_iff, fun _ _ => name_inj, fun _ _ => number_lt_iff⟩

end Sat

end InscriptionLedger
