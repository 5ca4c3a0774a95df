import InscriptionLedger.Text.Blank
import InscriptionLedger.Text.Digit

/-!
# Decimal numerals

Integers are written in ASCII digits without leading zeros. They are read leniently: blanks around
the number, a sign of either kind, leading zeros, digits of any script and single underscores
between digits are accepted. A numeral has at most `maxDigits` digits: a longer one is not read, and
an integer that would need one is not written.

## Main definitions

* `write n`: the numeral of the integer `n`
* `isShort n`: whether the integer has no more digits than a numeral may have
* `digits? cs`: the digit values of a run of digits with single underscores between them
* `read? s`: the integer a text denotes

## Main results

* `value_natDigits`, `natDigits_lt`: the digits of a number denote it and are below ten
-/

namespace InscriptionLedger.Numeral

open Text

/-- The ASCII digit of a value below ten. -/
def digitChar (d : Nat) : Char := Char.ofNat (0x30 + d)

/-- The decimal digits of a number, most significant first; zero has one digit. -/
def natDigits (n : Nat) : List Nat :=
  if n < 10 then [n] else natDigits (n / 10) ++ [n % 10]
termination_by n

/-- The number of decimal digits. -/
def digitCount (n : Nat) : Nat := (natDigits n).length

/-- The number that a list of digits denotes, most significant first. -/
def value (digits : List Nat) : Nat := digits.foldl (fun n d => 10 * n + d) 0

/-- The characters of a natural number. -/
def natChars (n : Nat) : List Char := (natDigits n).map digitChar

/-- The characters of an integer; a negative one starts with a hyphen. -/
def intChars (n : Int) : List Char :=
  if n < 0 then '-' :: natChars n.natAbs else natChars n.natAbs

/-- The numeral of an integer. -/
def write (n : Int) : String := String.ofList (intChars n)

/-- The most digits that a numeral may have. -/
def maxDigits : Nat := 4300

/-- Whether an integer has no more digits than a numeral may have. -/
def isShort (n : Int) : Bool := digitCount n.natAbs ≤ maxDigits

/-- The values of a non-empty run of digits with at most one underscore between neighbours. -/
def digits? : List Char → Option (List Nat)
  | [] => none
  | [c] => (decimalValue? c).map fun d => [d]
  | c :: '_' :: rest => do return (← decimalValue? c) :: (← digits? rest)
  | c :: rest => do return (← decimalValue? c) :: (← digits? rest)

/-- The sign at the front of a list, and the rest of it; `true` stands for a minus. -/
def splitSign : List Char → Bool × List Char
  | '+' :: rest => (false, rest)
  | '-' :: rest => (true, rest)
  | rest => (false, rest)

/-- The integer of magnitude `n` and the given sign. -/
def signed (negative : Bool) (n : Nat) : Int := if negative then -(n : Int) else n

/-- The integer that a list of characters denotes. -/
def readChars? (cs : List Char) : Option Int :=
  let (negative, body) := splitSign (trimBy isNumberBlank cs)
  match digits? body with
  | some digits => if digits.length ≤ maxDigits then some (signed negative (value digits)) else none
  | none => none

/-- The integer that a text denotes. -/
def read? (s : String) : Option Int := readChars? s.toList

theorem isShort_iff {n : Int} : isShort n = true ↔ digitCount n.natAbs ≤ maxDigits :=
  decide_eq_true_iff

/-! ## Digits -/

theorem natDigits_of_lt {n : Nat} (h : n < 10) : natDigits n = [n] := by
  rw [natDigits, if_pos h]

theorem natDigits_of_le {n : Nat} (h : 10 ≤ n) : natDigits n = natDigits (n / 10) ++ [n % 10] := by
  rw [natDigits, if_neg (by omega)]

theorem value_append (xs : List Nat) (d : Nat) : value (xs ++ [d]) = 10 * value xs + d := by
  simp [value]

/-- The digits of a number denote it. -/
@[simp] theorem value_natDigits (n : Nat) : value (natDigits n) = n := by
  induction n using Nat.strongRecOn with
  | ind n ih =>
    rcases Nat.lt_or_ge n 10 with h | h
    · simp [natDigits_of_lt h, value]
    · rw [natDigits_of_le h, value_append, ih (n / 10) (by omega)]
      omega

/-- Every digit is below ten. -/
theorem natDigits_lt {n d : Nat} (h : d ∈ natDigits n) : d < 10 := by
  induction n using Nat.strongRecOn with
  | ind n ih =>
    rcases Nat.lt_or_ge n 10 with hn | hn
    · rw [natDigits_of_lt hn] at h
      simp at h
      omega
    · rw [natDigits_of_le hn, List.mem_append] at h
      rcases h with h | h
      · exact ih (n / 10) (by omega) h
      · simp at h
        omega

theorem natDigits_ne_nil (n : Nat) : natDigits n ≠ [] := by
  rw [natDigits]
  split <;> simp

/-! ## The number of digits -/

/-- The number that digits denote has no more digits than these. -/
theorem digitCount_value_le {ds : List Nat} (hne : ds ≠ []) (hlt : ∀ d ∈ ds, d < 10) :
    digitCount (value ds) ≤ ds.length := by
  -- From the last digit on, which is the first of the reversed list.
  suffices h : ∀ rs : List Nat, rs ≠ [] → (∀ d ∈ rs, d < 10) →
      digitCount (value rs.reverse) ≤ rs.length by
    simpa using h ds.reverse (by simpa using hne) (by simpa using hlt)
  intro rs hrs hdigits
  induction rs with
  | nil => exact absurd rfl hrs
  | cons d rest ih =>
    obtain ⟨hd, hrest⟩ := List.forall_mem_cons.1 hdigits
    rw [List.reverse_cons, value_append, List.length_cons]
    rcases Nat.lt_or_ge (10 * value rest.reverse + d) 10 with hone | hmore
    · rw [digitCount, natDigits_of_lt hone]
      exact Nat.succ_le_succ (Nat.zero_le _)
    · have hnonempty : rest ≠ [] := by
        rintro rfl
        simp [value] at hmore
        omega
      have hdiv : (10 * value rest.reverse + d) / 10 = value rest.reverse := by omega
      rw [digitCount, natDigits_of_le hmore, hdiv, List.length_append, List.length_singleton]
      exact Nat.succ_le_succ (ih hnonempty hrest)

theorem natAbs_signed (negative : Bool) (n : Nat) : (signed negative n).natAbs = n := by
  cases negative <;> simp [signed]

end InscriptionLedger.Numeral
