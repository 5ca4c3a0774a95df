import InscriptionLedger.Sat.Basic

/-!
# Names of satoshis

A satoshi's name is the bijective base-26 numeral of its distance from the end of the supply: the
letters stand for one to twenty-six, so no letter is a zero. The last satoshi is `a`.

## Main definitions

* `letters x`: the bijective numeral of `x`
* `lettersValue cs`: the number that a numeral denotes
* `Sat.name`: the name of a satoshi

## Main results

* `lettersValue_letters`: the numeral of a number denotes it
-/

namespace InscriptionLedger

/-- The letter that stands for a value from one to twenty-six. -/
def letter (value : Nat) : Char := Char.ofNat (0x60 + value)

/-- The value that a letter stands for. -/
def letterValue (c : Char) : Nat := c.toNat - 0x60

/-- The bijective base-26 numeral of a number, most significant letter first; zero has none. -/
def letters (x : Nat) : List Char :=
  if x = 0 then [] else letters ((x - 1) / 26) ++ [letter ((x - 1) % 26 + 1)]
termination_by x
decreasing_by omega

/-- The number that a bijective numeral denotes. -/
def lettersValue (cs : List Char) : Nat := cs.foldl (fun n c => 26 * n + letterValue c) 0

/-- The name of a satoshi. -/
def Sat.name (s : Sat) : String := String.ofList (letters (supply - s.number))

theorem letterValue_letter {v : Nat} (h : v ≤ 26) : letterValue (letter v) = v := by
  have all : ∀ v : Fin 27, letterValue (letter v) = v.val := by decide
  exact all ⟨v, by omega⟩

/-- The numeral of a number denotes it. -/
@[simp] theorem lettersValue_letters (x : Nat) : lettersValue (letters x) = x := by
  induction x using Nat.strongRecOn with
  | ind x ih =>
    rw [letters]
    split
    · next h => simp [lettersValue, h]
    · next h =>
      have hv : letterValue (letter ((x - 1) % 26 + 1)) = (x - 1) % 26 + 1 :=
        letterValue_letter (by omega)
      have := ih ((x - 1) / 26) (by omega)
      simp only [lettersValue, List.foldl_append, List.foldl_cons, List.foldl_nil] at this ⊢
      rw [this, hv]
      omega

end InscriptionLedger
