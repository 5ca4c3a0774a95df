/-!
# Blank characters

Texts are read after the blanks around them are dropped. Two classes of blanks exist: the one that
surrounds a text, and the narrower one that surrounds a number, which leaves out the four
information separators `U+001C` to `U+001F`.

## Main definitions

* `isBlank c`, `isNumberBlank c`: the two classes
* `trimBy p cs`: `cs` without the characters of the class `p` at its ends
* `trim s`: the text `s` without the blanks at its ends
* `IsTrimmed p cs`: texts whose ends are outside the class `p`

## Main results

* `trimBy_append`: characters of the class around a text are dropped, and no others
* `isTrimmed_trimBy`: nothing of the class is left at the ends
-/

namespace InscriptionLedger.Text

/-- The blanks of a number: the ASCII blanks and the spaces and line ends beyond ASCII. -/
def isNumberBlank (c : Char) : Bool :=
  let n := c.toNat
  (0x09 ≤ n && n ≤ 0x0D) || n == 0x20 || n == 0x85 || n == 0xA0 || n == 0x1680 ||
    (0x2000 ≤ n && n ≤ 0x200A) || n == 0x2028 || n == 0x2029 || n == 0x202F || n == 0x205F ||
    n == 0x3000

/-- The blanks of a text: those of a number and the information separators. -/
def isBlank (c : Char) : Bool :=
  isNumberBlank c || (0x1C ≤ c.toNat && c.toNat ≤ 0x1F)

/-- The ASCII blanks, which may stand between the bytes of a hexadecimal text. -/
def isAsciiBlank (c : Char) : Bool :=
  (0x09 ≤ c.toNat && c.toNat ≤ 0x0D) || c.toNat == 0x20

/-- The list without its last elements in the class `p`. -/
def dropEndWhile (p : Char → Bool) (cs : List Char) : List Char :=
  (cs.reverse.dropWhile p).reverse

/-- The list without its first and last elements in the class `p`. -/
def trimBy (p : Char → Bool) (cs : List Char) : List Char :=
  dropEndWhile p (cs.dropWhile p)

/-- The text without the blanks at its ends. -/
def trim (s : String) : String :=
  String.ofList (trimBy isBlank s.toList)

@[simp] theorem trimBy_nil (p : Char → Bool) : trimBy p [] = [] := rfl

theorem mem_of_mem_trimBy {p : Char → Bool} {cs : List Char} {c : Char} (h : c ∈ trimBy p cs) :
    c ∈ cs := by
  rw [trimBy, dropEndWhile, List.mem_reverse] at h
  have hback := (List.dropWhile_suffix p).subset h
  rw [List.mem_reverse] at hback
  exact (List.dropWhile_suffix p).subset hback

/-! ## Texts without blanks around them -/

/-- A text whose first and last characters are outside a class. -/
structure IsTrimmed (p : Char → Bool) (cs : List Char) : Prop where
  head : ∀ c ∈ cs.head?, p c = false
  last : ∀ c ∈ cs.getLast?, p c = false

theorem dropWhile_append_eq {p : Char → Bool} {before cs : List Char}
    (hbefore : ∀ c ∈ before, p c = true) (hhead : ∀ c ∈ cs.head?, p c = false) :
    (before ++ cs).dropWhile p = cs := by
  rw [List.dropWhile_append_of_pos hbefore]
  cases cs with
  | nil => rfl
  | cons c rest => simp [hhead c (by simp)]

/-- Characters of the class around a text are dropped, and no others. -/
theorem trimBy_append {p : Char → Bool} {before cs after : List Char} (h : IsTrimmed p cs)
    (hbefore : ∀ c ∈ before, p c = true) (hafter : ∀ c ∈ after, p c = true) :
    trimBy p (before ++ cs ++ after) = cs := by
  rcases hcs : cs with _ | ⟨c, rest⟩
  · have hall : ∀ c ∈ before ++ after, p c = true := by
      simpa [or_imp, forall_and] using ⟨hbefore, hafter⟩
    have hnone : (before ++ after ++ []).dropWhile p = [] := dropWhile_append_eq hall nofun
    rw [List.append_nil] at hnone
    rw [List.append_nil, trimBy, hnone]
    rfl
  · have hfront : (before ++ (cs ++ after)).dropWhile p = cs ++ after :=
      dropWhile_append_eq hbefore fun d hd => h.head d (by simpa [hcs] using hd)
    have hback : (after.reverse ++ cs.reverse).dropWhile p = cs.reverse :=
      dropWhile_append_eq (fun d hd => hafter d (List.mem_reverse.1 hd))
        fun d hd => h.last d (by rwa [List.head?_reverse] at hd)
    rw [← hcs, trimBy, List.append_assoc, hfront, dropEndWhile, List.reverse_append, hback,
      List.reverse_reverse]

/-- A text whose first and last characters are outside the class is left alone. -/
theorem trimBy_eq_self {p : Char → Bool} {cs : List Char} (h : IsTrimmed p cs) :
    trimBy p cs = cs := by
  have halone : trimBy p ([] ++ cs ++ []) = cs := trimBy_append h nofun nofun
  rwa [List.nil_append, List.append_nil] at halone

/-- Nothing of the class is left at the ends. -/
theorem isTrimmed_trimBy (p : Char → Bool) (cs : List Char) : IsTrimmed p (trimBy p cs) := by
  constructor
  case head =>
    intro c hc
    have hprefix : trimBy p cs <+: cs.dropWhile p := by
      rw [← List.reverse_suffix, trimBy, dropEndWhile, List.reverse_reverse]
      exact List.dropWhile_suffix p
    have hhead : (cs.dropWhile p).head? = some c := by
      obtain ⟨rest, hrest⟩ := hprefix
      rw [← hrest, List.head?_append, hc, Option.some_or]
    have := List.head?_dropWhile_not p cs
    rwa [hhead] at this
  case last =>
    intro c hc
    rw [trimBy, dropEndWhile, List.getLast?_reverse] at hc
    have := List.head?_dropWhile_not p (cs.dropWhile p).reverse
    rwa [hc] at this

end InscriptionLedger.Text
