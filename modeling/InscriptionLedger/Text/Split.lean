/-!
# Splitting at a separator

## Main definitions

* `splitLast? sep cs`: what stands before and after the last `sep`
* `splitFirst? p cs`: what stands before and after the first character in a class
* `splitAt p cs`: the pieces between the characters in a class
* `occursIn part cs`: whether a text stands somewhere in another one

## Main results

* `splitLast?_append`: the last separator is found where no other follows it
* `append_of_splitLast?`: the two parts and the separator make up the list, and no separator is in
  the second part
* `splitFirst?_append`, `append_of_splitFirst?`: the same of the first character in a class
-/

namespace InscriptionLedger.Text

/-- What stands before and after the last occurrence of a character. -/
def splitLast? (sep : Char) : List Char → Option (List Char × List Char)
  | [] => none
  | c :: rest =>
    match splitLast? sep rest with
    | some (before, after) => some (c :: before, after)
    | none => if c = sep then some ([], rest) else none

/-- What stands before and after the first character in the class `p`. -/
def splitFirst? (p : Char → Bool) : List Char → Option (List Char × List Char)
  | [] => none
  | c :: rest =>
    if p c then some ([], rest)
    else (splitFirst? p rest).map fun (before, after) => (c :: before, after)

/-- The pieces between the characters in the class `p`; there is always one. -/
def splitAt (p : Char → Bool) : List Char → List (List Char)
  | [] => [[]]
  | c :: rest =>
    if p c then [] :: splitAt p rest
    else match splitAt p rest with
      | [] => [[c]]
      | piece :: pieces => (c :: piece) :: pieces

/-- Whether the characters of a text stand one after another somewhere in another one. -/
def occursIn (part : List Char) : List Char → Bool
  | [] => part.isEmpty
  | c :: rest => part.isPrefixOf (c :: rest) || occursIn part rest

theorem splitLast?_eq_none_iff {sep : Char} {cs : List Char} :
    splitLast? sep cs = none ↔ sep ∉ cs := by
  induction cs with
  | nil => simp [splitLast?]
  | cons c rest ih =>
    simp only [splitLast?]
    cases h : splitLast? sep rest with
    | some parts =>
      have : sep ∈ rest := by
        by_cases hs : sep ∈ rest
        · exact hs
        · rw [ih.2 hs] at h
          cases h
      simp [this]
    | none =>
      have : sep ∉ rest := ih.1 h
      by_cases hc : c = sep
      · simp [hc]
      · simp [hc, this, Ne.symm hc]

/-- The last separator is found where no other follows it. -/
theorem splitLast?_append {sep : Char} {after : List Char} (h : sep ∉ after) (before : List Char) :
    splitLast? sep (before ++ sep :: after) = some (before, after) := by
  induction before with
  | nil => simp [splitLast?, splitLast?_eq_none_iff.2 h]
  | cons c rest ih => simp [splitLast?, ih]

/-- The parts and the separator make up the list, and the second part holds no separator. -/
theorem append_of_splitLast? {sep : Char} {cs before after : List Char}
    (h : splitLast? sep cs = some (before, after)) : cs = before ++ sep :: after ∧ sep ∉ after := by
  induction cs generalizing before with
  | nil => simp [splitLast?] at h
  | cons c rest ih =>
    simp only [splitLast?] at h
    cases hr : splitLast? sep rest with
    | some parts =>
      obtain ⟨b, a⟩ := parts
      simp only [hr, Option.some.injEq, Prod.mk.injEq] at h
      obtain ⟨rfl, rfl⟩ := h
      obtain ⟨rfl, hn⟩ := ih hr
      exact ⟨rfl, hn⟩
    | none =>
      simp only [hr] at h
      split at h
      · next hc =>
        simp only [Option.some.injEq, Prod.mk.injEq] at h
        obtain ⟨rfl, rfl⟩ := h
        exact ⟨by simp [hc], splitLast?_eq_none_iff.1 hr⟩
      · cases h

theorem splitFirst?_eq_none_iff {p : Char → Bool} {cs : List Char} :
    splitFirst? p cs = none ↔ ∀ c ∈ cs, p c = false := by
  induction cs with
  | nil => simp [splitFirst?]
  | cons c rest ih =>
    rw [splitFirst?]
    cases h : p c with
    | true => simp [h]
    | false => simp [h, ih]

/-- The first character in a class is found where none in it stands before. -/
theorem splitFirst?_append {p : Char → Bool} {before : List Char} (h : ∀ c ∈ before, p c = false)
    {sep : Char} (hsep : p sep = true) (after : List Char) :
    splitFirst? p (before ++ sep :: after) = some (before, after) := by
  induction before with
  | nil => simp [splitFirst?, hsep]
  | cons c rest ih =>
    have hrest := ih fun d hd => h d (List.mem_cons_of_mem c hd)
    simp [splitFirst?, h c List.mem_cons_self, hrest]

/-- The parts and a separator make up the list, and the first part holds no separator. -/
theorem append_of_splitFirst? {p : Char → Bool} {cs before after : List Char}
    (h : splitFirst? p cs = some (before, after)) :
    ∃ sep, p sep = true ∧ cs = before ++ sep :: after ∧ ∀ c ∈ before, p c = false := by
  induction cs generalizing before with
  | nil => cases h
  | cons c rest ih =>
    rw [splitFirst?] at h
    cases hc : p c with
    | true =>
      rw [hc, if_pos rfl] at h
      cases h
      exact ⟨c, hc, rfl, nofun⟩
    | false =>
      rw [hc, if_neg Bool.false_ne_true, Option.map_eq_some_iff] at h
      obtain ⟨⟨b, a⟩, hrest, hparts⟩ := h
      cases hparts
      obtain ⟨sep, hsep, rfl, hbefore⟩ := ih hrest
      exact ⟨sep, hsep, rfl, List.forall_mem_cons.2 ⟨hc, hbefore⟩⟩

end InscriptionLedger.Text
