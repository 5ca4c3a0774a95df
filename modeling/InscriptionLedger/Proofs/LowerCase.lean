import InscriptionLedger.Text.Lower
import Mathlib

/-!
# Lower case again

No lower-case form is a capital, so that a text in lower case is its own lower-case form. To see it
the runs of forms are compared with those of capitals, not the characters; in the same way it is
seen which characters are forms of no other one.

## Main definitions

* `CaseRun.forms`, `CaseRun.isApart`: the forms of a run, and runs that do not meet
* `IsSettled`: characters that are no capitals
* `isNoForm`: whether a code point is the form of no other one

## Main results

* `mem_lowerFrom`: the characters of a lower-case form
* `lowerFrom_lowerFrom`: a lower-case form is its own
* `not_mem_lowerFrom`: a character that is no form is not in one unless it was there before
-/

namespace InscriptionLedger.Text

/-! ## Runs of capitals -/

namespace CaseRun

/-- A code point as a run of its own. -/
def single (n : Nat) : CaseRun := ⟨n, n, 1, 0⟩

/-- The lower-case forms of a run. -/
def forms (r : CaseRun) : CaseRun :=
  ⟨(r.first + r.shift).toNat, (r.last + r.shift).toNat, r.step, 0⟩

/-- Whether the forms of a run are characters. -/
def isValid (r : CaseRun) : Bool :=
  0 ≤ r.first + r.shift &&
    (r.last + r.shift < 0xD800 || (0xDFFF < r.first + r.shift && r.last + r.shift < 0x110000))

/-- Whether runs do not meet: one lies before the other, or the second takes every second code
point and the first those between. -/
def isApart (r s : CaseRun) : Bool :=
  r.last.blt s.first || s.last.blt r.first ||
    ((r.step == 2 || r.first == r.last) && s.step == 2 && (r.first + s.first) % 2 == 1)

theorem contains_iff {r : CaseRun} {n : Nat} :
    r.contains n = true ↔ r.first ≤ n ∧ n ≤ r.last ∧ (n - r.first) % r.step = 0 := by
  simp [contains, and_assoc]

@[simp] theorem contains_single (n : Nat) : (single n).contains n = true := by
  simp [contains_iff, single]

theorem contains_eq_false_of_isApart {r s : CaseRun} (h : r.isApart s = true) {n : Nat}
    (hn : r.contains n = true) : s.contains n = false := by
  rw [← Bool.not_eq_true, contains_iff]
  rintro ⟨hfirst, hlast, hstep⟩
  obtain ⟨hfirst', hlast', hstep'⟩ := contains_iff.1 hn
  simp only [isApart, Bool.or_eq_true, Nat.blt_eq, Bool.and_eq_true, beq_iff_eq] at h
  rcases h with (h | h) | ⟨⟨hr | hr, hs⟩, h⟩
  · omega
  · omega
  · rw [hr] at hstep'
    rw [hs] at hstep
    omega
  · rw [hs] at hstep
    omega

theorem contains_forms {r : CaseRun} (h : r.isValid = true) {n m : Nat}
    (hn : r.contains n = true) (hm : (m : Int) = n + r.shift) : r.forms.contains m = true := by
  obtain ⟨hfirst, hlast, hstep⟩ := contains_iff.1 hn
  simp only [isValid, Bool.and_eq_true, decide_eq_true_eq] at h
  have hdistance : m - (r.first + r.shift).toNat = n - r.first := by omega
  refine contains_iff.2 ⟨?_, ?_, ?_⟩
  · simp only [forms]
    omega
  · simp only [forms]
    omega
  · rw [forms, hdistance, hstep]

theorem toNat_ofNat_of_isValid {r : CaseRun} (h : r.isValid = true) {n : Nat}
    (hn : r.contains n = true) :
    ((Char.ofNat ((n : Int) + r.shift).toNat).toNat : Int) = n + r.shift := by
  obtain ⟨hfirst, hlast, -⟩ := contains_iff.1 hn
  simp only [isValid, Bool.and_eq_true, Bool.or_eq_true, decide_eq_true_eq] at h
  have hvalid : ((n : Int) + r.shift).toNat.isValidChar := by
    rcases h with ⟨h, h' | h'⟩
    · exact .inl (by omega)
    · exact .inr ⟨by omega, by omega⟩
  rw [Char.toNat_ofNat, if_pos hvalid]
  omega

end CaseRun

theorem caseRuns_isValid : ∀ r ∈ caseRuns, r.isValid = true := by decide +kernel

theorem caseRuns_isApart : (caseRuns.all fun r => caseRuns.all r.forms.isApart) = true := by
  decide +kernel

/-- A character is its own form if it is in no run; the form of one in a run is in the run of the
forms. -/
theorem lowerChar_cases (c : Char) :
    (lowerChar c = c ∧ ∀ r ∈ caseRuns, r.contains c.toNat = false) ∨
      ∃ r ∈ caseRuns, r.contains c.toNat = true ∧
        r.forms.contains (lowerChar c).toNat = true := by
  unfold lowerChar
  cases h : caseRuns.find? fun r => r.contains c.toNat with
  | none => exact .inl ⟨rfl, by simpa using h⟩
  | some r =>
    have hr := List.mem_of_find?_eq_some h
    have hcontains : r.contains c.toNat = true := by simpa using List.find?_some h
    have hvalid := caseRuns_isValid r hr
    exact .inr ⟨r, hr, hcontains,
      CaseRun.contains_forms hvalid hcontains (CaseRun.toNat_ofNat_of_isValid hvalid hcontains)⟩

/-! ## Settled characters -/

/-- A character that is no capital. -/
structure IsSettled (c : Char) : Prop where
  notDotted : c ≠ '\u0130'
  notSigma : c ≠ '\u03A3'
  notInRun : ∀ r ∈ caseRuns, r.contains c.toNat = false

theorem IsSettled.lowerChar_eq {c : Char} (h : IsSettled c) : lowerChar c = c := by
  rcases lowerChar_cases c with ⟨heq, -⟩ | ⟨r, hr, hcontains, -⟩
  · exact heq
  · rw [h.notInRun r hr] at hcontains
    cases hcontains

/-- The forms of the two capitals that have more than one character or form. -/
def specialForms : List Char := ['i', '\u0307', '\u03C2', '\u03C3']

theorem isSettled_of_mem_specialForms : ∀ d ∈ specialForms, IsSettled d := by
  have hnotInRun :
      (specialForms.all fun d => caseRuns.all fun r => !r.contains d.toNat) = true := by
    decide +kernel
  simp only [List.all_eq_true, Bool.not_eq_true'] at hnotInRun
  have hother : ∀ d ∈ specialForms, d ≠ '\u0130' ∧ d ≠ '\u03A3' := by simp [specialForms]
  exact fun d hd => ⟨(hother d hd).1, (hother d hd).2, hnotInRun d hd⟩

/-- Whether a code point is the form of no other one. -/
def isNoForm (n : Nat) : Bool :=
  specialForms.all (fun d => d.toNat != n) && caseRuns.all fun r => r.forms.isApart (.single n)

theorem isNoForm_dotted : isNoForm '\u0130'.toNat = true := by decide +kernel

theorem isNoForm_sigma : isNoForm '\u03A3'.toNat = true := by decide +kernel

/-- A character that is no form is the form of itself only. -/
theorem eq_of_lowerChar_eq {c x : Char} (hx : isNoForm x.toNat = true) (h : lowerChar c = x) :
    c = x := by
  simp only [isNoForm, Bool.and_eq_true, List.all_eq_true] at hx
  rcases lowerChar_cases c with ⟨heq, -⟩ | ⟨r, hr, -, hform⟩
  · rw [← heq, h]
  · rw [h] at hform
    have := CaseRun.contains_eq_false_of_isApart (hx.2 r hr) hform
    rw [CaseRun.contains_single] at this
    cases this

theorem isSettled_lowerChar {c : Char} (hdotted : c ≠ '\u0130') (hsigma : c ≠ '\u03A3') :
    IsSettled (lowerChar c) where
  notDotted h := hdotted (eq_of_lowerChar_eq isNoForm_dotted h)
  notSigma h := hsigma (eq_of_lowerChar_eq isNoForm_sigma h)
  notInRun s hs := by
    rcases lowerChar_cases c with ⟨heq, hnone⟩ | ⟨r, hr, -, hform⟩
    · rw [heq]
      exact hnone s hs
    · have hapart := List.all_eq_true.1 (List.all_eq_true.1 caseRuns_isApart r hr) s hs
      exact CaseRun.contains_eq_false_of_isApart hapart hform

/-! ## Texts -/

theorem mem_lowerFrom {inWord : Bool} {cs : List Char} {d : Char} (h : d ∈ lowerFrom inWord cs) :
    d ∈ specialForms ∨ ∃ c ∈ cs, c ≠ '\u0130' ∧ c ≠ '\u03A3' ∧ d = lowerChar c := by
  induction cs generalizing inWord with
  | nil => cases h
  | cons c rest ih =>
    rw [lowerFrom, List.mem_append] at h
    rcases h with h | h
    · by_cases hdotted : c = '\u0130'
      · rw [if_pos hdotted] at h
        exact .inl (List.subset_append_left _ ['\u03C2', '\u03C3'] h)
      · by_cases hsigma : c = '\u03A3'
        · rw [if_neg hdotted, if_pos hsigma, List.mem_singleton] at h
          left
          rw [h]
          split <;> decide
        · rw [if_neg hdotted, if_neg hsigma, List.mem_singleton] at h
          exact .inr ⟨c, List.mem_cons_self .., hdotted, hsigma, h⟩
    · rcases ih h with h | ⟨c', hc', hform⟩
      · exact .inl h
      · exact .inr ⟨c', List.mem_cons_of_mem c hc', hform⟩

/-- No capital is left. -/
theorem isSettled_of_mem_lowerFrom {inWord : Bool} {cs : List Char} {d : Char}
    (h : d ∈ lowerFrom inWord cs) : IsSettled d := by
  rcases mem_lowerFrom h with h | ⟨c, -, hdotted, hsigma, rfl⟩
  · exact isSettled_of_mem_specialForms d h
  · exact isSettled_lowerChar hdotted hsigma

theorem lowerFrom_of_isSettled {cs : List Char} (h : ∀ c ∈ cs, IsSettled c) (inWord : Bool) :
    lowerFrom inWord cs = cs := by
  induction cs generalizing inWord with
  | nil => rfl
  | cons c rest ih =>
    obtain ⟨hc, hrest⟩ := List.forall_mem_cons.1 h
    rw [lowerFrom, if_neg hc.notDotted, if_neg hc.notSigma, hc.lowerChar_eq, ih hrest]
    rfl

/-- A lower-case form is its own. -/
theorem lowerFrom_lowerFrom (inWord inWord' : Bool) (cs : List Char) :
    lowerFrom inWord (lowerFrom inWord' cs) = lowerFrom inWord' cs :=
  lowerFrom_of_isSettled (fun _ => isSettled_of_mem_lowerFrom) inWord

/-- A character that is no form is not in one, unless it was there before. -/
theorem not_mem_lowerFrom {x : Char} (hx : isNoForm x.toNat = true) {cs : List Char} (h : x ∉ cs)
    (inWord : Bool) : x ∉ lowerFrom inWord cs := by
  intro hmem
  rcases mem_lowerFrom hmem with hspecial | ⟨c, hc, -, -, hform⟩
  · simp only [isNoForm, Bool.and_eq_true, List.all_eq_true] at hx
    simpa using hx.1 x hspecial
  · rw [← eq_of_lowerChar_eq hx hform.symm] at h
    exact h hc

theorem lowerFrom_ne_nil {cs : List Char} (h : cs ≠ []) (inWord : Bool) :
    lowerFrom inWord cs ≠ [] := by
  cases cs with
  | nil => exact absurd rfl h
  | cons c rest =>
    rw [lowerFrom]
    refine List.append_ne_nil_of_left_ne_nil ?_ _
    split
    · simp
    · split <;> simp

end InscriptionLedger.Text
