import InscriptionLedger.Decimal.Literal
import InscriptionLedger.Proofs.NearestIntegers
import InscriptionLedger.Text.Lower

/-!
# Texts of decimals

A decimal is spelled as an optional sign, digits with an optional point among them, and an optional
exponent with a sign of its own. Digits may be those of any script, and zeros may stand in front of
the others and behind them. Every text of this grammar is read as the decimal that it spells, and no
other text is read as a number.

## Main definitions

* `IsSign`, `AreDigits`, `IsFraction`, `IsExponent`: the parts of a decimal's text
* `Spells cs negative d`: the texts of decimals

## Main results

* `Literal.spanDigits_append`: digits are read up to what is none
* `Literal.ofChars?_eq_some_number_iff`: exactly the texts of decimals are read as numbers
-/

namespace InscriptionLedger.Decimal

open Text Numeral

/-! ## The grammar -/

/-- A sign in front of a number, which may be absent. -/
inductive IsSign : List Char → Bool → Prop
  | absent : IsSign [] false
  | plus : IsSign ['+'] false
  | minus : IsSign ['-'] true

/-- Decimal digits of any script, with their values. -/
def AreDigits (cs : List Char) (ds : List Nat) : Prop :=
  List.Forall₂ (fun c d => decimalValue? c = some d) cs ds

/-- A point and the digits behind it, both of which may be absent. -/
inductive IsFraction : List Char → List Nat → Prop
  | absent : IsFraction [] []
  | point {cs : List Char} {ds : List Nat} : AreDigits cs ds → IsFraction ('.' :: cs) ds

/-- An exponent, which may be absent. -/
inductive IsExponent : List Char → Int → Prop
  | absent : IsExponent [] 0
  | given {letter : Char} {sign cs : List Char} {negative : Bool} {ds : List Nat} :
    letter = 'e' ∨ letter = 'E' → IsSign sign negative → AreDigits cs ds → ds ≠ [] →
      IsExponent (letter :: (sign ++ cs)) (signed negative (value ds))

/-- The texts of decimals: a sign, digits with a point in front of some of them, an exponent. -/
inductive Spells : List Char → Bool → Scientific → Prop
  | intro {sign whole fraction tail : List Char} {negative : Bool} {ws fs : List Nat} {e : Int} :
    IsSign sign negative → AreDigits whole ws → IsFraction fraction fs → IsExponent tail e →
      ws ++ fs ≠ [] →
        Spells (sign ++ (whole ++ (fraction ++ tail))) negative
          ⟨value (ws ++ fs), e - fs.length⟩

/-! ## Characters -/

/-- Signs, points and the first letters of exponents and names are no digits. -/
theorem decimalValue?_eq_none {c : Char} (h : c ∈ ['+', '-', '.', 'e', 'E', 'i', 'n', 's']) :
    decimalValue? c = none := by
  have all : ['+', '-', '.', 'e', 'E', 'i', 'n', 's'].all (decimalValue? · == none) := by
    decide +kernel
  exact eq_of_beq (List.all_eq_true.1 all c h)

/-- A decimal digit is no capital. -/
theorem toLower_of_decimalValue? {c : Char} {d : Nat} (h : decimalValue? c = some d) :
    c.toLower = c := by
  apply Char.toLower_eq_of_not_isUpper
  intro hupper
  have all : ∀ n : Fin 26, decimalValue? (Char.ofNat (0x41 + n)) = none := by decide +kernel
  obtain ⟨n, rfl⟩ := exists_ofNat_of_isUpper hupper
  rw [all n] at h
  cases h

/-- The written digits of a number are decimal digits. -/
theorem areDigits_map_digitChar (ds : List Nat) (h : ∀ d ∈ ds, d < 10) :
    AreDigits (ds.map digitChar) ds := by
  induction ds with
  | nil => exact .nil
  | cons d ds ih =>
    rw [List.forall_mem_cons] at h
    exact .cons (decimalValue?_digitChar h.1) (ih h.2)

/-! ## Reading the parts -/

theorem IsSign.splitSign_append {sign rest : List Char} {negative : Bool} (h : IsSign sign negative)
    (hrest : ∀ c ∈ rest.head?, c ≠ '+' ∧ c ≠ '-') :
    splitSign (sign ++ rest) = (negative, rest) := by
  cases h with
  | plus => rfl
  | minus => rfl
  | absent =>
    rw [List.nil_append]
    unfold splitSign
    split
    · exact absurd rfl (hrest '+' rfl).1
    · exact absurd rfl (hrest '-' rfl).2
    · rfl

theorem AreDigits.head?_ne {cs : List Char} {ds : List Nat} (h : AreDigits cs ds) :
    ∀ c ∈ cs.head?, c ≠ '+' ∧ c ≠ '-' := by
  intro c hc
  obtain ⟨d, hd⟩ : ∃ d, decimalValue? c = some d := by
    cases h with
    | nil => cases hc
    | cons hd _ =>
      obtain rfl := Option.some.inj hc
      exact ⟨_, hd⟩
  constructor
  · rintro rfl
    rw [decimalValue?_eq_none (by simp)] at hd
    cases hd
  · rintro rfl
    rw [decimalValue?_eq_none (by simp)] at hd
    cases hd

namespace Literal

/-- Digits are read up to what is none. -/
theorem spanDigits_append {cs rest : List Char} {ds : List Nat} (h : AreDigits cs ds)
    (hrest : ∀ c ∈ rest.head?, decimalValue? c = none) : spanDigits (cs ++ rest) = (ds, rest) := by
  induction h with
  | nil =>
    cases rest with
    | nil => rfl
    | cons c more => rw [List.nil_append, spanDigits, hrest c rfl]
  | cons hd _ ih => rw [List.cons_append, spanDigits, hd, ih]

theorem spanDigits_of_areDigits {cs : List Char} {ds : List Nat} (h : AreDigits cs ds) :
    spanDigits cs = (ds, []) := by
  rw [← List.append_nil cs]
  exact spanDigits_append h nofun

theorem exponent?_of_isExponent {cs : List Char} {e : Int} (h : IsExponent cs e) :
    exponent? cs = some e := by
  cases h with
  | absent => rfl
  | given hletter hsign hdigits hne =>
    rw [exponent?, if_pos hletter, hsign.splitSign_append hdigits.head?_ne]
    dsimp only
    rw [spanDigits_of_areDigits hdigits]
    obtain ⟨d, ds, rfl⟩ := List.exists_cons_of_ne_nil hne
    rfl

/-- What stands behind the digits of a decimal starts with none of them. -/
theorem head?_of_isExponent {cs : List Char} {e : Int} (h : IsExponent cs e) :
    ∀ c ∈ cs.head?, decimalValue? c = none ∧ c ≠ '.' := by
  intro c hc
  cases h with
  | absent => cases hc
  | given hletter =>
    obtain rfl := Option.some.inj hc
    rcases hletter with rfl | rfl
    · exact ⟨decimalValue?_eq_none (by simp), by decide⟩
    · exact ⟨decimalValue?_eq_none (by simp), by decide⟩

theorem head?_of_isFraction {fraction tail : List Char} {fs : List Nat} {e : Int}
    (h : IsFraction fraction fs) (htail : IsExponent tail e) :
    ∀ c ∈ (fraction ++ tail).head?, decimalValue? c = none := by
  cases h with
  | absent => exact fun c hc => (head?_of_isExponent htail c hc).1
  | point _ =>
    intro c hc
    obtain rfl := Option.some.inj hc
    exact decimalValue?_eq_none (by simp)

/-- The number of a text is made of its parts. -/
theorem number?_of_parts {whole fraction tail : List Char} {ws fs : List Nat} {e : Int}
    (hwhole : AreDigits whole ws) (hfraction : IsFraction fraction fs) (htail : IsExponent tail e)
    (hne : ws ++ fs ≠ []) (negative : Bool) :
    number? negative (whole ++ (fraction ++ tail)) =
      some (number negative (value (ws ++ fs)) (e - fs.length)) := by
  have hexponent := exponent?_of_isExponent htail
  obtain ⟨d, ds, hds⟩ := List.exists_cons_of_ne_nil hne
  rw [number?, spanDigits_append hwhole (head?_of_isFraction hfraction htail)]
  cases hfraction with
  | point hdigits =>
    have hspan := spanDigits_append hdigits fun c hc => (head?_of_isExponent htail c hc).1
    simp only [List.cons_append, hspan, hds, hexponent, Option.map_some]
  | absent =>
    cases htail with
    | absent => simp only [List.append_nil, hds, hexponent, Option.map_some]
    | given hletter =>
      rcases hletter with rfl | rfl
      · simp [hds, hexponent]
      · simp [hds, hexponent]

/-- A digit or a point is neither a sign nor the first letter of a name. -/
theorem not_mem_of_digit_or_point {c : Char} (h : (∃ d, decimalValue? c = some d) ∨ c = '.') :
    c.toLower = c ∧ c ∉ ['+', '-', 'i', 'n', 's'] := by
  rcases h with ⟨d, hd⟩ | rfl
  · refine ⟨toLower_of_decimalValue? hd, fun hmem => ?_⟩
    have hsub : ['+', '-', 'i', 'n', 's'] ⊆ ['+', '-', '.', 'e', 'E', 'i', 'n', 's'] := by simp
    rw [decimalValue?_eq_none (hsub hmem)] at hd
    cases hd
  · decide

/-- The first character of digits, some of which may stand behind a point. -/
theorem head?_of_parts {whole fraction : List Char} {ws fs : List Nat} (hwhole : AreDigits whole ws)
    (hfraction : IsFraction fraction fs) (hne : ws ++ fs ≠ []) (tail : List Char) :
    ∃ c, (whole ++ (fraction ++ tail)).head? = some c ∧
      c.toLower = c ∧ c ∉ ['+', '-', 'i', 'n', 's'] := by
  cases hwhole with
  | cons hd _ => exact ⟨_, rfl, not_mem_of_digit_or_point (.inl ⟨_, hd⟩)⟩
  | nil =>
    cases hfraction with
    | absent => exact absurd rfl hne
    | point _ => exact ⟨'.', rfl, not_mem_of_digit_or_point (.inr rfl)⟩

/-- A text is read as the decimal that it spells. -/
theorem ofChars?_of_spells {cs : List Char} {negative : Bool} {d : Scientific}
    (h : Spells cs negative d) :
    ofChars? cs = some (number negative d.coefficient d.exponent) := by
  obtain @⟨sign, whole, fraction, tail, _, ws, fs, e, hsign, hwhole, hfraction, htail, hne⟩ := h
  obtain ⟨c, hhead, hlower, hc⟩ := head?_of_parts hwhole hfraction hne tail
  have hnames : ∀ l ∈ ((whole ++ (fraction ++ tail)).map Char.toLower).head?,
      l ∉ ['+', '-', 'i', 'n', 's'] := by
    rw [List.head?_map, hhead]
    intro l hl
    obtain rfl := Option.some.inj hl
    exact hlower.symm ▸ hc
  have hsplit : splitSign (sign ++ (whole ++ (fraction ++ tail))) =
      (negative, whole ++ (fraction ++ tail)) := by
    apply hsign.splitSign_append
    intro l hl
    obtain rfl := Option.some.inj (hhead.symm.trans hl)
    exact ⟨fun h => hc (by simp [h]), fun h => hc (by simp [h])⟩
  rw [ofChars?, hsplit]
  dsimp only
  split
  · next hname => exact absurd (hnames 'i' (by rw [hname]; rfl)) (by decide)
  · next hname => exact absurd (hnames 'i' (by rw [hname]; rfl)) (by decide)
  · next hname => exact absurd (hnames 'n' (by rw [hname]; rfl)) (by decide)
  · next hname => exact absurd (hnames 's' (by rw [hname]; rfl)) (by decide)
  · exact number?_of_parts hwhole hfraction htail hne negative

/-! ## Texts that are read -/

theorem exists_isSign (cs : List Char) :
    ∃ sign, IsSign sign (splitSign cs).1 ∧ cs = sign ++ (splitSign cs).2 := by
  unfold splitSign
  split
  · exact ⟨['+'], .plus, rfl⟩
  · exact ⟨['-'], .minus, rfl⟩
  · exact ⟨[], .absent, rfl⟩

theorem exists_areDigits (cs : List Char) :
    ∃ digits, AreDigits digits (spanDigits cs).1 ∧ cs = digits ++ (spanDigits cs).2 := by
  fun_induction spanDigits cs with
  | case1 => exact ⟨[], .nil, rfl⟩
  | case2 c rest d hd ds tail hspan ih =>
    obtain ⟨digits, hdigits, hrest⟩ := ih
    rw [hspan] at hdigits hrest
    exact ⟨c :: digits, .cons hd hdigits, congrArg (List.cons c) hrest⟩
  | case3 c rest hd => exact ⟨[], .nil, rfl⟩

theorem isExponent_of_exponent? {cs : List Char} {e : Int} (h : exponent? cs = some e) :
    IsExponent cs e := by
  cases cs with
  | nil =>
    cases h
    exact .absent
  | cons c rest =>
    rw [exponent?] at h
    split at h
    case isFalse => cases h
    case isTrue hletter =>
      obtain ⟨sign, hsign, hrest⟩ := exists_isSign rest
      dsimp only at h
      split at h
      · next hspan =>
        cases h
        obtain ⟨digits, hdigits, hbody⟩ := exists_areDigits (splitSign rest).2
        rw [hspan] at hdigits hbody
        rw [hbody, List.append_nil] at hrest
        generalize (splitSign rest).1 = negative at hsign ⊢
        rw [hrest]
        exact .given hletter hsign hdigits (List.cons_ne_nil _ _)
      · cases h

theorem exists_isFraction (rest : List Char) :
    ∃ fraction,
      IsFraction fraction (match rest with | '.' :: more => spanDigits more | _ => ([], rest)).1 ∧
      rest = fraction ++
        (match rest with | '.' :: more => spanDigits more | _ => ([], rest)).2 := by
  split
  · next more =>
    obtain ⟨digits, hdigits, hmore⟩ := exists_areDigits more
    exact ⟨'.' :: digits, .point hdigits, congrArg (List.cons '.') hmore⟩
  · exact ⟨[], .absent, rfl⟩

/-- What is read as a number is made of its parts. -/
theorem spells_of_number? {negative negative' : Bool} {sign cs : List Char} {coefficient : Nat}
    {exponent : Int} (hsign : IsSign sign negative)
    (h : number? negative cs = some (number negative' coefficient exponent)) :
    negative' = negative ∧ Spells (sign ++ cs) negative ⟨coefficient, exponent⟩ := by
  obtain ⟨whole, hwhole, hcs⟩ := exists_areDigits cs
  obtain ⟨fraction, hfraction, hrest⟩ := exists_isFraction (spanDigits cs).2
  have htext : sign ++ cs = _ := congrArg (sign ++ ·) (hcs.trans (congrArg (whole ++ ·) hrest))
  rw [number?] at h
  dsimp only at h
  split at h
  · cases h
  · next hne =>
    obtain ⟨e, he, hnumber⟩ := Option.map_eq_some_iff.1 h
    cases hnumber
    rw [htext]
    exact ⟨rfl, .intro hsign hwhole hfraction (isExponent_of_exponent? he) hne⟩

/-- Exactly the texts of decimals are read as numbers, and each as the decimal that it spells. -/
theorem ofChars?_eq_some_number_iff {cs : List Char} {negative : Bool} {coefficient : Nat}
    {exponent : Int} :
    ofChars? cs = some (number negative coefficient exponent) ↔
      Spells cs negative ⟨coefficient, exponent⟩ := by
  refine ⟨fun h => ?_, ofChars?_of_spells⟩
  obtain ⟨sign, hsign, hcs⟩ := exists_isSign cs
  rw [ofChars?] at h
  dsimp only at h
  have hpayload (signalling : Bool) (body : List Char) :
      payload? signalling body ≠ some (number negative coefficient exponent) := by
    unfold payload?
    split
    · nofun
    · nofun
  split at h
  · cases h
  · cases h
  · exact absurd h (hpayload _ _)
  · exact absurd h (hpayload _ _)
  · obtain ⟨rfl, hspells⟩ := spells_of_number? hsign h
    rwa [← hcs] at hspells

end Literal

end InscriptionLedger.Decimal
