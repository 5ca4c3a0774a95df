import InscriptionLedger.Json.Basic

/-!
# Equal JSON values

Values can be equal though they differ in form: true is one and false is zero, an integer equals the
floating-point number of its value, and the members of an object may stand in any order. Values that
are equal have the same canonical form.

## Main definitions

* `Json.isIdentical`: whether two values have the same form
* `Json.canonical`: the canonical form of a value
* `Json.same`: whether two values are equal

## Main results

* `Json.isIdentical_iff`: values of the same form are the same value
* `Json.same_iff`: values are equal iff they have the same canonical form
-/

namespace InscriptionLedger.Json

/-! ## Values of the same form -/

mutual

/-- Whether two values have the same form. -/
def isIdentical : Json → Json → Bool
  | null, null => true
  | bool a, bool b => a == b
  | integer a, integer b => a == b
  | double a, double b => a == b
  | text a, text b => a == b
  | list a, list b => areIdentical a b
  | object a, object b => areIdenticalMembers a b
  | _, _ => false

/-- Whether the items of two lists have the same forms. -/
def areIdentical : List Json → List Json → Bool
  | [], [] => true
  | a :: as, b :: bs => a.isIdentical b && areIdentical as bs
  | _, _ => false

/-- Whether the members of two objects have the same names and forms. -/
def areIdenticalMembers : List (String × Json) → List (String × Json) → Bool
  | [], [] => true
  | (m, a) :: as, (n, b) :: bs => m == n && a.isIdentical b && areIdenticalMembers as bs
  | _, _ => false

end

mutual

theorem isIdentical_self : ∀ a : Json, a.isIdentical a = true
  | null => rfl
  | bool a => by simp [isIdentical]
  | integer a => by simp [isIdentical]
  | double a => by simp [isIdentical]
  | text a => by simp [isIdentical]
  | list a => by simp [isIdentical, areIdentical_self a]
  | object a => by simp [isIdentical, areIdenticalMembers_self a]

theorem areIdentical_self : ∀ as : List Json, areIdentical as as = true
  | [] => rfl
  | a :: as => by simp [areIdentical, isIdentical_self a, areIdentical_self as]

theorem areIdenticalMembers_self : ∀ as : List (String × Json), areIdenticalMembers as as = true
  | [] => rfl
  | (m, a) :: as => by
    simp [areIdenticalMembers, isIdentical_self a, areIdenticalMembers_self as]

end

mutual

theorem eq_of_isIdentical : ∀ {a b : Json}, a.isIdentical b = true → a = b
  | null, b, h => by cases b <;> simp_all [isIdentical]
  | bool a, b, h => by cases b <;> simp_all [isIdentical]
  | integer a, b, h => by cases b <;> simp_all [isIdentical]
  | double a, b, h => by cases b <;> simp_all [isIdentical]
  | text a, b, h => by cases b <;> simp_all [isIdentical]
  | list a, b, h => by
    cases b with
    | list b => exact congrArg list (eq_of_areIdentical (by simpa [isIdentical] using h))
    | _ => simp [isIdentical] at h
  | object a, b, h => by
    cases b with
    | object b => exact congrArg object (eq_of_areIdenticalMembers (by simpa [isIdentical] using h))
    | _ => simp [isIdentical] at h

theorem eq_of_areIdentical : ∀ {as bs : List Json}, areIdentical as bs = true → as = bs
  | [], bs, h => by cases bs <;> simp_all [areIdentical]
  | a :: as, bs, h => by
    cases bs with
    | nil => simp [areIdentical] at h
    | cons b bs =>
      simp only [areIdentical, Bool.and_eq_true] at h
      rw [eq_of_isIdentical h.1, eq_of_areIdentical h.2]

theorem eq_of_areIdenticalMembers :
    ∀ {as bs : List (String × Json)}, areIdenticalMembers as bs = true → as = bs
  | [], bs, h => by cases bs <;> simp_all [areIdenticalMembers]
  | (m, a) :: as, bs, h => by
    cases bs with
    | nil => simp [areIdenticalMembers] at h
    | cons b bs =>
      obtain ⟨n, b⟩ := b
      simp only [areIdenticalMembers, Bool.and_eq_true, beq_iff_eq] at h
      rw [h.1.1, eq_of_isIdentical h.1.2, eq_of_areIdenticalMembers h.2]

end

/-- Values of the same form are the same value. -/
theorem isIdentical_iff {a b : Json} : a.isIdentical b = true ↔ a = b :=
  ⟨eq_of_isIdentical, fun h => h ▸ isIdentical_self a⟩

instance : DecidableEq Json := fun _ _ => decidable_of_iff _ isIdentical_iff

/-! ## Equal values -/

mutual

/-- The canonical form of a value: integers for booleans and for whole numbers, and the members of
objects in the order of their names. -/
def canonical : Json → Json
  | bool value => integer (if value then 1 else 0)
  | double value =>
    match value.integer? with
    | some n => integer n
    | none => double value
  | list items => list (canonicalItems items)
  | object members => object ((canonicalMembers members).mergeSort fun x y => x.1 ≤ y.1)
  | value => value

/-- The canonical forms of the items of a list. -/
def canonicalItems : List Json → List Json
  | [] => []
  | item :: rest => item.canonical :: canonicalItems rest

/-- The members of an object with canonical forms. -/
def canonicalMembers : List (String × Json) → List (String × Json)
  | [] => []
  | (name, value) :: rest => (name, value.canonical) :: canonicalMembers rest

end

/-- Whether two values are equal. -/
def same (a b : Json) : Bool := a.canonical = b.canonical

/-- Values are equal iff they have the same canonical form. -/
theorem same_iff {a b : Json} : a.same b = true ↔ a.canonical = b.canonical := by simp [same]

/-- Texts are equal only to themselves. -/
@[simp] theorem same_text {a b : String} : (text a).same (text b) = (a == b) := by
  simp [same, canonical, Bool.beq_eq_decide_eq]

end InscriptionLedger.Json
