import InscriptionLedger.Failure
import Mathlib

/-!
# Outcomes of several steps

An outcome of steps one after another is a result exactly when each step has one. Going through a
list is the same for all of its items.

## Main results

* `exists_forall₂`: a list whose items all have a partner
* `Outcome.bind_eq_ok_iff`, `Outcome.bind_eq_error_iff`, `Outcome.map_eq_ok_iff`: steps one after
  another
* `Outcome.mapM_eq_ok_iff`: a list gone through
* `Outcome.mapM_eq_ok_map`: a list whose items all have a result that is known
* `Outcome.mapM_eq_ite`, `Outcome.mapM_eq_ite_of_forall₂`: a list whose items may all fail, but in
  one way
* `Outcome.foldlM_filter`: a list that is folded, without items that change nothing
-/

namespace InscriptionLedger

/-- Where each item of a list has a partner, the list has a list of partners. -/
theorem exists_forall₂ {α β : Type} {R : α → β → Prop} {xs : List α} (h : ∀ x ∈ xs, ∃ y, R x y) :
    ∃ ys, List.Forall₂ R xs ys := by
  induction xs with
  | nil => exact ⟨[], .nil⟩
  | cons x rest ih =>
    obtain ⟨⟨y, hy⟩, hrest⟩ := List.forall_mem_cons.1 h
    obtain ⟨ys, hys⟩ := ih hrest
    exact ⟨y :: ys, .cons hy hys⟩

namespace Outcome

variable {ε α β γ : Type}

@[simp] theorem ok_bind (a : α) (f : α → Except ε β) : (Except.ok a >>= f) = f a := rfl

@[simp] theorem error_bind (e : ε) (f : α → Except ε β) :
    ((Except.error e : Except ε α) >>= f) = .error e := rfl

@[simp] theorem pure_eq_ok (a : α) : (pure a : Except ε α) = .ok a := rfl

theorem bind_eq_ok_iff {x : Except ε α} {f : α → Except ε β} {b : β} :
    x >>= f = .ok b ↔ ∃ a, x = .ok a ∧ f a = .ok b := by
  cases x with
  | ok a => simp
  | error e => simp

theorem bind_eq_error_iff {x : Except ε α} {f : α → Except ε β} {e : ε} :
    x >>= f = .error e ↔ x = .error e ∨ ∃ a, x = .ok a ∧ f a = .error e := by
  cases x with
  | ok a => simp
  | error e' => simp

theorem map_eq_error_iff {x : Except ε α} {f : α → β} {e : ε} :
    x.map f = .error e ↔ x = .error e := by
  cases x <;> simp [Except.map]

theorem map_eq_ok_iff {x : Except ε α} {f : α → β} {b : β} :
    x.map f = .ok b ↔ ∃ a, x = .ok a ∧ f a = b := by
  cases x <;> simp [Except.map]

theorem toOption_eq_some_iff {x : Except ε α} {a : α} : x.toOption = some a ↔ x = .ok a := by
  cases x <;> simp [Except.toOption]

theorem map_bind (x : Except ε α) (f : α → Except ε β) (g : β → γ) :
    (x >>= f).map g = x >>= fun a => (f a).map g := by
  cases x with
  | ok a => rfl
  | error e => rfl

/-- Going through a list has a result exactly when each item has its own. -/
theorem mapM_eq_ok_iff {f : α → Except ε β} {xs : List α} {ys : List β} :
    xs.mapM f = .ok ys ↔ List.Forall₂ (fun x y => f x = .ok y) xs ys := by
  induction xs generalizing ys with
  | nil => simp [eq_comm]
  | cons x rest ih =>
    simp only [List.mapM_cons, bind_eq_ok_iff, pure_eq_ok, Except.ok.injEq,
      List.forall₂_cons_left_iff, ih]
    constructor
    · rintro ⟨y, hy, rest', hrest, rfl⟩
      exact ⟨y, rest', hy, hrest, rfl⟩
    · rintro ⟨y, rest', hy, hrest, rfl⟩
      exact ⟨y, hy, rest', hrest, rfl⟩

theorem exists_of_mem_mapM {f : α → Except ε β} {xs : List α} {ys : List β}
    (h : xs.mapM f = .ok ys) {y : β} (hy : y ∈ ys) : ∃ x ∈ xs, f x = .ok y := by
  obtain ⟨i, hi, rfl⟩ := List.getElem_of_mem hy
  obtain ⟨hlength, hall⟩ := List.forall₂_iff_get.1 (mapM_eq_ok_iff.1 h)
  have hi' : i < xs.length := hlength ▸ hi
  exact ⟨xs[i], List.getElem_mem hi', hall i hi' hi⟩

theorem mapM_eq_ok_map {f : α → Except ε β} {g : α → β} {xs : List α}
    (h : ∀ x ∈ xs, f x = .ok (g x)) : xs.mapM f = .ok (xs.map g) := by
  refine mapM_eq_ok_iff.2 (List.forall₂_map_right_iff.2 (List.forall₂_same.2 h))

/-- Going through a list whose items either have a known result or all fail in the same way. -/
theorem mapM_eq_ite {f : α → Except ε β} {g : α → β} {p : α → Prop} [DecidablePred p] {e : ε}
    {xs : List α} (h : ∀ x ∈ xs, f x = if p x then .ok (g x) else .error e) :
    xs.mapM f = if ∀ x ∈ xs, p x then .ok (xs.map g) else .error e := by
  induction xs with
  | nil => simp
  | cons x rest ih =>
    obtain ⟨hx, hrest⟩ := List.forall_mem_cons.1 h
    rw [List.mapM_cons, hx]
    by_cases hp : p x
    · rw [if_pos hp, ok_bind, ih hrest]
      by_cases hall : ∀ y ∈ rest, p y
      · rw [if_pos hall, if_pos (List.forall_mem_cons.2 ⟨hp, hall⟩)]
        rfl
      · rw [if_neg hall, if_neg (fun hxs => hall (List.forall_mem_cons.1 hxs).2)]
        rfl
    · rw [if_neg hp, if_neg (fun hxs => hp (List.forall_mem_cons.1 hxs).1)]
      rfl

/-- Going through a list whose items either have known partners or all fail in the same way. -/
theorem mapM_eq_ite_of_forall₂ {R : α → β → Prop} {f : α → Except ε β} {p : β → Prop}
    [DecidablePred p] {e : ε} (h : ∀ x y, R x y → f x = if p y then .ok y else .error e)
    {xs : List α} {ys : List β} (hall : List.Forall₂ R xs ys) :
    xs.mapM f = if ∀ y ∈ ys, p y then .ok ys else .error e := by
  obtain ⟨hlength, hzip⟩ := List.forall₂_iff_zip.1 hall
  have hpairs : (xs.zip ys).mapM (f ∘ Prod.fst) =
      if ∀ pair ∈ xs.zip ys, p pair.2 then .ok ((xs.zip ys).map Prod.snd) else .error e :=
    mapM_eq_ite fun pair hpair => h pair.1 pair.2 (hzip hpair)
  have hall : (∀ pair ∈ xs.zip ys, p pair.2) ↔ ∀ y ∈ ys, p y := by
    rw [← List.forall_mem_map (f := Prod.snd), List.map_snd_zip hlength.ge]
  rw [← List.mapM_map, List.map_fst_zip hlength.le, List.map_snd_zip hlength.ge] at hpairs
  exact hpairs.trans (if_congr hall rfl rfl)

/-! ### Lists that are folded -/

section

variable {f : β → α → Except ε β} {xs : List α}

theorem exists_of_foldlM_eq_ok {b c : β} (h : xs.foldlM f b = .ok c) :
    ∀ x ∈ xs, ∃ b' c', f b' x = .ok c' := by
  induction xs generalizing b with
  | nil => nofun
  | cons x rest ih =>
    rw [List.foldlM_cons, bind_eq_ok_iff] at h
    obtain ⟨next, hnext, hrest⟩ := h
    exact List.forall_mem_cons.2 ⟨⟨b, next, hnext⟩, ih hrest⟩

theorem exists_of_foldlM_eq_error {b : β} {e : ε} (h : xs.foldlM f b = .error e) :
    ∃ x ∈ xs, ∃ b', f b' x = .error e := by
  induction xs generalizing b with
  | nil => cases h
  | cons x rest ih =>
    rw [List.foldlM_cons] at h
    cases hx : f b x with
    | ok next =>
      rw [hx] at h
      obtain ⟨y, hy, hfails⟩ := ih h
      exact ⟨y, List.mem_cons_of_mem x hy, hfails⟩
    | error e' =>
      rw [hx] at h
      exact ⟨x, List.mem_cons_self .., b, hx.trans h⟩

/-- Items that change nothing can be left out. -/
theorem foldlM_filter {p : α → Bool} (h : ∀ x ∈ xs, p x = false → ∀ b, f b x = .ok b) (b : β) :
    (xs.filter p).foldlM f b = xs.foldlM f b := by
  induction xs generalizing b with
  | nil => rfl
  | cons x rest ih =>
    obtain ⟨hx, hrest⟩ := List.forall_mem_cons.1 h
    rw [List.foldlM_cons]
    by_cases hp : p x = true
    · rw [List.filter_cons_of_pos hp, List.foldlM_cons]
      exact congrArg _ (funext fun next => ih hrest next)
    · rw [List.filter_cons_of_neg hp, hx (Bool.eq_false_of_not_eq_true hp), ok_bind, ih hrest]

end

end Outcome

end InscriptionLedger
