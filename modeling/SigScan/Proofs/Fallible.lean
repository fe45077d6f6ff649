/-
# Steps that may fail

When a sequence of steps succeeds, and when it fails. A list of steps is done from the left, and
succeeds when each step does; the results stand in the order of the steps.

* `bind_eq_ok_iff`, `check_bind_eq_ok_iff`, `bind_eq_error_iff`: one step after another;
* `mapM_eq_ok_iff`: a list of steps, step by step;
* `exists_of_mem_mapM`: where a result of a list of steps comes from;
* `eq_map_of_mapM`: a list of steps whose results are known;
* `exists_mapM_eq_ok`: a list of steps that never fail.
-/
import Mathlib

namespace SigScan

variable {ε ε' α β : Type}

/-! ## One step -/

/-- A step succeeds when it does not fail. -/
theorem exists_eq_ok_iff {x : Except ε α} : (∃ a, x = .ok a) ↔ ∀ e, x ≠ .error e := by
  cases x with
  | error e => simp
  | ok a => simp

/-- Changing the failures leaves the successes. -/
theorem mapError_eq_ok_iff {x : Except ε α} {g : ε → ε'} {a : α} :
    x.mapError g = .ok a ↔ x = .ok a := by
  cases x with
  | error e => simp [Except.mapError]
  | ok a => simp [Except.mapError]

/-- A changed failure comes from a failure. -/
theorem mapError_eq_error_iff {x : Except ε α} {g : ε → ε'} {e : ε'} :
    x.mapError g = .error e ↔ ∃ e', x = .error e' ∧ g e' = e := by
  cases x with
  | error e => simp [Except.mapError]
  | ok a => simp [Except.mapError]

/-- Changing the results leaves the failures. -/
theorem map_eq_error_iff {x : Except ε α} {f : α → β} {e : ε} :
    x.map f = .error e ↔ x = .error e := by
  cases x with
  | error e => simp [Except.map]
  | ok a => simp [Except.map]

/-- A changed result comes from a result. -/
theorem map_eq_ok_iff {x : Except ε α} {f : α → β} {b : β} :
    x.map f = .ok b ↔ ∃ a, x = .ok a ∧ f a = b := by
  cases x with
  | error e => simp [Except.map]
  | ok a => simp [Except.map]

/-- What is known of a result of which something is known. -/
theorem exists_of_toOption_map {x : Except ε α} {f : α → β} {b : β}
    (h : x.toOption.map f = some b) : ∃ a, x = .ok a ∧ f a = b := by
  cases x with
  | error e => cases h
  | ok a => exact ⟨a, rfl, Option.some.inj h⟩

/-! ## Two steps -/

/-- Two steps succeed when the first does, and the second does with its result. -/
theorem bind_eq_ok_iff {x : Except ε α} {f : α → Except ε β} {b : β} :
    x >>= f = .ok b ↔ ∃ a, x = .ok a ∧ f a = .ok b := by
  cases x with
  | error e => simp [bind, Except.bind]
  | ok a => simp [bind, Except.bind]

/-- A step behind a check succeeds when the check is passed and the step succeeds. -/
theorem check_bind_eq_ok_iff {x : Except ε Unit} {f : Unit → Except ε β} {b : β} :
    x >>= f = .ok b ↔ x = .ok () ∧ f () = .ok b := by
  rw [bind_eq_ok_iff]
  exact Unique.exists_iff

/-- Two steps fail when the first does, or the second does with the result of the first. -/
theorem bind_eq_error_iff {x : Except ε α} {f : α → Except ε β} {e : ε} :
    x >>= f = .error e ↔ x = .error e ∨ ∃ a, x = .ok a ∧ f a = .error e := by
  cases x with
  | error e => simp [bind, Except.bind]
  | ok a => simp [bind, Except.bind]

/-! ## A list of steps -/

/-- The steps of a list succeed when each of them does, with the results in their order. -/
theorem mapM_eq_ok_iff {f : α → Except ε β} {steps : List α} {results : List β} :
    steps.mapM f = .ok results ↔ List.Forall₂ (fun a b => f a = .ok b) steps results := by
  induction steps generalizing results with
  | nil =>
    rw [List.mapM_nil, List.forall₂_nil_left_iff]
    constructor
    · intro h
      cases h
      rfl
    · rintro rfl
      rfl
  | cons a rest ih =>
    rw [List.mapM_cons, bind_eq_ok_iff, List.forall₂_cons_left_iff]
    constructor
    · rintro ⟨b, hb, h⟩
      obtain ⟨more, hmore, hpure⟩ := bind_eq_ok_iff.1 h
      cases hpure
      exact ⟨b, more, hb, ih.1 hmore, rfl⟩
    · rintro ⟨b, more, hb, hmore, rfl⟩
      exact ⟨b, hb, bind_eq_ok_iff.2 ⟨more, ih.2 hmore, rfl⟩⟩

/-- A result of a list of steps comes from one of them. -/
theorem exists_of_mem_mapM {f : α → Except ε β} {steps : List α} {results : List β}
    (h : steps.mapM f = .ok results) {b : β} (hb : b ∈ results) : ∃ a ∈ steps, f a = .ok b := by
  have hall := mapM_eq_ok_iff.1 h
  clear h
  induction hall with
  | nil => cases hb
  | cons hfirst _ ih =>
    rcases List.mem_cons.1 hb with rfl | hrest
    · exact ⟨_, List.mem_cons_self, hfirst⟩
    · obtain ⟨a, ha, hfa⟩ := ih hrest
      exact ⟨a, List.mem_cons_of_mem _ ha, hfa⟩

/-- Where it is known what each step gives, the results are known. -/
theorem eq_map_of_mapM {f : α → Except ε β} {g : α → β} {steps : List α} {results : List β}
    (h : steps.mapM f = .ok results) (hstep : ∀ a b, f a = .ok b → b = g a) :
    results = steps.map g := by
  have hall := mapM_eq_ok_iff.1 h
  clear h
  induction hall with
  | nil => rfl
  | cons hfirst _ ih => rw [List.map_cons, ← hstep _ _ hfirst, ← ih]

/-- Steps that do not fail succeed together. -/
theorem exists_mapM_eq_ok {f : α → Except ε β} {steps : List α}
    (h : ∀ a ∈ steps, ∃ b, f a = .ok b) : ∃ results, steps.mapM f = .ok results := by
  induction steps with
  | nil => exact ⟨[], rfl⟩
  | cons a rest ih =>
    obtain ⟨b, hb⟩ := h a List.mem_cons_self
    obtain ⟨more, hmore⟩ := ih fun a ha => h a (List.mem_cons_of_mem _ ha)
    refine ⟨b :: more, ?_⟩
    rw [mapM_eq_ok_iff] at hmore ⊢
    exact .cons hb hmore

end SigScan
