import Mathlib.Data.List.Forall2

/-!
# Computations that can fail

A sequence of computations succeeds with what each of them gives, and fails with the error of one of them.

## Main results

- `exists_of_bind_ok`, `cases_of_bind_error` — what a sequence of two has come through
- `forall₂_of_mapM`, `mapM_ok`, `exists_of_mapM_error` — the same for the elements of a list
-/

namespace Fallible

universe v

variable {ε : Type*} {e : ε}

section Bind

variable {α β : Type v} {x : Except ε α} {f : α → Except ε β}

theorem exists_of_bind_ok {b : β} (h : x >>= f = .ok b) : ∃ a, x = .ok a ∧ f a = .ok b := by
  cases x with
  | error e => cases h
  | ok a => exact ⟨a, rfl, h⟩

theorem cases_of_bind_error (h : x >>= f = .error e) :
    x = .error e ∨ ∃ a, x = .ok a ∧ f a = .error e := by
  cases x with
  | error e' =>
    obtain rfl : e' = e := Except.error.inj h
    exact .inl rfl
  | ok a => exact .inr ⟨a, rfl, h⟩

end Bind

variable {α : Type*} {β : Type v} {f : α → Except ε β} {l : List α}

/-- A traversal that succeeds has succeeded at every element. -/
theorem forall₂_of_mapM {bs : List β} (h : l.mapM f = .ok bs) :
    List.Forall₂ (fun a b => f a = .ok b) l bs := by
  induction l generalizing bs with
  | nil =>
    obtain rfl : [] = bs := Except.ok.inj h
    exact .nil
  | cons a l ih =>
    rw [List.mapM_cons] at h
    obtain ⟨b, ha, h⟩ := exists_of_bind_ok h
    obtain ⟨bs', hl, h⟩ := exists_of_bind_ok h
    obtain rfl : b :: bs' = bs := Except.ok.inj h
    exact .cons ha (ih hl)

/-- What a failing traversal has failed at. -/
theorem exists_of_mapM_error (h : l.mapM f = .error e) : ∃ a ∈ l, f a = .error e := by
  induction l with
  | nil => cases h
  | cons a l ih =>
    rw [List.mapM_cons] at h
    rcases cases_of_bind_error h with ha | ⟨b, -, h⟩
    · exact ⟨a, List.mem_cons_self, ha⟩
    · rcases cases_of_bind_error h with hl | ⟨bs, -, h⟩
      · obtain ⟨a', hmem, hfail⟩ := ih hl
        exact ⟨a', List.mem_cons_of_mem _ hmem, hfail⟩
      · cases h

/-- A traversal succeeds if it succeeds at every element. -/
theorem mapM_ok (h : ∀ a ∈ l, ∃ b, f a = .ok b) : ∃ bs, l.mapM f = .ok bs := by
  cases hl : l.mapM f with
  | ok bs => exact ⟨bs, rfl⟩
  | error e =>
    obtain ⟨a, ha, hfail⟩ := exists_of_mapM_error hl
    obtain ⟨b, hok⟩ := h a ha
    cases hok.symm.trans hfail

theorem mapM_eq_ok {g : α → β} (h : ∀ a ∈ l, f a = .ok (g a)) : l.mapM f = .ok (l.map g) := by
  induction l with
  | nil => rfl
  | cons a l ih =>
    obtain ⟨ha, hl⟩ := List.forall_mem_cons.mp h
    rw [List.mapM_cons, ha, ih hl]
    rfl

end Fallible
