import Mathlib.Data.List.Basic

/-!
# Sequences that repeat themselves

What a window of one period holds of a periodic sequence, wherever it starts.

## Main results

- `window_perm` — a window of one period has the members of the first one, each as often
- `drop_take_map_range` — the windows of a finite part of a sequence
-/

namespace Cycles

variable {α : Type*} {f : ℕ → α} {n : ℕ}

/-- Moving the window by one takes out what it brings in. -/
theorem window_perm (hf : ∀ k, f (k + n) = f k) (a : ℕ) :
    ((List.range' a n).map f).Perm ((List.range n).map f) := by
  induction a with
  | zero => rw [List.range_eq_range']
  | succ a ih =>
    refine List.Perm.trans ?_ ih
    cases n with
    | zero => rfl
    | succ n =>
      have hlast : f (a + 1 + n) = f a := by rw [← hf a, Nat.add_assoc, Nat.add_comm 1 n]
      have hmoved : List.range' (a + 1) (n + 1) = List.range' (a + 1) n ++ [a + 1 + n] := by
        rw [List.range'_concat, Nat.one_mul]
      rw [hmoved, List.range'_succ, List.map_append, List.map_singleton, hlast, List.map_cons]
      exact List.perm_append_singleton _ _

theorem drop_take_map_range (f : ℕ → α) {a m : ℕ} (h : a + n ≤ m) :
    (((List.range m).map f).drop a).take n = (List.range' a n).map f := by
  obtain ⟨rest, rfl⟩ := Nat.exists_eq_add_of_le h
  have hwindow : List.range (a + n + rest) =
      List.range' 0 a ++ (List.range' a n ++ List.range' (a + n) rest) := by
    rw [List.range_eq_range', Nat.add_assoc, ← List.range'_append_1, ← List.range'_append_1,
      Nat.zero_add]
  rw [hwindow, List.map_append, List.map_append, List.drop_left' (by simp),
    List.take_left' (by simp)]

/-- A sequence read in pairs. -/
theorem map_range_two_mul (f : ℕ → α) (n : ℕ) :
    (List.range (2 * n)).map f = (List.range n).flatMap fun i => [f (2 * i), f (2 * i + 1)] := by
  induction n with
  | zero => rfl
  | succ n ih =>
    rw [Nat.mul_succ, List.range_succ, List.range_succ, List.range_succ, List.map_append,
      List.map_append, ih, List.flatMap_append, List.append_assoc]
    rfl

end Cycles
