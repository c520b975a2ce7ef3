import Mathlib.Data.List.Basic

/-!
# Positions in a list

Where an element stands in a longer list; and where it stands once those that fail a test are gone, and where it
stood before.

## Main definitions

- `keptBefore` — the number of elements in front of a position that pass the test
-/

namespace Positions

variable {α : Type*} {p : α → Bool} {xs : List α} {a : α} {k : ℕ}

theorem getElem?_of_prefix {ys : List α} (h : xs <+: ys) (hk : xs[k]? = some a) : ys[k]? = some a := by
  obtain ⟨zs, rfl⟩ := h
  rw [List.getElem?_append_left (List.getElem?_eq_some_iff.mp hk).1, hk]

/-- The number of elements in front of a position that pass the test. -/
def keptBefore (p : α → Bool) (xs : List α) (k : ℕ) : ℕ := (xs.take k).countP p

/-- The list in front of an element that passes, and behind it. -/
theorem filter_eq_append (h : xs[k]? = some a) (ha : p a = true) :
    xs.filter p = (xs.take k).filter p ++ a :: (xs.drop (k + 1)).filter p := by
  have hsplit : xs = xs.take k ++ a :: xs.drop (k + 1) := by
    obtain ⟨hlt, hget⟩ := List.getElem?_eq_some_iff.mp h
    rw [← hget, List.getElem_cons_drop, List.take_append_drop]
  calc
    xs.filter p = (xs.take k ++ a :: xs.drop (k + 1)).filter p := by rw [← hsplit]
    _ = (xs.take k).filter p ++ a :: (xs.drop (k + 1)).filter p := by
      rw [List.filter_append, List.filter_cons_of_pos ha]

theorem getElem?_filter_keptBefore (h : xs[k]? = some a) (ha : p a = true) :
    (xs.filter p)[keptBefore p xs k]? = some a := by
  have hlen : keptBefore p xs k = ((xs.take k).filter p).length := List.countP_eq_length_filter
  rw [filter_eq_append h ha, hlen, List.getElem?_append_right (Nat.le_refl _), Nat.sub_self]
  rfl

theorem drop_filter_keptBefore (h : xs[k]? = some a) (ha : p a = true) :
    (xs.filter p).drop (keptBefore p xs k + 1) = (xs.drop (k + 1)).filter p := by
  have hlen : keptBefore p xs k = ((xs.take k).filter p).length := List.countP_eq_length_filter
  rw [filter_eq_append h ha, hlen, ← List.drop_drop, List.drop_left]
  rfl

/-- Every element that is kept stood somewhere. -/
theorem exists_position {m : ℕ} (h : (xs.filter p)[m]? = some a) :
    ∃ k, xs[k]? = some a ∧ keptBefore p xs k = m := by
  induction xs generalizing m with
  | nil => simp at h
  | cons x xs ih =>
    cases hx : p x with
    | false =>
      rw [List.filter_cons_of_neg (by simp [hx])] at h
      obtain ⟨k, hget, hk⟩ := ih h
      exact ⟨k + 1, hget, by simpa [keptBefore, hx] using hk⟩
    | true =>
      rw [List.filter_cons_of_pos hx] at h
      cases m with
      | zero => exact ⟨0, h, rfl⟩
      | succ m =>
        obtain ⟨k, hget, hk⟩ := ih h
        exact ⟨k + 1, hget, by simpa [keptBefore, hx] using hk⟩

end Positions
