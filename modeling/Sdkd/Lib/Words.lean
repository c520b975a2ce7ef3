import Mathlib.Algebra.Order.BigOperators.Group.List
import Mathlib.Algebra.Order.Group.Nat
import Mathlib.Data.List.DropRight

/-!
# Words

Powers of words, the longest run of letters of one class at the end of a word, substitutions of words for
letters, and the words numbers are written as.

## Main results

- `rtakeWhile_append_of_all`, `rtakeWhile_append_of_exists` — the run at the end of a concatenation
- `eq_of_powers_eq` — words that end in different runs have no powers in common
- `flatMap_eq_self_iff` — a substitution that fixes a word fixes its letters
- `toString_digits`, `toString_inj`, `toString_int_injective` — decimal numerals consist of digits, and no two
  numbers share one
-/

namespace Words

section

variable {α : Type*} {p : α → Bool} {u v w : List α}

/-- Letters of the class make the run longer. -/
theorem rtakeWhile_append_of_all (h : ∀ a ∈ v, p a = true) :
    (u ++ v).rtakeWhile p = u.rtakeWhile p ++ v := by
  have hrev : ∀ a ∈ v.reverse, p a = true := fun a ha => h a (List.mem_reverse.mp ha)
  rw [List.rtakeWhile, List.reverse_append, List.takeWhile_append_of_pos hrev, List.reverse_append,
    List.reverse_reverse]
  rfl

/-- A word with a letter outside the class cuts the run off. -/
theorem rtakeWhile_append_of_exists (h : ∃ a ∈ v, p a = false) :
    (u ++ v).rtakeWhile p = v.rtakeWhile p := by
  obtain ⟨a, ha, hpa⟩ := h
  have hshort : ¬ (v.reverse.takeWhile p).length = v.reverse.length := by
    intro hlen
    have hall := List.takeWhile_eq_self_iff.mp ((List.takeWhile_prefix p).eq_of_length hlen)
    rw [hall a (List.mem_reverse.mpr ha)] at hpa
    cases hpa
  rw [List.rtakeWhile, List.reverse_append, List.takeWhile_append, if_neg hshort]
  rfl

/-- The run at the end of a power of a word that ends in `v`. -/
theorem rtakeWhile_power (n : ℕ) (hu : ∃ a ∈ u, p a = false) (hv : ∀ a ∈ v, p a = true) :
    (List.replicate (n + 1) (u ++ v)).flatten.rtakeWhile p = u.rtakeWhile p ++ v := by
  rw [List.replicate_succ', List.flatten_append, List.flatten_singleton, ← List.append_assoc,
    rtakeWhile_append_of_all hv, rtakeWhile_append_of_exists hu]

/-- **Powers of words.** Words that differ in the run they end in have no powers in common. -/
theorem eq_of_powers_eq {m n : ℕ} (hu : ∃ a ∈ u, p a = false) (hv : ∀ a ∈ v, p a = true)
    (hw : ∀ a ∈ w, p a = true)
    (h : (List.replicate (m + 1) (u ++ v)).flatten = (List.replicate (n + 1) (u ++ w)).flatten) :
    v = w := by
  have hrun := congrArg (List.rtakeWhile p) h
  rw [rtakeWhile_power m hu hv, rtakeWhile_power n hu hw] at hrun
  exact List.append_cancel_left hrun

/-- **Fixed words.** A substitution that erases none of its letters leaves a word as it is if and only if it
leaves its letters. -/
theorem flatMap_eq_self_iff {f : α → List α} (hne : ∀ a ∈ w, f a ≠ []) :
    w.flatMap f = w ↔ ∀ a ∈ w, f a = [a] := by
  constructor
  · intro heq
    induction w with
    | nil => exact fun a ha => absurd ha List.not_mem_nil
    | cons a w ih =>
      obtain ⟨ha, hw⟩ := List.forall_mem_cons.mp hne
      rw [List.flatMap_cons] at heq
      -- the rest does not get shorter, so the first letter does not get longer
      have hrest : w.length ≤ (w.flatMap f).length := by
        rw [List.length_flatMap]
        have hone : ∀ n ∈ w.map fun b => (f b).length, 1 ≤ n := by
          intro n hn
          obtain ⟨b, hb, rfl⟩ := List.mem_map.mp hn
          exact List.length_pos_iff.mpr (hw b hb)
        simpa using List.card_nsmul_le_sum _ 1 hone
      have hlen := congrArg List.length heq
      rw [List.length_append, List.length_cons] at hlen
      obtain ⟨b, hb⟩ : ∃ b, f a = [b] :=
        List.length_eq_one_iff.mp (by have := List.length_pos_iff.mpr ha; omega)
      rw [hb, List.singleton_append, List.cons.injEq] at heq
      exact List.forall_mem_cons.mpr ⟨by rw [hb, heq.1], ih hw heq.2⟩
  · intro hfix
    rw [List.flatMap_congr hfix, List.flatMap_singleton']

end

/-! ## Decimal numerals -/

theorem toString_digits (idx : ℕ) : ∀ c ∈ (toString idx).toList, c.isDigit = true := by
  intro c hc
  exact Nat.isDigit_of_mem_toDigits (by decide) (by decide) (Nat.toList_repr ▸ hc)

theorem toString_inj {i j : ℕ} (h : (toString i).toList = (toString j).toList) : i = j := by
  have hdigits : Nat.toDigits 10 i = Nat.toDigits 10 j := by
    rw [← Nat.toList_repr, ← Nat.toList_repr]
    exact h
  have hvalue := congrArg (Nat.ofDigitChars 10 · 0) hdigits
  simpa [Nat.ofDigitChars_toDigits] using hvalue

/-- The numeral of a negative number starts with a sign. -/
theorem toString_negSucc (n : ℕ) : (toString (Int.negSucc n)).toList = '-' :: (toString (n + 1)).toList := by
  show ("-" ++ toString (n + 1)).toList = _
  rw [String.toList_append]
  rfl

theorem toString_int_chars (i : ℤ) : ∀ c ∈ (toString i).toList, c = '-' ∨ c.isDigit = true := by
  intro c hc
  cases i with
  | ofNat n => exact .inr (toString_digits n c hc)
  | negSucc n =>
    rw [toString_negSucc] at hc
    exact (List.mem_cons.mp hc).imp_right (toString_digits (n + 1) c)

/-- No two integers share a numeral. -/
theorem toString_int_injective {i j : ℤ} (h : (toString i).toList = (toString j).toList) : i = j := by
  -- a natural number's numeral has no sign
  have hsign : ∀ a b : ℕ, (toString (Int.ofNat a)).toList ≠ (toString (Int.negSucc b)).toList := by
    intro a b heq
    have hmem : '-' ∈ (toString a).toList := by
      rw [show (toString a).toList = (toString (Int.negSucc b)).toList from heq, toString_negSucc]
      exact List.mem_cons_self
    exact absurd (toString_digits a _ hmem) (by decide)
  cases i with
  | ofNat a =>
    cases j with
    | ofNat b => exact congrArg Int.ofNat (toString_inj h)
    | negSucc b => exact absurd h (hsign a b)
  | negSucc a =>
    cases j with
    | ofNat b => exact absurd h.symm (hsign b a)
    | negSucc b =>
      rw [toString_negSucc, toString_negSucc] at h
      exact congrArg Int.negSucc (Nat.succ.inj (toString_inj (List.cons.inj h).2))

end Words
