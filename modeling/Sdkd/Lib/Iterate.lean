import Mathlib.Data.List.Range

/-!
# Loops over iterators

The loop `while (!done()) { use(); advance(); }` over an iterator whose steps can fail, cut off after a
number of rounds.

## Main definitions

- `collect` — what the loop uses, one item a round
- `Steps` — what one round does to an iterator that stands at a number

## Main results

- `collect_ended` — a loop whose end has a number uses the items below it
- `collect_endless` — a loop that does not come to its end uses one item in every round
-/

namespace Iterate

section Collect

variable {ι β ε : Type*} (done : ι → Bool) (advance : ι → Except ε ι) (use : ι → β)

/-- What the first `fuel` rounds of the loop use, and whether it has then come to its end. -/
def collect : ℕ → ι → Except ε (List β × Bool)
  | 0, i => .ok ([], done i)
  | fuel + 1, i =>
    if done i then .ok ([], true)
    else
      match advance i with
      | .error e => .error e
      | .ok j => (collect fuel j).map fun out => (use i :: out.1, out.2)

/-- An iterator that stands at the number `k` is not at its end, shows the item with that number, and moves on
to the next. -/
structure Steps (P : ℕ → ι → Prop) (item : ℕ → β) (k : ℕ) : Prop where
  more : ∀ i, P k i → done i = false
  use : ∀ i, P k i → use i = item k
  advance : ∀ i, P k i → ∃ j, advance i = .ok j ∧ P (k + 1) j

variable {done advance use} {P : ℕ → ι → Prop} {item : ℕ → β} {i : ι}

/-- The first `r` rounds of a loop. -/
theorem collect_add {k r : ℕ} (hsteps : ∀ l, k ≤ l → l < k + r → Steps done advance use P item l)
    (hi : P k i) (fuel : ℕ) :
    ∃ j, P (k + r) j ∧ collect done advance use (r + fuel) i =
      (collect done advance use fuel j).map fun out =>
        ((List.range' k r).map item ++ out.1, out.2) := by
  induction r generalizing k i with
  | zero =>
    refine ⟨i, hi, ?_⟩
    rw [Nat.zero_add]
    cases collect done advance use fuel i <;> rfl
  | succ r ih =>
    have hk := hsteps k le_rfl (by omega)
    obtain ⟨i', hadvance, hi'⟩ := hk.advance i hi
    obtain ⟨j, hj, hrest⟩ := ih (fun l hl hlt => hsteps l (by omega) (by omega)) hi'
    refine ⟨j, by rwa [Nat.add_comm r, ← Nat.add_assoc], ?_⟩
    rw [Nat.add_right_comm, collect, hk.more i hi, if_neg Bool.false_ne_true, hadvance]
    dsimp only
    rw [hrest, hk.use i hi]
    cases collect done advance use fuel j <;> rfl

/-- **A loop with an end.** It uses the items below the number of its end, however long it may run. -/
theorem collect_ended {n : ℕ} (hsteps : ∀ k < n, Steps done advance use P item k)
    (hend : ∀ i, P n i → done i = true) (hi : P 0 i) {fuel : ℕ} (hfuel : n ≤ fuel) :
    collect done advance use fuel i = .ok ((List.range n).map item, true) := by
  obtain ⟨rest, rfl⟩ := Nat.exists_eq_add_of_le hfuel
  have hrounds : ∀ l, 0 ≤ l → l < 0 + n → Steps done advance use P item l :=
    fun l _ hl => hsteps l (by omega)
  obtain ⟨j, hj, heq⟩ := collect_add hrounds hi rest
  rw [Nat.zero_add] at hj
  have hstop : collect done advance use rest j = .ok ([], true) := by
    cases rest with
    | zero => rw [collect, hend j hj]
    | succ rest => rw [collect, hend j hj, if_pos rfl]
  rw [heq, hstop, List.range_eq_range']
  simp [Except.map]

/-- **A loop without an end.** It uses one item in every round. -/
theorem collect_endless (hsteps : ∀ k, Steps done advance use P item k) (hi : P 0 i) (fuel : ℕ) :
    collect done advance use fuel i = .ok ((List.range fuel).map item, false) := by
  obtain ⟨j, hj, heq⟩ := collect_add (r := fuel) (fun l _ _ => hsteps l) hi 0
  rw [Nat.add_zero] at heq
  rw [heq, collect, (hsteps _).more j hj, List.range_eq_range']
  simp [Except.map]

end Collect

end Iterate
