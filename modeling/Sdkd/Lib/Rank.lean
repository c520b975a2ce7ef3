import Mathlib.Data.List.Nodup
import Mathlib.Data.List.Perm.Basic
import Mathlib.Data.Rat.Floor
import Mathlib.Tactic.NormNum

/-!
# Order statistics

The `k`-th smallest entry of a list, as a condition on how many entries are below it and how many are not
above it. Sorting puts the entry of rank `i + 1` at the index `i`.
-/

namespace Rank

variable {α : Type*} [LinearOrder α] {xs ys : List α} {j k : ℕ} {v w : α}

/-- `v` is the `k`-th smallest entry of `xs`, where equal entries count apart. -/
structure IsKth (xs : List α) (k : ℕ) (v : α) : Prop where
  below : xs.countP (· < v) < k
  reach : k ≤ xs.countP (· ≤ v)

/-- The entries up to `v` are below every larger `w`. -/
theorem countP_le_of_lt (xs : List α) (h : v < w) : xs.countP (· ≤ v) ≤ xs.countP (· < w) :=
  List.countP_mono_left fun x _ hx => by
    have hle : x ≤ v := of_decide_eq_true hx
    exact decide_eq_true (hle.trans_lt h)

/-- The entries up to `v` are those below `v` and those equal to it. -/
theorem countP_le_eq (xs : List α) (v : α) :
    xs.countP (· ≤ v) = xs.countP (· < v) + xs.count v := by
  induction xs with
  | nil => rfl
  | cons x xs ih =>
    rw [List.countP_cons, List.countP_cons, List.count_cons, ih]
    rcases lt_trichotomy x v with hlt | rfl | hgt
    · simp [hlt, hlt.le, hlt.ne]
      omega
    · simp
      omega
    · simp [hgt.le, hgt.not_ge, hgt.ne']

theorem IsKth.pos (h : IsKth xs k v) : 0 < k := Nat.zero_lt_of_lt h.below

theorem IsKth.le_length (h : IsKth xs k v) : k ≤ xs.length := h.reach.trans List.countP_le_length

/-- A larger rank has no smaller entry. -/
theorem IsKth.mono (hj : IsKth xs j v) (hk : IsKth xs k w) (hjk : j ≤ k) : v ≤ w := by
  by_contra hlt
  have hcount := countP_le_of_lt xs (not_le.mp hlt)
  have hreach := hk.reach
  have hbelow := hj.below
  omega

theorem IsKth.unique (hv : IsKth xs k v) (hw : IsKth xs k w) : v = w :=
  le_antisymm (hv.mono hw le_rfl) (hw.mono hv le_rfl)

theorem IsKth.mem (h : IsKth xs k v) : v ∈ xs := by
  have hcount := countP_le_eq xs v
  have hbelow := h.below
  have hreach := h.reach
  exact List.count_pos_iff.mp (by omega)

theorem IsKth.perm (h : IsKth xs k v) (hperm : xs.Perm ys) : IsKth ys k v where
  below := by rw [← hperm.countP_eq]; exact h.below
  reach := by rw [← hperm.countP_eq]; exact h.reach

/-- In a list without repetitions an entry has one rank. -/
theorem IsKth.rank_unique (hj : IsKth xs j v) (hk : IsKth xs k v) (hnodup : xs.Nodup) : j = k := by
  have hcount := countP_le_eq xs v
  have hone := List.nodup_iff_count_le_one.mp hnodup v
  have := hj.below
  have := hj.reach
  have := hk.below
  have := hk.reach
  omega

/-- Where all entries are equal, they have every rank. -/
theorem isKth_of_forall_eq (h : ∀ x ∈ xs, x = v) (hpos : 0 < k) (hk : k ≤ xs.length) :
    IsKth xs k v where
  below := by
    rw [List.countP_eq_zero.mpr fun x hx => by simp [h x hx]]
    exact hpos
  reach := by
    rw [List.countP_eq_length.mpr fun x hx => by simp [h x hx]]
    exact hk

/-! ## Sorting -/

/-- In a sorted list the index is one less than the rank. -/
theorem isKth_of_sorted {i : ℕ} (hsorted : xs.Pairwise (· ≤ ·)) (h : xs[i]? = some v) :
    IsKth xs (i + 1) v := by
  obtain ⟨hlt, rfl⟩ := List.getElem?_eq_some_iff.mp h
  have hsplit : xs = xs.take i ++ xs[i] :: xs.drop (i + 1) := by
    rw [← List.drop_eq_getElem_cons hlt, List.take_append_drop]
  have hlen : (xs.take i).length = i := List.length_take_of_le hlt.le
  rw [hsplit, List.pairwise_append, List.pairwise_cons] at hsorted
  obtain ⟨-, ⟨hafter, -⟩, hbefore⟩ := hsorted
  generalize xs[i] = v at hsplit hafter hbefore
  constructor
  · -- from the entry on there is none below it
    have hzero : (xs.drop (i + 1)).countP (· < v) = 0 :=
      List.countP_eq_zero.mpr fun x hx => by simpa using hafter x hx
    have hle : (xs.take i).countP (· < v) ≤ i := List.countP_le_length.trans_eq hlen
    rw [hsplit, List.countP_append, List.countP_cons, hzero]
    simpa using Nat.lt_succ_of_le hle
  · -- up to the entry there is none above it
    have hall : (xs.take i).countP (· ≤ v) = i := by
      rw [List.countP_eq_length.mpr fun x hx => by simpa using hbefore x hx v (by simp), hlen]
    rw [hsplit, List.countP_append, List.countP_cons, hall]
    simp

/-- The entry at the index `i` of the sorted list is the entry of rank `i + 1`. -/
theorem getElem?_mergeSort_eq_some_iff {i : ℕ} :
    (xs.mergeSort (· ≤ ·))[i]? = some v ↔ IsKth xs (i + 1) v := by
  have htrans : ∀ a b c : α, decide (a ≤ b) → decide (b ≤ c) → decide (a ≤ c) := by
    intro a b c hab hbc
    exact decide_eq_true ((of_decide_eq_true hab).trans (of_decide_eq_true hbc))
  have htotal : ∀ a b : α, decide (a ≤ b) || decide (b ≤ a) := by
    intro a b
    simp [le_total]
  have hsorted : (xs.mergeSort (· ≤ ·)).Pairwise (· ≤ ·) := by
    simpa using List.pairwise_mergeSort htrans htotal xs
  have hperm : (xs.mergeSort (· ≤ ·)).Perm xs := List.mergeSort_perm _ _
  constructor
  · exact fun h => (isKth_of_sorted hsorted h).perm hperm
  · intro h
    have hlt : i < (xs.mergeSort (· ≤ ·)).length := by
      rw [List.length_mergeSort]
      exact h.le_length
    have hget := List.getElem?_eq_getElem hlt
    rw [hget, ((isKth_of_sorted hsorted hget).perm hperm).unique h]

/-- Every rank up to the length has its entry. -/
theorem exists_isKth (xs : List α) (hpos : 0 < k) (hk : k ≤ xs.length) : ∃ v, IsKth xs k v := by
  have hlt : k - 1 < (xs.mergeSort (· ≤ ·)).length := by
    rw [List.length_mergeSort]
    omega
  refine ⟨(xs.mergeSort (· ≤ ·))[k - 1], ?_⟩
  have h := getElem?_mergeSort_eq_some_iff.mp (List.getElem?_eq_getElem hlt)
  rwa [Nat.sub_add_cancel hpos] at h

/-! ## Percentiles -/

/-- The rank of the `p`-th percentile of `n` entries. -/
def nearestRank (p n : ℕ) : ℕ := ⌈(p * n / 100 : ℚ)⌉₊

theorem lt_nearestRank_iff {p n m : ℕ} : m < nearestRank p n ↔ 100 * m < p * n := by
  rw [nearestRank, Nat.lt_ceil, lt_div_iff₀ (by norm_num), mul_comm]
  norm_cast

theorem nearestRank_le_iff {p n m : ℕ} : nearestRank p n ≤ m ↔ p * n ≤ 100 * m := by
  rw [← not_lt, lt_nearestRank_iff, not_lt]

/-- The entry of the nearest rank has at least `p` percent of the entries up to it, and fewer below it. -/
theorem isKth_nearestRank_iff {p : ℕ} : IsKth xs (nearestRank p xs.length) v ↔
    100 * xs.countP (· < v) < p * xs.length ∧ p * xs.length ≤ 100 * xs.countP (· ≤ v) :=
  ⟨fun h => ⟨lt_nearestRank_iff.mp h.below, nearestRank_le_iff.mp h.reach⟩,
    fun h => ⟨lt_nearestRank_iff.mpr h.1, nearestRank_le_iff.mpr h.2⟩⟩

end Rank
