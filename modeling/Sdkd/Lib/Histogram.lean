import Mathlib.Algebra.BigOperators.Group.List.Lemmas
import Mathlib.Algebra.Group.Hom.Defs
import Mathlib.Data.List.Count
import Mathlib.Data.Nat.Cast.Basic
import Std.Data.TreeMap

/-!
# Histograms in ordered maps

A counting map that is only ever changed by `bump` is the histogram of the keys it was bumped with:
it holds exactly the keys that occurred, each with the reading of its counter after as many steps as
there were occurrences. What a counter reads is a parameter, so that a register that wraps is one.

## Main results

- `Histogram.Counts.bump` — one more occurrence, one more step of its counter
- `Histogram.Counts.toList_eq` — the histogram of a list is determined by its counts
- `Histogram.Counts.sum_eq` — wherever the readings are read as the counts, they add up to the length
-/

namespace Histogram

/-- A counter: the step `++` takes, and what it reads after `n` steps. -/
structure Counter (β : Type*) where
  step : β → β
  reading : ℕ → β
  reading_succ : ∀ n, reading (n + 1) = step (reading n)

/-- A counter that never wraps. -/
def Counter.exact (β : Type*) [AddMonoidWithOne β] : Counter β := ⟨(· + 1), Nat.cast, Nat.cast_succ⟩

@[simp] theorem Counter.exact_reading {β : Type*} [AddMonoidWithOne β] (n : ℕ) :
    (Counter.exact β).reading n = n := rfl

variable {α β γ : Type*} {cmp : α → α → Ordering}

/-- `m[a]++` on a map whose missing entries are counters that have not moved. -/
def bump (c : Counter β) (m : Std.TreeMap α β cmp) (a : α) : Std.TreeMap α β cmp :=
  m.insert a (c.step (m.getD a (c.reading 0)))

variable [DecidableEq α]

/-- `m` counts the entries of `l` and nothing else. -/
def Counts (c : Counter β) (m : Std.TreeMap α β cmp) (l : List α) : Prop :=
  ∀ a, m[a]? = if a ∈ l then some (c.reading (l.count a)) else none

variable {c c' : Counter β} {m m' : Std.TreeMap α β cmp} {l : List α}

/-- Two histograms of one list agree at every key. -/
theorem Counts.getElem?_eq (h : Counts c m l) (h' : Counts c m' l) (a : α) : m[a]? = m'[a]? := by
  rw [h a, h' a]

/-- Counters that read the same on what occurred are exchanged freely. -/
theorem Counts.congr (h : Counts c m l)
    (hread : ∀ a ∈ l, c.reading (l.count a) = c'.reading (l.count a)) : Counts c' m l := by
  intro a
  rw [h a]
  by_cases ha : a ∈ l
  · rw [if_pos ha, if_pos ha, hread a ha]
  · rw [if_neg ha, if_neg ha]

variable [Std.TransCmp cmp]

theorem counts_empty : Counts c (∅ : Std.TreeMap α β cmp) [] := by
  intro a
  simp

/-- A counter whose key did not occur has not moved. -/
theorem Counts.getD_eq (h : Counts c m l) (a : α) :
    m.getD a (c.reading 0) = c.reading (l.count a) := by
  rw [Std.TreeMap.getD_eq_getD_getElem?, h a]
  by_cases ha : a ∈ l
  · simp [ha]
  · simp [ha, List.count_eq_zero_of_not_mem ha]

variable [Std.LawfulEqCmp cmp]

/-- Two histograms of one list have the same entries in the same order. -/
theorem Counts.toList_eq (h : Counts c m l) (h' : Counts c m' l) : m.toList = m'.toList :=
  Std.TreeMap.equiv_iff_toList_eq.mp (.of_forall_constGet?_eq fun a => h.getElem?_eq h' a)

theorem Counts.bump (h : Counts c m l) (a : α) : Counts c (bump c m a) (l ++ [a]) := by
  intro b
  rw [Histogram.bump, Std.TreeMap.getElem?_insert, h.getD_eq a]
  by_cases hab : b = a
  · subst hab
    simp [c.reading_succ]
  · have hcmp : ¬ cmp a b = .eq := fun he => hab (Std.LawfulEqCmp.eq_of_compare he).symm
    rw [if_neg hcmp, h b]
    have hcount : (l ++ [a]).count b = l.count b := by
      simp [List.count_append, Ne.symm hab]
    simp [hab, hcount]

/-- The entries of a histogram are the keys that occurred, with their readings. -/
theorem Counts.mem_toList (h : Counts c m l) (a : α) (b : β) :
    (a, b) ∈ m.toList ↔ a ∈ l ∧ c.reading (l.count a) = b := by
  rw [Std.TreeMap.mem_toList_iff_getElem?_eq_some, h a]
  by_cases ha : a ∈ l <;> simp [ha]

/-- The entries of a histogram add up to what the counters of the keys that occurred read. -/
theorem Counts.sum_readings [AddCommMonoid β] (h : Counts c m l) :
    (m.toList.map Prod.snd).sum = (l.dedup.map fun a => c.reading (l.count a)).sum := by
  have hnodup : m.toList.Nodup := by
    refine (Std.TreeMap.distinct_keys_toList (t := m)).imp fun {p q} hne heq => hne ?_
    rw [heq]
    exact Std.ReflCmp.compare_self
  have hperm : m.toList.Perm (l.dedup.map fun a => (a, c.reading (l.count a))) := by
    rw [List.perm_ext_iff_of_nodup hnodup]
    · rintro ⟨a, b⟩
      simp [h.mem_toList]
    · exact (List.nodup_dedup l).map fun a b hab => congrArg Prod.fst hab
  rw [(hperm.map Prod.snd).sum_eq, List.map_map]
  rfl

/-- Wherever `f` reads the counters as what they count, the entries of a histogram add up to the
number of entries it counts. -/
theorem Counts.sum_eq [AddCommMonoid β] [AddCommMonoidWithOne γ] (f : β →+ γ) (h : Counts c m l)
    (hf : ∀ a ∈ l, f (c.reading (l.count a)) = l.count a) :
    f (m.toList.map Prod.snd).sum = l.length := by
  calc f (m.toList.map Prod.snd).sum
      = (l.dedup.map fun a => f (c.reading (l.count a))).sum := by
        rw [h.sum_readings, map_list_sum, List.map_map]
        rfl
    _ = (l.dedup.map fun a => ((l.count a : ℕ) : γ)).sum :=
        congrArg List.sum (List.map_congr_left fun a ha => hf a (List.mem_dedup.mp ha))
    _ = ((l.dedup.map fun a => l.count a).sum : ℕ) := by
        rw [← Nat.coe_castAddMonoidHom, map_list_sum, List.map_map]
        rfl
    _ = l.length := by rw [List.sum_map_count_dedup_eq_length l]

end Histogram
