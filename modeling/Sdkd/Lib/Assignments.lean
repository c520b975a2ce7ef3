import Mathlib.Data.List.Induction
import Mathlib.Tactic.SplitIfs

/-!
# Sequences of assignments

The value each key has behind a sequence of assignments, the last of which counts.

## Main definitions

- `assigned` — the value of a key behind the assignments, if it has one

## Main results

- `assigned_of_last`, `assigned_of_mem_iff` — which assignments are still to be seen
-/

namespace Assignments

variable {κ α : Type*} [DecidableEq κ] {es : List (κ × α)} {k : κ} {v : α}

/-- The value the last assignment to a key gives it. -/
def assigned (es : List (κ × α)) (k : κ) : Option α := es.reverse.lookup k

theorem assigned_append (es es' : List (κ × α)) (k : κ) :
    assigned (es ++ es') k = (assigned es' k).or (assigned es k) := by
  rw [assigned, List.reverse_append, List.lookup_append]
  rfl

theorem assigned_singleton (e : κ × α) (k : κ) : assigned [e] k = if k = e.1 then some e.2 else none := by
  obtain ⟨a, v⟩ := e
  show [(a, v)].lookup k = _
  rw [List.lookup_cons, List.lookup_nil]
  by_cases hk : k = a
  · rw [if_pos hk, beq_iff_eq.mpr hk]
  · rw [if_neg hk, beq_eq_false_iff_ne.mpr hk]

/-- What a state that takes assignments has for a key behind a sequence of them. -/
theorem get_foldl {σ β : Type*} {get : σ → κ → β} {set : σ → κ → β → σ}
    (hset : ∀ s k k' v, get (set s k v) k' = if k' = k then v else get s k') (f : α → β)
    (es : List (κ × α)) (s : σ) (k : κ) :
    get (es.foldl (fun s e => set s e.1 (f e.2)) s) k = ((assigned es k).map f).getD (get s k) := by
  induction es using List.reverseRecOn with
  | nil => rfl
  | append_singleton es e ih =>
    rw [List.foldl_append, List.foldl_cons, List.foldl_nil, hset, ih, assigned_append, assigned_singleton]
    split_ifs <;> rfl

theorem assigned_eq_none (h : ∀ e ∈ es, e.1 ≠ k) : assigned es k = none := by
  rw [assigned, List.lookup_eq_none_iff]
  intro e he
  exact bne_iff_ne.mpr (h e (List.mem_reverse.mp he)).symm

/-- An assignment behind which the key is not assigned again. -/
theorem assigned_of_last {i : ℕ} (h : es[i]? = some (k, v)) (hlast : ∀ e ∈ es.drop (i + 1), e.1 ≠ k) :
    assigned es k = some v := by
  have hsplit : es = es.take i ++ [(k, v)] ++ es.drop (i + 1) := by
    obtain ⟨hlt, hget⟩ := List.getElem?_eq_some_iff.mp h
    rw [← hget, List.append_assoc, List.singleton_append, List.getElem_cons_drop,
      List.take_append_drop]
  rw [hsplit, assigned_append, assigned_append, assigned_eq_none hlast]
  rw [assigned_singleton, if_pos rfl]
  rfl

theorem mem_of_assigned (h : assigned es k = some v) : (k, v) ∈ es := by
  rw [assigned, List.lookup_eq_some_iff] at h
  obtain ⟨front, behind, heq, -⟩ := h
  rw [← List.mem_reverse, heq]
  simp

theorem exists_assigned (h : (k, v) ∈ es) : ∃ v', assigned es k = some v' := by
  refine Option.ne_none_iff_exists'.mp fun hnone => ?_
  rw [assigned, List.lookup_eq_none_iff] at hnone
  simpa using hnone _ (List.mem_reverse.mpr h)

/-- All assignments are still to be seen if and only if no two give one key two values. -/
theorem assigned_of_mem_iff :
    (∀ e ∈ es, assigned es e.1 = some e.2) ↔ ∀ e ∈ es, ∀ e' ∈ es, e.1 = e'.1 → e.2 = e'.2 := by
  constructor
  · intro h e he e' he' hkey
    have heq := (h e he).symm.trans (hkey ▸ h e' he')
    exact Option.some.inj heq
  · intro h e he
    obtain ⟨v, hv⟩ := exists_assigned (k := e.1) (v := e.2) he
    rw [hv, h e he (e.1, v) (mem_of_assigned hv) rfl]

end Assignments
