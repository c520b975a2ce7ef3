import Mathlib.Data.List.Induction
import Mathlib.Tactic.SplitIfs
import Sdkd.Lib.Assignments
import Std.Data.TreeMap

/-!
# Ordered maps behind sequences of assignments

A map that is only ever assigned to holds, for each key, what the last assignment to the key gave it.

## Main definitions

- `Holds` — a map has the values behind a sequence of assignments, and no others

## Main results

- `holds_prefixes_iff` — when a map that is assigned one thing in place of another is right all the time
-/

namespace Assignments

variable {α β ι : Type*} [DecidableEq α]

theorem assigned_concat (l : List (α × β)) (e : α × β) (a : α) :
    assigned (l ++ [e]) a = if e.1 = a then some e.2 else assigned l a := by
  rw [assigned_append, assigned_singleton]
  by_cases ha : a = e.1
  · rw [if_pos ha, if_pos ha.symm]
    rfl
  · rw [if_neg ha, if_neg (Ne.symm ha)]
    rfl

/-- To assign what is there changes nothing. -/
theorem ite_assigned_of_eq {l : List (α × β)} {e : α × β} (h : assigned l e.1 = some e.2) (a : α) :
    (if e.1 = a then some e.2 else assigned l a) = assigned l a := by
  split_ifs with ha
  · rw [← ha, h]
  · rfl

variable {cmp : α → α → Ordering} {m : Std.TreeMap α β cmp} {l : List (α × β)} {e e' : α × β}

/-- `m` holds the last assignments of `l` and nothing else. -/
def Holds (m : Std.TreeMap α β cmp) (l : List (α × β)) : Prop := ∀ a, m[a]? = assigned l a

variable [Std.TransCmp cmp]

theorem holds_empty : Holds (∅ : Std.TreeMap α β cmp) [] := by
  intro a
  simp [assigned]

variable [Std.LawfulEqCmp cmp]

theorem getElem?_insert (m : Std.TreeMap α β cmp) (e : α × β) (a : α) :
    (m.insert e.1 e.2)[a]? = if e.1 = a then some e.2 else m[a]? := by
  rw [Std.TreeMap.getElem?_insert]
  simp only [Std.LawfulEqCmp.compare_eq_iff_eq]

theorem Holds.insert (h : Holds m l) (e : α × β) : Holds (m.insert e.1 e.2) (l ++ [e]) := by
  intro a
  rw [getElem?_insert, assigned_concat, h a]

/-- A map holds its own entries. -/
theorem holds_toList (m : Std.TreeMap α β cmp) : Holds m m.toList := by
  intro a
  ext v
  constructor
  · intro hv
    obtain ⟨v', hv'⟩ := exists_assigned (Std.TreeMap.mem_toList_iff_getElem?_eq_some.mpr hv)
    have hget := Std.TreeMap.mem_toList_iff_getElem?_eq_some.mp (mem_of_assigned hv')
    rwa [← hget, hv] at hv'
  · exact fun hv => Std.TreeMap.mem_toList_iff_getElem?_eq_some.mp (mem_of_assigned hv)

/-- A map that is assigned a list of entries. -/
theorem Holds.foldl (h : Holds m l) (es : List (α × β)) :
    Holds (es.foldl (fun m e => m.insert e.1 e.2) m) (l ++ es) := by
  induction es generalizing m l with
  | nil => simpa using h
  | cons e es ih =>
    rw [List.foldl_cons, List.append_cons]
    exact ih (h.insert e)

/-- The map that takes one assignment for another is right if the two are the same, or if the map had
both of them before. -/
theorem Holds.insert_iff (h : Holds m l) :
    Holds (m.insert e'.1 e'.2) (l ++ [e]) ↔
      e' = e ∨ (m[e.1]? = some e.2 ∧ m[e'.1]? = some e'.2) := by
  rw [h e.1, h e'.1]
  constructor
  · intro hnew
    have hat := hnew e.1
    have hat' := hnew e'.1
    rw [getElem?_insert, assigned_concat, h] at hat hat'
    rw [if_pos rfl] at hat hat'
    by_cases hkey : e'.1 = e.1
    · rw [if_pos hkey] at hat
      exact .inl (Prod.ext hkey (Option.some.inj hat))
    · rw [if_neg hkey] at hat
      rw [if_neg (Ne.symm hkey)] at hat'
      exact .inr ⟨hat, hat'.symm⟩
  · rintro (rfl | ⟨hat, hat'⟩)
    · exact h.insert e'
    · intro a
      rw [getElem?_insert, assigned_concat, h a, ite_assigned_of_eq hat, ite_assigned_of_eq hat']

/-- A map that is assigned `stored` in place of `meant`, one after the other, is right all the time just if
each assignment is the one meant, or the map has both before. -/
theorem holds_prefixes_iff {stored meant : ι → α × β} {run : List ι → Std.TreeMap α β cmp}
    (hnil : run [] = ∅) (hconcat : ∀ pre c, run (pre ++ [c]) = (run pre).insert (stored c).1 (stored c).2)
    (l : List ι) :
    (∀ pre, pre <+: l → Holds (run pre) (pre.map meant)) ↔
    ∀ pre c, pre ++ [c] <+: l → stored c = meant c ∨
      ((run pre)[(meant c).1]? = some (meant c).2 ∧ (run pre)[(stored c).1]? = some (stored c).2) := by
  constructor
  · intro h pre c hpre
    have hbefore := h pre ((List.prefix_append _ _).trans hpre)
    have hafter := h _ hpre
    rw [hconcat, List.map_append] at hafter
    exact hbefore.insert_iff.mp hafter
  · intro h pre hpre
    induction pre using List.reverseRecOn with
    | nil =>
      rw [hnil]
      exact holds_empty
    | append_singleton pre c ih =>
      rw [hconcat, List.map_append]
      exact (ih ((List.prefix_append _ _).trans hpre)).insert_iff.mpr (h pre c hpre)

end Assignments
