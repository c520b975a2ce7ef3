import Sdkd.Iteration
import Sdkd.Lib.Assignments
import Sdkd.Lib.Positions

/-!
# Parameters of N1QL datasets

The document of an N1QL item has a field for each parameter. Names and values are two lists between commas,
the empty pieces of which are dropped from each before they are walked side by side.

## Main definitions

- `pieces` — what stands between the commas
- `PairsByPosition` — each field has the value that stands where its name stands
- `Aligned` — the condition for it on the two lists

## Main results

- `pairsByPosition_iff`
-/

namespace Sdkd

namespace Json

/-- The members of an object one of which has been set. -/
theorem lookup_set (ms : List (String × Json)) (p q : String) (v : Json) :
    (ms.filter (·.1 ≠ p) ++ [(p, v)]).lookup q = if q = p then some v else ms.lookup q := by
  have hnew : [(p, v)].lookup q = if q = p then some v else none :=
    Assignments.assigned_singleton (p, v) q
  rw [List.lookup_append, hnew]
  by_cases hq : q = p
  · have hnone : (ms.filter (·.1 ≠ p)).lookup q = none := by
      rw [List.lookup_eq_none_iff]
      intro e he
      have hne : e.1 ≠ p := of_decide_eq_true (List.mem_filter.mp he).2
      exact bne_iff_ne.mpr (hq ▸ hne.symm)
    rw [hnone, if_pos hq, if_pos hq, Option.none_or]
  · have hkeep : (ms.filter (·.1 ≠ p)).lookup q = ms.lookup q := by
      induction ms with
      | nil => rfl
      | cons m ms ih =>
        by_cases hm : m.1 = p
        · have hqm : (q == m.1) = false := beq_eq_false_iff_ne.mpr (hm ▸ hq)
          rw [List.filter_cons_of_neg (by simp [hm]), ih, List.lookup_cons, hqm]
        · rw [List.filter_cons_of_pos (by simp [hm]), List.lookup_cons, List.lookup_cons, ih]
    rw [hkeep, if_neg hq, if_neg hq, Option.or_none]

theorem get_set (doc : Json) (p q : String) (v : Json) :
    (doc.set p v).get q = if q = p then v else doc.get q := by
  have hmembers : ∀ ms : List (String × Json), ((ms.filter (·.1 ≠ p) ++ [(p, v)]).lookup q).getD .null =
      if q = p then v else (ms.lookup q).getD .null := by
    intro ms
    rw [lookup_set]
    split_ifs <;> rfl
  cases doc with
  | object ms => exact hmembers ms
  | _ => exact hmembers []

end Json

namespace Dataset

open Assignments (assigned)
open Positions (keptBefore)

/-! ## The walk -/

/-- With fewer values than names the walk goes past the end. -/
theorem pairParams_error {params values : List String} (h : values.length < params.length) (doc : Json) :
    pairParams doc params values = .error .outOfBounds := by
  induction params generalizing values doc with
  | nil => simp at h
  | cons p ps ih =>
    cases values with
    | nil => rfl
    | cons v vs => exact ih (Nat.lt_of_succ_lt_succ h) _

theorem get_assignPairs (doc : Json) (pairs : List (String × String)) (p : String) :
    (assignPairs doc pairs).get p = ((assigned pairs p).map Json.string).getD (doc.get p) :=
  Assignments.get_foldl Json.get_set Json.string pairs doc p

/-! ## Positions -/

/-- What stands between the commas of a list. -/
def pieces (s : String) : List String := (s.toList.splitOn ',').map String.ofList

def isFilled (p : String) : Bool := p ≠ ""

/-- The pieces that are not empty. -/
def filled (ps : List String) : List String := ps.filter isFilled

/-- Their number in front of a position. -/
def filledBefore (ps : List String) (k : ℕ) : ℕ := keptBefore isFilled ps k

theorem isFilled_iff {p : String} : isFilled p = true ↔ p ≠ "" := decide_eq_true_iff

theorem mem_filled {ps : List String} {p : String} : p ∈ filled ps ↔ p ∈ ps ∧ p ≠ "" := by
  rw [filled, List.mem_filter, isFilled_iff]

theorem split_eq_filled (s : String) : split s = filled (pieces s) := by
  have hempty : ∀ cs : List Char, isFilled (String.ofList cs) = decide (cs ≠ []) := by
    intro cs
    rw [isFilled, decide_eq_decide, not_iff_not, ← String.toList_inj, String.toList_ofList]
    rfl
  rw [split, filled, pieces, List.filter_map]
  exact congrArg _ (List.filter_congr fun cs _ => (hempty cs).symm)

/-- The piece at the position, which does not come again. -/
structure LastAt (ps : List String) (k : ℕ) (p : String) : Prop where
  here : ps[k]? = some p
  last : p ∉ ps.drop (k + 1)

/-- In front of a value with the text of the one at the position of a name, there are as many values as there
are names in front of the name. -/
def Aligned (names values : List String) : Prop :=
  ∀ p k, p ≠ "" → LastAt names k p →
    ∃ v j, v ≠ "" ∧ values[k]? = some v ∧ values[j]? = some v ∧
      filledBefore values j = filledBefore names k

section Positions

variable {names values : List String} {p : String} {k : ℕ}

/-- The field of a name has the value that stands as far behind the front, without the empty pieces. -/
theorem get_filled (doc : Json)
    (hlen : (filled names).length ≤ (filled values).length) (hp : p ≠ "")
    (hk : LastAt names k p) :
    ∃ v, (filled values)[filledBefore names k]? = some v ∧
      (assignPairs doc ((filled names).zip (filled values))).get p = .string v := by
  have hname : (filled names)[filledBefore names k]? = some p :=
    Positions.getElem?_filter_keptBefore hk.here (isFilled_iff.mpr hp)
  have hlast : (filled names).drop (filledBefore names k + 1) = filled (names.drop (k + 1)) :=
    Positions.drop_filter_keptBefore hk.here (isFilled_iff.mpr hp)
  obtain ⟨hlt, -⟩ := List.getElem?_eq_some_iff.mp hname
  obtain ⟨v, hv⟩ : ∃ v, (filled values)[filledBefore names k]? = some v :=
    ⟨_, List.getElem?_eq_getElem (lt_of_lt_of_le hlt hlen)⟩
  refine ⟨v, hv, ?_⟩
  have hassigned := Assignments.assigned_of_last (List.getElem?_zip_eq_some.mpr ⟨hname, hv⟩)
    fun e he heq => by
      rw [List.zip, List.drop_zipWith, hlast] at he
      have hmem := (List.of_mem_zip he).1
      exact hk.last (heq ▸ (mem_filled.mp hmem).1)
  rw [get_assignPairs, hassigned]
  rfl

/-- The last name there is stands nowhere else. -/
theorem exists_lastAt (h : filled names ≠ []) :
    ∃ p k, p ≠ "" ∧ LastAt names k p ∧ filledBefore names k + 1 = (filled names).length := by
  have hpos := List.length_pos_iff.mpr h
  have hget : (filled names)[(filled names).length - 1]? =
      some ((filled names).getLast h) := by
    rw [← List.getLast?_eq_getElem?, List.getLast?_eq_some_getLast h]
  obtain ⟨k, hk, hrank⟩ := Positions.exists_position hget
  have hne := (mem_filled.mp (List.getLast_mem h)).2
  refine ⟨_, k, hne, ⟨hk, fun hmem => ?_⟩, ?_⟩
  · have hdrop : (filled names).drop (filledBefore names k + 1) = filled (names.drop (k + 1)) :=
      Positions.drop_filter_keptBefore hk (isFilled_iff.mpr hne)
    have hnone : (filled names).drop (filledBefore names k + 1) = [] :=
      List.drop_eq_nil_of_le (by rw [filledBefore, hrank]; omega)
    rw [hnone] at hdrop
    exact absurd (mem_filled.mpr ⟨hmem, hne⟩) (by rw [← hdrop]; exact List.not_mem_nil)
  · rw [filledBefore, hrank]
    omega

theorem Aligned.length_le (h : Aligned names values) :
    (filled names).length ≤ (filled values).length := by
  by_cases hnil : filled names = []
  · rw [hnil]
    exact Nat.zero_le _
  · obtain ⟨p, k, hp, hk, hlen⟩ := exists_lastAt hnil
    obtain ⟨v, j, hv, -, hj, heq⟩ := h p k hp hk
    have hget : (filled values)[filledBefore values j]? = some v :=
      Positions.getElem?_filter_keptBefore hj (isFilled_iff.mpr hv)
    have hlt := (List.getElem?_eq_some_iff.mp hget).1
    omega

/-- The walk pairs by position if and only if the lists are aligned. -/
theorem aligned_iff (doc : Json) :
    Aligned names values ↔
      (filled names).length ≤ (filled values).length ∧
      ∀ p k, p ≠ "" → LastAt names k p → ∃ v, values[k]? = some v ∧
        (assignPairs doc ((filled names).zip (filled values))).get p =
          .string v := by
  constructor
  · intro h
    refine ⟨h.length_le, fun p k hp hk => ?_⟩
    obtain ⟨v, j, hv, hkv, hj, heq⟩ := h p k hp hk
    obtain ⟨v', hv', hget⟩ := get_filled doc h.length_le hp hk
    have hfilled : (filled values)[filledBefore values j]? = some v :=
      Positions.getElem?_filter_keptBefore hj (isFilled_iff.mpr hv)
    rw [heq, hv'] at hfilled
    obtain rfl := Option.some.inj hfilled
    exact ⟨v', hkv, hget⟩
  · rintro ⟨hlen, h⟩ p k hp hk
    obtain ⟨v, hkv, hget⟩ := h p k hp hk
    obtain ⟨v', hv', hget'⟩ := get_filled doc hlen hp hk
    obtain rfl : v' = v := Json.string.inj (hget'.symm.trans hget)
    obtain ⟨j, hj, heq⟩ := Positions.exists_position hv'
    exact ⟨v', j, (mem_filled.mp (List.mem_of_getElem? hv')).2, hkv, hj, heq⟩

end Positions

/-! ## The documents -/

section Documents

variable [JsonAccess] [JsonWriter]

/-- No value past the end is read, and the field of a name in the document has the value that stands where
the name stands last. -/
def PairsByPosition (jspec : Json) : Prop :=
  ∀ (i : DatasetIterator) (idx : ℤ), ∃ doc,
    pairParams (Json.null.set "id" (.string (toString idx))) (split (asString (jspec.get "NQParam")))
      (split (asString (jspec.get "NQParamValues"))) = .ok doc ∧
    initData (n1qlOfJson jspec).spec i idx =
      .ok { i with curv := JsonWriter.write doc, curk := asString (doc.get "id") } ∧
    ∀ p k, p ≠ "" → LastAt (pieces (asString (jspec.get "NQParam"))) k p →
      ∃ v, (pieces (asString (jspec.get "NQParamValues")))[k]? = some v ∧ doc.get p = .string v

theorem initData_n1ql (s : N1QLDatasetSpecification) (i : DatasetIterator) (idx : ℤ) :
    initData (.n1ql s) i idx =
      (pairParams (Json.null.set "id" (.string (toString idx))) s.params s.paramValues).map
        fun doc => { i with curv := JsonWriter.write doc, curk := asString (doc.get "id") } := by
  unfold initData
  dsimp only
  cases pairParams (Json.null.set "id" (.string (toString idx))) s.params s.paramValues <;> rfl

/-- The walk stays inside the values if and only if there are enough of them. -/
theorem initData_inside_iff (jspec : Json) :
    (∀ i idx, initData (n1qlOfJson jspec).spec i idx ≠ .error .outOfBounds) ↔
      (split (asString (jspec.get "NQParam"))).length ≤
        (split (asString (jspec.get "NQParamValues"))).length := by
  constructor
  · intro h
    by_contra hlt
    refine h newIterator 0 ?_
    show initData (.n1ql _) newIterator 0 = _
    rw [initData_n1ql, pairParams_error (Nat.lt_of_not_le hlt)]
    rfl
  · intro hlen i idx
    show initData (.n1ql _) i idx ≠ _
    rw [initData_n1ql, pairParams_eq hlen]
    exact fun h => by cases h

/-- **Parameter pairing.** The walk stays inside the values if and only if there are as many of them as
names, the empty pieces left out; and names and values are paired by position if and only if the lists are
aligned. -/
theorem pairsByPosition_iff (jspec : Json) :
    ((∀ i idx, initData (n1qlOfJson jspec).spec i idx ≠ .error .outOfBounds) ↔
      (split (asString (jspec.get "NQParam"))).length ≤
        (split (asString (jspec.get "NQParamValues"))).length) ∧
    (PairsByPosition jspec ↔
      Aligned (pieces (asString (jspec.get "NQParam")))
        (pieces (asString (jspec.get "NQParamValues")))) := by
  refine ⟨initData_inside_iff jspec, ?_⟩
  constructor
  · intro h
    have hlen := (initData_inside_iff jspec).mp fun i idx => by
      obtain ⟨doc, -, hok, -⟩ := h i idx
      rw [hok]
      exact fun herror => by cases herror
    obtain ⟨doc, hdoc, -, hfields⟩ := h newIterator 0
    rw [pairParams_eq hlen] at hdoc
    obtain rfl := Except.ok.inj hdoc
    rw [split_eq_filled, split_eq_filled] at hlen hfields
    exact (aligned_iff _).mpr ⟨hlen, hfields⟩
  · intro h i idx
    obtain ⟨hlen, hfields⟩ := (aligned_iff (Json.null.set "id" (.string (toString idx)))).mp h
    rw [← split_eq_filled, ← split_eq_filled] at hlen hfields
    refine ⟨_, pairParams_eq hlen _, ?_, hfields⟩
    show initData (.n1ql _) i idx = _
    rw [initData_n1ql, pairParams_eq hlen]
    rfl

end Documents

section Examples

/-- Two names, of which the second has no value, or one that stands behind an empty piece. -/
def twoNames (values : String) : Json :=
  .object [("NQParam", .string "a,b"), ("NQParamValues", .string values), ("NQCount", .uint 1)]

/-- Both lists are accepted. With one value the walk leaves the list, and with an empty one the second name
gets the third value. -/
theorem emptyPiece_not_paired :
    letI := JsonAccess.plain
    letI := JsonWriter.compact
    (verifySpec (n1qlOfJson (twoNames "1")).spec).isSet = false ∧
    initData (n1qlOfJson (twoNames "1")).spec newIterator 0 = .error .outOfBounds ∧
    ¬ PairsByPosition (twoNames "1") ∧
    (verifySpec (n1qlOfJson (twoNames "1,,2")).spec).isSet = false ∧
    ¬ PairsByPosition (twoNames "1,,2") := by
  let _ := JsonAccess.plain
  let _ := JsonWriter.compact
  have hlast : LastAt ["a", "b"] 1 "b" := ⟨rfl, by decide⟩
  refine ⟨rfl, rfl, fun h => ?_, rfl, fun h => ?_⟩
  · obtain ⟨doc, hdoc, -⟩ := h newIterator 0
    cases hdoc
  · obtain ⟨doc, hdoc, -, hfields⟩ := h newIterator 0
    obtain ⟨v, hv, hget⟩ := hfields "b" 1 (by decide) hlast
    have hdoc' : Except.ok (.object [("id", .string "0"), ("a", .string "1"), ("b", .string "2")]) =
      (Except.ok doc : Except Crash Json) := hdoc
    obtain rfl := Except.ok.inj hdoc'
    obtain rfl : "" = v := Option.some.inj hv
    exact absurd (Json.string.inj hget) (by decide)

end Examples

end Dataset

end Sdkd
