import Sdkd.Lib.AssignedMap
import Sdkd.ResultSet

/-!
# Detailed results

The full results of a request and the calls of `setRescode` that make them. There are five ways to call
it; each stores one entry, under a key that `setRescode` copies only for a value that is not empty.
-/

namespace Sdkd

namespace ResultSet

/-- `setRescode(err, key, nkey)`. -/
def setRescodeKey (rs : ResultSet) (tv : TimeVal) (err : ErrorCode) (key : String) : ResultSet :=
  rs.setRescodeFull tv err key false none

/-- `setRescode(err, key, expect_value)`. The overload asks for a value in any case. -/
def setRescodeExpect (rs : ResultSet) (tv : TimeVal) (err : ErrorCode) (key : String)
    (_expectValue : Bool) : ResultSet :=
  rs.setRescodeFull tv err key true none

/-- A call of `setRescode`, with the arguments of its caller. -/
inductive RescodeCall where
  | full (err : ErrorCode) (key : String) (expectValue : Bool) (value : Option String)
  | plain (err : ErrorCode)
  | keyed (err : ErrorCode) (key : String)
  | expect (err : ErrorCode) (key : String) (expectValue : Bool)
  | final (err : ErrorCode) (isFinal : Bool)

def rescode (rs : ResultSet) (tv : TimeVal) : RescodeCall → ResultSet
  | .full err key expectValue value => rs.setRescodeFull tv err key expectValue value
  | .plain err => rs.setRescode tv err
  | .keyed err key => rs.setRescodeKey tv err key
  | .expect err key expectValue => rs.setRescodeExpect tv err key expectValue
  | .final err isFinal => rs.setRescodeFinal tv err isFinal

/-- One call after the other, each with the time it looks at. -/
def rescodes (rs : ResultSet) (calls : List (TimeVal × RescodeCall)) : ResultSet :=
  calls.foldl (fun rs c => rs.rescode c.1 c.2) rs

namespace RescodeCall

/-- The key a caller passes and the text the call is to leave under it: the value returned, if the caller asked
for one, and the text of the status otherwise. A caller that names no key passes the empty one. -/
def meant : RescodeCall → String × String
  | full err key expectValue value => (key, if expectValue then value.getD "" else err.text)
  | plain err => ("", err.text)
  | keyed err key => (key, err.text)
  | expect err key expectValue => (key, if expectValue then "" else err.text)
  | final err _ => ("", err.text)

/-- The entry the call makes in the full results. -/
def stored : RescodeCall → String × String
  | full err key expectValue value =>
    (if (value.getD "").length ≠ 0 then key else "", if expectValue then value.getD "" else err.text)
  | plain err => ("", err.text)
  | keyed err _ => ("", err.text)
  | expect _ _ _ => ("", "")
  | final err _ => ("", err.text)

/-- The key is empty or comes with a value, and the overload that asks for a value has a caller that does. -/
def KeepsKey : RescodeCall → Prop
  | full _ key _ value => key = "" ∨ value.getD "" ≠ ""
  | keyed _ key => key = ""
  | expect err key expectValue => key = "" ∧ (expectValue = true ∨ err.text = "")
  | plain _ | final _ _ => True

theorem stored_eq_meant_iff (c : RescodeCall) : c.stored = c.meant ↔ c.KeepsKey := by
  cases c with
  | full err key expectValue value =>
    by_cases hvalue : value.getD "" = ""
    · simp [stored, meant, KeepsKey, hvalue, eq_comm (a := "")]
    · simp [stored, meant, KeepsKey, hvalue]
  | plain err => simp [stored, meant, KeepsKey]
  | keyed err key => simp [stored, meant, KeepsKey, eq_comm (a := "")]
  | expect err key expectValue =>
    unfold stored meant KeepsKey
    rw [Prod.mk.injEq, eq_comm (a := "")]
    cases expectValue <;> simp [eq_comm (a := "")]
  | final err isFinal => simp [stored, meant, KeepsKey]

end RescodeCall

/-! ## One call -/

@[simp] theorem openWindow_full (rs : ResultSet) (tv : TimeVal) :
    (rs.openWindow tv).options.full = rs.options.full := by
  obtain ⟨_, _, _, heq⟩ := rs.openWindow_eq tv
  rw [heq]

@[simp] theorem openWindow_fullstats (rs : ResultSet) (tv : TimeVal) :
    (rs.openWindow tv).fullstats = rs.fullstats := by
  obtain ⟨_, _, _, heq⟩ := rs.openWindow_eq tv
  rw [heq]

theorem record_fullstats {rs : ResultSet} (hfull : rs.options.full = true) (err : ErrorCode) (key : String)
    (expectValue : Bool) (value : Option String) :
    (rs.record err key expectValue value).fullstats =
      rs.fullstats.insert (if (value.getD "").length ≠ 0 then key else "")
        (if expectValue then value.getD "" else err.text) := by
  unfold record
  dsimp only
  rw [if_pos hfull]
  cases expectValue <;> rfl

theorem setRescodeFull_fullstats {rs : ResultSet} (hfull : rs.options.full = true) (tv : TimeVal)
    (err : ErrorCode) (key : String) (expectValue : Bool) (value : Option String) :
    (rs.setRescodeFull tv err key expectValue value).fullstats =
      rs.fullstats.insert (if (value.getD "").length ≠ 0 then key else "")
        (if expectValue then value.getD "" else err.text) := by
  rw [← record_fullstats hfull]
  simp [setRescodeFull]

@[simp] theorem rescode_full (rs : ResultSet) (tv : TimeVal) (c : RescodeCall) :
    (rs.rescode tv c).options.full = rs.options.full := by
  cases c <;>
    simp [rescode, setRescode, setRescodeKey, setRescodeExpect, setRescodeFinal, setRescodeFull]

/-- Whichever overload is called, one entry is stored. -/
theorem rescode_fullstats {rs : ResultSet} (hfull : rs.options.full = true) (tv : TimeVal)
    (c : RescodeCall) :
    (rs.rescode tv c).fullstats = rs.fullstats.insert c.stored.1 c.stored.2 := by
  cases c with
  | full err key expectValue value => exact setRescodeFull_fullstats hfull tv err key expectValue value
  | plain err => exact setRescodeFull_fullstats hfull tv err "" false none
  | keyed err key => exact setRescodeFull_fullstats hfull tv err key false none
  | expect err key expectValue => exact setRescodeFull_fullstats hfull tv err key true none
  | final err isFinal =>
    have hfull' : { rs with vrespComplete := isFinal }.options.full = true := hfull
    exact setRescodeFull_fullstats hfull' tv err "" false none

/-! ## Runs of calls -/

theorem rescodes_concat (rs : ResultSet) (calls : List (TimeVal × RescodeCall)) (c : TimeVal × RescodeCall) :
    rs.rescodes (calls ++ [c]) = (rs.rescodes calls).rescode c.1 c.2 := by
  simp [rescodes]

theorem rescodes_full (rs : ResultSet) (calls : List (TimeVal × RescodeCall)) :
    (rs.rescodes calls).options.full = rs.options.full := by
  induction calls using List.reverseRecOn with
  | nil => rfl
  | append_singleton calls c ih => rw [rescodes_concat, rescode_full, ih]

/-- The full results have one entry for each key passed, with what the last call for the key was to leave
there. -/
def KeyedByKey (rs : ResultSet) (calls : List (TimeVal × RescodeCall)) : Prop :=
  Assignments.Holds rs.fullstats (calls.map fun c => c.2.meant)

/-- **Detailed results.** The full results of a request are keyed by the keys of its calls all the time, just
if every call keeps its key, or the results have what it stores and what it should store already. -/
theorem keyedByKey_iff {rs : ResultSet} (hfull : rs.options.full = true)
    (calls : List (TimeVal × RescodeCall)) :
    (∀ pre, pre <+: calls → (rs.clear.rescodes pre).KeyedByKey pre) ↔
      ∀ pre tv c, pre ++ [(tv, c)] <+: calls → c.KeepsKey ∨
        ((rs.clear.rescodes pre).fullstats[c.meant.1]? = some c.meant.2 ∧
          (rs.clear.rescodes pre).fullstats[c.stored.1]? = some c.stored.2) := by
  have hconcat (pre : List (TimeVal × RescodeCall)) (c : TimeVal × RescodeCall) :
      (rs.clear.rescodes (pre ++ [c])).fullstats =
        (rs.clear.rescodes pre).fullstats.insert c.2.stored.1 c.2.stored.2 := by
    have hrun : (rs.clear.rescodes pre).options.full = true := by
      rw [rescodes_full]
      exact hfull
    rw [rescodes_concat, rescode_fullstats hrun]
  have hnil : (rs.clear.rescodes []).fullstats = ∅ := rfl
  refine (Assignments.holds_prefixes_iff hnil hconcat calls).trans ?_
  simp only [RescodeCall.stored_eq_meant_iff, Prod.forall]

/-- A result set of a request for detailed results. -/
def exampleDetailed : ResultSet := { new with options := { ResultOptions.default with full := true } }

/-- A call that got a value for its key, and one without either. -/
def exampleGets : List (TimeVal × RescodeCall) :=
  [(⟨1, 0⟩, .full .success "k1" true (some "v1")), (⟨1, 0⟩, .full .success "" true none)]

theorem exampleGets_keyedByKey : (exampleDetailed.clear.rescodes exampleGets).KeyedByKey exampleGets := by
  refine (keyedByKey_iff rfl exampleGets).mpr (fun pre tv c hpre => .inl ?_) _ List.prefix_rfl
  have hmem : (tv, c) ∈ exampleGets := hpre.subset (List.mem_append_right _ List.mem_cons_self)
  simp only [exampleGets, List.mem_cons, Prod.mk.injEq, List.not_mem_nil, or_false] at hmem
  obtain ⟨-, rfl⟩ | ⟨-, rfl⟩ := hmem
  · exact .inr (by decide)
  · exact .inl rfl

/-- Two stored keys. -/
def exampleStores : List (TimeVal × RescodeCall) :=
  [(⟨1, 0⟩, .keyed .success "k1"), (⟨1, 0⟩, .keyed .success "k2")]

/-- Their results are both kept under the empty key. -/
theorem exampleStores_not_keyedByKey :
    ¬ (exampleDetailed.clear.rescodes exampleStores).KeyedByKey exampleStores := by
  intro hkeyed
  have hfull (tv : TimeVal) (c : RescodeCall) : (exampleDetailed.clear.rescode tv c).options.full = true := by
    rw [rescode_full]
    rfl
  -- both entries go to the empty key, and none to the first of the keys
  have hstored : (exampleDetailed.clear.rescodes exampleStores).fullstats =
      ((∅ : Std.TreeMap String String).insert "" "success").insert "" "success" := by
    change ((exampleDetailed.clear.rescode ⟨1, 0⟩ (.keyed .success "k1")).rescode ⟨1, 0⟩
      (.keyed .success "k2")).fullstats = _
    rw [rescode_fullstats (hfull _ _), rescode_fullstats rfl]
    rfl
  have hfirst := hkeyed "k1"
  rw [hstored] at hfirst
  exact absurd hfirst (by decide)

end ResultSet

end Sdkd
