import Sdkd.DsOps

/-!
# The items of a dataset

What the iterators of the datasets show as they walk along: the index of the item, and the subdocument
command it carries.

## Main results

- `Dataset.walked_le` — a walk over a dataset with an end has no more items than the dataset
- `Dataset.command_of_item` — every item of a dataset carries the same command
-/

namespace Sdkd

namespace Dataset

/-- The dataset has an end, and an index of 32 bits comes to it. -/
def Finite (ds : Dataset) : Prop := continuousCount ds.spec = none ∧ getCount ds.spec < 2 ^ 32

/-- The command every item carries; only the datasets of subdocument runs have one. -/
def itemCommand : DatasetSpec → String
  | .sd s => if s.load then "" else s.command
  | _ => ""

variable [JsonAccess] [JsonWriter] {ds : Dataset} {i j : DatasetIterator} {k r : ℕ}

/-- Building the data of an item leaves the index alone and sets the command the dataset has, if it has
one. -/
theorem initData_ok {spec : DatasetSpec} {idx : ℤ} (h : initData spec i idx = .ok j) :
    j.curidx = i.curidx ∧ (i.curc = "" ∨ i.curc = itemCommand spec → j.curc = itemCommand spec) := by
  cases spec with
  | inline items =>
    unfold initData at h
    dsimp only at h
    split_ifs at h
    · cases h
      exact ⟨rfl, by simp [itemCommand]⟩
    · cases h
      exact ⟨rfl, by simp [itemCommand]⟩
  | seeded s =>
    cases h
    exact ⟨rfl, by simp [itemCommand]⟩
  | n1ql s =>
    unfold initData at h
    dsimp only at h
    split at h
    · cases h
      exact ⟨rfl, by simp [itemCommand]⟩
    · cases h
  | sd s =>
    unfold initData at h
    dsimp only at h
    split_ifs at h with hload
    · cases h
      exact ⟨rfl, by simp [itemCommand, hload]⟩
    · cases h
      exact ⟨rfl, by simp [itemCommand, hload]⟩
  | fts count | cbas count =>
    cases h
    exact ⟨rfl, by simp [itemCommand]⟩

omit [JsonAccess] [JsonWriter] in
theorem pairParams_error_eq {doc : Json} {params values : List String} {e : Crash}
    (h : pairParams doc params values = .error e) : e = .outOfBounds := by
  induction params generalizing doc values with
  | nil => cases h
  | cons p params ih =>
    cases values with
    | nil => exact (Except.error.inj h).symm
    | cons v values => exact ih h

/-- The only ways in which the data of an item cannot be built. -/
theorem initData_error {spec : DatasetSpec} {idx : ℤ} {e : Crash} (h : initData spec i idx = .error e) :
    e = .assertion ∨ e = .outOfBounds := by
  cases spec with
  | inline items =>
    unfold initData at h
    dsimp only at h
    split_ifs at h
    exact .inl (Except.error.inj h).symm
  | n1ql s =>
    unfold initData at h
    dsimp only at h
    split at h
    · cases h
    · next e' herror =>
      obtain rfl := Except.error.inj h
      exact .inr (pairParams_error_eq herror)
  | sd s =>
    unfold initData at h
    dsimp only at h
    split_ifs at h
  | seeded s | fts count | cbas count => cases h

/-- Every item of a dataset carries the same command. -/
theorem command_of_item (h : ds.getIter.item newIterator k = .ok i) : i.curc = itemCommand ds.spec := by
  induction k generalizing i with
  | zero => exact (initData_ok h).2 (.inl rfl)
  | succ k ih =>
    unfold IterOps.item at h
    split at h
    · next j hj =>
      have hprevious := ih hj
      exact (initData_ok h).2 (.inr hprevious)
    · cases h

/-- The index of an item, while the walk does not start over. -/
theorem curidx_of_item (hcont : continuousCount ds.spec = none)
    (h : ds.getIter.item newIterator k = .ok i) : i.curidx = k % 2 ^ 32 := by
  induction k generalizing i with
  | zero => exact (initData_ok h).1
  | succ k ih =>
    unfold IterOps.item at h
    split at h
    · next j hj =>
      rw [(initData_ok h).1]
      simp [nextIndex, hcont, ih hj]
    · cases h

/-- A walk over a dataset with an end does not go past it. -/
theorem walked_le (hds : ds.Finite) (h : Walked ds.getIter newIterator r i) :
    r ≤ getCount ds.spec := by
  by_contra hlt
  obtain ⟨j, hj, hmore⟩ := h.passed (getCount ds.spec) (by omega)
  have hidx := curidx_of_item hds.1 hj
  rw [Nat.mod_eq_of_lt hds.2] at hidx
  have hend : ds.getIter.done j = true := by simp [getIter, done, hds.1, hidx]
  rw [hend] at hmore
  cases hmore

/-- An item that is not the end has the number of an item. -/
theorem walked_lt (hds : ds.Finite) (h : Walked ds.getIter newIterator r i)
    (hmore : ds.getIter.done i = false) : r < getCount ds.spec := by
  have hle := walked_le hds h
  have hidx := curidx_of_item hds.1 h.item
  rw [Nat.mod_eq_of_lt (hle.trans_lt hds.2)] at hidx
  simpa [getIter, done, hds.1, hidx] using hmore

end Dataset

end Sdkd
