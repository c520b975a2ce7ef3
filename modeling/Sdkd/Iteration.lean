import Mathlib.Tactic.Common
import Sdkd.Items
import Sdkd.Lib.Iterate

/-!
# Iteration

The loop an operation runs over its dataset, `start()` and then `advance()` until `done()`, and the items
it is shown.

## Main definitions

- `IterOps.loop` — the loop
- `Dataset.Used` — an iterator that has been started and advanced, any number of times
- `Dataset.itemFor` — the item `init_data` builds for an index

## Main results

- `Dataset.iteration_law` — the loop is shown the items of the indices below the count, once or again and
  again
-/

namespace Sdkd

/-- What an iterator shows of the item it stands at. -/
structure Item where
  key : String
  value : String
  path : String
  command : String
  deriving DecidableEq

def DatasetIterator.item (i : DatasetIterator) : Item := ⟨i.curk, i.curv, i.curp, i.curc⟩

section Loop

variable {ι : Type*} (it : IterOps ι)

def IterOps.current (i : ι) : Item := ⟨it.key i, it.value i, it.path i, it.command i⟩

/-- `for (start(); !done(); advance())`, the items it is shown and whether it ends, in the first `fuel`
rounds. -/
def IterOps.loop (fuel : ℕ) (i : ι) : Except Crash (List Item × Bool) :=
  match it.start i with
  | .error e => .error e
  | .ok j => Iterate.collect it.done it.advance it.current fuel j

end Loop

namespace Dataset

section Walk

variable [JsonAccess] [JsonWriter] {spec : DatasetSpec} {ds : Dataset} {i : DatasetIterator}

/-- An iterator of the dataset, started and advanced any number of times. -/
inductive Used (ds : Dataset) : DatasetIterator → Prop
  | new : Used ds newIterator
  | start {i j : DatasetIterator} : Used ds i → ds.getIter.start i = .ok j → Used ds j
  | advance {i j : DatasetIterator} : Used ds i → ds.getIter.advance i = .ok j → Used ds j

/-- The item `init_data` builds for an index, which it takes as an `int`. -/
def itemFor (ds : Dataset) (k : ℕ) : Except Crash Item :=
  (initData ds.spec newIterator ((k : ℤ).bmod (2 ^ 32))).map DatasetIterator.item

/-! ## The items -/

/-- The fields only the items of a subdocument run have are empty, unless it is one. -/
def Bare (spec : DatasetSpec) (i : DatasetIterator) : Prop :=
  (∀ s, spec = .sd s → s.load = true) → i.curp = "" ∧ i.curc = ""

omit [JsonAccess] [JsonWriter] in
theorem bare_new : Bare spec newIterator := fun _ => ⟨rfl, rfl⟩

/-- The fields of a document behind the assignments. -/
def assignPairs (doc : Json) (pairs : List (String × String)) : Json :=
  pairs.foldl (fun doc e => doc.set e.1 (.string e.2)) doc

omit [JsonAccess] [JsonWriter] in
/-- With a value for every parameter the walk makes the assignments of the pairs. -/
theorem pairParams_eq {params values : List String} (h : params.length ≤ values.length) (doc : Json) :
    pairParams doc params values = .ok (assignPairs doc (params.zip values)) := by
  induction params generalizing values doc with
  | nil => rfl
  | cons p params ih =>
    cases values with
    | nil => cases h
    | cons v values => exact ih (Nat.le_of_succ_le_succ h) _

/-- What `init_data` does for an index, whatever iterator it does it to. -/
def Builds (spec : DatasetSpec) (idx : ℤ) (item : Item) : Prop :=
  ∀ i, Bare spec i →
    ∃ j, initData spec i idx = .ok j ∧ j.curidx = i.curidx ∧ j.item = item ∧ Bare spec j

/-- An item that is a key and a value. -/
theorem builds_of_keyValue {idx : ℤ} (key value : String)
    (hspec : ∀ s, spec = .sd s → s.load = true)
    (h : ∀ i, initData spec i idx = .ok { i with curk := key, curv := value }) :
    Builds spec idx ⟨key, value, "", ""⟩ := by
  intro i hi
  obtain ⟨hp, hc⟩ := hi hspec
  exact ⟨_, h i, rfl, by simp only [DatasetIterator.item, hp, hc], hi⟩

/-- What `init_data` builds depends on the index alone. -/
theorem exists_builds (hinline : ∀ items, spec ≠ .inline items)
    (hpairs : ∀ s, spec = .n1ql s → s.params.length ≤ s.paramValues.length) (idx : ℤ) :
    ∃ item, Builds spec idx item := by
  cases spec with
  | inline items => exact absurd rfl (hinline items)
  | n1ql s =>
    let doc := assignPairs (Json.null.set "id" (.string (toString idx))) (s.params.zip s.paramValues)
    refine ⟨_, builds_of_keyValue (asString (doc.get "id")) (JsonWriter.write doc)
      (fun _ h => by cases h) fun i => ?_⟩
    simp only [initData, pairParams_eq (hpairs s rfl), doc]
  | sd s =>
    cases hload : s.load with
    | true =>
      refine ⟨_, builds_of_keyValue (toString idx) (stripRendering (JsonWriter.write s.doc))
        (fun _ h => by cases h; exact hload) fun i => ?_⟩
      simp only [initData, hload, if_true]
    | false =>
      refine ⟨⟨toString idx, s.value, s.path, s.command⟩, fun i _ => ?_⟩
      refine ⟨{ i with curp := s.path, curv := s.value, curc := s.command, curk := toString idx },
        ?_, rfl, rfl, fun hno => ?_⟩
      · simp only [initData, hload, Bool.false_eq_true, if_false]
      · rw [hno s rfl] at hload
        cases hload
  | seeded s => exact ⟨_, builds_of_keyValue _ _ (fun _ h => by cases h) fun _ => rfl⟩
  | fts count | cbas count => exact ⟨_, builds_of_keyValue _ _ (fun _ h => by cases h) fun _ => rfl⟩

/-! ## The walk -/

/-- Where an iterator stands after `k` steps. -/
def indexAt (spec : DatasetSpec) (k : ℕ) : ℕ :=
  match continuousCount spec with
  | some count => k % count
  | none => k

omit [JsonAccess] [JsonWriter] in
/-- A bound to wrap around at is the count. -/
theorem continuousCount_eq {n : ℕ} (h : continuousCount spec = some n) : n = getCount spec := by
  cases spec with
  | seeded s | n1ql s | sd s =>
    simp only [continuousCount, Option.ite_none_right_eq_some, Option.some.injEq] at h
    exact h.2.symm
  | inline items | fts count | cbas count => cases h

omit [JsonAccess] [JsonWriter] in
/-- `advance` moves on by one, and a continuous iterator from the last item to the first. The index does not
wrap around at `2 ^ 32`. -/
theorem nextIndex_indexAt {k : ℕ} (hcount : getCount spec < 2 ^ 32) (hpos : 0 < getCount spec)
    (hk : continuousCount spec = none → k < getCount spec) :
    nextIndex spec (indexAt spec k) = indexAt spec (k + 1) := by
  unfold nextIndex indexAt
  cases hcont : continuousCount spec with
  | none =>
    have hlt := hk hcont
    show (k + 1) % 2 ^ 32 = k + 1
    exact Nat.mod_eq_of_lt (by omega)
  | some n =>
    obtain rfl := continuousCount_eq hcont
    have hlt := Nat.mod_lt k hpos
    have hnowrap : (k % getCount spec + 1) % 2 ^ 32 = k % getCount spec + 1 :=
      Nat.mod_eq_of_lt (by omega)
    dsimp only
    rw [hnowrap, ← Nat.mod_add_mod k]
    split_ifs with hend
    · rw [show k % getCount spec + 1 = getCount spec by omega, Nat.mod_self]
    · exact (Nat.mod_eq_of_lt (Nat.lt_of_not_le hend)).symm

theorem advance_eq (ds : Dataset) (i : DatasetIterator) :
    ds.getIter.advance i = seek ds.spec i (nextIndex ds.spec i.curidx) := rfl

/-- The iterator stands at an index and shows the item built for it. -/
structure Stands (ds : Dataset) (item : ℤ → Item) (k : ℕ) (i : DatasetIterator) : Prop where
  index : i.curidx = k
  item : i.item = item ((k : ℤ).bmod (2 ^ 32))
  bare : Bare ds.spec i

theorem stands_of_seek {item : ℤ → Item} (hitem : ∀ idx, Builds ds.spec idx (item idx))
    (hi : Bare ds.spec i) (k : ℕ) : ∃ j, seek ds.spec i k = .ok j ∧ Stands ds item k j := by
  obtain ⟨j, hok, hidx, hshown, hbare⟩ := hitem ((k : ℤ).bmod (2 ^ 32)) { i with curidx := k } hi
  exact ⟨j, hok, hidx, hshown, hbare⟩

/-- However it has been used, an iterator can be started again. -/
theorem Used.bare {item : ℤ → Item} (hitem : ∀ idx, Builds ds.spec idx (item idx)) (h : Used ds i) :
    Bare ds.spec i := by
  induction h with
  | new => exact bare_new
  | start _ hj ih =>
    obtain ⟨j', hj', hstands⟩ := stands_of_seek hitem ih 0
    obtain rfl := Except.ok.inj (hj.symm.trans hj')
    exact hstands.bare
  | @advance i _ _ hj ih =>
    obtain ⟨j', hj', hstands⟩ := stands_of_seek hitem ih (nextIndex ds.spec i.curidx)
    obtain rfl := Except.ok.inj (hj.symm.trans hj')
    exact hstands.bare

/-- One round of the loop. -/
theorem steps_indexAt {item : ℤ → Item} (hitem : ∀ idx, Builds ds.spec idx (item idx)) {k : ℕ}
    (hcount : getCount ds.spec < 2 ^ 32) (hpos : 0 < getCount ds.spec)
    (hk : continuousCount ds.spec = none → k < getCount ds.spec) :
    Iterate.Steps ds.getIter.done ds.getIter.advance ds.getIter.current
      (fun k => Stands ds item (indexAt ds.spec k))
      (fun k => item ((indexAt ds.spec k : ℤ).bmod (2 ^ 32))) k where
  more := by
    intro i hi
    show done ds.spec i = false
    unfold done
    cases hcont : continuousCount ds.spec with
    | none =>
      have hlt := hk hcont
      have hidx := hi.index
      simp only [indexAt, hcont] at hidx
      simp [hidx, hlt]
    | some n => rfl
  use := fun i hi => hi.item
  advance := by
    intro i hi
    obtain ⟨j, hok, hj⟩ := stands_of_seek hitem hi.bare (indexAt ds.spec (k + 1))
    refine ⟨j, ?_, hj⟩
    rw [advance_eq, hi.index, nextIndex_indexAt hcount hpos hk, hok]

/-- An iterator that is started stands at the first index. -/
theorem start_stands {item : ℤ → Item} (hitem : ∀ idx, Builds ds.spec idx (item idx)) (hi : Used ds i) :
    ∃ j, ds.getIter.start i = .ok j ∧ Stands ds item (indexAt ds.spec 0) j := by
  obtain ⟨j, hstart, hj⟩ := stands_of_seek hitem (hi.bare hitem) 0
  have hzero : indexAt ds.spec 0 = 0 := by
    unfold indexAt
    split
    · exact Nat.zero_mod _
    · rfl
  exact ⟨j, hstart, by rwa [hzero]⟩

/-- The loop over a dataset that is not continuous ends behind the count. -/
theorem loop_of_finite {item : ℤ → Item} (hitem : ∀ idx, Builds ds.spec idx (item idx))
    (hi : Used ds i) (hcount : getCount ds.spec < 2 ^ 32) (hpos : 0 < getCount ds.spec)
    (hcont : continuousCount ds.spec = none) {fuel : ℕ} (hfuel : getCount ds.spec ≤ fuel) :
    ds.getIter.loop fuel i =
      .ok ((List.range (getCount ds.spec)).map fun k : ℕ => item ((k : ℤ).bmod (2 ^ 32)), true) := by
  obtain ⟨j, hstart, hj⟩ := start_stands hitem hi
  have hindex : ∀ k, indexAt ds.spec k = k := fun k => by simp only [indexAt, hcont]
  have hend : ∀ i, Stands ds item (indexAt ds.spec (getCount ds.spec)) i →
      ds.getIter.done i = true := by
    intro i hi
    have hidx := hi.index
    rw [hindex] at hidx
    simp [getIter, done, hcont, hidx]
  have hloop := Iterate.collect_ended
    (fun k hk => steps_indexAt hitem hcount hpos fun _ => hk) hend hj hfuel
  simp only [hindex] at hloop
  rw [IterOps.loop, hstart]
  exact hloop

/-- The one over a continuous dataset starts again. -/
theorem loop_of_continuous {item : ℤ → Item} (hitem : ∀ idx, Builds ds.spec idx (item idx))
    (hi : Used ds i) (hcount : getCount ds.spec < 2 ^ 32) (hpos : 0 < getCount ds.spec)
    (hcont : continuousCount ds.spec ≠ none) (fuel : ℕ) :
    ds.getIter.loop fuel i = .ok ((List.range fuel).map fun k =>
      item (((k % getCount ds.spec : ℕ) : ℤ).bmod (2 ^ 32)), false) := by
  obtain ⟨j, hstart, hj⟩ := start_stands hitem hi
  obtain ⟨n, hn⟩ := Option.ne_none_iff_exists'.mp hcont
  have hindex : ∀ k, indexAt ds.spec k = k % getCount ds.spec := fun k => by
    simp only [indexAt, hn, continuousCount_eq hn]
  have hloop := Iterate.collect_endless
    (fun k => steps_indexAt hitem hcount hpos fun hno => absurd hno hcont) hj fuel
  simp only [hindex] at hloop
  rw [IterOps.loop, hstart]
  exact hloop

/-- **The iteration law.** For a dataset other than an inline one whose specification is accepted, with a value
for every parameter, `init_data` builds one item for each index. The loop over an iterator, used before or
not, is shown those of the indices below the count in their order and then ends, or it is shown them again and
again if the dataset is continuous. -/
theorem iteration_law (ds : Dataset) (hinline : ∀ items, ds.spec ≠ .inline items)
    (haccepted : (verifySpec ds.spec).isSet = false) (hcount : getCount ds.spec < 2 ^ 32)
    (hpairs : ∀ s, ds.spec = .n1ql s → s.params.length = s.paramValues.length) :
    ∃ item : ℕ → Item, (∀ k, itemFor ds k = .ok (item k)) ∧ ∀ i, Used ds i →
      (continuousCount ds.spec = none → ∀ fuel, getCount ds.spec ≤ fuel →
        ds.getIter.loop fuel i = .ok ((List.range (getCount ds.spec)).map item, true)) ∧
      (continuousCount ds.spec ≠ none → ∀ fuel, ds.getIter.loop fuel i =
        .ok ((List.range fuel).map fun k => item (k % getCount ds.spec), false)) := by
  have hexists := exists_builds hinline (fun s hs => (hpairs s hs).le)
  choose built hbuilt using hexists
  have hpos := count_pos_of_verifySpec hinline haccepted
  refine ⟨fun k => built ((k : ℤ).bmod (2 ^ 32)), fun k => ?_, fun i hi => ?_⟩
  · obtain ⟨j, hj, -, hitem, -⟩ := hbuilt ((k : ℤ).bmod (2 ^ 32)) newIterator bare_new
    rw [itemFor, hj]
    exact congrArg Except.ok hitem
  exact ⟨fun hcont fuel hfuel => loop_of_finite hbuilt hi hcount hpos hcont hfuel,
    fun hcont fuel => loop_of_continuous hbuilt hi hcount hpos hcont fuel⟩

end Walk

section Examples

/-- Three documents with two fields each. -/
def threeDocuments : Dataset := ⟨.success, .n1ql ⟨["name", "city"], ["ann", "oslo"], false, 3⟩⟩

theorem iteration_law_documents :
    letI := JsonAccess.plain
    letI := JsonWriter.compact
    ∃ item : ℕ → Item, (∀ k, itemFor threeDocuments k = .ok (item k)) ∧ ∀ i, Used threeDocuments i →
      (continuousCount threeDocuments.spec = none → ∀ fuel, 3 ≤ fuel →
        threeDocuments.getIter.loop fuel i = .ok ((List.range 3).map item, true)) ∧
      (continuousCount threeDocuments.spec ≠ none → ∀ fuel, threeDocuments.getIter.loop fuel i =
        .ok ((List.range fuel).map fun k => item (k % 3), false)) :=
  letI := JsonAccess.plain
  letI := JsonWriter.compact
  iteration_law threeDocuments (fun _ h => by cases h) rfl (by decide) (fun _ h => by cases h; rfl)

end Examples

end Dataset

end Sdkd
