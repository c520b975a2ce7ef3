import Sdkd.Iteration

/-!
# Items of inline datasets

The loop over an inline dataset whose elements are pairs of a key and a value, or keys alone. `init_data`
leaves the value as it was when it comes to a key alone.

## Main definitions

- `InlineElement` — an element of `Items`
- `lastValue` — the value a walk over some elements leaves behind

## Main results

- `inline_enumerates_iff` — when the loop is shown the elements, and of each no more than it says
-/

namespace Sdkd

/-- An element of `Items`: `[key, value]`, or a key. -/
inductive InlineElement where
  | pair (key value : String)
  | bare (key : String)
  deriving DecidableEq

namespace InlineElement

def toJson : InlineElement → Json
  | pair key value => .array [.string key, .string value]
  | bare key => .string key

/-- The key and the value of an element alone. -/
def item : InlineElement → Item
  | pair key value => ⟨key, value, "", ""⟩
  | bare key => ⟨key, "", "", ""⟩

/-- The value behind an element, where `value` is the one before it. -/
def carry (value : String) : InlineElement → String
  | pair _ value' => value'
  | bare _ => value

end InlineElement

/-- The value a walk over the elements leaves behind: that of their last pair. -/
def lastValue (elems : List InlineElement) : String := elems.foldl InlineElement.carry ""

theorem lastValue_take_succ {elems : List InlineElement} {k : ℕ} {e : InlineElement}
    (h : elems[k]? = some e) :
    lastValue (elems.take (k + 1)) = e.carry (lastValue (elems.take k)) := by
  rw [lastValue, List.take_add_one, h, List.foldl_append]
  rfl

theorem lastValue_take_of_le {elems : List InlineElement} {k : ℕ} (h : elems.length ≤ k) :
    lastValue (elems.take (k + 1)) = lastValue (elems.take k) := by
  rw [List.take_of_length_le h, List.take_of_length_le (by omega)]

namespace Dataset

/-- The dataset of the elements. -/
def ofElements (elems : List InlineElement) : Dataset :=
  ⟨.success, .inline (.array (elems.map InlineElement.toJson))⟩

/-- The item the loop is shown at an index. -/
def shownAt (elems : List InlineElement) (k : ℕ) : Item :=
  match elems[k]? with
  | some e => ⟨e.item.key, lastValue (elems.take (k + 1)), "", ""⟩
  | none => ⟨"", "", "", ""⟩

section Walk

variable [JsonAccess] [JsonWriter] {elems : List InlineElement} {i : DatasetIterator} {k : ℕ}

/-- The iterator stands at the index `k`. Behind the last element its key is no element's. -/
structure StandsInline (elems : List InlineElement) (k : ℕ) (i : DatasetIterator) : Prop where
  index : i.curidx = k
  key : ∀ e ∈ elems[k]?, i.curk = e.item.key
  value : i.curv = lastValue (elems.take (k + 1))
  path : i.curp = ""
  command : i.curc = ""

/-- An index that is an `int` is sought in the array. -/
theorem seek_inline (hk : k < 2 ^ 31) (hvalue : i.curv = lastValue (elems.take k)) (hpath : i.curp = "")
    (hcommand : i.curc = "") :
    ∃ j, seek (ofElements elems).spec i k = .ok j ∧ StandsInline elems k j := by
  have hidx : (k : ℤ).bmod (2 ^ 32) = k := by
    rw [Int.bmod_eq_of_le] <;> omega
  have helem : (Json.array (elems.map InlineElement.toJson)).index k =
      ((elems[k]?).map InlineElement.toJson).getD .null := by
    simp [Json.index]
  unfold seek initData ofElements
  dsimp only
  rw [hidx, if_neg (by omega), helem]
  cases hget : elems[k]? with
  | none =>
    refine ⟨_, rfl, rfl, by simp [hget], ?_, hpath, hcommand⟩
    rw [lastValue_take_of_le (List.getElem?_eq_none_iff.mp hget)]
    exact hvalue
  | some e =>
    have hkey : ∀ e' ∈ elems[k]?, e' = e := fun e' he' => Option.some.inj (he'.symm.trans hget)
    cases e with
    | pair key value =>
      refine ⟨_, rfl, rfl, fun e' he' => ?_, ?_, hpath, hcommand⟩
      · rw [hkey e' he']
        exact JsonAccess.asString_string key
      · rw [lastValue_take_succ hget]
        exact JsonAccess.asString_string value
    | bare key =>
      refine ⟨_, rfl, rfl, fun e' he' => ?_, ?_, hpath, hcommand⟩
      · rw [hkey e' he']
        exact JsonAccess.asString_string key
      · rw [lastValue_take_succ hget]
        exact hvalue

/-- An index that is no `int` is negative. -/
theorem seek_inline_error (hk : 2 ^ 31 ≤ k) (hlt : k < 2 ^ 32) (i : DatasetIterator) :
    seek (ofElements elems).spec i k = .error .assertion := by
  have hidx : (k : ℤ).bmod (2 ^ 32) < 0 := by
    rw [Int.bmod_def]
    split_ifs <;> omega
  unfold seek initData ofElements
  dsimp only
  rw [if_pos hidx]

theorem done_inline (hi : StandsInline elems k i) :
    (ofElements elems).getIter.done i = decide (elems.length ≤ k) := by
  show decide (((elems.map InlineElement.toJson).length) ≤ i.curidx) = _
  rw [hi.index, List.length_map]

omit [JsonAccess] [JsonWriter] in
theorem nextIndex_inline (l : List InlineElement) (hint : k + 1 < 2 ^ 32) :
    nextIndex (ofElements l).spec k = k + 1 := by
  unfold nextIndex ofElements continuousCount
  exact Nat.mod_eq_of_lt hint

/-- One round of the loop, where the next index is an `int`. -/
theorem steps_inline (hk : k < elems.length) (hint : k + 1 < 2 ^ 31) :
    Iterate.Steps (ofElements elems).getIter.done (ofElements elems).getIter.advance
      (ofElements elems).getIter.current (StandsInline elems) (shownAt elems) k where
  more := by
    intro i hi
    rw [done_inline hi]
    exact decide_eq_false (by omega)
  use := by
    intro i hi
    have hget := List.getElem?_eq_getElem hk
    show (⟨i.curk, i.curv, i.curp, i.curc⟩ : Item) = shownAt elems k
    rw [shownAt, hget, hi.key _ hget, hi.value, hi.path, hi.command]
  advance := by
    intro i hi
    obtain ⟨j, hok, hj⟩ := seek_inline hint hi.value hi.path hi.command
    refine ⟨j, ?_, hj⟩
    rw [advance_eq, hi.index, nextIndex_inline elems (by omega), hok]

theorem start_inline (elems : List InlineElement) :
    ∃ j, (ofElements elems).getIter.start newIterator = .ok j ∧ StandsInline elems 0 j := by
  have hlast : newIterator.curv = lastValue (elems.take 0) := rfl
  obtain ⟨j, hok, hj⟩ := seek_inline (k := 0) (by decide) hlast rfl rfl
  exact ⟨j, hok, hj⟩

/-- The loop over fewer than `2 ^ 31` elements. -/
theorem loop_inline (hint : elems.length < 2 ^ 31) {fuel : ℕ} (hfuel : elems.length ≤ fuel) :
    (ofElements elems).getIter.loop fuel newIterator =
      .ok ((List.range elems.length).map (shownAt elems), true) := by
  obtain ⟨j, hstart, hj⟩ := start_inline elems
  rw [IterOps.loop, hstart]
  refine Iterate.collect_ended (fun k hk => steps_inline hk (by omega)) (fun i hi => ?_) hj hfuel
  rw [done_inline hi]
  exact decide_eq_true le_rfl

/-- The loop over `2 ^ 31` elements or more. -/
theorem loop_inline_error (hint : 2 ^ 31 ≤ elems.length) :
    (ofElements elems).getIter.loop elems.length newIterator = .error .assertion := by
  obtain ⟨j, hstart, hj⟩ := start_inline elems
  obtain ⟨rest, hrest⟩ := Nat.exists_eq_add_of_le (show (2 ^ 31 - 1) + 1 ≤ elems.length by omega)
  rw [Nat.add_assoc, Nat.add_comm 1] at hrest
  obtain ⟨last, hlast, heq⟩ := Iterate.collect_add (P := StandsInline elems) (k := 0)
    (r := 2 ^ 31 - 1) (fun l _ hl => steps_inline (by omega) (by omega)) hj (rest + 1)
  rw [IterOps.loop, hstart]
  dsimp only
  -- the last index that is an `int` is not the last one
  have hmore : (ofElements elems).getIter.done last = false := by
    rw [done_inline hlast]
    exact decide_eq_false (by omega)
  have hadvance : (ofElements elems).getIter.advance last = .error .assertion := by
    rw [advance_eq, hlast.index, nextIndex_inline elems (by omega)]
    exact seek_inline_error (by omega) (by omega) last
  rw [hrest, heq, Iterate.collect, hmore, if_neg Bool.false_ne_true, hadvance]
  rfl

/-- The loop ends and is shown the key and the value of each element alone. -/
def Enumerates (elems : List InlineElement) : Prop :=
  ∀ fuel, elems.length ≤ fuel →
    (ofElements elems).getIter.loop fuel newIterator = .ok (elems.map InlineElement.item, true)

/-- The indices of the elements and of the end are `int`s, and no value stands in front of a key alone. -/
def Separable (elems : List InlineElement) : Prop :=
  elems.length < 2 ^ 31 ∧
    ∀ k key, elems[k]? = some (.bare key) → lastValue (elems.take k) = ""

omit [JsonAccess] [JsonWriter] in
/-- What is shown of an element is the element alone, or it has no value and follows one. -/
theorem shownAt_eq_iff {e : InlineElement} (hget : elems[k]? = some e) :
    shownAt elems k = e.item ↔ ∀ key, e = .bare key → lastValue (elems.take k) = "" := by
  rw [shownAt, hget]
  dsimp only
  rw [lastValue_take_succ hget]
  cases e with
  | pair key value => simp [InlineElement.item, InlineElement.carry]
  | bare key => simp [InlineElement.item, InlineElement.carry]

omit [JsonAccess] [JsonWriter] in
theorem shown_eq_iff (hint : elems.length < 2 ^ 31) :
    (List.range elems.length).map (shownAt elems) = elems.map InlineElement.item ↔
      Separable elems := by
  rw [List.map_eq_iff]
  constructor
  · refine fun h => ⟨hint, fun k key hget => ?_⟩
    have hlt := (List.getElem?_eq_some_iff.mp hget).1
    have hk := h k
    rw [List.getElem?_map, hget, List.getElem?_range hlt] at hk
    exact (shownAt_eq_iff hget).mp (Option.some.inj hk).symm key rfl
  · rintro ⟨-, h⟩ k
    rw [List.getElem?_map]
    cases hget : elems[k]? with
    | none =>
      have hle := List.getElem?_eq_none_iff.mp hget
      rw [List.getElem?_eq_none (by rwa [List.length_range])]
      rfl
    | some e =>
      have hlt := (List.getElem?_eq_some_iff.mp hget).1
      rw [List.getElem?_range hlt]
      refine congrArg some ((shownAt_eq_iff hget).mpr ?_).symm
      rintro key rfl
      exact h k key hget

/-- **Inline enumeration.** The loop over an inline dataset is shown each element alone if and only if there
are fewer than `2 ^ 31` of them and no value stands in front of a key alone. -/
theorem inline_enumerates_iff (elems : List InlineElement) : Enumerates elems ↔ Separable elems := by
  by_cases hint : elems.length < 2 ^ 31
  · rw [← shown_eq_iff hint]
    constructor
    · intro h
      have hloop := h elems.length le_rfl
      rw [loop_inline hint le_rfl] at hloop
      exact (Prod.mk.inj (Except.ok.inj hloop)).1
    · intro heq fuel hfuel
      rw [loop_inline hint hfuel, heq]
  · refine iff_of_false (fun h => ?_) (fun h => hint h.1)
    have hloop := h elems.length le_rfl
    rw [loop_inline_error (by omega)] at hloop
    cases hloop

end Walk

section Examples

/-- A key alone behind a pair. -/
def pairThenBare : List InlineElement := [.pair "key1" "value1", .bare "key2"]

/-- The key alone is shown with the value of the pair. -/
theorem pairThenBare_not_enumerated :
    letI := JsonAccess.plain
    letI := JsonWriter.compact
    (ofElements pairThenBare).getIter.loop 2 newIterator =
      .ok ([⟨"key1", "value1", "", ""⟩, ⟨"key2", "value1", "", ""⟩], true) ∧
    ¬ Enumerates pairThenBare := by
  have hloop := @loop_inline JsonAccess.plain JsonWriter.compact pairThenBare (by decide) 2 le_rfl
  refine ⟨hloop, fun h => ?_⟩
  have heq := Except.ok.inj (hloop.symm.trans (h 2 le_rfl))
  exact absurd (congrArg Prod.fst heq) (by decide)

end Examples

end Dataset

end Sdkd
