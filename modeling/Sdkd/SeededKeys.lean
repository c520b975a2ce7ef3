import Mathlib.Data.List.Nodup
import Sdkd.Iteration
import Sdkd.Lib.Fallible
import Sdkd.Lib.Words

/-!
# Seeded keys

The keys and values of a seeded dataset, which `_fill_repeat` makes from a seed and a text that ends in the
index of the item.

## Main definitions

- `SizeBound` — the text is as long as its size asks for, and not much longer
- `SizeGiven` — the size is not zero, or the text is long anyway

## Main results

- `seeded_distinct` — with a character in `Repeat` that is no digit, the items have different keys and values
- `seeded_sizeBound_iff` — when their sizes are bounded
-/

namespace Sdkd

namespace Dataset

/-! ## The loop of `_fill_repeat` -/

section Fill

variable {ext result seed repeatText : String} {bound limit idx : ℕ}

/-- What the loop appends is a power of the text it repeats. -/
theorem fillLoop_eq (ext : String) (bound : ℕ) (result : String) :
    ∃ n, (fillLoop ext bound result).toList =
      result.toList ++ (List.replicate n ext.toList).flatten := by
  fun_induction fillLoop ext bound result with
  | case1 result hlt ih =>
    obtain ⟨n, hn⟩ := ih
    refine ⟨n + 1, ?_⟩
    rw [hn, String.toList_append, List.append_assoc, List.replicate_succ, List.flatten_cons]
  | case2 result hge => exact ⟨0, by simp⟩

/-- The loop goes on until the bound is reached, and no further. -/
theorem fillLoop_length (hext : 0 < ext.length) (bound : ℕ) (result : String) :
    bound ≤ (fillLoop ext bound result).length ∧
    ((fillLoop ext bound result).length = result.length ∨
      (result.length < bound ∧ (fillLoop ext bound result).length < bound + ext.length)) := by
  fun_induction fillLoop ext bound result with
  | case1 result hlt ih =>
    rw [String.length_append] at ih
    omega
  | case2 result hge => omega

/-- The text that is repeated is not empty, for it ends in the index. -/
theorem repeatExt_pos (repeatText : String) (idx : ℕ) : 0 < (repeatText ++ toString idx).length := by
  have hne : (toString idx).length ≠ 0 := by
    intro hzero
    have hnil : Nat.toDigits 10 idx = [] := by
      rw [← Nat.toList_repr, ← List.length_eq_zero_iff, String.length_toList]
      exact hzero
    exact Nat.toDigits_ne_nil hnil
  rw [String.length_append]
  omega

theorem fillRepeat_eq (seed : String) (limit : ℕ) (repeatText : String) (idx : ℕ) :
    ∃ n, (fillRepeat seed limit repeatText idx).toList = seed.toList ++
      (List.replicate (n + 1) (repeatText.toList ++ (toString idx).toList)).flatten := by
  obtain ⟨n, hn⟩ := fillLoop_eq (repeatText ++ toString idx) ((limit + (2 ^ 32 - 1)) % 2 ^ 32)
    (seed ++ (repeatText ++ toString idx))
  refine ⟨n, ?_⟩
  rw [fillRepeat, hn, String.toList_append, String.toList_append, List.append_assoc,
    List.replicate_succ, List.flatten_cons]

/-! ## Different indices -/

/-- Texts made from the same seed for different indices differ, however long they are: they end in
different digits. -/
theorem fillRepeat_inj {i j : ℕ} (hrepeat : ∃ c ∈ repeatText.toList, c.isDigit = false)
    (h : fillRepeat seed limit repeatText i = fillRepeat seed limit repeatText j) : i = j := by
  obtain ⟨m, hm⟩ := fillRepeat_eq seed limit repeatText i
  obtain ⟨n, hn⟩ := fillRepeat_eq seed limit repeatText j
  rw [h, hn] at hm
  have hpowers := List.append_cancel_left hm
  exact (Words.toString_inj (Words.eq_of_powers_eq hrepeat (Words.toString_digits j)
    (Words.toString_digits i) hpowers)).symm

/-! ## Sizes -/

/-- The text starts with its seed and one copy of what is repeated, has all but one of the characters its size
asks for, and no more than what a last copy adds to one character less. -/
structure SizeBound (seed ext : String) (limit : ℕ) (text : String) : Prop where
  starts : (seed ++ ext).toList <+: text.toList
  lower : (limit : ℤ) - 1 ≤ text.length
  upper : (text.length : ℤ) ≤ max (seed.length + ext.length : ℤ) (limit - 2 + ext.length)

/-- The size is not zero, or the text has the length a size of zero asks for in unsigned arithmetic without
being repeated. -/
def SizeGiven (seed ext : String) (limit : ℕ) : Prop :=
  0 < limit ∨ 2 ^ 32 - 1 ≤ seed.length + ext.length

theorem fillRepeat_length (seed : String) (limit : ℕ) (repeatText : String) (idx : ℕ) :
    (limit + (2 ^ 32 - 1)) % 2 ^ 32 ≤ (fillRepeat seed limit repeatText idx).length ∧
    ((fillRepeat seed limit repeatText idx).length =
        seed.length + (repeatText ++ toString idx).length ∨
      (seed.length + (repeatText ++ toString idx).length < (limit + (2 ^ 32 - 1)) % 2 ^ 32 ∧
        (fillRepeat seed limit repeatText idx).length <
          (limit + (2 ^ 32 - 1)) % 2 ^ 32 + (repeatText ++ toString idx).length)) := by
  have hbounds := fillLoop_length (repeatExt_pos repeatText idx) ((limit + (2 ^ 32 - 1)) % 2 ^ 32)
    (seed ++ (repeatText ++ toString idx))
  rwa [String.length_append] at hbounds

theorem fillRepeat_starts (seed : String) (limit : ℕ) (repeatText : String) (idx : ℕ) :
    (seed ++ (repeatText ++ toString idx)).toList <+:
      (fillRepeat seed limit repeatText idx).toList := by
  obtain ⟨n, hn⟩ := fillLoop_eq (repeatText ++ toString idx) ((limit + (2 ^ 32 - 1)) % 2 ^ 32)
    (seed ++ (repeatText ++ toString idx))
  exact ⟨_, hn.symm⟩

theorem fillRepeat_sizeBound_iff (hlimit : limit < 2 ^ 32) :
    SizeBound seed (repeatText ++ toString idx) limit (fillRepeat seed limit repeatText idx) ↔
    SizeGiven seed (repeatText ++ toString idx) limit := by
  have hext := repeatExt_pos repeatText idx
  obtain ⟨hlower, hupper⟩ := fillRepeat_length seed limit repeatText idx
  unfold SizeGiven
  constructor
  · intro hbound
    have hle := hbound.upper
    omega
  · intro hgiven
    exact ⟨fillRepeat_starts seed limit repeatText idx, by omega, by omega⟩

end Fill

/-! ## The items -/

/-- The key and the value of an index. -/
def seededItem (s : DatasetSeedSpecification) (k : ℕ) : Item where
  key := fillRepeat s.kseed s.ksize s.repeatText k
  value := fillRepeat s.vseed s.vsize s.repeatText k
  path := ""
  command := ""

section Items

variable [JsonAccess] [JsonWriter] {ds : Dataset} {s : DatasetSeedSpecification}

/-- An index handed over as an `int` is taken back as an `unsigned int`. -/
theorem initData_seeded (it : DatasetIterator) {idx : ℤ} {k : ℕ} (h : idx % 2 ^ 32 = k) :
    initData (.seeded s) it idx = .ok { it with
      curk := fillRepeat s.kseed s.ksize s.repeatText k
      curv := fillRepeat s.vseed s.vsize s.repeatText k } := by
  rw [initData, h, Int.toNat_natCast]

theorem itemFor_seeded (hds : ds.spec = .seeded s) {k : ℕ} (hk : k < 2 ^ 32) :
    itemFor ds k = .ok (seededItem s k) := by
  have hmod : ((k : ℤ).bmod (2 ^ 32)) % 2 ^ 32 = k := by
    rw [Int.bmod_def]
    split_ifs <;> omega
  rw [itemFor, hds, initData_seeded _ hmod]
  rfl

omit [JsonAccess] [JsonWriter] in
/-- With a character that is no digit, the index can be told from the key, and from the value. -/
theorem seededItem_inj {i j : ℕ} (hrepeat : ∃ c ∈ s.repeatText.toList, c.isDigit = false)
    (h : (seededItem s i).key = (seededItem s j).key ∨
      (seededItem s i).value = (seededItem s j).value) : i = j := by
  simp only [seededItem] at h
  rcases h with hkey | hvalue
  · exact fillRepeat_inj hrepeat hkey
  · exact fillRepeat_inj hrepeat hvalue

/-- **Seeded keys do not collide.** Two items have the same key or the same value only if `Repeat` is made of
digits; otherwise there are as many keys, and as many values, as the count says. -/
theorem seeded_distinct (ds : Dataset) (s : DatasetSeedSpecification) (hds : ds.spec = .seeded s)
    (hcount : s.count < 2 ^ 32) :
    (∀ i j a b, i < s.count → j < s.count → i ≠ j → itemFor ds i = .ok a → itemFor ds j = .ok b →
      a.key = b.key ∨ a.value = b.value → ∀ c ∈ s.repeatText.toList, c.isDigit = true) ∧
    ((∃ c ∈ s.repeatText.toList, c.isDigit = false) → ∃ items,
      (List.range s.count).mapM (itemFor ds) = .ok items ∧ items.length = s.count ∧
      (items.map (·.key)).Nodup ∧ (items.map (·.value)).Nodup) := by
  have hitem : ∀ k < s.count, itemFor ds k = .ok (seededItem s k) :=
    fun k hk => itemFor_seeded hds (hk.trans hcount)
  refine ⟨fun i j a b hi hj hne ha hb heq => ?_, fun hrepeat => ?_⟩
  · obtain rfl := Except.ok.inj ((hitem i hi).symm.trans ha)
    obtain rfl := Except.ok.inj ((hitem j hj).symm.trans hb)
    by_contra hno
    push Not at hno
    have hrepeat : ∃ c ∈ s.repeatText.toList, c.isDigit = false := by simpa using hno
    exact hne (seededItem_inj hrepeat heq)
  · refine ⟨(List.range s.count).map (seededItem s), ?_, by simp, ?_, ?_⟩
    · exact Fallible.mapM_eq_ok fun k hk => hitem k (List.mem_range.mp hk)
    · rw [List.Nodup, List.pairwise_map, List.pairwise_map]
      exact List.nodup_range.imp fun hne h => hne (seededItem_inj hrepeat (.inl h))
    · rw [List.Nodup, List.pairwise_map, List.pairwise_map]
      exact List.nodup_range.imp fun hne h => hne (seededItem_inj hrepeat (.inr h))

/-- **The size of seeded keys.** The key of an item keeps to its size if and only if that is given, and so does
its value. -/
theorem seeded_sizeBound_iff (ds : Dataset) (s : DatasetSeedSpecification) (hds : ds.spec = .seeded s)
    (hksize : s.ksize < 2 ^ 32) (hvsize : s.vsize < 2 ^ 32) (k : ℕ) (hk : k < 2 ^ 32) :
    ∃ item, itemFor ds k = .ok item ∧
      (SizeBound s.kseed (s.repeatText ++ toString k) s.ksize item.key ↔
        SizeGiven s.kseed (s.repeatText ++ toString k) s.ksize) ∧
      (SizeBound s.vseed (s.repeatText ++ toString k) s.vsize item.value ↔
        SizeGiven s.vseed (s.repeatText ++ toString k) s.vsize) :=
  ⟨_, itemFor_seeded hds hk, fillRepeat_sizeBound_iff hksize, fillRepeat_sizeBound_iff hvsize⟩

end Items

section Examples

/-- A seeded dataset that does not say how long its values are. -/
def unsizedValues : DatasetSeedSpecification where
  count := 2
  ksize := 10
  vsize := 0
  continuous := false
  repeatText := "REP"
  kseed := "key"
  vseed := "value"

theorem seeded_distinct_unsizedValues :
    letI := JsonAccess.plain
    letI := JsonWriter.compact
    ∃ items, (List.range 2).mapM (itemFor ⟨.success, .seeded unsizedValues⟩) = .ok items ∧
      items.length = 2 ∧ (items.map (·.key)).Nodup ∧ (items.map (·.value)).Nodup :=
  letI := JsonAccess.plain
  letI := JsonWriter.compact
  (seeded_distinct ⟨.success, .seeded unsizedValues⟩ unsizedValues rfl (by decide)).2
    ⟨'R', by decide, by decide⟩

theorem seeded_sizeBound_iff_unsizedValues :
    letI := JsonAccess.plain
    letI := JsonWriter.compact
    ∃ item, itemFor ⟨.success, .seeded unsizedValues⟩ 1 = .ok item ∧
      (SizeBound "key" ("REP" ++ toString 1) 10 item.key ↔ SizeGiven "key" ("REP" ++ toString 1) 10) ∧
      (SizeBound "value" ("REP" ++ toString 1) 0 item.value ↔
        SizeGiven "value" ("REP" ++ toString 1) 0) :=
  letI := JsonAccess.plain
  letI := JsonWriter.compact
  seeded_sizeBound_iff _ unsizedValues rfl (by decide) (by decide) 1 (by decide)

/-- Values whose size is missing fill four gigabytes. -/
theorem unsizedValues_unbounded :
    letI := JsonAccess.plain
    letI := JsonWriter.compact
    seededOfJson (.object [("KSeed", .string "key"), ("VSeed", .string "value"),
      ("Repeat", .string "REP"), ("Count", .uint 2), ("KSize", .uint 10)]) =
        ⟨.success, .seeded unsizedValues⟩ ∧
    ∃ item, itemFor ⟨.success, .seeded unsizedValues⟩ 0 = .ok item ∧
      2 ^ 32 - 1 ≤ item.value.length ∧
      ¬ SizeBound "value" ("REP" ++ toString 0) 0 item.value := by
  refine ⟨rfl, seededItem unsizedValues 0, @itemFor_seeded JsonAccess.plain JsonWriter.compact _ _ rfl
    0 (by decide), ?_, fun hbound => ?_⟩
  · exact (fillRepeat_length "value" 0 "REP" 0).1
  · have hgiven := (fillRepeat_sizeBound_iff (by decide)).mp hbound
    rcases hgiven with hpos | hlong
    · exact absurd hpos (by decide)
    · exact absurd hlong (by decide)

end Examples

end Dataset

end Sdkd
