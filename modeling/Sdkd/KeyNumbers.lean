import Sdkd.Collections
import Sdkd.LoaderRuns
import Sdkd.OwnQueries
import Sdkd.SeededKeys

/-!
# The numbers in keys

A collection is looked up by the number at the end of a key. Which keys have one, and which of the keys that the
iterators and the queries make.

## Main definitions

- `Lookable` — nothing is read from the key, or a number can be
- `KeysLookable` — the condition for it on the specification of a dataset

## Main results

- `getCollection_ok_iff` — the keys that have a collection
- `Dataset.keysLookable_iff` — the datasets all of whose keys can be looked up
- `numbered_searchKey`, `lookable_iterationKey` — the keys of the queries
-/

namespace Sdkd

/-- The end of a key: its last three characters, or all of it where an `int` does not count them. -/
def numberPart (key : String) : List Char :=
  key.toList.drop (max 0 (toInt (toInt key.length - 3))).toNat

/-- A number can be read from the end of the key. -/
structure Numbered (key : String) : Prop where
  digit : ∃ c ∈ numberPart key, c.isDigit = true
  int : digitsValue ((numberPart key).filter Char.isDigit) < 2 ^ 31

def Lookable (key : String) : Prop := key = "" ∨ Numbered key

/-! ## Looking up -/

section Lookup

variable {o : HandleOptions} {key : String}

theorem takenDigits_eq (key : String) :
    HandleOptions.takenDigits key = (numberPart key).filter Char.isDigit := rfl

theorem takenDigits_ne_nil_iff :
    HandleOptions.takenDigits key ≠ [] ↔ ∃ c ∈ numberPart key, c.isDigit = true := by
  simp [takenDigits_eq]

theorem stoi_cons (c : Char) (cs : List Char) : HandleOptions.stoi (c :: cs) =
    if digitsValue (c :: cs) < 2 ^ 31 then some (digitsValue (c :: cs)) else none := rfl

/-- `std::stoi` returns a number. -/
theorem stoi_eq_some_iff {n : ℕ} : HandleOptions.stoi (HandleOptions.takenDigits key) = some n ↔
    Numbered key ∧ n = digitsValue (HandleOptions.takenDigits key) := by
  constructor
  · intro h
    have hne : HandleOptions.takenDigits key ≠ [] := by
      intro hnil
      rw [hnil] at h
      cases h
    cases hdigits : HandleOptions.takenDigits key with
    | nil => exact absurd hdigits hne
    | cons c cs =>
      rw [hdigits, stoi_cons] at h
      split_ifs at h with hlt
      refine ⟨⟨takenDigits_ne_nil_iff.mp hne, ?_⟩, (Option.some.inj h).symm⟩
      rw [← takenDigits_eq, hdigits]
      exact hlt
  · intro ⟨hnum, hn⟩
    have hne := takenDigits_ne_nil_iff.mpr hnum.digit
    have hlt := hnum.int
    rw [← takenDigits_eq] at hlt
    rw [hn]
    cases hdigits : HandleOptions.takenDigits key with
    | nil => exact absurd hdigits hne
    | cons c cs =>
      rw [hdigits] at hlt
      rw [stoi_cons, if_pos hlt]

/-- A key without a number ends the process. -/
theorem getCollection_of_not_lookable (huse : o.useCollections = true) (h : ¬ Lookable key) :
    o.getCollection key = .error .uncaughtException := by
  obtain ⟨hkey, hnum⟩ := not_or.mp h
  have hnone : HandleOptions.stoi (HandleOptions.takenDigits key) = none := by
    cases hstoi : HandleOptions.stoi (HandleOptions.takenDigits key) with
    | none => rfl
    | some n => exact absurd (stoi_eq_some_iff.mp hstoi).1 hnum
  unfold HandleOptions.getCollection
  rw [if_pos ⟨huse, hkey⟩, hnone]

theorem Lookable.getCollection_ne (h : Lookable key) :
    o.getCollection key ≠ .error .uncaughtException := by
  rcases h with rfl | hnum
  · simp [HandleOptions.getCollection]
  · unfold HandleOptions.getCollection
    rw [stoi_eq_some_iff.mpr ⟨hnum, rfl⟩]
    dsimp only
    split_ifs <;> simp

/-- With collections to choose from, the keys that have one are those that can be looked up. -/
theorem getCollection_ok_iff (huse : o.useCollections = true)
    (htotal : o.collections * o.scopes % 2 ^ 64 ≠ 0) :
    (∃ c, o.getCollection key = .ok c) ↔ Lookable key := by
  constructor
  · rintro ⟨c, hc⟩
    by_contra hno
    rw [getCollection_of_not_lookable huse hno] at hc
    cases hc
  · rintro (rfl | hnum)
    · exact ⟨_, if_neg (by simp)⟩
    · unfold HandleOptions.getCollection
      rw [stoi_eq_some_iff.mpr ⟨hnum, rfl⟩]
      dsimp only
      rw [if_neg htotal]
      split_ifs <;> exact ⟨_, rfl⟩

end Lookup

/-! ## Keys that end in a digit -/

/-- A key of a usual length has a number if there is a digit among its last three characters. -/
theorem numbered_iff_of_short {key : String} (h : key.length < 2 ^ 31) :
    Numbered key ↔ ∃ c ∈ key.toList.drop (key.length - 3), c.isDigit = true := by
  have hpart : numberPart key = key.toList.drop (key.length - 3) := by
    rw [numberPart, HandleOptions.start_of_short h]
  rw [← hpart]
  exact ⟨fun hnum => hnum.digit,
    fun hdigit => ⟨hdigit, (HandleOptions.takenDigits_lt h).trans (by decide)⟩⟩

/-- The last character is a digit. -/
def EndsInDigit (s : String) : Prop := ∃ front c, s.toList = front ++ [c] ∧ c.isDigit = true

theorem EndsInDigit.append {t : String} (h : EndsInDigit t) (s : String) : EndsInDigit (s ++ t) := by
  obtain ⟨front, c, ht, hc⟩ := h
  exact ⟨s.toList ++ front, c, by rw [String.toList_append, ht, List.append_assoc], hc⟩

theorem endsInDigit_nat (n : ℕ) : EndsInDigit (toString n) := by
  have hne : (toString n).toList ≠ [] := by
    intro hnil
    have hlen : (toString n).length = 0 := by rw [← String.length_toList, hnil, List.length_nil]
    exact Nat.length_repr_pos.ne' hlen
  exact ⟨_, _, (List.dropLast_append_getLast hne).symm,
    Words.toString_digits n _ (List.getLast_mem hne)⟩

theorem endsInDigit_int (x : ℤ) : EndsInDigit (toString x) := by
  cases x with
  | ofNat n => exact endsInDigit_nat n
  | negSucc n => exact (endsInDigit_nat (n + 1)).append "-"

theorem EndsInDigit.numbered {key : String} (h : EndsInDigit key) (hshort : key.length < 2 ^ 31) :
    Numbered key := by
  obtain ⟨front, c, hkey, hc⟩ := h
  refine (numbered_iff_of_short hshort).mpr ⟨c, ?_, hc⟩
  have hlen : key.length = front.length + 1 := by
    rw [← String.length_toList, hkey, List.length_append, List.length_singleton]
  rw [hkey, List.drop_append_of_le_length (by omega)]
  exact List.mem_append_right _ List.mem_cons_self

theorem length_nat_le {n k : ℕ} (hk : 0 < k) (h : n < 10 ^ k) : (toString n).length ≤ k :=
  (Nat.length_repr_le_iff hk).mpr h

/-- An `int` is written in a few characters. -/
theorem length_int_le (x : ℤ) (h : x.natAbs < 10 ^ 10) : (toString x).length ≤ 11 := by
  cases x with
  | ofNat n => exact (length_nat_le (by decide) h).trans (by decide)
  | negSucc n =>
    show ("-" ++ toString (n + 1)).length ≤ 11
    rw [String.length_append]
    have hle := length_nat_le (n := n + 1) (k := 10) (by decide) h
    have hsign : "-".length = 1 := rfl
    omega

theorem lookable_nat {n : ℕ} (h : n < 2 ^ 64) : Lookable (toString n) :=
  .inr ((endsInDigit_nat n).numbered
    ((length_nat_le (k := 20) (by decide) (h.trans (by decide))).trans_lt (by decide)))

theorem lookable_index (k : ℕ) : Lookable (toString (toInt k)) := by
  have habs : (toInt k).natAbs < 10 ^ 10 := by
    have hlo := Int.le_bmod (x := (k : ℤ)) (m := 2 ^ 32) (by decide)
    have hhi := Int.bmod_lt (x := (k : ℤ)) (m := 2 ^ 32) (by decide)
    simp only [toInt]
    omega
  exact .inr ((endsInDigit_int _).numbered ((length_int_le _ habs).trans_lt (by decide)))

/-! ## The keys of the datasets -/

namespace Dataset

theorem endsInDigit_fillRepeat (seed : String) (limit : ℕ) (repeatText : String) (idx : ℕ) :
    EndsInDigit (fillRepeat seed limit repeatText idx) := by
  obtain ⟨n, hn⟩ := fillRepeat_eq seed limit repeatText idx
  obtain ⟨front, c, hidx, hc⟩ := endsInDigit_nat idx
  refine ⟨seed.toList ++ (List.replicate n (repeatText.toList ++ (toString idx).toList)).flatten ++
    (repeatText.toList ++ front), c, ?_, hc⟩
  rw [hn, List.replicate_succ', List.flatten_append, List.flatten_singleton]
  simp only [hidx, List.append_assoc]

section Keys

variable [JsonAccess]

/-- The key of an element of an inline dataset. -/
def elementKey (items : Json) (idx : ℤ) : String :=
  let pair := items.index idx
  if pair.isArray then asString (pair.index 0) else asString pair

/-- The value the document of a N1QL dataset has for `id`, if its parameters give it one. -/
def namedKey (s : N1QLDatasetSpecification) : Option String :=
  Assignments.assigned (s.params.zip s.paramValues) "id"

/-- The key `init_data` builds for an index. -/
def keyAt (spec : DatasetSpec) (idx : ℤ) : String :=
  match spec with
  | .inline items => elementKey items idx
  | .seeded s => fillRepeat s.kseed s.ksize s.repeatText (idx % 2 ^ 32).toNat
  | .n1ql s => (namedKey s).getD (toString idx)
  | .sd _ | .fts _ | .cbas _ => toString idx

/-- The indices an iterator shows an item for; a continuous one starts without looking at the count. -/
def Shows (spec : DatasetSpec) (k : ℕ) : Prop :=
  (continuousCount spec ≠ none ∧ k = 0 ∨ k < getCount spec) ∧ k < 2 ^ 32

/-- Every key of the dataset can be looked up. The keys that are a number always can. -/
def KeysLookable (spec : DatasetSpec) : Prop :=
  match spec with
  | .inline items => ∀ k < items.size, k < 2 ^ 31 → Lookable (elementKey items k)
  | .seeded s => ∀ k, Shows spec k → Lookable (fillRepeat s.kseed s.ksize s.repeatText k)
  | .n1ql s => Shows spec 0 → s.params.length ≤ s.paramValues.length → ∀ key ∈ namedKey s, Lookable key
  | .sd _ | .fts _ | .cbas _ => True

variable [JsonWriter] {spec : DatasetSpec} {ds : Dataset} {i j : DatasetIterator} {k : ℕ}

theorem initData_key {idx : ℤ} (h : initData spec i idx = .ok j) : j.curk = keyAt spec idx := by
  cases spec with
  | inline items =>
    unfold initData at h
    unfold keyAt elementKey
    dsimp only at h ⊢
    split_ifs at h ⊢ <;> obtain rfl := Except.ok.inj h <;> rfl
  | seeded s | fts count | cbas count =>
    cases h
    rfl
  | n1ql s =>
    have hlen : s.params.length ≤ s.paramValues.length := by
      by_contra hlt
      rw [initData_n1ql, pairParams_error (Nat.lt_of_not_le hlt)] at h
      cases h
    rw [initData_n1ql, pairParams_eq hlen] at h
    cases h
    show asString ((assignPairs _ _).get "id") = (namedKey s).getD _
    rw [get_assignPairs]
    unfold namedKey
    cases Assignments.assigned (s.params.zip s.paramValues) "id" with
    | none => exact JsonAccess.asString_string _
    | some key => exact JsonAccess.asString_string key
  | sd s =>
    unfold initData at h
    dsimp only at h
    split_ifs at h <;> cases h <;> rfl

/-- The data of the item with an index can be built. -/
structure Buildable (spec : DatasetSpec) (k : ℕ) : Prop where
  inline : ∀ items, spec = .inline items → k < 2 ^ 31
  n1ql : ∀ s, spec = .n1ql s → s.params.length ≤ s.paramValues.length

theorem initData_ok_iff (hk : k < 2 ^ 32) (i : DatasetIterator) :
    (∃ j, initData spec i (toInt k) = .ok j) ↔ Buildable spec k := by
  cases spec with
  | inline items =>
    have hneg : toInt k < 0 ↔ ¬ k < 2 ^ 31 := by
      simp only [toInt, Int.bmod_def]
      omega
    unfold initData
    dsimp only
    constructor
    · intro h
      refine ⟨fun _ _ => ?_, fun _ hno => by cases hno⟩
      by_contra hlarge
      rw [if_pos (hneg.mpr hlarge)] at h
      obtain ⟨j, hj⟩ := h
      cases hj
    · intro h
      rw [if_neg fun hlt => hneg.mp hlt (h.inline items rfl)]
      split_ifs <;> exact ⟨_, rfl⟩
  | n1ql s =>
    rw [initData_n1ql]
    constructor
    · intro h
      refine ⟨fun _ hno => (by cases hno), fun s' hs => ?_⟩
      obtain rfl := DatasetSpec.n1ql.inj hs
      by_contra hlt
      rw [pairParams_error (Nat.lt_of_not_le hlt)] at h
      obtain ⟨j, hj⟩ := h
      cases hj
    · intro h
      rw [pairParams_eq (h.n1ql s rfl)]
      exact ⟨_, rfl⟩
  | sd s =>
    refine ⟨fun _ => ⟨fun _ hno => (by cases hno), fun _ hno => (by cases hno)⟩, fun _ => ?_⟩
    unfold initData
    dsimp only
    split_ifs <;> exact ⟨_, rfl⟩
  | seeded s | fts count | cbas count =>
    exact ⟨fun _ => ⟨fun _ hno => (by cases hno), fun _ hno => (by cases hno)⟩, fun _ => ⟨_, rfl⟩⟩

/-- What an iterator shows at the item with an index. -/
structure Sought (spec : DatasetSpec) (k : ℕ) (i : DatasetIterator) : Prop where
  curidx : i.curidx = k
  key : i.curk = keyAt spec (toInt k)
  small : k < 2 ^ 32
  buildable : Buildable spec k

theorem Sought.more (h : Sought ds.spec k i) (hk : Shows ds.spec k) : ds.getIter.done i = false := by
  show done ds.spec i = false
  unfold done
  cases hcount : continuousCount ds.spec with
  | some n => rfl
  | none =>
    have hlt := hk.1.resolve_left fun hcont => hcont.1 hcount
    dsimp only
    rw [h.curidx]
    exact decide_eq_false (Nat.not_le.mpr hlt)

theorem sought_of_seek (hk : k < 2 ^ 32) (h : seek spec i k = .ok j) : Sought spec k j :=
  ⟨(initData_ok h).1, initData_key h, hk, (initData_ok_iff hk _).mp ⟨j, h⟩⟩

omit [JsonAccess] [JsonWriter] in
theorem nextIndex_lt (spec : DatasetSpec) (k : ℕ) : nextIndex spec k < 2 ^ 32 := by
  have hlt : (k + 1) % 2 ^ 32 < 2 ^ 32 := Nat.mod_lt _ (by decide)
  unfold nextIndex
  dsimp only
  split
  · split_ifs <;> omega
  · exact hlt

omit [JsonAccess] [JsonWriter] in
/-- A continuous iterator stays below its count. -/
theorem nextIndex_shows {n : ℕ} (h : continuousCount spec = some n) (k : ℕ) :
    nextIndex spec k = 0 ∨ nextIndex spec k < n := by
  unfold nextIndex
  rw [h]
  dsimp only
  split_ifs with hle
  · exact .inl rfl
  · exact .inr (Nat.lt_of_not_le hle)

/-- An iterator that has not come to the end is new, or shows one of the items. -/
theorem Used.shows (h : Used ds i) (hmore : ds.getIter.done i = false) :
    i = newIterator ∨ ∃ k, Shows ds.spec k ∧ Sought ds.spec k i := by
  have hshows : ∀ {k : ℕ}, (continuousCount ds.spec ≠ none → k = 0 ∨ k < getCount ds.spec) →
      Sought ds.spec k i → ∃ k, Shows ds.spec k ∧ Sought ds.spec k i := by
    intro k hcont hsought
    refine ⟨k, ⟨?_, hsought.small⟩, hsought⟩
    cases hcount : continuousCount ds.spec with
    | some n =>
      have hne : continuousCount ds.spec ≠ none := by simp [hcount]
      exact (hcont hne).imp_left fun hzero => ⟨hcount ▸ hne, hzero⟩
    | none =>
      refine .inr ?_
      simpa [getIter, done, hcount, hsought.curidx] using hmore
  cases h with
  | new => exact .inl rfl
  | @start i' _ _ hi => exact .inr (hshows (fun _ => .inl rfl) (sought_of_seek (by decide) hi))
  | @advance i' _ _ hi =>
    refine .inr (hshows (fun hcont => ?_) (sought_of_seek (nextIndex_lt _ _) hi))
    obtain ⟨n, hn⟩ := Option.ne_none_iff_exists'.mp hcont
    exact (continuousCount_eq hn) ▸ nextIndex_shows hn _

/-- Every item whose data can be built is come to, by a continuous iterator below its count. -/
theorem exists_item (hbuild : ∀ k' ≤ k, Buildable ds.spec k')
    (hcont : ∀ n, continuousCount ds.spec = some n → k = 0 ∨ k < n) (hk : k < 2 ^ 32) :
    ∃ i, ds.getIter.item newIterator k = .ok i ∧ Used ds i ∧ Sought ds.spec k i := by
  induction k with
  | zero =>
    obtain ⟨i, hi⟩ := (initData_ok_iff (by decide) { newIterator with curidx := 0 }).mpr
      (hbuild 0 le_rfl)
    exact ⟨i, hi, .start .new hi, sought_of_seek (by decide) hi⟩
  | succ k ih =>
    obtain ⟨i, hitem, hused, hsought⟩ := ih (fun k' hle => hbuild k' (Nat.le_succ_of_le hle))
      (fun n hn => .inr (Nat.lt_of_succ_lt ((hcont n hn).resolve_left (Nat.succ_ne_zero k))))
      (Nat.lt_of_succ_lt hk)
    have hnext : nextIndex ds.spec i.curidx = k + 1 := by
      rw [hsought.curidx, nextIndex, Nat.mod_eq_of_lt hk]
      cases hcount : continuousCount ds.spec with
      | none => rfl
      | some n =>
        have hlt := (hcont n hcount).resolve_left (Nat.succ_ne_zero k)
        dsimp only
        rw [if_neg (Nat.not_le.mpr hlt)]
    obtain ⟨j, hj⟩ := (initData_ok_iff hk { i with curidx := k + 1 }).mpr (hbuild (k + 1) le_rfl)
    have hadvance : ds.getIter.advance i = .ok j := by
      show seek ds.spec i (nextIndex ds.spec i.curidx) = .ok j
      rw [hnext]
      exact hj
    refine ⟨j, ?_, .advance hused hadvance, sought_of_seek hk hj⟩
    rw [IterOps.item, hitem]
    exact hadvance

/-- The items of a dataset that is not continuous. -/
theorem hasItems_of_buildable (hcont : continuousCount ds.spec = none) (hcount : getCount ds.spec < 2 ^ 32)
    (hbuild : ∀ k ≤ getCount ds.spec, Buildable ds.spec k) :
    HasItems ds.getIter newIterator (getCount ds.spec) := by
  have hitem : ∀ k ≤ getCount ds.spec, ∃ i, ds.getIter.item newIterator k = .ok i ∧ Sought ds.spec k i := by
    intro k hk
    obtain ⟨i, hi, -, hsought⟩ := exists_item (fun k' hle => hbuild k' (hle.trans hk))
      (fun n hn => by cases hcont.symm.trans hn) (hk.trans_lt hcount)
    exact ⟨i, hi, hsought⟩
  refine ⟨fun k hk => ?_, fun k hk i hi => ?_, fun i hi => ?_⟩
  · obtain ⟨i, hi, -⟩ := hitem k hk
    exact ⟨i, hi⟩
  · obtain ⟨j, hj, hsought⟩ := hitem k hk.le
    obtain rfl := Except.ok.inj (hj.symm.trans hi)
    exact hsought.more ⟨.inr hk, hsought.small⟩
  · obtain ⟨j, hj, hsought⟩ := hitem _ le_rfl
    obtain rfl := Except.ok.inj (hj.symm.trans hi)
    show done ds.spec j = true
    unfold done
    rw [hcont]
    exact decide_eq_true hsought.curidx.ge

/-- A full-text dataset has as many items as it counts. -/
theorem fts_hasItems {n : ℕ} (hn : n < 2 ^ 32) :
    HasItems (Dataset.mk .success (.fts n)).getIter newIterator n :=
  @hasItems_of_buildable _ _ ⟨.success, .fts n⟩ rfl hn fun _ _ =>
    ⟨fun _ hno => (by cases hno), fun _ hno => (by cases hno)⟩

theorem exists_used (hbuild : ∀ k' ≤ k, Buildable ds.spec k') (hk : Shows ds.spec k) :
    ∃ i, Used ds i ∧ Sought ds.spec k i := by
  obtain ⟨i, -, hused, hsought⟩ := exists_item hbuild
    (fun n hn => hk.1.imp And.right fun hlt => (continuousCount_eq hn).symm ▸ hlt) hk.2
  exact ⟨i, hused, hsought⟩

omit [JsonWriter] in
/-- The condition, for the keys by their indices. -/
theorem keysLookable_iff_keyAt : KeysLookable spec ↔
    ∀ k, Shows spec k → Buildable spec k → Lookable (keyAt spec (toInt k)) := by
  cases spec with
  | inline items =>
    constructor
    · intro h k hk hbuild
      have hsmall := hbuild.inline items rfl
      show Lookable (elementKey items (toInt k))
      rw [toInt_of_bounds (by omega) (by omega)]
      exact h k (hk.1.resolve_left fun hcont => hcont.1 rfl) hsmall
    · intro h k hk hsmall
      have hkey := h k ⟨.inr hk, by omega⟩ ⟨fun _ _ => hsmall, fun _ hno => by cases hno⟩
      change Lookable (elementKey items (toInt k)) at hkey
      rwa [toInt_of_bounds (by omega) (by omega)] at hkey
  | seeded s =>
    have hkey : ∀ {k : ℕ}, k < 2 ^ 32 → keyAt (.seeded s) (toInt k) =
        fillRepeat s.kseed s.ksize s.repeatText k := by
      intro k hk
      have hidx : (toInt k % 2 ^ 32).toNat = k := by
        simp only [toInt, Int.bmod_def]
        omega
      show fillRepeat s.kseed s.ksize s.repeatText (toInt k % 2 ^ 32).toNat = _
      rw [hidx]
    constructor
    · intro h k hk _
      rw [hkey hk.2]
      exact h k hk
    · intro h k hk
      rw [← hkey hk.2]
      exact h k hk ⟨fun _ hno => (by cases hno), fun _ hno => (by cases hno)⟩
  | n1ql s =>
    constructor
    · intro h k hk hbuild
      have hzero : Shows (.n1ql s) 0 :=
        ⟨hk.1.imp (fun hcont => ⟨hcont.1, rfl⟩) fun hlt => Nat.zero_lt_of_lt hlt, by decide⟩
      have hnamed := h hzero (hbuild.n1ql s rfl)
      unfold keyAt
      dsimp only
      cases hs : namedKey s with
      | none =>
        rw [Option.getD_none]
        exact lookable_index k
      | some key =>
        rw [Option.getD_some]
        exact hnamed key hs
    · intro h hzero hlen key hkey
      have hlook := h 0 hzero ⟨fun _ hno => (by cases hno), fun s' hs => by cases hs; exact hlen⟩
      unfold keyAt at hlook
      dsimp only at hlook
      rwa [Option.mem_def.mp hkey, Option.getD_some] at hlook
  | sd s | fts count | cbas count =>
    refine ⟨fun _ k _ _ => ?_, fun _ => trivial⟩
    unfold keyAt
    exact lookable_index k

/-- Every key that an iterator of the dataset shows can be looked up if and only if the specification is of
this kind. -/
theorem keysLookable_iff (ds : Dataset) : KeysLookable ds.spec ↔
    ∀ i, Used ds i → ds.getIter.done i = false → Lookable i.curk := by
  rw [keysLookable_iff_keyAt]
  constructor
  · intro h i hi hmore
    rcases hi.shows hmore with rfl | ⟨k, hk, hsought⟩
    · exact .inl rfl
    · rw [hsought.key]
      exact h k hk hsought.buildable
  · intro h k hk hbuild
    have hall : ∀ k' ≤ k, Buildable ds.spec k' := fun k' hle =>
      ⟨fun items hs => hle.trans_lt (hbuild.inline items hs), hbuild.n1ql⟩
    obtain ⟨i, hi, hsought⟩ := exists_used hall hk
    rw [← hsought.key]
    exact h i hi (hsought.more hk)

end Keys

end Dataset

/-! ## The keys of the queries -/

/-- The key of a search ends in the number of its generator. -/
theorem numbered_searchKey {w : World} {generator : ℤ} (h : (searchKey w generator).length < 2 ^ 31) :
    Numbered (searchKey w generator) := by
  have hends : EndsInDigit (searchKey w generator) := (endsInDigit_int _).append _
  exact hends.numbered h

section QueryKeys

variable [JsonAccess] {hid : ℕ} {req : Request} {ii : ℕ}

/-- The key `insertDoc` sends the document of an iteration under. -/
def iterationKey (hid : ℕ) (req : Request) (ii : ℕ) : String :=
  asString ((iterationDoc hid req ii).get "id")

/-- The key the parameters of the client give the documents, if they do. -/
def clientKey (req : Request) : Option String := Assignments.assigned (clientPairs req) "id"

/-- The names of the operation do not count, and neither do the values that stand behind the client's names. -/
theorem assigned_iterationPairs
    (hlen : (Dataset.split (asString (req.payload.get "NQParam"))).length ≤
      (Dataset.split (asString (req.payload.get "NQParamValues"))).length) :
    Assignments.assigned (iterationPairs hid req ii) "id" = clientKey req := by
  let names := Dataset.split (asString (req.payload.get "NQParam"))
  let values := Dataset.split (asString (req.payload.get "NQParamValues"))
  have hsplit : iterationPairs hid req ii = clientPairs req ++ ["handleid", "unique_id"].zip
      (values.drop names.length ++ [toString hid, toString (toInt ii)]) := by
    have htake : (values.take names.length).length = names.length := List.length_take_of_le hlen
    have hzip : names.zip (values.take names.length) = clientPairs req := by
      symm
      rw [clientPairs, List.zip_eq_zip_take_min, Nat.min_eq_left hlen, List.take_length]
    rw [← hzip, ← List.zip_append htake.symm, ← List.append_assoc, List.take_append_drop]
    rfl
  rw [hsplit, Assignments.assigned_append, clientKey, Assignments.assigned_eq_none, Option.none_or]
  intro e he heq
  have hmem := (List.of_mem_zip he).1
  rw [heq] at hmem
  simp at hmem

/-- The documents are stored under the client's key, or under the number of the handle. -/
theorem iterationKey_eq
    (hlen : (Dataset.split (asString (req.payload.get "NQParam"))).length ≤
      (Dataset.split (asString (req.payload.get "NQParamValues"))).length) :
    iterationKey hid req ii = (clientKey req).getD (toString hid) := by
  have hfield : (Json.null.set "id" (.string (toString hid))).get "id" = .string (toString hid) := by
    rw [Json.get_set, if_pos rfl]
  rw [iterationKey, iterationDoc, Dataset.get_assignPairs, assigned_iterationPairs hlen, hfield]
  cases clientKey req with
  | none => exact JsonAccess.asString_string _
  | some key => exact JsonAccess.asString_string key

theorem lookable_iterationKey (hhid : hid < 2 ^ 64) (hkey : ∀ key ∈ clientKey req, Lookable key)
    (hlen : (Dataset.split (asString (req.payload.get "NQParam"))).length ≤
      (Dataset.split (asString (req.payload.get "NQParamValues"))).length) :
    Lookable (iterationKey hid req ii) := by
  rw [iterationKey_eq hlen]
  cases hclient : clientKey req with
  | none =>
    rw [Option.getD_none]
    exact lookable_nat hhid
  | some key =>
    rw [Option.getD_some]
    exact hkey key hclient

end QueryKeys

end Sdkd
