import Sdkd.ControlReplies
import Sdkd.Lib.Rank
import Sdkd.Windows

/-!
# Percentiles

`getPercentile` rounds a quotient of integers that the division has truncated already, from a factor that
INFO takes from its client.

## Main definitions

- `PercentileSafe` — the index is computed without overflow and lies in the vector
- `PercentileLaw` — the value returned is the percentile by the nearest rank
- `FactorInRange`, `RanksAgree` — the conditions for the two

## Main results

- `percentileSafe_iff`, `percentileLaw_iff`
-/

namespace Sdkd

namespace ResultSet

open Rank

variable {pFactor : ℤ} {p : ℕ} {durations : List ℤ} {v : ℤ}

/-- The product that the index is computed from. -/
def percentileProduct (pFactor : ℤ) (durations : List ℤ) : ℤ := toInt durations.length * pFactor

/-- An index that is not negative comes from a product between 100 and the largest `int`. -/
theorem percentileIndex_eq_some_iff {size idx : ℤ} :
    percentileIndex pFactor size = some idx ∧ 0 ≤ idx ↔
      100 ≤ size * pFactor ∧ size * pFactor < 2 ^ 31 ∧ idx = size * pFactor / 100 - 1 := by
  unfold percentileIndex
  generalize size * pFactor = prod
  by_cases hover : prod < -2 ^ 31 ∨ 2 ^ 31 ≤ prod
  · rw [if_pos hover]
    constructor
    · rintro ⟨h, -⟩
      cases h
    · rintro ⟨hlow, hhigh, -⟩
      omega
  · rw [if_neg hover, Option.some.injEq]
    by_cases hneg : prod < 0
    · -- the division truncates toward zero
      have htdiv : prod.tdiv 100 ≤ 0 := by
        have hpos := Int.tdiv_nonneg (a := -prod) (b := 100) (by omega) (by omega)
        rw [Int.neg_tdiv] at hpos
        omega
      omega
    · rw [Int.tdiv_eq_ediv_of_nonneg (not_lt.mp hneg)]
      omega

/-- The value for a vector that is not empty and does not hold one duration, going by its size as an
`int`: the entry whose rank is the truncated quotient. -/
theorem getPercentile_eq_some_iff (hzero : toInt durations.length ≠ 0)
    (hone : toInt durations.length ≠ 1) :
    getPercentile pFactor durations = some v ↔
      100 ≤ percentileProduct pFactor durations ∧ percentileProduct pFactor durations < 2 ^ 31 ∧
      IsKth durations (percentileProduct pFactor durations / 100).toNat v := by
  unfold getPercentile
  dsimp only
  rw [if_neg hzero, if_neg hone]
  have hindex : ∀ idx, percentileIndex pFactor (toInt durations.length) = some idx ∧ 0 ≤ idx ↔
      100 ≤ percentileProduct pFactor durations ∧ percentileProduct pFactor durations < 2 ^ 31 ∧
        idx = percentileProduct pFactor durations / 100 - 1 := fun _ => percentileIndex_eq_some_iff
  cases hidx : percentileIndex pFactor (toInt durations.length) with
  | none =>
    simp only [hidx, reduceCtorEq, false_and, false_iff] at hindex
    constructor
    · intro h
      cases h
    · rintro ⟨hlow, hhigh, -⟩
      exact absurd ⟨hlow, hhigh, rfl⟩ (hindex _)
  | some idx =>
    simp only [hidx, Option.some.injEq] at hindex
    dsimp only
    by_cases hneg : idx < 0
    · rw [if_pos hneg]
      constructor
      · intro h
        cases h
      · rintro ⟨hlow, hhigh, -⟩
        have hge := ((hindex _).mpr ⟨hlow, hhigh, rfl⟩).2
        have heq := ((hindex _).mpr ⟨hlow, hhigh, rfl⟩).1
        omega
    · rw [if_neg hneg, getElem?_mergeSort_eq_some_iff]
      obtain ⟨hlow, hhigh, heq⟩ := (hindex idx).mp ⟨rfl, not_lt.mp hneg⟩
      have hrank : idx.toNat + 1 = (percentileProduct pFactor durations / 100).toNat := by omega
      rw [hrank]
      exact ⟨fun h => ⟨hlow, hhigh, h⟩, fun h => h.2.2⟩

/-! ## Safety -/

/-- `getPercentile` reads an element: the only one, or the one at an index that it computes without
overflow and that lies in the vector. -/
def PercentileSafe (pFactor : ℤ) (durations : List ℤ) : Prop :=
  toInt durations.length = 1 ∨ (toInt durations.length ≠ 0 ∧
    ∃ idx, percentileIndex pFactor (toInt durations.length) = some idx ∧
      0 ≤ idx ∧ idx < durations.length)

/-- One duration, or a product with the factor that is at least 100, is an `int`, and whose hundredth part
does not exceed the number of durations. -/
def FactorInRange (pFactor : ℤ) (durations : List ℤ) : Prop :=
  toInt durations.length = 1 ∨ (toInt durations.length ≠ 0 ∧
    100 ≤ percentileProduct pFactor durations ∧ percentileProduct pFactor durations < 2 ^ 31 ∧
    percentileProduct pFactor durations < 100 * (durations.length + 1))

theorem percentileSafe_iff_factorInRange (pFactor : ℤ) (durations : List ℤ) :
    PercentileSafe pFactor durations ↔ FactorInRange pFactor durations := by
  refine or_congr Iff.rfl (and_congr Iff.rfl ?_)
  constructor
  · rintro ⟨idx, hidx, hge, hlt⟩
    obtain ⟨hlow, hhigh, heq⟩ := percentileIndex_eq_some_iff.mp ⟨hidx, hge⟩
    refine ⟨hlow, hhigh, ?_⟩
    unfold percentileProduct
    omega
  · rintro ⟨hlow, hhigh, hlt⟩
    obtain ⟨hidx, hge⟩ := percentileIndex_eq_some_iff.mpr ⟨hlow, hhigh, rfl⟩
    refine ⟨_, hidx, hge, ?_⟩
    unfold percentileProduct at hlt
    omega

/-- In range the value is one of the durations. -/
theorem FactorInRange.getPercentile_mem (h : FactorInRange pFactor durations) :
    ∃ d ∈ durations, getPercentile pFactor durations = some d := by
  by_cases hone : toInt durations.length = 1
  · cases durations with
    | nil => cases hone
    | cons d ds =>
      refine ⟨d, List.mem_cons_self, ?_⟩
      unfold getPercentile
      dsimp only
      rw [hone]
      rfl
  · obtain ⟨hzero, hlow, hhigh, hlt⟩ := h.resolve_left hone
    obtain ⟨d, hd⟩ := exists_isKth durations
      (k := (percentileProduct pFactor durations / 100).toNat) (by omega) (by omega)
    exact ⟨d, hd.mem, (getPercentile_eq_some_iff hzero hone).mpr ⟨hlow, hhigh, hd⟩⟩

@[simp] theorem getPercentile_nil (pFactor : ℤ) : getPercentile pFactor [] = some 0 := rfl

theorem windowJson_percentile {win : TimeWindow} (h : getPercentile pFactor win.durations = some v) :
    ∃ jwin, windowJson pFactor win = .ok jwin ∧ jwin.get "Percentile" = .int v := by
  unfold windowJson
  rw [h]
  exact ⟨_, rfl, rfl⟩

/-- What `resultsJson` reports of a window whose factor is in range. -/
theorem windowJson_inRange {win : TimeWindow}
    (h : win.durations ≠ [] → FactorInRange pFactor win.durations) :
    ∃ jwin, windowJson pFactor win = .ok jwin ∧
      (win.durations ≠ [] → ∃ d ∈ win.durations, jwin.get "Percentile" = .int d) := by
  by_cases hnil : win.durations = []
  · have hzero : getPercentile pFactor win.durations = some 0 := by rw [hnil, getPercentile_nil]
    obtain ⟨jwin, hjwin, -⟩ := windowJson_percentile hzero
    exact ⟨jwin, hjwin, fun hne => absurd hnil hne⟩
  · obtain ⟨d, hd, hpct⟩ := (h hnil).getPercentile_mem
    obtain ⟨jwin, hjwin, hget⟩ := windowJson_percentile hpct
    exact ⟨jwin, hjwin, fun _ => ⟨d, hd, hget⟩⟩

/-- **Safety of the percentile.** `getPercentile` reads an element exactly when its factor is in range, and
where it is for every window then `resultsJson` reports an element of each. -/
theorem percentileSafe_iff (pFactor : ℤ) :
    (∀ durations, PercentileSafe pFactor durations ↔ FactorInRange pFactor durations) ∧
    ∀ rs : ResultSet,
      (∀ win ∈ rs.timestats, win.durations ≠ [] → FactorInRange pFactor win.durations) →
      ∃ root, rs.resultsJson pFactor = .ok root ∧ (rs.options.timeres ≠ 0 →
        ∃ wins, (root.get "Timings").get "Windows" = .array wins ∧
          List.Forall₂ (fun win jwin => win.durations ≠ [] →
            ∃ d ∈ win.durations, jwin.get "Percentile" = .int d) rs.timestats wins) := by
  refine ⟨percentileSafe_iff_factorInRange pFactor, fun rs hrange => ?_⟩
  obtain ⟨jwins, hjwins⟩ := Fallible.mapM_ok (f := windowJson pFactor) fun win hwin => by
    obtain ⟨jwin, hjwin, -⟩ := windowJson_inRange (hrange win hwin)
    exact ⟨jwin, hjwin⟩
  obtain ⟨root, hroot⟩ : ∃ root, rs.resultsJson pFactor = .ok root := by
    unfold resultsJson
    dsimp only
    rw [hjwins]
    split_ifs <;> exact ⟨_, rfl⟩
  refine ⟨root, hroot, fun hres => ?_⟩
  obtain ⟨wins, hwins, htimings⟩ := (resultsJson_fields hroot).2 hres
  rw [htimings]
  refine ⟨wins, rfl, List.forall₂_iff_get.mpr ⟨(Fallible.forall₂_of_mapM hwins).length_eq, ?_⟩⟩
  intro i hi hi' hne
  have hget := (List.forall₂_iff_get.mp (Fallible.forall₂_of_mapM hwins)).2 i hi hi'
  obtain ⟨jwin, hjwin, hpct⟩ := windowJson_inRange (hrange _ (List.get_mem _ ⟨i, hi⟩))
  rw [hjwin, Except.ok.injEq] at hget
  exact hget ▸ hpct hne

/-- An INFO without a factor stores zero; the report of two results then reads in front of the vector. -/
theorem not_percentileSafe_info :
    letI := JsonAccess.plain
    letI := JsonWriter.compact
    ∃ md', MainDispatch.dispatchCommand MainDispatch.exampleEnv (.new [])
        (MainDispatch.exampleCommand .info (.object [])) = .ok (true, md') ∧
      ¬ PercentileSafe md'.pFactor [1000, 1000] ∧
      (new.clear.calls (List.replicate 2 (.setRescode ⟨1, 0⟩ .success "" false none))).resultsJson
        md'.pFactor = .error .outOfBounds := by
  let := JsonAccess.plain
  let := JsonWriter.compact
  refine ⟨_, rfl, ?_, ?_⟩
  · rintro (h | ⟨-, idx, hidx, hge, -⟩)
    · cases h
    · cases hidx
      cases hge
  · rfl

/-! ## The nearest rank -/

/-- `v` is the value of `getPercentile`, and the percentile: the entry of the nearest rank, whatever the
order of the durations, which no smaller factor exceeds and no larger one falls below. -/
structure PercentileLaw (p : ℕ) (durations : List ℤ) (v : ℤ) : Prop where
  returned : getPercentile p durations = some v
  rank : IsKth durations (nearestRank p durations.length) v
  below : 100 * durations.countP (· < v) < p * durations.length
  reach : p * durations.length ≤ 100 * durations.countP (· ≤ v)
  order : ∀ ds, ds.Perm durations → getPercentile p ds = some v
  mono : ∀ (q : ℕ) (w : ℤ), getPercentile q durations = some w → (q ≤ p → w ≤ v) ∧ (p ≤ q → v ≤ w)

/-- The truncated rank and the nearest rank have the same entry. By the size of the vector as an `int`: it
is zero, and zero is that entry; it is one, and all durations are equal; or the product is in range and
both ranks have one entry. -/
def RanksAgree (p : ℕ) (durations : List ℤ) : Prop :=
  (toInt durations.length = 0 ∧ IsKth durations (nearestRank p durations.length) 0) ∨
  (toInt durations.length = 1 ∧ ∀ d ∈ durations, ∀ e ∈ durations, d = e) ∨
  (toInt durations.length ≠ 0 ∧ toInt durations.length ≠ 1 ∧
    100 ≤ percentileProduct p durations ∧ percentileProduct p durations < 2 ^ 31 ∧
    ∃ v, IsKth durations (percentileProduct p durations / 100).toNat v ∧
      IsKth durations (nearestRank p durations.length) v)

/-- The value for an empty vector and for one duration, going by the size as an `int`. -/
theorem getPercentile_zero (hzero : toInt durations.length = 0) :
    getPercentile pFactor durations = some 0 := by
  unfold getPercentile
  dsimp only
  rw [hzero]
  rfl

theorem getPercentile_one (hone : toInt durations.length = 1) :
    getPercentile pFactor durations = durations.head? := by
  unfold getPercentile
  dsimp only
  rw [hone]
  rfl

theorem percentileProduct_mono {q : ℕ} (h : 0 ≤ toInt durations.length) (hpq : p ≤ q) :
    percentileProduct p durations ≤ percentileProduct q durations :=
  Int.mul_le_mul_of_nonneg_left (Int.ofNat_le.mpr hpq) h

/-- No value falls when the factor grows. -/
theorem getPercentile_mono {q : ℕ} {w : ℤ} (hv : getPercentile p durations = some v)
    (hw : getPercentile q durations = some w) (hpq : p ≤ q) : v ≤ w := by
  by_cases hzero : toInt durations.length = 0
  · rw [getPercentile_zero hzero, Option.some.injEq] at hv hw
    omega
  by_cases hone : toInt durations.length = 1
  · rw [getPercentile_one hone] at hv hw
    rw [hv, Option.some.injEq] at hw
    exact hw.le
  obtain ⟨hlow, -, hkv⟩ := (getPercentile_eq_some_iff hzero hone).mp hv
  obtain ⟨-, -, hkw⟩ := (getPercentile_eq_some_iff hzero hone).mp hw
  have hnonneg : 0 ≤ toInt durations.length := by
    by_contra hneg
    have := mul_nonpos_of_nonpos_of_nonneg (not_le.mp hneg).le (Int.natCast_nonneg p)
    unfold percentileProduct at hlow
    omega
  have hprod := percentileProduct_mono hnonneg hpq
  exact hkv.mono hkw (by omega)

/-- The value does not depend on the order of the durations, unless the vector is taken for one of a single
duration. -/
theorem getPercentile_perm {ds : List ℤ} (hone : toInt durations.length ≠ 1)
    (hperm : ds.Perm durations) (hv : getPercentile pFactor durations = some v) :
    getPercentile pFactor ds = some v := by
  by_cases hzero : toInt durations.length = 0
  · rw [getPercentile_zero hzero] at hv
    rw [getPercentile_zero (by rwa [hperm.length_eq]), hv]
  have hprod : percentileProduct pFactor ds = percentileProduct pFactor durations := by
    unfold percentileProduct
    rw [hperm.length_eq]
  rw [getPercentile_eq_some_iff hzero hone] at hv
  rw [getPercentile_eq_some_iff (by rwa [hperm.length_eq]) (by rwa [hperm.length_eq]), hprod]
  exact ⟨hv.1, hv.2.1, hv.2.2.perm hperm.symm⟩

/-- What is left to show of a value: that it is returned, in any order, and has the rank. -/
theorem PercentileLaw.of_rank (hrank : IsKth durations (nearestRank p durations.length) v)
    (horder : ∀ ds, ds.Perm durations → getPercentile p ds = some v) : PercentileLaw p durations v := by
  obtain ⟨hbelow, hreach⟩ := isKth_nearestRank_iff.mp hrank
  have hret := horder durations (.refl _)
  exact ⟨hret, hrank, hbelow, hreach, horder, fun q w hw =>
    ⟨fun hqp => getPercentile_mono hw hret hqp, fun hpq => getPercentile_mono hret hw hpq⟩⟩

/-- In a vector that is taken for one of a single duration, every duration is in front in some order. -/
theorem PercentileLaw.eq_of_one (hone : toInt durations.length = 1) (h : PercentileLaw p durations v)
    {d : ℤ} (hd : d ∈ durations) : d = v := by
  have hperm := (List.perm_cons_erase hd).symm
  have hsize : toInt (d :: durations.erase d).length = 1 := by rw [hperm.length_eq, hone]
  have hv := h.order _ hperm
  rw [getPercentile_one hsize, List.head?_cons, Option.some.injEq] at hv
  exact hv

/-- If all durations are equal then it does not matter which is in front. -/
theorem PercentileLaw.of_one (hone : toInt durations.length = 1) (hp : 1 ≤ p) (hp100 : p ≤ 100)
    (hall : ∀ d ∈ durations, ∀ e ∈ durations, d = e) {d : ℤ} (hd : d ∈ durations) :
    PercentileLaw p durations d := by
  have hlen : 0 < durations.length := List.length_pos_of_mem hd
  refine .of_rank ?_ fun ds hperm => ?_
  · refine isKth_of_forall_eq (fun x hx => hall x hx d hd) ?_ ?_
    · exact lt_nearestRank_iff.mpr (by positivity)
    · exact nearestRank_le_iff.mpr (Nat.mul_le_mul_right _ hp100)
  · rw [getPercentile_one (by rwa [hperm.length_eq])]
    cases ds with
    | nil => exact absurd (hperm.symm.subset hd) List.not_mem_nil
    | cons e es => rw [List.head?_cons, hall e (hperm.subset List.mem_cons_self) d hd]

/-- **The percentile by the nearest rank.** For a factor from 1 to 100 and durations, `getPercentile` returns
the percentile exactly when the truncated rank has the same entry. -/
theorem percentileLaw_iff (p : ℕ) (hp : 1 ≤ p) (hp100 : p ≤ 100) (durations : List ℤ)
    (hne : durations ≠ []) : (∃ v, PercentileLaw p durations v) ↔ RanksAgree p durations := by
  constructor
  · rintro ⟨v, h⟩
    by_cases hzero : toInt durations.length = 0
    · have hv := h.returned
      rw [getPercentile_zero hzero, Option.some.injEq] at hv
      have hrank := h.rank
      rw [← hv] at hrank
      exact .inl ⟨hzero, hrank⟩
    by_cases hone : toInt durations.length = 1
    · exact .inr (.inl ⟨hone, fun d hd e he => (h.eq_of_one hone hd).trans (h.eq_of_one hone he).symm⟩)
    · obtain ⟨hlow, hhigh, hv⟩ := (getPercentile_eq_some_iff hzero hone).mp h.returned
      exact .inr (.inr ⟨hzero, hone, hlow, hhigh, v, hv, h.rank⟩)
  · rintro (⟨hzero, hrank⟩ | ⟨hone, hall⟩ | ⟨hzero, hone, hlow, hhigh, v, hv, hrank⟩)
    · exact ⟨0, .of_rank hrank fun ds hperm => getPercentile_zero (by rwa [hperm.length_eq])⟩
    · obtain ⟨d, hd⟩ := List.exists_mem_of_ne_nil _ hne
      exact ⟨d, .of_one hone hp hp100 hall hd⟩
    · have hret := (getPercentile_eq_some_iff hzero hone).mpr ⟨hlow, hhigh, hv⟩
      exact ⟨v, .of_rank hrank fun ds hperm => getPercentile_perm hone hperm hret⟩

/-- The third quartile of four durations. -/
theorem percentileLaw_iff_quartile :
    (∃ v, PercentileLaw 75 [40, 10, 30, 20] v) ↔ RanksAgree 75 [40, 10, 30, 20] :=
  percentileLaw_iff 75 (by decide) (by decide) [40, 10, 30, 20] (by simp)

/-- The median of three durations is said to be the smallest. -/
theorem not_percentileLaw_median :
    getPercentile 50 [30, 10, 20] = some 10 ∧ ¬ ∃ v, PercentileLaw 50 [30, 10, 20] v := by
  have hone : toInt ([30, 10, 20] : List ℤ).length ≠ 1 := by decide
  have hret : getPercentile 50 [30, 10, 20] = some 10 :=
    (getPercentile_eq_some_iff (by decide) hone).mpr ⟨by decide, by decide, by decide, by decide⟩
  refine ⟨hret, ?_⟩
  rintro ⟨v, h⟩
  have hv : some 10 = some v := hret.symm.trans h.returned
  cases hv
  exact absurd h.reach (by decide)

/-- For different durations the ranks agree exactly when the product is a multiple of 100. -/
theorem ranksAgree_iff_dvd (hp : 1 ≤ p) (hp100 : p ≤ 100) (hlen : 2 ≤ durations.length)
    (hint : p * durations.length < 2 ^ 31) (hnodup : durations.Nodup) :
    RanksAgree p durations ↔ 100 ∣ p * durations.length := by
  have hsize : toInt durations.length = durations.length := by
    have hle : durations.length ≤ p * durations.length := Nat.le_mul_of_pos_left _ hp
    exact toInt_of_bounds (by omega) (by omega)
  have hprod : percentileProduct p durations = (p * durations.length : ℕ) := by
    rw [percentileProduct, hsize, Nat.cast_mul, mul_comm]
  have hpos : 0 < p * durations.length := by positivity
  have hupto : p * durations.length ≤ 100 * durations.length := Nat.mul_le_mul_right _ hp100
  unfold RanksAgree
  rw [hsize, hprod]
  generalize hn : p * durations.length = n at *
  constructor
  · rintro (⟨hzero, -⟩ | ⟨hone, -⟩ | ⟨-, -, -, -, v, hv, hrank⟩)
    · omega
    · omega
    · have hk := hv.rank_unique hrank hnodup
      have hceil := nearestRank_le_iff.mp hk.ge
      omega
  · intro hdvd
    have hceil : nearestRank p durations.length = n / 100 := by
      have hle : nearestRank p durations.length ≤ n / 100 := nearestRank_le_iff.mpr (by omega)
      have hlt : n / 100 - 1 < nearestRank p durations.length := lt_nearestRank_iff.mpr (by omega)
      omega
    obtain ⟨v, hv⟩ := exists_isKth durations (k := n / 100) (by omega) (by omega)
    have htrunc : ((n : ℤ) / 100).toNat = n / 100 := by omega
    refine .inr (.inr ⟨by omega, by omega, by omega, by omega, v, ?_, ?_⟩)
    · rwa [htrunc]
    · rwa [hceil]

end ResultSet

end Sdkd
