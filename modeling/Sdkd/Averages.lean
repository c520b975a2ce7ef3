import Mathlib.Algebra.Order.BigOperators.Group.List
import Mathlib.Tactic.Linarith
import Sdkd.Percentile

/-!
# Averages

The average `resultsJson` reports of a window. `setRescode` keeps the sum it is computed from in 32 bits.

## Main definitions

- `ReportsAverage` — what is reported of a window is the average of its durations
- `TotalFits` — the sum of the durations of a window fits

## Main results

- `calls_totals` — the total of a window is the sum of its durations, in 32 bits
- `reportsAverage_iff` — when the average reported is one
-/

namespace Sdkd

theorem toUInt_of_range {d : ℤ} (hd : 0 ≤ d ∧ d < 2 ^ 32) : (toUInt d : ℤ) = d := by
  unfold toUInt
  omega

namespace TimeWindow

/-- The total of the window is the sum of its durations, in 32 bits. -/
def Totals (win : TimeWindow) : Prop := win.timeTotal = toUInt win.durations.sum

theorem totals_skipped : skipped.Totals := rfl

theorem Totals.sample {win : TimeWindow} (h : win.Totals) (duration : ℤ) (text : String) :
    (win.sample duration text).Totals := by
  unfold Totals toUInt at h
  simp only [Totals, TimeWindow.sample, toUInt, h, List.sum_append, List.sum_singleton]
  omega

/-- No duration is less than the lower bound of its window. -/
theorem Holds.timeMin_le {win : TimeWindow} {ss : List Sample} (hholds : win.Holds ss)
    (hss : ss ≠ []) (hdur : ∀ d ∈ win.durations, 0 ≤ d ∧ d < 2 ^ 32) :
    ∀ d ∈ win.durations, (win.timeMin : ℤ) ≤ d := by
  intro d hd
  have hle := (hholds.timeMin hss).2 ⟨d, hd, rfl⟩
  rw [← toUInt_of_range (hdur d hd)]
  exact Int.ofNat_le.mpr hle

/-- The upper bound is the greatest duration. -/
theorem Holds.timeMax_greatest {win : TimeWindow} {ss : List Sample}
    (hholds : win.Holds ss) (hss : ss ≠ []) (hdur : ∀ d ∈ win.durations, 0 ≤ d ∧ d < 2 ^ 32) :
    (win.timeMax : ℤ) ∈ win.durations ∧ ∀ d ∈ win.durations, d ≤ win.timeMax := by
  obtain ⟨dmax, hdmax, hmax⟩ := (hholds.timeMax hss).1
  have hgreatest : (win.timeMax : ℤ) = dmax := by rw [← hmax, toUInt_of_range (hdur dmax hdmax)]
  refine ⟨hgreatest ▸ hdmax, fun d hd => ?_⟩
  have hle := (hholds.timeMax hss).2 ⟨d, hd, rfl⟩
  rw [← toUInt_of_range (hdur d hd)]
  exact Int.ofNat_le.mpr hle

end TimeWindow

namespace ResultSet

/-- A call of `setRescode` keeps the totals. -/
theorem setRescodeFull_totals {rs : ResultSet} (h : ∀ win ∈ rs.timestats, win.Totals) (tv : TimeVal)
    (err : ErrorCode) (key : String) (expectValue : Bool) (value : Option String) :
    ∀ win ∈ (rs.setRescodeFull tv err key expectValue value).timestats, win.Totals := by
  have hnew : (TimeWindow.new.sample (rs.sampleOf tv err).duration
      (rs.sampleOf tv err).text).Totals := by
    have hempty : TimeWindow.new.Totals := rfl
    exact hempty.sample _ _
  rcases rs.setRescodeFull_windows tv err key expectValue value with
    ⟨-, hw, -⟩ | ⟨-, -, m, hw, -⟩ | ⟨-, -, -, hw, -⟩ <;> rw [hw]
  · exact List.forall_mem_append.mpr ⟨h, List.forall_mem_singleton.mpr hnew⟩
  · refine List.forall_mem_append.mpr ⟨List.forall_mem_append.mpr ⟨h, fun win hwin => ?_⟩,
      List.forall_mem_singleton.mpr hnew⟩
    rw [List.eq_of_mem_replicate hwin]
    exact TimeWindow.totals_skipped
  · rcases List.eq_nil_or_concat' rs.timestats with hnil | ⟨wins, win, heq⟩
    · rw [hnil]
      simp [modifyBack]
    · rw [heq] at h ⊢
      rw [modifyBack_append]
      obtain ⟨hwins, hwin⟩ := List.forall_mem_append.mp h
      exact List.forall_mem_append.mpr ⟨hwins, List.forall_mem_singleton.mpr
        ((List.forall_mem_singleton.mp hwin).sample _ _)⟩

/-- In every run the total of a window is the sum of its durations, in 32 bits. -/
theorem calls_totals {rs : ResultSet} (h : ∀ win ∈ rs.timestats, win.Totals) (cs : List RsCall) :
    ∀ win ∈ (rs.calls cs).timestats, win.Totals := by
  induction cs generalizing rs with
  | nil => exact h
  | cons c cs ih =>
    cases c with
    | markBegin tv => exact ih h
    | setRescode tv err key expectValue value =>
      exact ih (setRescodeFull_totals h tv err key expectValue value)

/-! ## Sums and averages -/

section Average

variable {ds : List ℤ} {c : ℕ}

/-- A sum that does not fit into 32 bits has another average than what is left of it. -/
theorem emod_ediv_eq_iff {s : ℤ} (hs : 0 ≤ s) (hc : 0 < c) (hlt : c < 2 ^ 32) :
    s % 2 ^ 32 / c = s / c ↔ s < 2 ^ 32 := by
  constructor
  · intro heq
    by_contra hno
    have hle : s % 2 ^ 32 ≤ s - c := by omega
    have hdiv : s % 2 ^ 32 / c ≤ (s - c) / c := Int.ediv_le_ediv (by omega) hle
    have hstep : (s - c) / c = s / c - 1 := by
      rw [Int.sub_ediv_of_dvd _ dvd_rfl, Int.ediv_self (by omega)]
    omega
  · intro hfit
    rw [Int.emod_eq_of_lt hs hfit]

/-- The average over some of the members is no less than a lower bound of all of them. -/
theorem le_average {m : ℕ} (hm : ∀ d ∈ ds, (m : ℤ) ≤ d) (hc : 0 < c) (hlen : c ≤ ds.length) :
    (m : ℤ) ≤ ds.sum / c := by
  have hsum : (ds.length : ℤ) * m ≤ ds.sum := by
    simpa using List.card_nsmul_le_sum ds (m : ℤ) hm
  rw [Int.le_ediv_iff_mul_le (by omega)]
  calc (m : ℤ) * c ≤ m * ds.length := Int.mul_le_mul_of_nonneg_left (by omega) (by omega)
    _ = ds.length * m := Int.mul_comm _ _
    _ ≤ ds.sum := hsum

/-- The average over all members is at most an upper bound of them. -/
theorem sum_lt_of_le {m : ℤ} (hm : ∀ d ∈ ds, d ≤ m) (hne : ds ≠ []) :
    ds.sum < (m + 1) * ds.length := by
  have hsum : ds.sum ≤ ds.length * m := by simpa using List.sum_le_card_nsmul ds m hm
  have hlen := List.length_pos_iff.mpr hne
  rw [Int.add_mul, Int.mul_comm m]
  omega

/-- The average over what is left of the number of the members is at most their greatest member. -/
theorem average_le_iff {m : ℤ} (hmem : m ∈ ds) (hm : ∀ d ∈ ds, d ≤ m) (hc : 0 < c)
    (hlen : c = ds.length % 2 ^ 32) :
    ds.sum / c ≤ m ↔ ds.length < 2 ^ 32 ∨ ∃ d ∈ ds, ds.sum < (d + 1) * c := by
  have hle : ds.sum / c ≤ m ↔ ds.sum < (m + 1) * c := by
    rw [← Int.lt_add_one_iff, Int.ediv_lt_iff_lt_mul (by omega)]
  rw [hle]
  constructor
  · exact fun hlt => .inr ⟨m, hmem, hlt⟩
  · rintro (hshort | ⟨d, hd, hlt⟩)
    · rw [hlen, Nat.mod_eq_of_lt hshort]
      exact sum_lt_of_le hm (List.ne_nil_of_mem hmem)
    · have hstep : (d + 1) * c ≤ (m + 1) * c :=
        Int.mul_le_mul_of_nonneg_right (Int.add_le_add_right (hm d hd) 1) (by omega)
      exact hlt.trans_le hstep

end Average

/-! ## What is reported -/

/-- What is reported of a window is the average of its durations, between their bounds. -/
def ReportsAverage (win : TimeWindow) (jwin : Json) : Prop :=
  ∃ avg min max : ℕ, jwin.get "Count" = .uint win.count ∧ jwin.get "Avg" = .uint avg ∧
    jwin.get "Min" = .uint min ∧ jwin.get "Max" = .uint max ∧
    (avg : ℤ) = win.durations.sum / win.count ∧ min ≤ avg ∧ avg ≤ max

/-- The sum of the durations fits into 32 bits. So does their number; or it has wrapped around, and one of
them is large enough for what is left of it. -/
def TotalFits (durations : List ℤ) : Prop :=
  durations.sum < 2 ^ 32 ∧ (durations.length < 2 ^ 32 ∨
    ∃ d ∈ durations, durations.sum < (d + 1) * (durations.length % 2 ^ 32 : ℕ))

/-- The fields of a window that are reported. -/
theorem windowJson_fields {pFactor : ℤ} {win : TimeWindow} {jwin : Json}
    (h : windowJson pFactor win = .ok jwin) (hcount : win.count ≠ 0) :
    jwin.get "Count" = .uint win.count ∧ jwin.get "Avg" = .uint (win.timeTotal / win.count) ∧
    jwin.get "Min" = .uint win.timeMin ∧ jwin.get "Max" = .uint win.timeMax := by
  cases hpct : getPercentile pFactor win.durations with
  | none => simp [windowJson, hpct] at h
  | some pct =>
    simp only [windowJson, hpct, if_pos hcount] at h
    cases h
    exact ⟨rfl, rfl, rfl, rfl⟩

theorem reportsAverage_of_windowJson {pFactor : ℤ} {win : TimeWindow} {jwin : Json}
    (h : windowJson pFactor win = .ok jwin) (hcount : win.count ≠ 0) :
    ReportsAverage win jwin ↔ ((win.timeTotal / win.count : ℕ) : ℤ) = win.durations.sum / win.count ∧
      win.timeMin ≤ win.timeTotal / win.count ∧ win.timeTotal / win.count ≤ win.timeMax := by
  obtain ⟨hnum, havg, hmin, hmax⟩ := windowJson_fields h hcount
  constructor
  · rintro ⟨avg, min, max, -, havg', hmin', hmax', hrest⟩
    obtain rfl := Json.uint.inj (havg.symm.trans havg')
    obtain rfl := Json.uint.inj (hmin.symm.trans hmin')
    obtain rfl := Json.uint.inj (hmax.symm.trans hmax')
    exact hrest
  · exact fun hrest => ⟨_, _, _, hnum, havg, hmin, hmax, hrest⟩

/-- A window that holds samples of durations below `2 ^ 32` reports their average if and only if their sum
fits. -/
theorem holds_average_iff {win : TimeWindow} {ss : List Sample} (hholds : win.Holds ss)
    (htotal : win.Totals) (hcount : win.count ≠ 0)
    (hdur : ∀ d ∈ win.durations, 0 ≤ d ∧ d < 2 ^ 32) :
    (((win.timeTotal / win.count : ℕ) : ℤ) = win.durations.sum / win.count ∧
      win.timeMin ≤ win.timeTotal / win.count ∧ win.timeTotal / win.count ≤ win.timeMax) ↔
    TotalFits win.durations := by
  have hlen : win.count = win.durations.length % 2 ^ 32 := by
    rw [hholds.count, hholds.durations, List.length_map]
  have hss : ss ≠ [] := by
    rintro rfl
    rw [hholds.durations] at hlen
    exact hcount hlen
  have hpos : 0 < win.count := Nat.pos_of_ne_zero hcount
  have hsum : 0 ≤ win.durations.sum := List.sum_nonneg fun d hd => (hdur d hd).1
  have havg : ((win.timeTotal / win.count : ℕ) : ℤ) = win.durations.sum % 2 ^ 32 / win.count := by
    rw [htotal, Int.natCast_ediv, toUInt, Int.toNat_of_nonneg (Int.emod_nonneg _ (by decide))]
  have hfits := emod_ediv_eq_iff (c := win.count) hsum hpos (by omega)
  -- the bounds of the window are bounds of its durations
  have hlower := hholds.timeMin_le hss hdur
  obtain ⟨hmem, hupper⟩ := hholds.timeMax_greatest hss hdur
  have hbelow := average_le_iff hmem hupper hpos hlen
  have hmin : (win.timeMin : ℤ) ≤ win.durations.sum / win.count :=
    le_average hlower hpos (hlen ▸ Nat.mod_le _ _)
  have hcast : ∀ m n : ℕ, m ≤ n ↔ (m : ℤ) ≤ n := fun _ _ => Int.ofNat_le.symm
  rw [hcast, hcast, havg]
  unfold TotalFits
  rw [← hlen, ← hbelow, ← hfits]
  constructor
  · rintro ⟨heq, -, hle⟩
    exact ⟨heq, heq ▸ hle⟩
  · rintro ⟨heq, hle⟩
    rw [heq]
    exact ⟨rfl, hmin, hle⟩

/-- **Averages.** In a run whose durations are milliseconds below `2 ^ 32`, what is reported of a window that
counts a sample is the average of its durations if and only if their sum fits. -/
theorem reportsAverage_iff (rs₀ : ResultSet) (cs : List RsCall)
    (hdur : ∀ s ∈ samples 0 cs, 0 ≤ s.duration ∧ s.duration < 2 ^ 32) (hne : samples 0 cs ≠ [])
    (pFactor : ℤ) (root : Json) (hroot : (rs₀.clear.calls cs).resultsJson pFactor = .ok root) :
    ∃ wins, (root.get "Timings").get "Windows" = .array wins ∧
      List.Forall₂ (fun win jwin => win.count ≠ 0 →
        (ReportsAverage win jwin ↔ TotalFits win.durations)) (rs₀.clear.calls cs).timestats wins := by
  obtain ⟨gs, hc, hflat⟩ := calls_consistent (consistent_clear rs₀) cs
  have htotals : ∀ win ∈ (rs₀.clear.calls cs).timestats, win.Totals :=
    calls_totals (fun _ hwin => by cases hwin) cs
  have htimeres := calls_timeres rs₀.clear cs (.inr hne)
  obtain ⟨wins, hwins, heq⟩ := (resultsJson_fields hroot).2
    (by rw [htimeres]; exact Nat.pos_iff_ne_zero.mp (width_pos _))
  refine ⟨wins, by rw [heq]; rfl, ?_⟩
  refine List.forall₂_iff_get.mpr ⟨(Fallible.forall₂_of_mapM hwins).length_eq, fun i hi hj hcount => ?_⟩
  have hjson := (List.forall₂_iff_get.mp (Fallible.forall₂_of_mapM hwins)).2 i hi hj
  obtain ⟨g, hg, hholds⟩ := hc.holds (List.getElem?_eq_getElem hi)
  rw [List.get_eq_getElem] at hjson hcount
  rw [List.get_eq_getElem, reportsAverage_of_windowJson hjson hcount]
  refine holds_average_iff hholds (htotals _ (List.getElem_mem hi)) hcount fun d hd => ?_
  rw [hholds.durations] at hd
  obtain ⟨s, hs, rfl⟩ := List.mem_map.mp hd
  refine hdur s ?_
  have hmem : s ∈ gs.flatten := List.mem_flatten.mpr ⟨g, List.mem_of_getElem? hg, hs⟩
  rw [hflat] at hmem
  exact hmem

section Examples

/-- One outcome, and one that comes half a second later. -/
def twoOutcomes : List RsCall :=
  [.markBegin ⟨1, 0⟩, .setRescode ⟨1, 5000⟩ .success "" false none,
    .setRescode ⟨1, 500000⟩ .success "" false none]

/-- Two outcomes that come `2 ^ 31` milliseconds after their batch has begun. -/
def lateOutcomes : List RsCall :=
  [.markBegin ⟨1, 0⟩, .setRescode ⟨2147484, 648000⟩ .success "" false none,
    .setRescode ⟨2147484, 648000⟩ .success "" false none]

/-- The results of a run with one window of two durations are reported. -/
theorem resultsJson_of_two (rs : ResultSet) {win : TimeWindow} {d e : ℤ}
    (hwins : rs.timestats = [win]) (hdur : win.durations = [d, e]) (hres : rs.options.timeres ≠ 0) :
    ∃ jwin root, windowJson 95 win = .ok jwin ∧ rs.resultsJson 95 = .ok root ∧
      (root.get "Timings").get "Windows" = .array [jwin] := by
  have hrange : FactorInRange 95 win.durations := by
    have hproduct : toInt 2 ≠ 0 ∧ 100 ≤ toInt 2 * 95 ∧ toInt 2 * 95 < 2 ^ 31 ∧
        toInt 2 * 95 < 100 * (2 + 1) := by decide
    rw [hdur]
    exact .inr hproduct
  obtain ⟨jwin, hjwin, -⟩ := windowJson_inRange fun _ => hrange
  have hmap : rs.timestats.mapM (windowJson 95) = .ok [jwin] := by
    rw [hwins, List.mapM_cons, hjwin]
    rfl
  refine ⟨jwin, _, hjwin, by rw [resultsJson, if_pos hres, hmap], rfl⟩

theorem reportsAverage_iff_two : ∃ root, (new.clear.calls twoOutcomes).resultsJson 95 = .ok root ∧
    ∃ wins, (root.get "Timings").get "Windows" = .array wins ∧
      List.Forall₂ (fun win jwin => win.count ≠ 0 →
        (ReportsAverage win jwin ↔ TotalFits win.durations)) (new.clear.calls twoOutcomes).timestats
        wins := by
  obtain ⟨jwin, root, -, hroot, -⟩ := resultsJson_of_two (new.clear.calls twoOutcomes) rfl rfl
    (by decide)
  exact ⟨root, hroot, reportsAverage_iff new twoOutcomes (by decide) (by decide) 95 root hroot⟩

/-- The sum of the two durations is zero in 32 bits, and so is the average reported. -/
theorem lateOutcomes_average :
    (∀ s ∈ samples 0 lateOutcomes, 0 ≤ s.duration ∧ s.duration < 2 ^ 32) ∧
    ∃ win jwin root, (new.clear.calls lateOutcomes).timestats = [win] ∧ win.count = 2 ∧
      (new.clear.calls lateOutcomes).resultsJson 95 = .ok root ∧
      (root.get "Timings").get "Windows" = .array [jwin] ∧
      jwin.get "Avg" = .uint 0 ∧ jwin.get "Min" = .uint (2 ^ 31) ∧
      win.durations.sum / win.count = 2 ^ 31 ∧ ¬ ReportsAverage win jwin := by
  obtain ⟨jwin, root, hjwin, hroot, hwins⟩ := resultsJson_of_two
    (new.clear.calls lateOutcomes) rfl rfl (by decide)
  have hcount : (2 : ℕ) ≠ 0 := by decide
  obtain ⟨-, havg, hmin, -⟩ := windowJson_fields hjwin hcount
  refine ⟨by decide, _, jwin, root, rfl, rfl, hroot, hwins, havg, hmin, by decide, ?_⟩
  rw [reportsAverage_of_windowJson hjwin hcount]
  exact fun h => absurd h.2.1 (by decide)

end Examples

end ResultSet

end Sdkd
