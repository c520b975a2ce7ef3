import Mathlib.Data.ZMod.Basic
import Mathlib.Order.Bounds.Basic
import Sdkd.Lib.Fallible
import Sdkd.ResultSet

/-!
# Time windows

What a run of `markBegin` and `setRescode` calls leaves in the time windows of a cleared result set:
which outcomes each window holds, and that the windows agree with the statistics of the whole run.

## Main definitions

- `ResultSet.calls` — a run of calls; `samples` — the outcomes it enters
- `TimeWindow.Holds` — a window holds a list of samples and nothing else
- `Consistent`, `Placed` — what a run keeps true

## Main results

- `calls_consistent` — the windows of every run divide the samples among them
- `calls_placed` — while the clock does not go back, each sample is in the window of its time frame
-/

namespace Sdkd

/-- A call on a result set while an operation runs. -/
inductive RsCall where
  | markBegin (tv : TimeVal)
  | setRescode (tv : TimeVal) (err : ErrorCode) (key : String) (expectValue : Bool)
      (value : Option String)

namespace ResultSet

def call (rs : ResultSet) : RsCall → ResultSet
  | .markBegin tv => rs.markBegin tv
  | .setRescode tv err key expectValue value => rs.setRescodeFull tv err key expectValue value

def calls (rs : ResultSet) (cs : List RsCall) : ResultSet := cs.foldl call rs

/-- The width of the windows: a resolution of zero is taken as one second. -/
def width (rs : ResultSet) : ℕ := if rs.options.timeres = 0 then 1 else rs.options.timeres

theorem width_pos (rs : ResultSet) : 0 < rs.width := timeres_pos _

end ResultSet

/-- One outcome as it is entered into a window. -/
structure Sample where
  sec : ℕ
  duration : ℤ
  text : String

/-- The outcomes a run of calls enters, where `opstart` is the time the first of them are measured
from. -/
def samples (opstart : ℤ) : List RsCall → List Sample
  | [] => []
  | .markBegin tv :: cs => samples tv.epochMsecs cs
  | .setRescode tv err _ _ _ :: cs =>
    ⟨tv.sec, tv.epochMsecs - opstart, err.text⟩ :: samples opstart cs

/-- The start of the window of a second. -/
def windowStart (width sec : ℕ) : ℕ := sec - sec % width

theorem dvd_windowStart (width sec : ℕ) : width ∣ windowStart width sec := Nat.dvd_sub_mod sec

theorem windowStart_mono {width a b : ℕ} (h : a ≤ b) : windowStart width a ≤ windowStart width b := by
  have hdiv : ∀ n, windowStart width n = width * (n / width) := by
    intro n
    have := Nat.div_add_mod n width
    unfold windowStart
    omega
  rw [hdiv, hdiv]
  exact Nat.mul_le_mul_left _ (Nat.div_le_div_right h)

/-- A multiple of the width that lies in a gap of the width above another one is its upper end. -/
theorem eq_of_dvd_of_between {width a b m : ℕ} (ha : width ∣ a) (hb : width ∣ b)
    (hbelow : b + m * width < a) (hreach : a ≤ b + (m + 1) * width) : a = b + (m + 1) * width := by
  obtain ⟨x, rfl⟩ := ha
  obtain ⟨y, rfl⟩ := hb
  rw [Nat.mul_comm m, ← Nat.mul_add] at hbelow
  rw [Nat.mul_comm (m + 1), ← Nat.mul_add] at hreach ⊢
  have hlt := Nat.lt_of_mul_lt_mul_left hbelow
  have hpos : 0 < width := by
    rcases Nat.eq_zero_or_pos width with rfl | hpos
    · simp at hbelow
    · exact hpos
  have hle := Nat.le_of_mul_le_mul_left hreach hpos
  rw [show x = y + (m + 1) by omega]

namespace TimeWindow

/-- A window the catch-up loop leaves behind. -/
def skipped : TimeWindow := { TimeWindow.new with timeMin := 0 }

/-- The window was entered exactly the samples `ss`, in this order. -/
structure Holds (win : TimeWindow) (ss : List Sample) : Prop where
  durations : win.durations = ss.map (·.duration)
  count : win.count = ss.length % 2 ^ 32
  ec : Histogram.Counts intCounter win.ec (ss.map (·.text))
  timeMin : ss ≠ [] → IsLeast {x | ∃ d ∈ win.durations, toUInt d = x} win.timeMin
  timeMax : ss ≠ [] → IsGreatest {x | ∃ d ∈ win.durations, toUInt d = x} win.timeMax
  unused : ss = [] → win.timeMin = 0 ∧ win.timeMax = 0

theorem holds_skipped : skipped.Holds [] where
  durations := rfl
  count := rfl
  ec := Histogram.counts_empty
  timeMin := fun h => absurd rfl h
  timeMax := fun h => absurd rfl h
  unused := fun _ => ⟨rfl, rfl⟩

theorem holds_replicate (m : ℕ) : List.Forall₂ Holds (List.replicate m skipped) (List.replicate m []) := by
  induction m with
  | zero => exact .nil
  | succ m ih => exact .cons holds_skipped ih

theorem toUInt_lt (d : ℤ) : toUInt d < 2 ^ 32 := by
  unfold toUInt
  omega

/-- The first sample of a new window. -/
theorem holds_new (s : Sample) : (TimeWindow.new.sample s.duration s.text).Holds [s] where
  durations := rfl
  count := rfl
  ec := by simpa [sample, TimeWindow.new] using Histogram.counts_empty.bump s.text
  timeMin := fun _ => by
    have hlt := toUInt_lt s.duration
    simp only [sample, TimeWindow.new, IsLeast, lowerBounds, List.nil_append, List.mem_singleton,
      exists_eq_left, Set.mem_ofPred_eq, forall_eq']
    omega
  timeMax := fun _ => by simp [sample, TimeWindow.new, IsGreatest, upperBounds]
  unused := fun h => by cases h

/-- A further sample of a window. -/
theorem Holds.sample {win : TimeWindow} {ss : List Sample} (h : win.Holds ss) (hne : ss ≠ [])
    (s : Sample) : (win.sample s.duration s.text).Holds (ss ++ [s]) where
  durations := by simp [TimeWindow.sample, h.durations]
  count := by
    simp only [TimeWindow.sample, h.count, List.length_append, List.length_singleton]
    omega
  ec := by simpa [TimeWindow.sample] using h.ec.bump s.text
  timeMin := fun _ => by
    obtain ⟨⟨d, hd, hmin⟩, hle⟩ := h.timeMin hne
    constructor
    · rcases Nat.le_total win.timeMin (toUInt s.duration) with hlt | hlt
      · exact ⟨d, by simp [TimeWindow.sample, hd], by simp [TimeWindow.sample, hmin, hlt]⟩
      · exact ⟨s.duration, by simp [TimeWindow.sample], by simp [TimeWindow.sample, hlt]⟩
    · rintro x ⟨e, he, rfl⟩
      rcases List.mem_append.mp he with he | he
      · exact (Nat.min_le_left _ _).trans (hle ⟨e, he, rfl⟩)
      · obtain rfl := List.mem_singleton.mp he
        exact Nat.min_le_right _ _
  timeMax := fun _ => by
    obtain ⟨⟨d, hd, hmax⟩, hle⟩ := h.timeMax hne
    constructor
    · rcases Nat.le_total win.timeMax (toUInt s.duration) with hlt | hlt
      · exact ⟨s.duration, by simp [TimeWindow.sample], by simp [TimeWindow.sample, hlt]⟩
      · exact ⟨d, by simp [TimeWindow.sample, hd], by simp [TimeWindow.sample, hmax, hlt]⟩
    · rintro x ⟨e, he, rfl⟩
      rcases List.mem_append.mp he with he | he
      · exact (hle ⟨e, he, rfl⟩).trans (Nat.le_max_left _ _)
      · obtain rfl := List.mem_singleton.mp he
        exact Nat.le_max_right _ _
  unused := fun hnil => absurd hnil (by simp)

/-- What windows count of an outcome is what occurs of it in all their samples, wherever `f` reads
their counters as what they count. -/
theorem sum_getD {γ : Type*} [AddCommMonoidWithOne γ] (f : ℤ →+ γ) {wins : List TimeWindow}
    {gs : List (List Sample)} (h : List.Forall₂ Holds wins gs) {e : String}
    (hf : ∀ g ∈ gs, f (toInt ((g.map (·.text)).count e)) = ((g.map (·.text)).count e : ℕ)) :
    f (wins.map fun win => win.ec.getD e 0).sum = ((gs.flatten.map (·.text)).count e : ℕ) := by
  induction h with
  | nil => simp
  | cons hwin _ ih =>
    rw [List.map_cons, List.sum_cons, map_add, ih fun g hg => hf g (List.mem_cons_of_mem _ hg),
      getD_of_counts hwin.ec, hf _ (List.mem_cons_self ..), List.flatten_cons, List.map_append,
      List.count_append, Nat.cast_add]

end TimeWindow

/-! ## The effect of one call -/

namespace ResultSet

/-- The catch-up loop stops at the first multiple of the resolution that reaches the time frame. -/
theorem catchUp_spec {timeres : ℕ} (hres : 0 < timeres) {frame cur : ℕ} (hcur : cur < frame)
    (wins : List TimeWindow) :
    ∃ m, catchUp timeres hres frame cur wins =
        (cur + (m + 1) * timeres, wins ++ List.replicate (m + 1) TimeWindow.skipped) ∧
      cur + m * timeres < frame ∧ frame ≤ cur + (m + 1) * timeres := by
  fun_induction catchUp timeres hres frame cur wins with
  | case1 cur wins wins' hlt ih =>
    obtain ⟨m, heq, hbelow, hreach⟩ := ih hlt
    refine ⟨m + 1, ?_, ?_, ?_⟩
    · rw [heq, List.replicate_succ (n := m + 1)]
      simp only [Prod.mk.injEq, TimeWindow.skipped, wins']
      refine ⟨by rw [Nat.add_mul (m + 1) 1]; omega, by simp⟩
    · rw [Nat.add_mul m 1]
      omega
    · rw [Nat.add_mul (m + 1) 1]
      omega
  | case2 cur wins wins' hge => exact ⟨0, by simp [wins', TimeWindow.skipped], by simpa, by omega⟩

@[simp]
theorem modifyBack_append (f : TimeWindow → TimeWindow) (wins : List TimeWindow) (win : TimeWindow) :
    modifyBack f (wins ++ [win]) = wins ++ [f win] := by
  simp [modifyBack]

/-- The bookkeeping before the clock is looked at leaves the windows alone. -/
theorem record_windows (rs : ResultSet) (err : ErrorCode) (key : String) (expectValue : Bool)
    (value : Option String) :
    (rs.record err key expectValue value).timestats = rs.timestats ∧
    (rs.record err key expectValue value).winBegin = rs.winBegin ∧
    (rs.record err key expectValue value).curWintime = rs.curWintime ∧
    (rs.record err key expectValue value).opstartTmsec = rs.opstartTmsec := by
  obtain ⟨_, heq⟩ := rs.record_eq err key expectValue value
  rw [heq]
  exact ⟨rfl, rfl, rfl, rfl⟩

/-- `openWindow` makes the resolution the width of the windows. -/
theorem openWindow_timeres (rs : ResultSet) (tv : TimeVal) :
    (rs.openWindow tv).options.timeres = rs.width := by
  obtain ⟨_, _, _, heq⟩ := rs.openWindow_eq tv
  rw [heq]
  rfl

theorem openWindow_opstartTmsec (rs : ResultSet) (tv : TimeVal) :
    (rs.openWindow tv).opstartTmsec = rs.opstartTmsec := by
  obtain ⟨_, _, _, heq⟩ := rs.openWindow_eq tv
  rw [heq]

/-- The window a call of `setRescode` enters its sample into is the first one, or it is opened behind
some that are skipped, or it is the last one. -/
theorem openWindow_windows (rs : ResultSet) (tv : TimeVal) :
    (rs.curWintime = 0 ∧ (rs.openWindow tv).timestats = rs.timestats ++ [.new] ∧
      (rs.openWindow tv).winBegin = windowStart rs.width tv.sec ∧
      (rs.openWindow tv).curWintime = windowStart rs.width tv.sec) ∨
    (rs.curWintime ≠ 0 ∧ (rs.openWindow tv).winBegin = rs.winBegin ∧ ∃ m,
      (rs.openWindow tv).timestats =
        rs.timestats ++ List.replicate m TimeWindow.skipped ++ [.new] ∧
      (rs.openWindow tv).curWintime = rs.curWintime + (m + 1) * rs.width ∧
      rs.curWintime + m * rs.width < windowStart rs.width tv.sec ∧
      windowStart rs.width tv.sec ≤ rs.curWintime + (m + 1) * rs.width) ∨
    (rs.curWintime ≠ 0 ∧ windowStart rs.width tv.sec ≤ rs.curWintime ∧
      (rs.openWindow tv).winBegin = rs.winBegin ∧
      (rs.openWindow tv).timestats = rs.timestats ∧
      (rs.openWindow tv).curWintime = rs.curWintime) := by
  unfold openWindow
  dsimp only
  by_cases hzero : rs.curWintime = 0
  · rw [if_pos hzero]
    exact .inl ⟨hzero, rfl, rfl, rfl⟩
  rw [if_neg hzero]
  by_cases hlt : rs.curWintime < windowStart rs.width tv.sec
  · obtain ⟨m, heq, hbelow, hreach⟩ := catchUp_spec rs.width_pos hlt rs.timestats
    refine .inr (.inl ?_)
    unfold windowStart width at hlt
    rw [if_pos hlt]
    refine ⟨hzero, rfl, m, ?_, congrArg Prod.fst heq, hbelow, hreach⟩
    -- the last window appended is reset to a new one
    have hsnd := congrArg Prod.snd heq
    rw [List.replicate_succ', ← List.append_assoc] at hsnd
    exact (congrArg _ hsnd).trans (modifyBack_append _ _ _)
  · refine .inr (.inr ⟨hzero, Nat.le_of_not_lt hlt, ?_⟩)
    unfold windowStart width at hlt
    rw [if_neg hlt]
    exact ⟨rfl, rfl, rfl⟩

/-- The sample a call of `setRescode` enters. -/
def sampleOf (rs : ResultSet) (tv : TimeVal) (err : ErrorCode) : Sample :=
  ⟨tv.sec, tv.epochMsecs - rs.opstartTmsec, err.text⟩

section SetRescode

variable (rs : ResultSet) (tv : TimeVal) (err : ErrorCode) (key : String) (expectValue : Bool)
  (value : Option String)

@[simp]
theorem setRescodeFull_width : (rs.setRescodeFull tv err key expectValue value).width = rs.width := by
  have htimeres : (rs.setRescodeFull tv err key expectValue value).options.timeres =
      (rs.record err key expectValue value).width := openWindow_timeres _ _
  have hwidth : (rs.record err key expectValue value).width = rs.width := by simp [width]
  rw [width, htimeres, hwidth, if_neg (Nat.pos_iff_ne_zero.mp rs.width_pos)]

@[simp]
theorem setRescodeFull_opstartTmsec :
    (rs.setRescodeFull tv err key expectValue value).opstartTmsec = rs.opstartTmsec := by
  simp only [setRescodeFull, openWindow_opstartTmsec, (record_windows _ _ _ _ _).2.2.2]

@[simp]
theorem setRescodeFull_stats :
    (rs.setRescodeFull tv err key expectValue value).stats =
      Histogram.bump intCounter rs.stats err.text := by
  simp [setRescodeFull]

/-- What a call of `setRescode` does to the windows. -/
theorem setRescodeFull_windows :
    let rs' := rs.setRescodeFull tv err key expectValue value
    let frame := windowStart rs.width tv.sec
    let enter := fun win : TimeWindow =>
      win.sample (rs.sampleOf tv err).duration (rs.sampleOf tv err).text
    (rs.curWintime = 0 ∧ rs'.timestats = rs.timestats ++ [enter .new] ∧ rs'.winBegin = frame ∧
      rs'.curWintime = frame) ∨
    (rs.curWintime ≠ 0 ∧ rs'.winBegin = rs.winBegin ∧ ∃ m,
      rs'.timestats = rs.timestats ++ List.replicate m TimeWindow.skipped ++ [enter .new] ∧
      rs'.curWintime = rs.curWintime + (m + 1) * rs.width ∧
      rs.curWintime + m * rs.width < frame ∧ frame ≤ rs.curWintime + (m + 1) * rs.width) ∨
    (rs.curWintime ≠ 0 ∧ frame ≤ rs.curWintime ∧ rs'.winBegin = rs.winBegin ∧
      rs'.timestats = modifyBack enter rs.timestats ∧ rs'.curWintime = rs.curWintime) := by
  intro rs' frame enter
  obtain ⟨hwins, hbegin, hcur, hstart⟩ := record_windows rs err key expectValue value
  have hwidth : (rs.record err key expectValue value).width = rs.width := by simp [width]
  have hrs' : rs' = { (rs.record err key expectValue value).openWindow tv with
      timestats :=
        modifyBack enter ((rs.record err key expectValue value).openWindow tv).timestats } := by
    simp only [rs', setRescodeFull, openWindow_opstartTmsec, hstart, enter, sampleOf]
  have hopen := openWindow_windows (rs.record err key expectValue value) tv
  rw [hwins, hbegin, hcur, hwidth] at hopen
  rw [hrs']
  rcases hopen with ⟨hzero, hw, hb, hc⟩ | ⟨hne, hb, m, hw, hc, hbelow, hreach⟩ |
    ⟨hne, hge, hb, hw, hc⟩
  · exact .inl ⟨hzero, by rw [hw, modifyBack_append], hb, hc⟩
  · exact .inr (.inl ⟨hne, hb, m, by rw [hw, modifyBack_append], hc, hbelow, hreach⟩)
  · exact .inr (.inr ⟨hne, hge, hb, by rw [hw], hc⟩)

end SetRescode

end ResultSet

/-! ## Consistency of a run -/

/-- The windows of the result set hold the samples `gs`, window by window, and the statistics count them
all. -/
structure Consistent (rs : ResultSet) (gs : List (List Sample)) : Prop where
  windows : List.Forall₂ TimeWindow.Holds rs.timestats gs
  last : ∀ g ∈ gs.getLast?, g ≠ []
  opened : rs.curWintime ≠ 0 → gs ≠ []
  stats : Histogram.Counts intCounter rs.stats (gs.flatten.map (·.text))

/-- Each window holds its samples. -/
theorem Consistent.holds {rs : ResultSet} {gs : List (List Sample)} (h : Consistent rs gs) {i : ℕ}
    {win : TimeWindow} (hwin : rs.timestats[i]? = some win) :
    ∃ g, gs[i]? = some g ∧ win.Holds g := by
  obtain ⟨hi, rfl⟩ := List.getElem?_eq_some_iff.mp hwin
  have hi' : i < gs.length := h.windows.length_eq ▸ hi
  exact ⟨gs[i], List.getElem?_eq_getElem hi', (List.forall₂_iff_get.mp h.windows).2 i hi hi'⟩

theorem consistent_clear (rs : ResultSet) : Consistent rs.clear [] where
  windows := .nil
  last := by simp
  opened := fun h => absurd rfl h
  stats := Histogram.counts_empty

theorem Consistent.markBegin {rs : ResultSet} {gs : List (List Sample)} (h : Consistent rs gs)
    (tv : TimeVal) : Consistent (rs.markBegin tv) gs :=
  ⟨h.windows, h.last, h.opened, h.stats⟩

/-- Where a sample of the time frame `frame` is entered: in the first window, in one behind the last,
some windows being skipped, or in the last one. -/
inductive Enters (rs rs' : ResultSet) (frame : ℕ) (s : Sample) :
    List (List Sample) → List (List Sample) → Prop
  | first (gs : List (List Sample)) (hzero : rs.curWintime = 0) (hbegin : rs'.winBegin = frame)
      (hcur : rs'.curWintime = frame) : Enters rs rs' frame s gs (gs ++ [[s]])
  | later (gs : List (List Sample)) (m : ℕ) (hne : rs.curWintime ≠ 0)
      (hbegin : rs'.winBegin = rs.winBegin)
      (hcur : rs'.curWintime = rs.curWintime + (m + 1) * rs.width)
      (hbelow : rs.curWintime + m * rs.width < frame)
      (hreach : frame ≤ rs.curWintime + (m + 1) * rs.width) :
      Enters rs rs' frame s gs (gs ++ List.replicate m [] ++ [[s]])
  | last (gs : List (List Sample)) (g : List Sample) (hne : rs.curWintime ≠ 0)
      (hge : frame ≤ rs.curWintime) (hbegin : rs'.winBegin = rs.winBegin)
      (hcur : rs'.curWintime = rs.curWintime) :
      Enters rs rs' frame s (gs ++ [g]) (gs ++ [g ++ [s]])

theorem Enters.flatten {rs rs' : ResultSet} {frame : ℕ} {s : Sample} {gs gs' : List (List Sample)}
    (h : Enters rs rs' frame s gs gs') : gs'.flatten = gs.flatten ++ [s] := by
  cases h with
  | first => simp
  | later => simp
  | last => simp

/-- A call of `setRescode` keeps the windows and the statistics in step. -/
theorem Consistent.setRescode {rs : ResultSet} {gs : List (List Sample)} (h : Consistent rs gs)
    (tv : TimeVal) (err : ErrorCode) (key : String) (expectValue : Bool) (value : Option String) :
    ∃ gs', Consistent (rs.setRescodeFull tv err key expectValue value) gs' ∧
      Enters rs (rs.setRescodeFull tv err key expectValue value) (windowStart rs.width tv.sec)
        (rs.sampleOf tv err) gs gs' := by
  have hstats : ∀ gs' : List (List Sample), gs'.flatten = gs.flatten ++ [rs.sampleOf tv err] →
      Histogram.Counts intCounter (rs.setRescodeFull tv err key expectValue value).stats
        (gs'.flatten.map (·.text)) := by
    intro gs' hflat
    rw [hflat, ResultSet.setRescodeFull_stats, List.map_append]
    exact h.stats.bump err.text
  rcases rs.setRescodeFull_windows tv err key expectValue value with
    ⟨hzero, hw, hb, hc⟩ | ⟨hne, hb, m, hw, hc, hbelow, hreach⟩ | ⟨hne, hge, hb, hw, hc⟩
  · refine ⟨_, ⟨?_, by simp, by simp, hstats _ (by simp)⟩, .first gs hzero hb hc⟩
    rw [hw]
    exact List.rel_append h.windows (.cons (TimeWindow.holds_new _) .nil)
  · refine ⟨_, ⟨?_, by simp, by simp, hstats _ (by simp)⟩, .later gs m hne hb hc hbelow hreach⟩
    rw [hw]
    refine List.rel_append (List.rel_append h.windows ?_) (.cons (TimeWindow.holds_new _) .nil)
    exact TimeWindow.holds_replicate m
  · obtain ⟨gs₀, g, rfl⟩ := (List.eq_nil_or_concat' gs).resolve_left (h.opened hne)
    have hfront := List.forall₂_take_append _ _ _ h.windows
    have hback := List.forall₂_drop_append _ _ _ h.windows
    obtain ⟨win, hwin, hdrop⟩ : ∃ win : TimeWindow, win.Holds g ∧
        rs.timestats.drop gs₀.length = [win] := by
      rcases List.forall₂_cons_right_iff.mp hback with ⟨win, rest, hwin, hrest, heq⟩
      exact ⟨win, hwin, by rw [heq, List.forall₂_nil_right_iff.mp hrest]⟩
    refine ⟨_, ⟨?_, by simp, by simp, hstats _ (by simp)⟩, .last gs₀ g hne hge hb hc⟩
    rw [hw, ← List.take_append_drop gs₀.length rs.timestats, hdrop, ResultSet.modifyBack_append]
    exact List.rel_append hfront (.cons (hwin.sample (h.last g (by simp)) _) .nil)

namespace ResultSet

/-- The windows divide the samples of a run among them. -/
theorem calls_consistent {rs : ResultSet} {gs : List (List Sample)} (h : Consistent rs gs)
    (cs : List RsCall) :
    ∃ gs', Consistent (rs.calls cs) gs' ∧ gs'.flatten = gs.flatten ++ samples rs.opstartTmsec cs := by
  induction cs generalizing rs gs with
  | nil => exact ⟨gs, h, by simp [samples]⟩
  | cons c cs ih =>
    cases c with
    | markBegin tv => exact ih (h.markBegin tv)
    | setRescode tv err key expectValue value =>
      obtain ⟨gs₁, h₁, henters⟩ := h.setRescode tv err key expectValue value
      obtain ⟨gs', h', hflat⟩ := ih h₁
      refine ⟨gs', h', ?_⟩
      rw [hflat, henters.flatten, setRescodeFull_opstartTmsec, List.append_assoc]
      rfl

end ResultSet

/-! ## Placement -/

/-- The number of the window of a sample. -/
def ResultSet.slot (rs : ResultSet) (s : Sample) : ℕ :=
  (windowStart rs.width s.sec - rs.winBegin) / rs.width

/-- While the clock does not go back: the windows reach from the time frame of the first sample to the
one of the last, and each sample is in the window of its own. -/
structure Placed (rs : ResultSet) (gs : List (List Sample)) (hist : List Sample) : Prop where
  fresh : hist = [] → rs.curWintime = 0 ∧ gs = []
  nonzero : hist ≠ [] → rs.curWintime ≠ 0
  begun : ∀ s ∈ hist.head?, rs.winBegin = windowStart rs.width s.sec
  current : ∀ s ∈ hist.getLast?, rs.curWintime = windowStart rs.width s.sec
  within : ∀ s ∈ hist, rs.winBegin ≤ windowStart rs.width s.sec ∧
    windowStart rs.width s.sec ≤ rs.curWintime
  length : hist ≠ [] → gs.length = (rs.curWintime - rs.winBegin) / rs.width + 1
  groups : ∀ i < gs.length, gs[i]? = some (hist.filter (fun s => rs.slot s = i))

theorem placed_clear (rs : ResultSet) : Placed rs.clear [] [] where
  fresh := fun _ => ⟨rfl, rfl⟩
  nonzero := fun h => absurd rfl h
  begun := by simp
  current := by simp
  within := by simp
  length := fun h => absurd rfl h
  groups := by simp

theorem Placed.markBegin {rs : ResultSet} {gs : List (List Sample)} {hist : List Sample}
    (h : Placed rs gs hist) (tv : TimeVal) : Placed (rs.markBegin tv) gs hist :=
  ⟨h.fresh, h.nonzero, h.begun, h.current, h.within, h.length, h.groups⟩

section Placed

variable {rs rs' : ResultSet} {gs gs' : List (List Sample)} {hist : List Sample} {s : Sample}

/-- No sample so far is in a window that does not exist yet. -/
theorem Placed.slot_lt (h : Placed rs gs hist) {s : Sample} (hs : s ∈ hist) :
    rs.slot s < gs.length := by
  rw [h.length (List.ne_nil_of_mem hs)]
  refine Nat.lt_succ_of_le (Nat.div_le_div_right ?_)
  have := h.within s hs
  omega

/-- No sample so far is in a window behind the last one. -/
theorem Placed.filter_empty (h : Placed rs gs hist) {i : ℕ} (hi : gs.length ≤ i) :
    hist.filter (fun s => rs.slot s = i) = [] := by
  refine List.filter_eq_nil_iff.mpr fun s hs => ?_
  have := h.slot_lt hs
  simp only [decide_eq_true_eq]
  omega

theorem Placed.begin_le (h : Placed rs gs hist) (hne : hist ≠ []) :
    rs.winBegin ≤ rs.curWintime := by
  obtain ⟨s, hs⟩ := List.exists_mem_of_ne_nil _ hne
  have := h.within s hs
  omega

theorem Placed.dvd_current (h : Placed rs gs hist) : rs.width ∣ rs.curWintime := by
  by_cases hne : hist = []
  · rw [(h.fresh hne).1]
    exact Nat.dvd_zero _
  · rw [h.current _ (List.getLast?_eq_some_getLast hne)]
    exact dvd_windowStart _ _

/-- What changes when the sample `s` is entered into a window with the number `k` or behind. -/
theorem Placed.enter (h : Placed rs gs hist) (hwidth : rs'.width = rs.width)
    (hne : hist ≠ []) (hbegin : rs'.winBegin = rs.winBegin)
    (hcur : rs'.curWintime = windowStart rs.width s.sec) (hle : rs.curWintime ≤ rs'.curWintime)
    (hlength : gs'.length = (rs'.curWintime - rs'.winBegin) / rs'.width + 1)
    (hgroups : ∀ i < gs'.length, gs'[i]? = some ((hist ++ [s]).filter (fun s => rs.slot s = i))) :
    Placed rs' gs' (hist ++ [s]) where
  fresh := fun hnil => absurd hnil (by simp)
  nonzero := fun _ => by
    have := h.nonzero hne
    omega
  begun := by
    obtain ⟨t, ts, rfl⟩ := List.exists_cons_of_ne_nil hne
    rw [hbegin, hwidth]
    exact h.begun
  current := by simp [hcur, hwidth]
  within := by
    intro t ht
    rw [hwidth, hbegin]
    rcases List.mem_append.mp ht with ht | ht
    · have := h.within t ht
      omega
    · obtain rfl := List.mem_singleton.mp ht
      obtain ⟨t₀, ht₀⟩ := List.exists_mem_of_ne_nil _ hne
      have := h.within t₀ ht₀
      omega
  length := fun _ => hlength
  groups := by
    have hslot : rs'.slot = rs.slot := by
      funext t
      rw [ResultSet.slot, ResultSet.slot, hwidth, hbegin]
    rw [hslot]
    exact hgroups

/-- New windows behind the last one: only the newest of them has a sample. -/
theorem Placed.groups_later (h : Placed rs gs hist) {m : ℕ} (hslot : rs.slot s = gs.length + m) :
    ∀ i < (gs ++ List.replicate m [] ++ [[s]]).length,
      (gs ++ List.replicate m [] ++ [[s]])[i]? =
        some ((hist ++ [s]).filter (fun s => rs.slot s = i)) := by
  intro i hi
  simp only [List.length_append, List.length_replicate, List.length_singleton] at hi
  rw [List.filter_append, List.filter_singleton, hslot]
  rcases Nat.lt_trichotomy i (gs.length + m) with hlt | rfl | hgt
  · rw [List.getElem?_append_left (by simpa using hlt)]
    -- a window that was there, or one of those skipped, which no sample so far is in
    by_cases hold : i < gs.length
    · rw [List.getElem?_append_left hold, h.groups i hold]
      simp [Nat.ne_of_gt hlt]
    · rw [List.getElem?_append_right (Nat.le_of_not_lt hold), h.filter_empty (by omega)]
      simp [Nat.ne_of_gt hlt, show i - gs.length < m by omega]
  · rw [List.getElem?_append_right (by simp), h.filter_empty (by omega)]
    simp
  · omega

/-- A sample more in the last window. -/
theorem Placed.groups_last {g : List Sample} (h : Placed rs (gs ++ [g]) hist)
    (hslot : rs.slot s = gs.length) :
    ∀ i < (gs ++ [g ++ [s]]).length,
      (gs ++ [g ++ [s]])[i]? = some ((hist ++ [s]).filter (fun s => rs.slot s = i)) := by
  intro i hi
  simp only [List.length_append, List.length_singleton] at hi
  have hgroup := h.groups i (by simpa using hi)
  rw [List.filter_append, List.filter_singleton, hslot]
  rcases Nat.lt_succ_iff_lt_or_eq.mp hi with hlt | rfl
  · rw [List.getElem?_append_left hlt] at hgroup ⊢
    simp [hgroup, Nat.ne_of_gt hlt]
  · rw [List.getElem?_append_right le_rfl] at hgroup ⊢
    simp at hgroup
    simp [hgroup]

/-- A sample that is no older than the last one joins the window of its time frame. -/
theorem Placed.setRescode (h : Placed rs gs hist) (hwidth : rs'.width = rs.width)
    (henters : Enters rs rs' (windowStart rs.width s.sec) s gs gs')
    (hmono : ∀ t ∈ hist.getLast?, t.sec ≤ s.sec) (hframe : windowStart rs.width s.sec ≠ 0) :
    Placed rs' gs' (hist ++ [s]) := by
  have hw := rs.width_pos
  cases henters with
  | first gs hzero hbegin hcur =>
    -- a time frame of zero means that no sample was recorded before
    obtain rfl : hist = [] := by
      by_contra hne
      exact h.nonzero hne hzero
    obtain ⟨-, rfl⟩ := h.fresh rfl
    have hslot : rs'.slot s = 0 := by simp [ResultSet.slot, hwidth, hbegin]
    refine ⟨by simp, fun _ => by rw [hcur]; exact hframe, by simp [hbegin, hwidth],
      by simp [hcur, hwidth], by simp [hbegin, hcur, hwidth], by simp [hbegin, hcur], ?_⟩
    intro i hi
    obtain rfl : i = 0 := by simpa using hi
    simp [hslot]
  | later gs m hne hbegin hcur hbelow hreach =>
    have hhist : hist ≠ [] := fun hnil => hne (h.fresh hnil).1
    -- both ends of the gap are multiples of the width
    have hexact : windowStart rs.width s.sec = rs.curWintime + (m + 1) * rs.width :=
      eq_of_dvd_of_between (dvd_windowStart _ _) h.dvd_current hbelow hreach
    have hle := h.begin_le hhist
    have hslot : rs.slot s = gs.length + m := by
      unfold ResultSet.slot
      rw [h.length hhist, hexact, show rs.curWintime + (m + 1) * rs.width - rs.winBegin =
        rs.curWintime - rs.winBegin + (m + 1) * rs.width by omega, Nat.add_mul_div_right _ _ hw]
      omega
    refine h.enter hwidth hhist hbegin (hcur.trans hexact.symm) (by omega) ?_ (h.groups_later hslot)
    rw [hbegin, hwidth, hcur, ← hexact]
    simp only [List.length_append, List.length_replicate, List.length_singleton]
    exact congrArg (· + 1) hslot.symm
  | last gs g hne hge hbegin hcur =>
    have hhist : hist ≠ [] := fun hnil => hne (h.fresh hnil).1
    have hexact : windowStart rs.width s.sec = rs.curWintime := by
      refine Nat.le_antisymm hge ?_
      rw [h.current _ (List.getLast?_eq_some_getLast hhist)]
      exact windowStart_mono (hmono _ (List.getLast?_eq_some_getLast hhist))
    have hlen : gs.length = (rs.curWintime - rs.winBegin) / rs.width := by
      simpa using h.length hhist
    have hslot : rs.slot s = gs.length := by
      rw [ResultSet.slot, hexact, hlen]
    refine h.enter hwidth hhist hbegin (hcur.trans hexact.symm) (Nat.le_of_eq hcur.symm) ?_
      (h.groups_last hslot)
    simp [hbegin, hwidth, hcur, hlen]

end Placed

namespace ResultSet

/-- While the clock does not go back, every sample of a run is in the window of its time frame. -/
theorem calls_placed {rs : ResultSet} {gs : List (List Sample)} {hist : List Sample}
    (hc : Consistent rs gs) (hp : Placed rs gs hist) (cs : List RsCall)
    (hsorted : (hist ++ samples rs.opstartTmsec cs).Pairwise (·.sec ≤ ·.sec))
    (hframes : ∀ s ∈ samples rs.opstartTmsec cs, windowStart rs.width s.sec ≠ 0) :
    (rs.calls cs).width = rs.width ∧ ∃ gs', Consistent (rs.calls cs) gs' ∧
      Placed (rs.calls cs) gs' (hist ++ samples rs.opstartTmsec cs) := by
  induction cs generalizing rs gs hist with
  | nil =>
    rw [samples, List.append_nil]
    exact ⟨rfl, gs, hc, hp⟩
  | cons c cs ih =>
    cases c with
    | markBegin tv => exact ih (hc.markBegin tv) (hp.markBegin tv) hsorted hframes
    | setRescode tv err key expectValue value =>
      have hnext : samples rs.opstartTmsec (.setRescode tv err key expectValue value :: cs) =
          rs.sampleOf tv err ::
            samples (rs.setRescodeFull tv err key expectValue value).opstartTmsec cs := by
        rw [setRescodeFull_opstartTmsec]
        rfl
      rw [hnext] at hsorted hframes ⊢
      obtain ⟨gs₁, hc₁, henters⟩ := hc.setRescode tv err key expectValue value
      have hlast : ∀ t ∈ hist.getLast?, t.sec ≤ (rs.sampleOf tv err).sec := by
        intro t ht
        exact (List.pairwise_append.mp hsorted).2.2 t (List.mem_of_getLast? ht) _ (by simp)
      have hp₁ := hp.setRescode (setRescodeFull_width _ _ _ _ _ _) henters hlast
        (hframes _ (by simp))
      rw [List.append_cons] at hsorted ⊢
      rw [← setRescodeFull_width rs tv err key expectValue value]
      refine ih hc₁ hp₁ hsorted fun s hs => ?_
      have hframe := hframes s (List.mem_cons_of_mem _ hs)
      rwa [← setRescodeFull_width rs tv err key expectValue value] at hframe

/-- From the first sample on, the resolution is the width of the windows. -/
theorem calls_timeres (rs : ResultSet) (cs : List RsCall)
    (h : rs.options.timeres ≠ 0 ∨ samples rs.opstartTmsec cs ≠ []) :
    (rs.calls cs).options.timeres = (rs.calls cs).width := by
  induction cs generalizing rs with
  | nil => exact (if_neg (h.resolve_right (fun hne => hne rfl))).symm
  | cons c cs ih =>
    cases c with
    | markBegin tv => exact ih (rs.markBegin tv) h
    | setRescode tv err key expectValue value =>
      refine ih (rs.setRescodeFull tv err key expectValue value) (.inl ?_)
      have htimeres : (rs.setRescodeFull tv err key expectValue value).options.timeres =
          (rs.record err key expectValue value).width := openWindow_timeres _ _
      rw [htimeres]
      exact Nat.pos_iff_ne_zero.mp (width_pos _)

/-! ## What is reported -/

/-- What `resultsJson` reports: the statistics, and the windows with their base and step. -/
theorem resultsJson_fields {rs : ResultSet} {pFactor : ℤ} {root : Json}
    (h : rs.resultsJson pFactor = .ok root) :
    root.get "Summary" = statsJson rs.stats ∧
    (rs.options.timeres ≠ 0 → ∃ wins, rs.timestats.mapM (windowJson pFactor) = .ok wins ∧
      root.get "Timings" = .object [("Base", .uint rs.winBegin),
        ("Step", .uint rs.options.timeres), ("Windows", .array wins)]) := by
  unfold resultsJson at h
  dsimp only at h
  split_ifs at h with hres
  · split at h
    · cases h
    · next wins hwins =>
      cases h
      exact ⟨rfl, fun _ => ⟨wins, hwins, rfl⟩⟩
  · cases h
    exact ⟨rfl, fun hno => absurd hno hres⟩

/-- What `resultsJson` reports of a window. -/
theorem windowJson_errors {pFactor : ℤ} {win : TimeWindow} {jwin : Json}
    (h : windowJson pFactor win = .ok jwin) : jwin.get "Errors" = statsJson win.ec := by
  cases hpct : ResultSet.getPercentile pFactor win.durations with
  | none => simp [windowJson, hpct] at h
  | some pct =>
    simp only [windowJson, hpct] at h
    cases h
    rfl

/-! ## The two laws -/

/-- **Placement of the samples.** While the clock does not go back and shows no window start of zero,
the windows reach without a gap from the first time frame to the last, each holds the samples of its own
time frame, and the report gives its base and step. -/
theorem setRescode_placement (rs₀ : ResultSet) (cs : List RsCall)
    (hsorted : (samples 0 cs).Pairwise (·.sec ≤ ·.sec))
    (hframes : ∀ s ∈ samples 0 cs, windowStart rs₀.width s.sec ≠ 0) :
    let rs := rs₀.clear.calls cs
    (∀ s ∈ (samples 0 cs).head?, rs.winBegin = windowStart rs₀.width s.sec) ∧
    (∀ s ∈ (samples 0 cs).getLast?, rs.curWintime = windowStart rs₀.width s.sec) ∧
    (samples 0 cs ≠ [] →
      rs.timestats.length = (rs.curWintime - rs.winBegin) / rs₀.width + 1) ∧
    (∀ i, ∀ win : TimeWindow, rs.timestats[i]? = some win → win.Holds ((samples 0 cs).filter fun s =>
      (windowStart rs₀.width s.sec - rs.winBegin) / rs₀.width = i)) ∧
    (∀ s ∈ samples 0 cs, (windowStart rs₀.width s.sec - rs.winBegin) / rs₀.width <
      rs.timestats.length) ∧
    (∀ pFactor root, samples 0 cs ≠ [] → rs.resultsJson pFactor = .ok root → ∃ wins,
      rs.timestats.mapM (windowJson pFactor) = .ok wins ∧
      root.get "Timings" = .object [("Base", .uint rs.winBegin), ("Step", .uint rs₀.width),
        ("Windows", .array wins)]) := by
  intro rs
  obtain ⟨hwidth, gs, hc, hp⟩ := calls_placed (consistent_clear rs₀) (placed_clear rs₀) cs
    hsorted hframes
  rw [List.nil_append] at hp
  have hwidth₀ : rs.width = rs₀.width := hwidth
  have hlen := hc.windows.length_eq
  refine ⟨hwidth₀ ▸ hp.begun, hwidth₀ ▸ hp.current, fun hne => ?_, fun i win hwin => ?_,
    fun s hs => ?_, fun pFactor root hne hroot => ?_⟩
  · rw [hlen, hp.length hne, hwidth₀]
  · obtain ⟨g, hg, hholds⟩ := hc.holds hwin
    have hgroup := hp.groups i (List.getElem?_eq_some_iff.mp hg).1
    rw [hg, Option.some.injEq] at hgroup
    have hslot : rs.slot = fun s => (windowStart rs₀.width s.sec - rs.winBegin) / rs₀.width := by
      funext s
      rw [slot, hwidth₀]
    rw [hgroup] at hholds
    have hfilter : (samples 0 cs).filter (fun s => rs.slot s = i) = (samples 0 cs).filter fun s =>
        (windowStart rs₀.width s.sec - rs.winBegin) / rs₀.width = i := by
      rw [hslot]
    rw [← hfilter]
    exact hholds
  · rw [hlen]
    have := hp.slot_lt hs
    rwa [slot, hwidth₀] at this
  · have htimeres : rs.options.timeres = rs₀.width :=
      (calls_timeres rs₀.clear cs (.inr hne)).trans hwidth₀
    rw [← htimeres]
    refine (resultsJson_fields hroot).2 ?_
    rw [htimeres]
    exact Nat.pos_iff_ne_zero.mp rs₀.width_pos

/-- Windows of five seconds: two outcomes in the first one, none in the next two, one in the last. -/
theorem setRescode_placement_gap :
    let cs := [.markBegin ⟨11, 0⟩, .setRescode ⟨11, 5000⟩ .success "" false none,
      .setRescode ⟨14, 0⟩ .success "" false none, .setRescode ⟨26, 0⟩ .success "" false none]
    let rs := ({ new with options := { ResultOptions.default with
      timeres := 5, settled := fun _ _ => rfl } } : ResultSet).clear.calls cs
    ∀ i, ∀ win : TimeWindow, rs.timestats[i]? = some win → win.Holds
      ((samples 0 cs).filter fun s => (windowStart 5 s.sec - rs.winBegin) / 5 = i) := by
  intro cs rs
  have hplaced := setRescode_placement { new with options := { ResultOptions.default with
    timeres := 5, settled := fun _ _ => rfl } } cs (by decide) (by decide)
  exact hplaced.2.2.2.1

/-- What `int` arithmetic keeps of a number. -/
theorem toInt_eq_toInt_iff {x y : ℤ} : toInt x = toInt y ↔ (x : ZMod (2 ^ 32)) = y := by
  rw [ZMod.intCast_eq_intCast_iff]
  constructor
  · intro h
    have hmod := congrArg (· % ((2 ^ 32 : ℕ) : ℤ)) h
    simpa only [toInt, Int.bmod_emod, Int.ModEq] using hmod
  · intro h
    unfold toInt
    rw [← Int.emod_bmod x, ← Int.emod_bmod y, h]

theorem cast_toInt (n : ℕ) : Int.castAddHom (ZMod (2 ^ 32)) (toInt n) = n := by
  have h : ((toInt n : ℤ) : ZMod (2 ^ 32)) = (n : ℤ) :=
    toInt_eq_toInt_iff.mp (Int.bmod_bmod ..)
  simpa using h

/-- **Consistency of the statistics.** In every run, whatever the clock shows, a window counts its samples
and their outcomes, as far as its counters reach, and knows their bounds; the windows together count what
the statistics count; and these are the counts reported. Short of `2 ^ 31` outcomes with one text the
counts of outcomes are exact. -/
theorem setRescode_consistency (rs₀ : ResultSet) (cs : List RsCall) :
    let rs := rs₀.clear.calls cs
    (∀ win ∈ rs.timestats,
      win.count = win.durations.length % 2 ^ 32 ∧
      toInt (win.ec.toList.map Prod.snd).sum = toInt win.durations.length ∧
      (win.durations ≠ [] → IsLeast {x | ∃ d ∈ win.durations, toUInt d = x} win.timeMin ∧
        IsGreatest {x | ∃ d ∈ win.durations, toUInt d = x} win.timeMax) ∧
      (win.durations = [] → win.timeMin = 0 ∧ win.timeMax = 0)) ∧
    (∀ e, rs.stats.getD e 0 = toInt (rs.timestats.map fun win => win.ec.getD e 0).sum) ∧
    ((∀ e, ((samples 0 cs).map (·.text)).count e < 2 ^ 31) →
      (∀ win ∈ rs.timestats, (win.ec.toList.map Prod.snd).sum = win.durations.length) ∧
      ∀ e, rs.stats.getD e 0 = (rs.timestats.map fun win => win.ec.getD e 0).sum) ∧
    (∀ pFactor root, rs.resultsJson pFactor = .ok root → root.get "Summary" = statsJson rs.stats ∧
      (rs.options.timeres ≠ 0 → ∃ wins, (root.get "Timings").get "Windows" = .array wins ∧
        List.Forall₂ (fun win jwin => jwin.get "Errors" = statsJson win.ec) rs.timestats wins)) := by
  intro rs
  obtain ⟨gs, hc, hflat⟩ := calls_consistent (consistent_clear rs₀) cs
  rw [List.flatten_nil, List.nil_append] at hflat
  have hfewIn : (∀ e, ((samples 0 cs).map (·.text)).count e < 2 ^ 31) →
      ∀ g ∈ gs, ∀ e, (g.map (·.text)).count e < 2 ^ 31 := by
    intro hfew g hg e
    have hsub := (List.sublist_flatten_of_mem hg).map (·.text)
    rw [hflat] at hsub
    exact (hsub.count_le e).trans_lt (hfew e)
  refine ⟨fun win hwin => ?_, fun e => ?_, fun hfew => ⟨fun win hwin => ?_, fun e => ?_⟩,
    fun pFactor root hroot => ?_⟩
  · obtain ⟨i, hi⟩ := List.mem_iff_getElem?.mp hwin
    obtain ⟨g, -, hholds⟩ := hc.holds hi
    have hlen : win.durations.length = g.length := by rw [hholds.durations, List.length_map]
    have hnil : win.durations = [] ↔ g = [] := by rw [hholds.durations, List.map_eq_nil_iff]
    refine ⟨by rw [hlen, hholds.count], ?_, fun hne => ?_, fun h => hholds.unused (hnil.mp h)⟩
    · rw [toInt_eq_toInt_iff, hlen]
      simpa using hholds.ec.sum_eq (Int.castAddHom (ZMod (2 ^ 32))) fun e _ => by
        rw [intCounter_reading, cast_toInt]
    · exact ⟨hholds.timeMin (mt hnil.mpr hne), hholds.timeMax (mt hnil.mpr hne)⟩
  · rw [getD_of_counts hc.stats, toInt_eq_toInt_iff]
    simpa using (TimeWindow.sum_getD (Int.castAddHom (ZMod (2 ^ 32))) hc.windows
      fun g _ => cast_toInt _).symm
  · obtain ⟨i, hi⟩ := List.mem_iff_getElem?.mp hwin
    obtain ⟨g, hg, hholds⟩ := hc.holds hi
    have hexact := counts_exact hholds.ec (hfewIn hfew g (List.mem_of_getElem? hg))
    simpa [hholds.durations] using hexact.sum_eq (AddMonoidHom.id ℤ) fun _ _ => rfl
  · have hsum := TimeWindow.sum_getD (AddMonoidHom.id ℤ) hc.windows fun g hg => by
      rw [AddMonoidHom.id_apply, toInt_natCast (hfewIn hfew g hg e)]
    have hlt : (gs.flatten.map (·.text)).count e < 2 ^ 31 := hflat ▸ hfew e
    rw [getD_of_counts hc.stats, toInt_natCast hlt]
    exact hsum.symm
  · obtain ⟨hsummary, htimings⟩ := resultsJson_fields hroot
    refine ⟨hsummary, fun hres => ?_⟩
    obtain ⟨wins, hwins, heq⟩ := htimings hres
    rw [heq]
    exact ⟨wins, rfl, (Fallible.forall₂_of_mapM hwins).imp fun _ _ => windowJson_errors⟩

/-- Outcomes of one second go into one window. -/
theorem calls_oneSecond (n : ℕ) (hn : 0 < n) :
    ∃ win ∈ (new.clear.calls (List.replicate n
      (.setRescode ⟨1, 0⟩ .success "" false none))).timestats,
      win.Holds (List.replicate n ⟨1, 1000, "success"⟩) := by
  have hsamples : ∀ n, samples 0 (List.replicate n (.setRescode ⟨1, 0⟩ .success "" false none)) =
      List.replicate n ⟨1, 1000, "success"⟩ := by
    intro n
    induction n with
    | zero => rfl
    | succ n ih =>
      rw [List.replicate_succ, List.replicate_succ, ← ih]
      rfl
  have hhist : samples new.clear.opstartTmsec
      (List.replicate n (.setRescode ⟨1, 0⟩ .success "" false none)) =
      List.replicate n ⟨1, 1000, "success"⟩ := hsamples n
  have hsec : ∀ s ∈ List.replicate n (⟨1, 1000, "success"⟩ : Sample), s.sec = 1 := by
    intro s hs
    rw [List.eq_of_mem_replicate hs]
  obtain ⟨-, gs, hc, hp⟩ := calls_placed (consistent_clear new) (placed_clear new)
    (List.replicate n (.setRescode ⟨1, 0⟩ .success "" false none))
    (by simp [hhist, List.pairwise_replicate])
    (by
      intro s hs
      rw [hhist] at hs
      rw [hsec s hs]
      decide)
  rw [hhist, List.nil_append] at hp
  have hne : List.replicate n (⟨1, 1000, "success"⟩ : Sample) ≠ [] := by
    simp [Nat.ne_of_gt hn]
  have hpos : 0 < gs.length := by
    rw [hp.length hne]
    exact Nat.succ_pos _
  -- the first sample determines where the windows begin
  have hbegin := hp.begun ⟨1, 1000, "success"⟩ (by simp [List.head?_replicate, Nat.ne_of_gt hn])
  have hgroup := hp.groups 0 hpos
  rw [List.filter_eq_self.mpr (fun s hs => by
    simp [slot, hsec s hs, hbegin])] at hgroup
  have hlt := hpos
  rw [← hc.windows.length_eq] at hlt
  obtain ⟨g, hg, hholds⟩ := hc.holds (List.getElem?_eq_getElem hlt)
  obtain rfl : List.replicate n ⟨1, 1000, "success"⟩ = g := Option.some.inj (hgroup.symm.trans hg)
  exact ⟨_, List.getElem_mem hlt, hholds⟩

/-- A window that was entered `2 ^ 31` successes counts them in an `int`. -/
theorem ec_wraps :
    ∃ win ∈ (new.clear.calls (List.replicate (2 ^ 31)
      (.setRescode ⟨1, 0⟩ .success "" false none))).timestats,
      win.count = 2 ^ 31 ∧ win.durations.length = 2 ^ 31 ∧
      (win.ec.toList.map Prod.snd).sum = -2 ^ 31 := by
  obtain ⟨win, hwin, hholds⟩ := calls_oneSecond (2 ^ 31) (Nat.two_pow_pos 31)
  have hne : (2 ^ 31 : ℕ) ≠ 0 := Nat.ne_of_gt (Nat.two_pow_pos 31)
  refine ⟨win, hwin, ?_, ?_, ?_⟩
  · rw [hholds.count, List.length_replicate]
    decide +kernel
  · rw [hholds.durations, List.length_map, List.length_replicate]
  · rw [hholds.ec.sum_readings, List.map_replicate, List.replicate_dedup hne, List.map_singleton,
      List.sum_singleton, List.count_replicate_self, intCounter_reading]
    decide +kernel

end ResultSet

end Sdkd
