import Mathlib.Algebra.Ring.Int.Defs
import Mathlib.Tactic.SplitIfs
import Sdkd.Lib.Histogram
import Sdkd.Message

/-!
# Result sets

`ResultSet.h` and `ResultSet.cpp`: the options of an operation, the time windows, and the result set
that `setRescode` fills with one outcome after another.

The `int` counters of the maps and of the outstanding results and the `unsigned` fields of a window
are registers of 32 bits, which wrap.
-/

namespace Sdkd

structure TimeVal where
  sec : ℕ
  usec : ℕ
  deriving DecidableEq

/-- `getEpochMsecs`. -/
def TimeVal.epochMsecs (tv : TimeVal) : ℤ := tv.sec * 1000 + (tv.usec / 1000 : ℕ)

/-- The options of an operation. `settled` is what `_determine_delay` leaves behind; the delays are
unsigned 32-bit numbers. -/
structure ResultOptions where
  full : Bool
  expiry : ℕ
  iterwait : ℕ
  delayMin : ℕ
  delayMax : ℕ
  delay : ℕ
  timeres : ℕ
  settled : delay = 0 → delayMin = delayMax → delayMax = 0
  delayMin_lt : delayMin < 2 ^ 32
  delayMax_lt : delayMax < 2 ^ 32

namespace ResultOptions

/-- `_determine_delay`: the new values of `delay_min`, `delay_max` and `delay`. -/
def determineDelay (delayMin delayMax delay : ℕ) : ℕ × ℕ × ℕ :=
  if delay ≠ 0 then (delay, delay, delay)
  else if delayMin = delayMax then (delayMax, delayMax, delayMax)
  else (delayMin, delayMax, delay)

theorem determineDelay_settled (delayMin delayMax delay : ℕ) :
    (determineDelay delayMin delayMax delay).2.2 = 0 →
    (determineDelay delayMin delayMax delay).1 = (determineDelay delayMin delayMax delay).2.1 →
    (determineDelay delayMin delayMax delay).2.1 = 0 := by
  unfold determineDelay
  split_ifs with hd he
  · exact fun h _ => h
  · exact fun h _ => h
  · exact fun _ h => absurd h he

theorem determineDelay_lt {delayMin delayMax delay b : ℕ} (hmin : delayMin < b) (hmax : delayMax < b)
    (hdelay : delay < b) :
    (determineDelay delayMin delayMax delay).1 < b ∧
    (determineDelay delayMin delayMax delay).2.1 < b := by
  unfold determineDelay
  split_ifs
  · exact ⟨hdelay, hdelay⟩
  · exact ⟨hmax, hmax⟩
  · exact ⟨hmin, hmax⟩

def make (full : Bool) (expiry iterwait delayMin delayMax delay timeres : ℕ)
    (hmin : delayMin < 2 ^ 32) (hmax : delayMax < 2 ^ 32) (hdelay : delay < 2 ^ 32) :
    ResultOptions where
  full := full
  expiry := expiry
  iterwait := iterwait
  delayMin := (determineDelay delayMin delayMax delay).1
  delayMax := (determineDelay delayMin delayMax delay).2.1
  delay := (determineDelay delayMin delayMax delay).2.2
  timeres := timeres
  settled := determineDelay_settled delayMin delayMax delay
  delayMin_lt := (determineDelay_lt hmin hmax hdelay).1
  delayMax_lt := (determineDelay_lt hmin hmax hdelay).2

/-- The default constructor. -/
def default : ResultOptions := make false 0 0 0 0 0 0 (by decide) (by decide) (by decide)

def ofJson [JsonAccess] (opts : Json) : ResultOptions :=
  make (asTruthVal (opts.get "Detailed")) (asUInt (opts.get "Expiry"))
    (asUInt (opts.get "IterWait")) (asUInt (opts.get "DelayMin")) (asUInt (opts.get "DelayMax"))
    (asUInt (opts.get "DelayMsec")) (asUInt (opts.get "TimeRes"))
    (JsonAccess.asUInt_lt _) (JsonAccess.asUInt_lt _) (JsonAccess.asUInt_lt _)

/-- Whether `getDelay` asks for a random number. -/
def drawsDelay (o : ResultOptions) : Bool :=
  o.delay = 0 ∧ ¬ (o.delayMin = o.delayMax ∧ o.delayMax = 0)

/-- `getDelay` in unsigned 32-bit arithmetic, where `rand` is the value `rand()` returns. -/
def getDelay (o : ResultOptions) (rand : ℕ) : Except Crash ℕ :=
  if o.drawsDelay then
    let span := (o.delayMax + 2 ^ 32 - o.delayMin) % 2 ^ 32
    if span = 0 then .error .divisionByZero else .ok ((o.delayMin + rand % span) % 2 ^ 32)
  else .ok o.delay

/-- `getDelay` never divides by zero. -/
theorem getDelay_ok (o : ResultOptions) (rand : ℕ) : ∃ d, o.getDelay rand = .ok d := by
  unfold getDelay
  cases hdraw : o.drawsDelay with
  | false => exact ⟨_, rfl⟩
  | true =>
    simp only [drawsDelay, decide_eq_true_eq] at hdraw
    have hne : o.delayMin ≠ o.delayMax := fun heq => hdraw.2 ⟨heq, o.settled hdraw.1 heq⟩
    have hmin := o.delayMin_lt
    have hmax := o.delayMax_lt
    have hspan : (o.delayMax + 2 ^ 32 - o.delayMin) % 2 ^ 32 ≠ 0 := by omega
    rw [if_pos rfl]
    exact ⟨_, if_neg hspan⟩

end ResultOptions

/-- `x` as a 32-bit `int`. -/
def toInt (x : ℤ) : ℤ := x.bmod (2 ^ 32)

theorem toInt_of_bounds {x : ℤ} (hlo : -2 ^ 31 ≤ x) (hhi : x < 2 ^ 31) : toInt x = x := by
  unfold toInt
  rw [Int.bmod_eq_of_le] <;> omega

theorem toInt_toInt_add (x y : ℤ) : toInt (toInt x + y) = toInt (x + y) := Int.bmod_add_bmod

theorem toInt_natCast {n : ℕ} (h : n < 2 ^ 31) : toInt n = n := toInt_of_bounds (by omega) (by omega)

/-- The `int` counters of `std::map<std::string, int>`. -/
def intCounter : Histogram.Counter ℤ where
  step x := toInt (x + 1)
  reading n := toInt n
  reading_succ n := by rw [Nat.cast_succ, toInt_toInt_add]

@[simp] theorem intCounter_reading (n : ℕ) : intCounter.reading n = toInt n := by
  simp only [intCounter]

theorem getD_of_counts {m : Std.TreeMap String ℤ} {texts : List String}
    (h : Histogram.Counts intCounter m texts) (text : String) :
    m.getD text 0 = toInt (texts.count text) := by
  have hzero : intCounter.reading 0 = 0 := by simp [toInt]
  rw [← intCounter_reading, ← h.getD_eq text, hzero]

/-- Short of `2 ^ 31` occurrences of a text the counters hold the number of its occurrences. -/
theorem counts_exact {m : Std.TreeMap String ℤ} {texts : List String}
    (h : Histogram.Counts intCounter m texts) (hfew : ∀ text, texts.count text < 2 ^ 31) :
    Histogram.Counts (.exact ℤ) m texts := by
  refine h.congr fun text _ => ?_
  rw [intCounter_reading, Histogram.Counter.exact_reading]
  exact toInt_natCast (hfew text)

structure TimeWindow where
  timeTotal : ℕ
  timeMin : ℕ
  timeMax : ℕ
  durations : List ℤ
  count : ℕ
  ec : Std.TreeMap String ℤ

/-- The value of `(unsigned int)d`. -/
def toUInt (d : ℤ) : ℕ := (d % 2 ^ 32).toNat

namespace TimeWindow

def new : TimeWindow := ⟨0, 2 ^ 32 - 1, 0, [], 0, ∅⟩

/-- Enter one sample of the given duration and outcome text. -/
def sample (win : TimeWindow) (duration : ℤ) (myerr : String) : TimeWindow where
  count := (win.count + 1) % 2 ^ 32
  timeTotal := toUInt (win.timeTotal + duration)
  timeMin := min win.timeMin (toUInt duration)
  timeMax := max win.timeMax (toUInt duration)
  durations := win.durations ++ [duration]
  ec := Histogram.bump intCounter win.ec myerr

end TimeWindow

/-- The result set of a request. `recorded` is a history variable: the outcomes handed to `setRescode`
since the last `clear`. -/
structure ResultSet where
  stats : Std.TreeMap String ℤ
  fullstats : Std.TreeMap String String
  timestats : List TimeWindow
  options : ResultOptions
  operError : Error
  remaining : ℤ
  vrespComplete : Bool
  winBegin : ℕ
  curWintime : ℕ
  opstartTmsec : ℤ
  recorded : List ErrorCode

/-- The text an outcome is counted under. -/
def ErrorCode.text (ec : ErrorCode) : String := if ec.isSet then ec.message else "success"

namespace ResultSet

/-- A result set as its constructor leaves it. -/
def new : ResultSet where
  stats := ∅
  fullstats := ∅
  timestats := []
  options := .default
  operError := .success
  remaining := 0
  vrespComplete := false
  winBegin := 0
  curWintime := 0
  opstartTmsec := 0
  recorded := []

def clear (rs : ResultSet) : ResultSet :=
  { rs with stats := ∅, fullstats := ∅, timestats := [], remaining := 0, winBegin := 0,
            curWintime := 0, opstartTmsec := 0, recorded := [] }

/-- `markBegin`, with the reading of the clock it stores. -/
def markBegin (rs : ResultSet) (tv : TimeVal) : ResultSet :=
  { rs with opstartTmsec := tv.epochMsecs }

/-- The catch-up loop: append empty windows until the current time frame is met. -/
def catchUp (timeres : ℕ) (hres : 0 < timeres) (frame cur : ℕ) (wins : List TimeWindow) :
    ℕ × List TimeWindow :=
  let wins := wins ++ [{ TimeWindow.new with timeMin := 0 }]
  if cur + timeres < frame then catchUp timeres hres frame (cur + timeres) wins
  else (cur + timeres, wins)
termination_by frame - cur

/-- Change the last window. -/
def modifyBack (f : TimeWindow → TimeWindow) (wins : List TimeWindow) : List TimeWindow :=
  match wins.getLast? with
  | some w => wins.dropLast ++ [f w]
  | none => []

theorem timeres_pos (r : ℕ) : 0 < if r = 0 then 1 else r := by
  split_ifs <;> omega

/-- Make the last window the one of the time frame of `tv`. -/
def openWindow (rs : ResultSet) (tv : TimeVal) : ResultSet :=
  let timeres := if rs.options.timeres = 0 then 1 else rs.options.timeres
  let rs := { rs with options := { rs.options with timeres := timeres } }
  let frame := tv.sec - tv.sec % timeres
  if rs.curWintime = 0 then
    { rs with curWintime := frame, winBegin := frame, timestats := rs.timestats ++ [.new] }
  else if rs.curWintime < frame then
    let caught := catchUp timeres (timeres_pos _) frame rs.curWintime rs.timestats
    { rs with
      curWintime := caught.1
      timestats := modifyBack (fun w => { w with timeMin := 2 ^ 32 - 1 }) caught.2 }
  else rs

/-- The bookkeeping of `setRescode` before it looks at the clock. `key` and `value` are the strings
its pointer and length arguments describe; a null pointer is `none`. -/
def record (rs : ResultSet) (err : ErrorCode) (key : String) (expectValue : Bool)
    (value : Option String) : ResultSet :=
  let strkey := if (value.getD "").length ≠ 0 then key else ""
  let rs := { rs with
    stats := Histogram.bump intCounter rs.stats err.text
    remaining := toInt (rs.remaining - 1)
    recorded := rs.recorded ++ [err] }
  if rs.options.full then
    if expectValue then { rs with fullstats := rs.fullstats.insert strkey (value.getD "") }
    else { rs with fullstats := rs.fullstats.insert strkey err.text }
  else rs

/-- `setRescode`, with the reading of the clock it takes. -/
def setRescodeFull (rs : ResultSet) (tv : TimeVal) (err : ErrorCode) (key : String)
    (expectValue : Bool) (value : Option String) : ResultSet :=
  let rs := (rs.record err key expectValue value).openWindow tv
  { rs with
    timestats := modifyBack (·.sample (tv.epochMsecs - rs.opstartTmsec) err.text) rs.timestats }

/-- `setRescode(err)`. -/
def setRescode (rs : ResultSet) (tv : TimeVal) (err : ErrorCode) : ResultSet :=
  rs.setRescodeFull tv err "" false none

/-- `setRescode(err, isFinal)`. -/
def setRescodeFinal (rs : ResultSet) (tv : TimeVal) (err : ErrorCode) (isFinal : Bool) : ResultSet :=
  { rs with vrespComplete := isFinal }.setRescodeFull tv err "" false none

/-- The index of `getPercentile`; `none` is an overflow of the product. -/
def percentileIndex (pFactor size : ℤ) : Option ℤ :=
  if size * pFactor < -2 ^ 31 ∨ 2 ^ 31 ≤ size * pFactor then none
  else some ((size * pFactor).tdiv 100 - 1)

/-- `getPercentile`; `none` is an overflow or an access outside the sorted vector. The size of the
vector is looked at as an `int`. -/
def getPercentile (pFactor : ℤ) (durations : List ℤ) : Option ℤ :=
  let size := toInt durations.length
  if size = 0 then some 0
  else if size = 1 then durations.head?
  else
    match percentileIndex pFactor size with
    | none => none
    | some idx => if idx < 0 then none else (durations.mergeSort (· ≤ ·))[idx.toNat]?

def statsJson (stats : Std.TreeMap String ℤ) : Json :=
  stats.toList.foldl (fun j e => j.set e.1 (.int e.2)) (.object [])

def windowJson (pFactor : ℤ) (win : TimeWindow) : Except Crash Json :=
  (getPercentile pFactor win.durations).elim (.error .outOfBounds) fun pct =>
    .ok (.object [("Count", .uint win.count), ("Min", .uint win.timeMin),
      ("Max", .uint win.timeMax),
      ("Avg", .uint (if win.count ≠ 0 then win.timeTotal / win.count else 0)),
      ("Errors", statsJson win.ec), ("Percentile", .int pct)])

/-- `resultsJson`. -/
def resultsJson (pFactor : ℤ) (rs : ResultSet) : Except Crash Json :=
  let root := Json.null.set "Summary" (statsJson rs.stats)
  if rs.options.timeres ≠ 0 then
    match rs.timestats.mapM (windowJson pFactor) with
    | .error e => .error e
    | .ok wins => .ok (root.set "Timings" (.object [("Base", .uint rs.winBegin),
        ("Step", .uint rs.options.timeres), ("Windows", .array wins)]))
  else .ok root

/-! ## What `setRescode` changes -/

/-- `openWindow` changes nothing but the windows and the resolution. -/
theorem openWindow_eq (rs : ResultSet) (tv : TimeVal) :
    ∃ winBegin curWintime timestats, rs.openWindow tv =
      { rs with options := { rs.options with
                  timeres := if rs.options.timeres = 0 then 1 else rs.options.timeres },
                winBegin := winBegin, curWintime := curWintime, timestats := timestats } := by
  unfold openWindow
  dsimp only
  by_cases hzero : rs.curWintime = 0
  · rw [if_pos hzero]
    exact ⟨_, _, _, rfl⟩
  rw [if_neg hzero]
  by_cases hlt : rs.curWintime <
      tv.sec - tv.sec % (if rs.options.timeres = 0 then 1 else rs.options.timeres)
  · rw [if_pos hlt]
    exact ⟨_, _, _, rfl⟩
  · rw [if_neg hlt]
    exact ⟨_, _, _, rfl⟩

section OpenWindow

variable (rs : ResultSet) (tv : TimeVal)

@[simp] theorem openWindow_stats : (rs.openWindow tv).stats = rs.stats := by
  obtain ⟨_, _, _, heq⟩ := rs.openWindow_eq tv
  rw [heq]

@[simp] theorem openWindow_remaining : (rs.openWindow tv).remaining = rs.remaining := by
  obtain ⟨_, _, _, heq⟩ := rs.openWindow_eq tv
  rw [heq]

@[simp] theorem openWindow_recorded : (rs.openWindow tv).recorded = rs.recorded := by
  obtain ⟨_, _, _, heq⟩ := rs.openWindow_eq tv
  rw [heq]

@[simp] theorem openWindow_iterwait :
    (rs.openWindow tv).options.iterwait = rs.options.iterwait := by
  obtain ⟨_, _, _, heq⟩ := rs.openWindow_eq tv
  rw [heq]

end OpenWindow

section Record

variable (rs : ResultSet) (err : ErrorCode) (key : String) (expectValue : Bool)
  (value : Option String)

/-- `record` changes nothing but the counters and the full results. -/
theorem record_eq : ∃ fullstats, rs.record err key expectValue value =
    { rs with stats := Histogram.bump intCounter rs.stats err.text,
              remaining := toInt (rs.remaining - 1),
              recorded := rs.recorded ++ [err], fullstats := fullstats } := by
  unfold record
  dsimp only
  split_ifs <;> exact ⟨_, rfl⟩

@[simp] theorem record_stats :
    (rs.record err key expectValue value).stats = Histogram.bump intCounter rs.stats err.text := by
  obtain ⟨_, heq⟩ := rs.record_eq err key expectValue value
  rw [heq]

@[simp] theorem record_remaining :
    (rs.record err key expectValue value).remaining = toInt (rs.remaining - 1) := by
  obtain ⟨_, heq⟩ := rs.record_eq err key expectValue value
  rw [heq]

@[simp] theorem record_recorded :
    (rs.record err key expectValue value).recorded = rs.recorded ++ [err] := by
  obtain ⟨_, heq⟩ := rs.record_eq err key expectValue value
  rw [heq]

@[simp] theorem record_options :
    (rs.record err key expectValue value).options = rs.options := by
  obtain ⟨_, heq⟩ := rs.record_eq err key expectValue value
  rw [heq]

end Record

@[simp] theorem setRescode_stats (rs : ResultSet) (tv : TimeVal) (err : ErrorCode) :
    (rs.setRescode tv err).stats = Histogram.bump intCounter rs.stats err.text := by
  simp [setRescode, setRescodeFull]

@[simp] theorem setRescode_remaining (rs : ResultSet) (tv : TimeVal) (err : ErrorCode) :
    (rs.setRescode tv err).remaining = toInt (rs.remaining - 1) := by
  simp [setRescode, setRescodeFull]

@[simp] theorem setRescode_recorded (rs : ResultSet) (tv : TimeVal) (err : ErrorCode) :
    (rs.setRescode tv err).recorded = rs.recorded ++ [err] := by
  simp [setRescode, setRescodeFull]

@[simp] theorem setRescodeFinal_recorded (rs : ResultSet) (tv : TimeVal) (err : ErrorCode)
    (isFinal : Bool) : (rs.setRescodeFinal tv err isFinal).recorded = rs.recorded ++ [err] := by
  simp [setRescodeFinal, setRescodeFull]

@[simp] theorem setRescode_iterwait (rs : ResultSet) (tv : TimeVal) (err : ErrorCode) :
    (rs.setRescode tv err).options.iterwait = rs.options.iterwait := by
  simp [setRescode, setRescodeFull]

end ResultSet

end Sdkd
