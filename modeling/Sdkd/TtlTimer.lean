import Sdkd.Control

/-!
# The daemon's time to live

`sdkd_init_timer` and `sdkd_set_ttl` of `IODispatch.cpp`, the timer of `ThreadUnix.cpp` on the alarm clock
of the process, and the commands that set it. Time passes in whole seconds, as the alarm clock counts it.

## Main definitions

- `GlobalTimer`, `GlobalTimer.setTtl`
- `TtlRun` — the control thread serves commands while time passes
- `Overdue` — what the timer is for: the last time to live set has run out

## Main results

- `aborted_iff` — the daemon is killed by its timer exactly when that has happened
-/

namespace Sdkd

/-- `Global_Timer` and the alarm clock: whether the timer has been created, whether it counts as set, the
seconds left until the alarm, and whether the alarm has gone off, which aborts the process. -/
structure GlobalTimer where
  created : Bool
  initialized : Bool
  alarm : Option ℕ
  aborted : Bool
  deriving DecidableEq

namespace GlobalTimer

/-- `sdkd_init_timer`. -/
def init : GlobalTimer := ⟨false, false, none, false⟩

/-- `PosixTimer::schedule`: `alarm` forgets what was set before, and `alarm(0)` sets nothing. -/
def schedule (t : GlobalTimer) (seconds : ℕ) : GlobalTimer :=
  { t with alarm := if seconds = 0 then none else some seconds }

/-- `Timer::disable`. -/
def disable (t : GlobalTimer) : GlobalTimer := t.schedule 0

/-- `sdkd_set_ttl`. -/
def setTtl (t : GlobalTimer) (seconds : ℕ) : GlobalTimer :=
  let t := { t with created := true }
  let t := if t.initialized then { t.disable with initialized := false } else t
  if seconds ≠ 0 then { t.schedule seconds with initialized := true } else t

/-- A second passes; when the last one has, `ttl_expired_func` aborts the process. -/
def second (t : GlobalTimer) : GlobalTimer :=
  match t.alarm with
  | none => t
  | some left => if left ≤ 1 then { t with alarm := none, aborted := true }
    else { t with alarm := some (left - 1) }

end GlobalTimer

/-! ## Commands and time -/

/-- What happens to the daemon: a command on the control connection, or a second passes. -/
inductive TtlEvent where
  | command (env : ControlEnv) (req : Request)
  | second

section Run

variable [JsonAccess] [JsonWriter]

/-- The time to live a command sets, if it sets one. -/
def ttlOf (req : Request) : Option ℕ :=
  if req.command.code = .ttl ∧ req.payload.isMember "Seconds" = true then
    some (asInt (req.payload.get "Seconds")).toNat
  else none

/-- One event. A process that has aborted does nothing more. -/
def ttlStep (s : MainDispatch × GlobalTimer) (ev : TtlEvent) :
    Except Crash (MainDispatch × GlobalTimer) :=
  if s.2.aborted then .ok s
  else
    match ev with
    | .second => .ok (s.1, s.2.second)
    | .command env req =>
      match s.1.dispatchCommand env req with
      | .error e => .error e
      | .ok (_, md) => .ok (md, if (ttlOf req).isSome then s.2.setTtl md.ttl else s.2)

/-- The daemon as its constructor leaves the timer; `initialTTL` is an `int` handed on as an unsigned
number. -/
def ttlStart (initialTTL : ℤ) (md : MainDispatch) : MainDispatch × GlobalTimer :=
  (md, GlobalTimer.init.setTtl (toUInt initialTTL))

/-- A run of the daemon, as far as its timer goes. -/
inductive TtlRun (initialTTL : ℤ) (md₀ : MainDispatch) : List TtlEvent → MainDispatch × GlobalTimer → Prop
  | start : TtlRun initialTTL md₀ [] (ttlStart initialTTL md₀)
  | step {evs : List TtlEvent} {s s' : MainDispatch × GlobalTimer} {ev : TtlEvent}
      (h : TtlRun initialTTL md₀ evs s) (hs : ttlStep s ev = .ok s') :
      TtlRun initialTTL md₀ (evs ++ [ev]) s'

/-- The time to live set last, and the seconds that have passed since. -/
def ttlSpan (initialTTL : ℤ) (evs : List TtlEvent) : ℕ × ℕ :=
  evs.foldl (fun span ev =>
    match ev with
    | .second => (span.1, span.2 + 1)
    | .command _ req => ((ttlOf req).getD span.1, if (ttlOf req).isSome then 0 else span.2))
    (toUInt initialTTL, 0)

/-- The time to live set last has run out; zero means none. -/
def Overdue (initialTTL : ℤ) (evs : List TtlEvent) : Prop :=
  0 < (ttlSpan initialTTL evs).1 ∧ (ttlSpan initialTTL evs).1 ≤ (ttlSpan initialTTL evs).2

/-- A live timer is set exactly if a time to live is, and the alarm is due when it runs out. -/
structure Ticking (span : ℕ × ℕ) (t : GlobalTimer) : Prop where
  aborted : t.aborted = false
  initialized : t.initialized = true ↔ 0 < span.1
  alarm : t.alarm = if span.1 = 0 then none else some (span.1 - span.2)
  left : span.1 = 0 ∨ span.2 < span.1

omit [JsonAccess] [JsonWriter] in
theorem Ticking.setTtl {span : ℕ × ℕ} {t : GlobalTimer} (h : Ticking span t) (seconds : ℕ) :
    Ticking (seconds, 0) (t.setTtl seconds) := by
  obtain ⟨haborted, hinit, halarm, -⟩ := h
  -- a timer that does not count as set has no alarm to forget
  have hunset : t.initialized = false → t.alarm = none := fun hno => by
    have hzero : span.1 = 0 := by
      by_contra hne
      exact absurd (hinit.mpr (Nat.pos_of_ne_zero hne)) (by simp [hno])
    rw [halarm, if_pos hzero]
  unfold GlobalTimer.setTtl
  by_cases hset : t.initialized = true <;> by_cases hzero : seconds = 0
  · exact ⟨by simpa [hset, hzero, GlobalTimer.disable, GlobalTimer.schedule] using haborted,
      by simp [hset, hzero], by simp [hset, hzero, GlobalTimer.disable, GlobalTimer.schedule], .inl hzero⟩
  · exact ⟨by simpa [hset, hzero, GlobalTimer.disable, GlobalTimer.schedule] using haborted,
      by simp [hset, hzero, Nat.pos_of_ne_zero hzero],
      by simp [hset, hzero, GlobalTimer.schedule], .inr (Nat.pos_of_ne_zero hzero)⟩
  · have hno : t.initialized = false := by simpa using hset
    exact ⟨by simpa [hno, hzero] using haborted, by simp [hno, hzero],
      by simp [hno, hzero, hunset hno], .inl hzero⟩
  · have hno : t.initialized = false := by simpa using hset
    exact ⟨by simpa [hno, hzero, GlobalTimer.schedule] using haborted,
      by simp [hno, hzero, Nat.pos_of_ne_zero hzero],
      by simp [hno, hzero, GlobalTimer.schedule], .inr (Nat.pos_of_ne_zero hzero)⟩

omit [JsonAccess] [JsonWriter] in
/-- A second brings the alarm nearer, or sets it off if it is the last. -/
theorem Ticking.second {span : ℕ × ℕ} {t : GlobalTimer} (h : Ticking span t) :
    if 0 < span.1 ∧ span.1 ≤ span.2 + 1 then t.second.aborted = true
    else Ticking (span.1, span.2 + 1) t.second := by
  obtain ⟨haborted, hinit, halarm, hleft⟩ := h
  unfold GlobalTimer.second
  by_cases hzero : span.1 = 0
  · rw [if_pos hzero] at halarm
    rw [halarm, if_neg (by omega)]
    exact ⟨haborted, hinit, by rw [halarm, if_pos hzero], .inl hzero⟩
  · rw [if_neg hzero] at halarm
    rw [halarm]
    dsimp only
    split_ifs with hover hlast hlast
    · rfl
    · omega
    · exact absurd ⟨Nat.pos_of_ne_zero hzero, by omega⟩ hover
    · refine ⟨haborted, hinit, ?_, .inr (by dsimp only; omega)⟩
      rw [if_neg hzero, Nat.sub_sub]

/-- A TTL command stores the time to live it sets. -/
theorem dispatchCommand_ttl {env : ControlEnv} {md md' : MainDispatch} {req : Request} {b : Bool}
    (h : md.dispatchCommand env req = .ok (b, md')) {seconds : ℕ} (hset : ttlOf req = some seconds) :
    md'.ttl = seconds := by
  unfold ttlOf at hset
  split_ifs at hset with hcond
  obtain ⟨hcode, hmember⟩ := hcond
  obtain rfl := Option.some.inj hset
  simp only [MainDispatch.dispatchCommand, hcode, hmember, if_true, Except.ok.injEq, Prod.mk.injEq] at h
  obtain ⟨-, rfl⟩ := h
  rfl

omit [JsonWriter] in
theorem ttlSpan_concat (initialTTL : ℤ) (evs : List TtlEvent) (ev : TtlEvent) :
    ttlSpan initialTTL (evs ++ [ev]) =
      match ev with
      | .second => ((ttlSpan initialTTL evs).1, (ttlSpan initialTTL evs).2 + 1)
      | .command _ req => ((ttlOf req).getD (ttlSpan initialTTL evs).1,
          if (ttlOf req).isSome then 0 else (ttlSpan initialTTL evs).2) := by
  rw [ttlSpan, List.foldl_append]
  rfl

/-- While nothing has run out the timer is right about the time left; and it has gone off only if something
has run out. -/
theorem TtlRun.ticking {initialTTL : ℤ} {md₀ : MainDispatch} {evs : List TtlEvent}
    {s : MainDispatch × GlobalTimer} (h : TtlRun initialTTL md₀ evs s) :
    ((∀ pre, pre <+: evs → ¬ Overdue initialTTL pre) ∧ Ticking (ttlSpan initialTTL evs) s.2) ∨
    ((∃ pre, pre <+: evs ∧ Overdue initialTTL pre) ∧ s.2.aborted = true) := by
  induction h with
  | start =>
    have hnew : Ticking (0, 0) GlobalTimer.init := ⟨rfl, by simp [GlobalTimer.init], rfl, .inl rfl⟩
    refine .inl ⟨fun pre hpre => ?_, hnew.setTtl _⟩
    obtain rfl := List.prefix_nil.mp hpre
    rintro ⟨hpos, hle⟩
    exact absurd hle (Nat.not_le_of_lt hpos)
  | @step evs s s' ev hrun hs ih =>
    rcases ih with ⟨hnone, hticking⟩ | ⟨⟨pre, hpre, hover⟩, haborted⟩
    · simp only [ttlStep, hticking.aborted, Bool.false_eq_true, if_false] at hs
      -- the prefixes of the longer run are those of the shorter one and the run itself
      have hbefore : ¬ Overdue initialTTL (evs ++ [ev]) →
          ∀ pre, pre <+: evs ++ [ev] → ¬ Overdue initialTTL pre := by
        intro hnow pre hpre
        rcases List.prefix_concat_iff.mp hpre with rfl | hshort
        · exact hnow
        · exact hnone pre hshort
      cases ev with
      | second =>
        obtain rfl := Except.ok.inj hs
        have hsecond := hticking.second
        have hspan := ttlSpan_concat initialTTL evs .second
        dsimp only at hspan
        split_ifs at hsecond with hdue
        · exact .inr ⟨⟨_, List.prefix_rfl, by rw [Overdue, hspan]; exact hdue⟩, hsecond⟩
        · refine .inl ⟨hbefore ?_, by rw [hspan]; exact hsecond⟩
          rw [Overdue, hspan]
          exact hdue
      | command env req =>
        have hspan := ttlSpan_concat initialTTL evs (.command env req)
        dsimp only at hspan hs
        split at hs
        · cases hs
        · next b md hdispatch =>
          obtain rfl := Except.ok.inj hs
          have hafter : Ticking (ttlSpan initialTTL (evs ++ [.command env req]))
              (if (ttlOf req).isSome then s.2.setTtl md.ttl else s.2) := by
            rw [hspan]
            cases hset : ttlOf req with
            | none => exact hticking
            | some seconds =>
              rw [dispatchCommand_ttl hdispatch hset]
              exact hticking.setTtl seconds
          refine .inl ⟨hbefore ?_, hafter⟩
          rintro ⟨hpos, hle⟩
          rcases hafter.left with hzero | hlt <;> omega
    · simp only [ttlStep, haborted, if_true] at hs
      obtain rfl := Except.ok.inj hs
      exact .inr ⟨⟨pre, hpre.trans (List.prefix_append _ _), hover⟩, haborted⟩

/-- **The time to live.** In every run of the daemon, whatever commands it serves, its timer has aborted it
exactly if at some moment the time to live set last, by a TTL command or at the start, was not zero and as
many seconds had passed since. -/
theorem aborted_iff {initialTTL : ℤ} {md₀ : MainDispatch} {evs : List TtlEvent}
    {s : MainDispatch × GlobalTimer} (h : TtlRun initialTTL md₀ evs s) :
    s.2.aborted = true ↔ ∃ pre, pre <+: evs ∧ Overdue initialTTL pre := by
  rcases h.ticking with ⟨hnone, hticking⟩ | ⟨hsome, haborted⟩
  · rw [hticking.aborted]
    exact ⟨fun hno => absurd hno (by decide), fun ⟨pre, hpre, hover⟩ => absurd hover (hnone pre hpre)⟩
  · exact ⟨fun _ => hsome, fun _ => haborted⟩

end Run

section Examples

def exampleTtl (seconds : ℤ) : Request :=
  ⟨1, 0, ⟨"TTL", .ttl⟩, .object [("Seconds", .int seconds)], .success⟩

def exampleControlEnv : ControlEnv := ⟨0, "sdkd.log", 0, .null, fun _ => "url"⟩

/-- A time to live of two seconds, put off after one and then run out. -/
theorem aborted_iff_two :
    letI := JsonAccess.plain
    letI := JsonWriter.compact
    let evs : List TtlEvent := [.command exampleControlEnv (exampleTtl 2), .second,
      .command exampleControlEnv (exampleTtl 2), .second, .second]
    ∃ s, TtlRun 0 (.new []) evs s ∧
      (s.2.aborted = true ↔ ∃ pre, pre <+: evs ∧ Overdue 0 pre) := by
  let := JsonAccess.plain
  let := JsonWriter.compact
  have hrun : ∃ s, TtlRun 0 (.new []) [.command exampleControlEnv (exampleTtl 2), .second,
      .command exampleControlEnv (exampleTtl 2), .second, .second] s :=
    ⟨_, .step (.step (.step (.step (.step .start rfl) rfl) rfl) rfl) rfl⟩
  obtain ⟨s, hs⟩ := hrun
  exact ⟨s, hs, aborted_iff hs⟩

end Examples

end Sdkd
