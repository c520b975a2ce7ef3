import Sdkd.Outcomes
import Sdkd.Switch
import Sdkd.Windows

/-!
# Latencies

The durations `setRescode` records. Each is the time since the last `markBegin`, which every submission
of a batch makes anew, so it is the time since the submission of the last operation of the batch.

## Main definitions

- `Timely` — the duration a step records lies between the ages of the operation and of its batch
- `InStep` — a `markBegin` shows the millisecond the futures that are outstanding were marked in

## Main results

- `durations_timely` — the durations are right as long as every `markBegin` is in step
- `viewLoad_not_timely` — those of a CB_VIEW_LOAD, which has no `markBegin`, are not
-/

namespace Sdkd

open LoopProg

/-! ## The duration of a result -/

namespace ResultSet

/-- The duration entered last. -/
def lastDuration (rs : ResultSet) : Option ℤ := rs.timestats.getLast?.bind (·.durations.getLast?)

/-- If a window has been opened then there is one. -/
def Windowed (rs : ResultSet) : Prop := rs.curWintime ≠ 0 → rs.timestats ≠ []

/-- What `setRescode` records: the time since the last `markBegin`. -/
theorem setRescodeFull_duration {rs : ResultSet} (h : rs.Windowed) (tv : TimeVal) (err : ErrorCode)
    (key : String) (expectValue : Bool) (value : Option String) :
    (rs.setRescodeFull tv err key expectValue value).lastDuration =
        some (tv.epochMsecs - rs.opstartTmsec) ∧
      (rs.setRescodeFull tv err key expectValue value).Windowed := by
  have hsample : ∀ (wins : List TimeWindow) (win : TimeWindow),
      (wins ++ [win.sample (rs.sampleOf tv err).duration (rs.sampleOf tv err).text]).getLast?.bind
        (·.durations.getLast?) = some (tv.epochMsecs - rs.opstartTmsec) := by
    intro wins win
    simp [TimeWindow.sample, sampleOf]
  rcases rs.setRescodeFull_windows tv err key expectValue value with
    ⟨-, hwins, -⟩ | ⟨-, -, m, hwins, -⟩ | ⟨hne, -, -, hwins, -⟩
  · exact ⟨by rw [lastDuration, hwins, hsample], fun _ => by simp [hwins]⟩
  · exact ⟨by rw [lastDuration, hwins, hsample], fun _ => by simp [hwins]⟩
  · obtain ⟨wins, win, hlast⟩ := (List.eq_nil_or_concat rs.timestats).resolve_left (h hne)
    rw [hlast, List.concat_eq_append, modifyBack_append] at hwins
    exact ⟨by rw [lastDuration, hwins, hsample], fun _ => by simp [hwins]⟩

end ResultSet

/-! ## Steps that record -/

/-- The last reading of the clock. -/
def Session.lastReading (w : World) (s : Session) : ℤ := (w.clock (s.clockReads - 1)).epochMsecs

/-- `opstart_tmsec` is the last reading of the clock. -/
structure JustMarked (w : World) (s : Session) : Prop where
  read : 0 < s.clockReads
  opstart : s.rs.opstartTmsec = s.lastReading w

/-- From `s` to `s'` an outcome is recorded, with one look at the clock. -/
structure Records (w : World) (s s' : Session) : Prop where
  clockReads : s'.clockReads = s.clockReads + 1
  duration : s'.rs.lastDuration =
    some ((w.clock s.clockReads).epochMsecs - s.rs.opstartTmsec)

/-- The number of results. -/
def recordedCount {L : Type*} (s : OpState L) : ℕ := s.ses.rs.recorded.length

/-- Request `k` is sent in step `m` of the run. -/
def SentIn (run : ℕ → Session) (k m : ℕ) : Prop :=
  (run m).sent.length ≤ k ∧ k < (run (m + 1)).sent.length

/-- The request whose outcome is recorded between `s` and `s'`: the last one a query sends, or the one
whose future a drain has waited for. -/
def recordedRequest (s s' : Session) : ℕ :=
  if s.sent.length < s'.sent.length then s'.sent.length - 1
  else s.sent.length - s.pending.length + s.cursor

/-- The first request of its batch. -/
def firstRequest (s s' : Session) : ℕ :=
  if s.sent.length < s'.sent.length then s.sent.length else s.sent.length - s.pending.length

/-- What step `n` of the run records: `opstart_tmsec` is a reading of the clock since `clear`, and the
duration is at least the time since the submission of the operation and at most the time since that of
the first one of its batch. The time of a submission is the last reading of the clock before it. -/
structure Timely (w : World) (run : ℕ → Session) (n : ℕ) : Prop where
  marked : ∃ k < (run n).clockReads, (run n).rs.opstartTmsec = (w.clock k).epochMsecs
  duration : ∃ d, ∃ own ≤ n, ∃ first ≤ n, (run (n + 1)).rs.lastDuration = some d ∧
    SentIn run (recordedRequest (run n) (run (n + 1))) own ∧
    SentIn run (firstRequest (run n) (run (n + 1))) first ∧
    (run (n + 1)).lastReading w - (run own).lastReading w ≤ d ∧
    d ≤ (run (n + 1)).lastReading w - (run first).lastReading w

section Records

variable {w : World} {s s' t : Session}

theorem JustMarked.quiet (hquiet : s.Quiet s') (h : JustMarked w s) : JustMarked w s' where
  read := hquiet.clockReads ▸ h.read
  opstart := by
    unfold Session.lastReading
    rw [hquiet.opstart, hquiet.clockReads]
    exact h.opstart

theorem justMarked_markBegin (w : World) (s : Session) : JustMarked w (s.markBegin w) :=
  ⟨Nat.succ_pos _, rfl⟩

theorem Records.congr (hclock : t.clockReads = s.clockReads)
    (hopstart : t.rs.opstartTmsec = s.rs.opstartTmsec) (h : Records w s s') : Records w t s' :=
  ⟨by rw [h.clockReads, hclock], by rw [h.duration, hclock, hopstart]⟩

theorem records_setRescode (h : s.rs.Windowed) (ec : ErrorCode) : Records w s (s.setRescode w ec) :=
  ⟨rfl, (ResultSet.setRescodeFull_duration h _ ec "" false none).1⟩

/-- An executor sends a request and records its outcome. -/
theorem sends_execute (w : World) (s : Session) (r : ClusterRequest) :
    s.sent.length < (s.execute w r).2.sent.length := by
  simp [Session.execute]

theorem records_execute (h : s.rs.Windowed) (r : ClusterRequest) :
    Records w s ((s.execute w r).2.setRescode w (s.execute w r).1) :=
  ⟨rfl, (ResultSet.setRescodeFull_duration h _ _ "" false none).1⟩

theorem records_executeFinal (h : s.rs.Windowed) (r : ClusterRequest) (isFinal : Bool) :
    Records w s ((s.execute w r).2.setRescodeFinal w (s.execute w r).1 isFinal) :=
  ⟨rfl, (@ResultSet.setRescodeFull_duration { s.rs with vrespComplete := isFinal } h _ _ "" false
    none).1⟩

/-- The same behind a request whose outcome is not recorded. -/
theorem records_stored (h : s.rs.Windowed) (r r' : ClusterRequest) :
    Records w s (((s.execute w r).2.execute w r').2.setRescodeFinal w
      ((s.execute w r).2.execute w r').1 true) :=
  ⟨rfl, (@ResultSet.setRescodeFull_duration { s.rs with vrespComplete := true } h _ _ "" false none).1⟩

/-- A step that records with the clock read `r` before it, when `opstart_tmsec` is the time of both
submissions. -/
theorem timely_of_sentIn {run : ℕ → Session} {n own first : ℕ}
    (hmarked : ∃ k < (run n).clockReads, (run n).rs.opstartTmsec = (w.clock k).epochMsecs)
    (hrecords : Records w (run n) (run (n + 1)))
    (hownLe : own ≤ n) (hown : SentIn run (recordedRequest (run n) (run (n + 1))) own)
    (hfirstLe : first ≤ n) (hfirst : SentIn run (firstRequest (run n) (run (n + 1))) first)
    (hownTime : (run own).lastReading w = (run n).rs.opstartTmsec)
    (hfirstTime : (run first).lastReading w = (run n).rs.opstartTmsec) : Timely w run n := by
  have hnow : (run (n + 1)).lastReading w = (w.clock (run n).clockReads).epochMsecs := by
    rw [Session.lastReading, hrecords.clockReads, Nat.add_sub_cancel]
  refine ⟨hmarked, _, own, hownLe, first, hfirstLe, hrecords.duration, hown, hfirst, ?_, ?_⟩
  · rw [hnow, hownTime]
  · rw [hnow, hfirstTime]

/-- A query sends and records in one step, right behind a `markBegin`. -/
theorem timely_of_sending {run : ℕ → Session} {n : ℕ} (hmarked : JustMarked w (run n))
    (hsends : (run n).sent.length < (run (n + 1)).sent.length)
    (hrecords : Records w (run n) (run (n + 1))) : Timely w run n := by
  have hread := hmarked.read
  have hown : SentIn run (recordedRequest (run n) (run (n + 1))) n := by
    rw [recordedRequest, if_pos hsends]
    exact ⟨by omega, by omega⟩
  have hfirst : SentIn run (firstRequest (run n) (run (n + 1))) n := by
    rw [firstRequest, if_pos hsends]
    exact ⟨le_rfl, hsends⟩
  exact timely_of_sentIn ⟨_, by omega, hmarked.opstart⟩ hrecords le_rfl hown le_rfl hfirst
    hmarked.opstart.symm hmarked.opstart.symm

end Records

/-- The next configuration of a run comes of one that differs from the last in the cancel flag only. -/
theorem next_step {L : Type*} (p : OpProg L) (sched : ℕ → Bool) (c : Config (OpState L) Crash)
    (n : ℕ) :
    ∃ d, p.Reaches cancelCurrent c d ∧ d.pos = (p.run cancelCurrent sched c n).pos ∧
      (p.run cancelCurrent sched c n).st.ses.Quiet d.st.ses ∧
      (p.step d = some (p.run cancelCurrent sched c (n + 1)) ∨
        p.run cancelCurrent sched c (n + 1) = d) := by
  have hreach : p.Reaches cancelCurrent c (p.run cancelCurrent sched c n) :=
    Prog.reaches_run sched c n
  obtain ⟨d, rfl | rfl, hstep⟩ := Prog.run_succ_cases sched c n
  · exact ⟨_, hreach, rfl, .refl _, hstep⟩
  · exact ⟨_, hreach.tail (.inr rfl), rfl, quiet_cancelCurrent _, hstep⟩

/-- A step that records is one of the operation's own. -/
theorem recording_step {L : Type*} {p : OpProg L} (sched : ℕ → Bool) (c : Config (OpState L) Crash)
    (n : ℕ) (hrecords : recordedCount (p.run cancelCurrent sched c n).st <
      recordedCount (p.run cancelCurrent sched c (n + 1)).st) :
    ∃ d, p.Reaches cancelCurrent c d ∧ d.pos = (p.run cancelCurrent sched c n).pos ∧
      (p.run cancelCurrent sched c n).st.ses.Quiet d.st.ses ∧
      p.step d = some (p.run cancelCurrent sched c (n + 1)) ∧
      recordedCount d.st < recordedCount (p.run cancelCurrent sched c (n + 1)).st := by
  obtain ⟨d, hreach, hpos, hquiet, hstep⟩ := next_step p sched c n
  have hcount : recordedCount d.st < recordedCount (p.run cancelCurrent sched c (n + 1)).st := by
    rwa [recordedCount, hquiet.recorded]
  refine ⟨d, hreach, hpos, hquiet, hstep.resolve_right fun heq => ?_, hcount⟩
  rw [heq] at hcount
  exact lt_irrefl _ hcount

/-- What the `markBegin` a configuration stands at is going to show, if there are futures, is what
`opstart_tmsec` shows already. -/
def InStep {L : Type*} (w : World) (p : OpProg L) (c : Config (OpState L) Crash) : Prop :=
  ∀ there, p.actionAt c.pos = some (markBegin w, there) → c.st.ses.pending ≠ [] →
    (w.clock (c.st.ses.clockReads + 1)).epochMsecs = c.st.ses.rs.opstartTmsec

theorem InStep.quiet {L : Type*} {w : World} {p : OpProg L} {c d : Config (OpState L) Crash}
    (h : InStep w p c) (hpos : d.pos = c.pos) (hquiet : c.st.ses.Quiet d.st.ses) : InStep w p d := by
  intro there ha hne
  rw [hpos] at ha
  rw [hquiet.pending] at hne
  rw [hquiet.clockReads, hquiet.opstart]
  exact h there ha hne

/-- A step that reads the clock less than twice is none of a `markBegin`. -/
theorem InStep.of_step {L : Type*} {w : World} {p : OpProg L} {c : Config (OpState L) Crash}
    (h : c.st.ses.pending ≠ [] →
      (p.step c).map (·.st.ses.clockReads) ≠ some (c.st.ses.clockReads + 2)) : InStep w p c := by
  intro there ha hne
  refine absurd ?_ (h hne)
  simp [Prog.step, ha, Config.perform, markBegin, Session.markBegin]

/-- Nothing comes between a `markBegin` and the action behind it, if that is not repeated. -/
theorem justMarked_behind {L : Type*} {w : World} {p : OpProg L} {j : ℕ}
    (hmark : p.body[j]? = some (markBegin w))
    (hagain : ∀ a s s', p.body[j + 1]? = some a → a s ≠ .again s') {c c' : Config (OpState L) Crash}
    (h : p.Reaches cancelCurrent c c') (hc : c.pos = .pre 0) (hpos : c'.pos = .body (j + 1)) :
    JustMarked w c'.st.ses := by
  refine h.at_inner (.body (j + 1)) trivial (Q := fun s => JustMarked w s.ses) ?_
    (fun there a s s' ha => hagain a s s' (Prog.body_of_actionAt ha))
    (fun s hs => hs.quiet (quiet_cancelCurrent s)) (fun heq => ?_) hpos
  · intro here a s ha
    rcases Prog.actionAt_cases ha with ⟨k, -, hk, -⟩ | ⟨k, -, hk, hget⟩ | ⟨k, -, hk, -⟩ <;> cases hk
    rw [hmark] at hget
    obtain rfl := Option.some.inj hget
    exact justMarked_markBegin w s.ses
  · rw [hc] at heq
    cases heq

/-! ## Queries -/

theorem adds_recorded_of_quiet {L : Type*} {a : OpAction L} (h : QuietAction a) :
    Action.Adds recordedCount 0 a := by
  intro s
  have hquiet := h s
  cases hout : a s <;> rw [hout] at hquiet
  case fail => trivial
  all_goals exact (congrArg List.length hquiet.recorded).le

theorem adds_recorded_clearResults {L : Type*} :
    Action.Adds recordedCount 0 (clearResults : OpAction L) :=
  fun _ => Nat.zero_le _

/-- The query sends and records, or the process dies. -/
def QueryAction {L : Type*} (w : World) (a : OpAction L) : Prop :=
  ∀ s, (∃ e, a s = .fail e) ∨ ∃ s', a s = .next s' ∧ s.ses.sent.length < s'.ses.sent.length ∧
    (s.ses.rs.Windowed → Records w s.ses s'.ses)

/-- The loop of an executor of queries: the body action behind the `markBegin` with index `j` is the only
one that records. -/
structure QueryLoop {L : Type*} (w : World) (p : OpProg L) (j : ℕ) : Prop where
  mark : p.body[j]? = some (markBegin w)
  query : ∀ a, p.body[j + 1]? = some a → QueryAction w a
  others : ∀ here there a, p.actionAt here = some (a, there) → here ≠ .body (j + 1) →
    Action.Adds recordedCount 0 a

namespace QueryLoop

variable {L : Type*} {w : World} {p : OpProg L} {j : ℕ}

/-- A loop with one `markBegin`, which the query follows at once. -/
theorem of_body (first : List (OpAction L)) {rest : List (OpAction L)} {query : OpAction L}
    (hbody : p.body = first ++ markBegin w :: query :: rest) (hquery : QueryAction w query)
    (hpre : ∀ a ∈ p.pre, Action.Adds recordedCount 0 a)
    (hfirst : ∀ a ∈ first, Action.Adds recordedCount 0 a)
    (hrest : ∀ a ∈ rest, Action.Adds recordedCount 0 a)
    (hpost : ∀ a ∈ p.post, Action.Adds recordedCount 0 a) : QueryLoop w p first.length where
  mark := by rw [hbody, List.getElem?_append_right le_rfl, Nat.sub_self, List.getElem?_cons_zero]
  query := by
    intro a ha
    rw [hbody, List.getElem?_append_right (Nat.le_add_right _ _), Nat.add_sub_cancel_left] at ha
    obtain rfl : query = a := Option.some.inj ha
    exact hquery
  others := by
    intro here there a ha hne
    rcases Prog.actionAt_cases ha with ⟨k, -, -, hget⟩ | ⟨k, rfl, -, hget⟩ | ⟨k, -, -, hget⟩
    · exact hpre a (List.mem_of_getElem? hget)
    · rw [hbody] at hget
      rcases Nat.lt_or_ge k first.length with hlt | hge
      · rw [List.getElem?_append_left hlt] at hget
        exact hfirst a (List.mem_of_getElem? hget)
      · rw [List.getElem?_append_right hge] at hget
        obtain ⟨i, rfl⟩ := Nat.exists_eq_add_of_le hge
        rw [Nat.add_sub_cancel_left] at hget
        -- the `markBegin`, the query, or what comes behind it
        rcases i with _ | _ | i
        · obtain rfl : markBegin w = a := Option.some.inj hget
          exact fun _ => le_rfl
        · exact absurd rfl hne
        · exact hrest a (List.mem_of_getElem? hget)
    · exact hpost a (List.mem_of_getElem? hget)

theorem justMarked (hp : QueryLoop w p j) {c c' : Config (OpState L) Crash}
    (h : p.Reaches cancelCurrent c c') (hc : c.pos = .pre 0) (hpos : c'.pos = .body (j + 1)) :
    JustMarked w c'.st.ses := by
  refine justMarked_behind hp.mark (fun a s s' hget hagain => ?_) h hc hpos
  rcases hp.query a hget s with ⟨e, he⟩ | ⟨t, ht, -, -⟩
  · rw [he] at hagain
    cases hagain
  · rw [ht] at hagain
    cases hagain

/-- What the loop records is right. -/
theorem timely (hp : QueryLoop w p j) (sched : ℕ → Bool) {c : Config (OpState L) Crash} (n : ℕ)
    (hc : c.pos = .pre 0) (hwin : (p.run cancelCurrent sched c n).st.ses.rs.Windowed)
    (hrecords : recordedCount (p.run cancelCurrent sched c n).st <
      recordedCount (p.run cancelCurrent sched c (n + 1)).st) :
    Timely w (fun m => (p.run cancelCurrent sched c m).st.ses) n := by
  obtain ⟨d, -, hpos, hquiet, hstep, hcount⟩ := recording_step sched c n hrecords
  have hd : d.pos = .body (j + 1) := by
    by_contra hne
    exact absurd (Prog.step_le hstep fun a there ha => hp.others _ _ _ ha hne) hcount.not_ge
  have hmarked := hp.justMarked (Prog.reaches_run sched c n) hc (hpos.symm.trans hd)
  rcases Prog.step_cases hstep with ⟨a, there, ha, hperform⟩ | hst
  · rw [hd] at ha
    rcases hp.query a (Prog.body_of_actionAt ha) d.st with ⟨e, he⟩ | ⟨s', hs', hsent, hrec⟩
    · rw [hperform, Config.perform, he] at hcount
      exact absurd rfl hcount.ne
    · have hst : (p.run cancelCurrent sched c (n + 1)).st = s' := by
        rw [hperform, Config.perform, hs']
      refine timely_of_sending hmarked ?_ ?_
      · rw [hst, ← hquiet.sent]
        exact hsent
      · rw [hst]
        have hwin' : d.st.ses.rs.Windowed := by
          simpa [ResultSet.Windowed, hquiet.curWintime, hquiet.timestats] using hwin
        exact (hrec hwin').congr hquiet.clockReads.symm hquiet.opstart.symm
  · rw [recordedCount, recordedCount, hst] at hcount
    exact absurd rfl hcount.ne

end QueryLoop

/-- Windows are opened before anything is entered into them. -/
theorem windowed_queryInvariant (w : World) (options : ResultOptions) :
    QueryInvariant w options (fun s => s.rs.Windowed) where
  quiet := fun s s' hquiet h => by
    simpa [ResultSet.Windowed, hquiet.curWintime, hquiet.timestats] using h
  enter := fun _ _ hne => absurd rfl hne
  clearResults := fun _ _ hne => absurd rfl hne
  markBegin := fun _ h => h
  execute := fun _ _ h => h
  record := fun _ _ h => (ResultSet.setRescodeFull_duration h _ _ _ _ _).2
  recordFinal := fun s _ h => (@ResultSet.setRescodeFull_duration
    { s.rs with vrespComplete := true } h _ _ "" false none).2

section Executors

variable [JsonAccess] {o : HandleOptions} {hid : ℕ} {w : World} {req : Request}

theorem queryAction_queryView : QueryAction w (queryView o w req) := fun s =>
  .inr ⟨_, rfl, sends_execute w s.ses _, fun h => records_execute h _⟩

theorem queryAction_queryN1QL : QueryAction w (queryN1QL o w req) := fun s =>
  .inr ⟨_, rfl, sends_execute w s.ses _, fun h => records_executeFinal h _ true⟩

omit [JsonAccess] in
theorem queryAction_queryCBAS : QueryAction w (queryCBAS o w) := fun s =>
  .inr ⟨_, rfl, sends_execute w s.ses _, fun h => records_executeFinal h _ true⟩

theorem executeView_queryLoop (options : ResultOptions) :
    QueryLoop w (executeView o w req options) 1 := by
  refine .of_body [beginView] rfl queryAction_queryView ?_ ?_ ?_ (by simp [executeView])
  · simp only [executeView, List.forall_mem_cons]
    exact ⟨fun _ => Nat.zero_le _, adds_recorded_of_quiet quiet_checkNames,
      adds_recorded_of_quiet quiet_resetCancel, by simp⟩
  · exact List.forall_mem_singleton.mpr (adds_recorded_of_quiet quiet_beginView)
  · exact List.forall_mem_singleton.mpr (adds_recorded_of_quiet quiet_countDown)

theorem executeCBAS_queryLoop : QueryLoop w (executeCBAS o w req) 0 := by
  refine .of_body [] rfl queryAction_queryCBAS ?_ (by simp) ?_ (by simp [executeCBAS])
  · simp only [executeCBAS, List.forall_mem_cons]
    exact ⟨adds_recorded_clearResults, adds_recorded_of_quiet quiet_resetCancel, by simp⟩
  · exact List.forall_mem_singleton.mpr (adds_recorded_of_quiet quiet_nextGenerator)

variable [JsonWriter]

theorem adds_recorded_insertDoc : Action.Adds recordedCount 0 (insertDoc o hid w) := by
  intro s
  rcases insertDoc_outcome o hid w s with ⟨r, loc, hout⟩ | ⟨e, hout⟩ <;> rw [hout]
  · exact le_rfl
  · trivial

theorem executeN1QL_queryLoop : QueryLoop w (executeN1QL o hid w req) 2 := by
  refine .of_body [setUniqueId, insertDoc o hid w] rfl queryAction_queryN1QL ?_ ?_
    (by simp) (by simp [executeN1QL])
  · simp only [executeN1QL, List.forall_mem_cons]
    exact ⟨adds_recorded_clearResults, adds_recorded_of_quiet quiet_resetCancel, by simp⟩
  · simp only [List.forall_mem_cons]
    exact ⟨adds_recorded_of_quiet quiet_setUniqueId, adds_recorded_insertDoc, by simp⟩

theorem queryAction_search : QueryAction w (search o w req) := by
  intro s
  rcases search_outcome o w req s with ⟨r, loc, hout⟩ | ⟨r, r', loc, hout⟩ | ⟨e, hout⟩
  · exact .inr ⟨_, hout, sends_execute w s.ses _, fun h => records_executeFinal h _ true⟩
  · exact .inr ⟨_, hout, (sends_execute w s.ses _).trans (sends_execute w _ _),
      fun h => records_stored h _ _⟩
  · exact .inl ⟨e, hout⟩

theorem executeFTS_queryLoop : QueryLoop w (executeFTS o w req) 0 := by
  refine .of_body [] rfl queryAction_search ?_ (by simp) (by simp) (by simp [executeFTS])
  simp only [executeFTS, List.forall_mem_cons]
  exact ⟨adds_recorded_clearResults, adds_recorded_of_quiet quiet_resetCancel,
    adds_recorded_of_quiet quiet_checkConsistency, by simp⟩

/-- What the queries record is right. -/
theorem queryOperation_timely {h : Handle} {opts : ResultOptions} {op : Operation}
    (hop : queryOperation h w req opts = some op) (sched : ℕ → Bool) (n : ℕ)
    (hrecords : recordedCount
        (op.prog.run cancelCurrent sched (op.start (h.session .new)) n).st <
      recordedCount (op.prog.run cancelCurrent sched (op.start (h.session .new)) (n + 1)).st) :
    Timely w (fun m =>
      (op.prog.run cancelCurrent sched (op.start (h.session .new)) m).st.ses) n := by
  have hwin := queryOperation_maintains (windowed_queryInvariant w opts) hop
    (Prog.reaches_run sched (op.start (h.session .new)) n) (fun hne => absurd rfl hne)
  cases queryOperation_kind hop with
  | view _ => exact (executeView_queryLoop opts).timely sched n rfl hwin hrecords
  | n1ql _ => exact executeN1QL_queryLoop.timely sched n rfl hwin hrecords
  | fts _ => exact executeFTS_queryLoop.timely sched n rfl hwin hrecords
  | cbas _ => exact executeCBAS_queryLoop.timely sched n rfl hwin hrecords

end Executors

/-! ## Operations on datasets -/

/-- What a step of an operation on a dataset makes of its session. -/
inductive DsMove (w : World) (options : ResultOptions) (s : Session) : Pos Crash → Session → Prop
  | quiet {pos : Pos Crash} {s' : Session} (h : s.Quiet s') : DsMove w options s pos s'
  | enter : DsMove w options s (.pre 0) (s.enter options)
  | mark : DsMove w options s (.body 1) (s.markBegin w)
  | submit (r : ClusterRequest) : DsMove w options s (.body 2) (s.submit w r)
  | take {pos : Pos Crash} (ec : ErrorCode) (h : s.pending[s.cursor]? = some ec) :
      DsMove w options s pos { s.setRescode w ec with cursor := s.cursor + 1 }
  | drained {pos : Pos Crash} : DsMove w options s pos { s with pending := [], cursor := 0 }

/-- Behind step `n` of a run the session is `s`. Every request it waits for was sent at the time that
`opstart_tmsec` shows. -/
structure Stamped (w : World) (run : ℕ → Session) (n : ℕ) (s : Session) : Prop where
  windowed : s.rs.Windowed
  pending_le : s.pending.length ≤ s.sent.length
  marked : s.pending ≠ [] → ∃ k < s.clockReads, s.rs.opstartTmsec = (w.clock k).epochMsecs
  sent : ∀ k, s.sent.length - s.pending.length ≤ k → k < s.sent.length →
    ∃ m < n, SentIn run k m ∧ (run m).lastReading w = s.rs.opstartTmsec

namespace Stamped

variable {w : World} {run : ℕ → Session} {n : ℕ} {s t : Session}

theorem quiet (hquiet : s.Quiet t) (h : Stamped w run n s) : Stamped w run n t where
  windowed := by
    simpa [ResultSet.Windowed, hquiet.curWintime, hquiet.timestats] using h.windowed
  pending_le := by
    rw [hquiet.pending, hquiet.sent]
    exact h.pending_le
  marked := by
    rw [hquiet.pending, hquiet.clockReads, hquiet.opstart]
    exact h.marked
  sent := by
    rw [hquiet.pending, hquiet.sent, hquiet.opstart]
    exact h.sent

theorem later (h : Stamped w run n s) : Stamped w run (n + 1) s where
  windowed := h.windowed
  pending_le := h.pending_le
  marked := h.marked
  sent := fun k hlo hhi => by
    obtain ⟨m, hm, hsent⟩ := h.sent k hlo hhi
    exact ⟨m, hm.trans (Nat.lt_succ_self n), hsent⟩

/-- Without futures nothing has to be said about the requests. -/
theorem of_empty (hwin : s.rs.Windowed) (hpending : s.pending = []) : Stamped w run n s where
  windowed := hwin
  pending_le := by simp [hpending]
  marked := fun hne => absurd hpending hne
  sent := fun k hlo hhi => by
    rw [hpending, List.length_nil] at hlo
    omega

/-- A `markBegin` that shows the time of the futures. -/
theorem mark (h : Stamped w run n s)
    (hsame : s.pending ≠ [] → (w.clock (s.clockReads + 1)).epochMsecs = s.rs.opstartTmsec) :
    Stamped w run n (s.markBegin w) := by
  by_cases hp : s.pending = []
  · exact .of_empty h.windowed hp
  · exact {
      windowed := h.windowed
      pending_le := h.pending_le
      marked := fun _ => ⟨_, Nat.lt_succ_self _, rfl⟩
      sent := fun k hlo hhi => by
        obtain ⟨m, hm, hsent, htime⟩ := h.sent k hlo hhi
        exact ⟨m, hm, hsent, htime.trans (hsame hp).symm⟩ }

/-- A submission behind a `markBegin`. -/
theorem submit (h : Stamped w run n s) (hmarked : JustMarked w s) (hbefore : (run n).sent = s.sent)
    (hreads : (run n).clockReads = s.clockReads) {r : ClusterRequest}
    (hafter : run (n + 1) = s.submit w r) : Stamped w run (n + 1) (s.submit w r) where
  windowed := h.windowed
  pending_le := by
    simpa [Session.submit] using h.pending_le
  marked := fun _ => by
    have hread := hmarked.read
    exact ⟨s.clockReads - 1, by simp only [Session.submit]; omega, hmarked.opstart⟩
  sent := fun k hlo hhi => by
    simp only [Session.submit, List.length_append, List.length_singleton] at hlo hhi
    rcases Nat.lt_succ_iff_lt_or_eq.mp hhi with hlt | rfl
    · exact h.later.sent k (by omega) hlt
    · refine ⟨n, Nat.lt_succ_self n, ⟨by rw [hbefore], by simp [hafter, Session.submit]⟩, ?_⟩
      have hopstart : s.rs.opstartTmsec = s.lastReading w := hmarked.opstart
      simp only [Session.lastReading, hreads, Session.submit] at hopstart ⊢
      exact hopstart.symm

/-- The drain takes the outcome of a future. -/
theorem take (h : Stamped w run n s) (ec : ErrorCode) :
    Stamped w run n { s.setRescode w ec with cursor := s.cursor + 1 } where
  windowed := (ResultSet.setRescodeFull_duration h.windowed _ _ _ _ _).2
  pending_le := h.pending_le
  marked := fun hp => by
    obtain ⟨k, hk, hopstart⟩ := h.marked hp
    refine ⟨k, hk.trans (Nat.lt_succ_self _), ?_⟩
    rw [← hopstart]
    exact ResultSet.setRescodeFull_opstartTmsec ..
  sent := fun k hlo hhi => by
    obtain ⟨m, hm, hsent, htime⟩ := h.sent k hlo hhi
    refine ⟨m, hm, hsent, htime.trans ?_⟩
    exact (ResultSet.setRescodeFull_opstartTmsec ..).symm

/-- What the moves of an operation on a dataset make of it. -/
theorem move {options : ResultOptions} {pos : Pos Crash} (h : Stamped w run n s)
    (hmove : DsMove w options s pos t) (hquiet : (run n).Quiet s) (hafter : run (n + 1) = t)
    (hstart : pos = .pre 0 → s.pending = []) (hmarked : pos = .body 2 → JustMarked w s)
    (hsame : pos = .body 1 → s.pending ≠ [] →
      (w.clock (s.clockReads + 1)).epochMsecs = s.rs.opstartTmsec) : Stamped w run (n + 1) t := by
  cases hmove with
  | quiet hq => exact (h.quiet hq).later
  | enter => exact .of_empty (fun hne => absurd rfl hne) (hstart rfl)
  | mark => exact (h.mark (hsame rfl)).later
  | submit r => exact h.submit (hmarked rfl) hquiet.sent.symm hquiet.clockReads.symm hafter
  | take ec _ => exact (h.take ec).later
  | drained => exact .of_empty h.windowed rfl

/-- The outcome a drain takes is recorded with the right duration. -/
theorem timely (h : Stamped w run n (run n)) (hquiet : (run n).Quiet s) {ec : ErrorCode}
    (hec : s.pending[s.cursor]? = some ec)
    (hafter : run (n + 1) = { s.setRescode w ec with cursor := s.cursor + 1 }) :
    Timely w run n := by
  obtain ⟨hcursor, -⟩ := List.getElem?_eq_some_iff.mp hec
  rw [hquiet.pending, hquiet.cursor] at hcursor
  have hle := h.pending_le
  have hsame : (run (n + 1)).sent = (run n).sent := by
    rw [hafter, ← hquiet.sent]
    rfl
  have hrecords : Records w (run n) (run (n + 1)) := by
    have hset : Records w s (s.setRescode w ec) := records_setRescode (h.quiet hquiet).windowed ec
    rw [hafter]
    exact Records.congr hquiet.clockReads.symm hquiet.opstart.symm ⟨hset.clockReads, hset.duration⟩
  obtain ⟨own, hownLt, hown, hownTime⟩ := h.sent (recordedRequest (run n) (run (n + 1)))
    (by simp only [recordedRequest, hsame, lt_irrefl, if_false]; omega)
    (by simp only [recordedRequest, hsame, lt_irrefl, if_false]; omega)
  obtain ⟨first, hfirstLt, hfirst, hfirstTime⟩ := h.sent (firstRequest (run n) (run (n + 1)))
    (by simp only [firstRequest, hsame, lt_irrefl, if_false]; omega)
    (by simp only [firstRequest, hsame, lt_irrefl, if_false]; omega)
  refine timely_of_sentIn (h.marked ?_) hrecords hownLt.le hown hfirstLt.le hfirst hownTime
    hfirstTime
  exact List.ne_nil_of_length_pos (Nat.zero_lt_of_lt hcursor)

end Stamped

section DsOps

variable {ι : Type*} {it : IterOps ι} {o : HandleOptions} {w : World} {options : ResultOptions}
  {checks : List (OpAction (DsLocal ι Unit))} {mk : DocumentId → ι → Option ClusterRequest}

theorem dsMove_of_quiet {L : Type*} {a : OpAction L} (h : QuietAction a) (s : OpState L)
    (pos : Pos Crash) : (a s).All fun s' => DsMove w options s.ses pos s'.ses := by
  have hquiet := h s
  cases hout : a s <;> rw [hout] at hquiet
  case fail => trivial
  all_goals exact .quiet hquiet

theorem dsMove_drain (s : OpState (DsLocal ι Unit)) (pos : Pos Crash) :
    (drain (recordOutcome w) s).All fun s' => DsMove w options s.ses pos s'.ses := by
  rcases drain_outcome (recordOutcome w) s with ⟨-, hout⟩ | ⟨ec, -, hec, hout⟩ | ⟨-, -, hout⟩ <;>
    rw [hout]
  · exact .quiet (.refl _)
  · exact .take ec hec
  · exact .drained

theorem dsMove_action (hchecks : ∀ a ∈ checks, ∀ s, a s = .next s) {here there : Pos Crash}
    {a : OpAction (DsLocal ι Unit)} (s : OpState (DsLocal ι Unit))
    (ha : (dsOp it o w options checks mk).actionAt here = some (a, there)) :
    (a s).All fun s' => DsMove w options s.ses here s'.ses := by
  cases here with
  | pre k =>
    rcases k with _ | _ | k
    · cases ha
      exact .enter
    · cases ha
      exact dsMove_of_quiet quiet_resetCancel s _
    · obtain ⟨-, -, ⟨-, hskip⟩ | ⟨-, rfl⟩⟩ := dsOp_pre_cases hchecks ha
      · rw [hskip s]
        exact .quiet (.refl _)
      · exact dsMove_of_quiet quiet_startIter s _
  | body k =>
    rcases k with _ | _ | _ | _ | _ | _ | _ | k <;> cases ha
    · exact dsMove_of_quiet quiet_lookupCollection s _
    · exact .mark
    · rcases submitItem_outcome it o w s mk with ⟨r, -, hout⟩ | ⟨-, hout⟩ <;> rw [hout]
      · exact .submit r
      · exact .quiet (.refl _)
    · exact dsMove_of_quiet quiet_postsubmit s _
    · exact dsMove_drain s _
    · exact dsMove_of_quiet quiet_delay s _
    · exact dsMove_of_quiet quiet_advanceIter s _
  | post k =>
    rcases k with _ | _ | k <;> cases ha
    · exact dsMove_of_quiet quiet_collectResult s _
    · exact dsMove_drain s _
  | test | done | dead e => cases ha

theorem dsOp_move (hchecks : ∀ a ∈ checks, ∀ s, a s = .next s)
    {c c' : Config (OpState (DsLocal ι Unit)) Crash}
    (h : (dsOp it o w options checks mk).step c = some c') :
    DsMove w options c.st.ses c.pos c'.st.ses := by
  rcases Prog.step_cases h with ⟨a, there, ha, rfl⟩ | hst
  · exact Config.perform_all (P := fun s : OpState _ => DsMove w options c.st.ses c.pos s.ses)
      (.quiet (.refl _)) (dsMove_action hchecks c.st ha)
  · rw [hst]
    exact .quiet (.refl _)

theorem dsOp_justMarked {c c' : Config (OpState (DsLocal ι Unit)) Crash}
    (h : (dsOp it o w options checks mk).Reaches cancelCurrent c c') (hc : c.pos = .pre 0)
    (hpos : c'.pos = .body 2) : JustMarked w c'.st.ses := by
  refine justMarked_behind rfl (fun a s s' hget hagain => ?_) h hc hpos
  obtain rfl : submitItem it o w mk = a := Option.some.inj hget
  rcases submitItem_outcome it o w s mk with ⟨r, -, hout⟩ | ⟨-, hout⟩ <;>
    cases hout.symm.trans hagain

/-- Until `enter` the futures are those the operation starts with. -/
theorem dsOp_pending_nil {c c' : Config (OpState (DsLocal ι Unit)) Crash}
    (h : (dsOp it o w options checks mk).Reaches cancelCurrent c c') (hc : c.st.ses.pending = [])
    (hpos : c'.pos = .pre 0) : c'.st.ses.pending = [] := by
  refine h.at_inner (.pre 0) trivial (Q := fun s => s.ses.pending = []) ?_ ?_ ?_
    (fun _ => hc) hpos
  · intro here a s ha
    rcases Prog.actionAt_cases ha with ⟨k, -, hk, -⟩ | ⟨k, -, hk, -⟩ | ⟨k, -, hk, -⟩ <;> cases hk
  · intro there a s s' ha hagain
    cases ha
    cases hagain
  · exact fun _ hs => hs

/-- As long as every `markBegin` is in step the futures are stamped with the right time. -/
theorem dsOp_stamped (hchecks : ∀ a ∈ checks, ∀ s, a s = .next s) (sched : ℕ → Bool)
    {c : Config (OpState (DsLocal ι Unit)) Crash} (hpos : c.pos = .pre 0)
    (hpending : c.st.ses.pending = []) (hwin : c.st.ses.rs.Windowed) (n : ℕ)
    (hinstep : ∀ m < n, InStep w (dsOp it o w options checks mk)
      ((dsOp it o w options checks mk).run cancelCurrent sched c m)) :
    Stamped w (fun m => ((dsOp it o w options checks mk).run cancelCurrent sched c m).st.ses) n
      ((dsOp it o w options checks mk).run cancelCurrent sched c n).st.ses := by
  induction n with
  | zero => exact .of_empty hwin hpending
  | succ n ih =>
    have hn := ih fun m hm => hinstep m (hm.trans (Nat.lt_succ_self n))
    obtain ⟨d, hreach, hpos', hquiet, hstep⟩ := next_step (dsOp it o w options checks mk) sched c n
    rcases hstep with hstep | heq
    · refine (hn.quiet hquiet).move (dsOp_move hchecks hstep) hquiet rfl
        (dsOp_pending_nil hreach hpending) (dsOp_justMarked hreach hpos) fun hmark => ?_
      refine (hinstep n (Nat.lt_succ_self n)).quiet hpos' hquiet (.body 2) ?_
      rw [hmark]
      rfl
    · rw [heq]
      exact (hn.quiet hquiet).later

theorem dsOp_timely (hchecks : ∀ a ∈ checks, ∀ s, a s = .next s) (sched : ℕ → Bool)
    {c : Config (OpState (DsLocal ι Unit)) Crash} (hpos : c.pos = .pre 0)
    (hpending : c.st.ses.pending = []) (hwin : c.st.ses.rs.Windowed) (n : ℕ)
    (hinstep : ∀ m < n, InStep w (dsOp it o w options checks mk)
      ((dsOp it o w options checks mk).run cancelCurrent sched c m))
    (hrecords : recordedCount ((dsOp it o w options checks mk).run cancelCurrent sched c n).st <
      recordedCount ((dsOp it o w options checks mk).run cancelCurrent sched c (n + 1)).st) :
    Timely w (fun m => ((dsOp it o w options checks mk).run cancelCurrent sched c m).st.ses) n := by
  have hstamped := dsOp_stamped hchecks sched hpos hpending hwin n hinstep
  obtain ⟨d, -, -, hquiet, hstep, hcount⟩ := recording_step sched c n hrecords
  have hmove := dsOp_move hchecks hstep
  generalize hafter : ((dsOp it o w options checks mk).run cancelCurrent sched c (n + 1)).st.ses = t
    at hmove
  generalize d.pos = pos at hmove
  simp only [recordedCount, hafter] at hcount
  cases hmove with
  | quiet hq => exact absurd (congrArg List.length hq.recorded) hcount.ne'
  | enter => exact absurd hcount (Nat.not_lt_zero _)
  | mark => exact absurd hcount (lt_irrefl _)
  | submit r => exact absurd hcount (lt_irrefl _)
  | take ec hec => exact hstamped.timely hquiet hec hafter
  | drained => exact absurd hcount (lt_irrefl _)

end DsOps

/-! ## Loaders -/

section Loaders

variable {ι : Type*} {it : IterOps ι} {o : HandleOptions} {w : World}

theorem adds_recorded_submitItem {X : Type*} (mk : DocumentId → ι → Option ClusterRequest) :
    Action.Adds recordedCount 0 (submitItem it o w mk : OpAction (DsLocal ι X)) := by
  intro s
  rcases submitItem_outcome it o w s mk with ⟨r, -, hout⟩ | ⟨-, hout⟩ <;> rw [hout] <;> exact le_rfl

theorem adds_recorded_drain {L : Type*} {handler : ErrorCode → OpState L → OpState L}
    (hh : ∀ ec s, (handler ec s).ses.rs = s.ses.rs) :
    Action.Adds recordedCount 0 (drain handler) := by
  intro s
  rcases drain_outcome handler s with ⟨-, hout⟩ | ⟨ec, -, -, hout⟩ | ⟨-, -, hout⟩ <;> rw [hout]
  · exact le_rfl
  · exact (congrArg (fun rs : ResultSet => rs.recorded.length) (hh ec s)).le
  · exact le_rfl

/-- The loaders record nothing. -/
theorem loader_records_nothing {here there : Pos Crash} {a : OpAction (DsLocal ι BatchVars)}
    (ha : (loader it o w).actionAt here = some (a, there)) : Action.Adds recordedCount 0 a := by
  refine Prog.forall_action (P := Action.Adds recordedCount 0) ?_ ?_ ?_ ha
  · exact List.forall_mem_singleton.mpr (adds_recorded_of_quiet quiet_startIter)
  · simp only [loader, List.forall_mem_cons]
    exact ⟨adds_recorded_of_quiet quiet_lookupCollection, adds_recorded_submitItem _,
      adds_recorded_of_quiet quiet_checkBatch, adds_recorded_drain fun _ _ => rfl,
      adds_recorded_of_quiet quiet_endBatch, adds_recorded_of_quiet quiet_advanceIter,
      adds_recorded_of_quiet quiet_countItem, by simp⟩
  · simp only [loader, List.forall_mem_cons]
    exact ⟨adds_recorded_of_quiet quiet_startDrain, adds_recorded_drain fun _ _ => rfl, by simp⟩

/-- The view loader records the upserts that fail. -/
theorem viewLoader_records_errors [JsonWriter] {options : ResultOptions} {here there : Pos Crash}
    {a : OpAction (DsLocal ι ViewVars)} {s : OpState (DsLocal ι ViewVars)}
    (hok : ∀ ec ∈ s.loc.extra.futures, ec.isSet = false)
    (ha : (viewLoader it o w options).actionAt here = some (a, there)) :
    (a s).All fun s' => recordedCount s' ≤ recordedCount s := by
  have hsend : (flushSend o w s).All fun s' => recordedCount s' ≤ recordedCount s := by
    rcases flushSend_outcome o w s with ⟨-, hout⟩ | ⟨key, value, c, -, -, -, hout⟩ |
      ⟨key, value, e, -, -, -, hout⟩ <;> rw [hout]
    · exact le_rfl
    · exact le_rfl
    · trivial
  have hcollect : (flushCollect w s).All fun s' => recordedCount s' ≤ recordedCount s := by
    rcases flushCollect_outcome w s with ⟨-, hout⟩ | ⟨ec, rest, hfutures, hout⟩ <;> rw [hout]
    · exact le_rfl
    · rw [hok ec (by simp [hfutures])]
      exact le_rfl
  refine Prog.forall_action (P := fun a => (a s).All fun s' => recordedCount s' ≤ recordedCount s)
    ?_ ?_ ?_ ha
  · simp only [viewLoader, List.forall_mem_cons]
    exact ⟨Nat.zero_le _, adds_recorded_of_quiet quiet_resetCancel s,
      adds_recorded_of_quiet quiet_startIter s, by simp⟩
  · simp only [viewLoader, List.forall_mem_cons]
    exact ⟨adds_recorded_of_quiet quiet_addValue s, adds_recorded_of_quiet quiet_flushFull s, hsend,
      hcollect, adds_recorded_of_quiet quiet_flushClear s,
      adds_recorded_of_quiet quiet_advanceIter s, adds_recorded_of_quiet quiet_countValue s, by simp⟩
  · simp only [viewLoader, List.forall_mem_cons]
    exact ⟨adds_recorded_of_quiet quiet_flushRest s, hsend, hcollect, by simp⟩

/-- So it records nothing if no upsert fails. -/
theorem viewLoader_records_nothing [JsonWriter] {options : ResultOptions} (sched : ℕ → Bool)
    {c : Config (OpState (DsLocal ι ViewVars)) Crash} (hc : SettledView w c.st) (n : ℕ)
    (hok : ∀ k < ((viewLoader it o w options).run cancelCurrent sched c n).st.ses.sent.length,
      (w.outcome k).isSet = false) :
    ¬ recordedCount ((viewLoader it o w options).run cancelCurrent sched c n).st <
      recordedCount ((viewLoader it o w options).run cancelCurrent sched c (n + 1)).st := by
  intro hrecords
  obtain ⟨d, hreach, -, hquiet, hstep, hcount⟩ := recording_step sched c n hrecords
  have hfutures : ∀ ec ∈ d.st.loc.extra.futures, ec.isSet = false := by
    intro ec hec
    obtain ⟨k, hk, rfl⟩ := (viewLoader_settled hreach hc).futures ec hec
    exact hok k (hquiet.sent ▸ hk)
  rcases Prog.step_cases hstep with ⟨a, there, ha, hperform⟩ | hst
  · rw [hperform] at hcount
    exact absurd (Config.perform_all (P := fun s => recordedCount s ≤ recordedCount d.st) le_rfl
      (viewLoader_records_errors hfutures ha)) hcount.not_ge
  · rw [hst] at hcount
    exact lt_irrefl _ hcount

/-- The view loader never calls `markBegin`: the time it measures from is that of the epoch. -/
theorem viewLoader_opstart [JsonWriter] {options : ResultOptions}
    {c c' : Config (OpState (DsLocal ι ViewVars)) Crash}
    (h : (viewLoader it o w options).Reaches cancelCurrent c c')
    (hc : c.st.ses.rs.opstartTmsec = 0) : c'.st.ses.rs.opstartTmsec = 0 := by
  have hkeep : ∀ {a : OpAction (DsLocal ι ViewVars)}, QuietAction a →
      Action.Maintains (fun s => s.ses.rs.opstartTmsec = 0) a :=
    fun ha => ha.maintains fun _ _ hquiet hs => hquiet.opstart.trans hs
  have hsend : Action.Maintains (fun s => s.ses.rs.opstartTmsec = 0)
      (flushSend o w : OpAction (DsLocal ι ViewVars)) := by
    intro s hs
    rcases flushSend_outcome o w s with ⟨-, hout⟩ | ⟨key, value, c, -, -, -, hout⟩ |
      ⟨key, value, e, -, -, -, hout⟩ <;> rw [hout]
    · exact hs
    · exact hs
    · trivial
  have hcollect : Action.Maintains (fun s => s.ses.rs.opstartTmsec = 0)
      (flushCollect w : OpAction (DsLocal ι ViewVars)) := by
    intro s hs
    rcases flushCollect_outcome w s with ⟨-, hout⟩ | ⟨ec, rest, -, hout⟩ <;> rw [hout]
    · exact hs
    · cases hset : ec.isSet with
      | true => exact (ResultSet.setRescodeFull_opstartTmsec ..).trans hs
      | false => exact hs
  refine h.maintained (P := fun s => s.ses.rs.opstartTmsec = 0) ?_ ?_ ?_ ?_ hc
  · simp only [viewLoader, List.forall_mem_cons]
    exact ⟨fun _ _ => rfl, hkeep quiet_resetCancel, hkeep quiet_startIter, by simp⟩
  · simp only [viewLoader, List.forall_mem_cons]
    exact ⟨hkeep quiet_addValue, hkeep quiet_flushFull, hsend, hcollect, hkeep quiet_flushClear,
      hkeep quiet_advanceIter, hkeep quiet_countValue, by simp⟩
  · simp only [viewLoader, List.forall_mem_cons]
    exact ⟨hkeep quiet_flushRest, hsend, hcollect, by simp⟩
  · exact fun _ hs => hs

end Loaders

/-! ## The operations of the switch -/

/-- The run of an operation on a handle, along a schedule of CANCELs. -/
def Operation.runOn (op : Operation) (h : Handle) (sched : ℕ → Bool) (n : ℕ) :
    Config (OpState op.L) Crash :=
  op.prog.run cancelCurrent sched (op.start (h.session .new)) n

section Switch

variable [JsonAccess] [JsonWriter] {h : Handle} {w : World} {req : Request} {opts : ResultOptions}
  {op : Operation}

/-- The durations are right on a handle without futures, as long as every `markBegin` is in step and no
upsert of a CB_VIEW_LOAD fails. -/
theorem durations_timely (hop : Selects h w req opts op) (hleft : h.pending = []) (sched : ℕ → Bool)
    (n : ℕ) (hinstep : ∀ m < n, InStep w op.prog (op.runOn h sched m))
    (hview : req.command.code = .cbViewLoad →
      ∀ k < (op.runOn h sched n).st.ses.sent.length, (w.outcome k).isSet = false)
    (hrecords : recordedCount (op.runOn h sched n).st <
      recordedCount (op.runOn h sched (n + 1)).st) :
    Timely w (fun m => (op.runOn h sched m).st.ses) n := by
  unfold Selects at hop
  split at hop
  · obtain ⟨ds, hds⟩ := hop
    have hnew : (h.session .new).rs.Windowed := fun hne => absurd rfl hne
    cases dsOperation_kind hds with
    | items checks mk hchecks hmk hcode =>
      exact dsOp_timely hchecks sched rfl hleft hnew n hinstep hrecords
    | subdoc hcode => exact dsOp_timely (by simp) sched rfl hleft hnew n hinstep hrecords
    | load hcode =>
      obtain ⟨d, -, -, -, hstep, hcount⟩ := recording_step sched _ n hrecords
      exact absurd (Prog.step_le hstep fun a there ha => loader_records_nothing ha) hcount.not_ge
    | viewLoad hcode =>
      exact absurd hrecords (viewLoader_records_nothing sched (settledView_session w hleft _ _) n
        (hview hcode))
  · exact queryOperation_timely hop sched n hrecords

/-- What a CB_VIEW_LOAD records is measured from the epoch and never right, if the clock is not there any
more. -/
theorem viewLoad_not_timely (hop : Selects h w req opts op) (hcode : req.command.code = .cbViewLoad)
    (hclock : ∀ k, (w.clock k).epochMsecs ≠ 0) (sched : ℕ → Bool) (n : ℕ) :
    ¬ Timely w (fun m => (op.runOn h sched m).st.ses) n := by
  intro htimely
  obtain ⟨k, -, hk⟩ := htimely.marked
  refine hclock k (hk.symm.trans ?_)
  unfold Selects at hop
  rw [hcode, if_pos (show Code.cbViewLoad.needsDs = true from rfl)] at hop
  obtain ⟨ds, hds⟩ := hop
  simp only [dsOperation, hcode, Option.some.injEq] at hds
  subst hds
  exact viewLoader_opstart (Prog.reaches_run sched _ n) rfl

end Switch

section Examples

instance (run : ℕ → Session) (k m : ℕ) : Decidable (SentIn run k m) :=
  inferInstanceAs (Decidable (_ ∧ _))

/-- Every look at the clock takes a second. -/
def tickingWorld : World := { exampleWorld with clock := fun k => ⟨k, 0⟩ }

/-- A get over two keys that waits for its futures behind `iterwait` of them. -/
def tickingGet (iterwait : ℕ) : Operation :=
  ⟨_, @dsGet _ (@Dataset.getIter JsonAccess.plain JsonWriter.compact exampleDataset)
    exampleHandle.options tickingWorld { ResultOptions.default with iterwait := iterwait },
    ⟨Dataset.newIterator, ("", ""), ()⟩⟩

theorem tickingGet_selects (iterwait : ℕ) :
    @Selects JsonAccess.plain JsonWriter.compact exampleHandle tickingWorld exampleGet
      { ResultOptions.default with iterwait := iterwait } (tickingGet iterwait) :=
  ⟨exampleDataset, rfl⟩

/-- With `IterWait` 1 the outcome of the second get is timed from its own submission. -/
theorem durations_timely_get : Timely tickingWorld
    (fun m => ((tickingGet 1).runOn exampleHandle (fun _ => false) m).st.ses) 19 := by
  have hsteps : ∀ m < 19,
      ((tickingGet 1).runOn exampleHandle (fun _ => false) m).st.ses.pending ≠ [] →
      ((tickingGet 1).prog.step ((tickingGet 1).runOn exampleHandle (fun _ => false) m)).map
        (·.st.ses.clockReads) ≠
      some (((tickingGet 1).runOn exampleHandle (fun _ => false) m).st.ses.clockReads + 2) := by
    decide +kernel
  exact @durations_timely JsonAccess.plain JsonWriter.compact _ _ _ _ _ (tickingGet_selects 1) rfl _ 19
    (fun m hm => .of_step (hsteps m hm)) (by decide) (by decide +kernel)

/-- Without `IterWait` the outcome of the first get is timed from the submission of the second one. -/
theorem dsGet_not_timely :
    @Selects JsonAccess.plain JsonWriter.compact exampleHandle tickingWorld exampleGet
      { ResultOptions.default with iterwait := 0 } (tickingGet 0) ∧
    recordedCount ((tickingGet 0).runOn exampleHandle (fun _ => false) 24).st <
      recordedCount ((tickingGet 0).runOn exampleHandle (fun _ => false) 25).st ∧
    ¬ Timely tickingWorld
      (fun m => ((tickingGet 0).runOn exampleHandle (fun _ => false) m).st.ses) 24 := by
  refine ⟨tickingGet_selects 0, by decide +kernel, fun htimely => ?_⟩
  obtain ⟨d, own, hle, _, -, hd, hown, -, hlow, -⟩ := htimely.duration
  have hduration : ((tickingGet 0).runOn exampleHandle (fun _ => false) 25).st.ses.rs.lastDuration =
      some 1000 := by decide +kernel
  obtain rfl : d = 1000 := Option.some.inj (hd.symm.trans hduration)
  have hsent : ∀ own ≤ 24, SentIn
      (fun m => ((tickingGet 0).runOn exampleHandle (fun _ => false) m).st.ses)
      (recordedRequest ((tickingGet 0).runOn exampleHandle (fun _ => false) 24).st.ses
        ((tickingGet 0).runOn exampleHandle (fun _ => false) 25).st.ses) own → own = 7 := by
    decide +kernel
  obtain rfl := hsent own hle hown
  exact absurd hlow (by decide +kernel)

end Examples

end Sdkd
