import Sdkd.Quiet

/-!
# Whose outcomes an operation records

The futures of a handle outlive the operation that submitted them. An operation that starts without any
waits for its own requests only.

## Main definitions

- `OwnOutcomes` — what a session waits for and has recorded are outcomes of its own requests

## Main results

- `dsOp_own`, `loader_own` — the operations that put futures into the handle keep to their own outcomes
- `viewLoader_settled` — the view loader leaves the handle without futures
- `queryOperation_maintains` — what the executors of queries keep, which is the same for them too
-/

namespace Sdkd

open LoopProg

/-! ## Own outcomes -/

/-- `ec` is the outcome of one of the first `n` requests. -/
def Answers (w : World) (n : ℕ) (ec : ErrorCode) : Prop := ∃ k < n, ec = w.outcome k

theorem Answers.mono {w : World} {n m : ℕ} {ec : ErrorCode} (h : Answers w n ec) (hnm : n ≤ m) :
    Answers w m ec := by
  obtain ⟨k, hk, hec⟩ := h
  exact ⟨k, hk.trans_le hnm, hec⟩

/-- Every outcome the session waits for or has recorded is that of a request it has sent. -/
def OwnOutcomes (w : World) (s : Session) : Prop :=
  ∀ ec, ec ∈ s.pending ∨ ec ∈ s.rs.recorded → Answers w s.sent.length ec

namespace OwnOutcomes

variable {w : World} {s s' : Session}

theorem mono (h : OwnOutcomes w s) (hpending : ∀ ec ∈ s'.pending, ec ∈ s.pending)
    (hrecorded : ∀ ec ∈ s'.rs.recorded, ec ∈ s.rs.recorded)
    (hsent : s.sent.length ≤ s'.sent.length) : OwnOutcomes w s' :=
  fun ec hec => (h ec (hec.imp (hpending ec) (hrecorded ec))).mono hsent

theorem quiet (hquiet : s.Quiet s') (h : OwnOutcomes w s) : OwnOutcomes w s' :=
  h.mono (by simp [hquiet.pending]) (by simp [hquiet.recorded]) (by simp [hquiet.sent])

theorem enter (h : OwnOutcomes w s) (options : ResultOptions) : OwnOutcomes w (s.enter options) :=
  h.mono (fun _ => id) (by simp [Session.enter, ResultSet.clear]) le_rfl

theorem clearResults (h : OwnOutcomes w s) : OwnOutcomes w s.clearResults :=
  h.mono (fun _ => id) (by simp [Session.clearResults, ResultSet.clear]) le_rfl

theorem markBegin (h : OwnOutcomes w s) : OwnOutcomes w (s.markBegin w) :=
  h.mono (fun _ => id) (fun _ => id) le_rfl

theorem submit (h : OwnOutcomes w s) (r : ClusterRequest) : OwnOutcomes w (s.submit w r) := by
  intro ec hec
  simp only [Session.submit, List.mem_append, List.mem_singleton, List.length_append,
    List.length_singleton] at hec ⊢
  rcases hec with (hec | rfl) | hec
  · exact (h ec (.inl hec)).mono (Nat.le_succ _)
  · exact ⟨_, Nat.lt_succ_self _, rfl⟩
  · exact (h ec (.inr hec)).mono (Nat.le_succ _)

theorem execute (h : OwnOutcomes w s) (r : ClusterRequest) : OwnOutcomes w (s.execute w r).2 :=
  h.mono (fun _ => id) (fun _ => id) (by simp [Session.execute])

theorem setRescode (h : OwnOutcomes w s) {ec : ErrorCode} (hec : Answers w s.sent.length ec) :
    OwnOutcomes w (s.setRescode w ec) := by
  intro ec' hec'
  simp only [Session.setRescode, ResultSet.setRescode_recorded, List.mem_append,
    List.mem_singleton] at hec' ⊢
  rcases hec' with hec' | hec' | rfl
  · exact h ec' (.inl hec')
  · exact h ec' (.inr hec')
  · exact hec

theorem setRescodeFinal (h : OwnOutcomes w s) {ec : ErrorCode} (hec : Answers w s.sent.length ec)
    (isFinal : Bool) : OwnOutcomes w (s.setRescodeFinal w ec isFinal) := by
  intro ec' hec'
  simp only [Session.setRescodeFinal, ResultSet.setRescodeFinal_recorded, List.mem_append,
    List.mem_singleton] at hec' ⊢
  rcases hec' with hec' | hec' | rfl
  · exact h ec' (.inl hec')
  · exact h ec' (.inr hec')
  · exact hec

end OwnOutcomes

/-- What `execute` returns is the outcome of the request it has sent. -/
theorem answers_execute (w : World) (s : Session) (r : ClusterRequest) :
    Answers w (s.execute w r).2.sent.length (s.execute w r).1 :=
  ⟨s.sent.length, by simp [Session.execute], rfl⟩

section Drain

variable {L : Type*} {w : World}

/-- A drain hands out own outcomes, so it keeps to them if its handler does. -/
theorem drain_own {handler : ErrorCode → OpState L → OpState L}
    (hh : ∀ ec s, OwnOutcomes w s.ses → Answers w s.ses.sent.length ec →
      OwnOutcomes w (handler ec s).ses) :
    Action.Maintains (fun s => OwnOutcomes w s.ses) (drain handler) := by
  intro s h
  rcases drain_outcome handler s with ⟨-, hout⟩ | ⟨ec, -, hec, hout⟩ | ⟨-, -, hout⟩ <;> rw [hout]
  · exact h
  · exact hh ec s h (h ec (.inl (List.mem_of_getElem? hec)))
  · exact h.mono (by simp) (fun _ => id) le_rfl

theorem recordOutcome_own (ec : ErrorCode) (s : OpState L) (h : OwnOutcomes w s.ses)
    (hec : Answers w s.ses.sent.length ec) : OwnOutcomes w (recordOutcome w ec s).ses :=
  h.setRescode hec

end Drain

section Operations

variable {ι X : Type*} {it : IterOps ι} {o : HandleOptions} {w : World}

theorem own_of_quiet {L : Type*} {a : OpAction L} (h : QuietAction a) :
    Action.Maintains (fun s => OwnOutcomes w s.ses) a :=
  h.maintains fun _ _ hquiet hs => hs.quiet hquiet

theorem submitItem_own (mk : DocumentId → ι → Option ClusterRequest) :
    Action.Maintains (fun s => OwnOutcomes w s.ses)
      (submitItem it o w mk : OpAction (DsLocal ι X)) := by
  intro s h
  rcases submitItem_outcome it o w s mk with ⟨r, -, hout⟩ | ⟨-, hout⟩ <;> rw [hout]
  · exact h.submit r
  · exact h

/-- The operations on datasets keep to their own outcomes. -/
theorem dsOp_own {options : ResultOptions} {checks : List (OpAction (DsLocal ι Unit))}
    (hchecks : ∀ a ∈ checks, ∀ s, a s = .next s) {mk : DocumentId → ι → Option ClusterRequest}
    {c c' : Config (OpState (DsLocal ι Unit)) Crash}
    (h : (dsOp it o w options checks mk).Reaches cancelCurrent c c') (hc : OwnOutcomes w c.st.ses) :
    OwnOutcomes w c'.st.ses := by
  refine h.maintained (P := fun s => OwnOutcomes w s.ses) ?_ ?_ ?_
    (fun s hs => hs.quiet (quiet_cancelCurrent s)) hc
  · simp only [dsOp, List.forall_mem_cons, List.forall_mem_append]
    refine ⟨fun _ hs => hs.enter options, own_of_quiet quiet_resetCancel, fun a ha s hs => ?_,
      own_of_quiet quiet_startIter, by simp⟩
    rw [hchecks a ha s]
    exact hs
  · simp only [dsOp, List.forall_mem_cons]
    exact ⟨own_of_quiet quiet_lookupCollection, fun _ hs => hs.markBegin, submitItem_own mk,
      own_of_quiet quiet_postsubmit, drain_own recordOutcome_own, own_of_quiet quiet_delay,
      own_of_quiet quiet_advanceIter, by simp⟩
  · simp only [dsOp, List.forall_mem_cons]
    exact ⟨own_of_quiet quiet_collectResult, drain_own recordOutcome_own, by simp⟩

/-- So do the loaders. -/
theorem loader_own {c c' : Config (OpState (DsLocal ι BatchVars)) Crash}
    (h : (loader it o w).Reaches cancelCurrent c c') (hc : OwnOutcomes w c.st.ses) :
    OwnOutcomes w c'.st.ses := by
  refine h.maintained (P := fun s => OwnOutcomes w s.ses) ?_ ?_ ?_
    (fun s hs => hs.quiet (quiet_cancelCurrent s)) hc
  · simp only [loader, List.forall_mem_singleton]
    exact own_of_quiet quiet_startIter
  · simp only [loader, List.forall_mem_cons]
    exact ⟨own_of_quiet quiet_lookupCollection, submitItem_own _, own_of_quiet quiet_checkBatch,
      drain_own fun _ _ hs _ => hs, own_of_quiet quiet_endBatch, own_of_quiet quiet_advanceIter,
      own_of_quiet quiet_countItem, by simp⟩
  · simp only [loader, List.forall_mem_cons]
    exact ⟨own_of_quiet quiet_startDrain, drain_own fun _ _ hs _ => hs, by simp⟩

end Operations

/-! ## Operations that leave the futures of the handle alone -/

/-- The handle has no futures, and what has been recorded are own outcomes. -/
structure Settled (w : World) (s : Session) : Prop where
  pending : s.pending = []
  own : OwnOutcomes w s

namespace Settled

variable {w : World} {s s' : Session}

theorem quiet (hquiet : s.Quiet s') (h : Settled w s) : Settled w s' :=
  ⟨hquiet.pending.trans h.pending, h.own.quiet hquiet⟩

theorem enter (h : Settled w s) (options : ResultOptions) : Settled w (s.enter options) :=
  ⟨h.pending, h.own.enter options⟩

theorem execute (h : Settled w s) (r : ClusterRequest) : Settled w (s.execute w r).2 :=
  ⟨h.pending, h.own.execute r⟩

theorem setRescode (h : Settled w s) {ec : ErrorCode} (hec : Answers w s.sent.length ec) :
    Settled w (s.setRescode w ec) := ⟨h.pending, h.own.setRescode hec⟩

end Settled

theorem settled_session (w : World) {h : Handle} (hleft : h.pending = []) :
    Settled w (h.session .new) :=
  ⟨hleft, by simp [OwnOutcomes, Handle.session, hleft, ResultSet.new]⟩

section ViewLoads

variable {ι : Type*} {it : IterOps ι} {o : HandleOptions} {w : World}

/-- The view loader keeps futures of its own. -/
structure SettledView (w : World) (s : OpState (DsLocal ι ViewVars)) : Prop where
  settled : Settled w s.ses
  futures : ∀ ec ∈ s.loc.extra.futures, Answers w s.ses.sent.length ec

theorem settledView_session (w : World) {h : Handle} (hleft : h.pending = []) (i : ι) (schema : Json) :
    SettledView w (⟨h.session .new, ⟨i, ("", ""), .start schema⟩⟩ : OpState (DsLocal ι ViewVars)) :=
  ⟨settled_session w hleft, by simp [ViewVars.start]⟩

/-- A quiet action that leaves the view loader's futures alone. -/
theorem settledView_of_quiet {a : OpAction (DsLocal ι ViewVars)} (h : QuietAction a)
    (hfutures : ∀ s, (a s).All fun s' => s'.loc.extra.futures = s.loc.extra.futures) :
    Action.Maintains (SettledView w) a := by
  intro s hs
  have hquiet := h s
  have hsame := hfutures s
  cases hout : a s <;> rw [hout] at hquiet hsame
  case fail => trivial
  all_goals
    refine ⟨hs.settled.quiet hquiet, fun ec hec => ?_⟩
    rw [hsame] at hec
    rw [hquiet.sent]
    exact hs.futures ec hec

theorem flushSend_settled : Action.Maintains (SettledView w)
    (flushSend o w : OpAction (DsLocal ι ViewVars)) := by
  intro s hs
  rcases flushSend_outcome o w s with ⟨-, hout⟩ | ⟨key, value, c, -, -, -, hout⟩ |
    ⟨key, value, e, -, -, -, hout⟩ <;> rw [hout]
  · exact hs
  · refine ⟨hs.settled.execute _, fun ec hec => ?_⟩
    simp only [setView, List.mem_append, List.mem_singleton] at hec
    rcases hec with hec | rfl
    · exact (hs.futures ec hec).mono (by simp [setView, Session.execute])
    · exact answers_execute w s.ses _
  · trivial

theorem flushCollect_settled : Action.Maintains (SettledView w)
    (flushCollect w : OpAction (DsLocal ι ViewVars)) := by
  intro s hs
  rcases flushCollect_outcome w s with ⟨-, hout⟩ | ⟨ec, rest, hfutures, hout⟩ <;> rw [hout]
  · exact hs
  · have hec : Answers w s.ses.sent.length ec := hs.futures ec (by simp [hfutures])
    have hrest : ∀ e ∈ rest, Answers w s.ses.sent.length e :=
      fun e he => hs.futures e (by simp [hfutures, he])
    cases hset : ec.isSet with
    | true => exact ⟨hs.settled.setRescode hec, hrest⟩
    | false => exact ⟨hs.settled, hrest⟩

theorem viewLoader_settled [JsonWriter] {options : ResultOptions}
    {c c' : Config (OpState (DsLocal ι ViewVars)) Crash}
    (h : (viewLoader it o w options).Reaches cancelCurrent c c') (hc : SettledView w c.st) :
    SettledView w c'.st := by
  refine h.maintained (P := SettledView w) ?_ ?_ ?_
    (fun s hs => ⟨hs.settled.quiet (quiet_cancelCurrent s), hs.futures⟩) hc
  · simp only [viewLoader, List.forall_mem_cons]
    refine ⟨fun _ hs => ⟨hs.settled.enter options, hs.futures⟩,
      settledView_of_quiet quiet_resetCancel fun _ => rfl,
      settledView_of_quiet quiet_startIter fun s => ?_, by simp⟩
    rcases startIter_outcome it s with ⟨i, -, hout⟩ | ⟨e, -, hout⟩ <;> rw [hout] <;> trivial
  · simp only [viewLoader, List.forall_mem_cons]
    refine ⟨settledView_of_quiet quiet_addValue fun s => ?_,
      settledView_of_quiet quiet_flushFull fun _ => rfl, flushSend_settled, flushCollect_settled,
      settledView_of_quiet quiet_flushClear fun s => ?_,
      settledView_of_quiet quiet_advanceIter fun s => ?_,
      settledView_of_quiet quiet_countValue fun _ => rfl, by simp⟩
    · rcases addValue_outcome it s with ⟨-, hout⟩ | ⟨-, hout⟩ <;> rw [hout] <;> trivial
    · unfold flushClear
      dsimp only
      split <;> rfl
    · rcases advanceIter_outcome it s with ⟨i, -, hout⟩ | ⟨e, -, hout⟩ <;> rw [hout] <;> trivial
  · simp only [viewLoader, List.forall_mem_cons]
    exact ⟨settledView_of_quiet quiet_flushRest fun _ => rfl, flushSend_settled,
      flushCollect_settled, by simp⟩

end ViewLoads

/-! ## Queries -/

/-- What the executors of queries do to a session keeps `P`. -/
structure QueryInvariant (w : World) (options : ResultOptions) (P : Session → Prop) : Prop where
  quiet : ∀ s s', s.Quiet s' → P s → P s'
  enter : ∀ s, P s → P (s.enter options)
  clearResults : ∀ s, P s → P s.clearResults
  markBegin : ∀ s, P s → P (s.markBegin w)
  execute : ∀ s r, P s → P (s.execute w r).2
  record : ∀ s r, P s → P ((s.execute w r).2.setRescode w (s.execute w r).1)
  recordFinal : ∀ s r, P s → P ((s.execute w r).2.setRescodeFinal w (s.execute w r).1 true)

/-- A query leaves the handle without futures and records the outcome of its own request. -/
theorem settled_queryInvariant (w : World) (options : ResultOptions) :
    QueryInvariant w options (Settled w) where
  quiet := fun _ _ hquiet h => h.quiet hquiet
  enter := fun _ h => h.enter options
  clearResults := fun _ h => ⟨h.pending, h.own.clearResults⟩
  markBegin := fun _ h => ⟨h.pending, h.own.markBegin⟩
  execute := fun _ r h => h.execute r
  record := fun s r h => (h.execute r).setRescode (answers_execute w s r)
  recordFinal := fun s r h =>
    ⟨h.pending, (h.own.execute r).setRescodeFinal (answers_execute w s r) true⟩

section Queries

variable [JsonAccess] {o : HandleOptions} {hid : ℕ} {w : World} {req : Request}
  {options : ResultOptions} {P : Session → Prop}

theorem executeView_maintains (hP : QueryInvariant w options P)
    {c c' : Config (OpState ViewQueryVars) Crash}
    (h : (executeView o w req options).Reaches cancelCurrent c c') (hc : P c.st.ses) :
    P c'.st.ses := by
  refine h.maintained (P := fun s => P s.ses) ?_ ?_ ?_
    (fun s hs => hP.quiet _ _ (quiet_cancelCurrent s) hs) hc
  · simp only [executeView, List.forall_mem_cons]
    exact ⟨fun _ hs => hP.enter _ hs, quiet_checkNames.maintains hP.quiet,
      quiet_resetCancel.maintains hP.quiet, by simp⟩
  · simp only [executeView, List.forall_mem_cons]
    exact ⟨quiet_beginView.maintains hP.quiet, fun _ hs => hP.markBegin _ hs,
      fun _ hs => hP.record _ _ hs, quiet_countDown.maintains hP.quiet, by simp⟩
  · simp [executeView]

theorem executeCBAS_maintains (hP : QueryInvariant w options P) {c c' : Config (OpState SearchVars) Crash}
    (h : (executeCBAS o w req).Reaches cancelCurrent c c') (hc : P c.st.ses) : P c'.st.ses := by
  refine h.maintained (P := fun s => P s.ses) ?_ ?_ ?_
    (fun s hs => hP.quiet _ _ (quiet_cancelCurrent s) hs) hc
  · simp only [executeCBAS, List.forall_mem_cons]
    exact ⟨fun _ hs => hP.clearResults _ hs, quiet_resetCancel.maintains hP.quiet, by simp⟩
  · simp only [executeCBAS, List.forall_mem_cons]
    exact ⟨fun _ hs => hP.markBegin _ hs, fun _ hs => hP.recordFinal _ _ hs,
      quiet_nextGenerator.maintains hP.quiet, by simp⟩
  · simp [executeCBAS]

variable [JsonWriter]

theorem insertDoc_maintains (hP : QueryInvariant w options P) :
    Action.Maintains (fun s => P s.ses) (insertDoc o hid w) := by
  intro s hs
  rcases insertDoc_outcome o hid w s with ⟨r, loc, hout⟩ | ⟨e, hout⟩ <;> rw [hout]
  · exact hP.execute _ _ hs
  · trivial

theorem executeN1QL_maintains (hP : QueryInvariant w options P) {c c' : Config (OpState N1QLVars) Crash}
    (h : (executeN1QL o hid w req).Reaches cancelCurrent c c') (hc : P c.st.ses) :
    P c'.st.ses := by
  refine h.maintained (P := fun s => P s.ses) ?_ ?_ ?_
    (fun s hs => hP.quiet _ _ (quiet_cancelCurrent s) hs) hc
  · simp only [executeN1QL, List.forall_mem_cons]
    exact ⟨fun _ hs => hP.clearResults _ hs, quiet_resetCancel.maintains hP.quiet, by simp⟩
  · simp only [executeN1QL, List.forall_mem_cons]
    exact ⟨quiet_setUniqueId.maintains hP.quiet, insertDoc_maintains hP,
      fun _ hs => hP.markBegin _ hs, fun _ hs => hP.recordFinal _ _ hs, by simp⟩
  · simp [executeN1QL]

theorem search_maintains (hP : QueryInvariant w options P) :
    Action.Maintains (fun s => P s.ses) (search o w req) := by
  intro s hs
  rcases search_outcome o w req s with ⟨r, loc, hout⟩ | ⟨r, r', loc, hout⟩ | ⟨e, hout⟩ <;> rw [hout]
  · exact hP.recordFinal _ _ hs
  · exact hP.recordFinal _ _ (hP.execute _ _ hs)
  · trivial

theorem executeFTS_maintains (hP : QueryInvariant w options P) {c c' : Config (OpState SearchVars) Crash}
    (h : (executeFTS o w req).Reaches cancelCurrent c c') (hc : P c.st.ses) : P c'.st.ses := by
  refine h.maintained (P := fun s => P s.ses) ?_ ?_ ?_
    (fun s hs => hP.quiet _ _ (quiet_cancelCurrent s) hs) hc
  · simp only [executeFTS, List.forall_mem_cons]
    exact ⟨fun _ hs => hP.clearResults _ hs, quiet_resetCancel.maintains hP.quiet,
      quiet_checkConsistency.maintains hP.quiet, by simp⟩
  · simp only [executeFTS, List.forall_mem_cons]
    exact ⟨fun _ hs => hP.markBegin _ hs, search_maintains hP, by simp⟩
  · simp [executeFTS]

/-- Whatever the executors keep holds along the run of every query. -/
theorem queryOperation_maintains (hP : QueryInvariant w options P) {h : Handle} {op : Operation}
    (hop : queryOperation h w req options = some op)
    {c c' : Config (OpState op.L) Crash} (hreach : op.prog.Reaches cancelCurrent c c')
    (hc : P c.st.ses) : P c'.st.ses := by
  cases queryOperation_kind hop with
  | view _ => exact executeView_maintains hP hreach hc
  | n1ql _ => exact executeN1QL_maintains hP hreach hc
  | fts _ => exact executeFTS_maintains hP hreach hc
  | cbas _ => exact executeCBAS_maintains hP hreach hc

end Queries

end Sdkd
