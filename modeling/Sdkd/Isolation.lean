import Mathlib.Logic.Relation
import Sdkd.Lifecycle
import Sdkd.Loads
import Sdkd.Outcomes
import Sdkd.SubDocuments
import Sdkd.Switch

/-!
# Isolation of requests

What a call of `processRequest` leaves in the futures of the handle, and what it finds there.

## Main definitions

- `Counted` — the futures of a call are so few that an `int` tells them from none
- `Serves` — what happens to a worker from one call to the next

## Main results

- `requests_isolated` — between two calls no futures are left, and no operation meets the outcome of
  another one's request
-/

namespace Sdkd

open LoopProg

/-- The futures of an operation that steps over `rounds` items are so few that an `int` tells them from
none: it has an IterWait, its dataset has an end, or the items are fewer than `2 ^ 32`. -/
def FewFutures (ds : Dataset) (opts : ResultOptions) (rounds : ℕ) : Prop :=
  0 < opts.iterwait ∨ ds.Finite ∨ rounds < 2 ^ 32

section Drained

variable {h : Handle} {w : World} {req : Request} {ds : Dataset} {opts : ResultOptions}

/-! ### Subdocument runs with an unknown command -/

/-- The item carries the command of the dataset, or none yet. -/
def Carries (ds : Dataset) (i : DatasetIterator) : Prop :=
  i.curc = "" ∨ i.curc = Dataset.itemCommand ds.spec

theorem seek_carries [JsonAccess] [JsonWriter] {i j : DatasetIterator} {k : ℕ}
    (hseek : Dataset.seek ds.spec i k = .ok j) (hi : Carries ds i) : Carries ds j :=
  .inr ((Dataset.initData_ok hseek).2 hi)

/-- The command of an item is empty before the first item and that of the dataset from then on. -/
theorem Carries.subdocRequest_eq_none {i : DatasetIterator} (hi : Carries ds i)
    (hunknown : Dataset.itemCommand ds.spec ∉ subdocCommands) (id : DocumentId)
    (path value : String) : subdocRequest id i.curc path value = none := by
  by_contra hsome
  have hknown := (subdocRequest_isSome_iff _ _ _ _).mp (Option.isSome_iff_ne_none.mpr hsome)
  rcases hi with hempty | hcommand
  · rw [hempty] at hknown
    exact absurd hknown (by decide)
  · exact hunknown (hcommand ▸ hknown)

/-- Nothing is ever submitted. -/
structure Unsubmitted (ds : Dataset) (s : OpState (DsLocal DatasetIterator Unit)) : Prop where
  pending : s.ses.pending = []
  carries : Carries ds s.loc.iter

theorem unsubmitted_of_quiet {a : OpAction (DsLocal DatasetIterator Unit)} (h : QuietAction a)
    (hcarries : ∀ s, Carries ds s.loc.iter → (a s).All fun s' => Carries ds s'.loc.iter) :
    Action.Maintains (Unsubmitted ds) a := by
  intro s hs
  have hquiet := h s
  have hkeeps := hcarries s hs.carries
  cases hout : a s <;> rw [hout] at hquiet hkeeps
  case fail => trivial
  all_goals exact ⟨hquiet.pending.trans hs.pending, hkeeps⟩

theorem drain_unsubmitted : Action.Maintains (Unsubmitted ds) (drain (recordOutcome w)) := by
  intro s hs
  rcases drain_outcome (recordOutcome w) s with ⟨-, hout⟩ | ⟨ec, -, hec, -⟩ | ⟨-, -, hout⟩
  · rw [hout]
    exact hs
  · simp [hs.pending] at hec
  · rw [hout]
    exact ⟨rfl, hs.carries⟩

theorem delay_unsubmitted : Action.Maintains (Unsubmitted ds) (delay w) := by
  refine unsubmitted_of_quiet quiet_delay fun s hs => ?_
  obtain ⟨draws, hout⟩ := delay_outcome w s
  rw [hout]
  exact hs

theorem collectResult_unsubmitted : Action.Maintains (Unsubmitted ds) collectResult := by
  refine unsubmitted_of_quiet quiet_collectResult fun s hs => ?_
  rcases collectResult_outcome s with ⟨-, hout⟩ | ⟨-, hout⟩ <;> rw [hout] <;> exact hs

variable [JsonAccess] [JsonWriter]

theorem startIter_unsubmitted : Action.Maintains (Unsubmitted ds) (startIter ds.getIter) := by
  refine unsubmitted_of_quiet quiet_startIter fun s hs => ?_
  rcases startIter_outcome ds.getIter s with ⟨i, hi, hout⟩ | ⟨e, -, hout⟩ <;> rw [hout]
  · exact seek_carries hi hs
  · trivial

theorem advanceIter_unsubmitted : Action.Maintains (Unsubmitted ds) (advanceIter ds.getIter) := by
  refine unsubmitted_of_quiet quiet_advanceIter fun s hs => ?_
  rcases advanceIter_outcome ds.getIter s with ⟨i, hi, hout⟩ | ⟨e, -, hout⟩ <;> rw [hout]
  · exact seek_carries hi hs
  · trivial

theorem lookupCollection_unsubmitted (o : HandleOptions) :
    Action.Maintains (Unsubmitted ds) (lookupCollection ds.getIter o) := by
  refine unsubmitted_of_quiet quiet_lookupCollection fun s hs => ?_
  rcases lookupCollection_outcome ds.getIter o s with ⟨c, -, hout⟩ | ⟨e, -, hout⟩ <;> rw [hout]
  · exact hs
  · trivial

theorem submitItem_unsubmitted (hunknown : Dataset.itemCommand ds.spec ∉ subdocCommands)
    (o : HandleOptions) :
    Action.Maintains (Unsubmitted ds) (submitItem ds.getIter o w fun id i =>
      subdocRequest id (ds.getIter.command i) (ds.getIter.path i) (ds.getIter.value i)) := by
  intro s hs
  have hnone := hs.carries.subdocRequest_eq_none hunknown (documentId ds.getIter o s.loc)
    s.loc.iter.curp s.loc.iter.curv
  rcases submitItem_outcome ds.getIter o w s (fun id i => subdocRequest id
    (ds.getIter.command i) (ds.getIter.path i) (ds.getIter.value i)) with ⟨r, hr, -⟩ | ⟨-, hout⟩
  · cases hnone.symm.trans hr
  · rw [hout]
    exact hs

theorem unknown_unsubmitted (hunknown : Dataset.itemCommand ds.spec ∉ subdocCommands)
    {c c' : Config (OpState (DsLocal DatasetIterator Unit)) Crash}
    (hreach : (dsSDSinglePath ds.getIter h.options w opts).Reaches cancelCurrent c c')
    (hc : Unsubmitted ds c.st) : Unsubmitted ds c'.st := by
  refine hreach.maintained (P := Unsubmitted ds) ?_ ?_ ?_ (fun s hs => ⟨hs.pending, hs.carries⟩) hc
  · simp only [dsSDSinglePath, dsOp, List.nil_append, List.forall_mem_cons]
    exact ⟨fun s hs => ⟨hs.pending, hs.carries⟩,
      unsubmitted_of_quiet quiet_resetCancel fun _ hs => hs, startIter_unsubmitted, by simp⟩
  · simp only [dsSDSinglePath, dsOp, List.forall_mem_cons]
    exact ⟨lookupCollection_unsubmitted _, fun s hs => ⟨hs.pending, hs.carries⟩,
      submitItem_unsubmitted hunknown _, unsubmitted_of_quiet quiet_postsubmit fun _ hs => hs,
      drain_unsubmitted, delay_unsubmitted, advanceIter_unsubmitted, by simp⟩
  · simp only [dsSDSinglePath, dsOp, List.forall_mem_cons]
    exact ⟨collectResult_unsubmitted, drain_unsubmitted, by simp⟩

/-! ### Every operation -/

/-- An operation whose books are kept leaves no futures behind, if they are few. -/
theorem books_drained {checks : ℕ} {c : Config (OpState (DsLocal DatasetIterator Unit)) Crash}
    (hc : c.Satisfies (opAssertion ds.getIter Dataset.newIterator h.options w opts checks))
    (hpos : c.pos = .done) (hfew : FewFutures ds opts c.rounds) : c.st.ses.pending = [] := by
  obtain ⟨hclosed, hcollected⟩ := hc.of_pos hpos
  refine hclosed.pending_nil hcollected (hfew.imp_right fun hrounds => ?_)
  rcases hrounds with hfinite | hlt
  · exact (Dataset.walked_le hfinite hclosed.walked).trans_lt hfinite.2
  · exact hlt

/-- An operation on a dataset that starts without futures returns without any. -/
theorem dsOperation_drained {op : Operation} (hop : dsOperation h w req ds opts = some op)
    (hleft : h.pending = []) {c : Config (OpState op.L) Crash}
    (hreach : op.prog.Reaches cancelCurrent (op.start (h.session .new)) c) (hpos : c.pos = .done)
    (hfew : req.command.code.isDsOperation = true → FewFutures ds opts c.rounds) :
    c.st.ses.pending = [] := by
  cases dsOperation_kind hop with
  | items checks mk hchecks hmk hcode =>
    exact books_drained ((dsOp_books hchecks fun _ i _ _ id => hmk id i).sound hreach
      ⟨hleft, rfl, rfl, rfl, rfl, rfl⟩) hpos (hfew hcode)
  | subdoc hcode =>
    by_cases hknown : Dataset.itemCommand ds.spec ∈ subdocCommands
    · exact books_drained ((sdRun_outline ((subdocReady_iff ds).mpr fun _ => hknown)).sound hreach
        ⟨hleft, rfl, rfl, rfl, rfl, rfl⟩) hpos (hfew (by rw [hcode]; rfl))
    · exact (unknown_unsubmitted hknown hreach ⟨hleft, .inl rfl⟩).pending
  | load hcode =>
    have hsat := loader_outline.sound hreach ⟨rfl, rfl, rfl, rfl, rfl, rfl, rfl, rfl⟩
    exact (hsat.of_pos hpos).2.1
  | viewLoad hcode => exact (viewLoader_settled hreach (settledView_session w hleft _ _)).settled.pending

/-- Nor does it meet any outcome but those of its own requests. -/
theorem dsOperation_own {op : Operation} (hop : dsOperation h w req ds opts = some op)
    (hleft : h.pending = []) {c : Config (OpState op.L) Crash}
    (hreach : op.prog.Reaches cancelCurrent (op.start (h.session .new)) c) :
    OwnOutcomes w c.st.ses := by
  have hown := (settled_session w hleft).own
  cases dsOperation_kind hop with
  | items checks mk hchecks hmk hcode => exact dsOp_own hchecks hreach hown
  | subdoc hcode => exact dsOp_own (by simp) hreach hown
  | load hcode => exact loader_own hreach hown
  | viewLoad hcode => exact (viewLoader_settled hreach (settledView_session w hleft _ _)).settled.own

end Drained

namespace WorkerDispatch

/-! ## From one call to the next -/

/-- No futures are left in the handle. -/
def Drained (wd : WorkerDispatch) : Prop := ∀ h, wd.curHandle = some h → h.pending = []

section Calls

variable [JsonAccess] [JsonWriter]

/-- The futures of the operation a call runs, if it is one on a dataset, are few. -/
def Counted (env : WorkerEnv) (wd : WorkerDispatch) (md : MainDispatch) (req : Request) (n : ℕ) :
    Prop :=
  ∀ h t ds op, wd.curHandle = some h → resolveDataset md req = .ok (.ok (t, ds)) →
    req.command.code.isDsOperation = true →
    dsOperation h env.world req ds (.ofJson (req.payload.get "Options")) = some op →
    FewFutures ds (.ofJson (req.payload.get "Options"))
      (op.prog.run cancelCurrent env.sched (op.start (h.session .new)) n).rounds

/-- What happens to a worker: a call of `processRequest` that satisfies `cond` returns, the loop reads
or writes, or the control thread cancels. -/
inductive Serves (cond : WorkerEnv → WorkerDispatch → MainDispatch → Request → ℕ → Prop) :
    WorkerDispatch → WorkerDispatch → Prop where
  | call {env : WorkerEnv} {wd wd' : WorkerDispatch} {md md' : MainDispatch} {req : Request} {n : ℕ}
      {b : Bool} (hcond : cond env wd md req n)
      (hcall : wd.processRequest env md req n = .returned (b, wd', md')) : Serves cond wd wd'
  | io (wd : WorkerDispatch) (io : IOProtoHandler) : Serves cond wd { wd with io := io }
  | cancel (wd : WorkerDispatch) : Serves cond wd wd.cancelCurrentHandle

variable {env : WorkerEnv} {wd wd' : WorkerDispatch} {md md' : MainDispatch} {req : Request}
  {n : ℕ} {b : Bool}

/-- The handle behind a NEWHANDLE is the one before, or a new one with the options of the payload. -/
theorem initializeHandle_curHandle (h : wd.initializeHandle env md req = .ok (wd', md')) :
    wd'.curHandle = wd.curHandle ∨
    ∃ o, HandleOptions.ofJson env.options env.certfile req.payload = .ok o ∧ o.isValid = true ∧
      wd'.curHandle = some ⟨o, req.handleId, env.doCancel, []⟩ := by
  have hreply : ∀ (wd : WorkerDispatch) err, (wd.replyHandle req err).curHandle = wd.curHandle := by
    intro wd err
    unfold replyHandle
    split_ifs <;> rfl
  unfold initializeHandle at h
  split at h
  · cases h
  · next o hopts =>
    dsimp only at h
    split_ifs at h with hvalid <;> obtain ⟨rfl, -⟩ := Prod.mk.inj (Except.ok.inj h)
    case neg => exact .inr ⟨o, hopts, by simpa using hvalid, hreply _ _⟩
    all_goals exact .inl (hreply _ _)

/-- A new handle has no futures. -/
theorem initializeHandle_drained (h : wd.initializeHandle env md req = .ok (wd', md'))
    (hdrained : wd.Drained) : wd'.Drained := by
  intro h' hh'
  rcases initializeHandle_curHandle h with hsame | ⟨o, -, -, hnew⟩
  · exact hdrained h' (hsame ▸ hh')
  · rw [hnew] at hh'
    rw [← Option.some.inj hh']

omit [JsonAccess] in
theorem replyResults_curHandle {rs : ResultSet}
    (h : wd.replyResults md req rs = .returned (b, wd', md')) : wd'.curHandle = wd.curHandle := by
  unfold replyResults at h
  split_ifs at h
  · cases h
    rfl
  · split at h
    · cases h
    · cases h
      rfl

omit [JsonAccess] in
/-- Behind a call that runs an operation the handle has the futures the operation has left. -/
theorem runOperation_drained {h : Handle} {op : Operation}
    (hcall : wd.runOperation env md req h op n = .returned (b, wd', md'))
    (hdone : ∀ c : Config (OpState op.L) Crash,
      op.prog.run cancelCurrent env.sched (op.start (h.session .new)) n = c → c.pos = .done →
        c.st.ses.pending = []) : wd'.Drained := by
  unfold runOperation at hcall
  dsimp only at hcall
  split at hcall
  · next hpos =>
    intro h' hh'
    rw [replyResults_curHandle hcall] at hh'
    rw [← Option.some.inj hh']
    exact hdone _ rfl hpos
  · cases hcall
  · cases hcall

/-- A call that finds no futures leaves none. -/
theorem processRequest_drained (hcounted : Counted env wd md req n) (hdrained : wd.Drained)
    (hcall : wd.processRequest env md req n = .returned (b, wd', md')) : wd'.Drained := by
  obtain hout | ⟨out, hinit, hout⟩ | ⟨err, hout⟩ | ⟨e, hout⟩ | ⟨h, op, hh, hruns, hrun⟩ :=
    processRequest_cases env wd md req n
  · rw [hout] at hcall
    cases hcall
    exact hdrained
  · rw [hout] at hcall
    cases hcall
    exact initializeHandle_drained hinit.2 hdrained
  · rw [hout] at hcall
    cases hcall
    exact hdrained
  · rw [hout] at hcall
    cases hcall
  · have hop : wd.runOperation env md req h op n = .returned (b, wd', md') :=
      (hrun n env.sched).symm.trans hcall
    refine runOperation_drained hop fun c hc hpos => ?_
    subst hc
    rcases hruns.cases with ⟨-, t, ds, hds, -, hop⟩ | ⟨-, hop⟩
    · exact dsOperation_drained hop (hdrained h hh) (Prog.reaches_run _ _ n) hpos
        fun hcode => hcounted h t ds op hh hds hcode hop
    · -- queries put no futures into the handle, so nothing has to be counted
      exact (queryOperation_maintains (settled_queryInvariant _ _) hop (Prog.reaches_run _ _ n)
        (settled_session _ (hdrained h hh))).pending

theorem Serves.drained (h : Serves Counted wd wd') (hdrained : wd.Drained) : wd'.Drained := by
  cases h with
  | call hcounted hcall => exact processRequest_drained hcounted hdrained hcall
  | io => exact hdrained
  | cancel =>
    intro h' hh'
    obtain ⟨h, hh, rfl⟩ := Option.map_eq_some_iff.mp hh'
    exact hdrained h hh

/-- **Isolation of requests.** If the futures of every call are few, then between two calls of a worker
no futures are left, and an operation that a request gets to meets the outcomes of its own requests
only, wherever it stands. -/
theorem requests_isolated (id : ℕ) (script : List RecvResult)
    (h : Relation.ReflTransGen (Serves Counted) (.new id script) wd) :
    wd.Drained ∧ ∀ (env : WorkerEnv) md req hd op, wd.curHandle = some hd → Runs hd env.world md req op →
      ∀ c, op.prog.Reaches cancelCurrent (op.start (hd.session .new)) c →
        OwnOutcomes env.world c.st.ses := by
  have hdrained : wd.Drained := by
    induction h with
    | refl =>
      intro hd hnone
      cases hnone
    | tail _ hserves ih => exact hserves.drained ih
  refine ⟨hdrained, fun env md req hd op hhd hruns c hreach => ?_⟩
  have hleft := hdrained hd hhd
  rcases hruns.cases with ⟨-, t, ds, -, -, hop⟩ | ⟨-, hop⟩
  · exact dsOperation_own hop hleft hreach
  · exact (queryOperation_maintains (settled_queryInvariant _ _) hop hreach
      (settled_session _ hleft)).own

end Calls

end WorkerDispatch

/-! ## Without IterWait on a dataset without an end -/

section PilesUp

/-- The futures pile up, and the counter goes round. -/
structure PilesUp (r : ℕ) (s : Session) : Prop where
  doCancel : s.doCancel = false
  draining : s.draining = false
  count : s.pending.length = r
  remaining : s.rs.remaining = toInt r
  options : s.rs.options = .default
  operError : s.rs.operError = .success

variable {ι : Type*} {it : IterOps ι} {o : HandleOptions} {w : World} {i : ι}
  {collection : String × String} {sched : ℕ → Bool} {n r : ℕ}

/-- At the loop test behind `r` items, all of them the same one. -/
structure Piled (i : ι) (r : ℕ) (c : Config (OpState (DsLocal ι Unit)) Crash) : Prop where
  pos : c.pos = .test
  iter : c.st.loc.iter = i
  pile : PilesUp r c.st.ses

/-- A round over an item that `advance` comes back to. -/
theorem dsGet_round (hdone : it.done i = false) (hadvance : it.advance i = .ok i)
    (hcollection : o.getCollection (it.key i) = .ok collection)
    (hsched : ∀ j < 9, sched (n + j) = false)
    {c₀ : Config (OpState (DsLocal ι Unit)) Crash}
    (h : Piled i r ((dsGet it o w .default).run cancelCurrent sched c₀ n)) :
    Piled i (r + 1) ((dsGet it o w .default).run cancelCurrent sched c₀ (n + 9)) := by
  generalize hc : (dsGet it o w .default).run cancelCurrent sched c₀ n = c at h
  obtain ⟨hpos, hiter, hpile⟩ := h
  obtain ⟨pos, ⟨ses, ⟨i', collection', ⟨⟩⟩⟩, k⟩ := c
  dsimp only at hpos hiter hpile
  subst hpos hiter
  have htest := Prog.run_succ_of_step ⟨.body 0, ⟨ses, ⟨i', collection', ()⟩⟩, k + 1⟩
    hc (hsched 0 (by decide))
    (by simp [Prog.step, Prog.actionAt, dsGet, dsOp, itemsLeft, hdone, hpile.doCancel])
  have hlookup := Prog.run_succ_of_step ⟨.body 1, ⟨ses, ⟨i', collection, ()⟩⟩, k + 1⟩
    htest (hsched 1 (by decide))
    (by simp [Prog.step, Prog.actionAt, dsGet, dsOp, Config.perform, lookupCollection, hcollection])
  have hmark := Prog.run_succ_of_step ⟨.body 2, ⟨ses.markBegin w, ⟨i', collection, ()⟩⟩, k + 1⟩
    hlookup (hsched 2 (by decide)) rfl
  have hsubmit := Prog.run_succ_of_step
    ⟨.body 3, ⟨(ses.markBegin w).submit w (.get (documentId it o ⟨i', collection, ()⟩)),
      ⟨i', collection, ()⟩⟩, k + 1⟩
    hmark (hsched 3 (by decide)) rfl
  obtain ⟨ses', hses'⟩ : ∃ ses', (ses.markBegin w).submit w
      (.get (documentId it o ⟨i', collection, ()⟩)) = ses' := ⟨_, rfl⟩
  have hcount : ses'.pending.length = r + 1 := by
    rw [← hses']
    simp [Session.submit, Session.markBegin, hpile.count]
  have hrest : ses'.doCancel = false ∧ ses'.draining = false ∧ ses'.rs.remaining = toInt r ∧
      ses'.rs.options = .default ∧ ses'.rs.operError = .success := by
    rw [← hses']
    exact ⟨hpile.doCancel, hpile.draining, hpile.remaining, hpile.options, hpile.operError⟩
  obtain ⟨hcancel, hdraining, hremaining, hoptions, herror⟩ := hrest
  rw [hses'] at hsubmit
  -- without IterWait `postsubmit` only counts, and nothing is drained
  obtain ⟨counted, hcounted⟩ : ∃ counted, { ses' with
      rs := { ses'.rs with remaining := toInt (ses'.rs.remaining + 1) } } = counted := ⟨_, rfl⟩
  have hquiet : counted.draining = false := hcounted ▸ hdraining
  have hpost := Prog.run_succ_of_step ⟨.body 4, ⟨counted, ⟨i', collection, ()⟩⟩, k + 1⟩
    hsubmit (hsched 4 (by decide))
    (by simp [Prog.step, Prog.actionAt, dsGet, dsOp, Config.perform, postsubmit, hoptions, hdraining,
      ResultOptions.default, ResultOptions.make, ← hcounted])
  have hdrain := Prog.run_succ_of_step ⟨.body 5, ⟨counted, ⟨i', collection, ()⟩⟩, k + 1⟩
    hpost (hsched 5 (by decide))
    (by simp [Prog.step, Prog.actionAt, dsGet, dsOp, Config.perform, drain, hquiet])
  have hdelay := Prog.run_succ_of_step ⟨.body 6, ⟨counted, ⟨i', collection, ()⟩⟩, k + 1⟩
    hdrain (hsched 6 (by decide))
    (by simp [Prog.step, Prog.actionAt, dsGet, dsOp, Config.perform, delay, hquiet])
  have hadv := Prog.run_succ_of_step ⟨.body 7, ⟨counted, ⟨i', collection, ()⟩⟩, k + 1⟩
    hdelay (hsched 7 (by decide))
    (by simp [Prog.step, Prog.actionAt, dsGet, dsOp, Config.perform, advanceIter, hadvance])
  have hend := Prog.run_succ_of_step ⟨.test, ⟨counted, ⟨i', collection, ()⟩⟩, k + 1⟩
    hadv (hsched 8 (by decide)) rfl
  have hround : (dsGet it o w .default).run cancelCurrent sched c₀ (n + 9) = _ := hend
  rw [hround]
  refine ⟨rfl, rfl, ?_⟩
  rw [← hcounted]
  refine ⟨hcancel, hdraining, hcount, ?_, hoptions, herror⟩
  simp only [hremaining, toInt_toInt_add]
  congr 1

theorem dsGet_start {i₀ : ι} (hstart : it.start i₀ = .ok i) {h : Handle} (hleft : h.pending = [])
    (hsched : ∀ j < 4, sched j = false) :
    Piled i 0 ((dsGet it o w .default).run cancelCurrent sched
      (.start ⟨h.session .new, ⟨i₀, ("", ""), ()⟩⟩) 4) := by
  obtain ⟨ses, hses⟩ : ∃ ses, { (h.session .new).enter .default with doCancel := false } = ses :=
    ⟨_, rfl⟩
  have henter : (dsGet it o w .default).run cancelCurrent sched
      (.start ⟨h.session .new, ⟨i₀, ("", ""), ()⟩⟩) 1 =
        ⟨.pre 1, ⟨(h.session .new).enter .default, ⟨i₀, ("", ""), ()⟩⟩, 0⟩ :=
    Prog.run_succ_of_step _ rfl (hsched 0 (by decide)) rfl
  have hreset := Prog.run_succ_of_step ⟨.pre 2, ⟨ses, ⟨i₀, ("", ""), ()⟩⟩, 0⟩
    henter (hsched 1 (by decide)) (by rw [← hses]; rfl)
  have hiter := Prog.run_succ_of_step ⟨.pre 3, ⟨ses, ⟨i, ("", ""), ()⟩⟩, 0⟩
    hreset (hsched 2 (by decide))
    (by simp [Prog.step, Prog.actionAt, dsGet, dsOp, Config.perform, startIter, hstart])
  have htest := Prog.run_succ_of_step ⟨.test, ⟨ses, ⟨i, ("", ""), ()⟩⟩, 0⟩
    hiter (hsched 3 (by decide)) rfl
  have hrun : (dsGet it o w .default).run cancelCurrent sched
      (.start ⟨h.session .new, ⟨i₀, ("", ""), ()⟩⟩) 4 = _ := htest
  rw [hrun]
  refine ⟨rfl, rfl, ?_⟩
  rw [← hses]
  exact ⟨rfl, rfl, by simp [Session.enter, Handle.session, hleft], rfl, rfl, rfl⟩

/-- Round after round, as long as no cancellation comes. -/
theorem dsGet_rounds (hdone : it.done i = false) (hadvance : it.advance i = .ok i)
    (hcollection : o.getCollection (it.key i) = .ok collection)
    {c₀ : Config (OpState (DsLocal ι Unit)) Crash} {m : ℕ}
    (hstart : Piled i 0 ((dsGet it o w .default).run cancelCurrent sched c₀ m))
    (hsched : ∀ j < m + 9 * r, sched j = false) :
    Piled i r ((dsGet it o w .default).run cancelCurrent sched c₀ (m + 9 * r)) := by
  induction r with
  | zero => exact hstart
  | succ r ih =>
    have hpiled := ih fun j hj => hsched j (by omega)
    exact dsGet_round (n := m + 9 * r) hdone hadvance hcollection (fun j hj => hsched _ (by omega))
      hpiled

/-- A cancellation behind a multiple of `2 ^ 32` items: the counter shows none, and the operation
returns with all the futures. -/
theorem dsGet_returns {c₀ : Config (OpState (DsLocal ι Unit)) Crash}
    (h : Piled i r ((dsGet it o w .default).run cancelCurrent sched c₀ n)) (hzero : toInt r = 0)
    (hcancel : sched n = true) (hquiet : sched (n + 1) = false) :
    ∃ c, (dsGet it o w .default).run cancelCurrent sched c₀ (n + 2) = c ∧ c.pos = .done ∧
      c.st.ses.pending.length = r ∧ c.st.ses.rs.options = .default ∧
      c.st.ses.rs.operError = .success := by
  generalize hc : (dsGet it o w .default).run cancelCurrent sched c₀ n = c at h
  obtain ⟨hpos, -, hpile⟩ := h
  obtain ⟨pos, ⟨ses, l⟩, k⟩ := c
  dsimp only at hpos hpile
  subst hpos
  have hpost : (dsGet it o w .default).run cancelCurrent sched c₀ (n + 1) =
      ⟨.post 0, ⟨{ ses with doCancel := true }, l⟩, k⟩ := by
    rw [Prog.run, hc, hcancel]
    simp [Prog.advance, Config.interfere, cancelCurrent, Prog.step, Prog.actionAt, dsGet, dsOp,
      itemsLeft]
  have hend := Prog.run_succ_of_step ⟨.done, ⟨{ ses with doCancel := true }, l⟩, k⟩
    hpost hquiet
    (by simp [Prog.step, Prog.actionAt, dsGet, dsOp, Config.perform, collectResult, hpile.remaining,
      hzero])
  exact ⟨_, hend, rfl, hpile.count, hpile.options, hpile.operError⟩

end PilesUp

namespace WorkerDispatch

/-- A reply without time windows. -/
theorem replyResults_untimed [JsonWriter] {wd : WorkerDispatch} {md : MainDispatch} {req : Request}
    {rs : ResultSet} (herror : rs.operError.isSet = false) (huntimed : rs.options.timeres = 0) :
    wd.replyResults md req rs = .returned (true, wd.writeResponse
      ((Response.ofRequest req .success).setResponseData
        (Json.null.set "Summary" (ResultSet.statsJson rs.stats))), md) := by
  simp [replyResults, herror, ResultSet.resultsJson, huntimed]

section Examples

/-- The worker behind the NEWHANDLE of the examples. -/
def exampleServing : WorkerDispatch :=
  { WorkerDispatch.new 0 [] with curHandle := some { exampleHandle with hid := 4 }, curHid := 4 }

theorem exampleServing_reached
    {cond : WorkerEnv → WorkerDispatch → MainDispatch → Request → ℕ → Prop}
    (hcond : cond (exampleWorkerEnv .success) (.new 0 []) (.new []) exampleNewHandle 0) :
    letI := JsonAccess.plain
    letI := JsonWriter.compact
    Relation.ReflTransGen (Serves cond) (.new 0 []) exampleServing := by
  obtain ⟨wd, md, hcall, hio⟩ : ∃ wd md, @processRequest JsonAccess.plain JsonWriter.compact
      (exampleWorkerEnv .success) (.new 0 []) (.new []) exampleNewHandle 0 =
        .returned (true, wd, md) ∧ { wd with io := .fresh [] } = exampleServing := ⟨_, _, rfl, rfl⟩
  rw [← hio]
  exact .tail (.single (@Serves.call JsonAccess.plain JsonWriter.compact cond _ _ _ _ _ _ _ _ hcond
    hcall)) (@Serves.io JsonAccess.plain JsonWriter.compact cond wd _)

/-- A get over two keys in batches of two. -/
def exampleBatchedGet : Request :=
  ⟨2, 4, ⟨"MC_DS_GET", .mcDsGet⟩, .object [("DSType", .string "DSTYPE_INLINE"),
    ("DS", .object [("Items", .array [.string "key1", .string "key2"])]),
    ("Options", .object [("IterWait", .uint 2)])], .success⟩

/-- It is served, and leaves no futures. -/
theorem exampleBatchedGet_returns :
    letI := JsonAccess.plain
    letI := JsonWriter.compact
    ∃ wd md, processRequest (exampleWorkerEnv .success) exampleServing (.new []) exampleBatchedGet 28 =
      .returned (true, wd, md) ∧ wd.curHandle = some { exampleHandle with hid := 4 } := ⟨_, _, rfl, rfl⟩

/-- Two of them on one handle. -/
theorem requests_isolated_twice :
    letI := JsonAccess.plain
    letI := JsonWriter.compact
    ∃ wd h op, Relation.ReflTransGen (Serves Counted) exampleServing wd ∧ wd.Drained ∧ wd.curHandle = some h ∧
      Runs h exampleWorld (.new []) exampleBatchedGet op ∧
      ∃ c, op.prog.Reaches cancelCurrent (op.start (h.session .new)) c ∧ c.pos = .done ∧
        c.st.ses.sent.length = 2 ∧ OwnOutcomes exampleWorld c.st.ses := by
  let := JsonAccess.plain
  let := JsonWriter.compact
  obtain ⟨wd, md, hcall, hh⟩ := exampleBatchedGet_returns
  have hcounted : Counted (exampleWorkerEnv .success) exampleServing (.new []) exampleBatchedGet 28 :=
    fun h t ds op _ _ _ _ => .inl (by decide)
  have hserves : Serves Counted exampleServing wd := .call hcounted hcall
  have hruns : Runs { exampleHandle with hid := 4 } exampleWorld (.new []) exampleBatchedGet
      ⟨_, dsGet exampleDataset.getIter exampleHandle.options exampleWorld
        (.ofJson (exampleBatchedGet.payload.get "Options")), ⟨Dataset.newIterator, ("", ""), ()⟩⟩ :=
    ⟨.inline, exampleDataset, rfl, rfl, rfl⟩
  obtain ⟨hdrained, hown⟩ := requests_isolated 0 []
    ((exampleServing_reached fun _ _ _ _ hnone => nomatch hnone).tail hserves)
  have hreach : (dsGet exampleDataset.getIter exampleHandle.options exampleWorld
      (.ofJson (exampleBatchedGet.payload.get "Options"))).Reaches cancelCurrent _ _ := Prog.reaches_run
    (fun _ => false)
    (.start ⟨Handle.session { exampleHandle with hid := 4 } .new, ⟨Dataset.newIterator, ("", ""), ()⟩⟩) 28
  exact ⟨wd, _, _, .single hserves, hdrained, hh, hruns, _, hreach, by decide +kernel, by decide +kernel,
    hown (exampleWorkerEnv .success) (.new []) exampleBatchedGet _ _ hh hruns _ hreach⟩

/-- The handle is cancelled when `r` items have been stepped over. -/
def exampleCancelled (r : ℕ) : WorkerEnv :=
  { exampleWorkerEnv .success with sched := fun n => n = 4 + 9 * r }

/-- A get over a continuous dataset without IterWait, cancelled behind a multiple of `2 ^ 32` items,
returns with all the futures. -/
theorem continuous_left {r : ℕ} (hzero : toInt r = 0) :
    letI := JsonAccess.plain
    letI := JsonWriter.compact
    ∃ n wd' md' h, processRequest (exampleCancelled r) exampleServing (.new []) exampleContinuous n =
      .returned (true, wd', md') ∧ wd'.curHandle = some h ∧ h.pending.length = r := by
  obtain ⟨it, hit⟩ : ∃ it, @Dataset.getIter JsonAccess.plain JsonWriter.compact
    (@Dataset.sdOfJson JsonAccess.plain (exampleContinuous.payload.get "DS") false) = it := ⟨_, rfl⟩
  let i : DatasetIterator := ⟨0, "0", "", "", ""⟩
  have hsched : ∀ j < 4 + 9 * r, (exampleCancelled r).sched j = false :=
    fun j hj => decide_eq_false (by omega)
  have hstart : it.start Dataset.newIterator = .ok i := by rw [← hit]; rfl
  have hdone : it.done i = false := by rw [← hit]; rfl
  have hindex : Dataset.nextIndex (@Dataset.sdOfJson JsonAccess.plain
      (exampleContinuous.payload.get "DS") false).spec 0 = 0 := by decide
  have hadvance : it.advance i = .ok i := by
    rw [← hit]
    dsimp only [Dataset.getIter]
    rw [hindex]
    rfl
  have hcollection : exampleHandle.options.getCollection (it.key i) = .ok ("_default", "_default") :=
    by rw [← hit]; rfl
  have hpiled := dsGet_rounds (w := exampleWorld) hdone hadvance hcollection
    (dsGet_start (h := { exampleHandle with hid := 4 }) hstart rfl fun j hj => hsched j (by omega)) hsched
  obtain ⟨c, hc, hpos, hlength, hoptions, herror⟩ := dsGet_returns hpiled hzero
    (decide_eq_true rfl) (decide_eq_false (by omega))
  have hcall : ∀ n, @processRequest JsonAccess.plain JsonWriter.compact (exampleCancelled r)
      exampleServing (.new []) exampleContinuous n = @runOperation JsonWriter.compact
        (exampleCancelled r) exampleServing (.new []) exampleContinuous { exampleHandle with hid := 4 }
        ⟨_, dsGet it exampleHandle.options exampleWorld .default,
          ⟨Dataset.newIterator, ("", ""), ()⟩⟩ n := by
    rw [← hit]
    exact fun _ => rfl
  have hreply := hcall (4 + 9 * r + 2)
  rw [@runOperation_of_done JsonWriter.compact _ _ _ _ _ _ _ _ hc hpos] at hreply
  rw [@replyResults_untimed JsonWriter.compact _ _ _ _ (by rw [herror]; rfl) (by rw [hoptions]; rfl)]
    at hreply
  exact ⟨4 + 9 * r + 2, _, _, _, hreply, rfl, hlength⟩

/-- The futures of a get over a continuous dataset without IterWait, cancelled behind `2 ^ 32` items. -/
theorem continuous_not_isolated :
    letI := JsonAccess.plain
    letI := JsonWriter.compact
    ∃ wd h, Relation.ReflTransGen (Serves fun _ _ _ _ _ => True) (.new 0 []) wd ∧
      wd.curHandle = some h ∧ h.pending.length = 2 ^ 32 ∧ ¬ wd.Drained := by
  obtain ⟨n, wd, md, h, hcall, hh, hlength⟩ := continuous_left (r := 2 ^ 32) (by decide)
  refine ⟨wd, h, ?_, hh, hlength, fun hdrained => ?_⟩
  · exact .tail (exampleServing_reached trivial)
      (@Serves.call JsonAccess.plain JsonWriter.compact _ _ _ _ _ _ _ _ _ trivial hcall)
  · rw [hdrained h hh] at hlength
    cases hlength

end Examples

end WorkerDispatch

end Sdkd
