import Sdkd.Connections
import Sdkd.Documents
import Sdkd.Lib.AssignedMap
import Sdkd.Pairing
import Sdkd.Windows

/-!
# A worker as a server of documents

Before a cluster that keeps documents, a worker and its client see a plain server of documents: every reply is
an error, or the one to a NEWHANDLE, or it counts what the server has done on the documents of a dataset, one
behind the other.

## Main definitions

- `Tells` — what a reply says of the operations of a command
- `Reference` — what the server replies and does
- `WorkerDispatch.DocumentTurn` — a turn of the worker before such a cluster

## Main results

- `WorkerDispatch.processRequest_reference` — a request is served as the server does
- `WorkerDispatch.serves_documents` — and so is every run
-/

namespace Sdkd

open IOProtoHandler LoopProg KeyValue

/-! ## What a summary says -/

/-- The statistics give the number of every text. -/
theorem get_statsJson {stats : Std.TreeMap String ℤ} {texts : List String}
    (h : Histogram.Counts intCounter stats texts) (text : String) :
    (ResultSet.statsJson stats).get text =
      if text ∈ texts then .int (toInt (texts.count text)) else .null := by
  rw [ResultSet.statsJson, Assignments.get_foldl Json.get_set Json.int, ← Assignments.holds_toList stats text, h text]
  split_ifs
  · rw [intCounter_reading]
    rfl
  · rfl

/-! ## What a command leaves in its results -/

theorem Code.needsDs_of_isPlain {code : Code} (hplain : code.isPlain = true) : code.needsDs = true := by
  revert hplain
  cases code <;> decide

section Results

variable {L ι X : Type*} {it : IterOps ι} {o : HandleOptions} {w : World}

/-- No error of the operation itself has been reported. -/
def Faultless (s : OpState L) : Prop := s.ses.rs.operError.isSet = false

theorem operError_setRescode (rs : ResultSet) (tv : TimeVal) (err : ErrorCode) :
    (rs.setRescode tv err).operError = rs.operError := by
  obtain ⟨_, _, _, hopen⟩ := (rs.record err "" false none).openWindow_eq tv
  obtain ⟨_, hrecord⟩ := rs.record_eq err "" false none
  show ((rs.record err "" false none).openWindow tv).operError = rs.operError
  rw [hopen, hrecord]

/-- The action does not report one. -/
theorem faultless_of_eq {a : OpAction L}
    (h : ∀ s, (a s).All fun s' => s'.ses.rs.operError = s.ses.rs.operError) :
    Action.Maintains Faultless a := by
  intro s hs
  have hkeeps := h s
  cases hout : a s <;> rw [hout] at hkeeps
  case fail => trivial
  all_goals
    show Error.isSet _ = false
    rw [hkeeps]
    exact hs

theorem drain_faultless : Action.Maintains (Faultless (L := L)) (drain (recordOutcome w)) := by
  refine faultless_of_eq fun s => ?_
  rcases drain_outcome (recordOutcome w) s with ⟨-, hout⟩ | ⟨ec, -, -, hout⟩ | ⟨-, -, hout⟩ <;> rw [hout]
  · rfl
  · exact operError_setRescode _ _ _
  · rfl

/-- The operations on datasets that pass their checks report none. -/
theorem dsOp_faultless {options : ResultOptions} {checks : List (OpAction (DsLocal ι Unit))}
    (hchecks : ∀ a ∈ checks, ∀ s, a s = .next s) {mk : DocumentId → ι → Option ClusterRequest}
    {c c' : Config (OpState (DsLocal ι Unit)) Crash}
    (h : (dsOp it o w options checks mk).Reaches cancelCurrent c c') (hc : Faultless c.st) :
    Faultless c'.st := by
  have hstart : Action.Maintains Faultless (startIter it : OpAction (DsLocal ι Unit)) := by
    refine faultless_of_eq fun s => ?_
    rcases startIter_outcome it s with ⟨i, -, hout⟩ | ⟨e, -, hout⟩ <;> rw [hout] <;> trivial
  have hlookup : Action.Maintains Faultless (lookupCollection it o : OpAction (DsLocal ι Unit)) := by
    refine faultless_of_eq fun s => ?_
    rcases lookupCollection_outcome it o s with ⟨i, -, hout⟩ | ⟨e, -, hout⟩ <;> rw [hout] <;> trivial
  have hsubmit : Action.Maintains Faultless (submitItem it o w mk : OpAction (DsLocal ι Unit)) := by
    refine faultless_of_eq fun s => ?_
    rcases submitItem_outcome it o w s mk with ⟨r, -, hout⟩ | ⟨-, hout⟩ <;> rw [hout] <;> rfl
  have hdelay : Action.Maintains Faultless (delay w : OpAction (DsLocal ι Unit)) := by
    refine faultless_of_eq fun s => ?_
    obtain ⟨draws, hout⟩ := delay_outcome w s
    rw [hout]
    rfl
  have hadvance : Action.Maintains Faultless (advanceIter it : OpAction (DsLocal ι Unit)) := by
    refine faultless_of_eq fun s => ?_
    rcases advanceIter_outcome it s with ⟨i, -, hout⟩ | ⟨e, -, hout⟩ <;> rw [hout] <;> trivial
  have hcollect : Action.Maintains Faultless (collectResult : OpAction (DsLocal ι Unit)) := by
    refine faultless_of_eq fun s => ?_
    rcases collectResult_outcome s with ⟨-, hout⟩ | ⟨-, hout⟩ <;> rw [hout] <;> rfl
  refine h.maintained (P := Faultless) ?_ ?_ ?_ (fun _ hs => hs) hc
  · simp only [dsOp, List.forall_mem_cons, List.forall_mem_append]
    refine ⟨fun _ hs => hs, fun _ hs => hs, fun a ha s hs => ?_, hstart, by simp⟩
    rw [hchecks a ha s]
    exact hs
  · simp only [dsOp, List.forall_mem_cons]
    exact ⟨hlookup, fun _ hs => hs, hsubmit, fun _ hs => hs, drain_faultless, hdelay, hadvance, by simp⟩
  · simp only [dsOp, List.forall_mem_cons]
    exact ⟨hcollect, drain_faultless, by simp⟩

end Results

section Commands

variable [JsonAccess] [JsonWriter] {o : HandleOptions} {ds : Dataset} {opts : ResultOptions} {code : Code}
  {m : ℕ} {sent : List ClusterRequest} {st : Store DocumentId String} {w : World} {h : Handle} {req : Request}
  {op : Operation}

/-- What a plain command on a dataset leaves when it has returned: no error of its own, and statistics that
count the outcomes of its requests; a load counts nothing. -/
theorem dsOperation_results (hop : dsOperation h w req ds opts = some op)
    (hplain : req.command.code.isPlain = true) (hleft : h.pending = []) {c : Config (OpState op.L) Crash}
    (hreach : op.prog.Reaches cancelCurrent (op.start (h.session .new)) c) (hpos : c.pos = .done)
    (hfew : req.command.code.isDsOperation = true → FewFutures ds opts c.rounds) :
    Faultless c.st ∧ Histogram.Counts intCounter c.st.ses.rs.stats
      (((if req.command.code.isLoad then [] else (List.range c.rounds).map w.outcome)).map ErrorCode.text) := by
  have hnil := dsOperation_drained hop hleft hreach hpos hfew
  cases dsOperation_kind hop with
  | items checks mk hchecks hmk hcode =>
    obtain ⟨hclosed, -⟩ := ((dsOp_books hchecks fun _ i _ _ id => hmk id i).sound hreach
      ⟨hleft, rfl, rfl, rfl, rfl, rfl⟩).of_pos hpos
    have hload : req.command.code.isLoad = false := by
      revert hcode
      cases req.command.code <;> decide
    have hrecorded : c.st.ses.rs.recorded = (List.range c.rounds).map w.outcome := by
      simpa [hnil, hclosed.count] using hclosed.books.outcomes
    rw [hload, if_neg Bool.false_ne_true, ← hrecorded]
    exact ⟨dsOp_faultless hchecks hreach rfl, hclosed.books.stats⟩
  | subdoc hcode => exact absurd hplain (by rw [hcode]; decide)
  | load hcode =>
    have hload : req.command.code.isLoad = true := by
      revert hplain hcode
      cases req.command.code <;> decide
    have hsat : c.Satisfies (loaderAssertion ds.getIter Dataset.newIterator h.options w .new h.pending) :=
      loader_outline.sound hreach ⟨rfl, rfl, rfl, rfl, rfl, rfl, rfl, rfl⟩
    have hrs : c.st.ses.rs = .new := (hsat.of_pos hpos).1.rs
    rw [hload, if_pos rfl, Faultless, hrs]
    exact ⟨rfl, Histogram.counts_empty⟩
  | viewLoad hcode => exact absurd hplain (by rw [hcode]; decide)

omit [JsonAccess] [JsonWriter] in
theorem hasItems_of_walked {ι : Type*} {it : IterOps ι} {i₀ i : ι} {n : ℕ} (h : Walked it i₀ n i)
    (hdone : it.done i = true) : HasItems it i₀ n where
  items := fun k hk => by
    rcases Nat.lt_or_eq_of_le hk with hlt | rfl
    · obtain ⟨j, hj, -⟩ := h.passed k hlt
      exact ⟨j, hj⟩
    · exact ⟨i, h.item⟩
  more := fun k hk j hj => by
    obtain ⟨j', hj', hmore⟩ := h.passed k hk
    rwa [Except.ok.inj (hj.symm.trans hj')]
  ended := fun j hj => by rwa [Except.ok.inj (hj.symm.trans h.item)]

/-- A load is refused nothing by a store. -/
theorem SentFor.succeeds (hload : code.isLoad = true)
    (h : SentFor ds.getIter Dataset.newIterator o (commandRequest opts code) m sent)
    (hserves : Serves st w sent) : ∀ k < m, (w.outcome k).isSet = false := by
  have hplain : code.isPlain = true := by simp [Code.isPlain, hload]
  obtain ⟨hlen, hops⟩ := h.storeOps hplain
  intro k hk
  have hmem : (!(w.outcome k).isSet) ∈ answers (sent.filterMap ClusterRequest.storeOp) st := by
    rw [← hserves, hlen]
    exact List.mem_map.mpr ⟨k, List.mem_range.mpr hk, rfl⟩
  have htrue : (!(w.outcome k).isSet) = true := by
    refine answers_of_accepted (fun op hop st => ?_) _ hmem
    rw [hops] at hop
    obtain ⟨d, -, rfl⟩ := List.mem_map.mp hop
    rw [accepted_commandOp hplain, Code.succeedsOn, hload, Bool.true_or, if_pos rfl]
  simpa using htrue

/-- A plain command has come to the end of its dataset when it returns, or it has been cancelled. -/
theorem dsOperation_stops (hop : dsOperation h w req ds opts = some op)
    (hplain : req.command.code.isPlain = true) (hleft : h.pending = []) {c : Config (OpState op.L) Crash}
    (hreach : op.prog.Reaches cancelCurrent (op.start (h.session .new)) c) (hpos : c.pos = .done)
    (hserves : Serves st w c.st.ses.sent) :
    c.st.ses.doCancel = true ∨ HasItems ds.getIter Dataset.newIterator c.rounds := by
  cases dsOperation_itemOperation hop (Code.ne_viewLoad_of_isPlain hplain) with
  | operation hcode hp =>
    rcases ((hp.sends hreach rfl rfl).2 hpos).ended with ⟨hwalked, hdone⟩ | hcancel
    · exact .inr (hasItems_of_walked hwalked hdone)
    · exact .inl hcancel
  | load hcode hp =>
    have hover := (hp.sends hreach rfl rfl).2 hpos
    rcases hover.ended with ⟨hwalked, hdone⟩ | hbad
    · exact .inr (hasItems_of_walked hwalked hdone)
    · have hsat : c.Satisfies (loaderAssertion ds.getIter Dataset.newIterator h.options w .new h.pending) :=
        loader_outline.sound hreach ⟨rfl, rfl, rfl, rfl, rfl, rfl, rfl, rfl⟩
      rcases (hsat.of_pos hpos).1.verdict hbad with ⟨-, ec, hec, -⟩ | ⟨k, hk, hset⟩
      · rw [hleft] at hec
        cases hec
      · rw [hover.sent.succeeds hcode hserves k hk] at hset
        cases hset

/-! ## The server -/

/-- The operations of a command on the first `m` documents of a dataset. -/
def commandOps (o : HandleOptions) (ds : Dataset) (code : Code) (m : ℕ) : List (Op DocumentId String) :=
  (itemDocuments o ds m).map fun d => commandOp code d.1 d.2.curv

omit [JsonAccess] [JsonWriter] in
/-- A reply to a command of whose operations `taken` says which ones the server took: its summary counts a text
for each of them, "success" for those, and for a load nothing at all. -/
structure Tells (code : Code) (taken : List Bool) (res : Response) : Prop where
  status : res.status = 0
  summary : ∃ texts : List String,
    texts.map (fun text => decide (text = "success")) = (if code.isLoad then [] else taken) ∧
    ∀ text, (res.responseData.get "Summary").get text =
      if text ∈ texts then .int (toInt (texts.count text)) else .null

omit [JsonAccess] [JsonWriter] in
/-- The reply to an operation whose statistics count the outcomes tells which ones were none of an error. -/
theorem tells_of_results (hvalid : req.isValid = true) {rs : ResultSet} {outcomes : List ErrorCode}
    (hcounts : Histogram.Counts intCounter rs.stats
      ((if code.isLoad then [] else outcomes).map ErrorCode.text))
    {pFactor : ℤ} {root : Json} (hroot : rs.resultsJson pFactor = .ok root)
    (htexts : ∀ ec ∈ outcomes, ec.isSet = true → ec.message ≠ "success") :
    Tells code (outcomes.map fun ec => !ec.isSet) ((Response.ofRequest req .success).setResponseData root) where
  status := Response.status_ofRequest_success hvalid Error.isSet_success
  summary := by
    refine ⟨(if code.isLoad then [] else outcomes).map ErrorCode.text, ?_, fun text => ?_⟩
    · split_ifs
      · rfl
      · rw [List.map_map]
        refine List.map_congr_left fun ec hec => ?_
        cases hset : ec.isSet with
        | true => simpa [ErrorCode.text, hset] using htexts ec hec hset
        | false => simp [ErrorCode.text, hset]
    · show (root.get "Summary").get text = _
      rw [(ResultSet.resultsJson_fields hroot).1]
      exact get_statsJson hcounts text

/-- What a server of documents, which keeps `st`, replies to a request, and the operations it does, one behind
the other: none if it reports an error or opens a handle, and those of a command on the first documents of its
dataset, on all of them unless the handle has been cancelled meanwhile. -/
inductive Reference (before behind : Option Handle) (md : MainDispatch) (req : Request)
    (st : Store DocumentId String) : Response → List (Op DocumentId String) → Prop
  | refused {res : Response} (h : res.status ≠ 0) : Reference before behind md req st res []
  | opened {res : Response} (hcode : req.command.code = .newhandle) : Reference before behind md req st res []
  | command {res : Response} {h h' : Handle} {t : DsType} {ds : Dataset} {m : ℕ} (hbefore : before = some h)
      (hbehind : behind = some h') (hds : WorkerDispatch.resolveDataset md req = .ok (.ok (t, ds)))
      (hplain : req.command.code.isPlain = true)
      (hall : h'.doCancel = true ∨ HasItems ds.getIter Dataset.newIterator m)
      (htells : Tells req.command.code (answers (commandOps h.options ds req.command.code m) st) res) :
      Reference before behind md req st res (commandOps h.options ds req.command.code m)

end Commands

/-! ## The worker -/

namespace WorkerDispatch

section Requests

variable [JsonAccess] [JsonWriter] {env : WorkerEnv} {wd wd' : WorkerDispatch} {md md' : MainDispatch}
  {req : Request} {n : ℕ} {st st' : Store DocumentId String}

/-- The cluster, which keeps `st`, goes along with a call and keeps `st'` behind it: if the call runs an
operation, this is one on whole documents, whose requests are answered as by a store, and no error has the
text "success". -/
inductive Keeps (env : WorkerEnv) (before : Option Handle) (md : MainDispatch) (req : Request) (n : ℕ)
    (st : Store DocumentId String) : Store DocumentId String → Prop
  | runs {h : Handle} {op : Operation} (hh : before = some h) (hruns : Runs h env.world md req op)
      (hplain : req.command.code.isPlain = true)
      (htexts : ∀ k, (env.world.outcome k).isSet = true → (env.world.outcome k).message ≠ "success")
      (hserves : Sdkd.Serves st env.world
        (op.prog.run cancelCurrent env.sched (op.start (h.session .new)) n).st.ses.sent) :
      Keeps env before md req n st (storeBehind st
        (op.prog.run cancelCurrent env.sched (op.start (h.session .new)) n).st.ses.sent)
  | quiet (hno : ∀ h op, before = some h → ¬ Runs h env.world md req op) : Keeps env before md req n st st

/-- A call that runs no operation and is not for a handle reports an error. -/
theorem processRequest_refuses (hno : ∀ h op, wd.curHandle = some h → ¬ Runs h env.world md req op)
    (hnew : req.command.code ≠ .newhandle)
    (hcall : wd.processRequest env md req n = .returned (true, wd', md')) :
    ∃ res : Response, wd'.io = wd.io.writeResponse res ∧ res.Answers req ∧ res.status ≠ 0 := by
  have refusal : ∀ err : Error, err.isSet = true → wd.processRequest env md req n =
      .returned (true, wd.writeResponse (.ofRequest req err), md) →
      ∃ res : Response, wd'.io = wd.io.writeResponse res ∧ res.Answers req ∧ res.status ≠ 0 := by
    intro err herr heq
    rw [heq] at hcall
    cases hcall
    exact ⟨_, rfl, Response.answers_ofRequest _ _, Response.status_ofRequest_of_isSet herr⟩
  by_cases hvalid : req.isValid = true
  swap
  · simp [processRequest, hvalid] at hcall
  by_cases hclose : req.command.code = .closehandle
  · simp [processRequest, hclose] at hcall
  cases hh : wd.curHandle with
  | none =>
    refine refusal (.of Error.SUBSYSf_SDKD Error.SDKD_ENOHANDLE "No handle created yet") rfl ?_
    simp [processRequest, hvalid, hclose, hnew, hh]
  | some h =>
    have hop : ∀ op, ¬ Runs h env.world md req op := fun op => hno h op hh
    by_cases hneeds : req.command.code.needsDs = true
    · cases hds : resolveDataset md req with
      | error e => simp [processRequest, hvalid, hclose, hnew, hh, hneeds, hds] at hcall
      | ok r =>
        cases r with
        | error err =>
          exact refusal err (isSet_of_resolveDataset hds)
            (by simp [processRequest, hvalid, hclose, hnew, hh, hneeds, hds])
        | ok tds =>
          obtain ⟨t, ds⟩ := tds
          cases hwait : needsIterWait t ds (.ofJson (req.payload.get "Options")) with
          | true =>
            exact refusal (.createInvalid "Continuous must be used with IterWait") (Error.isSet_createInvalid _)
              (by simp [processRequest, hvalid, hclose, hnew, hh, hneeds, hds, hwait])
          | false =>
            have hnone : dsOperation h env.world req ds (.ofJson (req.payload.get "Options")) = none := by
              refine Option.eq_none_iff_forall_ne_some.mpr fun op hsome => hop op ?_
              simp [Runs, hneeds, hds, hwait, hsome]
            exact refusal (.of Error.SUBSYSf_SDKD Error.SDKD_ENOIMPL "") rfl
              (by simp [processRequest, hvalid, hclose, hnew, hh, hneeds, hds, hwait, hnone, serve])
    · have hnone : queryOperation h env.world req (.ofJson (req.payload.get "Options")) = none := by
        refine Option.eq_none_iff_forall_ne_some.mpr fun op hsome => hop op ?_
        simp [Runs, hneeds, hsome]
      exact refusal (.of Error.SUBSYSf_SDKD Error.SDKD_ENOIMPL "") rfl
        (by simp [processRequest, hvalid, hclose, hnew, hh, hneeds, hnone, serve])

omit [JsonAccess] in
/-- An operation whose call returns has returned; if it reports no error of its own, its results are replied. -/
theorem runOperation_told {h : Handle} {op : Operation} {b : Bool}
    (hcall : wd.runOperation env md req h op n = .returned (b, wd', md')) {c : Config (OpState op.L) Crash}
    (hc : op.prog.run cancelCurrent env.sched (op.start (h.session .new)) n = c) :
    c.pos = .done ∧ (Faultless c.st → ∃ root, c.st.ses.rs.resultsJson md.pFactor = .ok root ∧
      wd'.io = wd.io.writeResponse ((Response.ofRequest req .success).setResponseData root) ∧
      wd'.curHandle = some { h with doCancel := c.st.ses.doCancel, pending := c.st.ses.pending }) := by
  subst hc
  unfold runOperation at hcall
  dsimp only at hcall
  split at hcall
  · next hpos =>
    refine ⟨hpos, fun hfaultless => ?_⟩
    unfold replyResults at hcall
    rw [Faultless] at hfaultless
    rw [hfaultless, if_neg Bool.false_ne_true] at hcall
    split at hcall
    · cases hcall
    · next root hroot =>
      cases hcall
      exact ⟨root, hroot, rfl, rfl⟩
  · cases hcall
  · cases hcall

/-- A call that runs a plain command serves it as the server does. -/
theorem runOperation_reference {h : Handle} {op : Operation} (hvalid : req.isValid = true)
    (hh : wd.curHandle = some h) (hruns : Runs h env.world md req op) (hplain : req.command.code.isPlain = true)
    (htexts : ∀ k, (env.world.outcome k).isSet = true → (env.world.outcome k).message ≠ "success")
    (hdrained : wd.Drained) (hcounted : Counted env wd md req n) {c : Config (OpState op.L) Crash}
    (hc : op.prog.run cancelCurrent env.sched (op.start (h.session .new)) n = c)
    (hserves : Sdkd.Serves st env.world c.st.ses.sent)
    (hcall : wd.runOperation env md req h op n = .returned (true, wd', md')) :
    ∃ (res : Response) (ops : List (Op DocumentId String)), wd'.io = wd.io.writeResponse res ∧ res.Answers req ∧
      Reference wd.curHandle wd'.curHandle md req st res ops ∧ storeBehind st c.st.ses.sent = run ops st := by
  obtain ⟨hpos, htold⟩ := runOperation_told hcall hc
  have hreach : op.prog.Reaches cancelCurrent (op.start (h.session .new)) c := hc ▸ Prog.reaches_run _ _ n
  have hleft := hdrained h hh
  obtain ⟨-, t, ds, hds, -, hop⟩ | ⟨hno, -⟩ := hruns.cases
  swap
  · rw [Code.needsDs_of_isPlain hplain] at hno
    cases hno
  have hfew : req.command.code.isDsOperation = true →
      FewFutures ds (.ofJson (req.payload.get "Options")) c.rounds := by
    intro hcode
    have hcount := hcounted h t ds op hh hds hcode hop
    rwa [hc] at hcount
  obtain ⟨hfaultless, hcounts⟩ := dsOperation_results hop hplain hleft hreach hpos hfew
  obtain ⟨root, hroot, hio, hhandle⟩ := htold hfaultless
  have hdone := (dsOperation_sends hop (Code.ne_viewLoad_of_isPlain hplain) .new hreach).returned hpos
  obtain ⟨hlen, hops⟩ := hdone.storeOps hplain
  have hall := dsOperation_stops hop hplain hleft hreach hpos hserves
  have htaken : ((List.range c.rounds).map env.world.outcome).map (fun ec => !ec.isSet) =
      answers (commandOps h.options ds req.command.code c.rounds) st := by
    rw [commandOps, ← hops, ← hserves, hlen, List.map_map]
    rfl
  have htells := tells_of_results hvalid hcounts hroot fun ec hec => by
    obtain ⟨k, -, rfl⟩ := List.mem_map.mp hec
    exact htexts k
  rw [htaken] at htells
  refine ⟨_, _, hio, Response.answers_setResponseData _ _ _, .command hh hhandle hds hplain hall htells, ?_⟩
  rw [storeBehind, hops]
  rfl

/-- A call of `processRequest` serves the request as the server does. -/
theorem processRequest_reference (hcall : wd.processRequest env md req n = .returned (true, wd', md'))
    (hkeeps : Keeps env wd.curHandle md req n st st') (hdrained : wd.Drained)
    (hcounted : Counted env wd md req n) :
    ∃ (res : Response) (ops : List (Op DocumentId String)), wd'.io = wd.io.writeResponse res ∧ res.Answers req ∧
      Reference wd.curHandle wd'.curHandle md req st res ops ∧ st' = run ops st := by
  cases hkeeps with
  | runs hh hruns hplain htexts hserves =>
    by_cases hvalid : req.isValid = true
    swap
    · simp [processRequest, hvalid] at hcall
    have hclose : req.command.code ≠ .closehandle := by
      intro hcode
      rw [hcode] at hplain
      exact absurd hplain (by decide)
    have hnew : req.command.code ≠ .newhandle := by
      intro hcode
      rw [hcode] at hplain
      exact absurd hplain (by decide)
    rw [processRequest_of_runs env hvalid hclose hnew hh hruns] at hcall
    exact runOperation_reference hvalid hh hruns hplain htexts hdrained hcounted rfl hserves hcall
  | quiet hno =>
    by_cases hnew : req.command.code = .newhandle
    · obtain ⟨hfalse, -⟩ | ⟨-, res, hanswers, hio⟩ := processRequest_io hcall
      · cases hfalse
      · exact ⟨res, [], hio, hanswers, .opened hnew, rfl⟩
    · obtain ⟨res, hio, hanswers, hstatus⟩ := processRequest_refuses hno hnew hcall
      exact ⟨res, [], hio, hanswers, .refused hstatus, rfl⟩

end Requests

section Runs

variable [JsonAccess] [JsonReader] [JsonWriter]

/-- A worker, what it sees of the daemon, and the documents of the cluster. -/
structure Site where
  wd : WorkerDispatch
  md : MainDispatch
  docs : Store DocumentId String

/-- A turn of the loop before a cluster that keeps documents, or a CANCEL between two turns; the rest of the
daemon changes as it likes. -/
inductive DocumentTurn : Site → Option (List Char) → Site → Prop
  | turn {wd wd' : WorkerDispatch} {md md' : MainDispatch} {st st' : Store DocumentId String} {t : WorkerTurn}
      (hturn : wd.selectLoop t = .returned (true, wd', md)) (hidle : wd.inputLine t = none → st' = st)
      (hcall : ∀ l, wd.inputLine t = some l →
        Keeps t.env wd.curHandle t.md (Request.decode t.junk (String.ofList l)) t.steps st st' ∧
        Counted t.env wd t.md (Request.decode t.junk (String.ofList l)) t.steps) :
      DocumentTurn ⟨wd, t.md, st⟩ (wd.inputLine t) ⟨wd', md', st'⟩
  | cancel (wd : WorkerDispatch) (md md' : MainDispatch) (st : Store DocumentId String) :
      DocumentTurn ⟨wd, md, st⟩ none ⟨wd.cancelCurrentHandle, md', st⟩

/-- What the server replies to a line, and the operations it does. -/
inductive Exchange (before behind : Option Handle) (md : MainDispatch) (st : Store DocumentId String) :
    Option (List Char) → List Response → List (Op DocumentId String) → Prop
  | silent : Exchange before behind md st none [] []
  | request {l : List Char} {junk : Message} {res : Response} {ops : List (Op DocumentId String)}
      (hanswers : res.Answers (Request.decode junk (String.ofList l)))
      (href : Reference before behind md (Request.decode junk (String.ofList l)) st res ops) :
      Exchange before behind md st (some l) [res] ops

variable {s s' : Site} {line : Option (List Char)}

/-- A turn is an exchange with the server. -/
theorem DocumentTurn.exchange (h : DocumentTurn s line s') (hdrained : s.wd.Drained) :
    s'.wd.Drained ∧ ∃ rs ops, s'.wd.io.queued = s.wd.io.queued ++ rs ∧ s'.docs = run ops s.docs ∧
      Exchange s.wd.curHandle s'.wd.curHandle s.md s.docs line rs ops := by
  cases h with
  | cancel wd md md' st =>
    have hcancelled : wd.cancelCurrentHandle.Drained := by
      intro h hh
      obtain ⟨h', hh', rfl⟩ := Option.map_eq_some_iff.mp hh
      exact hdrained h' hh'
    exact ⟨hcancelled, [], [], by simp [cancelCurrentHandle], rfl, .silent⟩
  | @turn wd wd' _ md' st st' t hturn hidle hcall =>
    obtain ⟨hnone, io, hio, rfl⟩ | ⟨l, io, hl, hio, hprocess⟩ := selectLoop_cases hturn
    · rw [hnone]
      exact ⟨hdrained, [], [], by simp [hio], hidle hnone, .silent⟩
    · obtain ⟨hkeeps, hcounted⟩ := hcall l hl
      have hcounted' : Counted t.env { wd with io := io } t.md (Request.decode t.junk (String.ofList l)) t.steps :=
        hcounted
      obtain ⟨res, ops, hres, hanswers, href, hst⟩ := processRequest_reference hprocess hkeeps hdrained hcounted'
      rw [hl]
      refine ⟨processRequest_drained hcounted' hdrained hprocess, [res], ops, ?_, hst, .request hanswers href⟩
      rw [hres, writeResponse_queued, hio]

/-- In a run, `rs` are the replies the server gives, turn by turn, and `ops` the operations it does. -/
structure ServedAs (s₀ : Site) (n : ℕ) (states : ℕ → Site) (lines : ℕ → Option (List Char))
    (rs : ℕ → List Response) (ops : ℕ → List (Op DocumentId String)) : Prop where
  queued : ∀ k ≤ n, (states k).wd.io.queued = s₀.wd.io.queued ++ (List.range k).flatMap rs
  docs : ∀ k ≤ n, (states k).docs = run ((List.range k).flatMap ops) s₀.docs
  exchange : ∀ k < n, Exchange (states k).wd.curHandle (states (k + 1)).wd.curHandle (states k).md
    (states k).docs (lines k) (rs k) (ops k)

/-- The turns of a run are exchanges with the server. -/
theorem exists_servedAs {s₀ : Site} {n : ℕ} {states : ℕ → Site} {lines : ℕ → Option (List Char)}
    (hdrained : s₀.wd.Drained) (hrun : IsRun DocumentTurn s₀ n states lines) :
    ∃ rs ops, ServedAs s₀ n states lines rs ops := by
  have hstep : ∀ k < n, (states k).wd.Drained := by
    intro k
    induction k with
    | zero =>
      intro _
      rw [hrun.start]
      exact hdrained
    | succ k ih => exact fun hk => ((hrun.turn k (Nat.lt_of_succ_lt hk)).exchange (ih (Nat.lt_of_succ_lt hk))).1
  choose! rs ops hqueued hdocs hexchange using fun k hk => ((hrun.turn k hk).exchange (hstep k hk)).2
  refine ⟨rs, ops, fun k => ?_, fun k => ?_, hexchange⟩
  · induction k with
    | zero =>
      intro _
      simp [hrun.start]
    | succ k ih =>
      intro hk
      rw [hqueued k hk, ih (Nat.le_of_succ_le hk)]
      simp [List.range_succ]
  · induction k with
    | zero =>
      intro _
      rw [hrun.start]
      rfl
    | succ k ih =>
      intro hk
      rw [hdocs k hk, ih (Nat.le_of_succ_le hk), List.range_succ, List.flatMap_append, run_append,
        List.flatMap_singleton]

/-- **A worker serves documents.** Let a worker with no futures left go through any run of turns before a cluster
that keeps documents, with a CANCEL at any moment. Then the run is one of the plain server: there are operations
for each turn, none but those of the command the line of this turn names, such that the cluster keeps what the
server keeps behind them, and the replies are those of the server. -/
theorem serves_documents {s₀ : Site} {n : ℕ} {states : ℕ → Site} {lines : ℕ → Option (List Char)}
    (hdrained : s₀.wd.Drained) (hrun : IsRun DocumentTurn s₀ n states lines) :
    ∃ (rs : ℕ → List Response) (ops : ℕ → List (Op DocumentId String)),
      (∀ k ≤ n, (states k).wd.io.queued = s₀.wd.io.queued ++ (List.range k).flatMap rs ∧
        (states k).docs = run ((List.range k).flatMap ops) s₀.docs) ∧
      ∀ k < n, Exchange (states k).wd.curHandle (states (k + 1)).wd.curHandle (states k).md
        (run ((List.range k).flatMap ops) s₀.docs) (lines k) (rs k) (ops k) := by
  obtain ⟨rs, ops, hserved⟩ := exists_servedAs hdrained hrun
  refine ⟨rs, ops, fun k hk => ⟨hserved.queued k hk, hserved.docs k hk⟩, fun k hk => ?_⟩
  rw [← hserved.docs k hk.le]
  exact hserved.exchange k hk

end Runs

section Examples

/-- A SET of one document on one line. -/
def exampleSetLine : String :=
  "\x7b\"Command\":\"MC_DS_MUTATE_SET\",\"ReqID\":1,\"Handle\":1,\"CommandData\":\x7b" ++
    "\"DSType\":\"DSTYPE_INLINE\",\"DS\":\x7b\"Items\":[[\"key1\",\"a\"]]\x7d\x7d\x7d"

def exampleSetOne : Request :=
  ⟨1, 1, ⟨"MC_DS_MUTATE_SET", .mcDsMutateSet⟩, .object [("DSType", .string "DSTYPE_INLINE"),
    ("DS", .object [("Items", .array [.array [.string "key1", .string "a"]])])], .success⟩

/-- A reader that knows it. -/
@[reducible] def exampleSetReader : JsonReader where
  parse := fun str =>
    if str = exampleSetLine then
      .ok (.object [("Command", .string "MC_DS_MUTATE_SET"), ("ReqID", .int 1), ("Handle", .int 1),
        ("CommandData", exampleSetOne.payload)])
    else .error "Syntax error"

def oneInline : Dataset := ⟨.success, .inline (.array [.array [.string "key1", .string "a"]])⟩

def exampleSetOneOperation : Operation :=
  ⟨_, @dsMutate _ (@Dataset.getIter JsonAccess.plain JsonWriter.compact oneInline) exampleHandle.options
    exampleWorld .default .mcDsMutateSet, ⟨Dataset.newIterator, ("", ""), ()⟩⟩

/-- It behind its last step. -/
def exampleSetOneDone : Config (OpState exampleSetOneOperation.L) Crash :=
  exampleSetOneOperation.prog.run cancelCurrent (fun _ => false)
    (exampleSetOneOperation.start (exampleHandle.session .new)) 19

/-- A request is served if its operation returns and its results can be written. -/
theorem processRequest_returns [JsonAccess] [JsonWriter] {env : WorkerEnv} {wd : WorkerDispatch} {md : MainDispatch}
    {req : Request} {n : ℕ} (hvalid : req.isValid = true) (hplain : req.command.code.isPlain = true) {h : Handle}
    (hh : wd.curHandle = some h) {op : Operation} (hruns : Runs h env.world md req op)
    {c : Config (OpState op.L) Crash}
    (hc : op.prog.run cancelCurrent env.sched (op.start (h.session .new)) n = c) (hpos : c.pos = .done)
    (hroot : (c.st.ses.rs.resultsJson md.pFactor).toOption.isSome = true) :
    ∃ wd' md', wd.processRequest env md req n = .returned (true, wd', md') := by
  have hcodes : req.command.code ≠ .closehandle ∧ req.command.code ≠ .newhandle := by
    constructor <;> intro hcode <;> rw [hcode] at hplain <;> exact absurd hplain (by decide)
  rw [processRequest_of_runs env hvalid hcodes.1 hcodes.2 hh hruns, runOperation_of_done hc hpos, replyResults_iff]
  right
  cases hjson : c.st.ses.rs.resultsJson md.pFactor with
  | error e =>
    rw [hjson] at hroot
    cases hroot
  | ok root => exact ⟨root, rfl⟩

/-- The request is served, and the reply gives its results. -/
theorem exampleSetOne_returns (io : IOProtoHandler) :
    letI := JsonAccess.plain
    letI := JsonWriter.compact
    ∃ wd md, processRequest (exampleWorkerEnv .success) { exampleWorker with io := io } (.new []) exampleSetOne 19 =
      .returned (true, wd, md) := by
  let := JsonAccess.plain
  let := JsonWriter.compact
  have hruns : Runs exampleHandle exampleWorld (.new []) exampleSetOne exampleSetOneOperation :=
    ⟨.inline, oneInline, rfl, rfl, rfl⟩
  have hdone : exampleSetOneOperation.prog.run cancelCurrent (exampleWorkerEnv .success).sched
      (exampleSetOneOperation.start (exampleHandle.session .new)) 19 = exampleSetOneDone := rfl
  exact processRequest_returns rfl rfl rfl hruns hdone (by decide +kernel) (by decide +kernel)

theorem exampleSetOne_keeps :
    letI := JsonAccess.plain
    letI := JsonWriter.compact
    Keeps (exampleWorkerEnv .success) (some exampleHandle) (.new []) exampleSetOne 19 (fun _ => none)
      (storeBehind (fun _ => none) exampleSetOneDone.st.ses.sent) := by
  let := JsonAccess.plain
  let := JsonWriter.compact
  have hruns : Runs exampleHandle exampleWorld (.new []) exampleSetOne exampleSetOneOperation :=
    ⟨.inline, oneInline, rfl, rfl, rfl⟩
  refine Keeps.runs rfl hruns rfl (fun k hset => ?_) ?_
  · cases hset
  · show Sdkd.Serves _ _ exampleSetOneDone.st.ses.sent
    unfold Sdkd.Serves
    decide +kernel

/-- The document is set in an empty cluster. -/
theorem serves_documents_set :
    letI := JsonAccess.plain
    letI := JsonWriter.compact
    letI := exampleSetReader
    ∃ (states : ℕ → Site) (rs : ℕ → List Response) (ops : ℕ → List (Op DocumentId String)),
      (states 1).docs ⟨"default", "_default", "_default", "key1"⟩ = some "a" ∧
      (states 1).docs = run (ops 0) (fun _ => none) ∧
      Exchange (some exampleHandle) (states 1).wd.curHandle (.new []) (fun _ => none)
        (some exampleSetLine.toList) (rs 0) (ops 0) := by
  let := JsonAccess.plain
  let := JsonWriter.compact
  let := exampleSetReader
  have hline : exampleSetLine.toList = '\x7b' :: exampleSetLine.toList.tail := by decide +kernel
  obtain ⟨hinput, io, -, -, hselect⟩ := arrivingTurn_selectLoop exampleWorker waiting_fresh hline
    (by decide +kernel) (by rfl) (exampleWorkerEnv .success) 19
  obtain ⟨wd, md, hcall⟩ := exampleSetOne_returns io
  have hdrained : exampleWorker.Drained := by
    intro h hh
    rw [← Option.some.inj hh]
    rfl
  have hturn : DocumentTurn ⟨exampleWorker, .new [], fun _ => none⟩
      (exampleWorker.inputLine (arrivingTurn exampleSetLine (exampleWorkerEnv .success) 19))
      ⟨wd, .new [], storeBehind (fun _ => none) exampleSetOneDone.st.ses.sent⟩ := by
    refine DocumentTurn.turn (hselect.trans hcall) (fun hnone => ?_) fun l hl => ?_
    · rw [hinput] at hnone
      cases hnone
    · obtain rfl := Option.some.inj (hinput.symm.trans hl)
      rw [String.ofList_toList]
      refine ⟨exampleSetOne_keeps, fun h t ds op _ hds _ _ => .inr (.inl ?_)⟩
      obtain rfl : oneInline = ds := congrArg Prod.snd (Except.ok.inj (Except.ok.inj hds))
      exact ⟨rfl, by decide⟩
  have hbehind : storeBehind (fun _ => none) exampleSetOneDone.st.ses.sent
      ⟨"default", "_default", "_default", "key1"⟩ = some "a" := by decide +kernel
  rw [hinput] at hturn
  obtain ⟨rs, ops, hserved, hexchange⟩ := serves_documents hdrained (isRun_one hturn)
  have hdocs := (hserved 1 le_rfl).2
  rw [List.range_one, List.flatMap_singleton] at hdocs
  exact ⟨fun k => if k = 0 then ⟨exampleWorker, .new [], fun _ => none⟩ else
    ⟨wd, .new [], storeBehind (fun _ => none) exampleSetOneDone.st.ses.sent⟩, rs, ops, hbehind, hdocs,
    hexchange 0 Nat.zero_lt_one⟩

end Examples

end WorkerDispatch

end Sdkd
