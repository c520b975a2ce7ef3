import Sdkd.Worker

/-!
# Replies to NEWHANDLE

When the status `initializeHandle` replies with tells whether a handle has been created.

## Main results

- `initializeHandle_truthful_iff` — exactly unless opening the cluster or the bucket fails
-/

namespace Sdkd

namespace MainDispatch

/-- `ensureCluster` reports no error exactly when the cluster is open or can be opened. -/
theorem ensureCluster_isSet (md : MainDispatch) (opened bucketOpened : ErrorCode) :
    (md.ensureCluster opened bucketOpened).1.isSet = false ↔
      (md.clusterInitialized = false → opened.isSet = false ∧ bucketOpened.isSet = false) := by
  unfold ensureCluster
  cases md.clusterInitialized with
  | true => simp [ErrorCode.isSet, ErrorCode.success]
  | false => cases ho : opened.isSet <;> simp [ho]

theorem ensureCluster_h2wmap (md : MainDispatch) (opened bucketOpened : ErrorCode) :
    (md.ensureCluster opened bucketOpened).2.h2wmap = md.h2wmap := by
  unfold ensureCluster
  split_ifs <;> rfl

end MainDispatch

namespace WorkerDispatch

section Truthful

/-- The call that leads from `wd` and `md` to `wd'` and `md'` created the handle and registered it. -/
structure Created (req : Request) (wd wd' : WorkerDispatch) (md' : MainDispatch) : Prop where
  before : wd.curHandle = none
  after : ∃ h, wd'.curHandle = some h ∧ h.hid = req.handleId
  hid : wd'.curHid = req.handleId
  registered : md'.h2wmap req.handleId = some wd.id

/-- The call left the handle, its id and the registrations alone. -/
structure Untouched (wd wd' : WorkerDispatch) (md md' : MainDispatch) : Prop where
  curHandle : wd'.curHandle = wd.curHandle
  curHid : wd'.curHid = wd.curHid
  h2wmap : md'.h2wmap = md.h2wmap

variable [JsonWriter]

theorem replyHandle_of_isSet {err : Error} (h : err.isSet = true) (wd : WorkerDispatch)
    (req : Request) : wd.replyHandle req err = wd.writeResponse (.ofRequest req err) :=
  if_pos h

theorem replyHandle_of_not_isSet {err : Error} (h : err.isSet = false) (wd : WorkerDispatch)
    (req : Request) : wd.replyHandle req err = wd.writeResponse (.ofRequest req .success) :=
  if_neg (by simp [h])

variable [JsonAccess] {env : WorkerEnv} {wd wd' : WorkerDispatch} {md md' : MainDispatch}
  {req : Request}

/-- The call queues one response, whose status is zero if and only if the handle was created; and if
it was not then the status is an error and nothing has changed. -/
def Truthful (env : WorkerEnv) (wd : WorkerDispatch) (md : MainDispatch) (req : Request) : Prop :=
  ∃ wd' md', wd.initializeHandle env md req = .ok (wd', md') ∧
  ∃ res : Response, wd'.io.queued = wd.io.queued ++ [res] ∧ res.Answers req ∧
    (res.status = 0 ↔ Created req wd wd' md') ∧
    (¬ Created req wd wd' md' → res.status ≠ 0 ∧ Untouched wd wd' md md')

/-- The options do not end the process, and if the call comes to open the cluster then the cluster and
the bucket open. -/
def OpeningSucceeds (env : WorkerEnv) (wd : WorkerDispatch) (md : MainDispatch) (req : Request) :
    Prop :=
  ∃ hOpts, HandleOptions.ofJson env.options env.certfile req.payload = .ok hOpts ∧
    (hOpts.isValid = true → wd.curHandle = none → md.clusterInitialized = false →
      (env.opened (connectionString hOpts) hOpts.username hOpts.password).isSet = false ∧
      (env.bucketOpened hOpts.bucket).isSet = false)

/-- A refusal is truthful. -/
theorem truthful_of_refusal {err : Error} (herr : err.isSet = true)
    (h : wd.initializeHandle env md req = .ok (wd.replyHandle req err, md)) :
    Truthful env wd md req := by
  rw [replyHandle_of_isSet herr] at h
  have hstatus : (Response.ofRequest req err).status ≠ 0 :=
    Response.status_ofRequest_of_isSet herr
  refine ⟨_, _, h, .ofRequest req err, rfl, Response.answers_ofRequest _ _, ?_, ?_⟩
  · refine iff_of_false hstatus fun hcreated => ?_
    obtain ⟨h', hsome, -⟩ := hcreated.after
    cases hcreated.before.symm.trans hsome
  · exact fun _ => ⟨hstatus, rfl, rfl, rfl⟩

/-- A call that finds the options valid, no handle and the cluster open is truthful. -/
theorem truthful_of_opened {hOpts : HandleOptions} (hvalid : req.isValid = true)
    (hopts : HandleOptions.ofJson env.options env.certfile req.payload = .ok hOpts)
    (hOk : hOpts.isValid = true) (hnone : wd.curHandle = none)
    (hopen : (md.ensureCluster
      (env.opened (connectionString hOpts) hOpts.username hOpts.password)
      (env.bucketOpened hOpts.bucket)).1.isSet = false) :
    Truthful env wd md req := by
  unfold Truthful initializeHandle
  simp only [hopts, hOk, hnone, hopen, Bool.not_true, Bool.false_eq_true, if_false,
    Option.isSome_none, Except.ok.injEq, Prod.mk.injEq]
  have hstatus := Response.status_ofRequest_success hvalid Error.isSet_success
  refine ⟨_, _, ⟨rfl, rfl⟩, .ofRequest req .success, rfl, Response.answers_ofRequest _ _,
    iff_of_true hstatus ?_, fun hno => absurd ?_ hno⟩
  all_goals exact ⟨hnone, ⟨_, rfl, rfl⟩, rfl, if_pos rfl⟩

/-- The reply to a failure to open reports success. -/
theorem not_truthful_of_not_opened {hOpts : HandleOptions} (hvalid : req.isValid = true)
    (hopts : HandleOptions.ofJson env.options env.certfile req.payload = .ok hOpts)
    (hOk : hOpts.isValid = true) (hnone : wd.curHandle = none)
    (hopen : (md.ensureCluster
      (env.opened (connectionString hOpts) hOpts.username hOpts.password)
      (env.bucketOpened hOpts.bucket)).1.isSet = true) :
    ¬ Truthful env wd md req := by
  rintro ⟨wd', md', hcall, res, hqueued, -, hiff, -⟩
  simp only [initializeHandle, hopts, hOk, hnone, hopen, Bool.not_true, Bool.false_eq_true, if_false,
    Option.isSome_none, if_true, Except.ok.injEq, Prod.mk.injEq] at hcall
  obtain ⟨rfl, rfl⟩ := hcall
  rw [replyHandle_of_not_isSet rfl] at hqueued hiff
  obtain rfl : .ofRequest req .success = res := by
    simpa [writeResponse] using hqueued
  obtain ⟨h, hsome, -⟩ :=
    (hiff.mp (Response.status_ofRequest_success hvalid Error.isSet_success)).after
  cases hnone.symm.trans hsome

/-- **Replies to NEWHANDLE.** The reply tells whether the handle was created if and only if nothing the
call comes to open fails to. -/
theorem initializeHandle_truthful_iff (hvalid : req.isValid = true) :
    Truthful env wd md req ↔ OpeningSucceeds env wd md req := by
  unfold OpeningSucceeds
  cases hopts : HandleOptions.ofJson env.options env.certfile req.payload with
  | error e => simp [Truthful, initializeHandle, hopts]
  | ok hOpts =>
    simp only [Except.ok.injEq, exists_eq_left']
    by_cases hOk : hOpts.isValid = true
    · by_cases hnone : wd.curHandle = none
      · simp only [hOk, hnone, forall_const]
        rw [← md.ensureCluster_isSet]
        cases hopen : (md.ensureCluster
            (env.opened (connectionString hOpts) hOpts.username hOpts.password)
            (env.bucketOpened hOpts.bucket)).1.isSet with
        | false => exact iff_of_true (truthful_of_opened hvalid hopts hOk hnone hopen) rfl
        | true =>
          exact iff_of_false (not_truthful_of_not_opened hvalid hopts hOk hnone hopen) (by simp)
      · -- there is a handle already
        have hsome : wd.curHandle.isSome = true := Option.isSome_iff_ne_none.mpr hnone
        have hcall : wd.initializeHandle env md req =
            .ok (wd.replyHandle req (.createInvalid "Handle already exists!"), md) := by
          simp [initializeHandle, hopts, hOk, hsome]
        exact iff_of_true (truthful_of_refusal (Error.isSet_createInvalid _) hcall)
          fun _ hcontra => absurd hcontra hnone
    · have hcall : wd.initializeHandle env md req =
          .ok (wd.replyHandle req (.createInvalid "Problem with handle input"), md) := by
        simp [initializeHandle, hopts, hOk]
      exact iff_of_true (truthful_of_refusal (Error.isSet_createInvalid _) hcall)
        fun hcontra => absurd hcontra hOk

end Truthful

section Examples

/-- A NEWHANDLE for the bucket `default` on a host. -/
def exampleNewHandle : Request :=
  ⟨1, 4, ⟨"NEWHANDLE", .newhandle⟩, .object [("Hostname", .string "host"),
    ("Bucket", .string "default"), ("Options", .object [])], .success⟩

/-- Everything opens, except for a bucket whose outcome is `ec`. -/
def exampleWorkerEnv (ec : ErrorCode) : WorkerEnv where
  options := exampleHandle.options
  doCancel := false
  certfile := none
  opened := fun _ _ _ => .success
  bucketOpened := fun _ => ec
  created := fun _ => .success
  world := exampleWorld
  sched := fun _ => false

theorem initializeHandle_truthful_iff_opened :
    letI := JsonAccess.plain
    letI := JsonWriter.compact
    Truthful (exampleWorkerEnv .success) (.new 0 []) (.new []) exampleNewHandle ↔
      OpeningSucceeds (exampleWorkerEnv .success) (.new 0 []) (.new []) exampleNewHandle :=
  letI := JsonAccess.plain
  letI := JsonWriter.compact
  initializeHandle_truthful_iff rfl

/-- The bucket cannot be opened, and the reply reports success. -/
theorem newHandle_untruthful :
    letI := JsonAccess.plain
    letI := JsonWriter.compact
    ¬ Truthful (exampleWorkerEnv ⟨10, "bucket_not_found"⟩) (.new 0 []) (.new []) exampleNewHandle ∧
    ∃ wd' md' res, initializeHandle (exampleWorkerEnv ⟨10, "bucket_not_found"⟩) (.new 0 [])
        (.new []) exampleNewHandle = .ok (wd', md') ∧
      wd'.io.queued = [res] ∧ res.status = 0 ∧ wd'.curHandle = none ∧ md'.h2wmap 4 = none := by
  let := JsonAccess.plain
  let := JsonWriter.compact
  have hopts : HandleOptions.ofJson exampleHandle.options none exampleNewHandle.payload =
      .ok exampleHandle.options := rfl
  exact ⟨not_truthful_of_not_opened rfl hopts rfl rfl rfl, _, _, _, rfl, rfl, rfl, rfl, rfl⟩

end Examples

end WorkerDispatch

end Sdkd
