import Sdkd.Control
import Sdkd.Operation

/-!
# Workers

`Worker.cpp` and `Collections.cpp`: the connection of a worker, the creation of its handle, and the
requests it serves.

An operation runs beside the control thread. Its run is given by a schedule, which tells before which
of its steps the control thread cancels it, and a number of steps.

## Main definitions

- `WorkerDispatch`, `WorkerEnv`
- `initializeHandle`, `processRequest`

## Main results

- `processRequest_io` — a call that returns writes one response, or none and ends the loop
-/

namespace Sdkd

open LoopProg

/-- What a worker's call of `processRequest` gets from outside. `options` and `doCancel` are what the
uninitialised members of a new handle happen to hold, `certfile` is a file for the certificate;
`opened` and `bucketOpened` are the outcomes of opening the cluster with a connection string, a user
name and a password, and of opening a bucket; `created` are the outcomes of the requests that create
collections. -/
structure WorkerEnv where
  options : HandleOptions
  doCancel : Bool
  certfile : Option String
  opened : String → String → String → ErrorCode
  bucketOpened : String → ErrorCode
  created : ℕ → ErrorCode
  world : World
  sched : ℕ → Bool

/-- A worker; `id` tells it from the others, `sent` is a history variable. -/
structure WorkerDispatch where
  id : ℕ
  io : IOProtoHandler
  curHandle : Option Handle
  curHid : ℕ
  sent : List ClusterRequest

/-- A worker on a new connection. -/
def WorkerDispatch.new (id : ℕ) (script : List RecvResult) : WorkerDispatch :=
  ⟨id, .fresh script, none, 0, []⟩

/-! ## Creating a handle -/

/-- The requests of the nested loops of `generateCollections`. -/
def collectionRequests (bucket : String) (scopes collections : ℕ) : List ClusterRequest :=
  (List.range scopes).flatMap fun i =>
    .createScope bucket (toString i) :: (List.range collections).map fun j =>
      .createCollection bucket (toString i) (toString (i * collections + j))

/-- The loops return at the first request that fails. -/
def sendUntilError (created : ℕ → ErrorCode) (n : ℕ) :
    List ClusterRequest → Bool × List ClusterRequest
  | [] => (true, [])
  | r :: rest =>
    if (created n).isSet then (false, [r])
    else
      let more := sendUntilError created (n + 1) rest
      (more.1, r :: more.2)

/-- `Handle::generateCollections`, on the flag all handles share. -/
def generateCollections (o : HandleOptions) (created : ℕ → ErrorCode) (generated : Bool) :
    Bool × Bool × List ClusterRequest :=
  if o.useCollections ∧ generated = false then
    let out := sendUntilError created 0
      (collectionRequests o.bucket (toInt o.scopes).toNat (toInt o.collections).toNat)
    (out.1, true, out.2)
  else (false, generated, [])

/-- The connection string of `initializeHandle`. -/
def connectionString (o : HandleOptions) : String :=
  if o.useSSL then "couchbases://" ++ o.hostname ++ "?certpath=" ++ o.certpath
  else "couchbase://" ++ o.hostname

namespace WorkerDispatch

section Respond

variable [JsonWriter]

def writeResponse (wd : WorkerDispatch) (res : Response) : WorkerDispatch :=
  { wd with io := wd.io.writeResponse res }

/-- The end of `initializeHandle`: the reply depends on whether `err == 0`. -/
def replyHandle (wd : WorkerDispatch) (req : Request) (err : Error) : WorkerDispatch :=
  if err.isSet then wd.writeResponse (.ofRequest req err)
  else wd.writeResponse (.ofRequest req .success)

end Respond

section Requests

variable [JsonAccess] [JsonWriter]

/-- `initializeHandle`. -/
def initializeHandle (env : WorkerEnv) (wd : WorkerDispatch) (md : MainDispatch) (req : Request) :
    Except Crash (WorkerDispatch × MainDispatch) :=
  match HandleOptions.ofJson env.options env.certfile req.payload with
  | .error e => .error e
  | .ok hOpts =>
    if !hOpts.isValid then
      .ok (wd.replyHandle req (.createInvalid "Problem with handle input"), md)
    else if wd.curHandle.isSome then
      .ok (wd.replyHandle req (.createInvalid "Handle already exists!"), md)
    else
      let opening := md.ensureCluster
        (env.opened (connectionString hOpts) hOpts.username hOpts.password)
        (env.bucketOpened hOpts.bucket)
      let ec := opening.1
      let md := opening.2
      -- only the text of the error is set, not its code
      if ec.isSet then .ok (wd.replyHandle req ⟨0, ec.message⟩, md)
      else
        let wd := { wd with
          curHandle := some ⟨hOpts, req.handleId, env.doCancel, []⟩
          curHid := req.handleId }
        let md := md.registerWDHandle wd.curHid wd.id
        let collections := generateCollections hOpts env.created md.collectionsGenerated
        let wd := { wd with sent := wd.sent ++ collections.2.2 }
        let md := { md with collectionsGenerated := collections.2.1 }
        .ok (wd.replyHandle req .success, md)

/-! ## Serving a request -/

/-- The state of a call after some of its steps. -/
inductive Outcome (α : Type*) where
  | running
  | crashed (e : Crash)
  | returned (a : α)

/-- The dataset of a request: a crash, an error to reply with, or a dataset and its type. -/
def resolveDataset (md : MainDispatch) (req : Request) :
    Except Crash (Except Error (DsType × Dataset)) :=
  let t := Dataset.determineType req
  if t.1 = .invalid then .error .abort
  else if t.1 = .reference then
    match md.getDatasetById t.2 with
    | none => .ok (.error (.of Error.SUBSYSf_SDKD Error.SDKD_ENODS "Couldn't find dataset"))
    | some ds => .ok (.ok (t.1, ds))
  else
    match Dataset.fromType t.1 req with
    | .error e => .error e
    | .ok none => .ok (.error (.of Error.SUBSYSf_SDKD Error.SDKD_EINVAL "Bad dataset parameters"))
    | .ok (some ds) => .ok (.ok (t.1, ds))

/-- The check of continuous seeded datasets. -/
def needsIterWait (t : DsType) (ds : Dataset) (opts : ResultOptions) : Bool :=
  match t, ds.spec with
  | .seeded, .seeded spec => opts.iterwait = 0 && spec.continuous
  | _, _ => false

/-- The reply to an operation that has returned with the result set `rs`. -/
def replyResults (wd : WorkerDispatch) (md : MainDispatch) (req : Request) (rs : ResultSet) :
    Outcome (Bool × WorkerDispatch × MainDispatch) :=
  if rs.operError.isSet then .returned (true, wd.writeResponse (.ofRequest req rs.operError), md)
  else
    match rs.resultsJson md.pFactor with
    | .error e => .crashed e
    | .ok root =>
      .returned (true, wd.writeResponse ((Response.ofRequest req .success).setResponseData root), md)

/-- Run an operation for `n` steps; an operation that has returned is replied to. -/
def runOperation (env : WorkerEnv) (wd : WorkerDispatch) (md : MainDispatch) (req : Request)
    (h : Handle) (op : Operation) (n : ℕ) : Outcome (Bool × WorkerDispatch × MainDispatch) :=
  let c := op.prog.run cancelCurrent env.sched (op.start (h.session .new)) n
  match c.pos with
  | .done =>
    let h := { h with doCancel := c.st.ses.doCancel, pending := c.st.ses.pending }
    replyResults { wd with curHandle := some h } md req c.st.ses.rs
  | .dead e => .crashed e
  | _ => .running

/-- The `switch` and the reply. -/
def serve (env : WorkerEnv) (wd : WorkerDispatch) (md : MainDispatch) (req : Request) (h : Handle)
    (op : Option Operation) (n : ℕ) : Outcome (Bool × WorkerDispatch × MainDispatch) :=
  match op with
  | none =>
    .returned (true, wd.writeResponse (.ofRequest req
      (.of Error.SUBSYSf_SDKD Error.SDKD_ENOIMPL "")), md)
  | some op => wd.runOperation env md req h op n

/-- `processRequest`, with `n` steps for the operation it runs. -/
def processRequest (env : WorkerEnv) (wd : WorkerDispatch) (md : MainDispatch) (req : Request)
    (n : ℕ) : Outcome (Bool × WorkerDispatch × MainDispatch) :=
  if !req.isValid then .returned (false, wd, md)
  else if req.command.code = .closehandle then .returned (false, wd, md)
  else if req.command.code = .newhandle then
    match wd.initializeHandle env md req with
    | .error e => .crashed e
    | .ok (wd, md) => .returned (true, wd, md)
  else
    match wd.curHandle with
    | none =>
      .returned (true, wd.writeResponse (.ofRequest req
        (.of Error.SUBSYSf_SDKD Error.SDKD_ENOHANDLE "No handle created yet")), md)
    | some h =>
      let opts := ResultOptions.ofJson (req.payload.get "Options")
      if req.command.code.needsDs then
        match resolveDataset md req with
        | .error e => .crashed e
        | .ok (.error err) => .returned (true, wd.writeResponse (.ofRequest req err), md)
        | .ok (.ok (t, ds)) =>
          if needsIterWait t ds opts then
            .returned (true, wd.writeResponse (.ofRequest req
              (.createInvalid "Continuous must be used with IterWait")), md)
          else wd.serve env md req h (dsOperation h env.world req ds opts) n
      else wd.serve env md req h (queryOperation h env.world req opts) n

omit [JsonAccess] in
/-- An operation that has returned is replied to. -/
theorem runOperation_of_done {env : WorkerEnv} {wd : WorkerDispatch} {md : MainDispatch}
    {req : Request} {h : Handle} {op : Operation} {n : ℕ}
    {c : Config (OpState op.L) Crash}
    (hc : op.prog.run cancelCurrent env.sched (op.start (h.session .new)) n = c)
    (hpos : c.pos = .done) :
    wd.runOperation env md req h op n =
      replyResults { wd with curHandle := some { h with
        doCancel := c.st.ses.doCancel, pending := c.st.ses.pending } } md req c.st.ses.rs := by
  subst hc
  unfold runOperation
  dsimp only
  rw [hpos]

/-! ## What a call writes -/

variable {env : WorkerEnv} {wd wd' : WorkerDispatch} {md md' : MainDispatch} {req : Request}

omit [JsonAccess] in
theorem replyHandle_io (wd : WorkerDispatch) (req : Request) (err : Error) :
    ∃ res : Response, res.Answers req ∧ (wd.replyHandle req err).io = wd.io.writeResponse res := by
  unfold replyHandle
  split_ifs
  · exact ⟨_, Response.answers_ofRequest _ _, rfl⟩
  · exact ⟨_, Response.answers_ofRequest _ _, rfl⟩

/-- `initializeHandle` replies once, unless the process ends. -/
theorem initializeHandle_io (h : wd.initializeHandle env md req = .ok (wd', md')) :
    ∃ res : Response, res.Answers req ∧ wd'.io = wd.io.writeResponse res := by
  unfold initializeHandle at h
  split at h
  · cases h
  · dsimp only at h
    split_ifs at h <;> obtain ⟨rfl, -⟩ := Prod.mk.inj (Except.ok.inj h)
    all_goals exact replyHandle_io _ req _

omit [JsonAccess] in
theorem replyResults_io {rs : ResultSet} {b : Bool}
    (h : wd.replyResults md req rs = .returned (b, wd', md')) :
    b = true ∧ ∃ res : Response, res.Answers req ∧ wd'.io = wd.io.writeResponse res := by
  unfold replyResults at h
  split_ifs at h
  · cases h
    exact ⟨rfl, _, Response.answers_ofRequest _ _, rfl⟩
  · split at h
    · cases h
    · cases h
      exact ⟨rfl, _, Response.answers_setResponseData _ _ _, rfl⟩

omit [JsonAccess] in
theorem serve_io {hd : Handle} {op : Option Operation} {n : ℕ} {b : Bool}
    (h : wd.serve env md req hd op n = .returned (b, wd', md')) :
    b = true ∧ ∃ res : Response, res.Answers req ∧ wd'.io = wd.io.writeResponse res := by
  unfold serve at h
  cases op with
  | none =>
    cases h
    exact ⟨rfl, _, Response.answers_ofRequest _ _, rfl⟩
  | some op =>
    dsimp only [runOperation] at h
    split at h
    · have hwritten := replyResults_io h
      exact hwritten
    · cases h
    · cases h

/-- A call of `processRequest` that returns has written nothing and ends the loop, or it has written
one response to the request and the loop goes on. -/
theorem processRequest_io {n : ℕ} {b : Bool}
    (h : wd.processRequest env md req n = .returned (b, wd', md')) :
    (b = false ∧ wd'.io = wd.io) ∨
    (b = true ∧ ∃ res : Response, res.Answers req ∧ wd'.io = wd.io.writeResponse res) := by
  have refusal : ∀ err, (.returned (true, wd.writeResponse (.ofRequest req err), md) :
      Outcome (Bool × WorkerDispatch × MainDispatch)) = .returned (b, wd', md') →
      b = true ∧ ∃ res : Response, res.Answers req ∧ wd'.io = wd.io.writeResponse res := by
    intro err herr
    cases herr
    exact ⟨rfl, _, Response.answers_ofRequest _ _, rfl⟩
  unfold processRequest at h
  split_ifs at h
  · cases h
    exact .inl ⟨rfl, rfl⟩
  · cases h
    exact .inl ⟨rfl, rfl⟩
  · split at h
    · cases h
    · next hcall =>
      cases h
      exact .inr ⟨rfl, initializeHandle_io hcall⟩
  · split at h
    · exact .inr (refusal _ h)
    · split at h
      · cases h
      · exact .inr (refusal _ h)
      · dsimp only at h
        split_ifs at h
        · exact .inr (refusal _ h)
        · exact .inr (serve_io h)
  · split at h
    · exact .inr (refusal _ h)
    · exact .inr (serve_io h)

end Requests

end WorkerDispatch

end Sdkd
