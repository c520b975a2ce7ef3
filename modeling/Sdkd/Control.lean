import Sdkd.Dataset
import Sdkd.IODispatch
import Sdkd.ResultSet
import Sdkd.UploadLogs

/-!
# The control connection

`Control.cpp`: the shared state of the daemon and the commands of the control connection.

## Main definitions

- `MainDispatch` — datasets, registered workers, and what the control commands change
- `createNewDs`, `dispatchCommand`

## Main results

- `createNewDs_eq` — NEWDATASET never comes to the insertion
- `dispatchCommand_cases`, `dispatched` — what a command can change
-/

namespace Sdkd

/-- What the control commands get from outside: the options of the daemon, the clock, the samples of
the usage collector, and the line that a command of the shell prints. -/
structure ControlEnv where
  noPersist : ℤ
  lcblogFile : String
  now : ℕ
  usage : Json
  uploaded : List Char → String

/-- The state of the control dispatcher. Missing and null entries of its two maps are one: every access
goes through an operator that makes a null entry of a missing one. `coll` is the number of the usage collector
its pointer is on. `cancelled` and `collectors` are history variables: the workers whose current handle has
been cancelled, and for each usage collector that was started whether its thread is running. -/
structure MainDispatch where
  io : IOProtoHandler
  dsmap : String → Option Dataset
  h2wmap : ℕ → Option ℕ
  isCollectingStats : Bool
  coll : Option ℕ
  pFactor : ℤ
  ttl : ℕ
  clusterInitialized : Bool
  collectionsGenerated : Bool
  cancelled : List ℕ
  collectors : List Bool

namespace MainDispatch

def new (script : List RecvResult) : MainDispatch where
  io := .fresh script
  dsmap := fun _ => none
  h2wmap := fun _ => none
  isCollectingStats := false
  coll := none
  pFactor := 95
  ttl := 0
  clusterInitialized := false
  collectionsGenerated := false
  cancelled := []
  collectors := []

/-- `registerWDHandle`. -/
def registerWDHandle (md : MainDispatch) (id d : ℕ) : MainDispatch :=
  { md with h2wmap := fun h => if h = id then some d else md.h2wmap h }

/-- `unregisterWDHandle`. -/
def unregisterWDHandle (md : MainDispatch) (id : ℕ) : MainDispatch :=
  { md with h2wmap := fun h => if h = id then none else md.h2wmap h }

/-- `ensureCluster`; `opened` and `bucketOpened` are the outcomes of opening the cluster and the
bucket. -/
def ensureCluster (md : MainDispatch) (opened bucketOpened : ErrorCode) :
    ErrorCode × MainDispatch :=
  if md.clusterInitialized then (.success, md)
  else
    let ec := if opened.isSet then opened else bucketOpened
    (ec, { md with clusterInitialized := !ec.isSet })

/-- A new `UsageCollector` is started and takes the pointer. -/
def startCollector (md : MainDispatch) : MainDispatch :=
  { md with
    coll := some md.collectors.length
    collectors := md.collectors ++ [true]
    isCollectingStats := true }

/-- `StopCollector` on the collector of the pointer. -/
def stopCollector (md : MainDispatch) : MainDispatch :=
  { md with collectors := md.coll.elim md.collectors fun i => md.collectors.set i false }

@[simp] theorem startCollector_io (md : MainDispatch) : md.startCollector.io = md.io := rfl

def getDatasetById (md : MainDispatch) (dsid : String) : Option Dataset := md.dsmap dsid

section Commands

variable [JsonWriter]

def writeResponse (md : MainDispatch) (res : Response) : MainDispatch :=
  { md with io := md.io.writeResponse res }

@[simp] theorem writeResponse_queued (md : MainDispatch) (res : Response) :
    (md.writeResponse res).io.queued = md.io.queued ++ [res] := rfl

/-- An error response. -/
def refuse (md : MainDispatch) (req : Request) (minor : ℕ) (errstr : String) : MainDispatch :=
  md.writeResponse (.ofRequest req (.of Error.SUBSYSf_SDKD minor errstr))

variable [JsonAccess]

/-- `create_new_ds`. -/
def createNewDs (md : MainDispatch) (req : Request) : Except Crash MainDispatch :=
  let t := Dataset.determineType req
  -- the branch of an invalid dataset does not return
  let md := if t.1 = .invalid then md.refuse req Error.SDKD_EINVAL "Invalid Dataset" else md
  match Dataset.fromType t.1 req with
  | .error e => .error e
  | .ok none => .ok (md.refuse req Error.SDKD_EINVAL "NEWDATASET must have an ID")
  | .ok (some ds) =>
    if ds.isValid ∧ t.2 ≠ "" then
      match md.dsmap t.2 with
      | some _ => .ok (md.refuse req Error.SDKD_ENODS "Dataset already exists with this ID")
      | none => .ok { md with dsmap := fun id => if id = t.2 then some ds else md.dsmap id }
    else .ok (md.refuse req Error.SDKD_EINVAL "NEWDATASET must have an ID")

/-- `VersionInfoJson`. -/
def versionInfoJson (env : ControlEnv) : Json :=
  let caps := ((((Json.null.set "CANCEL" (.bool true)).set "DS_SHARED" (.bool true)).set
    "CONTINUOUS" (.bool true)).set "PREAMBLE" (.bool false)).set "VIEWS" (.bool true)
  let hdrComponents := (Json.null.set "SDKVersion" (.string "")).set "CHANGESET" (.string "")
  ((((((Json.null.set "CAPS" caps).set "RUNTIME" (Json.null.set "SDKVersion" (.string ""))).set
    "HEADERS" hdrComponents).set "CONFIG" (Json.null.set "RECONNECT"
      (.int env.noPersist))).set "TIME" (.uint env.now)).set
    "SDK" (.string "cxx")).set "CHANGESET" (.string "")

/-- `dispatchCommand`: whether the loop goes on, and the new state. -/
def dispatchCommand (env : ControlEnv) (md : MainDispatch) (req : Request) :
    Except Crash (Bool × MainDispatch) :=
  match req.command.code with
  | .newdataset =>
    match md.createNewDs req with
    | .ok md => .ok (true, md)
    | .error e => .error e
  | .goodbye =>
    if md.isCollectingStats then
      .ok (false, md.stopCollector.writeResponse
        ((Response.ofRequest req .success).setResponseData env.usage))
    else .ok (false, md)
  | .cancel =>
    match md.h2wmap req.handleId with
    | none => .ok (true, md.refuse req Error.SDKD_ENOHANDLE "")
    | some w =>
      .ok (true, { md with cancelled := md.cancelled ++ [w] }.writeResponse (.ofRequest req .success))
  | .info =>
    let md := { md with pFactor := asInt (req.payload.get "PercentileFactor") }
    let md := md.writeResponse
      ((Response.ofRequest req .success).setResponseData (versionInfoJson env))
    .ok (true, md.startCollector)
  | .ttl =>
    if req.payload.isMember "Seconds" then
      let seconds := asInt (req.payload.get "Seconds")
      .ok (true, { md with ttl := seconds.toNat }.writeResponse (.ofRequest req .success))
    else .ok (true, md.writeResponse (.ofRequest req (.createInvalid "Missing Seconds")))
  | .getusage => .ok (true, md.startCollector)
  | .uploadlogs =>
    match uploadLogs req.payload env.lcblogFile with
    | .error e => .error e
    | .ok command =>
      .ok (true, md.writeResponse ((Response.ofRequest req .success).setResponseData
        (Json.null.set "url" (.string (env.uploaded command)))))
  | _ => .ok (true, md.refuse req Error.SDKD_ENOIMPL "")

/-- No NEWDATASET comes to the insertion: only a reference has an ID, and a reference is no dataset. -/
theorem createNewDs_eq (md : MainDispatch) (req : Request) :
    md.createNewDs req =
      match Dataset.fromType (Dataset.determineType req).1 req with
      | .error e => .error e
      | .ok _ => .ok ((if (Dataset.determineType req).1 = .invalid then
          md.refuse req Error.SDKD_EINVAL "Invalid Dataset" else md).refuse req Error.SDKD_EINVAL
            "NEWDATASET must have an ID") := by
  unfold createNewDs
  dsimp only
  split
  · next e he => rw [he]
  · next hnone => rw [hnone]
  · next ds hds =>
    have hid : (Dataset.determineType req).2 = "" := by
      by_contra hne
      rw [Dataset.determineType_id hne, Dataset.fromType_reference] at hds
      cases hds
    rw [if_neg (by simp [hid]), hds]

/-- So a NEWDATASET writes some responses, and that is all. -/
theorem createNewDs_replies {md md' : MainDispatch} {req : Request} (h : md.createNewDs req = .ok md') :
    ∃ replies : List Response, md' = { md with io := replies.foldl IOProtoHandler.writeResponse md.io } := by
  rw [createNewDs_eq] at h
  split at h
  · cases h
  · cases h
    by_cases hinvalid : (Dataset.determineType req).1 = .invalid
    · rw [if_pos hinvalid]
      exact ⟨[_, _], rfl⟩
    · rw [if_neg hinvalid]
      exact ⟨[_], rfl⟩

/-- What a command does: it writes some responses and sets some of these fields. A GOODBYE stops the
collector if there is one, INFO and GETUSAGE start one. -/
theorem dispatchCommand_cases {env : ControlEnv} {md md' : MainDispatch} {req : Request} {b : Bool}
    (h : dispatchCommand env md req = .ok (b, md')) :
    ∃ (replies : List Response) (pFactor : ℤ) (ttl : ℕ) (cancelled : List ℕ),
      let out : MainDispatch := { md with
        io := replies.foldl IOProtoHandler.writeResponse md.io
        pFactor := pFactor, ttl := ttl, cancelled := cancelled }
      (req.command.code = .goodbye ∧ b = false ∧
        md' = if md.isCollectingStats then out.stopCollector else out) ∨
      (req.command.code ≠ .goodbye ∧ b = true ∧
        md' = if req.command.code = .info ∨ req.command.code = .getusage then out.startCollector
          else out) := by
  unfold dispatchCommand at h
  cases hcode : req.command.code with
  | goodbye =>
    rw [hcode] at h
    dsimp only at h
    split_ifs at h with hstats
    · cases h
      exact ⟨[_], md.pFactor, md.ttl, md.cancelled, .inl ⟨rfl, rfl, (if_pos hstats).symm⟩⟩
    · cases h
      exact ⟨[], md.pFactor, md.ttl, md.cancelled, .inl ⟨rfl, rfl, (if_neg hstats).symm⟩⟩
  | newdataset =>
    rw [hcode] at h
    dsimp only at h
    split at h
    · next hnew =>
      cases h
      obtain ⟨replies, rfl⟩ := createNewDs_replies hnew
      exact ⟨replies, md.pFactor, md.ttl, md.cancelled, .inr ⟨by simp, rfl, rfl⟩⟩
    · cases h
  | cancel =>
    rw [hcode] at h
    dsimp only at h
    split at h <;> cases h
    · exact ⟨[_], md.pFactor, md.ttl, md.cancelled, .inr ⟨by simp, rfl, rfl⟩⟩
    · exact ⟨[_], md.pFactor, md.ttl, _, .inr ⟨by simp, rfl, rfl⟩⟩
  | ttl =>
    rw [hcode] at h
    dsimp only at h
    split_ifs at h <;> cases h
    · exact ⟨[_], md.pFactor, _, md.cancelled, .inr ⟨by simp, rfl, rfl⟩⟩
    · exact ⟨[_], md.pFactor, md.ttl, md.cancelled, .inr ⟨by simp, rfl, rfl⟩⟩
  | info =>
    rw [hcode] at h
    cases h
    exact ⟨[_], _, md.ttl, md.cancelled, .inr ⟨by simp, rfl, rfl⟩⟩
  | getusage =>
    rw [hcode] at h
    cases h
    exact ⟨[], md.pFactor, md.ttl, md.cancelled, .inr ⟨by simp, rfl, rfl⟩⟩
  | uploadlogs =>
    rw [hcode] at h
    dsimp only at h
    split at h <;> cases h
    exact ⟨[_], md.pFactor, md.ttl, md.cancelled, .inr ⟨by simp, rfl, rfl⟩⟩
  | _ =>
    rw [hcode] at h
    cases h
    exact ⟨[_], md.pFactor, md.ttl, md.cancelled, .inr ⟨by simp, rfl, rfl⟩⟩

/-- What a command can change: it writes some responses and leaves the datasets and the registrations
alone. -/
structure Dispatched (md md' : MainDispatch) : Prop where
  io : ∃ replies : List Response, md'.io = replies.foldl IOProtoHandler.writeResponse md.io
  dsmap : md'.dsmap = md.dsmap
  h2wmap : md'.h2wmap = md.h2wmap

theorem dispatched {env : ControlEnv} {md md' : MainDispatch} {req : Request} {b : Bool}
    (h : dispatchCommand env md req = .ok (b, md')) : Dispatched md md' := by
  obtain ⟨replies, pFactor, ttl, cancelled, ⟨-, -, rfl⟩ | ⟨-, -, rfl⟩⟩ := dispatchCommand_cases h
  · split_ifs <;> exact ⟨⟨replies, rfl⟩, rfl, rfl⟩
  · split_ifs <;> exact ⟨⟨replies, rfl⟩, rfl, rfl⟩

end Commands

end MainDispatch

end Sdkd
