import Sdkd.ProcessRequest

/-!
# The checks in front of the operations

What `processRequest` looks at before it runs an operation on a dataset: the type the request names, and
whether a seeded dataset is continuous. It looks neither at the error a dataset's constructor has
recorded nor at continuous datasets of the other types.

## Main results

- `processRequest_bounded_iff` — when a continuous dataset is used with IterWait or refused
- `processRequest_invalid_iff` — when an invalid dataset is refused
-/

namespace Sdkd

/-- The commands that run one of the four operations on datasets. -/
def Code.isDsOperation : Code → Bool
  | .mcDsDelete | .mcDsTouch | .mcDsMutateAdd | .mcDsMutateReplace | .mcDsMutateAppend
  | .mcDsMutatePrepend | .mcDsMutateSet | .mcDsGet | .mcDsSdRun => true
  | _ => false

theorem Code.needsDs_of_isDsOperation {c : Code} (h : c.isDsOperation = true) :
    c.needsDs = true ∧ c ≠ .closehandle ∧ c ≠ .newhandle ∧ c.isWorkerCommand = true := by
  cases c <;> simp_all [isDsOperation, needsDs, isWorkerCommand]

namespace WorkerDispatch

section Checks

variable [JsonAccess] [JsonWriter] {env : WorkerEnv} {wd : WorkerDispatch} {md : MainDispatch}
  {req : Request} {t : DsType} {ds : Dataset}

/-- The operations on datasets are those of the worker's commands that need one. -/
theorem dsOperation_isSome_iff (h : Handle) (w : World) (ds : Dataset) (opts : ResultOptions)
    (hneeds : req.command.code.needsDs = true) (hclose : req.command.code ≠ .closehandle)
    (hnew : req.command.code ≠ .newhandle) :
    (∃ op, dsOperation h w req ds opts = some op) ↔ req.command.code.isWorkerCommand = true := by
  unfold dsOperation
  cases hcode : req.command.code <;> simp_all [Code.needsDs, Code.isWorkerCommand]

omit [JsonWriter] in
/-- Only a seeded dataset has the type of one. -/
theorem seeded_of_resolveDataset (h : resolveDataset md req = .ok (.ok (.seeded, ds))) :
    ∃ spec, ds.spec = .seeded spec := by
  unfold resolveDataset at h
  dsimp only at h
  split_ifs at h with hinv href
  · split at h
    · cases h
    · injection h with h
      injection h with h
      rw [(Prod.mk.inj h).1] at href
      cases href
  · split at h
    · cases h
    · cases h
    · next ds' hds =>
      injection h with h
      injection h with h
      obtain ⟨ht, rfl⟩ := Prod.mk.inj h
      rw [ht] at hds
      unfold Dataset.fromType at hds
      split_ifs at hds
      injection hds with hds
      injection hds with hds
      exact ⟨_, by rw [← hds]; rfl⟩

/-- The call does nothing but reply with the error `err`, whatever the operation of its command would
do. -/
def Refused (env : WorkerEnv) (wd : WorkerDispatch) (md : MainDispatch) (req : Request)
    (err : Error) : Prop :=
  ∀ n, wd.processRequest env md req n = .returned (true, wd.writeResponse (.ofRequest req err), md)

/-- Behind the choice of a dataset comes one check, and then the operation. -/
theorem processRequest_of_resolveDataset (env : WorkerEnv) (hvalid : req.isValid = true)
    (hneeds : req.command.code.needsDs = true) (hclose : req.command.code ≠ .closehandle)
    (hnew : req.command.code ≠ .newhandle) {h : Handle} (hh : wd.curHandle = some h)
    (hds : resolveDataset md req = .ok (.ok (t, ds))) (n : ℕ) :
    wd.processRequest env md req n =
      if needsIterWait t ds (.ofJson (req.payload.get "Options")) then
        .returned (true, wd.writeResponse (.ofRequest req
          (.createInvalid "Continuous must be used with IterWait")), md)
      else wd.serve env md req h
        (dsOperation h env.world req ds (.ofJson (req.payload.get "Options"))) n := by
  simp [processRequest, hvalid, hneeds, hclose, hnew, hh, hds]

/-- An operation is no refusal: it has not returned before its first step. -/
theorem not_refused_of_serve (h : Handle) (op : Operation) {err : Error}
    (hprocess : ∀ n, wd.processRequest env md req n = wd.serve env md req h (some op) n) :
    ¬ Refused env wd md req err := by
  intro hrefused
  have hzero := (hprocess 0).symm.trans (hrefused 0)
  cases hzero

/-! ## Continuous datasets -/

/-- An operation on a continuous dataset runs with IterWait, or it is refused with SDKD_EINVAL before
anything is submitted. -/
def BoundedInFlight (env : WorkerEnv) (wd : WorkerDispatch) (md : MainDispatch) (req : Request) :
    Prop :=
  ∀ h t ds, wd.curHandle = some h → resolveDataset md req = .ok (.ok (t, ds)) →
    (Dataset.continuousCount ds.spec).isSome = true →
    0 < (ResultOptions.ofJson (req.payload.get "Options")).iterwait ∨
    ∃ err, err.code = Error.SUBSYSf_SDKD ||| Error.SDKD_EINVAL ∧ Refused env wd md req err

/-- **Continuous datasets.** The law holds if and only if every continuous dataset used without IterWait
is one that the request itself describes as a seeded one. -/
theorem processRequest_bounded_iff (hvalid : req.isValid = true)
    (hop : req.command.code.isDsOperation = true) :
    BoundedInFlight env wd md req ↔
      ∀ h t ds, wd.curHandle = some h → resolveDataset md req = .ok (.ok (t, ds)) →
        (Dataset.continuousCount ds.spec).isSome = true →
        0 < (ResultOptions.ofJson (req.payload.get "Options")).iterwait ∨ t = .seeded := by
  obtain ⟨hneeds, hclose, hnew, hcmd⟩ := Code.needsDs_of_isDsOperation hop
  refine forall₃_congr fun h t ds => forall₃_congr fun hh hds hcont =>
    or_congr_right' fun hwait => ?_
  have hprocess := processRequest_of_resolveDataset env hvalid hneeds hclose hnew hh hds
  constructor
  · rintro ⟨err, -, hrefused⟩
    by_contra ht
    obtain ⟨op, hsome⟩ := (dsOperation_isSome_iff h env.world ds
      (.ofJson (req.payload.get "Options")) hneeds hclose hnew).mpr hcmd
    refine not_refused_of_serve h op (fun n => ?_) hrefused
    have hpasses : needsIterWait t ds (.ofJson (req.payload.get "Options")) = false := by
      -- `needsIterWait` looks at inline seeded datasets only, not at references to them
      unfold needsIterWait
      split
      · exact absurd rfl ht
      · rfl
    rw [hprocess, hpasses, hsome]
    rfl
  · rintro rfl
    obtain ⟨spec, hspec⟩ := seeded_of_resolveDataset hds
    have hstops : needsIterWait .seeded ds (.ofJson (req.payload.get "Options")) = true := by
      simp only [hspec, Dataset.continuousCount] at hcont
      simp [needsIterWait, hspec, Nat.eq_zero_of_not_pos hwait, show spec.continuous = true by
        by_contra hno
        simp [hno] at hcont]
    refine ⟨.createInvalid "Continuous must be used with IterWait", rfl, fun n => ?_⟩
    rw [hprocess, hstops, if_pos rfl]

/-! ## Invalid datasets -/

/-- The request itself describes the dataset `ds` of type `t`. -/
structure Embeds (req : Request) (t : DsType) (ds : Dataset) : Prop where
  type : (Dataset.determineType req).1 = t
  embedded : t ≠ .invalid ∧ t ≠ .reference
  constructed : Dataset.fromType t req = .ok (some ds)

omit [JsonWriter] in
theorem Embeds.resolveDataset (h : Embeds req t ds) (md : MainDispatch) :
    resolveDataset md req = .ok (.ok (t, ds)) := by
  simp [WorkerDispatch.resolveDataset, h.type, h.embedded, h.constructed]

/-- A dataset that is not valid is answered with an error, and no operation runs on it. -/
def InvalidRefused (env : WorkerEnv) (wd : WorkerDispatch) (md : MainDispatch) (req : Request)
    (ds : Dataset) : Prop :=
  ds.isValid = false →
    ∃ err, (Response.ofRequest req err).status ≠ 0 ∧ Refused env wd md req err

/-- **Invalid datasets.** A dataset the request describes is refused for being invalid if and only if
something else refuses the request: the check of continuous datasets, a missing handle, or a command with
no arm. -/
theorem processRequest_invalid_iff (hvalid : req.isValid = true)
    (hneeds : req.command.code.needsDs = true) (hclose : req.command.code ≠ .closehandle)
    (hnew : req.command.code ≠ .newhandle) (hds : Embeds req t ds) :
    InvalidRefused env wd md req ds ↔ (ds.isValid = false →
      wd.curHandle = none ∨ needsIterWait t ds (.ofJson (req.payload.get "Options")) = true ∨
      req.command.code.isWorkerCommand = false) := by
  refine forall_congr' fun _ => ?_
  cases hh : wd.curHandle with
  | none =>
    -- refused for want of a handle, before the dataset is looked at
    refine iff_of_true ⟨.of Error.SUBSYSf_SDKD Error.SDKD_ENOHANDLE "No handle created yet",
      Response.status_ofRequest_of_isSet rfl, fun n => ?_⟩ (.inl rfl)
    simp [processRequest, hvalid, hclose, hnew, hh]
  | some h =>
    have hprocess := processRequest_of_resolveDataset env hvalid hneeds hclose hnew hh
      (hds.resolveDataset md)
    cases hwait : needsIterWait t ds (.ofJson (req.payload.get "Options")) with
    | true =>
      -- the only look at the dataset, and it is not one at its validity
      refine iff_of_true ⟨.createInvalid "Continuous must be used with IterWait",
        Response.status_ofRequest_of_isSet rfl, fun n => ?_⟩ (by simp)
      rw [hprocess, hwait, if_pos rfl]
    | false =>
      cases hcmd : req.command.code.isWorkerCommand with
      | false =>
        have hnone : dsOperation h env.world req ds (.ofJson (req.payload.get "Options")) = none := by
          by_contra hsome
          have hop := (dsOperation_isSome_iff h env.world ds _ hneeds hclose hnew).mp
            (Option.ne_none_iff_exists'.mp hsome)
          rw [hcmd] at hop
          cases hop
        refine iff_of_true ⟨.of Error.SUBSYSf_SDKD Error.SDKD_ENOIMPL "",
          Response.status_ofRequest_of_isSet rfl, fun n => ?_⟩ (by simp)
        rw [hprocess, hwait, hnone]
        rfl
      | true =>
        -- nothing else refuses: the operation runs on the invalid dataset
        obtain ⟨op, hsome⟩ := (dsOperation_isSome_iff h env.world ds
          (.ofJson (req.payload.get "Options")) hneeds hclose hnew).mpr hcmd
        refine iff_of_false ?_ (by simp)
        rintro ⟨err, -, hrefused⟩
        refine not_refused_of_serve h op (fun n => ?_) hrefused
        rw [hprocess, hwait, hsome]
        rfl

end Checks

section Examples

/-- A get over a dataset of a type. -/
def exampleDsGet (type : String) (ds : Json) : Request :=
  ⟨1, 1, ⟨"MC_DS_GET", .mcDsGet⟩, .object [("DSType", .string type), ("DS", ds)], .success⟩

/-- A continuous subdocument dataset. -/
def exampleContinuous : Request :=
  exampleDsGet "DSTYPE_SD" (.object [("Count", .uint 1), ("Continuous", .bool true)])

/-- A seeded dataset without items. -/
def exampleUncounted : Request :=
  exampleDsGet "DSTYPE_SEEDED" (.object [("Count", .uint 0), ("KSize", .uint 1), ("VSize", .uint 1),
    ("KSeed", .string "key"), ("VSeed", .string "value")])

theorem processRequest_bounded_iff_sd :
    letI := JsonAccess.plain
    letI := JsonWriter.compact
    BoundedInFlight (exampleWorkerEnv .success) exampleWorker (.new []) exampleContinuous ↔
      ∀ h t ds, exampleWorker.curHandle = some h →
        resolveDataset (.new []) exampleContinuous = .ok (.ok (t, ds)) →
        (Dataset.continuousCount ds.spec).isSome = true →
        0 < (ResultOptions.ofJson (exampleContinuous.payload.get "Options")).iterwait ∨
          t = .seeded :=
  letI := JsonAccess.plain
  letI := JsonWriter.compact
  processRequest_bounded_iff rfl rfl

/-- A get over it without IterWait is not refused. -/
theorem continuous_not_bounded :
    letI := JsonAccess.plain
    letI := JsonWriter.compact
    ¬ BoundedInFlight (exampleWorkerEnv .success) exampleWorker (.new []) exampleContinuous := by
  let := JsonAccess.plain
  let := JsonWriter.compact
  intro hbounded
  have hds : resolveDataset (.new []) exampleContinuous =
      .ok (.ok (.sd, Dataset.sdOfJson (exampleContinuous.payload.get "DS") false)) := rfl
  rcases hbounded exampleHandle _ _ rfl hds rfl with hwait | ⟨err, -, hrefused⟩
  · exact absurd hwait (by decide)
  · cases hrefused 0

theorem processRequest_invalid_iff_seeded :
    letI := JsonAccess.plain
    letI := JsonWriter.compact
    InvalidRefused (exampleWorkerEnv .success) exampleWorker (.new []) exampleUncounted
        (Dataset.seededOfJson (exampleUncounted.payload.get "DS")) ↔
      ((Dataset.seededOfJson (exampleUncounted.payload.get "DS")).isValid = false →
        exampleWorker.curHandle = none ∨
        needsIterWait .seeded (Dataset.seededOfJson (exampleUncounted.payload.get "DS"))
          (.ofJson (exampleUncounted.payload.get "Options")) = true ∨
        exampleUncounted.command.code.isWorkerCommand = false) :=
  letI := JsonAccess.plain
  letI := JsonWriter.compact
  processRequest_invalid_iff rfl rfl (by decide) (by decide) ⟨rfl, ⟨by decide, by decide⟩, rfl⟩

/-- A get over no items is not refused: it runs, and its reply has the status zero. -/
theorem invalid_not_refused :
    letI := JsonAccess.plain
    letI := JsonWriter.compact
    ¬ InvalidRefused (exampleWorkerEnv .success) exampleWorker (.new []) exampleUncounted
        (Dataset.seededOfJson (exampleUncounted.payload.get "DS")) ∧
    ∃ n wd' md' res, processRequest (exampleWorkerEnv .success) exampleWorker (.new [])
        exampleUncounted n = .returned (true, wd', md') ∧
      wd'.io.queued = [res] ∧ res.status = 0 := by
  let := JsonAccess.plain
  let := JsonWriter.compact
  refine ⟨fun hinvalid => ?_, 6, _, _, _, rfl, rfl, rfl⟩
  obtain ⟨err, -, hrefused⟩ := hinvalid rfl
  cases hrefused 0

end Examples

end WorkerDispatch

end Sdkd
