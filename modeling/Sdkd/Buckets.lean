import Sdkd.NewHandle

/-!
# Opening the cluster and its buckets

The calls of `open` and `open_bucket` a sequence of NEWHANDLE requests leads to. One flag stands for the
cluster and for every bucket: it is raised with the first bucket, and nothing is opened after that.

## Main definitions

- `OpenRequest`, `OpenEvent` — what `ensureCluster` is called with, and what it does
- `newHandles` — a run of NEWHANDLE requests of any workers, with its events
- `BucketsAvailable` — what is reported as open has been opened, the cluster once

## Main results

- `newHandles_available_iff` — exactly if nothing is asked for behind the first opening of the cluster
  but its own bucket
-/

namespace Sdkd

/-- `couchbase::origin`. -/
structure Origin where
  connstr : String
  username : String
  password : String
  deriving DecidableEq

/-- The arguments of a call of `ensureCluster`, and the outcomes of opening the cluster and the bucket
if the call comes to that. -/
structure OpenRequest where
  origin : Origin
  bucket : String
  opened : ErrorCode
  bucketOpened : ErrorCode

/-- A call of `cluster->open`, a call of `cluster->open_bucket`, and a return of `ensureCluster`. -/
inductive OpenEvent where
  | opened (origin : Origin) (ec : ErrorCode)
  | bucketOpened (bucket : String) (ec : ErrorCode)
  | ensured (origin : Origin) (bucket : String) (ec : ErrorCode)

/-- A call of `cluster->open`. -/
def OpenEvent.isOpen : OpenEvent → Bool
  | .opened _ _ => true
  | _ => false

def OpenEvent.failed : OpenEvent → Bool
  | .opened _ ec | .bucketOpened _ ec | .ensured _ _ ec => ec.isSet

/-- The events of a call of `ensureCluster`. -/
def MainDispatch.ensureEvents (md : MainDispatch) (r : OpenRequest) : List OpenEvent :=
  let openings : List OpenEvent :=
    if md.clusterInitialized then []
    else if r.opened.isSet then [.opened r.origin r.opened]
    else [.opened r.origin r.opened, .bucketOpened r.bucket r.bucketOpened]
  openings ++ [.ensured r.origin r.bucket (md.ensureCluster r.opened r.bucketOpened).1]

/-- A NEWHANDLE request, with the worker that serves it and what the call gets from outside. -/
structure NewHandle where
  env : WorkerEnv
  wd : WorkerDispatch
  req : Request

section Runs

variable [JsonAccess]

/-- What `initializeHandle` calls `ensureCluster` with, if it comes to that. -/
def NewHandle.openRequest (c : NewHandle) : Option OpenRequest :=
  match HandleOptions.ofJson c.env.options c.env.certfile c.req.payload with
  | .error _ => none
  | .ok hOpts =>
    if hOpts.isValid ∧ c.wd.curHandle.isNone then
      some {
        origin := ⟨connectionString hOpts, hOpts.username, hOpts.password⟩
        bucket := hOpts.bucket
        opened := c.env.opened (connectionString hOpts) hOpts.username hOpts.password
        bucketOpened := c.env.bucketOpened hOpts.bucket }
    else none

variable [JsonWriter]

/-- A run of NEWHANDLE requests: the state it ends in and its events. -/
def newHandles (md : MainDispatch) : List NewHandle → Except Crash (MainDispatch × List OpenEvent)
  | [] => .ok (md, [])
  | c :: cs =>
    match c.wd.initializeHandle c.env md c.req with
    | .error e => .error e
    | .ok (_, md') =>
      match newHandles md' cs with
      | .error e => .error e
      | .ok (last, events) => .ok (last, (c.openRequest.elim [] md.ensureEvents) ++ events)

end Runs

/-- Whenever `ensureCluster` has returned without an error, the cluster had been opened with its origin
and its bucket had been opened; and the cluster is not opened again once it has been. -/
structure BucketsAvailable (events : List OpenEvent) : Prop where
  available : ∀ before after origin bucket ec,
    events = before ++ .ensured origin bucket ec :: after → ec.isSet = false →
    (∃ ec', .opened origin ec' ∈ before ∧ ec'.isSet = false) ∧
    (∃ ec', .bucketOpened bucket ec' ∈ before ∧ ec'.isSet = false)
  once : events.Pairwise fun e e' => e.isOpen = true → e.failed = false → e'.isOpen = false

/-- If a call of `ensureCluster` comes behind the first one whose `open` succeeds, then that one's
`open_bucket` has succeeded too, and both have the same origin and the same bucket. -/
def OneBucket (rs : List OpenRequest) : Prop :=
  ∀ before r after, rs = before ++ r :: after → (∀ r' ∈ before, r'.opened.isSet = true) →
    r.opened.isSet = false → ∀ r' ∈ after,
      r.bucketOpened.isSet = false ∧ r'.origin = r.origin ∧ r'.bucket = r.bucket

/-! ## The events of the calls of `ensureCluster` -/

/-- The events of successive calls; `initialized` tells whether the flag is up. -/
def openEvents (initialized : Bool) : List OpenRequest → List OpenEvent
  | [] => []
  | r :: rs =>
    if initialized then .ensured r.origin r.bucket .success :: openEvents true rs
    else if r.opened.isSet then
      .opened r.origin r.opened :: .ensured r.origin r.bucket r.opened :: openEvents false rs
    else .opened r.origin r.opened :: .bucketOpened r.bucket r.bucketOpened ::
      .ensured r.origin r.bucket r.bucketOpened :: openEvents (!r.bucketOpened.isSet) rs

theorem openEvents_initialized (rs : List OpenRequest) :
    openEvents true rs = rs.map fun r => .ensured r.origin r.bucket .success := by
  induction rs with
  | nil => rfl
  | cons r rs ih => rw [openEvents, if_pos rfl, ih, List.map_cons]

section Runs

variable [JsonAccess] [JsonWriter]

/-- What a NEWHANDLE request does to the flag. -/
theorem initializeHandle_initialized {c : NewHandle} {md md' : MainDispatch} {wd' : WorkerDispatch}
    (h : c.wd.initializeHandle c.env md c.req = .ok (wd', md')) :
    md'.clusterInitialized = c.openRequest.elim md.clusterInitialized fun r =>
      (md.ensureCluster r.opened r.bucketOpened).2.clusterInitialized := by
  unfold WorkerDispatch.initializeHandle at h
  unfold NewHandle.openRequest
  cases hopts : HandleOptions.ofJson c.env.options c.env.certfile c.req.payload with
  | error e => simp [hopts] at h
  | ok hOpts =>
    simp only [hopts] at h
    cases hvalid : hOpts.isValid with
    | false =>
      simp only [hvalid, Bool.not_false, if_true, Except.ok.injEq, Prod.mk.injEq] at h
      simp [hvalid, ← h.2]
    | true =>
      cases hhandle : c.wd.curHandle with
      | some hd =>
        simp only [hvalid, hhandle, Bool.not_true, Bool.false_eq_true, if_false, Option.isSome_some,
          if_true, Except.ok.injEq, Prod.mk.injEq] at h
        simp [hvalid, ← h.2]
      | none =>
        simp only [hvalid, hhandle, Bool.not_true, Bool.false_eq_true, if_false,
          Option.isSome_none] at h
        split_ifs at h
        all_goals
          obtain ⟨-, rfl⟩ := Prod.mk.inj (Except.ok.inj h)
          simp [hvalid, MainDispatch.registerWDHandle]

/-- The events of a run are those of its calls of `ensureCluster`. -/
theorem newHandles_events {md md' : MainDispatch} {cs : List NewHandle} {events : List OpenEvent}
    (h : newHandles md cs = .ok (md', events)) :
    events = openEvents md.clusterInitialized (cs.filterMap NewHandle.openRequest) := by
  induction cs generalizing md events with
  | nil =>
    obtain ⟨-, rfl⟩ := Prod.mk.inj (Except.ok.inj h)
    rfl
  | cons c cs ih =>
    unfold newHandles at h
    split at h
    · cases h
    · next wd₁ md₁ hcall =>
      split at h
      · cases h
      · next last rest hrest =>
        obtain ⟨rfl, rfl⟩ := Prod.mk.inj (Except.ok.inj h)
        rw [ih hrest, initializeHandle_initialized hcall]
        cases hreq : c.openRequest with
        | none => simp [hreq]
        | some r =>
          simp only [List.filterMap_cons, hreq, Option.elim, openEvents, MainDispatch.ensureEvents,
            MainDispatch.ensureCluster]
          cases hinit : md.clusterInitialized <;> cases hopened : r.opened.isSet <;>
            simp [hinit, hopened]

end Runs

/-! ## Availability -/

/-- An event that failed proves nothing open and asks for nothing. -/
theorem bucketsAvailable_cons_of_failed {e : OpenEvent} {events : List OpenEvent}
    (he : e.failed = true) : BucketsAvailable (e :: events) ↔ BucketsAvailable events := by
  constructor
  · refine fun h => ⟨fun before after origin bucket ec heq hec => ?_, h.once.of_cons⟩
    obtain ⟨⟨ec₁, hmem₁, hec₁⟩, ec₂, hmem₂, hec₂⟩ :=
      h.available (e :: before) after origin bucket ec (by rw [heq, List.cons_append]) hec
    have hne₁ : .opened origin ec₁ ≠ e := fun hno => by simp [← hno, OpenEvent.failed, hec₁] at he
    have hne₂ : .bucketOpened bucket ec₂ ≠ e := fun hno => by
      simp [← hno, OpenEvent.failed, hec₂] at he
    exact ⟨⟨ec₁, List.mem_of_ne_of_mem hne₁ hmem₁, hec₁⟩, ec₂, List.mem_of_ne_of_mem hne₂ hmem₂, hec₂⟩
  · refine fun h => ⟨fun before after origin bucket ec heq hec => ?_,
      List.pairwise_cons.mpr ⟨fun _ _ _ hok => ?_, h.once⟩⟩
    · cases before with
      | nil =>
        obtain ⟨rfl, -⟩ := List.cons.inj heq
        simp [OpenEvent.failed, hec] at he
      | cons e' before =>
        obtain ⟨⟨ec₁, hmem₁, hec₁⟩, ec₂, hmem₂, hec₂⟩ :=
          h.available before after origin bucket ec (List.cons.inj heq).2 hec
        exact ⟨⟨ec₁, .tail _ hmem₁, hec₁⟩, ec₂, .tail _ hmem₂, hec₂⟩
    · rw [he] at hok
      cases hok

/-- Behind the flag only the bucket it was raised with is available. -/
theorem bucketsAvailable_initialized {r : OpenRequest} (hopened : r.opened.isSet = false)
    (hbucket : r.bucketOpened.isSet = false) (rs : List OpenRequest) :
    BucketsAvailable (.opened r.origin r.opened :: .bucketOpened r.bucket r.bucketOpened ::
        .ensured r.origin r.bucket r.bucketOpened ::
        rs.map fun r => .ensured r.origin r.bucket .success) ↔
      ∀ r' ∈ rs, r'.origin = r.origin ∧ r'.bucket = r.bucket := by
  constructor
  · intro h r' hr'
    obtain ⟨rs₁, rs₂, rfl⟩ := List.append_of_mem hr'
    -- the return of `r'` is a success, so its own cluster and bucket were opened before it
    obtain ⟨⟨ec₁, hmem₁, -⟩, ec₂, hmem₂, -⟩ := h.available
      (.opened r.origin r.opened :: .bucketOpened r.bucket r.bucketOpened ::
        .ensured r.origin r.bucket r.bucketOpened ::
        rs₁.map fun r => .ensured r.origin r.bucket .success)
      (rs₂.map fun r => .ensured r.origin r.bucket .success) r'.origin r'.bucket .success
      (by simp) rfl
    simp only [List.mem_cons, OpenEvent.opened.injEq, OpenEvent.bucketOpened.injEq, reduceCtorEq,
      List.mem_map, and_false, exists_false, or_false, false_or] at hmem₁ hmem₂
    exact ⟨hmem₁.1, hmem₂.1⟩
  · refine fun h => ⟨fun before after origin bucket ec heq hec => ?_, ?_⟩
    · -- the first two events are no returns
      obtain ⟨e₁, before, rfl⟩ := List.exists_cons_of_ne_nil (l := before) (by rintro rfl; simp at heq)
      obtain ⟨e₂, before, rfl⟩ := List.exists_cons_of_ne_nil (l := before) (by rintro rfl; simp at heq)
      simp only [List.cons_append, List.cons.injEq] at heq
      obtain ⟨rfl, rfl, heq⟩ := heq
      have hmem : .ensured origin bucket ec ∈ .ensured r.origin r.bucket r.bucketOpened ::
          rs.map fun r => OpenEvent.ensured r.origin r.bucket .success := by
        rw [heq]
        simp
      obtain ⟨rfl, rfl⟩ : origin = r.origin ∧ bucket = r.bucket := by
        rcases List.mem_cons.mp hmem with hhead | htail
        · injection hhead with horigin hb
          exact ⟨horigin, hb⟩
        · obtain ⟨r', hr', heq'⟩ := List.mem_map.mp htail
          injection heq' with horigin hb
          exact ⟨horigin ▸ (h r' hr').1, hb ▸ (h r' hr').2⟩
      exact ⟨⟨_, .head _, hopened⟩, _, .tail _ (.head _), hbucket⟩
    · simp [OpenEvent.isOpen, List.pairwise_map, List.pairwise_of_forall]

theorem oneBucket_cons_of_failed {r : OpenRequest} (h : r.opened.isSet = true)
    (rs : List OpenRequest) : OneBucket (r :: rs) ↔ OneBucket rs := by
  constructor
  · intro hone before r' after heq hbefore
    refine hone (r :: before) r' after (by rw [heq, List.cons_append]) fun r'' hr'' => ?_
    rcases List.mem_cons.mp hr'' with rfl | hr''
    · exact h
    · exact hbefore r'' hr''
  · intro hone before r' after heq hbefore hr'
    cases before with
    | nil =>
      obtain ⟨rfl, -⟩ := List.cons.inj heq
      rw [h] at hr'
      cases hr'
    | cons r₁ before =>
      exact hone before r' after (List.cons.inj heq).2
        (fun r'' hr'' => hbefore r'' (.tail _ hr'')) hr'

theorem oneBucket_cons_of_opened {r : OpenRequest} (h : r.opened.isSet = false)
    (rs : List OpenRequest) : OneBucket (r :: rs) ↔
      ∀ r' ∈ rs, r.bucketOpened.isSet = false ∧ r'.origin = r.origin ∧ r'.bucket = r.bucket := by
  constructor
  · exact fun hone => hone [] r rs rfl (by simp) h
  · intro hall before r' after heq hbefore hr'
    cases before with
    | nil =>
      obtain ⟨rfl, rfl⟩ := List.cons.inj heq
      exact hall
    | cons r₁ before =>
      obtain ⟨rfl, -⟩ := List.cons.inj heq
      have hfailed := hbefore r (.head _)
      rw [h] at hfailed
      cases hfailed

/-- The calls of `ensureCluster` on a new daemon. -/
theorem openEvents_available_iff (rs : List OpenRequest) :
    BucketsAvailable (openEvents false rs) ↔ OneBucket rs := by
  induction rs with
  | nil => exact iff_of_true ⟨by simp [openEvents], .nil⟩ (by simp [OneBucket])
  | cons r rs ih =>
    cases hopened : r.opened.isSet with
    -- a cluster that does not open leaves the flag down, and the rest is a run of its own
    | true =>
      rw [oneBucket_cons_of_failed hopened, ← ih]
      simp only [openEvents, hopened, Bool.false_eq_true, if_false, if_true]
      rw [bucketsAvailable_cons_of_failed (by exact hopened),
        bucketsAvailable_cons_of_failed (by exact hopened)]
    | false =>
      rw [oneBucket_cons_of_opened hopened]
      simp only [openEvents, hopened, Bool.false_eq_true, if_false]
      cases hbucket : r.bucketOpened.isSet with
      | false =>
        -- both calls succeed: the flag is up and nothing is opened any more
        rw [Bool.not_false, openEvents_initialized, bucketsAvailable_initialized hopened hbucket]
        simp
      | true =>
        rw [Bool.not_true]
        cases rs with
        | nil =>
          refine iff_of_true ⟨fun before after origin bucket ec heq hec => ?_, ?_⟩ (by simp)
          · have hmem := List.mem_append_right before (.head after :
              OpenEvent.ensured origin bucket ec ∈ .ensured origin bucket ec :: after)
            simp only [← heq, openEvents, List.mem_cons, reduceCtorEq, OpenEvent.ensured.injEq,
              List.not_mem_nil, or_false, false_or] at hmem
            rw [hmem.2.2, hbucket] at hec
            cases hec
          · simp [openEvents, OpenEvent.isOpen]
        | cons r' rs =>
          -- the next call opens the cluster again
          refine iff_of_false (fun h => ?_) fun h => by simpa using (h r' (.head _)).1
          have hmem : .opened r'.origin r'.opened ∈ .bucketOpened r.bucket r.bucketOpened ::
              .ensured r.origin r.bucket r.bucketOpened :: openEvents false (r' :: rs) := by
            cases hopened' : r'.opened.isSet <;> simp [openEvents, hopened']
          cases List.rel_of_pairwise_cons h.once hmem rfl hopened

/-- **Availability of buckets.** -/
theorem newHandles_available_iff [JsonAccess] [JsonWriter] {script : List RecvResult}
    {cs : List NewHandle} {md : MainDispatch} {events : List OpenEvent}
    (h : newHandles (.new script) cs = .ok (md, events)) :
    BucketsAvailable events ↔ OneBucket (cs.filterMap NewHandle.openRequest) := by
  rw [newHandles_events h]
  exact openEvents_available_iff _

section Examples

/-- A NEWHANDLE for a bucket, on a worker without a handle; everything opens but a bucket whose outcome
is `ec`. -/
def exampleOpening (w : ℕ) (bucket : String) (ec : ErrorCode) : NewHandle where
  env := WorkerDispatch.exampleWorkerEnv ec
  wd := .new w []
  req := ⟨1, 4, ⟨"NEWHANDLE", .newhandle⟩, .object [("Hostname", .string "host"),
    ("Bucket", .string bucket), ("Options", .object [])], .success⟩

/-- The events of the first of two requests, if the bucket opens. -/
def exampleEvents : List OpenEvent :=
  [.opened ⟨"couchbase://host", "", ""⟩ .success, .bucketOpened "default" .success,
    .ensured ⟨"couchbase://host", "", ""⟩ "default" .success]

theorem newHandles_of_events [JsonAccess] [JsonWriter] {md : MainDispatch} {cs : List NewHandle}
    {events : List OpenEvent} (h : (newHandles md cs).map Prod.snd = .ok events) :
    ∃ md', newHandles md cs = .ok (md', events) := by
  cases hrun : newHandles md cs with
  | error e => simp [hrun, Except.map] at h
  | ok out =>
    obtain ⟨md', events'⟩ := out
    obtain rfl : events' = events := by simpa [hrun, Except.map] using h
    exact ⟨md', rfl⟩

/-- Two requests for one bucket. -/
theorem newHandles_available_iff_two :
    letI := JsonAccess.plain
    letI := JsonWriter.compact
    ∃ md events, newHandles (.new []) [exampleOpening 0 "default" .success,
      exampleOpening 1 "default" .success] = .ok (md, events) ∧ (BucketsAvailable events ↔
        OneBucket ([exampleOpening 0 "default" .success,
          exampleOpening 1 "default" .success].filterMap NewHandle.openRequest)) := by
  let := JsonAccess.plain
  let := JsonWriter.compact
  obtain ⟨md, hrun⟩ := @newHandles_of_events JsonAccess.plain JsonWriter.compact (.new [])
    [exampleOpening 0 "default" .success, exampleOpening 1 "default" .success]
    (exampleEvents ++ [.ensured ⟨"couchbase://host", "", ""⟩ "default" .success]) rfl
  exact ⟨md, _, hrun, newHandles_available_iff hrun⟩

/-- The second of two buckets is not opened; and when the bucket of the first request cannot be opened,
the second request opens the cluster again. -/
theorem newHandles_unavailable :
    letI := JsonAccess.plain
    letI := JsonWriter.compact
    (∃ md events, newHandles (.new []) [exampleOpening 0 "default" .success,
      exampleOpening 1 "other" .success] = .ok (md, events) ∧ ¬ BucketsAvailable events) ∧
    ∃ md events, newHandles (.new []) [exampleOpening 0 "default" ⟨10, "bucket_not_found"⟩,
      exampleOpening 0 "default" .success] = .ok (md, events) ∧ ¬ BucketsAvailable events := by
  let := JsonAccess.plain
  let := JsonWriter.compact
  constructor
  · obtain ⟨md, hrun⟩ := @newHandles_of_events JsonAccess.plain JsonWriter.compact (.new [])
      [exampleOpening 0 "default" .success, exampleOpening 1 "other" .success]
      (exampleEvents ++ [.ensured ⟨"couchbase://host", "", ""⟩ "other" .success]) rfl
    refine ⟨md, _, hrun, fun h => ?_⟩
    obtain ⟨-, ec, hmem, -⟩ := h.available exampleEvents [] _ _ _ rfl rfl
    simp [exampleEvents] at hmem
  · obtain ⟨md, hrun⟩ := @newHandles_of_events JsonAccess.plain JsonWriter.compact (.new [])
      [exampleOpening 0 "default" ⟨10, "bucket_not_found"⟩, exampleOpening 0 "default" .success]
      ([.opened ⟨"couchbase://host", "", ""⟩ .success,
        .bucketOpened "default" ⟨10, "bucket_not_found"⟩,
        .ensured ⟨"couchbase://host", "", ""⟩ "default" ⟨10, "bucket_not_found"⟩] ++
          exampleEvents) rfl
    refine ⟨md, _, hrun, fun h => ?_⟩
    have hagain : (OpenEvent.opened ⟨"couchbase://host", "", ""⟩ .success).isOpen = false :=
      List.rel_of_pairwise_cons h.once (by simp [exampleEvents]) rfl rfl
    cases hagain

end Examples

end Sdkd
