import Sdkd.Guards
import Sdkd.LoaderRuns

/-!
# Loads

The four load commands: what `populate` returns and what `processRequest` replies. The caller drops the
verdict, and no loader touches the result set, so every load that comes to its end is reported as a
success.

## Main results

- `loadSound_iff` — the verdict and the reply are right exactly if every upsert succeeds
-/

namespace Sdkd

open LoopProg

/-- The commands that run `populate` of a loader. -/
def Code.isLoad : Code → Bool
  | .mcDsSdLoad | .cbN1qlLoad | .cbFtsLoad | .cbAsLoad => true
  | _ => false

/-- The response reports an error: in its status, or as a count in its summary. -/
def Response.Reports (res : Response) : Prop :=
  res.status ≠ 0 ∨
    ∃ text, text ≠ "success" ∧ (res.responseData.get "Summary").isMember text = true

namespace WorkerDispatch

section Loads

variable [JsonAccess] [JsonWriter] {env : WorkerEnv} {wd : WorkerDispatch} {md : MainDispatch}
  {req : Request} {h : Handle} {t : DsType} {ds : Dataset} {n : ℕ}

/-- The operation of the load commands. -/
def populateOperation (h : Handle) (w : World) (ds : Dataset) : Operation :=
  ⟨_, loader ds.getIter h.options w, ⟨Dataset.newIterator, ("", ""), .start⟩⟩

/-- The run of `populate` on the handle `h`, after `m` steps. -/
def populate (env : WorkerEnv) (h : Handle) (ds : Dataset) (m : ℕ) :
    Config (OpState (DsLocal DatasetIterator BatchVars)) Crash :=
  (populateOperation h env.world ds).prog.run cancelCurrent env.sched
    ((populateOperation h env.world ds).start (h.session .new)) m

/-- What `populate` has returned: it returns false only from a batch with a bad verdict. -/
def populated (c : Config (OpState (DsLocal DatasetIterator BatchVars)) Crash) : Option Bool :=
  match c.pos with
  | .done => some c.st.loc.extra.ok
  | _ => none

/-- On a dataset of `n` items `populate` returns; it returns true if and only if every upsert was
submitted and succeeded; and if it returns false then the response reports it. -/
def LoadSound (env : WorkerEnv) (wd : WorkerDispatch) (md : MainDispatch) (req : Request) (h : Handle)
    (ds : Dataset) (n : ℕ) : Prop :=
  ∃ m b, populated (populate env h ds m) = some b ∧
    (b = true ↔ (populate env h ds m).st.ses.sent.length = n ∧
      ∀ k < n, (env.world.outcome k).isSet = false) ∧
    (b = false → ∃ wd' md' res, wd.processRequest env md req m = .returned (true, wd', md') ∧
      wd'.io.queued = wd.io.queued ++ [res] ∧ res.Reports)

theorem dsOperation_of_isLoad (h : Handle) (w : World) (ds : Dataset) (opts : ResultOptions)
    (hload : req.command.code.isLoad = true) :
    dsOperation h w req ds opts = some (populateOperation h w ds) := by
  unfold dsOperation
  cases hcode : req.command.code <;> simp only [hcode, Code.isLoad, Bool.false_eq_true] at hload
  all_goals rfl

omit [JsonAccess] [JsonWriter] in
theorem needsDs_of_isLoad {c : Code} (hload : c.isLoad = true) :
    c.needsDs = true ∧ c ≠ .closehandle ∧ c ≠ .newhandle := by
  cases c <;> simp_all [Code.isLoad, Code.needsDs]

omit [JsonAccess] [JsonWriter] in
/-- A continuous dataset has no end. -/
theorem needsIterWait_of_done {i : DatasetIterator} (hdone : Dataset.done ds.spec i = true)
    (opts : ResultOptions) : needsIterWait t ds opts = false := by
  unfold needsIterWait
  split
  · next spec hspec =>
    simp only [hspec, Dataset.done, Dataset.continuousCount] at hdone
    cases hcont : spec.continuous with
    | false => simp
    | true => simp [hcont] at hdone
  · rfl

theorem populateOperation_satisfies (h : Handle) (w : World) (ds : Dataset) (sched : ℕ → Bool) (m : ℕ) :
    ((populateOperation h w ds).prog.run cancelCurrent sched
      ((populateOperation h w ds).start (h.session .new)) m).Satisfies
      (loaderAssertion ds.getIter Dataset.newIterator h.options w .new h.pending) :=
  loader_outline.sound (Prog.reaches_run _ _ m) ⟨rfl, rfl, rfl, rfl, rfl, rfl, rfl, rfl⟩

theorem populate_satisfies (env : WorkerEnv) (h : Handle) (ds : Dataset) (m : ℕ) :
    (populate env h ds m).Satisfies (loaderAssertion ds.getIter Dataset.newIterator h.options env.world
      .new h.pending) :=
  populateOperation_satisfies h env.world ds env.sched m

/-- A load that has returned is replied to with an empty summary. -/
theorem processRequest_load (hvalid : req.isValid = true) (hload : req.command.code.isLoad = true)
    (hh : wd.curHandle = some h) (hds : resolveDataset md req = .ok (.ok (t, ds)))
    (hwait : needsIterWait t ds (.ofJson (req.payload.get "Options")) = false) {m : ℕ} {b : Bool}
    (hb : populated (populate env h ds m) = some b) :
    ∃ wd', wd.processRequest env md req m = .returned (true, wd', md) ∧
      wd'.io.queued = wd.io.queued ++ [(Response.ofRequest req .success).setResponseData
        (Json.null.set "Summary" (ResultSet.statsJson ∅))] := by
  obtain ⟨hneeds, hclose, hnew⟩ := needsDs_of_isLoad hload
  have hpos : (populate env h ds m).pos = .done := by
    unfold populated at hb
    split at hb
    · assumption
    · cases hb
  have hsat := populate_satisfies env h ds m
  unfold Config.Satisfies at hsat
  rw [hpos] at hsat
  have hrs : (populate env h ds m).st.ses.rs = .new := hsat.1.rs
  rw [processRequest_of_resolveDataset env hvalid hneeds hclose hnew hh hds, hwait,
    dsOperation_of_isLoad h _ ds _ hload]
  simp only [Bool.false_eq_true, if_false, serve]
  rw [runOperation_of_done (c := populate env h ds m) rfl hpos, hrs]
  exact ⟨_, rfl, rfl⟩

omit [JsonAccess] [JsonWriter] in
/-- An empty summary reports nothing. -/
theorem not_reports (hvalid : req.isValid = true) :
    ¬ ((Response.ofRequest req .success).setResponseData
      (Json.null.set "Summary" (ResultSet.statsJson ∅))).Reports := by
  rintro (hstatus | ⟨text, -, hmember⟩)
  · exact hstatus (Response.status_ofRequest_success hvalid rfl)
  · cases hmember

/-- A sound load has returned true: false would not be reported. -/
theorem LoadSound.verdict (hvalid : req.isValid = true) (hload : req.command.code.isLoad = true)
    (hh : wd.curHandle = some h) (hds : resolveDataset md req = .ok (.ok (t, ds)))
    (hwait : needsIterWait t ds (.ofJson (req.payload.get "Options")) = false)
    (hsound : LoadSound env wd md req h ds n) :
    ∃ m, populated (populate env h ds m) = some true ∧
      (populate env h ds m).st.ses.sent.length = n ∧
      ∀ k < n, (env.world.outcome k).isSet = false := by
  obtain ⟨m, b, hb, hiff, hreported⟩ := hsound
  cases b with
  | true => exact ⟨m, hb, hiff.mp rfl⟩
  | false =>
    obtain ⟨wd₁, md₁, res, hreturned, hqueued, hreports⟩ := hreported rfl
    obtain ⟨wd₂, hreturned', hqueued'⟩ := processRequest_load hvalid hload hh hds hwait hb
    rw [hreturned'] at hreturned
    cases hreturned
    rw [hqueued', List.append_cancel_left_eq, List.singleton_inj] at hqueued
    exact absurd (hqueued ▸ hreports) (not_reports hvalid)

/-- **Loads.** On a dataset of `n` items a load is sound if and only if every item has a collection and
every upsert succeeds; a load that does anything waits for the futures left over as well. -/
theorem loadSound_iff (hvalid : req.isValid = true) (hload : req.command.code.isLoad = true)
    (hh : wd.curHandle = some h) (hds : resolveDataset md req = .ok (.ok (t, ds)))
    (hn : HasItems ds.getIter Dataset.newIterator n) :
    LoadSound env wd md req h ds n ↔
      (∀ k < n, ∃ i c, ds.getIter.item Dataset.newIterator k = .ok i ∧
        h.options.getCollection i.curk = .ok c) ∧
      (∀ k < n, (env.world.outcome k).isSet = false) ∧ (0 < n → Clean h.pending) := by
  have hwait : needsIterWait t ds (.ofJson (req.payload.get "Options")) = false := by
    obtain ⟨i, hi⟩ := hn.items n le_rfl
    exact needsIterWait_of_done (hn.ended i hi) _
  constructor
  · intro hsound
    obtain ⟨m, hb, hsent, houtcomes⟩ := hsound.verdict hvalid hload hh hds hwait
    have hsat := populate_satisfies env h ds m
    unfold populated at hb
    unfold Config.Satisfies at hsat
    split at hb
    · next hpos =>
      rw [hpos] at hsat
      -- a load that reports success has sent one upsert for each item, and its last batches were clean
      obtain ⟨hloaded, -, hfinished⟩ := hsat
      have hrounds : (populate env h ds m).rounds = n := hloaded.count.symm.trans hsent
      rw [hrounds] at hloaded hfinished
      exact ⟨hloaded.addressed, houtcomes, (hfinished (Option.some.inj hb)).clean⟩
    · cases hb
  · rintro ⟨haddressed, houtcomes, hclean⟩
    obtain ⟨m, hhalted, hsat, hle⟩ : ∃ m, (populate env h ds m).halted ∧
        (populate env h ds m).Satisfies (loaderAssertion ds.getIter Dataset.newIterator h.options
          env.world .new h.pending) ∧ (populate env h ds m).rounds ≤ n :=
      loader_halts hn env.sched ⟨rfl, rfl, rfl, rfl, rfl, rfl, rfl, rfl⟩ rfl
    unfold Config.halted at hhalted
    unfold Config.Satisfies at hsat
    split at hhalted
    · next hpos =>
      rw [hpos] at hsat
      obtain ⟨hloaded, -, hfinished⟩ := hsat
      -- a verdict that is false goes back to an outcome some drain has waited for
      have hok : (populate env h ds m).st.loc.extra.ok = true := by
        by_contra hbad
        rcases hloaded.verdict (by simpa using hbad) with ⟨hpos, ec, hec, hset⟩ | ⟨k, hk, hset⟩
        · rw [hclean (by omega) ec hec] at hset
          cases hset
        · rw [houtcomes k (by omega)] at hset
          cases hset
      have hended := hfinished hok
      have hrounds : (populate env h ds m).rounds = n := hn.of_walked hended.walked hended.ended
      refine ⟨m, true, by simp [populated, hpos, hok], iff_of_true rfl ⟨?_, houtcomes⟩, by simp⟩
      rw [hloaded.count, hrounds]
    · next e hpos =>
      rw [hpos] at hsat
      -- a process that dies does so at an item, but all of them have data and a collection
      rcases hsat with ⟨k, hk, he⟩ | ⟨k, hk, i, hi, -, he⟩
      · obtain ⟨i, hi⟩ := hn.items k (by omega)
        rw [hi] at he
        cases he
      · obtain ⟨j, c, hj, hc⟩ := haddressed k (by omega)
        rw [hi, Except.ok.injEq] at hj
        rw [← hj] at hc
        cases hc.symm.trans he
    · exact hhalted.elim

end Loads

section Examples

/-- A load of one full-text document. -/
def exampleLoad : Request :=
  ⟨1, 1, ⟨"CB_FTS_LOAD", .cbFtsLoad⟩, .object [("DSType", .string "DSTYPE_FTS"),
    ("DS", .object [("Count", .uint 1)])], .success⟩

/-- Every request has the outcome `ec`. -/
def exampleOutcome (ec : ErrorCode) : WorkerEnv :=
  { exampleWorkerEnv .success with world := { exampleWorld with outcome := fun _ => ec } }

theorem example_hasItems :
    letI := JsonAccess.plain
    letI := JsonWriter.compact
    HasItems (Dataset.mk .success (.fts 1)).getIter Dataset.newIterator 1 := by
  let := JsonAccess.plain
  let := JsonWriter.compact
  refine ⟨fun k hk => ?_, fun k hk i hi => ?_, fun i hi => ?_⟩
  · match k, hk with
    | 0, _ => exact ⟨_, rfl⟩
    | 1, _ => exact ⟨_, rfl⟩
  · obtain rfl : k = 0 := Nat.lt_one_iff.mp hk
    cases hi
    rfl
  · cases hi
    rfl

theorem loadSound_iff_one :
    letI := JsonAccess.plain
    letI := JsonWriter.compact
    let ds : Dataset := ⟨.success, .fts 1⟩
    LoadSound (exampleOutcome .success) exampleWorker (.new []) exampleLoad exampleHandle ds 1 ↔
      (∀ k < 1, ∃ i c, ds.getIter.item Dataset.newIterator k = .ok i ∧
        exampleHandle.options.getCollection i.curk = .ok c) ∧
      (∀ k < 1, ((exampleOutcome .success).world.outcome k).isSet = false) ∧
      (0 < 1 → Clean exampleHandle.pending) :=
  letI := JsonAccess.plain
  letI := JsonWriter.compact
  loadSound_iff rfl rfl rfl rfl example_hasItems

/-- The only upsert fails, `populate` returns false, and the reply has the status zero. -/
theorem load_failure_unreported :
    letI := JsonAccess.plain
    letI := JsonWriter.compact
    let ds : Dataset := ⟨.success, .fts 1⟩
    let env := exampleOutcome ⟨201, "request_canceled"⟩
    ¬ LoadSound env exampleWorker (.new []) exampleLoad exampleHandle ds 1 ∧
    ∃ m wd' md' res, populated (populate env exampleHandle ds m) = some false ∧
      processRequest env exampleWorker (.new []) exampleLoad m = .returned (true, wd', md') ∧
      wd'.io.queued = [res] ∧ res.status = 0 := by
  intro ds env
  have hb : populated (@populate JsonAccess.plain JsonWriter.compact env exampleHandle ds 9) =
      some false := by decide +kernel
  obtain ⟨wd', hreturned, hqueued⟩ := @processRequest_load JsonAccess.plain JsonWriter.compact
    env exampleWorker (.new []) exampleLoad exampleHandle .fts ds rfl rfl rfl rfl rfl 9 false hb
  refine ⟨fun hsound => ?_, 9, wd', .new [], _, hb, hreturned, hqueued, rfl⟩
  obtain ⟨m, -, -, houtcomes⟩ := @LoadSound.verdict JsonAccess.plain JsonWriter.compact
    env exampleWorker (.new []) exampleLoad exampleHandle .fts ds 1 rfl rfl rfl rfl rfl hsound
  cases houtcomes 0 Nat.one_pos

end Examples

end WorkerDispatch

end Sdkd
