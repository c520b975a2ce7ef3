import Sdkd.HandleInput
import Sdkd.Isolation
import Sdkd.Moduli

/-!
# Divisors

Where a request can make a worker divide by zero. The moduli of the operations go back to the requests that
a worker gets, those of the collections to its NEWHANDLE; the other divisors are guarded.

## Main definitions

- `GivesCollections` — what the payload of a NEWHANDLE has to say for its handle to be `Routable`
- `NeverDivides` — no call for the request divides by zero

## Main results

- `divisors_nonzero_iff`
-/

namespace Sdkd

open LoopProg

/-! ## Guarded divisors -/

/-- `a / b` and `a % b` on the machine. -/
def checkedDiv (a b : ℕ) : Except Crash ℕ := if b = 0 then .error .divisionByZero else .ok (a / b)

def checkedMod (a b : ℕ) : Except Crash ℕ := if b = 0 then .error .divisionByZero else .ok (a % b)

/-- The time frame `setRescode` enters an outcome in. -/
def ResultSet.timeFrame (rs : ResultSet) (tv : TimeVal) : Except Crash ℕ :=
  (checkedMod tv.sec (if rs.options.timeres = 0 then 1 else rs.options.timeres)).map (tv.sec - ·)

/-- The average `resultsJson` reports for a window. -/
def TimeWindow.average (win : TimeWindow) : Except Crash ℕ :=
  if win.count ≠ 0 then checkedDiv win.timeTotal win.count else .ok 0

/-- Outcomes are entered in the frame the machine divides out. -/
theorem ResultSet.timeFrame_ok (rs : ResultSet) (tv : TimeVal) :
    ∃ frame, rs.timeFrame tv = .ok frame ∧
      (rs.curWintime = 0 → (rs.openWindow tv).curWintime = frame) := by
  have hpos := ResultSet.timeres_pos rs.options.timeres
  refine ⟨_, by rw [timeFrame, checkedMod, if_neg hpos.ne']; rfl, fun hzero => ?_⟩
  unfold openWindow
  rw [if_pos hzero]

/-- Windows report the average the machine divides out. -/
theorem ResultSet.windowJson_average {pFactor : ℤ} {win : TimeWindow} {root : Json}
    (h : ResultSet.windowJson pFactor win = .ok root) :
    ∃ avg, win.average = .ok avg ∧ root.get "Avg" = .uint avg := by
  unfold ResultSet.windowJson at h
  cases hpct : ResultSet.getPercentile pFactor win.durations with
  | none =>
    rw [hpct] at h
    cases h
  | some pct =>
    rw [hpct] at h
    obtain rfl := Except.ok.inj h
    unfold TimeWindow.average checkedDiv
    split_ifs with hzero
    · exact ⟨_, rfl, rfl⟩
    · exact ⟨_, rfl, rfl⟩

theorem ResultSet.resultsJson_ne_divisionByZero (pFactor : ℤ) (rs : ResultSet) :
    rs.resultsJson pFactor ≠ .error .divisionByZero := by
  unfold ResultSet.resultsJson
  dsimp only
  split_ifs
  · split
    · next e herror =>
      intro hfail
      obtain rfl := Except.error.inj hfail
      obtain ⟨win, -, hwin⟩ := Fallible.exists_of_mapM_error herror
      unfold ResultSet.windowJson at hwin
      cases hpct : ResultSet.getPercentile pFactor win.durations with
      | none =>
        rw [hpct] at hwin
        cases hwin
      | some pct =>
        rw [hpct] at hwin
        cases hwin
    · simp
  · simp

/-! ## Calls -/

/-- The product of two numbers of 32 bits has no need of more than 64. -/
theorem mul_mod_eq_zero_iff {a b : ℕ} (ha : a < 2 ^ 32) (hb : b < 2 ^ 32) :
    a * b % 2 ^ 64 = 0 ↔ a = 0 ∨ b = 0 := by
  have hlt : a * b < 2 ^ 32 * 2 ^ 32 := Nat.mul_lt_mul'' ha hb
  rw [Nat.mod_eq_of_lt (by simpa [← pow_add] using hlt), Nat.mul_eq_zero]

section NewHandle

variable [JsonAccess]

/-- The collections of a NEWHANDLE with options have numbers that are not zero. Without options the
constructor leaves alone what it finds in `junk`. -/
def GivesCollections (junk : HandleOptions) (payload : Json) : Prop :=
  if isObject (payload.get "Options") then
    asString (payload.get "Collections_type") = "many" →
      asUInt (payload.get "Scopes") ≠ 0 ∧ asUInt (payload.get "Collections") ≠ 0
  else junk.Routable

/-- What the constructor leaves in the members a collection is chosen by. -/
theorem HandleOptions.ofJson_cases (junk : HandleOptions) (certfile : Option String) (json : Json) :
    (∃ e, e ≠ .divisionByZero ∧ ofJson junk certfile json = .error e) ∨
    ∃ o, ofJson junk certfile json = .ok o ∧ (o.isValid = true →
      if isObject (json.get "Options") then
        o.useCollections = decide (asString (json.get "Collections_type") = "many") ∧
          o.scopes = asUInt (json.get "Scopes") ∧ o.collections = asUInt (json.get "Collections")
      else o.useCollections = junk.useCollections ∧ o.scopes = junk.scopes ∧
        o.collections = junk.collections) := by
  cases hobject : isObject (json.get "Options") with
  | false => exact .inr ⟨_, ofJson_without_options hobject junk, fun _ => ⟨rfl, rfl, rfl⟩⟩
  | true =>
    cases hhosts : getExtraHosts (json.get "Options") with
    | none =>
      -- the handle has no host
      obtain ⟨o, hok⟩ : ∃ o, ofJson junk certfile json = .ok o := by
        unfold ofJson
        dsimp only
        rw [hobject, hhosts]
        exact ⟨_, rfl⟩
      refine .inr ⟨o, hok, fun hvalid => ?_⟩
      rw [not_isValid_of_bad_hosts hobject hhosts hok] at hvalid
      cases hvalid
    | some hosts =>
      rw [ofJson_with_options hobject hhosts]
      cases hpath : certPath certfile (json.get "Options") with
      | error e => exact .inl ⟨e, certPath_error_ne hpath, rfl⟩
      | ok path => exact .inr ⟨_, rfl, fun _ => ⟨rfl, rfl, rfl⟩⟩

theorem HandleOptions.ofJson_ne_divisionByZero (junk : HandleOptions) (certfile : Option String) (json : Json) :
    ofJson junk certfile json ≠ .error .divisionByZero := by
  rcases ofJson_cases junk certfile json with ⟨e, hne, herror⟩ | ⟨o, hok, -⟩
  · rw [herror]
    simpa using hne
  · rw [hok]
    simp

/-- What the payload says about the collections of a handle that can be used. -/
theorem ofJson_routable_iff {junk o : HandleOptions} {certfile : Option String} {json : Json}
    (h : HandleOptions.ofJson junk certfile json = .ok o) (hvalid : o.isValid = true) :
    o.Routable ↔ GivesCollections junk json := by
  rcases HandleOptions.ofJson_cases junk certfile json with ⟨e, -, herror⟩ | ⟨o', hok, hmembers⟩
  · cases herror.symm.trans h
  obtain rfl := Except.ok.inj (hok.symm.trans h)
  have hmembers := hmembers hvalid
  unfold GivesCollections
  unfold HandleOptions.Routable
  split_ifs at hmembers ⊢ with hobject
  · obtain ⟨huse, hscopes, hcollections⟩ := hmembers
    rw [huse, hscopes, hcollections, decide_eq_true_iff, ne_eq,
      mul_mod_eq_zero_iff (JsonAccess.asUInt_lt _) (JsonAccess.asUInt_lt _), not_or,
      and_comm (a := _ ≠ 0)]
  · obtain ⟨huse, hscopes, hcollections⟩ := hmembers
    rw [huse, hscopes, hcollections]

end NewHandle

namespace WorkerDispatch

section Calls

variable [JsonAccess] [JsonWriter] {env : WorkerEnv} {wd wd' : WorkerDispatch} {md md' : MainDispatch}
  {req : Request}

omit [JsonWriter] in
theorem resolveDataset_ne_divisionByZero (md : MainDispatch) (req : Request) :
    resolveDataset md req ≠ .error .divisionByZero := by
  unfold resolveDataset
  dsimp only
  split_ifs
  · simp
  · split <;> simp
  · split
    · next e herror =>
      unfold Dataset.fromType at herror
      split_ifs at herror
      cases herror
      simp
    · simp
    · simp

/-- No call for the request divides by zero. -/
def NeverDivides (wd : WorkerDispatch) (req : Request) : Prop :=
  ∀ env md n, wd.processRequest env md req n ≠ .crashed .divisionByZero

omit [JsonAccess] in
theorem runOperation_ne_divisionByZero {h : Handle} {op : Operation} {n : ℕ}
    (hop : ∀ c, op.prog.Reaches cancelCurrent (op.start (h.session .new)) c →
      c.pos ≠ .dead .divisionByZero) :
    wd.runOperation env md req h op n ≠ .crashed .divisionByZero := by
  unfold runOperation
  dsimp only
  split
  · unfold replyResults
    split_ifs
    · simp
    · split
      · next e herror =>
        intro hcrash
        obtain rfl := Outcome.crashed.inj hcrash
        exact ResultSet.resultsJson_ne_divisionByZero _ _ herror
      · simp
  · next e hpos =>
    intro hcrash
    obtain rfl := Outcome.crashed.inj hcrash
    exact hop _ (Prog.reaches_run _ _ n) hpos
  · simp

omit [JsonAccess] in
theorem serve_ne_divisionByZero {h : Handle} {o : Option Operation} {n : ℕ}
    (hop : ∀ op, o = some op → ∀ c, op.prog.Reaches cancelCurrent (op.start (h.session .new)) c →
      c.pos ≠ .dead .divisionByZero) :
    wd.serve env md req h o n ≠ .crashed .divisionByZero := by
  unfold serve
  cases o with
  | none => simp
  | some op => exact runOperation_ne_divisionByZero (hop op rfl)

/-- A worker whose handle has collections for its keys, if it has a handle. -/
def Routed (wd : WorkerDispatch) : Prop := ∀ h, wd.curHandle = some h → h.options.Routable

/-- Such a worker divides by zero for no request with proper counts. -/
theorem neverDivides_of_routed (hrouted : wd.Routed) (hcount : ModuliNonzero req) :
    NeverDivides wd req := by
  intro env md n
  unfold processRequest
  split_ifs
  · simp
  · simp
  · split
    · next e herror =>
      intro hcrash
      obtain rfl := Outcome.crashed.inj hcrash
      unfold initializeHandle at herror
      split at herror
      · next e' hopts =>
        obtain rfl := Except.error.inj herror
        exact HandleOptions.ofJson_ne_divisionByZero _ _ _ hopts
      · dsimp only at herror
        split_ifs at herror
    · simp
  · split
    · simp
    · next h hh =>
      split
      · next e herror =>
        intro hcrash
        obtain rfl := Outcome.crashed.inj hcrash
        exact resolveDataset_ne_divisionByZero _ _ herror
      · simp
      · dsimp only
        split_ifs
        · simp
        · exact serve_ne_divisionByZero fun op hop c hc => dsOperation_not_dead hop (hrouted h hh) hc
  · split
    · simp
    · next h hh =>
      exact serve_ne_divisionByZero fun op hop c hc => queryOperation_not_dead hop (hrouted h hh) hcount hc

/-- The moduli that go back to the request are not zero: those of the collections of a NEWHANDLE, and those
of the searches of a query. -/
structure Proper (env : WorkerEnv) (req : Request) : Prop where
  collections : req.command.code = .newhandle → GivesCollections env.options req.payload
  moduli : ModuliNonzero req

theorem processRequest_routed {n : ℕ} {b : Bool} (hproper : Proper env req) (hrouted : wd.Routed)
    (hcall : wd.processRequest env md req n = .returned (b, wd', md')) : wd'.Routed := by
  obtain hout | ⟨out, ⟨hcode, hinit⟩, hout⟩ | ⟨err, hout⟩ | ⟨e, hout⟩ | ⟨h, op, hh, -, hrun⟩ :=
    processRequest_cases env wd md req n
  · rw [hout] at hcall
    cases hcall
    exact hrouted
  · rw [hout] at hcall
    cases hcall
    intro h' hh'
    rcases initializeHandle_curHandle hinit with hsame | ⟨o, hopts, hvalid, hnew⟩
    · exact hrouted h' (hsame ▸ hh')
    · rw [hnew] at hh'
      rw [← Option.some.inj hh']
      exact (ofJson_routable_iff hopts hvalid).mpr (hproper.collections hcode)
  · rw [hout] at hcall
    cases hcall
    exact hrouted
  · rw [hout] at hcall
    cases hcall
  · -- an operation leaves the options of its handle alone
    rw [hrun n env.sched] at hcall
    unfold runOperation at hcall
    dsimp only at hcall
    split at hcall
    · intro h' hh'
      rw [replyResults_curHandle hcall] at hh'
      rw [← Option.some.inj hh']
      exact hrouted h hh
    · cases hcall
    · cases hcall

theorem Serves.routed (h : Serves (fun env _ _ req _ => Proper env req) wd wd') (hrouted : wd.Routed) :
    wd'.Routed := by
  cases h with
  | call hproper hcall => exact processRequest_routed hproper hrouted hcall
  | io => exact hrouted
  | cancel =>
    intro h' hh'
    obtain ⟨h, hh, rfl⟩ := Option.map_eq_some_iff.mp hh'
    exact hrouted h hh

/-! ### Requests that divide -/

/-- If the operation of a request dies on its own, then so does a call that nobody cancels. -/
theorem crashes_of_dies (hvalid : req.isValid = true) (hclose : req.command.code ≠ .closehandle)
    (hnew : req.command.code ≠ .newhandle) {h : Handle} (hh : wd.curHandle = some h) {op : Operation}
    (hruns : Runs h env.world md req op) {e : Crash}
    (hdies : ∃ n, (op.prog.run cancelCurrent (fun _ => false) (op.start (h.session .new)) n).pos =
      .dead e) :
    ∃ n, wd.processRequest { env with sched := fun _ => false } md req n = .crashed e := by
  obtain ⟨n, hn⟩ := hdies
  refine ⟨n, ?_⟩
  rw [processRequest_of_runs { env with sched := fun _ => false } hvalid hclose hnew hh hruns]
  unfold runOperation
  dsimp only
  rw [hn]

theorem fts_crashes (hvalid : req.isValid = true) (hcode : req.command.code = .cbFtsQuery)
    (hstring : (req.payload.get "FTSConsistency").isString = true)
    {h : Handle} (hh : wd.curHandle = some h) (env : WorkerEnv) {e : Crash}
    (hfail : ∀ s, s.loc = ⟨0⟩ → search h.options env.world req s = .fail e) (md : MainDispatch) :
    ∃ n, wd.processRequest { env with sched := fun _ => false } md req n = .crashed e := by
  have hruns : Runs h env.world md req ⟨_, executeFTS h.options env.world req, ⟨0⟩⟩ := by
    simp [Runs, queryOperation, hcode, Code.needsDs]
  exact crashes_of_dies hvalid (by simp [hcode]) (by simp [hcode]) hh hruns
    (executeFTS_dies hstring hfail _)

theorem cbas_crashes (hvalid : req.isValid = true) (hcode : req.command.code = .cbAsQuery)
    {h : Handle} (hh : wd.curHandle = some h) (env : WorkerEnv) {e : Crash}
    (hfail : ∀ s, nextGenerator req s = .fail e) (md : MainDispatch) :
    ∃ n, wd.processRequest { env with sched := fun _ => false } md req n = .crashed e := by
  have hruns : Runs h env.world md req ⟨_, executeCBAS h.options env.world req, ⟨0⟩⟩ := by
    simp [Runs, queryOperation, hcode, Code.needsDs]
  exact crashes_of_dies hvalid (by simp [hcode]) (by simp [hcode]) hh hruns (executeCBAS_dies hfail _)

/-- Everything succeeds, and the thread of the worker has the number 1. -/
def threadOne : WorkerEnv :=
  { exampleWorkerEnv .success with world := { exampleWorld with threadId := "1" } }

/-- A query whose `Count` makes no modulus can divide by zero. -/
theorem moduliNonzero_of_neverDivides (hvalid : req.isValid = true) {h : Handle}
    (hh : wd.curHandle = some h) (hnever : NeverDivides wd req) : ModuliNonzero req where
  preloaded := fun hcode hstring hpreloaded hcount => by
    obtain ⟨n, hn⟩ := fts_crashes hvalid hcode hstring hh threadOne
      (fun s _ => search_fail hpreloaded hcount s) (.new [])
    exact hnever _ _ _ hn
  analytics := fun hcode hcount => by
    obtain ⟨n, hn⟩ := cbas_crashes hvalid hcode hh threadOne (nextGenerator_fail hcount) (.new [])
    exact hnever _ _ _ hn

/-- A search that stores a document first. -/
def atPlusSearch : Request :=
  ⟨1, 1, ⟨"CB_FTS_QUERY", .cbFtsQuery⟩, .object [("FTSConsistency", .string "at_plus")], .success⟩

omit [JsonAccess] [JsonWriter] in
theorem atPlusSearch_consistency : AtPlus atPlusSearch := rfl

omit [JsonWriter] in
theorem atPlusSearch_moduliNonzero : ModuliNonzero atPlusSearch where
  preloaded := fun _ _ hpreloaded => absurd atPlusSearch_consistency hpreloaded
  analytics := fun hcode => by cases hcode

/-- A handle without collections for its keys can divide by zero for a search that counts nothing. -/
theorem routable_of_neverDivides {h : Handle} (hh : wd.curHandle = some h)
    (hnever : NeverDivides wd atPlusSearch) : h.options.Routable := by
  by_contra hno
  -- the key of the first search, whose digits are those of the thread and of the generator
  have hcollection : h.options.getCollection (searchKey threadOne.world 0) = .error .divisionByZero :=
    HandleOptions.getCollection_of_not_routable hno (by decide) (n := 10) (by decide)
  have hfail : ∀ s : OpState SearchVars, s.loc = ⟨0⟩ →
      search h.options threadOne.world atPlusSearch s = .fail .divisionByZero := by
    intro s hs
    refine search_fail_of_getCollection atPlusSearch_consistency ?_
    rw [hs]
    exact hcollection
  obtain ⟨n, hn⟩ := fts_crashes rfl rfl rfl hh threadOne hfail (.new [])
  exact hnever _ _ _ hn

/-- **Divisors.** A worker whose requests are proper never divides by zero, whatever happens to it. The
condition on a NEWHANDLE is the exact one for the requests its handle serves, and the condition on a
query the exact one for a worker whose handle has collections for its keys. The span of the delays, the
resolution of the windows and their numbers of samples are never zero where they divide. -/
theorem divisors_nonzero_iff (id : ℕ) (script : List RecvResult) :
    (∀ wd, Relation.ReflTransGen (Serves fun env _ _ req _ => Proper env req) (.new id script) wd →
      ∀ req, ModuliNonzero req → NeverDivides wd req) ∧
    (∀ (env : WorkerEnv) (wd : WorkerDispatch) md req wd' md', wd.curHandle = none →
      wd.initializeHandle env md req = .ok (wd', md') → wd'.curHandle.isSome = true →
      ((∀ req', ModuliNonzero req' → NeverDivides wd' req') ↔
        GivesCollections env.options req.payload)) ∧
    (∀ (wd : WorkerDispatch) req, wd.curHandle.isSome = true → wd.Routed → req.isValid = true →
      (NeverDivides wd req ↔ ModuliNonzero req)) ∧
    (∀ (opts : ResultOptions) rand, ∃ d, opts.getDelay rand = .ok d) ∧
    (∀ (rs : ResultSet) tv, ∃ frame, rs.timeFrame tv = .ok frame ∧
      (rs.curWintime = 0 → (rs.openWindow tv).curWintime = frame)) ∧
    (∀ pFactor (win : TimeWindow) root, ResultSet.windowJson pFactor win = .ok root →
      ∃ avg, win.average = .ok avg ∧ root.get "Avg" = .uint avg) := by
  refine ⟨fun wd hserves req hmoduli => ?_, fun env wd md req wd' md' hnone hinit hsome => ?_,
    fun wd req hsome hrouted hvalid => ?_, ResultOptions.getDelay_ok, ResultSet.timeFrame_ok,
    fun _ _ _ => ResultSet.windowJson_average⟩
  · have hrouted : wd.Routed := by
      induction hserves with
      | refl =>
        intro h hh
        cases hh
      | tail _ hstep ih => exact hstep.routed ih
    exact neverDivides_of_routed hrouted hmoduli
  · rcases initializeHandle_curHandle hinit with hsame | ⟨o, hopts, hvalid, hnew⟩
    · rw [hsame, hnone] at hsome
      cases hsome
    · rw [← ofJson_routable_iff hopts hvalid]
      constructor
      · intro hnever
        exact routable_of_neverDivides hnew (hnever atPlusSearch atPlusSearch_moduliNonzero)
      · intro hroutable req' hmoduli
        refine neverDivides_of_routed (fun h hh => ?_) hmoduli
        rw [hnew] at hh
        rw [← Option.some.inj hh]
        exact hroutable
  · obtain ⟨h, hh⟩ := Option.isSome_iff_exists.mp hsome
    exact ⟨moduliNonzero_of_neverDivides hvalid hh, neverDivides_of_routed hrouted⟩

end Calls

section Examples

/-- A full-text query among preloaded documents, without their number. -/
def exampleSearch : Request :=
  ⟨1, 1, ⟨"CB_FTS_QUERY", .cbFtsQuery⟩, .object [("FTSConsistency", .string "not_bounded")], .success⟩

/-- An analytics query with nothing in its payload. -/
def exampleAnalytics : Request := ⟨1, 1, ⟨"CB_AS_QUERY", .cbAsQuery⟩, .object [], .success⟩

/-- A NEWHANDLE with many collections, but no number of them. -/
def exampleManyCollections : Request :=
  ⟨1, 4, ⟨"NEWHANDLE", .newhandle⟩, .object [("Hostname", .string "host"),
    ("Bucket", .string "default"), ("Options", .object []), ("Collections_type", .string "many")], .success⟩

/-- A full-text query and an analytics query without a `Count` divide by zero, and so does a search with the
handle of a NEWHANDLE without numbers of scopes and collections. -/
theorem missingFields_divide :
    letI := JsonAccess.plain
    letI := JsonWriter.compact
    let env := threadOne
    processRequest env exampleWorker (.new []) exampleSearch 7 = .crashed .divisionByZero ∧
    processRequest env exampleWorker (.new []) exampleAnalytics 7 = .crashed .divisionByZero ∧
    ∃ wd md, processRequest env (.new 0 []) (.new []) exampleManyCollections 0 =
      .returned (true, wd, md) ∧
      processRequest env wd md atPlusSearch 7 = .crashed .divisionByZero :=
  ⟨rfl, rfl, _, _, rfl, rfl⟩

end Examples

end WorkerDispatch

end Sdkd
