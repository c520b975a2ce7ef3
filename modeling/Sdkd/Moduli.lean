import Sdkd.Pairing
import Sdkd.Switch

/-!
# Moduli

The remainders the operations of a handle take: the choice of a collection, whose modulus is made of the
options of the handle, and the generators of search terms, whose moduli are made of the `Count` of the
request. Nothing in the source keeps them from being zero.

## Main definitions

- `HandleOptions.Routable`, `ModuliNonzero` — the moduli are not zero

## Main results

- `dsOperation_not_dead`, `queryOperation_not_dead` — then no operation divides by zero
- `executeFTS_dies`, `executeCBAS_dies`, `search_fail`, `nextGenerator_fail` — otherwise queries do
-/

namespace Sdkd

open LoopProg

/-! ## Collections -/

/-- If keys have collections, then there are some. -/
def HandleOptions.Routable (o : HandleOptions) : Prop :=
  o.useCollections = true → o.collections * o.scopes % 2 ^ 64 ≠ 0

theorem HandleOptions.Routable.getCollection_ne_divisionByZero {o : HandleOptions} (h : o.Routable)
    (key : String) : o.getCollection key ≠ .error .divisionByZero := by
  unfold getCollection
  split_ifs with huse
  · split
    · simp
    · dsimp only
      rw [if_neg (h huse.1)]
      simp
  · simp

/-- What a key with a number is divided by, if there are no collections. -/
theorem HandleOptions.getCollection_of_not_routable {o : HandleOptions} (h : ¬ o.Routable) {key : String}
    (hkey : key ≠ "") {n : ℕ} (hn : stoi (takenDigits key) = some n) :
    o.getCollection key = .error .divisionByZero := by
  unfold Routable at h
  push Not at h
  unfold getCollection
  rw [if_pos ⟨h.1, hkey⟩, hn]
  dsimp only
  rw [if_pos h.2]

/-! ## Operations on datasets -/

section Actions

variable {L : Type*} {w : World} {e : Crash}

theorem spares_drain (handler : ErrorCode → OpState L → OpState L) :
    Action.Spares e (drain handler) := by
  intro s hfail
  rcases drain_outcome handler s with ⟨-, hout⟩ | ⟨ec, -, -, hout⟩ | ⟨-, -, hout⟩ <;>
    rw [hout] at hfail <;> cases hfail

/-- The delay is drawn from a span that is not empty. -/
theorem spares_delay : Action.Spares e (delay w : OpAction L) := by
  intro s hfail
  obtain ⟨draws, hout⟩ := delay_outcome w s
  rw [hout] at hfail
  cases hfail

theorem spares_collectResult : Action.Spares e (collectResult : OpAction L) := by
  intro s hfail
  rcases collectResult_outcome s with ⟨-, hout⟩ | ⟨-, hout⟩ <;> rw [hout] at hfail <;> cases hfail

theorem spares_checkBatch {ι : Type*} : Action.Spares e (checkBatch : OpAction (DsLocal ι BatchVars)) := by
  intro s
  unfold checkBatch
  split_ifs <;> simp

theorem spares_endBatch {ι : Type*} : Action.Spares e (endBatch : OpAction (DsLocal ι BatchVars)) := by
  intro s
  unfold endBatch
  dsimp only
  split_ifs <;> simp

/-- The schema may be of the wrong kind. -/
theorem spares_addValue [JsonWriter] {ι : Type*} {it : IterOps ι} (he : e ≠ .assertion) :
    Action.Spares e (addValue it) := by
  intro s hfail
  rcases addValue_outcome it s with ⟨-, hout⟩ | ⟨-, hout⟩ <;> rw [hout] at hfail
  · cases hfail
  · exact he (Ctl.fail.inj hfail).symm

theorem spares_flushCollect {ι : Type*} :
    Action.Spares e (flushCollect w : OpAction (DsLocal ι ViewVars)) := by
  intro s hfail
  rcases flushCollect_outcome w s with ⟨-, hout⟩ | ⟨ec, rest, -, hout⟩ <;> rw [hout] at hfail <;>
    cases hfail

theorem spares_flushClear {ι : Type*} : Action.Spares e (flushClear : OpAction (DsLocal ι ViewVars)) := by
  intro s
  unfold flushClear
  dsimp only
  split_ifs <;> simp

theorem spares_flushSend {ι : Type*} {o : HandleOptions} (h : o.Routable) :
    Action.Spares .divisionByZero (flushSend o w : OpAction (DsLocal ι ViewVars)) := by
  intro s hfail
  rcases flushSend_outcome o w s with ⟨-, hout⟩ | ⟨key, value, c, -, -, -, hout⟩ |
    ⟨key, value, e, -, -, herror, hout⟩ <;> rw [hout] at hfail
  · cases hfail
  · cases hfail
  · obtain rfl := Ctl.fail.inj hfail
    exact h.getCollection_ne_divisionByZero _ herror

end Actions

section Datasets

variable [JsonAccess] [JsonWriter]

variable {X : Type*} {o : HandleOptions} {w : World} {ds : Dataset} {e : Crash}

/-- The data of an item may not be there to build, and that is all. -/
theorem spares_startIter (he : e ≠ .assertion) (he' : e ≠ .outOfBounds) : Action.Spares e
    (startIter ds.getIter : OpAction (DsLocal DatasetIterator X)) := by
  intro s hfail
  rcases startIter_outcome ds.getIter s with ⟨i, -, hout⟩ | ⟨e', herror, hout⟩ <;> rw [hout] at hfail
  · cases hfail
  · obtain rfl := Ctl.fail.inj hfail
    exact (Dataset.initData_error herror).elim he he'

theorem spares_advanceIter (he : e ≠ .assertion) (he' : e ≠ .outOfBounds) : Action.Spares e
    (advanceIter ds.getIter : OpAction (DsLocal DatasetIterator X)) := by
  intro s hfail
  rcases advanceIter_outcome ds.getIter s with ⟨i, -, hout⟩ | ⟨e', herror, hout⟩ <;> rw [hout] at hfail
  · cases hfail
  · obtain rfl := Ctl.fail.inj hfail
    exact (Dataset.initData_error herror).elim he he'

theorem spares_lookupCollection (h : o.Routable) : Action.Spares .divisionByZero
    (lookupCollection ds.getIter o : OpAction (DsLocal DatasetIterator X)) := by
  intro s hfail
  rcases lookupCollection_outcome ds.getIter o s with ⟨c, -, hout⟩ | ⟨e, herror, hout⟩ <;>
    rw [hout] at hfail
  · cases hfail
  · obtain rfl := Ctl.fail.inj hfail
    exact h.getCollection_ne_divisionByZero _ herror

theorem spares_submitItem {mk : DocumentId → DatasetIterator → Option ClusterRequest} :
    Action.Spares e
      (submitItem ds.getIter o w mk : OpAction (DsLocal DatasetIterator X)) := by
  intro s hfail
  rcases submitItem_outcome ds.getIter o w s mk with ⟨r, -, hout⟩ | ⟨-, hout⟩ <;>
    rw [hout] at hfail <;> cases hfail

/-- The loop the operations share. -/
theorem dsOp_not_dead (h : o.Routable) {options : ResultOptions}
    {checks : List (OpAction (DsLocal DatasetIterator Unit))}
    (hchecks : ∀ a ∈ checks, ∀ s, a s = .next s)
    {mk : DocumentId → DatasetIterator → Option ClusterRequest}
    {c c' : Config (OpState (DsLocal DatasetIterator Unit)) Crash}
    (hc : (dsOp ds.getIter o w options checks mk).Reaches cancelCurrent c c')
    (hlive : c.pos ≠ .dead .divisionByZero) : c'.pos ≠ .dead .divisionByZero := by
  have hchecks' : ∀ a ∈ checks, Action.Spares .divisionByZero a := fun a ha s hfail => by
    rw [hchecks a ha s] at hfail
    cases hfail
  refine hc.not_dead ?_ ?_ ?_ hlive
  · simp only [dsOp, List.forall_mem_cons, List.forall_mem_append]
    exact ⟨.of_next fun _ => ⟨_, rfl⟩, .of_next fun _ => ⟨_, rfl⟩, hchecks',
      spares_startIter (by simp) (by simp), by simp⟩
  · simp only [dsOp, List.forall_mem_cons]
    exact ⟨spares_lookupCollection h, .of_next fun _ => ⟨_, rfl⟩, spares_submitItem,
      .of_next fun _ => ⟨_, rfl⟩, spares_drain _, spares_delay,
      spares_advanceIter (by simp) (by simp), by simp⟩
  · simp only [dsOp, List.forall_mem_cons]
    exact ⟨spares_collectResult, spares_drain _, by simp⟩

theorem loader_not_dead (h : o.Routable)
    {c c' : Config (OpState (DsLocal DatasetIterator BatchVars)) Crash}
    (hc : (loader ds.getIter o w).Reaches cancelCurrent c c')
    (hlive : c.pos ≠ .dead .divisionByZero) : c'.pos ≠ .dead .divisionByZero := by
  refine hc.not_dead ?_ ?_ ?_ hlive
  · simp only [loader, List.forall_mem_singleton]
    exact spares_startIter (by simp) (by simp)
  · simp only [loader, List.forall_mem_cons]
    exact ⟨spares_lookupCollection h, spares_submitItem, spares_checkBatch, spares_drain _,
      spares_endBatch, spares_advanceIter (by simp) (by simp), .of_next fun _ => ⟨_, rfl⟩, by simp⟩
  · simp only [loader, List.forall_mem_cons]
    exact ⟨.of_next fun _ => ⟨_, rfl⟩, spares_drain _, by simp⟩

theorem viewLoader_not_dead (h : o.Routable) {options : ResultOptions}
    {c c' : Config (OpState (DsLocal DatasetIterator ViewVars)) Crash}
    (hc : (viewLoader ds.getIter o w options).Reaches cancelCurrent c c')
    (hlive : c.pos ≠ .dead .divisionByZero) : c'.pos ≠ .dead .divisionByZero := by
  refine hc.not_dead ?_ ?_ ?_ hlive
  · simp only [viewLoader, List.forall_mem_cons]
    exact ⟨.of_next fun _ => ⟨_, rfl⟩, .of_next fun _ => ⟨_, rfl⟩,
      spares_startIter (by simp) (by simp), by simp⟩
  · simp only [viewLoader, List.forall_mem_cons]
    exact ⟨spares_addValue (by simp), .of_next fun _ => ⟨_, rfl⟩, spares_flushSend h,
      spares_flushCollect, spares_flushClear, spares_advanceIter (by simp) (by simp),
      .of_next fun _ => ⟨_, rfl⟩, by simp⟩
  · simp only [viewLoader, List.forall_mem_cons]
    exact ⟨.of_next fun _ => ⟨_, rfl⟩, spares_flushSend h, spares_flushCollect, by simp⟩

omit [JsonAccess] [JsonWriter] in
theorem start_not_dead {op : Operation} {ses : Session} {e : Crash} :
    (op.start ses).pos ≠ .dead e := by
  simp [Operation.start, Config.start]

/-- No operation on a dataset divides by zero, if there are collections for its keys. -/
theorem dsOperation_not_dead {h : Handle} {req : Request} {opts : ResultOptions} {op : Operation}
    (hop : dsOperation h w req ds opts = some op) (hroutable : h.options.Routable)
    {c : Config (OpState op.L) Crash}
    (hc : op.prog.Reaches cancelCurrent (op.start (h.session .new)) c) :
    c.pos ≠ .dead .divisionByZero := by
  cases dsOperation_kind hop with
  | items checks mk hchecks _ _ => exact dsOp_not_dead hroutable hchecks hc start_not_dead
  | subdoc _ => exact dsOp_not_dead hroutable (by simp) hc start_not_dead
  | load _ => exact loader_not_dead hroutable hc start_not_dead
  | viewLoad _ => exact viewLoader_not_dead hroutable hc start_not_dead

end Datasets

/-! ## Queries -/

/-- The `Count` of a search among preloaded documents is not zero modulo `2 ^ 31`, that of an analytics
query not zero modulo `2 ^ 32`. A search whose consistency is no string does not come to its `Count`. -/
structure ModuliNonzero [JsonAccess] (req : Request) : Prop where
  preloaded : req.command.code = .cbFtsQuery → (req.payload.get "FTSConsistency").isString = true →
    ¬ AtPlus req → ¬ (2 ^ 31 : ℤ) ∣ asInt64 (req.payload.get "Count")
  analytics : req.command.code = .cbAsQuery → ¬ (2 ^ 32 : ℤ) ∣ asInt64 (req.payload.get "Count")

theorem toInt_two_mul_eq_zero_iff (count : ℤ) :
    toInt (2 * toInt (toUInt count)) = 0 ↔ (2 ^ 31 : ℤ) ∣ count := by
  simp only [toInt, toUInt, Int.bmod_def]
  omega

theorem toUInt_eq_zero_iff (count : ℤ) : toUInt count = 0 ↔ (2 ^ 32 : ℤ) ∣ count := by
  unfold toUInt
  omega

theorem nextPreloaded_error_iff (count generator : ℤ) {e : Crash} :
    nextPreloaded (toInt (toUInt count)) generator = .error e ↔
      (2 ^ 31 : ℤ) ∣ count ∧ e = .divisionByZero := by
  rw [← toInt_two_mul_eq_zero_iff]
  unfold nextPreloaded
  dsimp only
  split_ifs with hzero
  · simp [hzero, eq_comm]
  · simp [hzero]

theorem nextAnalytics_error_iff (count generator : ℤ) {e : Crash} :
    nextAnalytics (toUInt count) generator = .error e ↔ (2 ^ 32 : ℤ) ∣ count ∧ e = .divisionByZero := by
  rw [← toUInt_eq_zero_iff]
  unfold nextAnalytics
  split_ifs with hzero
  · simp [hzero, eq_comm]
  · simp [hzero]

section Queries

variable [JsonAccess] [JsonWriter] {o : HandleOptions} {w : World} {req : Request}

theorem spares_insertDoc (h : o.Routable) (hid : ℕ) :
    Action.Spares .divisionByZero (insertDoc o hid w) := by
  intro s
  unfold insertDoc
  split
  · next e herror =>
    intro hfail
    obtain rfl := Ctl.fail.inj hfail
    cases Dataset.pairParams_error_eq herror
  · dsimp only
    split
    · next e herror =>
      intro hfail
      obtain rfl := Ctl.fail.inj hfail
      exact h.getCollection_ne_divisionByZero _ herror
    · simp

theorem spares_runSearchUnderAtPlusConsistency (h : o.Routable) :
    Action.Spares .divisionByZero (runSearchUnderAtPlusConsistency o w req) := by
  intro s
  unfold runSearchUnderAtPlusConsistency
  dsimp only
  split
  · next e herror =>
    intro hfail
    obtain rfl := Ctl.fail.inj hfail
    exact h.getCollection_ne_divisionByZero _ herror
  · split_ifs <;> simp

theorem spares_runSearchOnPreloadedData {kvCount : ℤ} {e : Crash}
    (h : ∀ generator, nextPreloaded kvCount generator ≠ .error e) :
    Action.Spares e (runSearchOnPreloadedData w req kvCount) := by
  intro s
  unfold runSearchOnPreloadedData
  split
  · next e' herror =>
    intro hfail
    obtain rfl := Ctl.fail.inj hfail
    exact h _ herror
  · simp

theorem spares_search (h : o.Routable) (hcode : req.command.code = .cbFtsQuery)
    (hstring : (req.payload.get "FTSConsistency").isString = true)
    (hcount : ModuliNonzero req) : Action.Spares .divisionByZero (search o w req) := by
  intro s
  unfold search
  split_ifs with hplus
  · exact spares_runSearchUnderAtPlusConsistency h s
  · exact spares_runSearchOnPreloadedData (fun generator herror =>
      hcount.preloaded hcode hstring hplus ((nextPreloaded_error_iff _ _).mp herror).1) s

omit [JsonAccess] [JsonWriter] in
theorem spares_checkConsistency {L : Type*} {e : Crash} (he : e ≠ .assertion) :
    Action.Spares e (checkConsistency req : OpAction L) := by
  intro s hfail
  rcases checkConsistency_outcome req s with ⟨-, hout⟩ | ⟨-, hout⟩
  · cases hout.symm.trans hfail
  · exact he (Ctl.fail.inj (hfail.symm.trans hout))

/-- Where a search stands whose consistency is no string: it does not come to its loop. -/
def unsearchedAssertion (pos : Pos Crash) (_ : ℕ) (_ : OpState SearchVars) : Prop :=
  match pos with
  | .pre k => k < 3
  | .dead e => e = .assertion
  | _ => False

theorem executeFTS_unsearched (hno : (req.payload.get "FTSConsistency").isString = false) :
    (executeFTS o w req).Outline cancelCurrent unsearchedAssertion where
  action := by
    intro here there a r s ha h
    match here, h with
    | .pre 0, _ =>
      cases ha
      exact (by decide : 1 < 3)
    | .pre 1, _ =>
      cases ha
      exact (by decide : 2 < 3)
    | .pre 2, _ =>
      cases ha
      rcases checkConsistency_outcome req s with ⟨hyes, -⟩ | ⟨-, hout⟩
      · cases hno.symm.trans hyes
      · rw [hout]
        rfl
  pre_end := fun _ _ _ hk h => absurd h (Nat.not_lt.mpr hk)
  enter := fun _ _ _ h => h
  leave := fun _ _ _ h => h
  body_end := fun _ _ _ _ h => h
  post_end := fun _ _ _ _ h => h
  stable := fun _ _ _ h => h

omit [JsonWriter] in
theorem spares_nextGenerator (hcode : req.command.code = .cbAsQuery) (hcount : ModuliNonzero req) :
    Action.Spares .divisionByZero (nextGenerator req) := by
  intro s
  unfold nextGenerator
  split
  · simp
  · next e herror =>
    exact absurd ((nextAnalytics_error_iff _ _).mp herror).1 (hcount.analytics hcode)

omit [JsonWriter] in
/-- A view query divides by nothing and looks up nothing. -/
theorem executeView_not_dead {options : ResultOptions} {c c' : Config (OpState ViewQueryVars) Crash}
    {e : Crash} (hc : (executeView o w req options).Reaches cancelCurrent c c') (hlive : c.pos ≠ .dead e) :
    c'.pos ≠ .dead e := by
  refine hc.not_dead ?_ ?_ (by simp [executeView]) hlive
  · simp only [executeView, List.forall_mem_cons]
    refine ⟨.of_next fun _ => ⟨_, rfl⟩, fun s => ?_, .of_next fun _ => ⟨_, rfl⟩, by simp⟩
    unfold checkNames
    split_ifs <;> simp
  · simp only [executeView, List.forall_mem_cons]
    refine ⟨.of_next fun _ => ⟨_, rfl⟩, .of_next fun _ => ⟨_, rfl⟩, .of_next fun _ => ⟨_, rfl⟩,
      fun s => ?_, by simp⟩
    obtain ⟨loc, hout | hout⟩ := countDown_outcome s <;> rw [hout] <;> simp

theorem executeN1QL_not_dead (h : o.Routable) {hid : ℕ} {c c' : Config (OpState N1QLVars) Crash}
    (hc : (executeN1QL o hid w req).Reaches cancelCurrent c c')
    (hlive : c.pos ≠ .dead .divisionByZero) : c'.pos ≠ .dead .divisionByZero := by
  refine hc.not_dead ?_ ?_ (by simp [executeN1QL]) hlive
  · simp only [executeN1QL, List.forall_mem_cons]
    exact ⟨.of_next fun _ => ⟨_, rfl⟩, .of_next fun _ => ⟨_, rfl⟩, by simp⟩
  · simp only [executeN1QL, List.forall_mem_cons]
    exact ⟨.of_next fun _ => ⟨_, rfl⟩, spares_insertDoc h hid, .of_next fun _ => ⟨_, rfl⟩,
      .of_next fun _ => ⟨_, rfl⟩, by simp⟩

theorem executeFTS_not_dead {e : Crash} (he : e ≠ .assertion)
    (hsearch : (req.payload.get "FTSConsistency").isString = true → Action.Spares e (search o w req))
    {ses : Session} {c : Config (OpState SearchVars) Crash}
    (hc : (executeFTS o w req).Reaches cancelCurrent (.start ⟨ses, ⟨0⟩⟩) c) : c.pos ≠ .dead e := by
  cases hstring : (req.payload.get "FTSConsistency").isString with
  | false =>
    intro hdead
    exact he (((executeFTS_unsearched hstring).sound hc (by decide : 0 < 3)).of_pos hdead)
  | true =>
    refine hc.not_dead ?_ ?_ (by simp [executeFTS]) (by simp [Config.start])
    · simp only [executeFTS, List.forall_mem_cons]
      exact ⟨.of_next fun _ => ⟨_, rfl⟩, .of_next fun _ => ⟨_, rfl⟩, spares_checkConsistency he, by simp⟩
    · simp only [executeFTS, List.forall_mem_cons]
      exact ⟨.of_next fun _ => ⟨_, rfl⟩, hsearch hstring, by simp⟩

omit [JsonWriter] in
theorem executeCBAS_not_dead {e : Crash} (hnext : Action.Spares e (nextGenerator req))
    {c c' : Config (OpState SearchVars) Crash}
    (hc : (executeCBAS o w req).Reaches cancelCurrent c c') (hlive : c.pos ≠ .dead e) :
    c'.pos ≠ .dead e := by
  refine hc.not_dead ?_ ?_ (by simp [executeCBAS]) hlive
  · simp only [executeCBAS, List.forall_mem_cons]
    exact ⟨.of_next fun _ => ⟨_, rfl⟩, .of_next fun _ => ⟨_, rfl⟩, by simp⟩
  · simp only [executeCBAS, List.forall_mem_cons]
    exact ⟨.of_next fun _ => ⟨_, rfl⟩, .of_next fun _ => ⟨_, rfl⟩, hnext, by simp⟩

/-- No query divides by zero, if there are collections and the `Count` of the request makes moduli. -/
theorem queryOperation_not_dead {h : Handle} {opts : ResultOptions} {op : Operation}
    (hop : queryOperation h w req opts = some op) (hroutable : h.options.Routable)
    (hcount : ModuliNonzero req) {c : Config (OpState op.L) Crash}
    (hc : op.prog.Reaches cancelCurrent (op.start (h.session .new)) c) :
    c.pos ≠ .dead .divisionByZero := by
  cases queryOperation_kind hop with
  | view _ => exact executeView_not_dead hc start_not_dead
  | n1ql _ => exact executeN1QL_not_dead hroutable hc start_not_dead
  | fts hcode =>
    have hne : Crash.divisionByZero ≠ .assertion := by decide
    exact executeFTS_not_dead hne (spares_search hroutable hcode · hcount) hc
  | cbas hcode => exact executeCBAS_not_dead (spares_nextGenerator hcode hcount) hc start_not_dead

/-! ### Queries that divide -/

/-- A full-text query whose first search fails ends the process. -/
theorem executeFTS_dies {e : Crash} (hstring : (req.payload.get "FTSConsistency").isString = true)
    (hfail : ∀ s, s.loc = ⟨0⟩ → search o w req s = .fail e) (ses : Session) :
    ∃ n, ((executeFTS o w req).run cancelCurrent (fun _ => false) (.start ⟨ses, ⟨0⟩⟩) n).pos =
      .dead e := by
  let s₀ : OpState SearchVars := ⟨{ ses.clearResults with doCancel := false }, ⟨0⟩⟩
  let s₁ : OpState SearchVars := { s₀ with ses := s₀.ses.markBegin w }
  have hcheck : checkConsistency req s₀ = .next s₀ := by
    rcases checkConsistency_outcome req s₀ with ⟨-, hout⟩ | ⟨hno, -⟩
    · exact hout
    · cases hno.symm.trans hstring
  have hsteps : Relation.ReflTransGen (fun c c' => (executeFTS o w req).step c = some c')
      (.start ⟨ses, ⟨0⟩⟩) ⟨.dead e, s₁, 1⟩ :=
    .head (b := ⟨.pre 1, ⟨ses.clearResults, ⟨0⟩⟩, 0⟩) rfl <|
    .head (b := ⟨.pre 2, s₀, 0⟩) rfl <|
    .head (b := ⟨.pre 3, s₀, 0⟩) (Prog.step_of_next rfl hcheck) <|
    .head (b := ⟨.test, s₀, 0⟩) rfl <|
    .head (b := ⟨.body 0, s₀, 1⟩) rfl <|
    .head (b := ⟨.body 1, s₁, 1⟩) rfl <|
    .single (Prog.step_of_fail rfl (hfail s₁ rfl))
  obtain ⟨n, hn⟩ := Prog.exists_run_of_steps cancelCurrent hsteps
  exact ⟨n, by rw [hn]⟩

omit [JsonWriter] in
/-- So does an analytics query whose first step of the generator fails. -/
theorem executeCBAS_dies {e : Crash} (hfail : ∀ s, nextGenerator req s = .fail e) (ses : Session) :
    ∃ n, ((executeCBAS o w req).run cancelCurrent (fun _ => false) (.start ⟨ses, ⟨0⟩⟩) n).pos =
      .dead e := by
  let s₀ : OpState SearchVars := ⟨{ ses.clearResults with doCancel := false }, ⟨0⟩⟩
  let s₁ : OpState SearchVars := { s₀ with ses := s₀.ses.markBegin w }
  let answer := s₁.ses.execute w (.analytics o.bucket (cbasStatement o 0)
    (if o.useCollections then some "0" else none))
  let s₂ : OpState SearchVars := { s₁ with ses := answer.2.setRescodeFinal w answer.1 true }
  have hsteps : Relation.ReflTransGen (fun c c' => (executeCBAS o w req).step c = some c')
      (.start ⟨ses, ⟨0⟩⟩) ⟨.dead e, s₂, 1⟩ :=
    .head (b := ⟨.pre 1, ⟨ses.clearResults, ⟨0⟩⟩, 0⟩) rfl <|
    .head (b := ⟨.pre 2, s₀, 0⟩) rfl <|
    .head (b := ⟨.test, s₀, 0⟩) rfl <|
    .head (b := ⟨.body 0, s₀, 1⟩) rfl <|
    .head (b := ⟨.body 1, s₁, 1⟩) rfl <|
    .head (b := ⟨.body 2, s₂, 1⟩) rfl <|
    .single (Prog.step_of_fail rfl (hfail s₂))
  obtain ⟨n, hn⟩ := Prog.exists_run_of_steps cancelCurrent hsteps
  exact ⟨n, by rw [hn]⟩

theorem runSearchOnPreloadedData_fail {kvCount : ℤ} {s : OpState SearchVars} {e : Crash}
    (h : nextPreloaded kvCount s.loc.generator = .error e) :
    runSearchOnPreloadedData w req kvCount s = .fail e := by
  unfold runSearchOnPreloadedData
  rw [h]

/-- A search among preloaded documents with a `Count` that makes no modulus. -/
theorem search_fail (hpreloaded : ¬ AtPlus req)
    (hcount : (2 ^ 31 : ℤ) ∣ asInt64 (req.payload.get "Count")) (s : OpState SearchVars) :
    search o w req s = .fail .divisionByZero := by
  unfold search
  rw [if_neg hpreloaded]
  exact runSearchOnPreloadedData_fail ((nextPreloaded_error_iff _ _).mpr ⟨hcount, rfl⟩)

omit [JsonWriter] in
theorem nextGenerator_fail (hcount : (2 ^ 32 : ℤ) ∣ asInt64 (req.payload.get "Count"))
    (s : OpState SearchVars) : nextGenerator req s = .fail .divisionByZero := by
  unfold nextGenerator
  rw [(nextAnalytics_error_iff _ _).mpr ⟨hcount, rfl⟩]

/-- A search behind an upsert whose key has no collection. -/
theorem search_fail_of_getCollection (hplus : AtPlus req)
    {s : OpState SearchVars} {e : Crash} (h : o.getCollection (searchKey w s.loc.generator) = .error e) :
    search o w req s = .fail e := by
  unfold search
  rw [if_pos hplus]
  unfold runSearchUnderAtPlusConsistency
  dsimp only
  rw [h]

end Queries

end Sdkd
