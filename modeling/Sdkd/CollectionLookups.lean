import Sdkd.KeyNumbers
import Sdkd.Moduli

/-!
# Collection lookups

Every operation looks up the collections of the keys it sends requests for, and nothing catches what the lookup
throws. An operation whose keys all have a number does not die of it.

## Main definitions

- `QueryKeysLookable` — the condition on the keys of a query

## Main results

- `dsOperation_looks_up`, `queryOperation_looks_up` — no operation dies in a lookup
- `lookups_return_iff` — which keys, and which datasets, have collections
-/

namespace Sdkd

open LoopProg

/-! ## Operations on datasets -/

section Datasets

variable [JsonAccess] [JsonWriter] {X : Type*} {o : HandleOptions} {w : World} {ds : Dataset}

/-- The iterator is one of the dataset. -/
def IterUsed (ds : Dataset) (s : OpState (DsLocal DatasetIterator X)) : Prop :=
  Dataset.Used ds s.loc.iter

/-- It has not come to the end. -/
def IterMore (ds : Dataset) (s : OpState (DsLocal DatasetIterator X)) : Prop :=
  ds.getIter.done s.loc.iter = false

/-- An action that leaves the iterator alone. -/
theorem safe_of_iter {a : OpAction (DsLocal DatasetIterator X)} {e : Crash}
    (hspares : Action.Spares e a) (hiter : ∀ s, (a s).All (·.loc.iter = s.loc.iter)) :
    Action.Safe (IterUsed ds) e a := by
  refine Action.Maintains.safe (fun s hs => (hiter s).imp fun s' heq => ?_) hspares
  unfold IterUsed at hs ⊢
  rwa [heq]

theorem safe_startIter : Action.Safe (IterUsed ds) .uncaughtException
    (startIter ds.getIter : OpAction (DsLocal DatasetIterator X)) := by
  refine Action.Maintains.safe (fun s hs => ?_) (spares_startIter (by simp) (by simp))
  rcases startIter_outcome ds.getIter s with ⟨i, hi, hout⟩ | ⟨e, -, hout⟩ <;> rw [hout]
  · exact .start hs hi
  · trivial

theorem safe_advanceIter : Action.Safe (IterUsed ds) .uncaughtException
    (advanceIter ds.getIter : OpAction (DsLocal DatasetIterator X)) := by
  refine Action.Maintains.safe (fun s hs => ?_) (spares_advanceIter (by simp) (by simp))
  rcases advanceIter_outcome ds.getIter s with ⟨i, hi, hout⟩ | ⟨e, -, hout⟩ <;> rw [hout]
  · exact .advance hs hi
  · trivial

omit [JsonAccess] [JsonWriter] in
theorem iter_drain {handler : ErrorCode → OpState (DsLocal DatasetIterator X) →
      OpState (DsLocal DatasetIterator X)}
    (h : ∀ ec s, (handler ec s).loc.iter = s.loc.iter) (s : OpState (DsLocal DatasetIterator X)) :
    (drain handler s).All (·.loc.iter = s.loc.iter) := by
  rcases drain_outcome handler s with ⟨-, hout⟩ | ⟨ec, -, -, hout⟩ | ⟨-, -, hout⟩ <;> rw [hout]
  · rfl
  · exact h ec s
  · rfl

/-- A lookup for an item that is not the end. -/
theorem lookupCollection_looks_up (hkeys : Dataset.KeysLookable ds.spec)
    (s : OpState (DsLocal DatasetIterator X)) (hs : IterUsed ds s)
    (hmore : IterMore ds s) :
    (lookupCollection ds.getIter o s).All (IterUsed ds) ∧
      lookupCollection ds.getIter o s ≠ .fail .uncaughtException ∧
      ∀ s', lookupCollection ds.getIter o s ≠ .again s' := by
  have hlook := (Dataset.keysLookable_iff ds).mp hkeys _ hs hmore
  rcases lookupCollection_outcome ds.getIter o s with ⟨c, -, hout⟩ | ⟨e, herror, hout⟩ <;> rw [hout]
  · exact ⟨hs, by simp, by simp⟩
  · refine ⟨trivial, fun hfail => ?_, by simp⟩
    obtain rfl := Ctl.fail.inj hfail
    exact hlook.getCollection_ne herror

theorem submitItem_iter {mk : DocumentId → DatasetIterator → Option ClusterRequest}
    (s : OpState (DsLocal DatasetIterator X)) :
    (submitItem ds.getIter o w mk s).All (·.loc.iter = s.loc.iter) := by
  rcases submitItem_outcome ds.getIter o w s mk with ⟨r, -, hout⟩ | ⟨-, hout⟩ <;> rw [hout] <;> rfl

theorem dsOp_looks_up (hkeys : Dataset.KeysLookable ds.spec) {options : ResultOptions}
    {checks : List (OpAction (DsLocal DatasetIterator Unit))}
    (hchecks : ∀ a ∈ checks, ∀ s, a s = .next s)
    {mk : DocumentId → DatasetIterator → Option ClusterRequest}
    {s₀ : OpState (DsLocal DatasetIterator Unit)} {c : Config (OpState (DsLocal DatasetIterator Unit)) Crash}
    (hc : (dsOp ds.getIter o w options checks mk).Reaches cancelCurrent (.start s₀) c)
    (hs₀ : IterUsed ds s₀) :
    c.pos ≠ .dead .uncaughtException := by
  refine hc.not_dead_of_safe (T := IterMore ds) hs₀ rfl ?_ ?_ ?_ (fun s htest => ?_)
    (lookupCollection_looks_up hkeys) (fun _ hs => hs) fun _ hs => hs
  · simp only [dsOp, List.forall_mem_cons, List.forall_mem_append]
    refine ⟨safe_of_iter (.of_next fun _ => ⟨_, rfl⟩) fun _ => rfl,
      safe_of_iter (.of_next fun _ => ⟨_, rfl⟩) fun _ => rfl,
      fun a ha => safe_of_iter (.of_next fun s => ⟨s, hchecks a ha s⟩) fun s => ?_,
      safe_startIter, by simp⟩
    rw [hchecks a ha s]
    rfl
  · simp only [List.forall_mem_cons]
    refine ⟨safe_of_iter (.of_next fun _ => ⟨_, rfl⟩) fun _ => rfl,
      safe_of_iter spares_submitItem submitItem_iter,
      safe_of_iter (.of_next fun _ => ⟨_, rfl⟩) fun _ => rfl,
      safe_of_iter (spares_drain _) (iter_drain fun _ _ => rfl),
      safe_of_iter spares_delay fun s => ?_, safe_advanceIter, by simp⟩
    obtain ⟨draws, hout⟩ := delay_outcome w s
    rw [hout]
    rfl
  · simp only [dsOp, List.forall_mem_cons]
    refine ⟨safe_of_iter spares_collectResult fun s => ?_,
      safe_of_iter (spares_drain _) (iter_drain fun _ _ => rfl), by simp⟩
    rcases collectResult_outcome s with ⟨-, hout⟩ | ⟨-, hout⟩ <;> rw [hout] <;> rfl
  · simp only [dsOp, itemsLeft, Bool.and_eq_true, Bool.not_eq_true'] at htest
    exact htest.1

theorem loader_looks_up (hkeys : Dataset.KeysLookable ds.spec)
    {s₀ : OpState (DsLocal DatasetIterator BatchVars)}
    {c : Config (OpState (DsLocal DatasetIterator BatchVars)) Crash}
    (hc : (loader ds.getIter o w).Reaches cancelCurrent (.start s₀) c)
    (hs₀ : IterUsed ds s₀) :
    c.pos ≠ .dead .uncaughtException := by
  refine hc.not_dead_of_safe (T := IterMore ds) hs₀ rfl ?_ ?_ ?_ (fun s htest => ?_)
    (lookupCollection_looks_up hkeys) (fun _ hs => hs) fun _ hs => hs
  · simp only [loader, List.forall_mem_singleton]
    exact safe_startIter
  · simp only [List.forall_mem_cons]
    refine ⟨safe_of_iter spares_submitItem submitItem_iter,
      safe_of_iter spares_checkBatch fun s => ?_,
      safe_of_iter (spares_drain _) (iter_drain fun _ _ => rfl),
      safe_of_iter spares_endBatch fun s => ?_, safe_advanceIter,
      safe_of_iter (.of_next fun _ => ⟨_, rfl⟩) fun _ => rfl, by simp⟩
    · unfold checkBatch
      split_ifs <;> rfl
    · unfold endBatch
      dsimp only
      split_ifs <;> rfl
  · simp only [loader, List.forall_mem_cons]
    exact ⟨safe_of_iter (.of_next fun _ => ⟨_, rfl⟩) fun _ => rfl,
      safe_of_iter (spares_drain _) (iter_drain fun _ _ => rfl), by simp⟩
  · show ds.getIter.done s.loc.iter = false
    simpa [loader] using htest

/-! ### The view loader -/

/-- The keys in the batch can be looked up. -/
structure ViewReady (ds : Dataset) (s : OpState (DsLocal DatasetIterator ViewVars)) : Prop where
  used : IterUsed ds s
  values : ∀ e ∈ s.loc.extra.values, Lookable e.1

/-- An action that leaves the iterator and the batch alone. -/
theorem safe_of_view {a : OpAction (DsLocal DatasetIterator ViewVars)}
    (hspares : Action.Spares .uncaughtException a) (hview : ∀ s, (a s).All fun s' =>
      s'.loc.iter = s.loc.iter ∧ s'.loc.extra.values = s.loc.extra.values) :
    Action.Safe (ViewReady ds) .uncaughtException a := by
  refine Action.Maintains.safe (fun s hs => (hview s).imp fun s' ⟨hiter, hvalues⟩ => ?_) hspares
  refine ⟨?_, by rw [hvalues]; exact hs.values⟩
  show Dataset.Used ds s'.loc.iter
  rw [hiter]
  exact hs.used

/-- An action that moves the iterator does not touch the batch. -/
theorem safe_of_iter_view {a : OpAction (DsLocal DatasetIterator ViewVars)}
    (hsafe : Action.Safe (IterUsed ds) .uncaughtException a)
    (hvalues : ∀ s, (a s).All fun s' => s'.loc.extra.values = s.loc.extra.values) :
    Action.Safe (ViewReady ds) .uncaughtException a := by
  intro s hs
  obtain ⟨hused, hspares⟩ := hsafe s hs.used
  have hkeep := hvalues s
  refine ⟨?_, hspares⟩
  cases hout : a s <;> rw [hout] at hused hkeep
  case fail => trivial
  all_goals exact ⟨hused, hkeep.symm ▸ hs.values⟩

theorem addValue_ready (hkeys : Dataset.KeysLookable ds.spec)
    (s : OpState (DsLocal DatasetIterator ViewVars)) (hs : ViewReady ds s) (hmore : IterMore ds s) :
    (addValue ds.getIter s).All (ViewReady ds) ∧ addValue ds.getIter s ≠ .fail .uncaughtException ∧
      ∀ s', addValue ds.getIter s ≠ .again s' := by
  have hlook := (Dataset.keysLookable_iff ds).mp hkeys _ hs.used hmore
  rcases addValue_outcome ds.getIter s with ⟨-, hout⟩ | ⟨-, hout⟩ <;> rw [hout]
  · refine ⟨⟨hs.used, ?_⟩, by simp, by simp⟩
    exact List.forall_mem_append.mpr ⟨hs.values, List.forall_mem_singleton.mpr hlook⟩
  · exact ⟨trivial, by simp, by simp⟩

theorem safe_flushSend : Action.Safe (ViewReady ds) .uncaughtException (flushSend o w) := by
  intro s hs
  rcases flushSend_outcome o w s with ⟨-, hout⟩ | ⟨key, value, c, -, -, -, hout⟩ |
    ⟨key, value, e, -, hget, herror, hout⟩ <;> rw [hout]
  · exact ⟨hs, by simp⟩
  · exact ⟨⟨hs.used, hs.values⟩, by simp⟩
  · have hlook : Lookable key := hs.values _ (List.mem_of_getElem? hget)
    refine ⟨trivial, fun hfail => ?_⟩
    obtain rfl := Ctl.fail.inj hfail
    exact hlook.getCollection_ne herror

theorem safe_flushClear : Action.Safe (ViewReady ds) .uncaughtException
    (flushClear : OpAction (DsLocal DatasetIterator ViewVars)) := by
  refine Action.Maintains.safe (fun s hs => ?_) spares_flushClear
  unfold flushClear
  dsimp only
  split_ifs
  · exact ⟨hs.used, by simp [setView]⟩
  · exact hs

omit [JsonAccess] [JsonWriter] in
theorem flushCollect_view (s : OpState (DsLocal DatasetIterator ViewVars)) :
    (flushCollect w s).All fun s' =>
      s'.loc.iter = s.loc.iter ∧ s'.loc.extra.values = s.loc.extra.values := by
  rcases flushCollect_outcome w s with ⟨-, hout⟩ | ⟨ec, rest, -, hout⟩ <;> rw [hout] <;>
    exact ⟨rfl, rfl⟩

theorem viewLoader_looks_up (hkeys : Dataset.KeysLookable ds.spec) {options : ResultOptions}
    {s₀ : OpState (DsLocal DatasetIterator ViewVars)}
    {c : Config (OpState (DsLocal DatasetIterator ViewVars)) Crash}
    (hc : (viewLoader ds.getIter o w options).Reaches cancelCurrent (.start s₀) c)
    (hs₀ : ViewReady ds s₀) :
    c.pos ≠ .dead .uncaughtException := by
  refine hc.not_dead_of_safe (T := IterMore ds) hs₀ rfl ?_ ?_ ?_ (fun s htest => ?_)
    (addValue_ready hkeys) (fun _ hs => ⟨hs.used, hs.values⟩) fun _ hs => hs
  · simp only [viewLoader, List.forall_mem_cons]
    refine ⟨safe_of_view (.of_next fun _ => ⟨_, rfl⟩) fun _ => ⟨rfl, rfl⟩,
      safe_of_view (.of_next fun _ => ⟨_, rfl⟩) fun _ => ⟨rfl, rfl⟩,
      safe_of_iter_view safe_startIter fun s => ?_, by simp⟩
    rcases startIter_outcome ds.getIter s with ⟨i, -, hout⟩ | ⟨e, -, hout⟩ <;> rw [hout] <;> trivial
  · simp only [List.forall_mem_cons]
    refine ⟨safe_of_view (.of_next fun _ => ⟨_, rfl⟩) fun _ => ⟨rfl, rfl⟩, safe_flushSend,
      safe_of_view spares_flushCollect flushCollect_view, safe_flushClear,
      safe_of_iter_view safe_advanceIter fun s => ?_,
      safe_of_view (.of_next fun _ => ⟨_, rfl⟩) fun _ => ⟨rfl, rfl⟩, by simp⟩
    rcases advanceIter_outcome ds.getIter s with ⟨i, -, hout⟩ | ⟨e, -, hout⟩ <;> rw [hout] <;> trivial
  · simp only [viewLoader, List.forall_mem_cons]
    exact ⟨safe_of_view (.of_next fun _ => ⟨_, rfl⟩) fun _ => ⟨rfl, rfl⟩, safe_flushSend,
      safe_of_view spares_flushCollect flushCollect_view, by simp⟩
  · show ds.getIter.done s.loc.iter = false
    simpa [viewLoader] using htest

/-- No operation on a dataset whose keys can all be looked up dies of an exception. -/
theorem dsOperation_looks_up {h : Handle} {req : Request} {opts : ResultOptions} {op : Operation}
    (hop : dsOperation h w req ds opts = some op) (hkeys : Dataset.KeysLookable ds.spec)
    {c : Config (OpState op.L) Crash}
    (hc : op.prog.Reaches cancelCurrent (op.start (h.session .new)) c) :
    c.pos ≠ .dead .uncaughtException := by
  cases dsOperation_kind hop with
  | items checks mk hchecks _ _ => exact dsOp_looks_up hkeys hchecks hc Dataset.Used.new
  | subdoc _ => exact dsOp_looks_up hkeys (by simp) hc Dataset.Used.new
  | load _ => exact loader_looks_up hkeys hc Dataset.Used.new
  | viewLoad _ => exact viewLoader_looks_up hkeys hc ⟨Dataset.Used.new, by simp [ViewVars.start]⟩

end Datasets

/-! ## Queries -/

section Queries

variable [JsonAccess]

/-- The keys a query looks up in its first `rounds` rounds have numbers: the one its client gives the
documents, if it does, and those of the searches behind an upsert, if an `int` counts their characters. -/
structure QueryKeysLookable (w : World) (req : Request) (rounds : ℕ) : Prop where
  n1ql : req.command.code = .cbN1qlQuery → ∀ key ∈ clientKey req, Lookable key
  fts : req.command.code = .cbFtsQuery → AtPlus req →
    ∀ g : ℕ, g < rounds → (searchKey w (toInt g)).length < 2 ^ 31

variable [JsonWriter] {o : HandleOptions} {hid : ℕ} {w : World} {req : Request}

/-- The lists of a N1QL query, in some iteration. -/
structure IterationLists (hid : ℕ) (req : Request) (s : OpState N1QLVars) : Prop where
  params : s.loc.params = paramNames req
  paramValues : ∃ ii, s.loc.paramValues = paramValues hid req ii

omit [JsonWriter] in
/-- The names of the operation have values of their own, so the walk fails where the client's lists do. -/
theorem pairParams_iteration_cases (ii : ℕ) :
    ((Dataset.split (asString (req.payload.get "NQParam"))).length ≤
        (Dataset.split (asString (req.payload.get "NQParamValues"))).length ∧
      Dataset.pairParams (Json.null.set "id" (.string (toString hid))) (paramNames req)
        (paramValues hid req ii) = .ok (iterationDoc hid req ii)) ∨
    ((Dataset.split (asString (req.payload.get "NQParamValues"))).length <
        (Dataset.split (asString (req.payload.get "NQParam"))).length ∧
      Dataset.pairParams (Json.null.set "id" (.string (toString hid))) (paramNames req)
        (paramValues hid req ii) = .error .outOfBounds) := by
  have hnames : (paramNames req).length =
      (Dataset.split (asString (req.payload.get "NQParam"))).length + 2 := List.length_append
  have hvalues : (paramValues hid req ii).length =
      (Dataset.split (asString (req.payload.get "NQParamValues"))).length + 2 := List.length_append
  rcases Nat.lt_or_ge (paramValues hid req ii).length (paramNames req).length with hlt | hle
  · exact .inr ⟨by omega, Dataset.pairParams_error hlt _⟩
  · exact .inl ⟨by omega, Dataset.pairParams_eq hle _⟩

theorem safe_insertDoc (hhid : hid < 2 ^ 64) (hkey : ∀ key ∈ clientKey req, Lookable key) :
    Action.Safe (IterationLists hid req) .uncaughtException (insertDoc o hid w) := by
  rintro s ⟨hparams, ii, hvalues⟩
  unfold insertDoc
  rw [hparams, hvalues]
  rcases pairParams_iteration_cases ii with ⟨hlen, hdoc⟩ | ⟨-, herror⟩
  · rw [hdoc]
    have hlook : Lookable (iterationKey hid req ii) := lookable_iterationKey hhid hkey hlen
    dsimp only
    split
    · next e hfail =>
      refine ⟨trivial, fun heq => ?_⟩
      obtain rfl := Ctl.fail.inj heq
      exact hlook.getCollection_ne hfail
    · exact ⟨⟨hparams, ii, hvalues⟩, by simp⟩
  · rw [herror]
    exact ⟨trivial, by simp⟩

theorem executeN1QL_looks_up (hhid : hid < 2 ^ 64) (hkey : ∀ key ∈ clientKey req, Lookable key)
    {ses : Session} {c : Config (OpState N1QLVars) Crash}
    (hc : (executeN1QL o hid w req).Reaches cancelCurrent (.start ⟨ses, .start hid req⟩) c) :
    c.pos ≠ .dead .uncaughtException := by
  have hkeep : ∀ {a : OpAction N1QLVars}, (∀ s, ∃ s', a s = .next s' ∧
      s'.loc.params = s.loc.params ∧ s'.loc.paramValues = s.loc.paramValues) →
      Action.Safe (IterationLists hid req) .uncaughtException a := by
    intro a ha s hs
    obtain ⟨s', hout, hparams, hvalues⟩ := ha s
    rw [hout]
    exact ⟨⟨hparams.trans hs.params, by rw [hvalues]; exact hs.paramValues⟩, by simp⟩
  refine hc.not_dead_of_safe (P := IterationLists hid req) (T := fun _ => True) ⟨rfl, 0, rfl⟩ rfl
    ?_ ?_ (by simp [executeN1QL]) (fun _ _ => trivial) (fun s hs _ => ?_)
    (fun _ hs => ⟨hs.params, hs.paramValues⟩) fun _ _ => trivial
  · simp only [executeN1QL, List.forall_mem_cons]
    exact ⟨hkeep fun _ => ⟨_, rfl, rfl, rfl⟩, hkeep fun _ => ⟨_, rfl, rfl, rfl⟩, by simp⟩
  · simp only [List.forall_mem_cons]
    exact ⟨safe_insertDoc hhid hkey, hkeep fun _ => ⟨_, rfl, rfl, rfl⟩,
      hkeep fun _ => ⟨_, rfl, rfl, rfl⟩, by simp⟩
  · obtain ⟨ii, hvalues⟩ := hs.paramValues
    refine ⟨⟨hs.params, s.loc.ii, ?_⟩, by simp [setUniqueId], by simp [setUniqueId]⟩
    rw [hvalues, setUniqueId_values]

/-! ### Searches -/

/-- A search among preloaded documents looks up nothing. -/
theorem spares_search_preloaded (hplus : ¬ AtPlus req) :
    Action.Spares .uncaughtException (search o w req) := by
  intro s
  unfold search
  rw [if_neg hplus]
  refine spares_runSearchOnPreloadedData (fun generator herror => ?_) s
  cases ((nextPreloaded_error_iff _ _).mp herror).2

/-- The number of the next search, behind an upsert, grows by one in a round at most. -/
def searchAssertion (w : World) (pos : Pos Crash) (r : ℕ) (s : OpState SearchVars) : Prop :=
  match pos with
  | .pre _ | .test | .body (_ + 2) => ∃ g : ℕ, s.loc.generator = toInt g ∧ g ≤ r
  | .body _ => ∃ g : ℕ, s.loc.generator = toInt g ∧ g < r
  | .dead e => (∀ g : ℕ, g < r → (searchKey w (toInt g)).length < 2 ^ 31) → e ≠ .uncaughtException
  | .post _ | .done => True

theorem search_looks_up {r : ℕ} {s : OpState SearchVars}
    (hplus : AtPlus req) (h : searchAssertion w (.body 1) r s) :
    (search o w req s).Establishes (searchAssertion w · r) (.body 1) (.body 2) s := by
  obtain ⟨g, hg, hlt⟩ := h
  unfold search
  rw [if_pos hplus]
  unfold runSearchUnderAtPlusConsistency
  dsimp only
  rw [hg]
  split
  · next e hfail =>
    intro hshort heq
    have hlook : Lookable (searchKey w (toInt g)) := .inr (numbered_searchKey (hshort g hlt))
    exact hlook.getCollection_ne (heq ▸ hfail)
  · split_ifs
    · exact ⟨g, hg, hlt.le⟩
    · exact ⟨g + 1, by rw [toInt_toInt_add, Nat.cast_succ], hlt⟩

theorem executeFTS_searches (hplus : AtPlus req) :
    (executeFTS o w req).Outline cancelCurrent (searchAssertion w) where
  action := by
    intro here there a r s ha h
    match here, h with
    | .pre 0, h | .pre 1, h | .body 0, h =>
      cases ha
      exact h
    | .pre 2, h =>
      cases ha
      rcases checkConsistency_outcome req s with ⟨-, hout⟩ | ⟨-, hout⟩ <;> rw [hout]
      · exact h
      · exact fun _ => by simp
    | .body 1, h =>
      cases ha
      exact search_looks_up hplus h
    | .pre (k + 3), h | .body (k + 2), h | .post k, h | .test, h | .done, h | .dead e, h => cases ha
  pre_end := fun _ _ _ _ h => h
  enter := fun _ _ _ ⟨g, hg, hle⟩ => ⟨g, hg, Nat.lt_succ_of_le hle⟩
  leave := fun _ _ _ _ => trivial
  body_end := by
    intro k r s hk h
    obtain ⟨k, rfl⟩ := Nat.exists_eq_add_of_le' hk
    exact h
  post_end := fun _ _ _ _ _ => trivial
  stable := by
    intro pos r s h
    match pos, h with
    | .pre _, h | .test, h | .body 0, h | .body 1, h | .body (_ + 2), h | .dead _, h => exact h
    | .post _, _ | .done, _ => trivial

theorem executeFTS_looks_up {c : Config (OpState SearchVars) Crash}
    (hshort : AtPlus req → ∀ g : ℕ, g < c.rounds → (searchKey w (toInt g)).length < 2 ^ 31)
    {ses : Session} (hc : (executeFTS o w req).Reaches cancelCurrent (.start ⟨ses, ⟨0⟩⟩) c) :
    c.pos ≠ .dead .uncaughtException := by
  by_cases hplus : AtPlus req
  · intro hpos
    have hstart : (Config.start ⟨ses, ⟨0⟩⟩ : Config (OpState SearchVars) Crash).Satisfies
        (searchAssertion w) := ⟨0, (toInt_natCast (by decide)).symm, le_rfl⟩
    exact ((executeFTS_searches hplus).sound hc hstart).of_pos hpos (hshort hplus) rfl
  · have hne : Crash.uncaughtException ≠ .assertion := by decide
    exact executeFTS_not_dead hne (fun _ => spares_search_preloaded hplus) hc

/-- No query whose keys can all be looked up dies of an exception. -/
theorem queryOperation_looks_up {h : Handle} {opts : ResultOptions} {op : Operation}
    (hop : queryOperation h w req opts = some op) (hhid : h.hid < 2 ^ 64)
    {c : Config (OpState op.L) Crash}
    (hc : op.prog.Reaches cancelCurrent (op.start (h.session .new)) c)
    (hkeys : QueryKeysLookable w req c.rounds) : c.pos ≠ .dead .uncaughtException := by
  cases queryOperation_kind hop with
  | view _ => exact executeView_not_dead hc start_not_dead
  | n1ql hcode => exact executeN1QL_looks_up hhid (hkeys.n1ql hcode) hc
  | fts hcode => exact executeFTS_looks_up (hkeys.fts hcode) hc
  | cbas _ =>
    refine executeCBAS_not_dead (fun s => ?_) hc start_not_dead
    unfold nextGenerator
    split
    · simp
    · next e herror =>
      intro hfail
      obtain rfl := Ctl.fail.inj hfail
      cases ((nextAnalytics_error_iff _ _).mp herror).2

end Queries

/-! ## All lookups -/

/-- **Lookups.** With at least one scope and one collection, a key has a collection if and only if it is empty or
has a number, the keys of a dataset all have one if and only if its specification is of the kind, and then no
operation dies of an exception, wherever a run of it stands. -/
theorem lookups_return_iff [JsonAccess] [JsonWriter] (h : Handle)
    (huse : h.options.useCollections = true)
    (hscopes : 1 ≤ h.options.scopes) (hcollections : 1 ≤ h.options.collections)
    (hscopes' : h.options.scopes < 2 ^ 32) (hcollections' : h.options.collections < 2 ^ 32)
    (hhid : h.hid < 2 ^ 64) :
    (∀ key, (∃ c, h.options.getCollection key = .ok c) ↔ Lookable key) ∧
    (∀ ds : Dataset, (∀ i, Dataset.Used ds i → ds.getIter.done i = false →
        ∃ c, h.options.getCollection i.curk = .ok c) ↔ Dataset.KeysLookable ds.spec) ∧
    (∀ w req ds opts op, dsOperation h w req ds opts = some op → Dataset.KeysLookable ds.spec →
      ∀ c, op.prog.Reaches cancelCurrent (op.start (h.session .new)) c →
        c.pos ≠ .dead .uncaughtException) ∧
    ∀ w req opts op, queryOperation h w req opts = some op →
      ∀ c, op.prog.Reaches cancelCurrent (op.start (h.session .new)) c →
        QueryKeysLookable w req c.rounds → c.pos ≠ .dead .uncaughtException := by
  have htotal : h.options.collections * h.options.scopes % 2 ^ 64 ≠ 0 := by
    have hpos : 0 < h.options.collections * h.options.scopes := Nat.mul_pos hcollections hscopes
    have hlt : h.options.collections * h.options.scopes < 2 ^ 32 * 2 ^ 32 :=
      Nat.mul_lt_mul'' hcollections' hscopes'
    rw [Nat.mod_eq_of_lt (by omega)]
    exact hpos.ne'
  have hkey : ∀ key, (∃ c, h.options.getCollection key = .ok c) ↔ Lookable key :=
    fun _ => getCollection_ok_iff huse htotal
  refine ⟨hkey, fun ds => ?_, fun w req ds opts op hop hkeys c hc => dsOperation_looks_up hop hkeys hc,
    fun w req opts op hop c hc hkeys => queryOperation_looks_up hop hhid hc hkeys⟩
  simp only [hkey]
  exact (Dataset.keysLookable_iff ds).symm

section Examples

/-- A handle with two scopes of three collections each. -/
def manyHandle : Handle := { exampleHandle with options := .manyCollections }

theorem exampleDataset_lookable :
    letI := JsonAccess.plain
    Dataset.KeysLookable exampleDataset.spec := by
  intro k hk _
  match k, hk with
  | 0, _ =>
    have hshort : "key1".length < 2 ^ 31 := by decide
    exact .inr ((numbered_iff_of_short hshort).mpr ⟨'1', by decide, rfl⟩)
  | 1, _ =>
    have hshort : "key2".length < 2 ^ 31 := by decide
    exact .inr ((numbered_iff_of_short hshort).mpr ⟨'2', by decide, rfl⟩)

theorem lookups_return_example :
    letI := JsonAccess.plain
    letI := JsonWriter.compact
    ((∃ c, manyHandle.options.getCollection "key1" = .ok c) ↔ Lookable "key1") ∧
    ∀ c, (dsGet exampleDataset.getIter manyHandle.options exampleWorld .default).Reaches cancelCurrent
      (.start ⟨manyHandle.session .new, ⟨Dataset.newIterator, ("", ""), ()⟩⟩) c →
      c.pos ≠ .dead .uncaughtException := by
  let := JsonAccess.plain
  let := JsonWriter.compact
  obtain ⟨hkey, -, hdatasets, -⟩ := lookups_return_iff manyHandle rfl (by decide) (by decide) (by decide)
    (by decide) (by decide)
  exact ⟨hkey "key1", fun c hc =>
    hdatasets exampleWorld exampleGet exampleDataset .default _ rfl exampleDataset_lookable c hc⟩

/-- A key without a digit, which a client sends: the lookup throws, and the operation is not ended. -/
theorem wordKey_not_looked_up :
    letI := JsonAccess.plain
    letI := JsonWriter.compact
    (¬ ∃ c, manyHandle.options.getCollection "abc" = .ok c) ∧
    ∃ op, dsOperation manyHandle exampleWorld exampleGet
        ⟨.success, .inline (.array [.string "abc"])⟩ .default = some op ∧
      ∃ c, op.prog.Reaches cancelCurrent (op.start (manyHandle.session .new)) c ∧
        c.pos = .dead .uncaughtException := by
  let := JsonAccess.plain
  let := JsonWriter.compact
  have herror : manyHandle.options.getCollection "abc" = .error .uncaughtException := by decide
  refine ⟨fun ⟨c, hc⟩ => ?_, _, rfl, _, Prog.reaches_run (fun _ => false) _ 6, by decide +kernel⟩
  rw [herror] at hc
  cases hc

end Examples

end Sdkd
