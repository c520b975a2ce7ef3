import Sdkd.DsOps
import Sdkd.Loaders
import Sdkd.Queries

/-!
# The operations of a handle

The operation each command selects, and what a CANCEL does to it. The control thread raises the cancel
flag at some moment of a run; the operation lowers it once, while it starts up.

## Main definitions

- `dsOperation`, `queryOperation` — the arms of the `switch` of `processRequest`
- `resetIndex` — the action of an operation's prologue that lowers the flag

## Main results

- `Operation.cancel_effective` — no round starts after a CANCEL that comes behind the reset
- `dsGet_cancel_lost` — a CANCEL that comes before the reset is lost
-/

namespace Sdkd

open LoopProg

/-- What a handle keeps between two requests. -/
structure Handle where
  options : HandleOptions
  hid : ℕ
  doCancel : Bool
  pending : List ErrorCode

/-- The session an operation on the handle starts with. -/
def Handle.session (h : Handle) (rs : ResultSet) : Session where
  doCancel := h.doCancel
  pending := h.pending
  rs := rs
  draining := false
  cursor := 0
  sent := []
  clockReads := 0
  randReads := 0

/-- An operation and the values its local variables start with. -/
structure Operation where
  L : Type
  prog : OpProg L
  loc : L

def Operation.start (op : Operation) (ses : Session) : Config (OpState op.L) Crash :=
  .start ⟨ses, op.loc⟩

section Switch

variable [JsonAccess] [JsonWriter] (h : Handle) (w : World) (req : Request)

/-- The commands that run without a dataset. -/
def Code.needsDs : Code → Bool
  | .cbViewQuery | .cbN1qlQuery | .cbN1qlCreateIndex | .cbFtsQuery | .cbAsQuery => false
  | _ => true

/-- The arms of the switch that use the dataset. -/
def dsOperation (ds : Dataset) (opts : ResultOptions) : Option Operation :=
  let it := ds.getIter
  let o := h.options
  let l : DsLocal DatasetIterator Unit := ⟨Dataset.newIterator, ("", ""), ()⟩
  let l' : DsLocal DatasetIterator BatchVars := ⟨Dataset.newIterator, ("", ""), .start⟩
  match req.command.code with
  | .mcDsDelete | .mcDsTouch => some ⟨_, dsKeyop it o w opts req.command.code, l⟩
  | .mcDsMutateAdd | .mcDsMutateReplace | .mcDsMutateAppend | .mcDsMutatePrepend
  | .mcDsMutateSet => some ⟨_, dsMutate it o w opts req.command.code, l⟩
  | .mcDsGet => some ⟨_, dsGet it o w opts, l⟩
  | .mcDsSdRun => some ⟨_, dsSDSinglePath it o w opts, l⟩
  | .mcDsSdLoad => some ⟨_, sdLoader it o w, l'⟩
  | .cbViewLoad =>
    some ⟨_, viewLoader it o w opts,
      ⟨Dataset.newIterator, ("", ""), .start (req.payload.get "Schema")⟩⟩
  | .cbN1qlLoad => some ⟨_, n1qlLoader it o w, l'⟩
  | .cbFtsLoad => some ⟨_, ftsLoader it o w, l'⟩
  | .cbAsLoad => some ⟨_, cbasLoader it o w, l'⟩
  | _ => none

/-- The arms of the switch that do not. -/
def queryOperation (opts : ResultOptions) : Option Operation :=
  let o := h.options
  match req.command.code with
  | .cbViewQuery => some ⟨_, executeView o w req opts, .start req⟩
  | .cbN1qlQuery => some ⟨_, executeN1QL o h.hid w req, .start h.hid req⟩
  | .cbFtsQuery => some ⟨_, executeFTS o w req, ⟨0⟩⟩
  | .cbAsQuery => some ⟨_, executeCBAS o w req, ⟨0⟩⟩
  | _ => none

/-- What an operation without a dataset is. -/
inductive QueryKind (opts : ResultOptions) : Operation → Prop where
  | view (hcode : req.command.code = .cbViewQuery) :
      QueryKind opts ⟨_, executeView h.options w req opts, .start req⟩
  | n1ql (hcode : req.command.code = .cbN1qlQuery) :
      QueryKind opts ⟨_, executeN1QL h.options h.hid w req, .start h.hid req⟩
  | fts (hcode : req.command.code = .cbFtsQuery) :
      QueryKind opts ⟨_, executeFTS h.options w req, ⟨0⟩⟩
  | cbas (hcode : req.command.code = .cbAsQuery) :
      QueryKind opts ⟨_, executeCBAS h.options w req, ⟨0⟩⟩

variable {h w req} in
theorem queryOperation_kind {opts : ResultOptions} {op : Operation}
    (hop : queryOperation h w req opts = some op) : QueryKind h w req opts op := by
  unfold queryOperation at hop
  dsimp only at hop
  split at hop
  case h_5 => cases hop
  all_goals
    rename_i hcode
    obtain rfl := Option.some.inj hop
  case h_1 => exact .view hcode
  case h_2 => exact .n1ql hcode
  case h_3 => exact .fts hcode
  case h_4 => exact .cbas hcode

end Switch

/-- `processRequest` runs the operation `op` for the request. -/
def Selects [JsonAccess] [JsonWriter] (h : Handle) (w : World) (req : Request) (opts : ResultOptions)
    (op : Operation) : Prop :=
  if req.command.code.needsDs then ∃ ds, dsOperation h w req ds opts = some op
  else queryOperation h w req opts = some op

/-! ## Cancellation -/

/-- The position of `do_cancel = false` in the prologue of the operation a command selects, for the
operations whose loop test looks at the flag. -/
def resetIndex : Code → Option ℕ
  | .mcDsDelete | .mcDsTouch | .mcDsMutateAdd | .mcDsMutateReplace | .mcDsMutateAppend
  | .mcDsMutatePrepend | .mcDsMutateSet | .mcDsGet | .mcDsSdRun => some 1
  | .cbViewQuery => some 2
  | .cbN1qlQuery | .cbFtsQuery | .cbAsQuery => some 1
  | _ => none

/-- `do_cancel`. -/
def cancelFlag {L : Type*} (s : OpState L) : Bool := s.ses.doCancel

section Keeps

variable {L ι X : Type*} {it : IterOps ι} {o : HandleOptions} {w : World}

theorem keeps_markBegin : (markBegin w : OpAction L).Keeps cancelFlag := fun _ => rfl

theorem keeps_postsubmit : (postsubmit : OpAction L).Keeps cancelFlag := fun _ => rfl

theorem keeps_drain {handler : ErrorCode → OpState L → OpState L}
    (hh : ∀ ec s, cancelFlag (handler ec s) = cancelFlag s) : (drain handler).Keeps cancelFlag := by
  intro s
  rcases drain_outcome handler s with ⟨-, hout⟩ | ⟨ec, -, -, hout⟩ | ⟨-, -, hout⟩ <;> rw [hout]
  · rfl
  · exact hh _ _
  · rfl

theorem keeps_delay : (delay w : OpAction L).Keeps cancelFlag := by
  intro s
  obtain ⟨draws, hout⟩ := delay_outcome w s
  rw [hout]
  rfl

theorem keeps_collectResult : (collectResult : OpAction L).Keeps cancelFlag := by
  intro s
  rcases collectResult_outcome s with ⟨-, hout⟩ | ⟨-, hout⟩ <;> rw [hout] <;> rfl

theorem keeps_startIter : (startIter it : OpAction (DsLocal ι X)).Keeps cancelFlag := by
  intro s
  rcases startIter_outcome it s with ⟨i, -, hout⟩ | ⟨e, -, hout⟩ <;> rw [hout]
  · rfl
  · trivial

theorem keeps_advanceIter : (advanceIter it : OpAction (DsLocal ι X)).Keeps cancelFlag := by
  intro s
  rcases advanceIter_outcome it s with ⟨i, -, hout⟩ | ⟨e, -, hout⟩ <;> rw [hout]
  · rfl
  · trivial

theorem keeps_lookupCollection :
    (lookupCollection it o : OpAction (DsLocal ι X)).Keeps cancelFlag := by
  intro s
  rcases lookupCollection_outcome it o s with ⟨c, -, hout⟩ | ⟨e, -, hout⟩ <;> rw [hout]
  · rfl
  · trivial

theorem keeps_submitItem {mk : DocumentId → ι → Option ClusterRequest} :
    (submitItem it o w mk : OpAction (DsLocal ι X)).Keeps cancelFlag := by
  intro s
  rcases submitItem_outcome it o w s mk with ⟨r, -, hout⟩ | ⟨-, hout⟩ <;> rw [hout] <;> rfl

theorem keeps_checkMutation {cmd : Code} :
    (checkMutation cmd : OpAction (DsLocal ι Unit)).Keeps cancelFlag := by
  intro s
  unfold checkMutation
  split <;> rfl

end Keeps

/-- The flag stops the shared loop of the operations on datasets. -/
theorem dsOp_stopFlag {ι : Type*} (it : IterOps ι) (o : HandleOptions) (w : World)
    (options : ResultOptions) {checks : List (OpAction (DsLocal ι Unit))}
    (hchecks : ∀ a ∈ checks, a.Keeps cancelFlag) (mk : DocumentId → ι → Option ClusterRequest) :
    (dsOp it o w options checks mk).StopFlag cancelCurrent cancelFlag 1 := by
  have hrecord : (drain (recordOutcome w) : OpAction (DsLocal ι Unit)).Keeps cancelFlag :=
    keeps_drain fun _ _ => rfl
  refine .of_keeps ?_ ?_ ?_ ?_ (fun _ _ => rfl)
  · simp only [dsOp, List.drop_succ_cons, List.drop_zero, List.forall_mem_append,
      List.forall_mem_singleton]
    exact ⟨hchecks, keeps_startIter⟩
  · simp only [dsOp, List.forall_mem_cons]
    exact ⟨keeps_lookupCollection, keeps_markBegin, keeps_submitItem, keeps_postsubmit, hrecord,
      keeps_delay, keeps_advanceIter, by simp⟩
  · simp only [dsOp, List.forall_mem_cons]
    exact ⟨keeps_collectResult, hrecord, by simp⟩
  · intro s ht
    simp only [dsOp, itemsLeft, Bool.and_eq_true, Bool.not_eq_true'] at ht
    exact ht.2

theorem stops_of_notCancelled {L : Type*} (s : OpState L) (h : notCancelled s = true) :
    cancelFlag s = false := by
  simpa [notCancelled, cancelFlag] using h

section Executors

variable [JsonAccess] (o : HandleOptions) (hid : ℕ) (w : World) (req : Request)

theorem executeView_stopFlag (options : ResultOptions) :
    (executeView o w req options).StopFlag cancelCurrent cancelFlag 2 := by
  refine .of_keeps ?_ ?_ ?_ stops_of_notCancelled (fun _ _ => rfl)
  · simp [executeView]
  · simp only [executeView, List.forall_mem_cons]
    refine ⟨fun _ => rfl, keeps_markBegin, fun _ => rfl, ?_, by simp⟩
    intro s
    obtain ⟨loc, hout | hout⟩ := countDown_outcome s <;> rw [hout] <;> rfl
  · simp [executeView]

theorem executeCBAS_stopFlag : (executeCBAS o w req).StopFlag cancelCurrent cancelFlag 1 := by
  refine .of_keeps ?_ ?_ ?_ stops_of_notCancelled (fun _ _ => rfl)
  · simp [executeCBAS]
  · simp only [executeCBAS, List.forall_mem_cons]
    refine ⟨keeps_markBegin, fun _ => rfl, ?_, by simp⟩
    intro s
    rcases nextGenerator_outcome req s with ⟨loc, hout⟩ | ⟨e, hout⟩ <;> rw [hout]
    · rfl
    · trivial
  · simp [executeCBAS]

variable [JsonWriter]

theorem executeN1QL_stopFlag :
    (executeN1QL o hid w req).StopFlag cancelCurrent cancelFlag 1 := by
  refine .of_keeps ?_ ?_ ?_ stops_of_notCancelled (fun _ _ => rfl)
  · simp [executeN1QL]
  · simp only [executeN1QL, List.forall_mem_cons]
    refine ⟨fun _ => rfl, ?_, keeps_markBegin, fun _ => rfl, by simp⟩
    intro s
    rcases insertDoc_outcome o hid w s with ⟨r, loc, hout⟩ | ⟨e, hout⟩ <;> rw [hout]
    · rfl
    · trivial
  · simp [executeN1QL]

theorem executeFTS_stopFlag : (executeFTS o w req).StopFlag cancelCurrent cancelFlag 1 := by
  have hsearch : (search o w req).Keeps cancelFlag := by
    intro s
    rcases search_outcome o w req s with ⟨r, loc, hout⟩ | ⟨r, r', loc, hout⟩ | ⟨e, hout⟩ <;> rw [hout]
    · rfl
    · rfl
    · trivial
  have hcheck : (checkConsistency req : OpAction SearchVars).Keeps cancelFlag := by
    intro s
    rcases checkConsistency_outcome req s with ⟨-, hout⟩ | ⟨-, hout⟩ <;> rw [hout]
    · rfl
    · trivial
  refine .of_keeps ?_ ?_ ?_ stops_of_notCancelled (fun _ _ => rfl)
  · simpa [executeFTS] using hcheck
  · simp only [executeFTS, List.forall_mem_cons]
    exact ⟨keeps_markBegin, hsearch, by simp⟩
  · simp [executeFTS]

end Executors

section Cancel

variable [JsonAccess] [JsonWriter] {h : Handle} {w : World} {req : Request} {opts : ResultOptions}
  {op : Operation} {k : ℕ}

/-- Every operation on a dataset that looks at the cancel flag is stopped by it. -/
theorem dsOperation_stopFlag {ds : Dataset} (hop : dsOperation h w req ds opts = some op)
    (hk : resetIndex req.command.code = some k) :
    op.prog.StopFlag cancelCurrent cancelFlag k := by
  unfold dsOperation at hop
  dsimp only at hop
  split at hop
  -- the loaders, and the commands with no operation
  case h_10 | h_11 | h_12 | h_13 | h_14 => simp_all [resetIndex]
  case h_15 => cases hop
  all_goals
    rename_i hcode
    obtain rfl := Option.some.inj hop
    obtain rfl : 1 = k := by simpa [hcode, resetIndex] using hk
  case h_3 | h_4 | h_5 | h_6 | h_7 =>
    exact dsOp_stopFlag _ _ _ _ (by simpa using keeps_checkMutation) _
  all_goals exact dsOp_stopFlag _ _ _ _ (by simp) _

/-- So is every query. -/
theorem queryOperation_stopFlag (hop : queryOperation h w req opts = some op)
    (hk : resetIndex req.command.code = some k) :
    op.prog.StopFlag cancelCurrent cancelFlag k := by
  cases queryOperation_kind hop with
  | view hcode =>
    rw [hcode] at hk
    obtain rfl := Option.some.inj hk
    exact executeView_stopFlag _ _ _ _
  | n1ql hcode =>
    rw [hcode] at hk
    obtain rfl := Option.some.inj hk
    exact executeN1QL_stopFlag _ _ _ _
  | fts hcode =>
    rw [hcode] at hk
    obtain rfl := Option.some.inj hk
    exact executeFTS_stopFlag _ _ _
  | cbas hcode =>
    rw [hcode] at hk
    obtain rfl := Option.some.inj hk
    exact executeCBAS_stopFlag _ _ _

/-- A CANCEL at `c` lets the operation finish the round it is in and start no other, whatever other
CANCELs follow. -/
def Operation.CancelStops (op : Operation) (c : Config (OpState op.L) Crash) : Prop :=
  ∀ c', op.prog.Reaches cancelCurrent (c.interfere cancelCurrent) c' → c'.rounds = c.rounds

/-- A CANCEL that comes behind the operation's own reset of the flag stops the loop, wherever the
operation then stands. -/
theorem Operation.cancel_effective (hop : Selects h w req opts op)
    (hk : resetIndex req.command.code = some k) (c : Config (OpState op.L) Crash)
    (hbehind : c.pos.Behind k) : op.CancelStops c := by
  have hflag : op.prog.StopFlag cancelCurrent cancelFlag k := by
    unfold Selects at hop
    split at hop
    · obtain ⟨ds, hds⟩ := hop
      exact dsOperation_stopFlag hds hk
    · exact queryOperation_stopFlag hop hk
  intro c' hc'
  exact hflag.rounds_eq (c := c.interfere cancelCurrent) hc' hbehind rfl

end Cancel

section Examples

/-- A handle on a bucket without collections. -/
def exampleHandle : Handle := ⟨⟨"host", "", "", "default", false, false, "", 0, 0, 0⟩, 1, false, []⟩

def exampleWorld : World := ⟨fun _ => .success, fun _ => ⟨0, 0⟩, fun _ => 0, "", (false, false)⟩

def exampleDataset : Dataset := ⟨.success, .inline (.array [.string "key1", .string "key2"])⟩

def exampleGet : Request :=
  ⟨1, 1, ⟨"MC_DS_GET", .mcDsGet⟩, .null, .success⟩

def exampleOperation : Operation :=
  ⟨_, @dsGet _ (@Dataset.getIter JsonAccess.plain JsonWriter.compact exampleDataset)
    exampleHandle.options exampleWorld .default, ⟨Dataset.newIterator, ("", ""), ()⟩⟩

theorem exampleGet_selects :
    @Selects JsonAccess.plain JsonWriter.compact exampleHandle exampleWorld exampleGet .default
      exampleOperation :=
  ⟨exampleDataset, rfl⟩

/-- A CANCEL in the first round of a get over two keys. -/
theorem Operation.cancel_effective_get : exampleOperation.CancelStops
    (exampleOperation.prog.run cancelCurrent (fun _ => false)
      (exampleOperation.start (exampleHandle.session .new)) 5) :=
  letI := JsonAccess.plain
  letI := JsonWriter.compact
  cancel_effective exampleGet_selects rfl _ trivial

/-- A CANCEL before the reset of a get over two keys: the get starts its first round all the same. -/
theorem dsGet_cancel_lost : ∃ op,
    @Selects JsonAccess.plain JsonWriter.compact exampleHandle exampleWorld exampleGet .default op ∧
    resetIndex exampleGet.command.code = some 1 ∧
    ¬ op.CancelStops (op.start (exampleHandle.session .new)) := by
  refine ⟨exampleOperation, exampleGet_selects, rfl, fun hstops => ?_⟩
  have hrounds := hstops _ (Prog.reaches_run (fun _ => false) _ 5)
  exact absurd hrounds (by decide)

end Examples

end Sdkd
