import Sdkd.Items
import Sdkd.Quiet
import Sdkd.Switch
import Sdkd.ViewLoads

/-!
# Cancellation of the loops over datasets

What a loop still does once the cancel flag is up. The four operations on datasets look at it before each
item; the five loaders do not look at it at all and go on to the end of their dataset.

## Main definitions

- `Operation.Looping`, `Operation.CancelEnds`

## Main results

- `cancel_ends` — the operations are ended by the flag, the loaders only if there is nothing left to send
-/

namespace Sdkd

open LoopProg

/-- The loop of the operation has started. -/
def Operation.Looping (op : Operation) (c : Config (OpState op.L) Crash) : Prop :=
  ∀ k, c.pos = .pre k → op.prog.pre.length ≤ k

/-- From `c` on the operation submits at most one more item, and it ends, whatever the control thread
does. -/
def Operation.CancelEnds (op : Operation) (c : Config (OpState op.L) Crash) : Prop :=
  (∀ c', op.prog.Reaches cancelCurrent c c' →
    c'.st.ses.sent.length ≤ c.st.ses.sent.length + 1) ∧
  ∀ sched, ∃ n, (op.prog.run cancelCurrent sched c n).halted

/-- The number of requests sent. -/
def sentCount {L : Type*} (s : OpState L) : ℕ := s.ses.sent.length

theorem sentCount_cancel {L : Type*} (s : OpState L) : sentCount (cancelCurrent s) = sentCount s :=
  rfl

theorem adds_of_quiet {L : Type*} {a : OpAction L} (h : QuietAction a) : Action.Adds sentCount 0 a := by
  intro s
  have hquiet := h s
  cases hout : a s <;> rw [hout] at hquiet
  case fail => trivial
  all_goals exact (congrArg List.length hquiet.sent).le

theorem adds_drain {L : Type*} {handler : ErrorCode → OpState L → OpState L}
    (hh : ∀ ec s, (handler ec s).ses.sent = s.ses.sent) : Action.Adds sentCount 0 (drain handler) := by
  intro s
  rcases drain_outcome handler s with ⟨-, hout⟩ | ⟨ec, -, -, hout⟩ | ⟨-, -, hout⟩ <;> rw [hout]
  · exact le_rfl
  · exact (congrArg List.length (hh ec s)).le
  · exact le_rfl

section Loops

variable {ι : Type*} {it : IterOps ι} {o : HandleOptions} {w : World}

theorem raises_submitItem {X : Type*} (mk : DocumentId → ι → Option ClusterRequest)
    (s : OpState (DsLocal ι X)) :
    ∃ s', submitItem it o w mk s = .next s' ∧ sentCount s' ≤ sentCount s + 1 := by
  rcases submitItem_outcome it o w s mk with ⟨r, -, hout⟩ | ⟨-, hout⟩
  · exact ⟨_, hout, by simp [sentCount, Session.submit]⟩
  · exact ⟨s, hout, Nat.le_succ _⟩

/-! ## The operations on datasets -/

/-- A round sends one request at most. -/
theorem dsOp_sent_le {options : ResultOptions} {checks : List (OpAction (DsLocal ι Unit))}
    (hchecks : ∀ a ∈ checks, ∀ s, a s = .next s) {mk : DocumentId → ι → Option ClusterRequest}
    {c c' : Config (OpState (DsLocal ι Unit)) Crash}
    (h : (dsOp it o w options checks mk).Reaches cancelCurrent c c') :
    c'.st.ses.sent.length + c.rounds ≤ c.st.ses.sent.length + 1 + c'.rounds := by
  have hdue : c.pos.due 2 ≤ 1 := by
    unfold Pos.due
    split
    · split_ifs <;> omega
    · omega
  have hdrain : Action.Adds sentCount 0 (drain (recordOutcome w) : OpAction (DsLocal ι Unit)) :=
    adds_drain fun _ _ => rfl
  have hcount := h.count_le (m := sentCount) (j := 2) ?_ ?_ ?_ ?_ sentCount_cancel
  · simp only [sentCount] at hcount
    omega
  · simp only [dsOp, List.forall_mem_cons, List.forall_mem_append]
    refine ⟨fun _ => le_rfl, adds_of_quiet quiet_resetCancel, fun a ha s => ?_,
      adds_of_quiet quiet_startIter, by simp⟩
    rw [hchecks a ha s]
    exact le_rfl
  · intro k a ha hk
    rcases k with _ | _ | _ | _ | _ | _ | _ | k <;> cases ha
    · exact adds_of_quiet quiet_lookupCollection
    · exact fun _ => le_rfl
    · exact absurd rfl hk
    · exact adds_of_quiet quiet_postsubmit
    · exact hdrain
    · exact adds_of_quiet quiet_delay
    · exact adds_of_quiet quiet_advanceIter
  · simp only [dsOp, List.forall_mem_cons]
    exact ⟨adds_of_quiet quiet_collectResult, hdrain, by simp⟩
  · intro a s ha
    cases ha
    exact raises_submitItem mk s

/-- With the flag up no further round starts, and the rest of the operation comes to an end. -/
theorem dsOp_cancel {options : ResultOptions} {checks : List (OpAction (DsLocal ι Unit))}
    (hchecks : ∀ a ∈ checks, ∀ s, a s = .next s) {mk : DocumentId → ι → Option ClusterRequest}
    {c : Config (OpState (DsLocal ι Unit)) Crash} (hbehind : c.pos.Behind 1)
    (hflag : cancelFlag c.st = true) :
    (∀ c', (dsOp it o w options checks mk).Reaches cancelCurrent c c' →
      c'.st.ses.sent.length ≤ c.st.ses.sent.length + 1) ∧
    ∀ sched, ∃ n, ((dsOp it o w options checks mk).run cancelCurrent sched c n).halted := by
  have hstop : (dsOp it o w options checks mk).StopFlag cancelCurrent cancelFlag 1 :=
    dsOp_stopFlag it o w options (fun a ha s => by rw [hchecks a ha s]; rfl) mk
  refine ⟨fun c' hreach => ?_, fun sched => ?_⟩
  · have hrounds := hstop.rounds_eq hreach hbehind hflag
    have hsent := dsOp_sent_le hchecks hreach
    omega
  · exact hstop.halts (fun _ s => s.ses.pending.length - s.ses.cursor) (fun _ _ => rfl)
      (fun _ _ _ s ha => dsOp_progress hchecks s ha) sched hbehind hflag

theorem behind_of_looping {options : ResultOptions} {checks : List (OpAction (DsLocal ι Unit))}
    {mk : DocumentId → ι → Option ClusterRequest} {pos : Pos Crash}
    (h : ∀ k, pos = .pre k → (dsOp it o w options checks mk).pre.length ≤ k) : pos.Behind 1 := by
  unfold Pos.Behind
  split
  · next k =>
    have hle := h k rfl
    simp only [dsOp, List.length_cons, List.length_append, List.length_nil] at hle
    omega
  · trivial

/-! ## The loaders -/

/-- A round sends one request at most. -/
theorem loader_sent_le {c c' : Config (OpState (DsLocal ι BatchVars)) Crash}
    (h : (loader it o w).Reaches cancelCurrent c c') (hpos : c.pos = .pre 0) :
    c'.st.ses.sent.length + c.rounds ≤ c.st.ses.sent.length + c'.rounds := by
  have hcount := h.count_le (m := sentCount) (j := 1) ?_ ?_ ?_ ?_ sentCount_cancel
  · simp only [sentCount, hpos, Pos.due] at hcount
    omega
  · simp only [loader, List.forall_mem_singleton]
    exact adds_of_quiet quiet_startIter
  · intro k a ha hk
    rcases k with _ | _ | _ | _ | _ | _ | _ | k <;> cases ha
    · exact adds_of_quiet quiet_lookupCollection
    · exact absurd rfl hk
    · exact adds_of_quiet quiet_checkBatch
    · exact adds_drain fun _ _ => rfl
    · exact adds_of_quiet quiet_endBatch
    · exact adds_of_quiet quiet_advanceIter
    · exact adds_of_quiet quiet_countItem
  · simp only [loader, List.forall_mem_cons]
    exact ⟨adds_of_quiet quiet_startDrain, adds_drain fun _ _ => rfl, by simp⟩
  · intro a s ha
    cases ha
    exact raises_submitItem _ s

end Loops

section Datasets

variable [JsonAccess] [JsonWriter] {h : Handle} {w : World} {req : Request} {ds : Dataset}
  {opts : ResultOptions}

/-- On a dataset with an end a loader sends one request for each item at most, and it ends. -/
theorem loader_ends (hfinite : ds.Finite)
    {c : Config (OpState (DsLocal DatasetIterator BatchVars)) Crash}
    (hreach : (loader ds.getIter h.options w).Reaches cancelCurrent
      (.start ⟨h.session .new, ⟨Dataset.newIterator, ("", ""), .start⟩⟩) c) :
    c.st.ses.sent.length ≤ Dataset.getCount ds.spec ∧
    ∀ sched, ∃ n, ((loader ds.getIter h.options w).run cancelCurrent sched c n).halted := by
  have hA : (loader ds.getIter h.options w).Outline cancelCurrent
    (loaderAssertion ds.getIter Dataset.newIterator h.options w .new h.pending) := loader_outline
  have hstart : (Config.start ⟨h.session .new, ⟨Dataset.newIterator, ("", ""), .start⟩⟩ :
      Config (OpState (DsLocal DatasetIterator BatchVars)) Crash).Satisfies
        (loaderAssertion ds.getIter Dataset.newIterator h.options w .new h.pending) :=
    ⟨rfl, rfl, rfl, rfl, rfl, rfl, rfl, rfl⟩
  have hN : ∀ r (s : OpState (DsLocal DatasetIterator BatchVars)), r ≤ Dataset.getCount ds.spec →
      loaderAssertion ds.getIter Dataset.newIterator h.options w .new h.pending .test r s →
      (loader ds.getIter h.options w).test s = true → r < Dataset.getCount ds.spec :=
    fun r s _ hloading htest =>
      Dataset.walked_lt hfinite (Loading.walked hloading) (by simpa [loader] using htest)
  have hrounds := hA.rounds_le hN hreach hstart (Nat.zero_le _)
  refine ⟨?_, fun sched => ?_⟩
  · have hsent := loader_sent_le hreach rfl
    simp only [Config.start, Handle.session, List.length_nil] at hsent
    omega
  · obtain ⟨n, hhalted, -⟩ := hA.halts hN (fun _ s => s.ses.pending.length - s.ses.cursor)
      (fun _ _ => rfl) (fun _ _ _ s ha => loader_progress s ha) sched (hA.sound hreach hstart) hrounds
    exact ⟨n, hhalted⟩

/-- So does the view loader. -/
theorem viewLoader_ends (hfinite : ds.Finite) (schema : Json)
    {c : Config (OpState (DsLocal DatasetIterator ViewVars)) Crash}
    (hreach : (viewLoader ds.getIter h.options w opts).Reaches cancelCurrent
      (.start ⟨h.session .new, ⟨Dataset.newIterator, ("", ""), .start schema⟩⟩) c) :
    c.st.ses.sent.length ≤ Dataset.getCount ds.spec ∧
    ∀ sched, ∃ n, ((viewLoader ds.getIter h.options w opts).run cancelCurrent sched c n).halted := by
  have hA : (viewLoader ds.getIter h.options w opts).Outline cancelCurrent
    (viewAssertion ds.getIter Dataset.newIterator) := viewLoader_outline
  have hstart : (Config.start ⟨h.session .new, ⟨Dataset.newIterator, ("", ""), .start schema⟩⟩ :
      Config (OpState (DsLocal DatasetIterator ViewVars)) Crash).Satisfies
        (viewAssertion ds.getIter Dataset.newIterator) := ⟨rfl, rfl, rfl, rfl, rfl⟩
  have hN : ∀ r (s : OpState (DsLocal DatasetIterator ViewVars)), r ≤ Dataset.getCount ds.spec →
      viewAssertion ds.getIter Dataset.newIterator .test r s →
      (viewLoader ds.getIter h.options w opts).test s = true → r < Dataset.getCount ds.spec :=
    fun r s _ hgathered htest =>
      Dataset.walked_lt hfinite hgathered.2 (by simpa [viewLoader] using htest)
  have hrounds := hA.rounds_le hN hreach hstart (Nat.zero_le _)
  have hsat := hA.sound hreach hstart
  refine ⟨(viewAssertion.sent_le hsat).trans hrounds, fun sched => ?_⟩
  obtain ⟨n, hhalted, -⟩ := hA.halts hN viewMeasure viewMeasure_cancel
    (fun _ _ _ s ha => viewLoader_progress s ha) sched hsat hrounds
  exact ⟨n, hhalted⟩

/-- **Cancellation.** Once the flag is up behind the start of the loop, an operation on a dataset submits
at most one more item and ends. So does a loader if its dataset has an end and at most one item has not
been submitted yet. -/
theorem cancel_ends {op : Operation} (hop : dsOperation h w req ds opts = some op)
    {c : Config (OpState op.L) Crash}
    (hreach : op.prog.Reaches cancelCurrent (op.start (h.session .new)) c) (hlooping : op.Looping c)
    (hflag : cancelFlag c.st = true)
    (hlast : req.command.code.isDsOperation = true ∨
      (ds.Finite ∧ Dataset.getCount ds.spec ≤ c.st.ses.sent.length + 1)) : op.CancelEnds c := by
  cases dsOperation_kind hop with
  | items checks mk hchecks hmk hcode =>
    exact dsOp_cancel hchecks (behind_of_looping hlooping) hflag
  | subdoc hcode => exact dsOp_cancel (by simp) (behind_of_looping hlooping) hflag
  | load hcode =>
    obtain ⟨hfinite, hcount⟩ := hlast.resolve_left (by simp [hcode])
    refine ⟨fun c' hc' => ?_, (loader_ends hfinite hreach).2⟩
    exact (loader_ends hfinite (hreach.trans hc')).1.trans hcount
  | viewLoad hcode =>
    obtain ⟨hfinite, hcount⟩ := hlast.resolve_left (by simp [hcode, Code.isDsOperation])
    refine ⟨fun c' hc' => ?_, (viewLoader_ends hfinite _ hreach).2⟩
    exact (viewLoader_ends hfinite _ (hreach.trans hc')).1.trans hcount

end Datasets

section Examples

/-- A CANCEL in the first round of a get over two keys. -/
def exampleInterrupted : Config (OpState exampleOperation.L) Crash :=
  (exampleOperation.prog.run cancelCurrent (fun _ => false)
    (exampleOperation.start (exampleHandle.session .new)) 5).interfere cancelCurrent

theorem cancel_ends_get : exampleOperation.CancelEnds exampleInterrupted := by
  have hreach : exampleOperation.prog.Reaches cancelCurrent
      (exampleOperation.start (exampleHandle.session .new)) exampleInterrupted :=
    (Prog.reaches_run _ _ 5).trans (Prog.Reaches.interfere _)
  have hlooping : exampleOperation.Looping exampleInterrupted := by
    intro k hk
    have hpos : exampleInterrupted.pos = .body 0 := rfl
    rw [hpos] at hk
    cases hk
  exact @cancel_ends JsonAccess.plain JsonWriter.compact exampleHandle exampleWorld exampleGet
    exampleDataset .default exampleOperation rfl exampleInterrupted hreach hlooping rfl (.inl rfl)

/-- A load of two full-text documents. -/
def exampleTwoLoads : Request :=
  ⟨1, 1, ⟨"CB_FTS_LOAD", .cbFtsLoad⟩, .object [("DSType", .string "DSTYPE_FTS"),
    ("DS", .object [("Count", .uint 2)])], .success⟩

/-- A CANCEL before the first of two documents is loaded: both are loaded all the same. -/
theorem load_not_ended :
    letI := JsonAccess.plain
    letI := JsonWriter.compact
    ∃ ds op c, WorkerDispatch.resolveDataset (.new []) exampleTwoLoads = .ok (.ok (.fts, ds)) ∧
      dsOperation exampleHandle exampleWorld exampleTwoLoads ds .default = some op ∧
      op.prog.Reaches cancelCurrent (op.start (exampleHandle.session .new)) c ∧ op.Looping c ∧
      cancelFlag c.st = true ∧ ¬ op.CancelEnds c := by
  let p : OpProg (DsLocal DatasetIterator BatchVars) :=
    loader (@Dataset.getIter JsonAccess.plain JsonWriter.compact ⟨.success, .fts 2⟩)
      exampleHandle.options exampleWorld
  let op : Operation := ⟨_, p, ⟨Dataset.newIterator, ("", ""), .start⟩⟩
  let c := (op.prog.run cancelCurrent (fun _ => false) (op.start (exampleHandle.session .new))
    2).interfere cancelCurrent
  refine ⟨⟨.success, .fts 2⟩, op, c, rfl, rfl,
    (Prog.reaches_run _ _ 2).trans (Prog.Reaches.interfere _), ?_, rfl, fun hends => ?_⟩
  · intro k hk
    have hpos : c.pos = .test := rfl
    rw [hpos] at hk
    cases hk
  · have hle := hends.1 _ (Prog.reaches_run (fun _ => false) c 15)
    have hsent : (op.prog.run cancelCurrent (fun _ => false) c 15).st.ses.sent.length = 2 := by
      decide +kernel
    rw [hsent] at hle
    exact absurd hle (by decide)

end Examples

end Sdkd
