import Sdkd.ItemLoops
import Sdkd.Loads

/-!
# The requests of the commands on datasets

What every command but the view load sends for a dataset: one request for each item, in the order of the
items, to the document the handle's options give the item's key. A CANCEL makes it stop early, a failed
batch makes a load stop early, and nothing else does.

## Main definitions

- `commandRequest` — the request of a command for an item
- `Excused` — why a command may stop before the end of its dataset

## Main results

- `dsOperation_requests` — the requests sent are those of the items gone through, and at the end those of all
-/

namespace Sdkd

open LoopProg

section Loops

variable {ι : Type*} {it : IterOps ι} {o : HandleOptions} {w : World}

theorem inert_of_next {X : Type*} {E : OpState (DsLocal ι X) → Prop} {a : OpAction (DsLocal ι X)}
    (h : ∀ s, ∃ s', a s = .next s' ∧ SameItem s s') : Inert E a := by
  intro s
  obtain ⟨s', hout, hsame⟩ := h s
  rw [hout]
  exact hsame

theorem inert_drain {X : Type*} {E : OpState (DsLocal ι X) → Prop}
    {handler : ErrorCode → OpState (DsLocal ι X) → OpState (DsLocal ι X)}
    (hh : ∀ ec s, SameItem s (handler ec s)) : Inert E (drain handler) := by
  intro s
  rcases drain_outcome handler s with ⟨-, hout⟩ | ⟨ec, -, -, hout⟩ | ⟨-, -, hout⟩ <;> rw [hout]
  · exact .refl s
  · exact ⟨(hh ec s).iter, (hh ec s).collection, (hh ec s).sent⟩
  · exact ⟨rfl, rfl, rfl⟩

theorem inert_delay {X : Type*} {E : OpState (DsLocal ι X) → Prop} :
    Inert E (delay w : OpAction (DsLocal ι X)) :=
  inert_of_next fun s => by
    obtain ⟨draws, hout⟩ := delay_outcome w s
    exact ⟨_, hout, rfl, rfl, rfl⟩

theorem sameItem_recordOutcome {X : Type*} (ec : ErrorCode) (s : OpState (DsLocal ι X)) :
    SameItem s (recordOutcome w ec s) := ⟨rfl, rfl, rfl⟩

theorem closing_drain_recordOutcome {X : Type*} :
    Closing (fun s : OpState (DsLocal ι X) => s.ses.doCancel = true) (drain (recordOutcome w)) := by
  intro s
  rcases drain_outcome (recordOutcome w) s with ⟨-, hout⟩ | ⟨ec, -, -, hout⟩ | ⟨-, -, hout⟩ <;> rw [hout]
  · exact ⟨.refl s, id⟩
  · have hsame := sameItem_recordOutcome (w := w) ec s
    exact ⟨⟨hsame.iter, hsame.collection, hsame.sent⟩, id⟩
  · exact ⟨⟨rfl, rfl, rfl⟩, id⟩

/-- The operations on datasets stop early only if they are cancelled. -/
theorem dsOp_itemLoop (options : ResultOptions) {checks : List (OpAction (DsLocal ι Unit))}
    (hchecks : ∀ a ∈ checks, ∀ s, a s = .next s) (mk : DocumentId → ι → Option ClusterRequest) :
    ItemLoop (dsOp it o w options checks mk) it o w mk 2 6 fun s => s.ses.doCancel = true where
  pre_pos := by simp [dsOp]
  pre := by
    intro k a ha
    rcases k with _ | _ | k
    · cases ha
      exact .inr ⟨by simp [dsOp], inert_of_next fun s => ⟨_, rfl, rfl, rfl, rfl⟩⟩
    · cases ha
      exact .inr ⟨by simp [dsOp], inert_of_next fun s => ⟨_, rfl, rfl, rfl, rfl⟩⟩
    · have haction : (dsOp it o w options checks mk).actionAt (.pre (k + 2)) = some (a, .pre (k + 3)) := by
        simp [Prog.actionAt, ha]
      obtain ⟨-, -, hcase⟩ := dsOp_pre_cases hchecks haction
      rcases hcase with ⟨hlt, hskip⟩ | ⟨rfl, rfl⟩
      · exact .inr ⟨by simp [dsOp, hlt], inert_of_next fun s => ⟨s, hskip s, .refl s⟩⟩
      · exact .inl ⟨by simp [dsOp], rfl⟩
  order := ⟨by omega, by omega, by simp [dsOp]⟩
  body := by
    intro k a ha
    rcases k with _ | _ | _ | _ | _ | _ | _ | k <;> cases ha
    · exact .inl ⟨rfl, rfl⟩
    · exact .inr (.inr (.inr ⟨by omega, by omega, by omega,
        inert_of_next fun s => ⟨_, rfl, rfl, rfl, rfl⟩, fun s s' h => by simp [markBegin] at h⟩))
    · exact .inr (.inl ⟨rfl, rfl⟩)
    · exact .inr (.inr (.inr ⟨by omega, by omega, by omega,
        inert_of_next fun s => ⟨_, rfl, rfl, rfl, rfl⟩, fun _ _ _ => by omega⟩))
    · exact .inr (.inr (.inr ⟨by omega, by omega, by omega,
        inert_drain sameItem_recordOutcome, fun _ _ _ => by omega⟩))
    · exact .inr (.inr (.inr ⟨by omega, by omega, by omega, inert_delay, fun _ _ _ => by omega⟩))
    · exact .inr (.inr (.inl ⟨rfl, rfl⟩))
  post := by
    simp only [dsOp, List.forall_mem_cons]
    refine ⟨fun s => ?_, closing_drain_recordOutcome, by simp⟩
    rcases collectResult_outcome s with ⟨-, hout⟩ | ⟨-, hout⟩ <;> rw [hout] <;>
      exact ⟨⟨rfl, rfl, rfl⟩, id⟩
  enters := by
    intro s ht
    simp only [dsOp, itemsLeft, Bool.and_eq_true, Bool.not_eq_true'] at ht
    exact ht.1
  leaves := by
    intro s ht
    simp only [dsOp, itemsLeft, Bool.and_eq_false_iff, Bool.not_eq_false'] at ht
    exact ht
  stable := fun _ _ => rfl

/-- The loaders stop early only behind a bad batch. -/
theorem loader_itemLoop : ItemLoop (loader it o w) it o w (fun id i => some (.upsert id (it.value i) 0 0))
    1 5 fun s => s.loc.extra.ok = false where
  pre_pos := by simp [loader]
  pre := by
    intro k a ha
    rcases k with _ | k <;> cases ha
    exact .inl ⟨rfl, rfl⟩
  order := ⟨by omega, by omega, by simp [loader]⟩
  body := by
    intro k a ha
    rcases k with _ | _ | _ | _ | _ | _ | _ | k <;> cases ha
    · exact .inl ⟨rfl, rfl⟩
    · exact .inr (.inl ⟨rfl, rfl⟩)
    · refine .inr (.inr (.inr ⟨by omega, by omega, by omega, inert_of_next fun s => ?_,
        fun _ _ _ => by omega⟩))
      unfold checkBatch
      split_ifs
      · exact ⟨_, rfl, rfl, rfl, rfl⟩
      · exact ⟨s, rfl, .refl s⟩
    · exact .inr (.inr (.inr ⟨by omega, by omega, by omega,
        inert_drain fun _ _ => ⟨rfl, rfl, rfl⟩, fun _ _ _ => by omega⟩))
    · refine .inr (.inr (.inr ⟨by omega, by omega, by omega, fun s => ?_, fun _ _ _ => by omega⟩))
      by_cases hdrain : s.ses.draining = true
      · by_cases hok : s.loc.extra.ok = true
        · simp only [endBatch, hdrain, hok, if_true]
          exact ⟨rfl, rfl, rfl⟩
        · simp only [endBatch, hdrain, hok, if_true, Bool.false_eq_true, if_false]
          exact ⟨⟨rfl, rfl, rfl⟩, by simp⟩
      · simp only [endBatch, hdrain, Bool.false_eq_true, if_false]
        exact .refl s
    · exact .inr (.inr (.inl ⟨rfl, rfl⟩))
    · exact .inr (.inr (.inr ⟨by omega, by omega, by omega,
        inert_of_next fun s => ⟨_, rfl, rfl, rfl, rfl⟩, fun _ _ _ => by omega⟩))
  post := by
    simp only [loader, List.forall_mem_cons]
    refine ⟨fun s => ⟨⟨rfl, rfl, rfl⟩, id⟩, fun s => ?_, by simp⟩
    rcases drain_outcome (fun _ s => s) s with ⟨-, hout⟩ | ⟨ec, -, -, hout⟩ | ⟨-, -, hout⟩ <;>
      rw [hout] <;> exact ⟨⟨rfl, rfl, rfl⟩, id⟩
  enters := by
    intro s ht
    simpa [loader] using ht
  leaves := by
    intro s ht
    exact .inl (by simpa [loader] using ht)
  stable := fun _ h => h

end Loops

/-! ## The commands -/

/-- The request of a command for an item of a dataset. -/
def commandRequest (opts : ResultOptions) (code : Code) (id : DocumentId) (i : DatasetIterator) :
    Option ClusterRequest :=
  if code.isLoad then some (.upsert id i.curv 0 0)
  else
    match code with
    | .mcDsGet => some (.get id)
    | .mcDsDelete => some (.remove id)
    | .mcDsTouch => some (.touch id)
    | .mcDsSdRun => subdocRequest id i.curc i.curp i.curv
    | code => mutationRequest opts code id i.curv

section Commands

variable [JsonAccess] [JsonWriter]

/-- The operations of the commands on datasets that go through the items one by one. -/
inductive ItemOperation (o : HandleOptions) (w : World) (ds : Dataset) (opts : ResultOptions) (code : Code) :
    Operation → Prop
  | operation (hcode : code.isLoad = false) {p : OpProg (DsLocal DatasetIterator Unit)} {jS jA : ℕ}
      (hp : ItemLoop p ds.getIter o w (commandRequest opts code) jS jA fun s => s.ses.doCancel = true) :
      ItemOperation o w ds opts code ⟨_, p, ⟨Dataset.newIterator, ("", ""), ()⟩⟩
  | load (hcode : code.isLoad = true)
      (hp : ItemLoop (loader ds.getIter o w) ds.getIter o w (commandRequest opts code) 1 5
        fun s => s.loc.extra.ok = false) :
      ItemOperation o w ds opts code
        ⟨_, loader ds.getIter o w, ⟨Dataset.newIterator, ("", ""), .start⟩⟩

variable {h : Handle} {w : World} {req : Request} {ds : Dataset} {opts : ResultOptions} {op : Operation}

/-- Every command on a dataset but the view load selects such an operation. -/
theorem dsOperation_itemOperation (hop : dsOperation h w req ds opts = some op)
    (hview : req.command.code ≠ .cbViewLoad) :
    ItemOperation h.options w ds opts req.command.code op := by
  have hpass : ∀ {code : Code}, code.isMutation = true →
      ∀ a ∈ [checkMutation code], ∀ s : OpState (DsLocal DatasetIterator Unit), a s = .next s :=
    fun hcode => List.forall_mem_singleton.mpr (checkMutation_of_isMutation hcode)
  unfold dsOperation at hop
  dsimp only at hop
  split at hop
  case h_11 hcode => exact absurd hcode hview
  case h_15 => cases hop
  all_goals
    rename_i hcode
    obtain rfl := Option.some.inj hop
    rw [hcode]
  case h_1 | h_2 => exact .operation rfl (dsOp_itemLoop opts (by simp) _)
  case h_3 | h_4 | h_5 | h_6 | h_7 => exact .operation rfl (dsOp_itemLoop opts (hpass rfl) _)
  case h_8 | h_9 => exact .operation rfl (dsOp_itemLoop opts (by simp) _)
  all_goals exact .load rfl loader_itemLoop

/-- Why a command may have stopped before the end of its dataset: it has been cancelled, or it is a load,
which no CANCEL stops, and something its batches look at is an error. `left` are the outcomes left over from
the request before. -/
def Excused (code : Code) (w : World) (left : List ErrorCode) {L : Type*} (c : Config (OpState L) Crash) :
    Prop :=
  if code.isLoad then SomeFailed w left c.rounds else c.st.ses.doCancel = true

/-- What the loop of an operation has sent where it stands: one request for each of the first `m` items, the
ones it has gone through, and those of all items if it has returned without an excuse. -/
structure Sends (o : HandleOptions) (w : World) (ds : Dataset) (opts : ResultOptions) (code : Code)
    (left : List ErrorCode) {L : Type*} (c : Config (OpState L) Crash) : Prop where
  sofar : ∃ m, m ≤ c.rounds ∧ c.rounds ≤ m + 1 ∧
    SentFor ds.getIter Dataset.newIterator o (commandRequest opts code) m c.st.ses.sent
  returned : c.pos = .done →
    SentFor ds.getIter Dataset.newIterator o (commandRequest opts code) c.rounds c.st.ses.sent
  complete : c.pos = .done → ¬ Excused code w left c →
    ∀ n, HasItems ds.getIter Dataset.newIterator n → c.rounds = n

theorem dsOperation_sends (hop : dsOperation h w req ds opts = some op)
    (hview : req.command.code ≠ .cbViewLoad) (rs : ResultSet) {c : Config (OpState op.L) Crash}
    (hreach : op.prog.Reaches cancelCurrent (op.start (h.session rs)) c) :
    Sends h.options w ds opts req.command.code h.pending c := by
  cases dsOperation_itemOperation hop hview with
  | operation hcode hp =>
    obtain ⟨hsofar, hover⟩ := hp.sends hreach rfl rfl
    refine ⟨hsofar, fun hpos => (hover hpos).sent, fun hpos hno n hn => ?_⟩
    rcases (hover hpos).ended with ⟨hwalked, hdone⟩ | hexcuse
    · exact hn.of_walked hwalked hdone
    · exact absurd hexcuse (by simpa [Excused, hcode] using hno)
  | load hcode hp =>
    obtain ⟨hsofar, hover⟩ := hp.sends hreach rfl rfl
    refine ⟨hsofar, fun hpos => (hover hpos).sent, fun hpos hno n hn => ?_⟩
    rcases (hover hpos).ended with ⟨hwalked, hdone⟩ | hbad
    · exact hn.of_walked hwalked hdone
    · have hsat : c.Satisfies (loaderAssertion ds.getIter Dataset.newIterator h.options w rs h.pending) :=
        loader_outline.sound hreach ⟨rfl, rfl, rfl, rfl, rfl, rfl, rfl, rfl⟩
      have hloaded := (hsat.of_pos hpos).1
      exact absurd (hloaded.verdict hbad) (by simpa [Excused, hcode] using hno)

/-- **The requests of a command.** Wherever an interleaving with the control thread takes it, a command on
a dataset has sent the requests of the items it has gone through, one for each and in their order; when it
returns these are all items of the dataset, unless it has been cancelled or is a load with an error. -/
theorem dsOperation_requests (hop : dsOperation h w req ds opts = some op)
    (hview : req.command.code ≠ .cbViewLoad) (rs : ResultSet) {c : Config (OpState op.L) Crash}
    (hreach : op.prog.Reaches cancelCurrent (op.start (h.session rs)) c) :
    (∃ m, m ≤ c.rounds ∧ c.rounds ≤ m + 1 ∧
      c.st.ses.sent =
        itemRequests ds.getIter Dataset.newIterator h.options (commandRequest opts req.command.code) m ∧
      ∀ k < m, ∃ d, addressed ds.getIter Dataset.newIterator h.options k = some d ∧
        ds.getIter.done d.2 = false) ∧
    (c.pos = .done → ¬ Excused req.command.code w h.pending c →
      ∀ n, HasItems ds.getIter Dataset.newIterator n → c.rounds = n ∧ c.st.ses.sent =
        itemRequests ds.getIter Dataset.newIterator h.options (commandRequest opts req.command.code) n) := by
  have hsends := dsOperation_sends hop hview rs hreach
  constructor
  · obtain ⟨m, hle, hge, hsent⟩ := hsends.sofar
    exact ⟨m, hle, hge, hsent.requests, hsent.documents⟩
  · intro hpos hno n hn
    obtain rfl := hsends.complete hpos hno n hn
    exact ⟨rfl, (hsends.returned hpos).requests⟩

end Commands

section Examples

theorem exampleDataset_hasItems :
    letI := JsonAccess.plain
    letI := JsonWriter.compact
    HasItems exampleDataset.getIter Dataset.newIterator 2 := by
  let := JsonAccess.plain
  let := JsonWriter.compact
  have hitem : exampleDataset.getIter.item Dataset.newIterator 0 = .ok ⟨0, "key1", "", "", ""⟩ ∧
      exampleDataset.getIter.item Dataset.newIterator 1 = .ok ⟨1, "key2", "", "", ""⟩ ∧
      exampleDataset.getIter.item Dataset.newIterator 2 = .ok ⟨2, "", "", "", ""⟩ := by
    decide +kernel
  obtain ⟨hfirst, hsecond, hend⟩ := hitem
  refine ⟨fun k hk => ?_, fun k hk i hi => ?_, fun i hi => ?_⟩
  · match k, hk with
    | 0, _ => exact ⟨_, hfirst⟩
    | 1, _ => exact ⟨_, hsecond⟩
    | 2, _ => exact ⟨_, hend⟩
  · obtain rfl | rfl : k = 0 ∨ k = 1 := by omega
    · obtain rfl := Except.ok.inj (hfirst.symm.trans hi)
      rfl
    · obtain rfl := Except.ok.inj (hsecond.symm.trans hi)
      rfl
  · obtain rfl := Except.ok.inj (hend.symm.trans hi)
    rfl

/-- A get over two keys, uninterrupted, in its second round and at its end. -/
theorem dsOperation_requests_get :
    letI := JsonAccess.plain
    letI := JsonWriter.compact
    let run := exampleOperation.prog.run cancelCurrent (fun _ => false)
      (exampleOperation.start (exampleHandle.session .new))
    ((run 15).rounds = 2 ∧ ∃ m, m ≤ 2 ∧ 2 ≤ m + 1 ∧ (run 15).st.ses.sent =
      itemRequests exampleDataset.getIter Dataset.newIterator exampleHandle.options
        (commandRequest .default .mcDsGet) m) ∧
    (run 28).pos = .done ∧ (run 28).rounds = 2 ∧ (run 28).st.ses.sent =
      itemRequests exampleDataset.getIter Dataset.newIterator exampleHandle.options
        (commandRequest .default .mcDsGet) 2 := by
  let := JsonAccess.plain
  let := JsonWriter.compact
  have hop : dsOperation exampleHandle exampleWorld exampleGet exampleDataset .default =
      some exampleOperation := rfl
  have hrounds : (exampleOperation.prog.run cancelCurrent (fun _ => false)
      (exampleOperation.start (exampleHandle.session .new)) 15).rounds = 2 := by decide +kernel
  have hpos : (exampleOperation.prog.run cancelCurrent (fun _ => false)
      (exampleOperation.start (exampleHandle.session .new)) 28).pos = .done := by decide +kernel
  have hall : ¬ Excused .mcDsGet exampleWorld exampleHandle.pending (exampleOperation.prog.run cancelCurrent
      (fun _ => false) (exampleOperation.start (exampleHandle.session .new)) 28) := by
    rw [Excused, if_neg (by decide)]
    decide +kernel
  obtain ⟨m, hle, hge, hsent, -⟩ :=
    (dsOperation_requests hop (by decide) .new (Prog.reaches_run (fun _ => false) _ 15)).1
  rw [hrounds] at hle hge
  exact ⟨⟨hrounds, m, hle, hge, hsent⟩, hpos, (dsOperation_requests hop (by decide) .new
    (Prog.reaches_run (fun _ => false) _ 28)).2 hpos hall 2 exampleDataset_hasItems⟩

end Examples

end Sdkd
