import Sdkd.Accounts
import Sdkd.Items
import Sdkd.Operation

/-!
# Subdocument runs

What `dsSDSinglePath` accounts for. A command it does not know makes no request, but `postsubmit` counts
one all the same.

## Main results

- `dsSDSinglePath_accounted` — every item is accounted for, as long as its command is known
-/

namespace Sdkd

open LoopProg

/-- The commands `dsSDSinglePath` compares with. -/
def subdocCommands : List String :=
  ["get", "get_multi", "replace", "dict_add", "dict_upsert", "array_add", "array_add_last", "counter"]

theorem subdocRequest_isSome_iff (id : DocumentId) (command path value : String) :
    (subdocRequest id command path value).isSome = true ↔ command ∈ subdocCommands := by
  unfold subdocRequest
  split <;> simp_all [subdocCommands]

/-- No text is the outcome of `2 ^ 31` of the first `n` requests or more. -/
def FewAlike (w : World) (n : ℕ) : Prop :=
  ∀ text, ((List.range n).map fun k => (w.outcome k).text).count text < 2 ^ 31

theorem FewAlike.of_lt {w : World} {n : ℕ} (h : n < 2 ^ 31) : FewAlike w n := fun text =>
  List.count_le_length.trans_lt (by simpa using h)

/-- What is known of a run where it stands: at the loop test the counter is the number of futures, and
one request has been sent for each item stepped over; at the end there is one result for each as well. -/
structure Accounted {L : Type*} (c : Config (OpState L) Crash) : Prop where
  test_sent : c.pos = .test → c.st.ses.sent.length = c.rounds
  test_remaining : c.pos = .test → c.st.ses.rs.remaining = c.st.ses.pending.length
  done_sent : c.pos = .done → c.st.ses.sent.length = c.rounds
  done_recorded : c.pos = .done → c.st.ses.rs.recorded.length = c.rounds
  done_remaining : c.pos = .done → c.st.ses.rs.remaining = 0
  done_stats : c.pos = .done → (c.st.ses.rs.stats.toList.map Prod.snd).sum = c.rounds

section Accounted

variable {ι : Type*} {it : IterOps ι} {i₀ : ι} {o : HandleOptions} {w : World}
  {options : ResultOptions}

/-- The books say what `Accounted` asks for, unless one of the counters has come round. -/
theorem accounted_of_satisfies {checks : ℕ} {c : Config (OpState (DsLocal ι Unit)) Crash}
    (h : c.Satisfies (opAssertion it i₀ o w options checks))
    (hsmall : 0 < options.iterwait ∨ c.rounds < 2 ^ 31) (hfew : FewAlike w c.rounds) :
    Accounted c := by
  have htest : c.pos = .test → AtTest it i₀ w options c.rounds c.st := h.of_pos
  have hdone : c.pos = .done → Closed it i₀ w options c.rounds c.st ∧ c.st.ses.pending = [] := by
    intro hpos
    obtain ⟨hclosed, hcollected⟩ := h.of_pos hpos
    exact ⟨hclosed, hclosed.pending_nil hcollected (hsmall.imp_right fun hlt => by omega)⟩
  have hrecorded : c.pos = .done →
      c.st.ses.rs.recorded = (List.range c.rounds).map w.outcome := by
    intro hpos
    obtain ⟨hclosed, hnil⟩ := hdone hpos
    simpa [hnil, hclosed.count] using hclosed.books.outcomes
  exact {
    test_sent := fun hpos => (htest hpos).count
    test_remaining := fun hpos => (htest hpos).books.remaining_eq (htest hpos).vacant
      (hsmall.imp_right fun hlt => (htest hpos).count ▸ hlt)
    done_sent := fun hpos => (hdone hpos).1.count
    done_recorded := fun hpos => by rw [hrecorded hpos, List.length_map, List.length_range]
    done_remaining := fun hpos => by
      obtain ⟨hclosed, hnil⟩ := hdone hpos
      have hcursor := hclosed.books.cursor_le
      rw [hnil, List.length_nil, Nat.le_zero] at hcursor
      rw [hclosed.books.remaining, hnil, hcursor]
      rfl
    done_stats := fun hpos => by
      have hcounts := (hdone hpos).1.books.stats
      rw [hrecorded hpos, List.map_map] at hcounts
      simpa using (counts_exact hcounts hfew).sum_eq (AddMonoidHom.id ℤ) fun _ _ => rfl }

end Accounted

section Runs

variable [JsonAccess] [JsonWriter]

/-- Every item of the dataset that a run comes to has a command `dsSDSinglePath` knows. -/
def SubdocReady (ds : Dataset) : Prop :=
  ∀ k i, ds.getIter.item Dataset.newIterator k = .ok i → ds.getIter.done i = false →
    i.curc ∈ subdocCommands

/-- The operation of MC_DS_SD_RUN. -/
def sdRunOperation (h : Handle) (w : World) (ds : Dataset) (opts : ResultOptions) : Operation :=
  ⟨_, dsSDSinglePath ds.getIter h.options w opts, ⟨Dataset.newIterator, ("", ""), ()⟩⟩

/-- A dataset of subdocument operations with a command that is known, or one without items. -/
theorem subdocReady_iff (ds : Dataset) :
    SubdocReady ds ↔ (∃ k i, ds.getIter.item Dataset.newIterator k = .ok i ∧
      ds.getIter.done i = false) → Dataset.itemCommand ds.spec ∈ subdocCommands := by
  constructor
  · rintro h ⟨k, i, hi, hmore⟩
    rw [← Dataset.command_of_item hi]
    exact h k i hi hmore
  · intro h k i hi hmore
    rw [Dataset.command_of_item hi]
    exact h ⟨k, i, hi, hmore⟩

theorem sdRun_outline {h : Handle} {w : World} {ds : Dataset} {opts : ResultOptions}
    (hready : SubdocReady ds) : (dsSDSinglePath ds.getIter h.options w opts).Outline cancelCurrent
      (opAssertion ds.getIter Dataset.newIterator h.options w opts 0) :=
  dsOp_books (by simp) fun k i hi hmore _ =>
    (subdocRequest_isSome_iff _ _ _ _).mpr (hready k i hi hmore)

/-- **Subdocument runs.** If no futures are left over and every item has a command that is known, then
every item is accounted for wherever a run stands, as long as there is an IterWait or the items are
fewer than an `int` counts, and no outcome comes more often than one. On a dataset with an end every run
comes to its own end, or dies for an item it cannot address. -/
theorem dsSDSinglePath_accounted (h : Handle) (w : World) (ds : Dataset) (opts : ResultOptions)
    (hleft : h.pending = []) (hready : SubdocReady ds) :
    let op := sdRunOperation h w ds opts
    (∀ c, op.prog.Reaches cancelCurrent (op.start (h.session .new)) c →
      0 < opts.iterwait ∨ c.rounds < 2 ^ 31 → FewAlike w c.rounds → Accounted c) ∧
    (ds.Finite → ∀ sched, ∃ n, (op.prog.run cancelCurrent sched
        (op.start (h.session .new)) n).halted ∧
      ∀ e, (op.prog.run cancelCurrent sched (op.start (h.session .new)) n).pos = .dead e →
        Failed ds.getIter Dataset.newIterator h.options (Dataset.getCount ds.spec) e) := by
  intro op
  have hstart : (op.start (h.session .new)).Satisfies
      (opAssertion ds.getIter Dataset.newIterator h.options w opts 0) :=
    ⟨hleft, rfl, rfl, rfl, rfl, rfl⟩
  refine ⟨fun c hc hsmall hfew =>
    accounted_of_satisfies ((sdRun_outline hready).sound hc hstart) hsmall hfew,
    fun hfinite sched => ?_⟩
  have hN : ∀ r (s : OpState (DsLocal DatasetIterator Unit)), r ≤ Dataset.getCount ds.spec →
      opAssertion ds.getIter Dataset.newIterator h.options w opts 0 .test r s →
      op.prog.test s = true → r < Dataset.getCount ds.spec := by
    intro r s _ hat htest
    refine Dataset.walked_lt hfinite (AtTest.walked hat) ?_
    change (itemsLeft ds.getIter s) = true at htest
    simp only [itemsLeft, Bool.and_eq_true, Bool.not_eq_true'] at htest
    exact htest.1
  obtain ⟨n, hhalted, hsat, hle⟩ := (sdRun_outline hready).halts hN
    (fun _ s => s.ses.pending.length - s.ses.cursor) (fun _ _ => rfl)
    (fun _ _ _ s ha => dsOp_progress (by simp) s ha) sched hstart (Nat.zero_le _)
  exact ⟨n, hhalted, fun e hpos => Failed.mono (hsat.of_pos hpos) hle⟩

end Runs

section Examples

/-- A subdocument dataset of `count` items. -/
def exampleSubdoc (command : String) (count : ℕ) : Dataset :=
  ⟨.success, .sd ⟨.null, false, command, "path", "1", false, count⟩⟩

/-- Three items with an `IterWait` of two, the second of which the cluster refuses. -/
theorem dsSDSinglePath_accounted_get :
    letI := JsonAccess.plain
    letI := JsonWriter.compact
    let op := sdRunOperation exampleHandle
      { exampleWorld with outcome := fun k => if k = 1 then ⟨1, "refused"⟩ else .success }
      (exampleSubdoc "get" 3) { ResultOptions.default with iterwait := 2 }
    ∃ c, op.prog.Reaches cancelCurrent (op.start (exampleHandle.session .new)) c ∧ c.pos = .done ∧
      c.rounds = 3 ∧ c.st.ses.rs.stats["refused"]? = some 1 ∧
      c.st.ses.sent.length = 3 ∧ c.st.ses.rs.recorded.length = 3 ∧ c.st.ses.rs.remaining = 0 ∧
      (c.st.ses.rs.stats.toList.map Prod.snd).sum = 3 := by
  let _ := JsonAccess.plain
  let _ := JsonWriter.compact
  intro op
  obtain ⟨c, hreach, hpos, hrounds, hrefused⟩ : ∃ c,
      op.prog.Reaches cancelCurrent (op.start (exampleHandle.session .new)) c ∧ c.pos = .done ∧
        c.rounds = 3 ∧ c.st.ses.rs.stats["refused"]? = some 1 := by
    refine ⟨_, Prog.reaches_run (fun _ => false) _ 60, ?_⟩
    decide +kernel
  have hacc := (dsSDSinglePath_accounted _ _ _ _ rfl ((subdocReady_iff _).mpr fun _ => by decide)).1
    c hreach (.inl (by decide)) (.of_lt (by omega))
  refine ⟨c, hreach, hpos, hrounds, hrefused, ?_, ?_, hacc.done_remaining hpos, ?_⟩
  · rw [hacc.done_sent hpos, hrounds]
  · rw [hacc.done_recorded hpos, hrounds]
  · rw [hacc.done_stats hpos, hrounds]
    rfl

/-- An item with the command `remove`: nothing is sent, nothing is recorded, and the operation returns
with one result outstanding. -/
theorem subdoc_unaccounted :
    letI := JsonAccess.plain
    letI := JsonWriter.compact
    let op := sdRunOperation exampleHandle exampleWorld (exampleSubdoc "remove" 1) .default
    ∃ c, op.prog.Reaches cancelCurrent (op.start (exampleHandle.session .new)) c ∧ c.pos = .done ∧
      c.rounds = 1 ∧ c.st.ses.sent = [] ∧ c.st.ses.rs.recorded = [] ∧ c.st.ses.rs.remaining = 1 ∧
      ¬ Accounted c := by
  intro op
  have hrun : ∀ c, op.prog.run cancelCurrent (fun _ => false)
      (op.start (exampleHandle.session .new)) 17 = c →
      c.pos = .done ∧ c.rounds = 1 ∧ c.st.ses.sent = [] ∧ c.st.ses.rs.recorded = [] ∧
        c.st.ses.rs.remaining = 1 := by
    rintro c rfl
    decide +kernel
  obtain ⟨hpos, hrounds, hsent, hrecorded, hremaining⟩ := hrun _ rfl
  refine ⟨_, Prog.reaches_run (fun _ => false) _ 17, hpos, hrounds, hsent, hrecorded, hremaining,
    fun h => ?_⟩
  have hzero := h.done_remaining hpos
  rw [hremaining] at hzero
  cases hzero

end Examples

end Sdkd
