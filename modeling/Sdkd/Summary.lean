import Sdkd.DsOps

/-!
# The summary of an operation

What `dsGet`, `dsKeyop` and `dsMutate` report: one result for each request they sent, in the order they
sent them, whatever the batch size and whenever they are cancelled.
-/

namespace Sdkd

open LoopProg

/-- The operations that send one request for each item; `dsMutate` only with a command it supports. -/
inductive BatchOp where
  | get
  | keyop (cmd : Code)
  | mutate (cmd : Code) (supported : cmd.isMutation = true)

section Summary

variable {ι : Type*}

def BatchOp.prog (op : BatchOp) (it : IterOps ι) (o : HandleOptions) (w : World)
    (options : ResultOptions) : OpProg (DsLocal ι Unit) :=
  match op with
  | .get => dsGet it o w options
  | .keyop cmd => dsKeyop it o w options cmd
  | .mutate cmd _ => dsMutate it o w options cmd

/-- Each of them is the shared loop with checks that pass and a request for every item. -/
theorem BatchOp.prog_eq (op : BatchOp) (it : IterOps ι) (o : HandleOptions) (w : World)
    (options : ResultOptions) :
    ∃ checks mk, (∀ a ∈ checks, ∀ s, a s = .next s) ∧ (∀ id i, (mk id i).isSome) ∧
      op.prog it o w options = dsOp it o w options checks mk := by
  cases op with
  | get => exact ⟨[], _, by simp, fun _ _ => rfl, rfl⟩
  | keyop cmd => exact ⟨[], _, by simp, fun _ _ => rfl, rfl⟩
  | mutate cmd supported =>
    exact ⟨[checkMutation cmd], _,
      List.forall_mem_singleton.mpr (checkMutation_of_isMutation supported),
      fun _ _ => mutationRequest_isSome supported options _ _, rfl⟩

/-- What holds of the futures, the counter and the results of an operation with `IterWait` equal to `n`
where it stands. -/
structure Batched (w : World) (n : ℕ) (c : Config (OpState (DsLocal ι Unit)) Crash) : Prop where
  test_remaining : c.pos = .test → c.st.ses.rs.remaining = c.st.ses.pending.length
  test_room : c.pos = .test → 0 < n → c.st.ses.pending.length < n
  pending_le : 0 < n → c.st.ses.pending.length ≤ n
  remaining_le : c.pos ≠ .pre 0 → 0 < n → c.st.ses.rs.remaining ≤ n
  done_remaining : c.pos = .done → c.st.ses.rs.remaining = 0
  done_pending : c.pos = .done → c.st.ses.pending = []
  done_sent : c.pos = .done → c.st.ses.sent.length = c.rounds
  done_recorded : c.pos = .done →
    c.st.ses.rs.recorded = (List.range c.st.ses.sent.length).map w.outcome
  done_stats : c.pos = .done →
    Histogram.Counts (.exact ℤ) c.st.ses.rs.stats (c.st.ses.rs.recorded.map ErrorCode.text)

variable {it : IterOps ι} {i₀ : ι} {o : HandleOptions} {w : World} {options : ResultOptions}

theorem dsAssertion.bounded {checks r : ℕ} {pos : Pos Crash} {s : OpState (DsLocal ι Unit)}
    (h : dsAssertion it i₀ o w options checks pos r s) :
    (0 < options.iterwait → s.ses.pending.length ≤ options.iterwait) ∧
    (pos ≠ .pre 0 → Bounded options s) := by
  have of_bounded : Bounded options s →
      (0 < options.iterwait → s.ses.pending.length ≤ options.iterwait) ∧
      (pos ≠ .pre 0 → Bounded options s) := fun hb => ⟨hb.pending, fun _ => hb⟩
  match pos, h with
  | .pre 0, h => exact ⟨fun _ => by simp [h.pending], fun hne => absurd rfl hne⟩
  | .pre (k + 1), h =>
    simp only [dsAssertion] at h
    split_ifs at h
    · exact of_bounded h.ledger.bounded
    · exact of_bounded h.ledger.bounded
  | .test, h => exact of_bounded h.ledger.bounded
  | .body 0, h | .body 1, h | .body 2, h =>
    obtain ⟨⟨k, -, hbetween⟩, -⟩ := h
    exact of_bounded hbetween.ledger.bounded
  | .body 3, h | .body 4, h | .body 5, h | .body 6, h => exact of_bounded h.1.ledger.bounded
  | .body (k + 7), h => exact of_bounded h.ledger.bounded
  | .post 0, h | .post 1, h | .post (k + 2), h => exact of_bounded h.1.ledger.bounded
  | .done, h => exact of_bounded h.1.ledger.bounded
  | .dead e, h => exact of_bounded h.1

/-- The assertions of the outline say what `Batched` asks for. -/
theorem dsAssertion.batched {checks : ℕ} {c : Config (OpState (DsLocal ι Unit)) Crash}
    (h : dsAssertion it i₀ o w options checks c.pos c.rounds c.st) (hr : c.rounds < 2 ^ 31) :
    Batched w options.iterwait c := by
  obtain ⟨pos, s, r⟩ := c
  have htest : pos = .test → Between it i₀ w options r s := by
    rintro rfl
    exact h
  have hdone : pos = .done → Stopped it i₀ w options r s ∧ s.ses.pending = [] := by
    rintro rfl
    exact h
  have hrecorded : pos = .done → s.ses.rs.recorded = (List.range s.ses.sent.length).map w.outcome := by
    intro hp
    obtain ⟨hstopped, hnil⟩ := hdone hp
    simpa [hnil] using hstopped.ledger.outcomes
  refine ⟨fun hp => ?_, fun hp => (htest hp).room.room, h.bounded.1,
    fun hp => (h.bounded.2 hp).remaining, fun hp => ?_,
    fun hp => (hdone hp).2, fun hp => (hdone hp).1.count, hrecorded, fun hp => ?_⟩
  · have hrem := (htest hp).ledger.remaining
    have hcur := (htest hp).room.cursor
    dsimp only
    omega
  · obtain ⟨hstopped, hnil⟩ := hdone hp
    have hrem := hstopped.ledger.remaining
    have hcur := hstopped.ledger.cursor_le
    simp only [hnil, List.length_nil] at hrem hcur
    dsimp only
    omega
  · refine counts_exact (hdone hp).1.ledger.stats fun text => List.count_le_length.trans_lt ?_
    simpa [hrecorded hp, (hdone hp).1.count] using hr

/-- Two runs that both came to the end of the dataset have gone through the same items. -/
theorem Walked.eq_of_done {r r' : ℕ} {i i' : ι} (h : Walked it i₀ r i) (h' : Walked it i₀ r' i')
    (hd : it.done i = true) (hd' : it.done i' = true) : r = r' := by
  -- an item at the end of one run cannot have been passed by the other
  have hle : ∀ {k k' : ℕ} {j j' : ι}, Walked it i₀ k j → Walked it i₀ k' j' → it.done j = true →
      k' ≤ k := by
    intro k k' j j' hk hk' hj
    by_contra hlt
    obtain ⟨j₂, hitem, hnot⟩ := hk'.passed k (by omega)
    rw [hk.item, Except.ok.injEq] at hitem
    rw [← hitem, hj] at hnot
    cases hnot
  exact Nat.le_antisymm (hle h' h hd') (hle h h' hd)

/-- The configuration an operation starts in. -/
def BatchOp.start (i₀ : ι) (doCancel : Bool) (rs : ResultSet) (clockReads randReads : ℕ) :
    Config (OpState (DsLocal ι Unit)) Crash :=
  .start (dsStart (.idle doCancel rs clockReads randReads) i₀)

/-- Wherever an interleaving takes one of the operations, its assertion holds. -/
theorem BatchOp.reaches (op : BatchOp) {doCancel : Bool} {rs : ResultSet} {clockReads randReads : ℕ}
    {c : Config (OpState (DsLocal ι Unit)) Crash}
    (h : (op.prog it o w options).Reaches cancelCurrent
      (BatchOp.start i₀ doCancel rs clockReads randReads) c) (hr : c.rounds < 2 ^ 31) :
    ∃ checks, dsAssertion it i₀ o w options checks c.pos c.rounds c.st := by
  obtain ⟨checks, mk, hchecks, hmk, heq⟩ := op.prog_eq it o w options
  rw [heq] at h
  exact ⟨checks.length, (dsOp_outline hchecks hmk).sound h (dsStart_satisfies _ _ _ _ _) hr⟩

theorem BatchOp.reaches_batched (op : BatchOp) {doCancel : Bool} {rs : ResultSet}
    {clockReads randReads : ℕ} {c : Config (OpState (DsLocal ι Unit)) Crash}
    (h : (op.prog it o w options).Reaches cancelCurrent
      (BatchOp.start i₀ doCancel rs clockReads randReads) c) (hr : c.rounds < 2 ^ 31) :
    Batched w options.iterwait c := by
  obtain ⟨checks, hA⟩ := op.reaches h hr
  exact hA.batched hr

theorem BatchOp.reaches_done (op : BatchOp) {doCancel : Bool} {rs : ResultSet}
    {clockReads randReads : ℕ} {c : Config (OpState (DsLocal ι Unit)) Crash}
    (h : (op.prog it o w options).Reaches cancelCurrent
      (BatchOp.start i₀ doCancel rs clockReads randReads) c) (hr : c.rounds < 2 ^ 31)
    (hdone : c.pos = .done) : Stopped it i₀ w options c.rounds c.st := by
  obtain ⟨checks, hA⟩ := op.reaches h hr
  rw [hdone] at hA
  exact hA.1

/-- In every run, under every interleaving with cancellations and for every batch size, the futures,
the counter and the results agree; the summary depends on the items gone through only, not on the batch
size; and on a dataset with an end whose items do not fail every run returns. -/
theorem BatchOp.summary (op : BatchOp) (it : IterOps ι) (i₀ : ι) (o : HandleOptions) (w : World)
    (options : ResultOptions) (doCancel : Bool) (rs : ResultSet) (clockReads randReads : ℕ) :
    (∀ c, (op.prog it o w options).Reaches cancelCurrent
        (BatchOp.start i₀ doCancel rs clockReads randReads) c → c.rounds < 2 ^ 31 →
      Batched w options.iterwait c) ∧
    (∀ options' w' doCancel' rs' clockReads' randReads' c c', w'.outcome = w.outcome →
      (op.prog it o w options).Reaches cancelCurrent
        (BatchOp.start i₀ doCancel rs clockReads randReads) c →
      (op.prog it o w' options').Reaches cancelCurrent
        (BatchOp.start i₀ doCancel' rs' clockReads' randReads') c' →
      c.rounds < 2 ^ 31 → c'.rounds < 2 ^ 31 → c.pos = .done → c'.pos = .done →
      (c.rounds = c'.rounds ∨ c.st.ses.doCancel = false ∧ c'.st.ses.doCancel = false) →
      ResultSet.statsJson c.st.ses.rs.stats = ResultSet.statsJson c'.st.ses.rs.stats) ∧
    (∀ m last, m < 2 ^ 31 → it.item i₀ m = .ok last → it.done last = true →
      (∀ e, ¬ Failed it i₀ o m e) → ∀ sched, ∃ n, ((op.prog it o w options).run cancelCurrent sched
        (BatchOp.start i₀ doCancel rs clockReads randReads) n).pos = .done) := by
  refine ⟨fun c hc hr => ?_, ?_, ?_⟩
  · exact op.reaches_batched hc hr
  · intro options' w' doCancel' rs' clockReads' randReads' c c' hout hc hc' hr hr' hd hd' hsame
    have hs := op.reaches_done hc hr hd
    have hs' := op.reaches_done hc' hr' hd'
    -- both runs went through the same items, and the futures of a batch are all drained in the end
    have hrounds : c.rounds = c'.rounds := by
      rcases hsame with heq | ⟨hlow, hlow'⟩
      · exact heq
      · exact hs.walked.eq_of_done hs'.walked (hs.stopped hlow) (hs'.stopped hlow')
    have hb : Batched w options.iterwait c := op.reaches_batched hc hr
    have hb' : Batched w' options'.iterwait c' := op.reaches_batched hc' hr'
    have hrecorded : c'.st.ses.rs.recorded = c.st.ses.rs.recorded := by
      rw [hb.done_recorded hd, hb'.done_recorded hd', hb.done_sent hd, hb'.done_sent hd', hrounds,
        hout]
    unfold ResultSet.statsJson
    rw [(hb.done_stats hd).toList_eq (hrecorded ▸ hb'.done_stats hd')]
  · intro m last hm hlast hdone hfail sched
    obtain ⟨checks, mk, hchecks, hmk, heq⟩ := op.prog_eq it o w options
    rw [heq]
    exact dsOp_returns hchecks hmk hm hlast hdone hfail _ (dsStart_satisfies _ _ _ _ _) sched

/-- Two items, fetched in batches of one. -/
theorem BatchOp.summary_two : ∃ n, ((BatchOp.get.prog
    (@Dataset.getIter JsonAccess.plain JsonWriter.compact
      ⟨.success, .inline (.array [.string "key1", .string "key2"])⟩)
    ⟨"host", "", "", "default", false, false, "", 0, 0, 0⟩
    ⟨fun _ => .success, fun _ => ⟨0, 0⟩, fun _ => 0, "", (false, false)⟩
    { ResultOptions.default with iterwait := 1 }).run cancelCurrent (fun _ => false)
    (BatchOp.start Dataset.newIterator false .new 0 0) n).pos = .done := by
  refine (BatchOp.summary .get _ _ _ _ _ _ _ _ _).2.2 2 ⟨2, "", "", "", ""⟩ (by decide) rfl rfl
    ?_ _
  rintro e (⟨k, hk, he⟩ | ⟨k, hk, i, hi, -, he⟩)
  · match k, hk with
    | 0, _ | 1, _ | 2, _ => cases he
  · cases he

end Summary

end Sdkd
