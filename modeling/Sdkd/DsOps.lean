import Sdkd.Handle

/-!
# Operations on datasets

`dsGet`, `dsMutate`, `dsKeyop` and `dsSDSinglePath` of `Handle.cpp` as loop programs that run beside
the control thread, which may set the handle's cancel flag between any two of their actions.

## Main definitions

- `dsOp` — the loop the four operations share
- `dsGet`, `dsMutate`, `dsKeyop`, `dsSDSinglePath`
- `Ledger` — what ties the futures, the counter and the results to the requests sent
- `dsAssertion` — the assertion that holds at each control position

## Main results

- `dsOp_outline` — the assertions form a proof outline
- `dsOp_returns` — on a dataset with an end the loop returns under every schedule of cancellations
-/

namespace Sdkd

open LoopProg

/-- The iterator's state at the item with number `k`. -/
def IterOps.item {ι : Type*} (it : IterOps ι) (i : ι) : ℕ → Except Crash ι
  | 0 => it.start i
  | k + 1 =>
    match it.item i k with
    | .ok j => it.advance j
    | .error e => .error e

section Programs

variable {ι : Type*} (it : IterOps ι) (o : HandleOptions) (w : World) (options : ResultOptions)

/-- The loop the operations share: `checks` is what they do before they fetch the first item, `mk` makes
the request for an item. -/
def dsOp (checks : List (OpAction (DsLocal ι Unit)))
    (mk : DocumentId → ι → Option ClusterRequest) : OpProg (DsLocal ι Unit) where
  pre := enter options :: resetCancel :: (checks ++ [startIter it])
  test := itemsLeft it
  body := [lookupCollection it o, markBegin w, submitItem it o w mk, postsubmit,
    drain (recordOutcome w), delay w, advanceIter it]
  post := [collectResult, drain (recordOutcome w)]

def dsGet : OpProg (DsLocal ι Unit) :=
  dsOp it o w options [] fun id _ => some (.get id)

/-- `FLAGS`. -/
def flags : ℕ := 0x2

/-- The commands `dsMutate` implements. -/
def Code.isMutation : Code → Bool
  | .mcDsMutateAdd | .mcDsMutateSet | .mcDsMutateReplace | .mcDsMutateAppend
  | .mcDsMutatePrepend => true
  | _ => false

/-- `dsMutate`'s look at the command. -/
def checkMutation (cmd : Code) : OpAction (DsLocal ι Unit) := fun s =>
  if cmd.isMutation then .next s
  else
    .ret { s with ses := { s.ses with rs := { s.ses.rs with
      operError := .of Error.SUBSYSf_SDKD Error.SDKD_EINVAL "Unknown mutation operation" } } }

def mutationRequest (cmd : Code) (id : DocumentId) (v : String) : Option ClusterRequest :=
  match cmd with
  | .mcDsMutateSet => some (.upsert id v options.expiry flags)
  | .mcDsMutateAdd => some (.insert id v options.expiry flags)
  | .mcDsMutateAppend => some (.append id v)
  | .mcDsMutatePrepend => some (.prepend id v)
  | .mcDsMutateReplace => some (.replace id v options.expiry flags)
  | _ => none

def dsMutate (cmd : Code) : OpProg (DsLocal ι Unit) :=
  dsOp it o w options [checkMutation cmd] fun id i => mutationRequest options cmd id (it.value i)

def dsKeyop (cmd : Code) : OpProg (DsLocal ι Unit) :=
  dsOp it o w options [] fun id _ => some (if cmd = .mcDsDelete then .remove id else .touch id)

/-- The subdocument request of an item; an unknown command makes none. -/
def subdocRequest (id : DocumentId) (command path value : String) : Option ClusterRequest :=
  match command with
  | "get" => some (.lookupIn id [(.get, path)])
  | "get_multi" => some (.lookupIn id [(.get, path), (.exists, path)])
  | "replace" => some (.mutateIn id .replace path value)
  | "dict_add" => some (.mutateIn id .dictAdd path value)
  | "dict_upsert" => some (.mutateIn id .dictUpsert path value)
  | "array_add" => some (.mutateIn id .arrayPushFirst path value)
  | "array_add_last" => some (.mutateIn id .arrayPushLast path value)
  | "counter" => some (.mutateIn id .counter path value)
  | _ => none

def dsSDSinglePath : OpProg (DsLocal ι Unit) :=
  dsOp it o w options [] fun id i => subdocRequest id (it.command i) (it.path i) (it.value i)

end Programs

/-- The look at the command lets the mutations pass. -/
theorem checkMutation_of_isMutation {ι : Type*} {cmd : Code} (h : cmd.isMutation = true)
    (s : OpState (DsLocal ι Unit)) : checkMutation cmd s = .next s := if_pos h

theorem mutationRequest_isSome {cmd : Code} (h : cmd.isMutation = true) (options : ResultOptions)
    (id : DocumentId) (v : String) : (mutationRequest options cmd id v).isSome := by
  unfold Code.isMutation at h
  split at h <;> first | rfl | cases h

/-! ## The bookkeeping -/

namespace Session

/-- The outcomes recorded, and behind them those of the futures that are left, are those of the requests sent. -/
def InOrder (w : World) (s : Session) : Prop :=
  s.rs.recorded ++ s.pending.drop s.cursor = (List.range s.sent.length).map w.outcome

variable {w : World} {s : Session}

/-- One request more, whose future joins the others. -/
theorem InOrder.submit (h : s.InOrder w) (hcursor : s.cursor = 0) (r : ClusterRequest) :
    (s.submit w r).InOrder w := by
  unfold InOrder at h ⊢
  rw [hcursor, List.drop_zero] at h
  simp only [Session.submit, hcursor, List.drop_zero, List.length_append, List.length_singleton,
    List.range_succ, List.map_append, List.map_cons, List.map_nil]
  rw [← List.append_assoc, h]

/-- The future at the cursor is recorded. -/
theorem InOrder.record (h : s.InOrder w) {ec : ErrorCode} (hec : s.pending[s.cursor]? = some ec) :
    InOrder w { s.setRescode w ec with cursor := s.cursor + 1 } := by
  obtain ⟨hlt, hget⟩ := List.getElem?_eq_some_iff.mp hec
  unfold InOrder at h ⊢
  rw [List.drop_eq_getElem_cons hlt, hget] at h
  simpa [Session.setRescode] using h

/-- The futures are dropped behind the last one. -/
theorem InOrder.clear (h : s.InOrder w) (hnone : s.pending[s.cursor]? = none) :
    InOrder w { s with pending := [], cursor := 0 } := by
  unfold InOrder at h ⊢
  rw [List.drop_of_length_le (List.getElem?_eq_none_iff.mp hnone)] at h
  simpa using h

end Session

/-- What ties the futures, the counter of outstanding results and the result set to the requests sent;
`late` counts the submissions `remaining` does not count yet. -/
structure Ledger (w : World) (n late : ℕ) (s : Session) : Prop where
  iterwait : s.rs.options.iterwait = n
  stats : Histogram.Counts intCounter s.rs.stats (s.rs.recorded.map ErrorCode.text)
  outcomes : s.rs.recorded ++ s.pending.drop s.cursor = (List.range s.sent.length).map w.outcome
  cursor_le : s.cursor ≤ s.pending.length
  remaining : s.rs.remaining = s.pending.length - s.cursor - late
  batch : 0 < n → s.pending.length ≤ n

/-- Between two batches: no drain is going on and the batch is not full. -/
structure Room (n : ℕ) (s : Session) : Prop where
  cursor : s.cursor = 0
  draining : s.draining = false
  room : 0 < n → s.pending.length < n

namespace Ledger

variable {w : World} {n late : ℕ} {s : Session}

/-- No more results are outstanding than requests were sent. -/
theorem outstanding_le (h : Ledger w n late s) : s.pending.length - s.cursor ≤ s.sent.length := by
  have hlen := congrArg List.length h.outcomes
  simp only [List.length_append, List.length_drop, List.length_map, List.length_range] at hlen
  omega

/-- A submission joins the batch; `remaining` is late by one. -/
theorem submit (h : Ledger w n 0 s) (hroom : Room n s) (r : ClusterRequest) :
    Ledger w n 1 (s.submit w r) where
  iterwait := h.iterwait
  stats := h.stats
  outcomes := Session.InOrder.submit h.outcomes hroom.cursor r
  cursor_le := by simp [Session.submit, hroom.cursor]
  remaining := by
    have hrem := h.remaining
    simp only [Session.submit, List.length_append, List.length_singleton]
    omega
  batch := fun hn => by
    have := hroom.room hn
    simp only [Session.submit, List.length_append, List.length_singleton]
    omega

/-- The handler of a drain records the outcome of the future at the cursor. -/
theorem record (h : Ledger w n 0 s) (hsent : s.sent.length < 2 ^ 31) {ec : ErrorCode}
    (hec : s.pending[s.cursor]? = some ec) :
    Ledger w n 0 { s.setRescode w ec with cursor := s.cursor + 1 } where
  iterwait := by simpa [Session.setRescode] using h.iterwait
  stats := by simpa [Session.setRescode] using h.stats.bump ec.text
  outcomes := Session.InOrder.record h.outcomes hec
  cursor_le := (List.getElem?_eq_some_iff.mp hec).1
  remaining := by
    obtain ⟨hlt, -⟩ := List.getElem?_eq_some_iff.mp hec
    have hle := h.outstanding_le
    have hrem := h.remaining
    simp only [Session.setRescode, ResultSet.setRescode_remaining]
    rw [toInt_of_bounds] <;> omega
  batch := h.batch

/-- Behind the last future the batch is empty. -/
theorem clear (h : Ledger w n 0 s) (hnone : s.pending[s.cursor]? = none) :
    Ledger w n 0 { s with pending := [], cursor := 0 } where
  iterwait := h.iterwait
  stats := h.stats
  outcomes := Session.InOrder.clear h.outcomes hnone
  cursor_le := le_rfl
  remaining := by
    have hge := List.getElem?_eq_none_iff.mp hnone
    have hle := h.cursor_le
    have hrem := h.remaining
    simp only [List.length_nil]
    omega
  batch := fun _ => Nat.zero_le _

/-- After `enter` nothing has been sent, nothing is outstanding and nothing is recorded. -/
theorem enter {s : Session} (hp : s.pending = []) (hs : s.sent = []) (hc : s.cursor = 0)
    (options : ResultOptions) : Ledger w options.iterwait 0 (s.enter options) where
  iterwait := rfl
  stats := Histogram.counts_empty
  outcomes := by simp [Session.enter, ResultSet.clear, hp, hs]
  cursor_le := by simp [Session.enter, hc]
  remaining := by simp [Session.enter, ResultSet.clear, hp, hc]
  batch := fun _ => by simp [Session.enter, hp]

end Ledger

/-! ## The proof outline -/

/-- The iterator `i` stands at the item with number `k`, and the items before it are not the end. -/
structure Walked {ι : Type*} (it : IterOps ι) (i₀ : ι) (k : ℕ) (i : ι) : Prop where
  item : it.item i₀ k = .ok i
  passed : ∀ j < k, ∃ i', it.item i₀ j = .ok i' ∧ it.done i' = false

theorem Walked.succ {ι : Type*} {it : IterOps ι} {i₀ i j : ι} {k : ℕ} (h : Walked it i₀ k i)
    (hmore : it.done i = false) (hj : it.advance i = .ok j) : Walked it i₀ (k + 1) j where
  item := by simp only [IterOps.item, h.item, hj]
  passed := fun l hl => by
    rcases Nat.lt_succ_iff_lt_or_eq.mp hl with hlt | rfl
    · exact h.passed l hlt
    · exact ⟨i, h.item, hmore⟩

section Outline

variable {ι : Type*} (it : IterOps ι) (i₀ : ι) (o : HandleOptions) (w : World)
  (options : ResultOptions)

/-- Before `enter`. -/
structure Fresh (r : ℕ) (s : OpState (DsLocal ι Unit)) : Prop where
  pending : s.ses.pending = []
  sent : s.ses.sent = []
  cursor : s.ses.cursor = 0
  draining : s.ses.draining = false
  iter : s.loc.iter = i₀
  rounds : r = 0

/-- Between `enter` and the first item. -/
structure Entered (r : ℕ) (s : OpState (DsLocal ι Unit)) : Prop where
  ledger : Ledger w options.iterwait 0 s.ses
  room : Room options.iterwait s.ses
  sent : s.ses.sent = []
  iter : s.loc.iter = i₀
  rounds : r = 0

/-- At the loop test after `r` rounds. -/
structure Between (r : ℕ) (s : OpState (DsLocal ι Unit)) : Prop where
  ledger : Ledger w options.iterwait 0 s.ses
  room : Room options.iterwait s.ses
  count : s.ses.sent.length = r
  walked : Walked it i₀ r s.loc.iter

/-- In the round with number `r`, before its submission. -/
structure Chosen (r : ℕ) (s : OpState (DsLocal ι Unit)) : Prop where
  between : ∃ k, r = k + 1 ∧ Between it i₀ w options k s
  more : it.done s.loc.iter = false

/-- In the round with number `r`, behind its submission. -/
structure Submitted (late r : ℕ) (s : OpState (DsLocal ι Unit)) : Prop where
  ledger : Ledger w options.iterwait late s.ses
  count : s.ses.sent.length = r
  walked : ∃ k, r = k + 1 ∧ Walked it i₀ k s.loc.iter
  more : it.done s.loc.iter = false

/-- Behind the loop. -/
structure Stopped (r : ℕ) (s : OpState (DsLocal ι Unit)) : Prop where
  ledger : Ledger w options.iterwait 0 s.ses
  count : s.ses.sent.length = r
  walked : Walked it i₀ r s.loc.iter
  stopped : s.ses.doCancel = false → it.done s.loc.iter = true

/-- Neither the futures nor the outstanding results outgrow the batch. -/
structure Bounded (s : OpState (DsLocal ι Unit)) : Prop where
  pending : 0 < options.iterwait → s.ses.pending.length ≤ options.iterwait
  remaining : 0 < options.iterwait → s.ses.rs.remaining ≤ options.iterwait

/-- Why an operation dies with `e` in its first `r` rounds: the data of an item cannot be built, or its
key has no collection. -/
def Failed (r : ℕ) (e : Crash) : Prop :=
  (∃ k ≤ r, it.item i₀ k = .error e) ∨
  ∃ k < r, ∃ i, it.item i₀ k = .ok i ∧ it.done i = false ∧ o.getCollection (it.key i) = .error e

/-- What holds at a control position after `r` rounds. `checks` is the number of actions between
`resetCancel` and `startIter`. -/
def dsAssertion (checks : ℕ) (pos : Pos Crash) (r : ℕ) (s : OpState (DsLocal ι Unit)) : Prop :=
  match pos with
  | .pre 0 => Fresh i₀ r s
  | .pre (k + 1) =>
    if k ≤ checks + 1 then Entered i₀ w options r s else Between it i₀ w options r s
  | .test => Between it i₀ w options r s
  | .body 3 => Submitted it i₀ w options 1 r s ∧ s.ses.cursor = 0
  | .body 4 => Submitted it i₀ w options 0 r s ∧
      (s.ses.draining = false → Room options.iterwait s.ses)
  | .body 5 => Submitted it i₀ w options 0 r s ∧ s.ses.cursor = 0 ∧
      (0 < options.iterwait → s.ses.pending.length < options.iterwait)
  | .body 6 => Submitted it i₀ w options 0 r s ∧ Room options.iterwait s.ses
  | .body (_ + 7) => Between it i₀ w options r s
  | .body _ => Chosen it i₀ w options r s
  | .post 0 => Stopped it i₀ w options r s ∧ Room options.iterwait s.ses
  | .post 1 => Stopped it i₀ w options r s ∧ s.ses.draining = true
  | .post (_ + 2) | .done => Stopped it i₀ w options r s ∧ s.ses.pending = []
  | .dead e => Bounded options s ∧ Failed it i₀ o r e

variable {it i₀ o w options}

theorem Failed.mono {r r' : ℕ} {e : Crash} (h : Failed it i₀ o r e) (hr : r ≤ r') :
    Failed it i₀ o r' e := by
  rcases h with ⟨k, hk, he⟩ | ⟨k, hk, hi⟩
  · exact .inl ⟨k, hk.trans hr, he⟩
  · exact .inr ⟨k, hk.trans_le hr, hi⟩

section Cancel

variable {r : ℕ} {s : OpState (DsLocal ι Unit)}

theorem Ledger.cancel {n late : ℕ} (h : Ledger w n late s.ses) :
    Ledger w n late (cancelCurrent s).ses :=
  ⟨h.iterwait, h.stats, h.outcomes, h.cursor_le, h.remaining, h.batch⟩

theorem Room.cancel {n : ℕ} (h : Room n s.ses) : Room n (cancelCurrent s).ses :=
  ⟨h.cursor, h.draining, h.room⟩

theorem Between.cancel (h : Between it i₀ w options r s) :
    Between it i₀ w options r (cancelCurrent s) :=
  ⟨h.ledger.cancel, h.room.cancel, h.count, h.walked⟩

theorem Chosen.cancel (h : Chosen it i₀ w options r s) :
    Chosen it i₀ w options r (cancelCurrent s) := by
  obtain ⟨⟨k, hk, hbetween⟩, hmore⟩ := h
  exact ⟨⟨k, hk, hbetween.cancel⟩, hmore⟩

theorem Submitted.cancel {late : ℕ} (h : Submitted it i₀ w options late r s) :
    Submitted it i₀ w options late r (cancelCurrent s) :=
  ⟨h.ledger.cancel, h.count, h.walked, h.more⟩

theorem Stopped.cancel (h : Stopped it i₀ w options r s) :
    Stopped it i₀ w options r (cancelCurrent s) :=
  ⟨h.ledger.cancel, h.count, h.walked, fun hf => by simp [cancelCurrent] at hf⟩

/-- The control thread leaves every assertion true. -/
theorem dsAssertion_cancel {checks : ℕ} {pos : Pos Crash}
    (h : dsAssertion it i₀ o w options checks pos r s) :
    dsAssertion it i₀ o w options checks pos r (cancelCurrent s) := by
  match pos, h with
  | .pre 0, h => exact ⟨h.1, h.2, h.3, h.4, h.5, h.6⟩
  | .pre (k + 1), h =>
    simp only [dsAssertion] at h ⊢
    split_ifs at h ⊢
    · exact ⟨h.1.cancel, h.2.cancel, h.3, h.4, h.5⟩
    · exact h.cancel
  | .test, h => exact h.cancel
  | .body 0, h | .body 1, h | .body 2, h => exact h.cancel
  | .body 3, h => exact ⟨h.1.cancel, h.2⟩
  | .body 4, h => exact ⟨h.1.cancel, fun hd => (h.2 hd).cancel⟩
  | .body 5, h => exact ⟨h.1.cancel, h.2⟩
  | .body 6, h => exact ⟨h.1.cancel, h.2.cancel⟩
  | .body (k + 7), h => exact h.cancel
  | .post 0, h => exact ⟨h.1.cancel, h.2.cancel⟩
  | .post 1, h => exact ⟨h.1.cancel, h.2⟩
  | .post (k + 2), h => exact ⟨h.1.cancel, h.2⟩
  | .done, h => exact ⟨h.1.cancel, h.2⟩
  | .dead e, h => exact ⟨⟨h.1.1, h.1.2⟩, h.2⟩

end Cancel

theorem Ledger.bounded {late : ℕ} {s : OpState (DsLocal ι Unit)}
    (h : Ledger w options.iterwait late s.ses) : Bounded options s where
  pending := h.batch
  remaining := fun hn => by
    have hbatch := h.batch hn
    have hrem := h.remaining
    omega

/-! ### One lemma for each action -/

section Establishes

variable {checks r : ℕ} {s : OpState (DsLocal ι Unit)}

theorem enter_establishes (h : Fresh i₀ r s) :
    (enter options s).Establishes (dsAssertion it i₀ o w options checks · r) (.pre 0) (.pre 1) s :=
  ⟨Ledger.enter h.pending h.sent h.cursor options,
    ⟨h.cursor, h.draining, fun hn => by simpa [Session.enter, h.pending] using hn⟩,
    h.sent, h.iter, h.rounds⟩

theorem resetCancel_establishes (h : Entered i₀ w options r s) :
    (resetCancel s).Establishes (dsAssertion it i₀ o w options checks · r) (.pre 1) (.pre 2) s := by
  obtain ⟨⟨hwait, hstats, hout, hcur, hrem, hbatch⟩, ⟨hcursor, hdraining, hroom⟩, hnil, hiter, hr⟩ := h
  show dsAssertion it i₀ o w options checks (.pre 2) r _
  simp only [dsAssertion, Nat.le_add_left, if_true]
  exact ⟨⟨hwait, hstats, hout, hcur, hrem, hbatch⟩, ⟨hcursor, hdraining, hroom⟩, hnil, hiter, hr⟩

theorem startIter_establishes {here : Pos Crash} (h : Entered i₀ w options r s) :
    (startIter it s).Establishes (dsAssertion it i₀ o w options checks · r) here
      (.pre (checks + 3)) s := by
  obtain ⟨hledger, hroom, hnil, hiter, hr⟩ := h
  rcases startIter_outcome it s with ⟨i, hi, hout⟩ | ⟨e, he, hout⟩ <;> rw [hout]
  · have hwalked : Walked it i₀ r i := by
      rw [hr]
      rw [hiter] at hi
      exact ⟨hi, fun j hj => absurd hj (Nat.not_lt_zero j)⟩
    show dsAssertion it i₀ o w options checks (.pre (checks + 2 + 1)) r _
    simp only [dsAssertion, show ¬ checks + 2 ≤ checks + 1 by omega, if_false]
    exact ⟨hledger, hroom, by simp [hnil, hr], hwalked⟩
  · exact ⟨hledger.bounded, .inl ⟨0, Nat.zero_le r, by rw [← hiter]; exact he⟩⟩

theorem lookupCollection_establishes (h : Chosen it i₀ w options r s) :
    (lookupCollection it o s).Establishes (dsAssertion it i₀ o w options checks · r) (.body 0)
      (.body 1) s := by
  obtain ⟨⟨k, hk, hledger, hroom, hcount, hwalked⟩, hmore⟩ := h
  rcases lookupCollection_outcome it o s with ⟨c, -, hout⟩ | ⟨e, he, hout⟩ <;> rw [hout]
  · exact ⟨⟨k, hk, hledger, hroom, hcount, hwalked⟩, hmore⟩
  · exact ⟨hledger.bounded, .inr ⟨k, hk ▸ Nat.lt_succ_self k, _, hwalked.item, hmore, he⟩⟩

theorem markBegin_establishes (h : Chosen it i₀ w options r s) :
    (markBegin w s).Establishes (dsAssertion it i₀ o w options checks · r) (.body 1) (.body 2) s := by
  obtain ⟨⟨k, hk, ⟨hwait, hstats, hout, hcur, hrem, hbatch⟩, ⟨hcursor, hdraining, hroom⟩, hcount,
    hwalked⟩, hmore⟩ := h
  exact ⟨⟨k, hk, ⟨hwait, hstats, hout, hcur, hrem, hbatch⟩, ⟨hcursor, hdraining, hroom⟩, hcount,
    hwalked⟩, hmore⟩

theorem submitItem_establishes {mk : DocumentId → ι → Option ClusterRequest}
    (hmk : ∀ id i, (mk id i).isSome) (h : Chosen it i₀ w options r s) :
    (submitItem it o w mk s).Establishes (dsAssertion it i₀ o w options checks · r) (.body 2)
      (.body 3) s := by
  obtain ⟨req, hreq⟩ := Option.isSome_iff_exists.mp (hmk (documentId it o s.loc) s.loc.iter)
  obtain ⟨⟨k, hk, hledger, hroom, hcount, hwalked⟩, hmore⟩ := h
  simp only [submitItem, hreq]
  have hlen : (s.ses.submit w req).sent.length = r := by
    simp [Session.submit, hcount, hk]
  exact ⟨⟨hledger.submit hroom req, hlen, ⟨k, hk, hwalked⟩, hmore⟩, hroom.cursor⟩

theorem postsubmit_establishes (hr : r < 2 ^ 31)
    (h : Submitted it i₀ w options 1 r s ∧ s.ses.cursor = 0) :
    (postsubmit s).Establishes (dsAssertion it i₀ o w options checks · r) (.body 3) (.body 4) s := by
  obtain ⟨⟨hledger, hcount, hwalked, hmore⟩, hcursor⟩ := h
  have hle := hledger.outstanding_le
  have hrem : toInt (s.ses.rs.remaining + 1) = s.ses.pending.length := by
    have := hledger.remaining
    rw [toInt_of_bounds] <;> omega
  refine ⟨⟨⟨hledger.iterwait, hledger.stats, hledger.outcomes, hledger.cursor_le, ?_,
    hledger.batch⟩, hcount, hwalked, hmore⟩, fun hdrain => ⟨hcursor, hdrain, fun hn => ?_⟩⟩
  · simp only [hrem, hcursor]
    omega
  -- `postsubmit` returned because the batch is not full
  · have hnowait : toUInt s.ses.pending.length < options.iterwait := by
      simp only [hrem, hledger.iterwait, Bool.not_eq_false', decide_eq_true_eq] at hdrain
      rcases hdrain with hzero | ⟨-, hlt⟩
      · omega
      · exact hlt
    have hval : toUInt s.ses.pending.length = s.ses.pending.length := by
      unfold toUInt
      omega
    rw [hval] at hnowait
    exact hnowait

theorem drain_establishes (hr : r < 2 ^ 31) (h : Submitted it i₀ w options 0 r s ∧
      (s.ses.draining = false → Room options.iterwait s.ses)) :
    (drain (recordOutcome w) s).Establishes (dsAssertion it i₀ o w options checks · r) (.body 4)
      (.body 5) s := by
  obtain ⟨⟨hledger, hcount, hwalked, hmore⟩, hroom⟩ := h
  rcases drain_outcome (recordOutcome w) s with ⟨hdrain, hout⟩ | ⟨ec, hdrain, hec, hout⟩ |
    ⟨-, hnone, hout⟩ <;> rw [hout]
  · have hr := hroom hdrain
    exact ⟨⟨hledger, hcount, hwalked, hmore⟩, hr.cursor, hr.room⟩
  · refine ⟨⟨hledger.record (hcount ▸ hr) hec, hcount, hwalked, hmore⟩, fun hno => ?_⟩
    exact absurd (hdrain.symm.trans hno) (by decide)
  · exact ⟨⟨hledger.clear hnone, hcount, hwalked, hmore⟩, rfl, id⟩

theorem delay_establishes (h : Submitted it i₀ w options 0 r s ∧ s.ses.cursor = 0 ∧
      (0 < options.iterwait → s.ses.pending.length < options.iterwait)) :
    (delay w s).Establishes (dsAssertion it i₀ o w options checks · r) (.body 5) (.body 6) s := by
  obtain ⟨⟨⟨hwait, hstats, hout, hcur, hrem, hbatch⟩, hcount, hwalked, hmore⟩, hcursor, hroom⟩ := h
  obtain ⟨draws, heq⟩ := delay_outcome w s
  rw [heq]
  exact ⟨⟨⟨hwait, hstats, hout, hcur, hrem, hbatch⟩, hcount, hwalked, hmore⟩, hcursor, rfl, hroom⟩

theorem advanceIter_establishes (h : Submitted it i₀ w options 0 r s ∧ Room options.iterwait s.ses) :
    (advanceIter it s).Establishes (dsAssertion it i₀ o w options checks · r) (.body 6)
      (.body 7) s := by
  obtain ⟨⟨hledger, hcount, ⟨k, rfl, hwalked⟩, hmore⟩, hroom⟩ := h
  rcases advanceIter_outcome it s with ⟨i, hi, hout⟩ | ⟨e, he, hout⟩ <;> rw [hout]
  · exact ⟨hledger, hroom, hcount, hwalked.succ hmore hi⟩
  · exact ⟨hledger.bounded, .inl ⟨k + 1, le_rfl, by simp only [IterOps.item, hwalked.item, he]⟩⟩

theorem collectResult_establishes (h : Stopped it i₀ w options r s ∧ Room options.iterwait s.ses) :
    (collectResult s).Establishes (dsAssertion it i₀ o w options checks · r) (.post 0)
      (.post 1) s := by
  obtain ⟨⟨⟨hwait, hstats, hout, hcur, hrem, hbatch⟩, hcount, hwalked, hstop⟩, hroom⟩ := h
  rcases collectResult_outcome s with ⟨hzero, heq⟩ | ⟨-, heq⟩ <;> rw [heq]
  · refine ⟨⟨⟨hwait, hstats, hout, hcur, hrem, hbatch⟩, hcount, hwalked, hstop⟩,
      List.eq_nil_of_length_eq_zero ?_⟩
    rw [hzero, hroom.cursor] at hrem
    omega
  · exact ⟨⟨⟨hwait, hstats, hout, hcur, hrem, hbatch⟩, hcount, hwalked, hstop⟩, rfl⟩

theorem finalDrain_establishes (hr : r < 2 ^ 31)
    (h : Stopped it i₀ w options r s ∧ s.ses.draining = true) :
    (drain (recordOutcome w) s).Establishes (dsAssertion it i₀ o w options checks · r) (.post 1)
      (.post 2) s := by
  obtain ⟨⟨hledger, hcount, hwalked, hstop⟩, hdrain⟩ := h
  rcases drain_outcome (recordOutcome w) s with ⟨hno, -⟩ | ⟨ec, -, hec, hout⟩ | ⟨-, hnone, hout⟩
  · exact absurd (hdrain.symm.trans hno) (by decide)
  · rw [hout]
    exact ⟨⟨hledger.record (hcount ▸ hr) hec, hcount, hwalked, hstop⟩, hdrain⟩
  · rw [hout]
    exact ⟨⟨hledger.clear hnone, hcount, hwalked, hstop⟩, rfl⟩

end Establishes

/-- Behind `enter` and `resetCancel` the prologue runs the checks, and `startIter` after the last. -/
theorem dsOp_pre_cases {checks : List (OpAction (DsLocal ι Unit))}
    (hchecks : ∀ a ∈ checks, ∀ s, a s = .next s) {mk : DocumentId → ι → Option ClusterRequest}
    {k : ℕ} {there : Pos Crash} {a : OpAction (DsLocal ι Unit)}
    (ha : (dsOp it o w options checks mk).actionAt (.pre (k + 2)) = some (a, there)) :
    there = .pre (k + 3) ∧ k ≤ checks.length ∧
      (k < checks.length ∧ (∀ s, a s = .next s) ∨ k = checks.length ∧ a = startIter it) := by
  obtain ⟨hget, rfl⟩ : (checks ++ [startIter it])[k]? = some a ∧ .pre (k + 3) = there := by
    simpa [Prog.actionAt, dsOp] using ha
  rcases Nat.lt_or_ge k checks.length with hlt | hge
  · rw [List.getElem?_append_left hlt] at hget
    exact ⟨rfl, hlt.le, .inl ⟨hlt, hchecks a (List.mem_of_getElem? hget)⟩⟩
  · rw [List.getElem?_append_right hge, List.getElem?_singleton] at hget
    split_ifs at hget with hzero
    have hk : k = checks.length := Nat.le_antisymm (Nat.sub_eq_zero_iff_le.mp hzero) hge
    exact ⟨rfl, hk.le, .inr ⟨hk, (Option.some.inj hget).symm⟩⟩

/-- The assertions form a proof outline of every operation whose checks pass and which sends one
request for each item, as long as the counter does not overflow. -/
theorem dsOp_outline {checks : List (OpAction (DsLocal ι Unit))}
    (hchecks : ∀ a ∈ checks, ∀ s, a s = .next s) {mk : DocumentId → ι → Option ClusterRequest}
    (hmk : ∀ id i, (mk id i).isSome) :
    (dsOp it o w options checks mk).Outline cancelCurrent fun pos r s =>
      r < 2 ^ 31 → dsAssertion it i₀ o w options checks.length pos r s where
  action := by
    intro here there a r s ha h
    refine Ctl.Establishes.imp fun hr => ?_
    have h := h hr
    match here, h with
    | .pre 0, h =>
      cases ha
      exact enter_establishes h
    | .pre 1, h =>
      cases ha
      exact resetCancel_establishes (by simpa [dsAssertion] using h)
    | .pre (k + 2), h =>
      obtain ⟨rfl, hk, hcase⟩ := dsOp_pre_cases hchecks ha
      -- the checks leave the state alone, so only the last of these actions does something
      simp only [dsAssertion, show k + 1 ≤ checks.length + 1 by omega, if_true] at h
      rcases hcase with ⟨hlt, hskip⟩ | ⟨rfl, rfl⟩
      · rw [hskip s]
        show dsAssertion it i₀ o w options checks.length (.pre (k + 2 + 1)) r s
        simp only [dsAssertion, show k + 2 ≤ checks.length + 1 by omega, if_true]
        exact h
      · exact startIter_establishes h
    | .body 0, h =>
      cases ha
      exact lookupCollection_establishes h
    | .body 1, h =>
      cases ha
      exact markBegin_establishes h
    | .body 2, h =>
      cases ha
      exact submitItem_establishes hmk h
    | .body 3, h =>
      cases ha
      exact postsubmit_establishes hr h
    | .body 4, h =>
      cases ha
      exact drain_establishes hr h
    | .body 5, h =>
      cases ha
      exact delay_establishes h
    | .body 6, h =>
      cases ha
      exact advanceIter_establishes h
    | .post 0, h =>
      cases ha
      exact collectResult_establishes h
    | .post 1, h =>
      cases ha
      exact finalDrain_establishes hr h
    | .body (k + 7), h | .post (k + 2), h | .test, h | .done, h | .dead e, h => cases ha
  pre_end := by
    intro k r s hk h hr
    simp only [dsOp, List.length_cons, List.length_append, List.length_nil] at hk
    obtain ⟨j, rfl⟩ := Nat.exists_eq_add_of_le' (show 1 ≤ k by omega)
    have hbetween := h hr
    simp only [dsAssertion, show ¬ j ≤ checks.length + 1 by omega, if_false] at hbetween
    exact hbetween
  enter := by
    intro r s ht h hr
    -- the round with number `r + 1` is about the item with number `r`
    have hmore : it.done s.loc.iter = false := by
      simp only [dsOp, itemsLeft, Bool.and_eq_true, Bool.not_eq_true'] at ht
      exact ht.1
    exact ⟨⟨r, rfl, h (Nat.lt_of_succ_lt hr)⟩, hmore⟩
  leave := by
    intro r s ht h hr
    obtain ⟨hledger, hroom, hcount, hwalked⟩ := h hr
    -- the loop was left because of the flag or because of the end of the dataset
    refine ⟨⟨hledger, hcount, hwalked, fun hcancel => ?_⟩, hroom⟩
    simpa [dsOp, itemsLeft, hcancel] using ht
  body_end := by
    intro k r s hk h
    obtain ⟨j, rfl⟩ := Nat.exists_eq_add_of_le' (show 7 ≤ k from hk)
    exact h
  post_end := by
    intro k r s hk h
    obtain ⟨j, rfl⟩ := Nat.exists_eq_add_of_le' (show 2 ≤ k from hk)
    exact h
  stable := fun _ _ _ h hr => dsAssertion_cancel (h hr)

/-! ### Termination -/

/-- Only a drain repeats itself, once for each future that is left, and nothing leaves the loop. -/
theorem dsOp_progress {checks : List (OpAction (DsLocal ι Unit))}
    (hchecks : ∀ a ∈ checks, ∀ s, a s = .next s) {mk : DocumentId → ι → Option ClusterRequest}
    {here there : Pos Crash} {a : OpAction (DsLocal ι Unit)} (s : OpState (DsLocal ι Unit))
    (ha : (dsOp it o w options checks mk).actionAt here = some (a, there)) :
    (a s).Progress (fun s => s.ses.pending.length - s.ses.cursor) here s := by
  have hdrain : (drain (recordOutcome w) s).Progress
      (fun s => s.ses.pending.length - s.ses.cursor) here s :=
    drain_progress (recordOutcome w) (fun _ _ => rfl) (fun _ _ => rfl) here s
  refine Prog.forall_action (P := fun a => (a s).Progress _ here s) ?_ ?_ ?_ ha
  · simp only [dsOp, List.forall_mem_cons, List.forall_mem_append]
    refine ⟨trivial, trivial, fun a hcheck => ?_, ?_, by simp⟩
    · rw [hchecks a hcheck s]
      trivial
    · rcases startIter_outcome it s with ⟨i, -, hout⟩ | ⟨e, -, hout⟩ <;> rw [hout] <;> trivial
  · simp only [dsOp, List.forall_mem_cons]
    refine ⟨?_, trivial, ?_, trivial, hdrain, ?_, ?_, by simp⟩
    · rcases lookupCollection_outcome it o s with ⟨c, -, hout⟩ | ⟨e, -, hout⟩ <;> rw [hout] <;>
        trivial
    · rcases submitItem_outcome it o w s mk with ⟨r, -, hout⟩ | ⟨-, hout⟩ <;> rw [hout] <;> trivial
    · obtain ⟨draws, hout⟩ := delay_outcome w s
      rw [hout]
      trivial
    · rcases advanceIter_outcome it s with ⟨i, -, hout⟩ | ⟨e, -, hout⟩ <;> rw [hout] <;> trivial
  · simp only [dsOp, List.forall_mem_cons]
    refine ⟨?_, hdrain, by simp⟩
    rcases collectResult_outcome s with ⟨-, hout⟩ | ⟨-, hout⟩ <;> rw [hout] <;> trivial

/-- The state an operation starts in. -/
def dsStart (ses : Session) (i₀ : ι) : OpState (DsLocal ι Unit) := ⟨ses, ⟨i₀, ("", ""), ()⟩⟩

/-- A session between two operations: no futures, and nothing sent yet. -/
def Session.idle (doCancel : Bool) (rs : ResultSet) (clockReads randReads : ℕ) : Session where
  doCancel := doCancel
  pending := []
  rs := rs
  draining := false
  cursor := 0
  sent := []
  clockReads := clockReads
  randReads := randReads

theorem dsStart_satisfies (checks : ℕ) (doCancel : Bool) (rs : ResultSet) (clockReads randReads : ℕ) :
    (Config.start (dsStart (.idle doCancel rs clockReads randReads) i₀)).Satisfies fun pos r s =>
      r < 2 ^ 31 → dsAssertion it i₀ o w options checks pos r s :=
  fun _ => ⟨rfl, rfl, rfl, rfl, rfl, rfl⟩

/-- If the dataset ends after `m` items, fewer than `2 ^ 31`, and no item fails, then an operation
returns under every schedule of cancellations, after at most `m` rounds. -/
theorem dsOp_returns {checks : List (OpAction (DsLocal ι Unit))}
    (hchecks : ∀ a ∈ checks, ∀ s, a s = .next s) {mk : DocumentId → ι → Option ClusterRequest}
    (hmk : ∀ id i, (mk id i).isSome) {m : ℕ} (hm : m < 2 ^ 31) {last : ι}
    (hlast : it.item i₀ m = .ok last) (hdone : it.done last = true)
    (hfail : ∀ e, ¬ Failed it i₀ o m e) (ses : Session)
    (hses : (Config.start (dsStart ses i₀)).Satisfies fun pos r s =>
      r < 2 ^ 31 → dsAssertion it i₀ o w options checks.length pos r s) (sched : ℕ → Bool) :
    ∃ n, ((dsOp it o w options checks mk).run cancelCurrent sched (.start (dsStart ses i₀)) n).pos =
      .done := by
  have hA : (dsOp it o w options checks mk).Outline cancelCurrent fun pos r s =>
      r < 2 ^ 31 → dsAssertion it i₀ o w options checks.length pos r s := dsOp_outline hchecks hmk
  -- a round only starts while items are left, and item `m` is the last one
  have hN : ∀ r (s : OpState (DsLocal ι Unit)), r ≤ m →
      (r < 2 ^ 31 → dsAssertion it i₀ o w options checks.length .test r s) →
      (dsOp it o w options checks mk).test s = true → r < m := by
    intro r s hr hbetween htest
    refine Nat.lt_of_le_of_ne hr ?_
    rintro rfl
    have hitem := (hbetween hm).walked.item
    rw [hlast, Except.ok.injEq] at hitem
    simp [dsOp, itemsLeft, ← hitem, hdone] at htest
  obtain ⟨n, hn, hsat, hle⟩ := hA.halts hN
    (fun _ s => s.ses.pending.length - s.ses.cursor) (fun _ _ => rfl)
    (fun _ _ _ s hact => dsOp_progress hchecks s hact) sched hses (Nat.zero_le m)
  refine ⟨n, ?_⟩
  unfold Config.halted at hn
  split at hn
  · next hpos => exact hpos
  · next e hpos =>
    have hdead := hsat (by omega)
    rw [hpos] at hdead
    exact absurd (hdead.2.mono hle) (hfail e)
  · exact hn.elim

end Outline

end Sdkd
