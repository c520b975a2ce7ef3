import Sdkd.DsOps

/-!
# The books of an operation, without a bound on its items

`dsOp_outline` needs fewer than `2 ^ 31` items, because the counter of outstanding results is an `int`.
Here the counter is known modulo `2 ^ 32`. A batch never outgrows it, so with IterWait the books are
exact however long the operation runs; without IterWait a counter that has come round to zero makes
`collect_result` leave the futures where they are.

## Main definitions

- `Books` — what ties the futures, the counter and the results to the requests sent
- `opAssertion` — the assertion that holds at each control position

## Main results

- `dsOp_books` — the assertions form a proof outline
-/

namespace Sdkd

open LoopProg

theorem toInt_toInt_sub (x y : ℤ) : toInt (toInt x - y) = toInt (x - y) := Int.bmod_sub_bmod

/-- As `Ledger`, with the counter as far as an `int` shows it; `late` counts the submissions it does not
count yet. -/
structure Books (w : World) (n late : ℕ) (s : Session) : Prop where
  iterwait : s.rs.options.iterwait = n
  stats : Histogram.Counts intCounter s.rs.stats (s.rs.recorded.map ErrorCode.text)
  outcomes : s.rs.recorded ++ s.pending.drop s.cursor = (List.range s.sent.length).map w.outcome
  cursor_le : s.cursor ≤ s.pending.length
  remaining : s.rs.remaining = toInt (s.pending.length - s.cursor - late)
  batch : 0 < n → s.pending.length ≤ n ∧ s.pending.length ≤ 2 ^ 31

/-- Between two batches: no drain is going on, and the batch is not full. -/
structure Vacant (n : ℕ) (s : Session) : Prop where
  cursor : s.cursor = 0
  draining : s.draining = false
  room : 0 < n → s.pending.length < n ∧ s.pending.length < 2 ^ 31

namespace Books

variable {w : World} {n late : ℕ} {s s' : Session}

/-- A change of other members. -/
theorem congr (h : Books w n late s) (hrs : s'.rs = s.rs) (hpending : s'.pending = s.pending)
    (hcursor : s'.cursor = s.cursor) (hsent : s'.sent = s.sent) : Books w n late s' := by
  obtain ⟨hwait, hstats, hout, hcur, hrem, hbatch⟩ := h
  constructor
  all_goals simp only [hrs, hpending, hcursor, hsent]
  all_goals assumption

/-- A submission joins the batch; the counter is late by one. -/
theorem submit (h : Books w n 0 s) (hroom : Vacant n s) (r : ClusterRequest) :
    Books w n 1 (s.submit w r) where
  iterwait := h.iterwait
  stats := h.stats
  outcomes := Session.InOrder.submit h.outcomes hroom.cursor r
  cursor_le := by simp [Session.submit, hroom.cursor]
  remaining := by
    simp only [Session.submit, List.length_append, List.length_singleton, h.remaining]
    congr 1
    omega
  batch := fun hn => by
    have := hroom.room hn
    simp only [Session.submit, List.length_append, List.length_singleton]
    omega

/-- `postsubmit` counts the submission. -/
theorem count (h : Books w n 1 s) (draining : Bool) : Books w n 0 { s with
    rs := { s.rs with remaining := toInt (s.rs.remaining + 1) }, draining := draining } where
  iterwait := h.iterwait
  stats := h.stats
  outcomes := h.outcomes
  cursor_le := h.cursor_le
  remaining := by
    simp only [h.remaining, toInt_toInt_add]
    congr 1
    omega
  batch := h.batch

/-- The handler of a drain records the outcome of the future at the cursor. -/
theorem record (h : Books w n 0 s) {ec : ErrorCode} (hec : s.pending[s.cursor]? = some ec) :
    Books w n 0 { s.setRescode w ec with cursor := s.cursor + 1 } where
  iterwait := by simpa [Session.setRescode] using h.iterwait
  stats := by simpa [Session.setRescode] using h.stats.bump ec.text
  outcomes := Session.InOrder.record h.outcomes hec
  cursor_le := (List.getElem?_eq_some_iff.mp hec).1
  remaining := by
    simp only [Session.setRescode, ResultSet.setRescode_remaining, h.remaining, toInt_toInt_sub]
    congr 1
    omega
  batch := h.batch

/-- Behind the last future the batch is empty. -/
theorem clear (h : Books w n 0 s) (hnone : s.pending[s.cursor]? = none) :
    Books w n 0 { s with pending := [], cursor := 0 } where
  iterwait := h.iterwait
  stats := h.stats
  outcomes := Session.InOrder.clear h.outcomes hnone
  cursor_le := le_rfl
  remaining := by
    have hge := List.getElem?_eq_none_iff.mp hnone
    have hle := h.cursor_le
    rw [h.remaining]
    simp only [List.length_nil]
    congr 1
    omega
  batch := fun _ => by simp

/-- After `enter` nothing has been sent, nothing is outstanding and nothing is recorded. -/
theorem enter (hp : s.pending = []) (hs : s.sent = []) (hc : s.cursor = 0)
    (options : ResultOptions) : Books w options.iterwait 0 (s.enter options) where
  iterwait := rfl
  stats := Histogram.counts_empty
  outcomes := by simp [Session.enter, ResultSet.clear, hp, hs]
  cursor_le := by simp [Session.enter, hc]
  remaining := by simp [Session.enter, ResultSet.clear, hp, hc, toInt]
  batch := fun _ => by simp [Session.enter, hp]

/-- While `postsubmit` returns without a drain there is room in the batch. -/
theorem vacant (h : Books w n 0 s) (hcursor : s.cursor = 0) (hdraining : s.draining = false)
    (hreturns : n = 0 ∨ (s.rs.remaining > 0 ∧ toUInt s.rs.remaining < n)) : Vacant n s where
  cursor := hcursor
  draining := hdraining
  room := fun hn => by
    obtain ⟨hpos, hlt⟩ := hreturns.resolve_left (by omega)
    obtain ⟨hle, hmax⟩ := h.batch hn
    have hrem := h.remaining
    -- a full `int` has come round to a negative number
    have hne : s.pending.length ≠ 2 ^ 31 := by
      intro hfull
      rw [hfull, hcursor] at hrem
      rw [hrem] at hpos
      exact absurd hpos (by decide)
    have hval : s.rs.remaining = s.pending.length := by
      rw [hrem, hcursor, toInt_of_bounds] <;> omega
    rw [hval] at hlt
    unfold toUInt at hlt
    omega

/-- Between two loop tests the counter is the number of futures, unless it has come round. -/
theorem remaining_eq (h : Books w n 0 s) (hroom : Vacant n s)
    (hsmall : 0 < n ∨ s.sent.length < 2 ^ 31) : s.rs.remaining = s.pending.length := by
  have hlen := congrArg List.length h.outcomes
  simp only [List.length_append, List.length_drop, List.length_map, List.length_range,
    hroom.cursor] at hlen
  have hlt : s.pending.length < 2 ^ 31 := by
    rcases hsmall with hn | hsent
    · exact (hroom.room hn).2
    · omega
  rw [h.remaining, hroom.cursor, toInt_of_bounds] <;> omega

end Books

/-! ## The proof outline -/

section Outline

variable {ι : Type*} (it : IterOps ι) (i₀ : ι) (o : HandleOptions) (w : World)
  (options : ResultOptions)

/-- Between `enter` and the first item. -/
structure Opened (r : ℕ) (s : OpState (DsLocal ι Unit)) : Prop where
  books : Books w options.iterwait 0 s.ses
  vacant : Vacant options.iterwait s.ses
  sent : s.ses.sent = []
  iter : s.loc.iter = i₀
  rounds : r = 0

/-- At the loop test after `r` rounds. -/
structure AtTest (r : ℕ) (s : OpState (DsLocal ι Unit)) : Prop where
  books : Books w options.iterwait 0 s.ses
  vacant : Vacant options.iterwait s.ses
  count : s.ses.sent.length = r
  walked : Walked it i₀ r s.loc.iter

/-- In the round with number `r`, behind its submission. -/
structure Posted (late r : ℕ) (s : OpState (DsLocal ι Unit)) : Prop where
  books : Books w options.iterwait late s.ses
  count : s.ses.sent.length = r
  walked : ∃ k, r = k + 1 ∧ Walked it i₀ k s.loc.iter
  more : it.done s.loc.iter = false

/-- Behind the loop. -/
structure Closed (r : ℕ) (s : OpState (DsLocal ι Unit)) : Prop where
  books : Books w options.iterwait 0 s.ses
  count : s.ses.sent.length = r
  walked : Walked it i₀ r s.loc.iter

/-- The futures have been waited for, or they are so many that an `int` does not show them. -/
def Collected (s : OpState (DsLocal ι Unit)) : Prop :=
  s.ses.pending.length % 2 ^ 32 = 0 ∧ (0 < options.iterwait → s.ses.pending = []) ∧
    s.ses.cursor = 0

/-- What holds at a control position after `r` rounds. `checks` is the number of actions between
`resetCancel` and `startIter`. -/
def opAssertion (checks : ℕ) (pos : Pos Crash) (r : ℕ) (s : OpState (DsLocal ι Unit)) : Prop :=
  match pos with
  | .pre 0 => Fresh i₀ r s
  | .pre (k + 1) =>
    if k ≤ checks + 1 then Opened i₀ w options r s else AtTest it i₀ w options r s
  | .test => AtTest it i₀ w options r s
  | .body 3 => Posted it i₀ w options 1 r s ∧ s.ses.cursor = 0
  | .body 4 => Posted it i₀ w options 0 r s ∧
      (s.ses.draining = false → Vacant options.iterwait s.ses)
  | .body 5 => Posted it i₀ w options 0 r s ∧ s.ses.cursor = 0 ∧
      (0 < options.iterwait →
        s.ses.pending.length < options.iterwait ∧ s.ses.pending.length < 2 ^ 31)
  | .body 6 => Posted it i₀ w options 0 r s ∧ Vacant options.iterwait s.ses
  | .body (_ + 7) => AtTest it i₀ w options r s
  | .body _ => ∃ k, r = k + 1 ∧ AtTest it i₀ w options k s ∧ it.done s.loc.iter = false
  | .post 0 => Closed it i₀ w options r s ∧ Vacant options.iterwait s.ses
  | .post 1 => Closed it i₀ w options r s ∧ s.ses.draining = true
  | .post (_ + 2) | .done => Closed it i₀ w options r s ∧ Collected options s
  | .dead e => Failed it i₀ o r e

variable {it i₀ o w options} {checks r : ℕ} {s : OpState (DsLocal ι Unit)}

/-- The control thread leaves every assertion true. -/
theorem opAssertion_cancel {pos : Pos Crash} (h : opAssertion it i₀ o w options checks pos r s) :
    opAssertion it i₀ o w options checks pos r (cancelCurrent s) := by
  have hbooks : ∀ {n late}, Books w n late s.ses → Books w n late (cancelCurrent s).ses :=
    fun h => h.congr rfl rfl rfl rfl
  have hvacant : ∀ {n}, Vacant n s.ses → Vacant n (cancelCurrent s).ses :=
    fun h => ⟨h.cursor, h.draining, h.room⟩
  have hopened : Opened i₀ w options r s → Opened i₀ w options r (cancelCurrent s) :=
    fun h => ⟨hbooks h.books, hvacant h.vacant, h.sent, h.iter, h.rounds⟩
  have hat : ∀ {k}, AtTest it i₀ w options k s → AtTest it i₀ w options k (cancelCurrent s) :=
    fun h => ⟨hbooks h.books, hvacant h.vacant, h.count, h.walked⟩
  have hposted : ∀ {late}, Posted it i₀ w options late r s →
      Posted it i₀ w options late r (cancelCurrent s) :=
    fun h => ⟨hbooks h.books, h.count, h.walked, h.more⟩
  have hclosed : Closed it i₀ w options r s → Closed it i₀ w options r (cancelCurrent s) :=
    fun h => ⟨hbooks h.books, h.count, h.walked⟩
  match pos, h with
  | .pre 0, h => exact ⟨h.1, h.2, h.3, h.4, h.5, h.6⟩
  | .pre (k + 1), h =>
    simp only [opAssertion] at h ⊢
    split_ifs at h ⊢
    · exact hopened h
    · exact hat h
  | .test, h | .body (k + 7), h => exact hat h
  | .body 0, ⟨k, hk, h, hmore⟩ | .body 1, ⟨k, hk, h, hmore⟩ | .body 2, ⟨k, hk, h, hmore⟩ =>
    exact ⟨k, hk, hat h, hmore⟩
  | .body 3, h | .body 5, h => exact ⟨hposted h.1, h.2⟩
  | .body 4, h => exact ⟨hposted h.1, fun hd => hvacant (h.2 hd)⟩
  | .body 6, h => exact ⟨hposted h.1, hvacant h.2⟩
  | .post 0, h => exact ⟨hclosed h.1, hvacant h.2⟩
  | .post 1, h => exact ⟨hclosed h.1, h.2⟩
  | .post (k + 2), h | .done, h => exact ⟨hclosed h.1, h.2⟩
  | .dead e, h => exact h

/-! ### One lemma for each action -/

theorem startIter_books {here : Pos Crash} (h : Opened i₀ w options r s) :
    (startIter it s).Establishes (opAssertion it i₀ o w options checks · r) here
      (.pre (checks + 3)) s := by
  obtain ⟨hbooks, hvacant, hnil, hiter, rfl⟩ := h
  rcases startIter_outcome it s with ⟨i, hi, hout⟩ | ⟨e, he, hout⟩ <;> rw [hout]
  · rw [hiter] at hi
    show opAssertion it i₀ o w options checks (.pre (checks + 2 + 1)) 0 _
    simp only [opAssertion, show ¬ checks + 2 ≤ checks + 1 by omega, if_false]
    exact ⟨hbooks, hvacant, by simp [hnil], hi, by simp⟩
  · exact .inl ⟨0, le_rfl, by rw [← hiter]; exact he⟩

theorem lookupCollection_books {k : ℕ} (h : AtTest it i₀ w options k s)
    (hmore : it.done s.loc.iter = false) :
    (lookupCollection it o s).Establishes (opAssertion it i₀ o w options checks · (k + 1)) (.body 0)
      (.body 1) s := by
  rcases lookupCollection_outcome it o s with ⟨c, -, hout⟩ | ⟨e, he, hout⟩ <;> rw [hout]
  · exact ⟨k, rfl, ⟨h.books, h.vacant, h.count, h.walked⟩, hmore⟩
  · exact .inr ⟨k, k.lt_succ_self, _, h.walked.item, hmore, he⟩

theorem submitItem_books {mk : DocumentId → ι → Option ClusterRequest} {k : ℕ}
    (hmk : ∀ i, it.item i₀ k = .ok i → it.done i = false → ∀ id, (mk id i).isSome)
    (h : AtTest it i₀ w options k s) (hmore : it.done s.loc.iter = false) :
    (submitItem it o w mk s).Establishes (opAssertion it i₀ o w options checks · (k + 1)) (.body 2)
      (.body 3) s := by
  obtain ⟨req, hreq⟩ := Option.isSome_iff_exists.mp
    (hmk _ h.walked.item hmore (documentId it o s.loc))
  simp only [submitItem, hreq]
  exact ⟨⟨h.books.submit h.vacant req, by simp [Session.submit, h.count], ⟨k, rfl, h.walked⟩, hmore⟩,
    h.vacant.cursor⟩

theorem postsubmit_books (h : Posted it i₀ w options 1 r s ∧ s.ses.cursor = 0) :
    (postsubmit s).Establishes (opAssertion it i₀ o w options checks · r) (.body 3) (.body 4) s := by
  obtain ⟨h, hcursor⟩ := h
  refine ⟨⟨h.books.count _, h.count, h.walked, h.more⟩, fun hdraining => ?_⟩
  refine (h.books.count _).vacant hcursor hdraining ?_
  simpa only [h.books.iterwait, Bool.not_eq_false', decide_eq_true_eq] using hdraining

theorem drain_books (h : Posted it i₀ w options 0 r s ∧
      (s.ses.draining = false → Vacant options.iterwait s.ses)) :
    (drain (recordOutcome w) s).Establishes (opAssertion it i₀ o w options checks · r) (.body 4)
      (.body 5) s := by
  obtain ⟨h, hvacant⟩ := h
  rcases drain_outcome (recordOutcome w) s with ⟨hdrain, hout⟩ | ⟨ec, hdrain, hec, hout⟩ |
    ⟨-, hnone, hout⟩ <;> rw [hout]
  · have hroom := hvacant hdrain
    exact ⟨h, hroom.cursor, hroom.room⟩
  · exact ⟨⟨h.books.record hec, h.count, h.walked, h.more⟩,
      fun hno => absurd (hdrain.symm.trans hno) (by simp)⟩
  · exact ⟨⟨h.books.clear hnone, h.count, h.walked, h.more⟩, rfl, fun hn => ⟨hn, by simp⟩⟩

theorem delay_books (h : Posted it i₀ w options 0 r s ∧ s.ses.cursor = 0 ∧ (0 < options.iterwait →
      s.ses.pending.length < options.iterwait ∧ s.ses.pending.length < 2 ^ 31)) :
    (delay w s).Establishes (opAssertion it i₀ o w options checks · r) (.body 5) (.body 6) s := by
  obtain ⟨h, hcursor, hroom⟩ := h
  obtain ⟨draws, hout⟩ := delay_outcome w s
  rw [hout]
  exact ⟨⟨h.books.congr rfl rfl rfl rfl, h.count, h.walked, h.more⟩, hcursor, rfl, hroom⟩

theorem advanceIter_books (h : Posted it i₀ w options 0 r s ∧ Vacant options.iterwait s.ses) :
    (advanceIter it s).Establishes (opAssertion it i₀ o w options checks · r) (.body 6) (.body 7) s := by
  obtain ⟨⟨hbooks, hcount, ⟨k, rfl, hwalked⟩, hmore⟩, hvacant⟩ := h
  rcases advanceIter_outcome it s with ⟨i, hi, hout⟩ | ⟨e, he, hout⟩ <;> rw [hout]
  · exact ⟨hbooks, hvacant, hcount, hwalked.succ hmore hi⟩
  · exact .inl ⟨k + 1, le_rfl, by simp only [IterOps.item, hwalked.item, he]⟩

theorem collectResult_books (h : Closed it i₀ w options r s ∧ Vacant options.iterwait s.ses) :
    (collectResult s).Establishes (opAssertion it i₀ o w options checks · r) (.post 0) (.post 1)
      s := by
  obtain ⟨h, hvacant⟩ := h
  rcases collectResult_outcome s with ⟨hzero, hout⟩ | ⟨-, hout⟩ <;> rw [hout]
  · have hrem := h.books.remaining
    have hcursor := hvacant.cursor
    rw [hzero, hcursor, toInt, eq_comm, ← Int.dvd_iff_bmod_eq_zero] at hrem
    refine ⟨h, by omega, fun hn => List.eq_nil_of_length_eq_zero ?_, hcursor⟩
    have hroom := hvacant.room hn
    omega
  · exact ⟨⟨h.books.congr rfl rfl rfl rfl, h.count, h.walked⟩, rfl⟩

theorem finalDrain_books (h : Closed it i₀ w options r s ∧ s.ses.draining = true) :
    (drain (recordOutcome w) s).Establishes (opAssertion it i₀ o w options checks · r) (.post 1)
      (.post 2) s := by
  obtain ⟨h, hdrain⟩ := h
  rcases drain_outcome (recordOutcome w) s with ⟨hno, -⟩ | ⟨ec, -, hec, hout⟩ | ⟨-, hnone, hout⟩
  · exact absurd (hdrain.symm.trans hno) (by decide)
  · rw [hout]
    exact ⟨⟨h.books.record hec, h.count, h.walked⟩, hdrain⟩
  · rw [hout]
    exact ⟨⟨h.books.clear hnone, h.count, h.walked⟩, rfl, fun _ => rfl, rfl⟩

/-- The assertions form a proof outline of every operation whose checks pass and which sends one
request for each item it comes to. -/
theorem dsOp_books {checks : List (OpAction (DsLocal ι Unit))}
    (hchecks : ∀ a ∈ checks, ∀ s, a s = .next s) {mk : DocumentId → ι → Option ClusterRequest}
    (hmk : ∀ k i, it.item i₀ k = .ok i → it.done i = false → ∀ id, (mk id i).isSome) :
    (dsOp it o w options checks mk).Outline cancelCurrent
      (opAssertion it i₀ o w options checks.length) where
  action := by
    intro here there a r s ha h
    match here, h with
    | .pre 0, h =>
      cases ha
      exact ⟨.enter h.pending h.sent h.cursor options,
        ⟨h.cursor, h.draining, fun hn => ⟨by simpa [Session.enter, h.pending] using hn,
          by simp [Session.enter, h.pending]⟩⟩, h.sent, h.iter, h.rounds⟩
    | .pre 1, h =>
      cases ha
      show opAssertion it i₀ o w options checks.length (.pre 2) r _
      simp only [opAssertion, Nat.le_add_left, if_true] at h ⊢
      exact ⟨h.books.congr rfl rfl rfl rfl, ⟨h.vacant.cursor, h.vacant.draining, h.vacant.room⟩,
        h.sent, h.iter, h.rounds⟩
    | .pre (k + 2), h =>
      obtain ⟨rfl, hk, hcase⟩ := dsOp_pre_cases hchecks ha
      -- as in `dsOp_outline`: the last of these actions is `startIter`
      simp only [opAssertion, show k + 1 ≤ checks.length + 1 by omega, if_true] at h
      rcases hcase with ⟨hlt, hskip⟩ | ⟨rfl, rfl⟩
      · rw [hskip s]
        show opAssertion it i₀ o w options checks.length (.pre (k + 2 + 1)) r s
        simp only [opAssertion, show k + 2 ≤ checks.length + 1 by omega, if_true]
        exact h
      · exact startIter_books h
    | .body 0, ⟨k, hk, h, hmore⟩ =>
      cases ha
      exact hk ▸ lookupCollection_books h hmore
    | .body 1, ⟨k, hk, h, hmore⟩ =>
      cases ha
      exact ⟨k, hk, ⟨⟨h.books.iterwait, h.books.stats, h.books.outcomes, h.books.cursor_le,
        h.books.remaining, h.books.batch⟩, ⟨h.vacant.cursor, h.vacant.draining, h.vacant.room⟩,
        h.count, h.walked⟩, hmore⟩
    | .body 2, ⟨k, hk, h, hmore⟩ =>
      cases ha
      exact hk ▸ submitItem_books (hmk k) h hmore
    | .body 3, h =>
      cases ha
      exact postsubmit_books h
    | .body 4, h =>
      cases ha
      exact drain_books h
    | .body 5, h =>
      cases ha
      exact delay_books h
    | .body 6, h =>
      cases ha
      exact advanceIter_books h
    | .post 0, h =>
      cases ha
      exact collectResult_books h
    | .post 1, h =>
      cases ha
      exact finalDrain_books h
    | .body (k + 7), h | .post (k + 2), h | .test, h | .done, h | .dead e, h => cases ha
  pre_end := by
    intro k r s hk h
    simp only [dsOp, List.length_cons, List.length_append, List.length_nil] at hk
    obtain ⟨j, rfl⟩ := Nat.exists_eq_add_of_le' (show 1 ≤ k by omega)
    simpa only [opAssertion, show ¬ j ≤ checks.length + 1 by omega, if_false] using h
  enter := fun r s ht h => by
    have hmore : it.done s.loc.iter = false := by
      simp only [dsOp, itemsLeft, Bool.and_eq_true, Bool.not_eq_true'] at ht
      exact ht.1
    exact ⟨r, rfl, h, hmore⟩
  leave := fun r s _ h => ⟨⟨h.books, h.count, h.walked⟩, h.vacant⟩
  body_end := by
    intro k r s hk h
    obtain ⟨j, rfl⟩ := Nat.exists_eq_add_of_le' (show 7 ≤ k from hk)
    exact h
  post_end := by
    intro k r s hk h
    obtain ⟨j, rfl⟩ := Nat.exists_eq_add_of_le' (show 2 ≤ k from hk)
    exact h
  stable := fun _ _ _ h => opAssertion_cancel h

/-- At the end no futures are left, unless their number has come round. -/
theorem Closed.pending_nil (h : Closed it i₀ w options r s) (hcollected : Collected options s)
    (hsmall : 0 < options.iterwait ∨ r < 2 ^ 32) : s.ses.pending = [] := by
  obtain ⟨hmod, hbatch, hcursor⟩ := hcollected
  rcases hsmall with hn | hr
  · exact hbatch hn
  · have hlen := congrArg List.length h.books.outcomes
    simp only [List.length_append, List.length_drop, List.length_map, List.length_range, h.count,
      hcursor] at hlen
    exact List.eq_nil_of_length_eq_zero (by omega)

end Outline

end Sdkd
