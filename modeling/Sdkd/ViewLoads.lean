import Sdkd.LoaderRuns

/-!
# Runs of the view loader

How many upserts `populateViewData` has sent where it stands. The documents are gathered in a batch
first and sent when there are a thousand of them, or behind the last item.

## Main definitions

- `viewAssertion` — the assertion that holds at each control position

## Main results

- `viewLoader_outline` — the assertions form a proof outline
- `viewAssertion.sent_le` — no more requests are sent than items stepped over
-/

namespace Sdkd

open LoopProg

/-- No flush is going on: of `n` items `sent` have been sent and the others are in the batch. -/
structure Gathered (sent n : ℕ) (v : ViewVars) : Prop where
  count : sent + v.values.length = n
  futures : v.futures = []
  flushing : v.flushing = false

/-- Before or in the first loop of `flushValues`; without a flush there is nothing to send. -/
def Sending (sent n : ℕ) (v : ViewVars) : Prop :=
  if v.flushing then sent + v.values.length = n + v.futures.length ∧
    v.futures.length ≤ v.values.length
  else sent + v.values.length = n ∧ v.futures = []

/-- Behind the first loop of `flushValues`. -/
def Sent (sent n : ℕ) (v : ViewVars) : Prop :=
  if v.flushing then sent = n else sent + v.values.length = n ∧ v.futures = []

theorem sending_of_flushing {sent n : ℕ} {v : ViewVars} (h : v.flushing = true) :
    Sending sent n v ↔ sent + v.values.length = n + v.futures.length ∧
      v.futures.length ≤ v.values.length := by
  rw [Sending, if_pos h]

theorem sent_of_flushing {sent n : ℕ} {v : ViewVars} (h : v.flushing = true) :
    Sent sent n v ↔ sent = n := by
  rw [Sent, if_pos h]

section Outline

variable {ι : Type*} (it : IterOps ι) (i₀ : ι)

/-- The iterator stands at the item of round `n`. -/
def OnItem (n : ℕ) (i : ι) : Prop := ∃ k, n = k + 1 ∧ Walked it i₀ k i ∧ it.done i = false

/-- What holds at a control position after `n` rounds. -/
def viewAssertion (pos : Pos Crash) (n : ℕ) (s : OpState (DsLocal ι ViewVars)) : Prop :=
  match pos with
  | .pre 0 | .pre 1 | .pre 2 =>
    n = 0 ∧ s.loc.iter = i₀ ∧ Gathered s.ses.sent.length n s.loc.extra
  | .pre (_ + 3) | .test | .body (_ + 7) =>
    Gathered s.ses.sent.length n s.loc.extra ∧ Walked it i₀ n s.loc.iter
  | .body 0 => OnItem it i₀ n s.loc.iter ∧ ∃ k, n = k + 1 ∧ Gathered s.ses.sent.length k s.loc.extra
  | .body 1 | .body 5 => OnItem it i₀ n s.loc.iter ∧ Gathered s.ses.sent.length n s.loc.extra
  | .body 2 => OnItem it i₀ n s.loc.iter ∧ Sending s.ses.sent.length n s.loc.extra
  | .body 3 => OnItem it i₀ n s.loc.iter ∧ Sent s.ses.sent.length n s.loc.extra
  | .body 4 => OnItem it i₀ n s.loc.iter ∧ Sent s.ses.sent.length n s.loc.extra ∧
      s.loc.extra.futures = []
  | .body 6 => Walked it i₀ n s.loc.iter ∧ Gathered s.ses.sent.length n s.loc.extra
  | .post 0 => Gathered s.ses.sent.length n s.loc.extra
  | .post 1 => Sending s.ses.sent.length n s.loc.extra
  | .post (_ + 2) | .done | .dead _ => s.ses.sent.length ≤ n

variable {it i₀} {o : HandleOptions} {w : World} {n : ℕ} {s : OpState (DsLocal ι ViewVars)}

theorem Sending.le {sent : ℕ} {v : ViewVars} (h : Sending sent n v) : sent ≤ n := by
  unfold Sending at h
  split_ifs at h <;> omega

theorem Sent.le {sent : ℕ} {v : ViewVars} (h : Sent sent n v) : sent ≤ n := by
  unfold Sent at h
  split_ifs at h <;> omega

theorem Gathered.le {sent : ℕ} {v : ViewVars} (h : Gathered sent n v) : sent ≤ n := by
  have := h.count
  omega

/-- No more requests are sent than items stepped over. -/
theorem viewAssertion.sent_le {pos : Pos Crash} (h : viewAssertion it i₀ pos n s) :
    s.ses.sent.length ≤ n := by
  match pos, h with
  | .pre 0, h | .pre 1, h | .pre 2, h => exact h.2.2.le
  | .pre (k + 3), h | .test, h | .body (k + 7), h => exact h.1.le
  | .body 0, ⟨_, k, hk, h⟩ =>
    have := h.le
    omega
  | .body 1, h | .body 5, h | .body 6, h => exact h.2.le
  | .body 2, h => exact h.2.le
  | .body 3, h => exact h.2.le
  | .body 4, h => exact h.2.1.le
  | .post 0, h => exact h.le
  | .post 1, h => exact h.le
  | .post (k + 2), h | .done, h | .dead e, h => exact h

/-! ### One lemma for each action -/

theorem startIter_gathers (hn : n = 0) (hiter : s.loc.iter = i₀)
    (h : Gathered s.ses.sent.length n s.loc.extra) :
    (startIter it s).Establishes (viewAssertion it i₀ · n) (.pre 2) (.pre 3) s := by
  rcases startIter_outcome it s with ⟨i, hi, hout⟩ | ⟨e, -, hout⟩ <;> rw [hout]
  · subst hn hiter
    exact ⟨h, hi, by simp⟩
  · exact h.le

/-- `flushFull` and `flushRest` only raise the flag. -/
theorem Gathered.sending {sent : ℕ} {v : ViewVars} (h : Gathered sent n v) (flushing : Bool) :
    Sending sent n { v with flushing := flushing } := by
  unfold Sending
  split_ifs
  · simp [h.count, h.futures]
  · exact ⟨h.count, h.futures⟩

/-- The first loop of `flushValues`. -/
theorem flushSend_cases (o : HandleOptions) (w : World)
    (h : Sending s.ses.sent.length n s.loc.extra) :
    (∃ e, flushSend o w s = .fail e) ∨
    (flushSend o w s = .next s ∧ Sent s.ses.sent.length n s.loc.extra) ∨
    ∃ s', flushSend o w s = .again s' ∧ s'.loc.iter = s.loc.iter ∧
      Sending s'.ses.sent.length n s'.loc.extra := by
  rcases flushSend_outcome o w s with ⟨hnone, hout⟩ | ⟨key, value, c, hflush, hget, -, hout⟩ |
    ⟨key, value, e, -, -, -, hout⟩
  · refine .inr (.inl ⟨hout, ?_⟩)
    by_cases hflush : s.loc.extra.flushing = true
    · have hbatch := (sending_of_flushing hflush).mp h
      have hge := List.getElem?_eq_none_iff.mp (hnone hflush)
      exact (sent_of_flushing hflush).mpr (by omega)
    · rw [Sending, if_neg hflush] at h
      rwa [Sent, if_neg hflush]
  · have hbatch := (sending_of_flushing hflush).mp h
    have hlt := (List.getElem?_eq_some_iff.mp hget).1
    refine .inr (.inr ⟨_, hout, rfl, (sending_of_flushing (by exact hflush)).mpr ?_⟩)
    simp only [setView, Session.execute, List.length_append, List.length_singleton]
    omega
  · exact .inl ⟨e, hout⟩

/-- The second one. -/
theorem flushCollect_cases (w : World) (h : Sent s.ses.sent.length n s.loc.extra) :
    (flushCollect w s = .next s ∧ s.loc.extra.futures = []) ∨
    ∃ s', flushCollect w s = .again s' ∧ s'.loc.iter = s.loc.iter ∧
      s'.ses.sent = s.ses.sent ∧ Sent s'.ses.sent.length n s'.loc.extra := by
  rcases flushCollect_outcome w s with ⟨hnil, hout⟩ | ⟨ec, rest, hfutures, hout⟩
  · exact .inl ⟨hout, hnil⟩
  · -- only a flush has futures
    have hflush : s.loc.extra.flushing = true := by
      by_contra hno
      rw [Sent, if_neg hno, hfutures] at h
      cases h.2
    have hall := (sent_of_flushing hflush).mp h
    refine .inr ⟨_, hout, rfl, ?_, (sent_of_flushing (by exact hflush)).mpr ?_⟩
    · simp only [setView]
      split_ifs <;> rfl
    · simp only [setView]
      split_ifs <;> exact hall

theorem addValue_gathers [JsonWriter] {k : ℕ} (hitem : OnItem it i₀ (k + 1) s.loc.iter)
    (h : Gathered s.ses.sent.length k s.loc.extra) :
    (addValue it s).Establishes (viewAssertion it i₀ · (k + 1)) (.body 0) (.body 1) s := by
  have hcount := h.count
  rcases addValue_outcome it s with ⟨-, hout⟩ | ⟨-, hout⟩ <;> rw [hout]
  · refine ⟨hitem, ?_, h.futures, h.flushing⟩
    simp only [setView, List.length_append, List.length_singleton]
    omega
  · show s.ses.sent.length ≤ k + 1
    omega

theorem flushClear_gathers (hitem : OnItem it i₀ n s.loc.iter)
    (h : Sent s.ses.sent.length n s.loc.extra) (hfutures : s.loc.extra.futures = []) :
    (flushClear s).Establishes (viewAssertion it i₀ · n) (.body 4) (.body 5) s := by
  unfold Sent at h
  unfold flushClear
  dsimp only
  split_ifs with hflush
  · rw [if_pos hflush] at h
    exact ⟨hitem, by simpa [setView] using h, hfutures, rfl⟩
  · rw [if_neg hflush] at h
    exact ⟨hitem, h.1, h.2, by simpa using hflush⟩

theorem advanceIter_gathers (hitem : OnItem it i₀ n s.loc.iter)
    (h : Gathered s.ses.sent.length n s.loc.extra) :
    (advanceIter it s).Establishes (viewAssertion it i₀ · n) (.body 5) (.body 6) s := by
  obtain ⟨k, rfl, hwalked, hmore⟩ := hitem
  rcases advanceIter_outcome it s with ⟨i, hi, hout⟩ | ⟨e, -, hout⟩ <;> rw [hout]
  · exact ⟨hwalked.succ hmore hi, h⟩
  · exact h.le

/-- The assertions form a proof outline of the view loader. -/
theorem viewLoader_outline [JsonWriter] {options : ResultOptions} :
    (viewLoader it o w options).Outline cancelCurrent (viewAssertion it i₀) where
  action := by
    intro here there a n s ha h
    match here, h with
    | .pre 0, h =>
      cases ha
      exact h
    | .pre 1, h =>
      cases ha
      exact h
    | .pre 2, ⟨hn, hiter, h⟩ =>
      cases ha
      exact startIter_gathers hn hiter h
    | .body 0, ⟨hitem, k, hk, hgathered⟩ =>
      cases ha
      subst hk
      exact addValue_gathers hitem hgathered
    | .body 1, ⟨hitem, h⟩ =>
      cases ha
      exact ⟨hitem, h.sending _⟩
    | .body 2, ⟨hitem, h⟩ =>
      cases ha
      rcases flushSend_cases o w h with ⟨e, hout⟩ | ⟨hout, hsent⟩ | ⟨s', hout, hiter, hsending⟩ <;>
        rw [hout]
      · exact h.le
      · exact ⟨hitem, hsent⟩
      · exact ⟨hiter ▸ hitem, hsending⟩
    | .body 3, ⟨hitem, h⟩ =>
      cases ha
      rcases flushCollect_cases w h with ⟨hout, hnil⟩ | ⟨s', hout, hiter, -, hsent⟩ <;> rw [hout]
      · exact ⟨hitem, h, hnil⟩
      · exact ⟨hiter ▸ hitem, hsent⟩
    | .body 4, ⟨hitem, h, hfutures⟩ =>
      cases ha
      exact flushClear_gathers hitem h hfutures
    | .body 5, ⟨hitem, h⟩ =>
      cases ha
      exact advanceIter_gathers hitem h
    | .body 6, ⟨hwalked, h⟩ =>
      cases ha
      exact ⟨⟨h.count, h.futures, h.flushing⟩, hwalked⟩
    | .post 0, h =>
      cases ha
      exact h.sending _
    | .post 1, h =>
      cases ha
      rcases flushSend_cases o w h with ⟨e, hout⟩ | ⟨hout, hsent⟩ | ⟨s', hout, -, hsending⟩ <;>
        rw [hout]
      · exact h.le
      · exact hsent.le
      · exact hsending
    | .post 2, h =>
      cases ha
      rcases flushCollect_outcome w s with ⟨-, hout⟩ | ⟨ec, rest, -, hout⟩ <;> rw [hout]
      · exact h
      · simp only [Ctl.Establishes, viewAssertion, setView]
        split_ifs <;> exact h
    | .pre (k + 3), h | .body (k + 7), h | .post (k + 3), h | .test, h | .done, h | .dead e, h =>
      cases ha
  pre_end := by
    intro k n s hk h
    obtain ⟨j, rfl⟩ := Nat.exists_eq_add_of_le' (show 3 ≤ k from hk)
    exact h
  enter := fun n s ht h => ⟨⟨n, rfl, h.2, by simpa [viewLoader] using ht⟩, n, rfl, h.1⟩
  leave := fun _ _ _ h => h.1
  body_end := by
    intro k n s hk h
    obtain ⟨j, rfl⟩ := Nat.exists_eq_add_of_le' (show 7 ≤ k from hk)
    exact h
  post_end := by
    intro k n s hk h
    obtain ⟨j, rfl⟩ := Nat.exists_eq_add_of_le' (show 3 ≤ k from hk)
    exact h
  stable := fun _ _ _ h => h

/-! ### Termination -/

/-- The two loops of `flushValues` repeat themselves, one for each value to send, one for each future. -/
def viewMeasure (pos : Pos Crash) (s : OpState (DsLocal ι ViewVars)) : ℕ :=
  match pos with
  | .body 2 | .post 1 => s.loc.extra.values.length - s.loc.extra.futures.length
  | _ => s.loc.extra.futures.length

/-- The control thread does not change them. -/
theorem viewMeasure_cancel (pos : Pos Crash) (s : OpState (DsLocal ι ViewVars)) :
    viewMeasure pos (cancelCurrent s) = viewMeasure pos s := by
  unfold viewMeasure
  split <;> rfl

theorem flushSend_progress {pos : Pos Crash} (o : HandleOptions) (w : World)
    (hpos : viewMeasure (ι := ι) pos =
      fun s => s.loc.extra.values.length - s.loc.extra.futures.length)
    (s : OpState (DsLocal ι ViewVars)) : (flushSend o w s).Progress (viewMeasure pos) pos s := by
  rw [hpos]
  rcases flushSend_outcome o w s with ⟨-, hout⟩ | ⟨key, value, c, -, hget, -, hout⟩ |
    ⟨key, value, e, -, -, -, hout⟩ <;> rw [hout]
  · trivial
  · have hlt := (List.getElem?_eq_some_iff.mp hget).1
    simp only [Ctl.Progress, setView, List.length_append, List.length_singleton]
    omega
  · trivial

theorem flushCollect_progress {pos : Pos Crash} (w : World)
    (hpos : viewMeasure (ι := ι) pos = fun s => s.loc.extra.futures.length)
    (s : OpState (DsLocal ι ViewVars)) : (flushCollect w s).Progress (viewMeasure pos) pos s := by
  rw [hpos]
  rcases flushCollect_outcome w s with ⟨-, hout⟩ | ⟨ec, rest, hfutures, hout⟩ <;> rw [hout]
  · trivial
  · simp [Ctl.Progress, setView, hfutures]

theorem viewLoader_progress [JsonWriter] {options : ResultOptions} {here there : Pos Crash}
    {a : OpAction (DsLocal ι ViewVars)} (s : OpState (DsLocal ι ViewVars))
    (ha : (viewLoader it o w options).actionAt here = some (a, there)) :
    (a s).Progress (viewMeasure here) here s := by
  match here with
  | .pre 0 | .pre 1 | .body 1 | .body 6 | .post 0 =>
    cases ha
    trivial
  | .body 0 =>
    cases ha
    rcases addValue_outcome it s with ⟨-, hout⟩ | ⟨-, hout⟩ <;> rw [hout] <;> trivial
  | .pre 2 =>
    cases ha
    rcases startIter_outcome it s with ⟨i, -, hout⟩ | ⟨e, -, hout⟩ <;> rw [hout] <;> trivial
  | .body 2 | .post 1 =>
    cases ha
    exact flushSend_progress o w rfl s
  | .body 3 | .post 2 =>
    cases ha
    exact flushCollect_progress w rfl s
  | .body 4 =>
    cases ha
    unfold flushClear
    dsimp only
    split <;> trivial
  | .body 5 =>
    cases ha
    rcases advanceIter_outcome it s with ⟨i, -, hout⟩ | ⟨e, -, hout⟩ <;> rw [hout] <;> trivial
  | .pre (k + 3) | .body (k + 7) | .post (k + 3) | .test | .done | .dead e => cases ha

end Outline

end Sdkd
