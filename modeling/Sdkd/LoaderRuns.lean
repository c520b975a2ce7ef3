import Sdkd.DsOps
import Sdkd.Operation

/-!
# Runs of the loaders

What the loop of `N1QLLoader`, `SDLoader`, `FTSLoader` and `CBASLoader` does with the outcomes of its
upserts: behind an item whose number, as an `int`, is a multiple of 100 they are waited for and looked at, the
ones behind the last such item are waited for and forgotten.

## Main definitions

- `loaderAssertion` — the assertion that holds at each control position

## Main results

- `loader_outline` — the assertions form a proof outline
- `loader_halts` — on a dataset with an end the loop comes to its end under every schedule
-/

namespace Sdkd

open LoopProg

section Outline

variable {ι : Type*} (it : IterOps ι) (i₀ : ι) (o : HandleOptions) (w : World) (rs : ResultSet)
  (left : List ErrorCode)

/-- One of the outcomes that the first `n` rounds may look at is an error: that of an upsert, or one left
over from before. -/
def SomeFailed (n : ℕ) : Prop :=
  (0 < n ∧ ∃ ec ∈ left, ec.isSet = true) ∨ ∃ k < n, (w.outcome k).isSet = true

/-- Nothing left over is an error. -/
def Clean : Prop := ∀ ec ∈ left, ec.isSet = false

/-- The bookkeeping behind `n` upserts: one for each of the first `n` items. -/
structure Loaded (n : ℕ) (s : OpState (DsLocal ι BatchVars)) : Prop where
  rs : s.ses.rs = rs
  count : s.ses.sent.length = n
  addressed : ∀ k < n, ∃ i c, it.item i₀ k = .ok i ∧ o.getCollection (it.key i) = .ok c
  pending : ∀ ec ∈ s.ses.pending, ec ∈ left ∨ ∃ k < n, ec = w.outcome k
  verdict : s.loc.extra.ok = false → SomeFailed w left n

/-- No futures are being waited for, and the last batch was good. -/
structure Idle (s : OpState (DsLocal ι BatchVars)) : Prop where
  cursor : s.ses.cursor = 0
  draining : s.ses.draining = false
  ok : s.loc.extra.ok = true

/-- The futures left over have not been waited for, or none of them is an error. -/
def Leftover (s : OpState (DsLocal ι BatchVars)) : Prop :=
  (s.loc.extra.jj = 0 ∧ ∀ ec ∈ left, ec ∈ s.ses.pending) ∨ Clean left

/-- At the loop test after `n` rounds. -/
structure Loading (n : ℕ) (s : OpState (DsLocal ι BatchVars)) : Prop where
  loaded : Loaded it i₀ o w rs left n s
  idle : Idle s
  leftover : Leftover left s
  walked : Walked it i₀ n s.loc.iter
  jj : s.loc.extra.jj = n

/-- In round `n`, behind its upsert; `moved` tells whether the iterator stands at the next item. -/
structure Upserted (n : ℕ) (moved : Bool) (s : OpState (DsLocal ι BatchVars)) : Prop where
  loaded : Loaded it i₀ o w rs left n s
  position : ∃ k, n = k + 1 ∧ s.loc.extra.jj = k ∧
    Walked it i₀ (if moved then n else k) s.loc.iter ∧ (moved = false → it.done s.loc.iter = false)

/-- Behind the loop. -/
structure Finished (n : ℕ) (s : OpState (DsLocal ι BatchVars)) : Prop where
  loaded : Loaded it i₀ o w rs left n s
  walked : Walked it i₀ n s.loc.iter
  ended : it.done s.loc.iter = true
  ok : s.loc.extra.ok = true
  clean : 0 < n → Clean left

/-- What holds at a control position after `n` rounds. -/
def loaderAssertion (pos : Pos Crash) (n : ℕ) (s : OpState (DsLocal ι BatchVars)) : Prop :=
  match pos with
  | .pre 0 => s.ses.rs = rs ∧ s.ses.sent = [] ∧ s.ses.pending = left ∧ s.ses.cursor = 0 ∧
      s.ses.draining = false ∧ s.loc.iter = i₀ ∧ s.loc.extra = .start ∧ n = 0
  | .pre (_ + 1) | .test => Loading it i₀ o w rs left n s
  | .body 0 => ∃ k, n = k + 1 ∧ Loading it i₀ o w rs left k s ∧ it.done s.loc.iter = false
  | .body 1 => ∃ k, n = k + 1 ∧ Loading it i₀ o w rs left k s ∧ it.done s.loc.iter = false ∧
      ∃ c, o.getCollection (it.key s.loc.iter) = .ok c
  | .body 2 => Upserted it i₀ o w rs left n false s ∧ Idle s ∧ Leftover left s
  | .body 3 => Upserted it i₀ o w rs left n false s ∧ if s.ses.draining then
      (s.loc.extra.ok = true → ∀ ec ∈ left, ec.isSet = false ∨ ec ∈ s.ses.pending.drop s.ses.cursor)
      else Idle s ∧ Clean left
  | .body 4 => Upserted it i₀ o w rs left n false s ∧ s.ses.cursor = 0 ∧
      (s.ses.draining = false → s.loc.extra.ok = true) ∧
      (s.ses.draining = true → s.ses.pending = []) ∧ (s.loc.extra.ok = true → Clean left)
  | .body 5 => Upserted it i₀ o w rs left n false s ∧ Idle s ∧ Clean left
  | .body 6 => Upserted it i₀ o w rs left n true s ∧ Idle s ∧ Clean left
  | .body (_ + 7) => Loading it i₀ o w rs left n s
  | .post 0 => Finished it i₀ o w rs left n s
  | .post 1 => Finished it i₀ o w rs left n s ∧ s.ses.draining = true
  | .post (_ + 2) => Finished it i₀ o w rs left n s ∧ s.ses.pending = []
  | .done => Loaded it i₀ o w rs left n s ∧ s.ses.pending = [] ∧
      (s.loc.extra.ok = true → Finished it i₀ o w rs left n s)
  | .dead e => Failed it i₀ o n e

variable {it i₀ o w rs left} {n : ℕ} {s : OpState (DsLocal ι BatchVars)}

/-! ### One lemma for each action -/

/-- A change that sends nothing and adds no futures. -/
theorem Loaded.change (h : Loaded it i₀ o w rs left n s) {s' : OpState (DsLocal ι BatchVars)}
    (hrs : s'.ses.rs = s.ses.rs) (hsent : s'.ses.sent = s.ses.sent)
    (hpending : ∀ ec ∈ s'.ses.pending, ec ∈ s.ses.pending)
    (hok : s'.loc.extra.ok = false → SomeFailed w left n) : Loaded it i₀ o w rs left n s' where
  rs := hrs.trans h.rs
  count := by rw [hsent, h.count]
  addressed := h.addressed
  pending := fun ec hec => h.pending ec (hpending ec hec)
  verdict := hok

theorem startIter_loads (hrs : s.ses.rs = rs) (hsent : s.ses.sent = []) (hleft : s.ses.pending = left)
    (hidle : Idle s) (hiter : s.loc.iter = i₀) (hjj : s.loc.extra.jj = 0) :
    (startIter it s).Establishes (loaderAssertion it i₀ o w rs left · 0) (.pre 0) (.pre 1) s := by
  rcases startIter_outcome it s with ⟨i, hi, hout⟩ | ⟨e, he, hout⟩ <;> rw [hout]
  · rw [hiter] at hi
    exact {
      loaded := ⟨hrs, by simp [hsent], by simp, fun ec hec => .inl (hleft ▸ hec),
        fun hok => by simp [hidle.ok] at hok⟩
      idle := ⟨hidle.cursor, hidle.draining, hidle.ok⟩
      leftover := .inl ⟨hjj, fun ec hec => hleft ▸ hec⟩
      walked := ⟨hi, by simp⟩
      jj := hjj }
  · exact .inl ⟨0, le_rfl, by rw [← hiter]; exact he⟩

theorem lookupCollection_loads {k : ℕ} (h : Loading it i₀ o w rs left k s)
    (hmore : it.done s.loc.iter = false) :
    (lookupCollection it o s).Establishes (loaderAssertion it i₀ o w rs left · (k + 1)) (.body 0)
      (.body 1) s := by
  rcases lookupCollection_outcome it o s with ⟨c, hc, hout⟩ | ⟨e, he, hout⟩ <;> rw [hout]
  · refine ⟨k, rfl, ⟨?_, ⟨h.idle.cursor, h.idle.draining, h.idle.ok⟩, h.leftover, h.walked, h.jj⟩,
      hmore, c, hc⟩
    exact h.loaded.change rfl rfl (fun _ => id) h.loaded.verdict
  · exact .inr ⟨k, k.lt_succ_self, _, h.walked.item, hmore, he⟩

theorem submitItem_loads {k : ℕ} (h : Loading it i₀ o w rs left k s)
    (hmore : it.done s.loc.iter = false) {c : String × String}
    (hc : o.getCollection (it.key s.loc.iter) = .ok c)
    (mk : DocumentId → ι → ClusterRequest) :
    (submitItem it o w (fun id i => some (mk id i)) s).Establishes
      (loaderAssertion it i₀ o w rs left · (k + 1)) (.body 1) (.body 2) s := by
  refine ⟨⟨⟨h.loaded.rs, ?_, ?_, ?_, fun hok => ?_⟩, k, rfl, h.jj, h.walked, fun _ => hmore⟩,
    ⟨h.idle.cursor, h.idle.draining, h.idle.ok⟩, h.leftover.imp_left fun ⟨hjj, hleft⟩ => ⟨hjj, ?_⟩⟩
  · simp [Session.submit, h.loaded.count]
  · intro j hj
    rcases Nat.lt_succ_iff_lt_or_eq.mp hj with hj | rfl
    · exact h.loaded.addressed j hj
    · exact ⟨_, c, h.walked.item, hc⟩
  · intro ec hec
    simp only [Session.submit, h.loaded.count, List.mem_append, List.mem_singleton] at hec
    rcases hec with hec | rfl
    · rcases h.loaded.pending ec hec with hrest | ⟨j, hj, heq⟩
      · exact .inl hrest
      · exact .inr ⟨j, Nat.lt_succ_of_lt hj, heq⟩
    · exact .inr ⟨k, k.lt_succ_self, rfl⟩
  · exact absurd (h.idle.ok.symm.trans hok) (by simp)
  · exact fun ec hec => List.mem_append_left _ (hleft ec hec)

theorem checkBatch_loads (h : Upserted it i₀ o w rs left n false s) (hidle : Idle s)
    (hleft : Leftover left s) :
    (checkBatch s).Establishes (loaderAssertion it i₀ o w rs left · n) (.body 2) (.body 3) s := by
  rcases checkBatch_outcome s with ⟨-, hout⟩ | ⟨hjj, hout⟩ <;> rw [hout]
  · refine ⟨⟨h.loaded.change rfl rfl (fun _ => id) (by simp), h.position⟩, ?_⟩
    rw [if_pos rfl]
    intro _ ec hec
    rcases hleft with ⟨-, hmem⟩ | hclean
    · exact .inr (by simpa [hidle.cursor] using hmem ec hec)
    · exact .inl (hclean ec hec)
  · refine ⟨h, ?_⟩
    rw [if_neg (by simp [hidle.draining])]
    refine ⟨hidle, hleft.resolve_left fun ⟨hzero, _⟩ => ?_⟩
    rw [hzero, endsBatch_zero] at hjj
    cases hjj

theorem drain_checkOutcome_loads (h : loaderAssertion it i₀ o w rs left (.body 3) n s) :
    (drain checkOutcome s).Establishes (loaderAssertion it i₀ o w rs left · n) (.body 3) (.body 4)
      s := by
  obtain ⟨h, hcheck⟩ := h
  obtain ⟨k, hk, hposition⟩ := h.position
  rcases drain_outcome checkOutcome s with ⟨hdrain, hout⟩ | ⟨ec, hdrain, hec, hout⟩ |
    ⟨hdrain, hnone, hout⟩ <;> rw [hout]
  · rw [if_neg (by simp [hdrain])] at hcheck
    exact ⟨h, hcheck.1.cursor, fun _ => hcheck.1.ok,
      fun hno => absurd (hdrain.symm.trans hno) (by decide), fun _ => hcheck.2⟩
  · rw [if_pos hdrain] at hcheck
    obtain ⟨hlt, hget⟩ := List.getElem?_eq_some_iff.mp hec
    refine ⟨⟨h.loaded.change rfl rfl (fun _ => id) fun hok => ?_, k, hk, hposition⟩, ?_⟩
    · rcases Bool.and_eq_false_iff.mp hok with hok | hset
      · exact h.loaded.verdict hok
      · have hisSet : ec.isSet = true := by simpa using hset
        rcases h.loaded.pending ec (List.mem_of_getElem? hec) with hmem | ⟨j, hj, rfl⟩
        · exact .inl ⟨by omega, ec, hmem, hisSet⟩
        · exact .inr ⟨j, hj, hisSet⟩
    · rw [if_pos (by exact hdrain)]
      intro hok ec' hec'
      obtain ⟨hok, hset⟩ := Bool.and_eq_true_iff.mp hok
      refine (hcheck hok ec' hec').elim .inl fun hmem => ?_
      -- the rest of the batch is one future shorter
      have hmem' : ec' ∈ s.ses.pending.drop s.ses.cursor := hmem
      rw [List.drop_eq_getElem_cons hlt, hget] at hmem'
      rcases List.mem_cons.mp hmem' with rfl | hrest
      · exact .inl (by simpa using hset)
      · exact .inr hrest
  · rw [if_pos hdrain] at hcheck
    refine ⟨⟨h.loaded.change rfl rfl (by simp) h.loaded.verdict, k, hk, hposition⟩, rfl,
      fun hno => absurd (hdrain.symm.trans hno) (by simp), fun _ => rfl, fun hok ec hec => ?_⟩
    refine (hcheck hok ec hec).resolve_right ?_
    simp [List.drop_of_length_le (List.getElem?_eq_none_iff.mp hnone)]

theorem endBatch_loads (h : loaderAssertion it i₀ o w rs left (.body 4) n s) :
    (endBatch s).Establishes (loaderAssertion it i₀ o w rs left · n) (.body 4) (.body 5) s := by
  obtain ⟨h, hcursor, hnot, hdrained, hclean⟩ := h
  have hloaded : Loaded it i₀ o w rs left n { s with ses := { s.ses with draining := false } } :=
    h.loaded.change rfl rfl (fun _ => id) h.loaded.verdict
  unfold endBatch
  dsimp only
  split_ifs with hdrain hok
  · exact ⟨⟨hloaded, h.position⟩, ⟨hcursor, rfl, hok⟩, hclean hok⟩
  · exact ⟨hloaded, hdrained hdrain, fun hno => absurd hno hok⟩
  · have hfalse : s.ses.draining = false := by simpa using hdrain
    exact ⟨h, ⟨hcursor, hfalse, hnot hfalse⟩, hclean (hnot hfalse)⟩

theorem advanceIter_loads (h : Upserted it i₀ o w rs left n false s) (hidle : Idle s)
    (hclean : Clean left) :
    (advanceIter it s).Establishes (loaderAssertion it i₀ o w rs left · n) (.body 5) (.body 6) s := by
  obtain ⟨k, rfl, hjj, hwalked, hmore⟩ := h.position
  simp only [Bool.false_eq_true, if_false] at hwalked
  rcases advanceIter_outcome it s with ⟨i, hi, hout⟩ | ⟨e, he, hout⟩ <;> rw [hout]
  · exact ⟨⟨h.loaded.change rfl rfl (fun _ => id) h.loaded.verdict, k, rfl, hjj,
      hwalked.succ (hmore rfl) hi, by simp⟩, ⟨hidle.cursor, hidle.draining, hidle.ok⟩, hclean⟩
  · exact .inl ⟨k + 1, le_rfl, by simp [IterOps.item, hwalked.item, he]⟩

theorem countItem_loads (h : Upserted it i₀ o w rs left n true s) (hidle : Idle s)
    (hclean : Clean left) :
    (countItem s).Establishes (loaderAssertion it i₀ o w rs left · n) (.body 6) (.body 7) s := by
  obtain ⟨k, rfl, hjj, hwalked, -⟩ := h.position
  exact ⟨h.loaded.change rfl rfl (fun _ => id) h.loaded.verdict,
    ⟨hidle.cursor, hidle.draining, hidle.ok⟩, .inr hclean, hwalked, by simp [hjj]⟩

theorem finished_drain (h : Finished it i₀ o w rs left n s ∧ s.ses.draining = true) :
    (drain (fun _ s => s) s).Establishes (loaderAssertion it i₀ o w rs left · n) (.post 1) (.post 2)
      s := by
  obtain ⟨h, hdrain⟩ := h
  rcases drain_outcome (fun _ s => s) s with ⟨hno, -⟩ | ⟨ec, -, -, hout⟩ | ⟨-, -, hout⟩
  · exact absurd (hdrain.symm.trans hno) (by decide)
  · rw [hout]
    exact ⟨⟨h.loaded.change rfl rfl (fun _ => id) h.loaded.verdict, h.walked, h.ended, h.ok, h.clean⟩,
      hdrain⟩
  · rw [hout]
    exact ⟨⟨h.loaded.change rfl rfl (by simp) h.loaded.verdict, h.walked, h.ended, h.ok, h.clean⟩, rfl⟩

/-- The control thread leaves every assertion true: no loader looks at the flag. -/
theorem loaderAssertion_cancel {pos : Pos Crash} (h : loaderAssertion it i₀ o w rs left pos n s) :
    loaderAssertion it i₀ o w rs left pos n (cancelCurrent s) := by
  have hloaded : ∀ {k}, Loaded it i₀ o w rs left k s → Loaded it i₀ o w rs left k (cancelCurrent s) :=
    fun h => h.change rfl rfl (fun _ => id) h.verdict
  have hidle : Idle s → Idle (cancelCurrent s) := fun h => ⟨h.cursor, h.draining, h.ok⟩
  have hloading : ∀ {k}, Loading it i₀ o w rs left k s →
      Loading it i₀ o w rs left k (cancelCurrent s) :=
    fun h => ⟨hloaded h.loaded, hidle h.idle, h.leftover, h.walked, h.jj⟩
  have hupserted : ∀ {moved}, Upserted it i₀ o w rs left n moved s →
      Upserted it i₀ o w rs left n moved (cancelCurrent s) := fun h => ⟨hloaded h.loaded, h.position⟩
  have hfinished : Finished it i₀ o w rs left n s → Finished it i₀ o w rs left n (cancelCurrent s) :=
    fun h => ⟨hloaded h.loaded, h.walked, h.ended, h.ok, h.clean⟩
  match pos, h with
  | .pre 0, h => exact h
  | .pre (k + 1), h | .test, h | .body (k + 7), h => exact hloading h
  | .body 0, ⟨k, hk, h, hmore⟩ => exact ⟨k, hk, hloading h, hmore⟩
  | .body 1, ⟨k, hk, h, hmore, hc⟩ => exact ⟨k, hk, hloading h, hmore, hc⟩
  | .body 2, ⟨h, hi, hleft⟩ => exact ⟨hupserted h, hidle hi, hleft⟩
  | .body 3, ⟨h, hcheck⟩ =>
    refine ⟨hupserted h, ?_⟩
    split_ifs at hcheck with hdrain
    · rw [if_pos (by exact hdrain)]
      exact hcheck
    · rw [if_neg (by exact hdrain)]
      exact ⟨hidle hcheck.1, hcheck.2⟩
  | .body 4, ⟨h, hrest⟩ => exact ⟨hupserted h, hrest⟩
  | .body 5, ⟨h, hi, hclean⟩ | .body 6, ⟨h, hi, hclean⟩ => exact ⟨hupserted h, hidle hi, hclean⟩
  | .post 0, h => exact hfinished h
  | .post 1, h | .post (k + 2), h => exact ⟨hfinished h.1, h.2⟩
  | .done, ⟨h, hnil, hok⟩ => exact ⟨hloaded h, hnil, fun ht => hfinished (hok ht)⟩
  | .dead e, h => exact h

/-- The assertions form a proof outline of the loaders. -/
theorem loader_outline :
    (loader it o w).Outline cancelCurrent (loaderAssertion it i₀ o w rs left) where
  action := by
    intro here there a n s ha h
    match here, h with
    | .pre 0, ⟨hrs, hsent, hleft, hcursor, hdraining, hiter, hextra, hn⟩ =>
      cases ha
      rw [hn]
      exact startIter_loads hrs hsent hleft ⟨hcursor, hdraining, by rw [hextra]; rfl⟩ hiter
        (by rw [hextra]; rfl)
    | .body 0, ⟨k, hk, h, hmore⟩ =>
      cases ha
      exact hk ▸ lookupCollection_loads h hmore
    | .body 1, ⟨k, hk, h, hmore, c, hc⟩ =>
      cases ha
      exact hk ▸ submitItem_loads h hmore hc _
    | .body 2, ⟨h, hidle, hleft⟩ =>
      cases ha
      exact checkBatch_loads h hidle hleft
    | .body 3, h =>
      cases ha
      exact drain_checkOutcome_loads h
    | .body 4, h =>
      cases ha
      exact endBatch_loads h
    | .body 5, ⟨h, hidle, hclean⟩ =>
      cases ha
      exact advanceIter_loads h hidle hclean
    | .body 6, ⟨h, hidle, hclean⟩ =>
      cases ha
      exact countItem_loads h hidle hclean
    | .post 0, h =>
      cases ha
      exact ⟨⟨h.loaded.change rfl rfl (fun _ => id) h.loaded.verdict, h.walked, h.ended, h.ok, h.clean⟩,
        rfl⟩
    | .post 1, h =>
      cases ha
      exact finished_drain h
    | .pre (k + 1), h | .body (k + 7), h | .post (k + 2), h | .test, h | .done, h | .dead e, h =>
      cases ha
  pre_end := by
    intro k n s hk h
    obtain ⟨j, rfl⟩ := Nat.exists_eq_add_of_le' (show 1 ≤ k from hk)
    exact h
  enter := fun n s ht h => ⟨n, rfl, h, by simpa [loader] using ht⟩
  leave := fun n s ht h => by
    refine ⟨h.loaded, h.walked, by simpa [loader] using ht, h.idle.ok, fun hn => ?_⟩
    exact h.leftover.resolve_left fun ⟨hzero, _⟩ => by
      rw [h.jj] at hzero
      omega
  body_end := by
    intro k n s hk h
    obtain ⟨j, rfl⟩ := Nat.exists_eq_add_of_le' (show 7 ≤ k from hk)
    exact h
  post_end := by
    intro k n s hk h
    obtain ⟨j, rfl⟩ := Nat.exists_eq_add_of_le' (show 2 ≤ k from hk)
    exact ⟨h.1.loaded, h.2, fun _ => h.1⟩
  stable := fun _ _ _ h => loaderAssertion_cancel h

/-! ### Termination -/

/-- Only a drain repeats itself. -/
theorem loader_progress {here there : Pos Crash} {a : OpAction (DsLocal ι BatchVars)}
    (s : OpState (DsLocal ι BatchVars)) (ha : (loader it o w).actionAt here = some (a, there)) :
    (a s).Progress (fun s => s.ses.pending.length - s.ses.cursor) here s := by
  refine Prog.forall_action (P := fun a => (a s).Progress _ here s) ?_ ?_ ?_ ha
  · simp only [loader, List.forall_mem_singleton]
    rcases startIter_outcome it s with ⟨i, -, hout⟩ | ⟨e, -, hout⟩ <;> rw [hout] <;> trivial
  · simp only [loader, List.forall_mem_cons]
    refine ⟨?_, trivial, ?_, drain_progress checkOutcome (fun _ _ => rfl) (fun _ _ => rfl) _ _, ?_,
      ?_, trivial, by simp⟩
    · rcases lookupCollection_outcome it o s with ⟨c, -, hout⟩ | ⟨e, -, hout⟩ <;> rw [hout] <;>
        trivial
    · rcases checkBatch_outcome s with ⟨-, hout⟩ | ⟨-, hout⟩ <;> rw [hout] <;> trivial
    · unfold endBatch
      dsimp only
      split_ifs <;> trivial
    · rcases advanceIter_outcome it s with ⟨i, -, hout⟩ | ⟨e, -, hout⟩ <;> rw [hout] <;> trivial
  · simp only [loader, List.forall_mem_cons]
    exact ⟨trivial, drain_progress (fun _ s => s) (fun _ _ => rfl) (fun _ _ => rfl) _ _, by simp⟩

/-- The dataset has `n` items: building their data does not fail, and the end comes behind the last. -/
structure HasItems (it : IterOps ι) (i₀ : ι) (n : ℕ) : Prop where
  items : ∀ k ≤ n, ∃ i, it.item i₀ k = .ok i
  more : ∀ k < n, ∀ i, it.item i₀ k = .ok i → it.done i = false
  ended : ∀ i, it.item i₀ n = .ok i → it.done i = true

/-- No walk leads past the end. -/
theorem HasItems.le_of_walked {m : ℕ} (h : HasItems it i₀ n) {i : ι} (hw : Walked it i₀ m i) : m ≤ n := by
  by_contra hgt
  obtain ⟨j, hj, hmore⟩ := hw.passed n (Nat.lt_of_not_le hgt)
  rw [h.ended j hj] at hmore
  cases hmore

theorem HasItems.of_walked {m : ℕ} (h : HasItems it i₀ n) {i : ι} (hw : Walked it i₀ m i)
    (hdone : it.done i = true) : m = n := by
  refine Nat.le_antisymm (h.le_of_walked hw) (Nat.le_of_not_lt fun hlt => ?_)
  rw [h.more m hlt i hw.item] at hdone
  cases hdone

/-- An item that is not the end is one of the `n`. -/
theorem HasItems.lt_of_walked {m : ℕ} (h : HasItems it i₀ n) {i : ι} (hw : Walked it i₀ m i)
    (hmore : it.done i = false) : m < n := by
  refine Nat.lt_of_le_of_ne (h.le_of_walked hw) ?_
  rintro rfl
  rw [h.ended i hw.item] at hmore
  cases hmore

/-- On `n` items a loader comes to its end under every schedule, after at most `n` rounds, or dies for
want of a collection. -/
theorem loader_halts (hn : HasItems it i₀ n) (sched : ℕ → Bool)
    {c : Config (OpState (DsLocal ι BatchVars)) Crash}
    (hc : c.Satisfies (loaderAssertion it i₀ o w rs left)) (hr : c.rounds = 0) :
    ∃ m, let c' := (loader it o w).run cancelCurrent sched c m
      c'.halted ∧ c'.Satisfies (loaderAssertion it i₀ o w rs left) ∧ c'.rounds ≤ n := by
  refine loader_outline.halts (fun r s hr hloading htest => ?_)
    (fun _ s => s.ses.pending.length - s.ses.cursor) (fun _ _ => rfl)
    (fun _ _ _ s ha => loader_progress s ha) sched hc (by omega)
  exact hn.lt_of_walked (Loading.walked hloading) (by simpa [loader] using htest)

end Outline

end Sdkd
