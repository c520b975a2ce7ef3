import Sdkd.Endings

/-!
# View queries

How often `executeView` queries, with what, and what it reports. Its count of iterations is looked at behind a
query, so a count of zero makes one query; a negative count makes queries until a CANCEL.

## Main definitions

- `Reported` — a session has recorded a list of outcomes, and its statistics count them, in `int`s
- `viewQueryAssertion` — the assertion that holds at each control position

## Main results

- `executeView_law` — the queries sent and the outcomes recorded, wherever a view query stands
-/

namespace Sdkd

open LoopProg

/-- The outcomes recorded are `outs`, and the statistics count their texts, in `int`s. -/
structure Reported (outs : List ErrorCode) (s : Session) : Prop where
  recorded : s.rs.recorded = outs
  stats : Histogram.Counts intCounter s.rs.stats (outs.map ErrorCode.text)

namespace Reported

variable {w : World} {outs : List ErrorCode} {s : Session}

theorem enter (s : Session) (options : ResultOptions) : Reported [] (s.enter options) :=
  ⟨rfl, Histogram.counts_empty⟩

theorem clearResults (s : Session) : Reported [] s.clearResults := ⟨rfl, Histogram.counts_empty⟩

/-- A request is sent and its outcome recorded. -/
theorem executed (h : Reported outs s) (r : ClusterRequest) :
    Reported (outs ++ [w.outcome s.sent.length])
      ((s.execute w r).2.setRescode w (s.execute w r).1) where
  recorded := by simp [Session.execute, Session.setRescode, h.recorded]
  stats := by simpa [Session.execute, Session.setRescode] using h.stats.bump _

theorem executedFinal (h : Reported outs s) (r : ClusterRequest) :
    Reported (outs ++ [w.outcome s.sent.length])
      ((s.execute w r).2.setRescodeFinal w (s.execute w r).1 true) where
  recorded := by simp [Session.execute, Session.setRescodeFinal, h.recorded]
  stats := by
    simpa [Session.execute, Session.setRescodeFinal, ResultSet.setRescodeFinal, ResultSet.setRescodeFull]
      using h.stats.bump (w.outcome s.sent.length).text

theorem markBegin (h : Reported outs s) : Reported outs (s.markBegin w) := ⟨h.recorded, h.stats⟩

end Reported

section Views

variable [JsonAccess] (o : HandleOptions) (w : World) (req : Request)

/-- `ViewQueryCount`. -/
def viewQueryCount : ℤ := asInt ((req.payload.get "Options").get "ViewQueryCount")

/-- Both names are given. -/
def NamesView : Prop :=
  (asString (req.payload.get "DesignName")).length ≠ 0 ∧
    (asString (req.payload.get "ViewName")).length ≠ 0

/-- After `r` queries. -/
structure ViewQueried (r : ℕ) (s : OpState ViewQueryVars) : Prop where
  names : NamesView req
  sent : s.ses.sent = List.replicate r (viewRequest o req)
  reported : Reported ((List.range r).map w.outcome) s.ses

/-- The countdown after `r` rounds that have not ended the loop. -/
structure Counting (r : ℕ) (s : OpState ViewQueryVars) : Prop where
  counted : 0 ≤ viewQueryCount req → s.loc.numIterations = viewQueryCount req - r ∧
    (r = 0 ∨ (r : ℤ) < viewQueryCount req)
  endless : viewQueryCount req < 0 → s.loc.numIterations = viewQueryCount req

/-- The loop has ended after `r` rounds, and why. -/
structure ViewEnded (r : ℕ) (s : OpState ViewQueryVars) : Prop where
  why : s.ses.doCancel = true ∨ (0 ≤ viewQueryCount req ∧ (r : ℤ) = max 1 (viewQueryCount req))
  le : 0 ≤ viewQueryCount req → (r : ℤ) ≤ max 1 (viewQueryCount req)

/-- What holds at a control position after `r` rounds. -/
def viewQueryAssertion (pos : Pos Crash) (r : ℕ) (s : OpState ViewQueryVars) : Prop :=
  match pos with
  | .pre 0 => r = 0 ∧ s.ses.sent = [] ∧ s.loc = .start req
  | .pre 1 => r = 0 ∧ s.ses.sent = [] ∧ s.loc = .start req ∧ Reported [] s.ses
  | .pre (_ + 2) | .test => ViewQueried o w req r s ∧ Counting req r s
  | .body 0 | .body 1 | .body 2 => ∃ k, r = k + 1 ∧ ViewQueried o w req k s ∧ Counting req k s
  | .body 3 => ∃ k, r = k + 1 ∧ ViewQueried o w req r s ∧ Counting req k s
  | .body (_ + 4) => ViewQueried o w req r s ∧ Counting req r s
  | .post _ => ViewQueried o w req r s ∧ ViewEnded req r s
  | .done => (¬ NamesView req ∧ r = 0 ∧ s.ses.sent = [] ∧ Reported [] s.ses) ∨
      (ViewQueried o w req r s ∧ ViewEnded req r s)
  | .dead _ => False

variable {o w req} {r k : ℕ} {s s' : OpState ViewQueryVars}

theorem ViewQueried.congr (h : ViewQueried o w req r s) (hsent : s'.ses.sent = s.ses.sent)
    (hrecorded : s'.ses.rs.recorded = s.ses.rs.recorded) (hstats : s'.ses.rs.stats = s.ses.rs.stats) :
    ViewQueried o w req r s' :=
  ⟨h.names, hsent.trans h.sent, hrecorded.trans h.reported.recorded, hstats ▸ h.reported.stats⟩

theorem Counting.congr (h : Counting req r s) (hloc : s'.loc = s.loc) : Counting req r s' := by
  obtain ⟨hcounted, hendless⟩ := h
  exact ⟨by rwa [hloc], by rwa [hloc]⟩

theorem counting_start (hloc : s.loc = .start req) : Counting req 0 s := by
  constructor
  · intro _
    rw [hloc]
    exact ⟨by simp [ViewQueryVars.start, viewQueryCount], .inl rfl⟩
  · intro _
    rw [hloc]
    rfl

theorem Counting.le (h : Counting req r s) (hnonneg : 0 ≤ viewQueryCount req) :
    (r : ℤ) ≤ max 1 (viewQueryCount req) := by
  rcases (h.counted hnonneg).2 with rfl | hlt <;> omega

/-- In the round after `k` others the query is one of the `max 1 ViewQueryCount`. -/
theorem Counting.succ_le (h : Counting req k s) (hnonneg : 0 ≤ viewQueryCount req) :
    ((k + 1 : ℕ) : ℤ) ≤ max 1 (viewQueryCount req) := by
  push_cast
  rcases (h.counted hnonneg).2 with rfl | hlt <;> omega

theorem checkNames_views (hsent : s.ses.sent = []) (hloc : s.loc = .start req)
    (hreported : Reported [] s.ses) :
    (checkNames req s).Establishes (viewQueryAssertion o w req · 0) (.pre 1) (.pre 2) s := by
  unfold checkNames
  split_ifs with hempty
  · refine .inl ⟨fun ⟨hdesign, hview⟩ => ?_, rfl, hsent, hreported⟩
    exact hempty.elim hdesign hview
  · obtain ⟨hdesign, hview⟩ := not_or.mp hempty
    exact ⟨⟨⟨hdesign, hview⟩, hsent, hreported⟩, counting_start hloc⟩

theorem queryView_views (h : ViewQueried o w req k s) (hcount : Counting req k s) :
    (queryView o w req s).Establishes (viewQueryAssertion o w req · (k + 1)) (.body 2) (.body 3) s := by
  have hlen : s.ses.sent.length = k := by rw [h.sent, List.length_replicate]
  refine ⟨k, rfl, ⟨h.names, ?_, ?_⟩, hcount.congr rfl⟩
  · simp [Session.execute, Session.setRescode, h.sent, List.replicate_succ']
  · have hexecuted := h.reported.executed (w := w) (viewRequest o req)
    rw [hlen] at hexecuted
    rwa [List.range_succ, List.map_append]

/-- The countdown ends the loop behind query number `max 1 ViewQueryCount`. -/
theorem countDown_views (h : ViewQueried o w req (k + 1) s) (hcount : Counting req k s) :
    (countDown s).Establishes (viewQueryAssertion o w req · (k + 1)) (.body 3) (.body 4) s := by
  unfold countDown
  dsimp only
  by_cases hneg : viewQueryCount req < 0
  · have hloc := hcount.endless hneg
    rw [if_neg (by omega)]
    exact ⟨h, fun hnonneg => absurd hneg (by omega), fun _ => hloc⟩
  · obtain ⟨hloc, hbefore⟩ := hcount.counted (by omega)
    rw [if_pos (by omega)]
    split_ifs with hzero
    · refine ⟨h.congr rfl rfl rfl, .inr ⟨by omega, ?_⟩, hcount.succ_le⟩
      push_cast
      omega
    · refine ⟨h.congr rfl rfl rfl, fun _ => ⟨?_, .inr ?_⟩, fun hlt => absurd hlt hneg⟩
      · push_cast
        omega
      · push_cast
        omega

/-- A CANCEL touches nothing an assertion speaks about but the reason to stop. -/
theorem viewQueryAssertion_cancel {pos : Pos Crash} {r : ℕ} {s : OpState ViewQueryVars}
    (h : viewQueryAssertion o w req pos r s) : viewQueryAssertion o w req pos r (cancelCurrent s) := by
  have hqueried : ∀ {k}, ViewQueried o w req k s → ViewQueried o w req k (cancelCurrent s) :=
    fun h => h.congr rfl rfl rfl
  have hcounting : ∀ {k}, Counting req k s → Counting req k (cancelCurrent s) := fun h => h.congr rfl
  match pos, h with
  | .pre 0, h => exact h
  | .pre 1, ⟨hr, hsent, hloc, hreported⟩ =>
    exact ⟨hr, hsent, hloc, hreported.recorded, hreported.stats⟩
  | .pre (k + 2), h | .test, h | .body (k + 4), h => exact ⟨hqueried h.1, hcounting h.2⟩
  | .body 0, ⟨k, hk, h⟩ | .body 1, ⟨k, hk, h⟩ | .body 2, ⟨k, hk, h⟩ | .body 3, ⟨k, hk, h⟩ =>
    exact ⟨k, hk, hqueried h.1, hcounting h.2⟩
  | .post k, h => exact ⟨hqueried h.1, .inl rfl, h.2.le⟩
  | .done, .inl ⟨hnames, hr, hsent, hreported⟩ =>
    exact .inl ⟨hnames, hr, hsent, hreported.recorded, hreported.stats⟩
  | .done, .inr h => exact .inr ⟨hqueried h.1, .inl rfl, h.2.le⟩

/-- The assertions form a proof outline of a view query. -/
theorem executeView_outline (options : ResultOptions) :
    (executeView o w req options).Outline cancelCurrent (viewQueryAssertion o w req) where
  action := by
    intro here there a r s ha h
    match here, h with
    | .pre 0, ⟨hr, hsent, hloc⟩ =>
      cases ha
      exact ⟨hr, hsent, hloc, .enter s.ses options⟩
    | .pre 1, ⟨hr, hsent, hloc, hreported⟩ =>
      cases ha
      subst hr
      exact checkNames_views hsent hloc hreported
    | .pre 2, h =>
      cases ha
      exact ⟨h.1.congr rfl rfl rfl, h.2.congr rfl⟩
    | .body 0, ⟨k, hk, h, hcount⟩ | .body 1, ⟨k, hk, h, hcount⟩ =>
      cases ha
      exact ⟨k, hk, h.congr rfl rfl rfl, hcount.congr rfl⟩
    | .body 2, ⟨k, hk, h, hcount⟩ =>
      cases ha
      exact hk ▸ queryView_views h hcount
    | .body 3, ⟨k, hk, h, hcount⟩ =>
      cases ha
      subst hk
      exact countDown_views h hcount
    | .pre (k + 3), h | .body (k + 4), h | .post k, h | .test, h | .done, h | .dead e, h => cases ha
  pre_end := by
    intro k r s hk h
    obtain ⟨j, rfl⟩ := Nat.exists_eq_add_of_le' (show 3 ≤ k from hk)
    exact h
  enter := fun r s _ h => ⟨r, rfl, h⟩
  leave := fun r s ht h => ⟨h.1, .inl (by simpa [executeView, notCancelled] using ht), h.2.le⟩
  body_end := by
    intro k r s hk h
    obtain ⟨j, rfl⟩ := Nat.exists_eq_add_of_le' (show 4 ≤ k from hk)
    exact h
  post_end := fun _ _ _ _ h => .inr h
  stable := fun _ _ _ h => viewQueryAssertion_cancel h

/-- What holds of a view query wherever it stands. -/
structure ViewRun (o : HandleOptions) (w : World) (req : Request)
    (c : Config (OpState ViewQueryVars) Crash) : Prop where
  queries : c.st.ses.sent = List.replicate c.st.ses.sent.length (viewRequest o req)
  names : c.st.ses.sent ≠ [] → NamesView req
  count_le : 0 ≤ viewQueryCount req → (c.st.ses.sent.length : ℤ) ≤ max 1 (viewQueryCount req)
  reported : c.pos = .done → Reported ((List.range c.st.ses.sent.length).map w.outcome) c.st.ses
  returned : c.pos = .done → NamesView req → c.st.ses.doCancel = true ∨
    (0 ≤ viewQueryCount req ∧ (c.st.ses.sent.length : ℤ) = max 1 (viewQueryCount req))
  alive : ∀ e, c.pos ≠ .dead e

theorem ViewQueried.run {c : Config (OpState ViewQueryVars) Crash} {m : ℕ}
    (h : ViewQueried o w req m c.st)
    (hle : 0 ≤ viewQueryCount req → (m : ℤ) ≤ max 1 (viewQueryCount req))
    (hended : c.pos = .done → ViewEnded req m c.st) (halive : ∀ e, c.pos ≠ .dead e) :
    ViewRun o w req c := by
  have hlen : c.st.ses.sent.length = m := by rw [h.sent, List.length_replicate]
  refine ⟨by rw [hlen]; exact h.sent, fun _ => h.names, by rwa [hlen], fun _ => by rw [hlen]; exact h.reported,
    fun hpos _ => ?_, halive⟩
  rw [hlen]
  exact (hended hpos).why

theorem viewRun_of_satisfies {c : Config (OpState ViewQueryVars) Crash}
    (h : c.Satisfies (viewQueryAssertion o w req)) : ViewRun o w req c := by
  have hempty : c.st.ses.sent = [] → c.pos ≠ .done → (∀ e, c.pos ≠ .dead e) → ViewRun o w req c := by
    intro hsent hpos halive
    exact ⟨by rw [hsent]; rfl, fun hne => absurd hsent hne, fun _ => by simp [hsent],
      fun hdone => absurd hdone hpos, fun hdone => absurd hdone hpos, halive⟩
  obtain ⟨pos, s, r⟩ := c
  match pos, h with
  | .pre 0, ⟨_, hsent, _⟩ | .pre 1, ⟨_, hsent, _⟩ => exact hempty hsent (by simp) (by simp)
  | .pre (k + 2), h | .test, h | .body (k + 4), h => exact h.1.run h.2.le (by simp) (by simp)
  | .body 0, ⟨k, _, h⟩ | .body 1, ⟨k, _, h⟩ | .body 2, ⟨k, _, h⟩ => exact h.1.run h.2.le (by simp) (by simp)
  | .body 3, ⟨k, hk, h⟩ => exact h.1.run (by dsimp only at hk; subst hk; exact h.2.succ_le) (by simp) (by simp)
  | .post k, h => exact h.1.run h.2.le (by simp) (by simp)
  | .done, .inl ⟨hnames, _, hsent, hreported⟩ =>
    refine ⟨by dsimp only at hsent ⊢; rw [hsent]; rfl, fun hne => absurd hsent hne,
      fun _ => by dsimp only at hsent ⊢; simp [hsent], fun _ => ?_, fun _ hyes => absurd hyes hnames, by simp⟩
    dsimp only at hsent ⊢
    rw [hsent]
    exact hreported
  | .done, .inr h => exact h.1.run h.2.le (fun _ => h.2) (by simp)

/-- **View queries.** Wherever an interleaving with the control thread takes a view query, it has sent the one
query of its request again and again, at most `max 1 ViewQueryCount` times if the count is not negative, and
never if a name is missing. When it returns it reports one outcome for each query, and it has made all its
queries or has been cancelled. With a count that is not negative it returns, whatever the control thread
does. -/
theorem executeView_law [JsonWriter] (h : Handle) (w : World) (req : Request)
    (hcode : req.command.code = .cbViewQuery) (opts : ResultOptions) (rs : ResultSet) :
    (∀ c, (executeView h.options w req opts).Reaches cancelCurrent
      (.start ⟨h.session rs, .start req⟩) c → ViewRun h.options w req c) ∧
    (0 ≤ viewQueryCount req → ∀ sched, ∃ n, ((executeView h.options w req opts).run cancelCurrent sched
      (.start ⟨h.session rs, .start req⟩) n).pos = .done) := by
  have hstart : (Config.start (⟨h.session rs, .start req⟩ : OpState ViewQueryVars)).Satisfies
      (viewQueryAssertion h.options w req) := ⟨rfl, rfl, rfl⟩
  have hop : queryOperation h w req opts =
      some ⟨_, executeView h.options w req opts, .start req⟩ := by simp only [queryOperation, hcode]
  refine ⟨fun c hc => viewRun_of_satisfies ((executeView_outline opts).sound hc hstart),
    fun hnonneg sched => ?_⟩
  have hN : ∀ r (s : OpState ViewQueryVars), r ≤ (max 1 (viewQueryCount req)).toNat →
      viewQueryAssertion h.options w req .test r s →
      (executeView h.options w req opts).test s = true → r < (max 1 (viewQueryCount req)).toNat := by
    intro r s _ hat _
    have hle := Counting.succ_le hat.2 hnonneg
    omega
  obtain ⟨n, hhalted, hsat, -⟩ := (executeView_outline opts).halts hN (fun _ _ => 0) (fun _ _ => rfl)
    (fun _ _ _ s ha => queryOperation_progress hop s ha) sched hstart (Nat.zero_le _)
  refine ⟨n, ?_⟩
  have hrun := viewRun_of_satisfies hsat
  unfold Config.halted at hhalted
  split at hhalted
  · next hpos => exact hpos
  · next e hpos => exact absurd hpos (hrun.alive e)
  · exact hhalted.elim

end Views

section Examples

/-- A view query of two iterations. -/
def exampleViewQuery : Request :=
  ⟨1, 1, ⟨"CB_VIEW_QUERY", .cbViewQuery⟩, .object [("Options", .object [("ViewQueryCount", .int 2)]),
    ("DesignName", .string "design"), ("ViewName", .string "view")], .success⟩

theorem executeView_law_two :
    letI := JsonAccess.plain
    letI := JsonWriter.compact
    (∀ c, (executeView exampleHandle.options exampleWorld exampleViewQuery .default).Reaches cancelCurrent
      (.start ⟨exampleHandle.session .new, .start exampleViewQuery⟩) c →
        ViewRun exampleHandle.options exampleWorld exampleViewQuery c) ∧
    (0 ≤ viewQueryCount exampleViewQuery → ∀ sched, ∃ n,
      ((executeView exampleHandle.options exampleWorld exampleViewQuery .default).run cancelCurrent sched
        (.start ⟨exampleHandle.session .new, .start exampleViewQuery⟩) n).pos = .done) :=
  letI := JsonAccess.plain
  letI := JsonWriter.compact
  executeView_law exampleHandle exampleWorld exampleViewQuery rfl .default .new

end Examples

end Sdkd
