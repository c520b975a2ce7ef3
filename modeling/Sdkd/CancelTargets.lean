import Sdkd.Lifecycle

/-!
# What a CANCEL reaches

The control thread looks up the worker of a CANCEL and then calls into it, and in between the workers go on: the
one looked up may leave its loop, unregister and give up its handle.

## Main definitions

- `Target` — where the worker of a CANCEL may stand until it is called

## Main results

- `Reachable.cancel_reaches` — a CANCEL sets the flag of the handle it names, or finds it given up, and changes
  nothing else
-/

namespace Sdkd

namespace Daemon

/-- A CANCEL for `hid` has looked up the worker `w`, which still holds this handle or has given it up for
good. -/
structure Target (hid w : ℕ) (d : Daemon) : Prop where
  cancelling : d.cancelling = some w
  stands : ∃ c, d.children w = some c ∧
    ((c.phase = .looping ∨ c.phase = .leaving ∨ c.phase = .dropping) ∧
        c.wd.curHandle.map Handle.hid = some hid ∨
      c.phase = .finished ∧ c.wd.curHandle = none)

variable {d d' : Daemon} {hid w v : ℕ} {a : Action}

/-- The worker a CANCEL finds holds the handle it names. -/
theorem Inv.target (h : Inv d) (hmap : d.md.h2wmap hid = some w) (hs : d.step (.lookup hid) = some d') :
    Target hid w d' := by
  simp only [Daemon.step] at hs
  split_ifs at hs
  obtain rfl := Option.some.inj hs
  obtain ⟨hne, c, hc, hcur, hphase⟩ := h.registered hid w hmap
  have hholds : c.wd.curHandle.map Handle.hid = some hid := by
    have hstanding := h.standing w c hc
    unfold Standing at hstanding
    rcases hphase with hphase | hphase <;> rw [hphase] at hstanding <;>
      rcases hstanding with ⟨-, hzero⟩ | ⟨hsome, -⟩
    · exact absurd (hcur.symm.trans hzero) hne
    · rw [hsome, hcur]
    · exact absurd (hcur.symm.trans hzero) hne
    · rw [hsome, hcur]
  exact ⟨hmap, c, hc, .inl ⟨hphase.imp_right .inl, hholds⟩⟩

/-- The steps of the other workers do not touch it. -/
theorem Target.of_others (h : Target hid w d) (hne : w ≠ v) {c : Option Child} {md : MainDispatch} :
    Target hid w { d.setChild v c with md := md } := by
  obtain ⟨c₁, hc₁, hstands⟩ := h.stands
  exact ⟨h.cancelling, c₁, (setChild_ne d c hne).trans hc₁, hstands⟩

/-- What a step of the worker itself has to establish. -/
theorem Target.of_self (h : Target hid w d) {c : Child} {md : MainDispatch}
    (hstands : (c.phase = .looping ∨ c.phase = .leaving ∨ c.phase = .dropping) ∧
        c.wd.curHandle.map Handle.hid = some hid ∨ c.phase = .finished ∧ c.wd.curHandle = none) :
    Target hid w { d.setChild w (some c) with md := md } :=
  ⟨h.cancelling, c, setChild_self d w _, hstands⟩

/-- The handle of a worker that stands at a phase before the last one. -/
theorem Target.holds (h : Target hid w d) {wd : WorkerDispatch} {phase : Phase}
    (hc : d.children w = some ⟨wd, phase⟩) (hphase : phase ≠ .finished) :
    wd.curHandle.map Handle.hid = some hid ∧ phase ≠ .registering := by
  obtain ⟨c, hc', hstands⟩ := h.stands
  obtain rfl := Option.some.inj (hc.symm.trans hc')
  rcases hstands with ⟨hwhere, hholds⟩ | ⟨hfinished, -⟩
  · refine ⟨hholds, ?_⟩
    rintro rfl
    simp at hwhere
  · exact absurd hfinished hphase

/-- Until it is called the worker keeps the handle or gives it up for good. -/
theorem Target.step (h : Target hid w d) (hcall : a ≠ .call) (hs : d.step a = some d') : Target hid w d' := by
  have hbusy : d.cancelling ≠ none := by simp [h.cancelling]
  cases a with
  | call => exact absurd rfl hcall
  | accept script => simp [Daemon.step, hbusy] at hs
  | collect v => simp [Daemon.step, hbusy] at hs
  | lookup hid' => simp [Daemon.step, hbusy] at hs
  | newHandle v hd =>
    simp only [Daemon.step] at hs
    obtain ⟨wd, hc, hd'⟩ := workerStep_eq_some hs
    split_ifs at hd' with hnone
    obtain rfl := Option.some.inj hd'
    by_cases hne : w = v
    · subst hne
      obtain ⟨hholds, -⟩ := h.holds hc (by simp)
      simp [hnone] at hholds
    · exact h.of_others hne
  | register v =>
    simp only [Daemon.step] at hs
    obtain ⟨wd, hc, hd'⟩ := workerStep_eq_some hs
    obtain rfl := Option.some.inj hd'
    by_cases hne : w = v
    · subst hne
      exact absurd rfl (h.holds hc (by simp)).2
    · exact h.of_others hne
  | leave v =>
    simp only [Daemon.step] at hs
    obtain ⟨wd, hc, hd'⟩ := workerStep_eq_some hs
    obtain rfl := Option.some.inj hd'
    by_cases hne : w = v
    · subst hne
      exact h.of_self (.inl ⟨.inr (.inl rfl), (h.holds hc (by simp)).1⟩)
    · exact h.of_others hne
  | unregister v =>
    simp only [Daemon.step] at hs
    obtain ⟨wd, hc, hd'⟩ := workerStep_eq_some hs
    obtain rfl := Option.some.inj hd'
    by_cases hne : w = v
    · subst hne
      have hsame : (wd.unregister d.md).1.curHandle = wd.curHandle := by
        unfold WorkerDispatch.unregister
        split_ifs <;> rfl
      refine h.of_self (.inl ⟨.inr (.inr rfl), ?_⟩)
      rw [hsame]
      exact (h.holds hc (by simp)).1
    · exact h.of_others hne
  | dropHandle v =>
    simp only [Daemon.step] at hs
    obtain ⟨wd, hc, hd'⟩ := workerStep_eq_some hs
    obtain rfl := Option.some.inj hd'
    by_cases hne : w = v
    · subst hne
      exact h.of_self (.inr ⟨rfl, rfl⟩)
    · exact h.of_others hne

/-- The steps that may come between the lookup of a CANCEL and its call. -/
def Goes (d d' : Daemon) : Prop :=
  Relation.ReflTransGen (fun d d' => ∃ a, a ≠ .call ∧ FreshId d a ∧ d.step a = some d') d d'

theorem Reachable.goes (h : Reachable FreshId d) (hgoes : Goes d d') : Reachable FreshId d' := by
  induction hgoes with
  | refl => exact h
  | tail _ hstep ih =>
    obtain ⟨a, -, hfresh, hs⟩ := hstep
    exact ih.tail ⟨a, hfresh, hs⟩

theorem Target.goes (h : Target hid w d) (hgoes : Goes d d') : Target hid w d' := by
  induction hgoes with
  | refl => exact h
  | tail _ hstep ih =>
    obtain ⟨a, hcall, -, hs⟩ := hstep
    exact ih.step hcall hs

/-- What the call of a CANCEL for `hid` does to its worker: it sets the flag of that handle, or the handle has
been given up and nothing changes. -/
def Cancels (hid : ℕ) (c c' : Child) : Prop :=
  c'.phase = c.phase ∧
    ((∃ h, c.wd.curHandle = some h ∧ h.hid = hid ∧
        c'.wd = { c.wd with curHandle := some { h with doCancel := true } }) ∨
      c.phase = .finished ∧ c' = c)

/-- **Targets of CANCELs.** In every state reached while all new handles have fresh ids: a CANCEL for an id
that is not registered does nothing, and no worker owns a handle with it but one that has not registered it yet
or has unregistered it and is about to delete it. Any other CANCEL, whatever the workers do between its lookup
and its call, can make its call; this sets the flag of the handle with that id if its worker has not given it up,
and it touches no other worker and no registration. -/
theorem Reachable.cancel_reaches {d₁ : Daemon} (h : Reachable FreshId d)
    (hs : d.step (.lookup hid) = some d₁) :
    (d.md.h2wmap hid = none → d₁ = d ∧
      ∀ w c, d.children w = some c → c.owns = some hid → c.InTransit) ∧
    ∀ w, d.md.h2wmap hid = some w → ∀ d₂, Goes d₁ d₂ → ∃ d₃ c c', d₂.step .call = some d₃ ∧
      d₃.md = d₂.md ∧ d₃.next = d₂.next ∧ d₃.fault = false ∧ d₃.cancelling = none ∧
      (∀ v, v ≠ w → d₃.children v = d₂.children v) ∧
      d₂.children w = some c ∧ d₃.children w = some c' ∧ Cancels hid c c' := by
  constructor
  · intro hnone
    refine ⟨?_, fun w c hc howns => ?_⟩
    · simp only [Daemon.step] at hs
      split_ifs at hs with hidle
      rw [← Option.some.inj hs, hnone, ← hidle]
    · by_contra hsettled
      cases hnone.symm.trans (h.inv.leads hc hsettled howns)
  · intro w hmap d₂ hgoes
    have hreach₁ : Reachable FreshId d₁ := h.tail ⟨.lookup hid, trivial, hs⟩
    have hfault := (hreach₁.goes hgoes).inv.noFault
    obtain ⟨hcancelling, c, hc, hstands⟩ := (h.inv.target hmap hs).goes hgoes
    have hcall : d₂.step .call = some { d₂.setChild w
        (some { c with wd := c.wd.cancelCurrentHandle }) with cancelling := none } := by
      simp only [Daemon.step, hcancelling, hc]
    refine ⟨_, c, _, hcall, rfl, rfl, hfault, rfl, fun v hv => setChild_ne d₂ _ hv, hc,
      setChild_self d₂ w _, rfl, ?_⟩
    · rcases hstands with ⟨-, hholds⟩ | ⟨hfinished, hnone⟩
      · obtain ⟨hd, hsome, hid'⟩ := Option.map_eq_some_iff.mp hholds
        exact .inl ⟨hd, hsome, hid', by simp [WorkerDispatch.cancelCurrentHandle, hsome]⟩
      · refine .inr ⟨hfinished, ?_⟩
        obtain ⟨wd, phase⟩ := c
        obtain ⟨id, io, curHandle, curHid, sent⟩ := wd
        dsimp only at hnone
        subst hnone
        rfl

/-- The worker leaves its loop between the lookup and the call. -/
theorem Reachable.cancel_reaches_leaving : ∃ d d₁ d₂ d₃ c c', Reachable FreshId d ∧
    d.step (.lookup 4) = some d₁ ∧ d₁.step (.leave 0) = some d₂ ∧ d₂.step .call = some d₃ ∧
    d₂.children 0 = some c ∧ d₃.children 0 = some c' ∧ c.phase = .leaving ∧ Cancels 4 c c' := by
  have hcreate : FreshId ((new.setChild 0 (some ⟨.new 0 [], .looping⟩)))
      (.newHandle 0 (exampleHandleOf 4)) := by
    refine ⟨by decide, fun v c hne hc => ?_⟩
    rw [setChild_ne _ _ hne] at hc
    cases hc
  have hreach : Reachable FreshId _ :=
    ((Relation.ReflTransGen.refl.tail ⟨.accept [], trivial, rfl⟩).tail
      ⟨.newHandle 0 (exampleHandleOf 4), hcreate, rfl⟩).tail ⟨.register 0, trivial, rfl⟩
  obtain ⟨d₃, c, c', hcall, -, -, -, -, -, hc, hc', hcancels⟩ :=
    (Reachable.cancel_reaches hreach (show Daemon.step _ (.lookup 4) = some _ from rfl)).2 0 rfl _
      (.tail .refl ⟨.leave 0, by simp, trivial, rfl⟩)
  obtain rfl := Option.some.inj hc
  exact ⟨_, _, _, d₃, _, c', hreach, rfl, rfl, hcall, rfl, hc', rfl, hcancels⟩

end Daemon

end Sdkd
