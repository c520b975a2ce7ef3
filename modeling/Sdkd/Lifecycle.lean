import Mathlib.Logic.Relation
import Sdkd.NewHandle

/-!
# The life of a worker

`WorkerDispatch::run`, `registerWDHandle`, `unregisterWDHandle`, `_collect_workers` and the CANCEL branch
of `dispatchCommand` as a transition system of the control thread and any number of workers. A worker is
known by the number of its connection. What a worker does apart from the steps below changes neither its
handle nor the registrations.

## Main definitions

- `Daemon`, `Action`, `step` — the states, and the steps of the threads
- `Sound` — no registration of a deleted worker, and every owner of a handle registered
- `Child.InTransit` — the handle of a worker is not registered yet, or not any more

## Main results

- `Inv.step` — what the steps preserve, as long as handle ids are fresh
- `Reachable.registrations_sound` — soundness in every reachable state
-/

namespace Sdkd

namespace WorkerDispatch

/-- `cancelCurrentHandle`. -/
def cancelCurrentHandle (wd : WorkerDispatch) : WorkerDispatch :=
  { wd with curHandle := wd.curHandle.map fun h => { h with doCancel := true } }

/-- The statement of `run` behind the final flush; an id of zero counts as none. -/
def unregister (wd : WorkerDispatch) (md : MainDispatch) : WorkerDispatch × MainDispatch :=
  if wd.curHid ≠ 0 then ({ wd with curHid := 0 }, md.unregisterWDHandle wd.curHid) else (wd, md)

/-- The end of `run`: the handle is cancelled and deleted. -/
def dropHandle (wd : WorkerDispatch) : WorkerDispatch := { wd with curHandle := none }

end WorkerDispatch

/-- Where the thread of a worker stands: in its loop, between the creation of a handle and its
registration, behind the loop, behind the unregistration, or at its end. -/
inductive Phase where
  | looping
  | registering
  | leaving
  | dropping
  | finished
  deriving DecidableEq

structure Child where
  wd : WorkerDispatch
  phase : Phase

/-- The id of the handle a worker owns, from its creation until it is deleted. -/
def Child.owns (c : Child) : Option ℕ := c.wd.curHandle.map Handle.hid

/-- The worker owns a handle and stands between its creation and its registration, or between its
unregistration and its deletion. -/
def Child.InTransit (c : Child) : Prop :=
  (c.phase = .registering ∨ c.phase = .dropping) ∧ c.wd.curHandle.isSome = true

/-- The control thread and the workers. `children` holds the workers that have not been deleted, `next`
is the number of the next connection, `cancelling` the worker a CANCEL has looked up. `fault` is a history
variable: a CANCEL has called into a deleted worker. -/
structure Daemon where
  md : MainDispatch
  children : ℕ → Option Child
  next : ℕ
  cancelling : Option ℕ
  fault : Bool

namespace Daemon

def new : Daemon := ⟨.new [], fun _ => none, 0, none, false⟩

/-- Replace, add or delete the worker `w`. -/
def setChild (d : Daemon) (w : ℕ) (c : Option Child) : Daemon :=
  { d with children := fun v => if v = w then c else d.children v }

end Daemon

/-- The steps. Those of the control thread accept a connection, collect a worker that has finished, look
up the worker of a CANCEL and call into it; the others are steps of the worker `w`. -/
inductive Action where
  | accept (script : List RecvResult)
  | collect (w : ℕ)
  | lookup (hid : ℕ)
  | call
  | newHandle (w : ℕ) (h : Handle)
  | register (w : ℕ)
  | leave (w : ℕ)
  | unregister (w : ℕ)
  | dropHandle (w : ℕ)

namespace Daemon

/-- A step of a worker that stands at `phase`. -/
def workerStep (d : Daemon) (w : ℕ) (phase : Phase) (f : WorkerDispatch → Option Daemon) :
    Option Daemon :=
  match d.children w with
  | some c => if c.phase = phase then f c.wd else none
  | none => none

/-- A step, if it is possible. While a CANCEL is under way the control thread does nothing else. -/
def step (d : Daemon) : Action → Option Daemon
  | .accept script =>
    if d.cancelling = none then
      some { d.setChild d.next (some ⟨.new d.next script, .looping⟩) with next := d.next + 1 }
    else none
  | .collect w =>
    if d.cancelling = none then d.workerStep w .finished fun _ => some (d.setChild w none) else none
  | .lookup hid => if d.cancelling = none then some { d with cancelling := d.md.h2wmap hid } else none
  | .call =>
    match d.cancelling with
    | none => none
    | some w =>
      match d.children w with
      | some c =>
        some { d.setChild w (some { c with wd := c.wd.cancelCurrentHandle }) with cancelling := none }
      | none => some { d with cancelling := none, fault := true }
  | .newHandle w h =>
    d.workerStep w .looping fun wd =>
      if wd.curHandle = none then
        some (d.setChild w (some ⟨{ wd with curHandle := some h, curHid := h.hid }, .registering⟩))
      else none
  | .register w =>
    d.workerStep w .registering fun wd =>
      some { d.setChild w (some ⟨wd, .looping⟩) with md := d.md.registerWDHandle wd.curHid w }
  | .leave w => d.workerStep w .looping fun wd => some (d.setChild w (some ⟨wd, .leaving⟩))
  | .unregister w =>
    d.workerStep w .leaving fun wd =>
      let out := wd.unregister d.md
      some { d.setChild w (some ⟨out.1, .dropping⟩) with md := out.2 }
  | .dropHandle w =>
    d.workerStep w .dropping fun wd => some (d.setChild w (some ⟨wd.dropHandle, .finished⟩))

/-- Every registration leads to a worker that has not been deleted, no CANCEL has called into one that
has, and every owner of a handle is the worker its id leads to. -/
structure Sound (d : Daemon) : Prop where
  alive : ∀ hid w, d.md.h2wmap hid = some w → ∃ c, d.children w = some c
  noFault : d.fault = false
  leads : ∀ w c hid, d.children w = some c → c.owns = some hid → d.md.h2wmap hid = some w

/-- A new handle has an id that is not zero and that no other worker still holds. -/
def FreshId (d : Daemon) : Action → Prop
  | .newHandle w h => h.hid ≠ 0 ∧ ∀ v c, v ≠ w → d.children v = some c → c.wd.curHid ≠ h.hid
  | _ => True

/-- The states reached by steps that meet the condition `P`. -/
def Reachable (P : Daemon → Action → Prop) (d : Daemon) : Prop :=
  Relation.ReflTransGen (fun d d' => ∃ a, P d a ∧ d.step a = some d') .new d

/-! ## The invariant -/

/-- What ties the handle and the id of the worker `w` to the registrations, at each phase. -/
def Standing (h2wmap : ℕ → Option ℕ) (w : ℕ) (c : Child) : Prop :=
  match c.phase with
  | .looping | .leaving =>
    (c.wd.curHandle = none ∧ c.wd.curHid = 0) ∨
      (c.wd.curHandle.map Handle.hid = some c.wd.curHid ∧ h2wmap c.wd.curHid = some w)
  | .registering => c.wd.curHandle.map Handle.hid = some c.wd.curHid ∧ c.wd.curHid ≠ 0
  | .dropping => c.wd.curHid = 0
  | .finished => c.wd.curHandle = none ∧ c.wd.curHid = 0

theorem Standing.congr {m m' : ℕ → Option ℕ} {w : ℕ} {c : Child} (h : Standing m w c)
    (hm : m c.wd.curHid = some w → m' c.wd.curHid = some w) : Standing m' w c := by
  unfold Standing at h ⊢
  cases hphase : c.phase with
  | looping | leaving =>
    rw [hphase] at h
    exact h.imp_right fun ⟨hsome, hw⟩ => ⟨hsome, hm hw⟩
  | registering | dropping | finished =>
    rw [hphase] at h
    exact h

structure Inv (d : Daemon) : Prop where
  unused : ∀ w, d.next ≤ w → d.children w = none
  registered : ∀ hid w, d.md.h2wmap hid = some w → hid ≠ 0 ∧ ∃ c, d.children w = some c ∧
    c.wd.curHid = hid ∧ (c.phase = .looping ∨ c.phase = .leaving)
  cancelling : ∀ w, d.cancelling = some w → ∃ c, d.children w = some c
  noFault : d.fault = false
  standing : ∀ w c, d.children w = some c → Standing d.md.h2wmap w c
  distinct : ∀ v w c c', v ≠ w → d.children v = some c → d.children w = some c' →
    c.wd.curHid = c'.wd.curHid → c.wd.curHid = 0

variable {d d' : Daemon} {w : ℕ} {c c' : Child}

theorem Inv.alive (h : Inv d) (hid w : ℕ) (hw : d.md.h2wmap hid = some w) :
    ∃ c, d.children w = some c := by
  obtain ⟨-, c, hc, -⟩ := h.registered hid w hw
  exact ⟨c, hc⟩

/-- The owner of a handle that is not in transit is the worker its id leads to. -/
theorem Inv.leads (h : Inv d) {hid : ℕ} (hc : d.children w = some c) (htransit : ¬ c.InTransit)
    (howns : c.owns = some hid) : d.md.h2wmap hid = some w := by
  have hstanding := h.standing w c hc
  have hsome : c.wd.curHandle.isSome = true := by
    obtain ⟨hd, hhd, -⟩ := Option.map_eq_some_iff.mp howns
    rw [hhd]
    rfl
  unfold Standing at hstanding
  cases hphase : c.phase with
  | looping | leaving =>
    rw [hphase] at hstanding
    rcases hstanding with ⟨hnone, -⟩ | ⟨hcur, hmap⟩
    · simp [hnone] at hsome
    · exact Option.some.inj (hcur.symm.trans howns) ▸ hmap
  | registering => exact absurd ⟨.inl hphase, hsome⟩ htransit
  | dropping => exact absurd ⟨.inr hphase, hsome⟩ htransit
  | finished =>
    rw [hphase] at hstanding
    simp [hstanding.1] at hsome

/-- No id leads to a worker whose handle is in transit. -/
theorem Inv.not_leads (h : Inv d) {hid : ℕ} (hc : d.children w = some c) (htransit : c.InTransit) :
    d.md.h2wmap hid ≠ some w := by
  intro hw
  obtain ⟨-, c₁, hc₁, -, hphase⟩ := h.registered hid w hw
  obtain rfl := Option.some.inj (hc₁.symm.trans hc)
  obtain ⟨hin, -⟩ := htransit
  rcases hphase with hphase | hphase <;> simp [hphase] at hin

/-- The states that are sound are those without a handle in transit. -/
theorem Inv.sound_iff (h : Inv d) : Sound d ↔ ∀ w c, d.children w = some c → ¬ c.InTransit := by
  constructor
  · intro hsound w c hc htransit
    obtain ⟨hd, hhd⟩ := Option.isSome_iff_exists.mp htransit.2
    have howns : c.owns = some hd.hid := by rw [Child.owns, hhd, Option.map_some]
    exact h.not_leads hc htransit (hsound.leads w c hd.hid hc howns)
  · intro hsettled
    exact ⟨h.alive, h.noFault, fun w c hid hc howns => h.leads hc (hsettled w c hc) howns⟩

theorem inv_new : Inv new where
  unused := fun _ _ => rfl
  registered := fun _ _ h => by cases h
  cancelling := fun _ h => by cases h
  noFault := rfl
  standing := fun _ _ h => by cases h
  distinct := fun _ _ _ _ _ h => by cases h

theorem workerStep_eq_some {phase : Phase} {f : WorkerDispatch → Option Daemon}
    (h : d.workerStep w phase f = some d') :
    ∃ wd, d.children w = some ⟨wd, phase⟩ ∧ f wd = some d' := by
  unfold workerStep at h
  split at h
  · next c hc =>
    split_ifs at h with hphase
    exact ⟨c.wd, hphase ▸ hc, h⟩
  · cases h

@[simp] theorem setChild_self (d : Daemon) (w : ℕ) (c : Option Child) :
    (d.setChild w c).children w = c := if_pos rfl

theorem setChild_ne (d : Daemon) (c : Option Child) {v w : ℕ} (h : v ≠ w) :
    (d.setChild w c).children v = d.children v := if_neg h

@[simp] theorem setChild_md (d : Daemon) (w : ℕ) (c : Option Child) : (d.setChild w c).md = d.md := rfl

/-- A worker changes or is added, and with it registrations that are its own: what has to be shown. -/
theorem Inv.change (h : Inv d) (md : MainDispatch) (next : ℕ) (cancelling : Option ℕ)
    (hnext : ∀ v, next ≤ v → v ≠ w ∧ d.next ≤ v)
    (hcancelling : ∀ v, cancelling = some v → ∃ c, d.children v = some c)
    (hown : ∀ hid, md.h2wmap hid = some w → hid ≠ 0 ∧ c'.wd.curHid = hid ∧
      (c'.phase = .looping ∨ c'.phase = .leaving))
    (hothers : ∀ v hid, v ≠ w → (md.h2wmap hid = some v ↔ d.md.h2wmap hid = some v))
    (hstanding : Standing md.h2wmap w c')
    (hdistinct : ∀ v c₁, v ≠ w → d.children v = some c₁ → c₁.wd.curHid = c'.wd.curHid →
      c'.wd.curHid = 0) :
    Inv { d.setChild w (some c') with md := md, next := next, cancelling := cancelling } where
  unused := fun v hv => (setChild_ne d _ (hnext v hv).1).trans (h.unused v (hnext v hv).2)
  registered := fun hid v hv => by
    by_cases hvw : v = w
    · subst hvw
      obtain ⟨hne, hcur, hphase⟩ := hown hid hv
      exact ⟨hne, c', setChild_self d v _, hcur, hphase⟩
    -- the registrations of the other workers are as they were
    · obtain ⟨hne, c₁, hc₁, hrest⟩ := h.registered hid v ((hothers v hid hvw).mp hv)
      exact ⟨hne, c₁, (setChild_ne d _ hvw).trans hc₁, hrest⟩
  cancelling := fun v hv => by
    by_cases hvw : v = w
    · subst hvw
      exact ⟨c', setChild_self d v _⟩
    · obtain ⟨c₁, hc₁⟩ := hcancelling v hv
      exact ⟨c₁, (setChild_ne d _ hvw).trans hc₁⟩
  noFault := h.noFault
  standing := fun v c₁ hc₁ => by
    by_cases hvw : v = w
    · subst hvw
      obtain rfl := Option.some.inj ((setChild_self d v _).symm.trans hc₁)
      exact hstanding
    · exact (h.standing v c₁ ((setChild_ne d _ hvw).symm.trans hc₁)).congr (hothers v _ hvw).mpr
  distinct := fun u v c₁ c₂ hne hc₁ hc₂ heq => by
    by_cases huw : u = w
    · subst huw
      obtain rfl := Option.some.inj ((setChild_self d u _).symm.trans hc₁)
      exact hdistinct v c₂ hne.symm ((setChild_ne d _ hne.symm).symm.trans hc₂) heq.symm
    · have hold₁ := (setChild_ne d _ huw).symm.trans hc₁
      by_cases hvw : v = w
      · subst hvw
        obtain rfl := Option.some.inj ((setChild_self d v _).symm.trans hc₂)
        exact heq.trans (hdistinct u c₁ huw hold₁ heq)
      -- neither of the two has changed
      · exact h.distinct u v c₁ c₂ hne hold₁ ((setChild_ne d _ hvw).symm.trans hc₂) heq

theorem Inv.used (h : Inv d) (hc : d.children w = some c) (v : ℕ) (hv : d.next ≤ v) :
    v ≠ w ∧ d.next ≤ v := by
  refine ⟨fun hvw => ?_, hv⟩
  rw [← hvw, h.unused v hv] at hc
  cases hc

/-- A registration of the worker `w`. -/
theorem Inv.registered_self (h : Inv d) {hid : ℕ} (hw : d.md.h2wmap hid = some w)
    (hc : d.children w = some c) :
    hid ≠ 0 ∧ c.wd.curHid = hid ∧ (c.phase = .looping ∨ c.phase = .leaving) := by
  obtain ⟨hne, c₁, hc₁, hrest⟩ := h.registered hid w hw
  obtain rfl := Option.some.inj (hc₁.symm.trans hc)
  exact ⟨hne, hrest⟩

/-- Only the worker itself is registered under its id. -/
theorem Inv.not_registered (h : Inv d) {v : ℕ} (hc : d.children w = some c) (hne : v ≠ w) :
    d.md.h2wmap c.wd.curHid ≠ some v := by
  intro hv
  obtain ⟨hzero, c₁, hc₁, hcur, -⟩ := h.registered _ v hv
  exact hzero (hcur.symm.trans (h.distinct v w c₁ c hne hc₁ hc hcur))

/-- A change that leaves the registrations and the id of the worker alone. -/
theorem Inv.change_self (h : Inv d) (cancelling : Option ℕ) (hc : d.children w = some c)
    (hcancelling : ∀ v, cancelling = some v → ∃ c, d.children v = some c)
    (hhid : c'.wd.curHid = c.wd.curHid)
    (hphase : c.phase = .looping ∨ c.phase = .leaving → c'.phase = .looping ∨ c'.phase = .leaving)
    (hstanding : Standing d.md.h2wmap w c → Standing d.md.h2wmap w c') :
    Inv { d.setChild w (some c') with cancelling := cancelling } := by
  refine h.change d.md d.next cancelling (h.used hc) hcancelling (fun hid hw => ?_)
    (fun _ _ _ => .rfl) (hstanding (h.standing w c hc)) fun v c₁ hne hc₁ heq => ?_
  · obtain ⟨hne, hcur, hold⟩ := h.registered_self hw hc
    exact ⟨hne, hhid.trans hcur, hphase hold⟩
  · exact heq.symm.trans (h.distinct v w c₁ c hne hc₁ hc (heq.trans hhid))

/-! ## One lemma for each step -/

theorem Inv.accept (h : Inv d) {script : List RecvResult}
    (hs : d.step (.accept script) = some d') : Inv d' := by
  simp only [step] at hs
  split_ifs at hs
  obtain rfl := Option.some.inj hs
  refine h.change d.md (d.next + 1) d.cancelling (fun v hv => ⟨by omega, by omega⟩) h.cancelling
    (fun hid hw => ?_) (fun _ _ _ => .rfl) (.inl ⟨rfl, rfl⟩) fun _ _ _ _ _ => rfl
  -- nobody is registered under the number of a connection to come
  obtain ⟨-, c, hc, -⟩ := h.registered hid _ hw
  rw [h.unused d.next le_rfl] at hc
  cases hc

/-- A worker that is collected is not registered any more. -/
theorem Inv.collect (h : Inv d) (hs : d.step (.collect w) = some d') : Inv d' := by
  simp only [step] at hs
  split_ifs at hs with hidle
  obtain ⟨wd, hc, hd'⟩ := workerStep_eq_some hs
  obtain rfl := Option.some.inj hd'
  have hold : ∀ {v c₁}, (d.setChild w none).children v = some c₁ →
      v ≠ w ∧ d.children v = some c₁ := by
    intro v c₁ hc₁
    have hvw : v ≠ w := by
      rintro rfl
      rw [setChild_self] at hc₁
      cases hc₁
    exact ⟨hvw, (setChild_ne d _ hvw).symm.trans hc₁⟩
  refine ⟨fun v hv => ?_, fun hid v hv => ?_, fun v hv => ?_, h.noFault,
    fun v c₁ hc₁ => h.standing v c₁ (hold hc₁).2,
    fun u v c₁ c₂ hne hc₁ hc₂ => h.distinct u v c₁ c₂ hne (hold hc₁).2 (hold hc₂).2⟩
  · exact (setChild_ne d _ (h.used hc v hv).1).trans (h.unused v hv)
  · have hvw : v ≠ w := by
      rintro rfl
      simpa using (h.registered_self hv hc).2.2
    obtain ⟨hne, c₁, hc₁, hrest⟩ := h.registered hid v hv
    exact ⟨hne, c₁, (setChild_ne d _ hvw).trans hc₁, hrest⟩
  · exact absurd (hidle.symm.trans hv) (by simp)

theorem Inv.lookup (h : Inv d) {hid : ℕ} (hs : d.step (.lookup hid) = some d') : Inv d' := by
  simp only [step] at hs
  split_ifs at hs
  obtain rfl := Option.some.inj hs
  refine ⟨h.unused, h.registered, fun w hw => ?_, h.noFault, h.standing, h.distinct⟩
  obtain ⟨-, c, hc, -⟩ := h.registered hid w hw
  exact ⟨c, hc⟩

/-- The worker a CANCEL has looked up is still there when it is called. -/
theorem Inv.call (h : Inv d) (hs : d.step .call = some d') : Inv d' := by
  simp only [step] at hs
  split at hs
  · cases hs
  · next w hw =>
    obtain ⟨c, hc⟩ := h.cancelling w hw
    rw [hc] at hs
    obtain rfl := Option.some.inj hs
    refine h.change_self none hc (fun _ hv => by cases hv) rfl id fun hstanding => ?_
    have hhid : c.wd.cancelCurrentHandle.curHandle.map Handle.hid =
        c.wd.curHandle.map Handle.hid := by
      simp [WorkerDispatch.cancelCurrentHandle, Function.comp_def]
    unfold Standing at hstanding ⊢
    dsimp only
    rw [hhid]
    simpa [WorkerDispatch.cancelCurrentHandle] using hstanding

theorem Inv.newHandle (h : Inv d) {hd : Handle} (hfresh : d.FreshId (.newHandle w hd))
    (hs : d.step (.newHandle w hd) = some d') : Inv d' := by
  simp only [step] at hs
  obtain ⟨wd, hc, hd'⟩ := workerStep_eq_some hs
  split_ifs at hd' with hnone
  obtain rfl := Option.some.inj hd'
  refine h.change d.md d.next d.cancelling (h.used hc) h.cancelling (fun hid hw => ?_)
    (fun _ _ _ => .rfl) ⟨rfl, hfresh.1⟩ fun v c₁ hne hc₁ heq => absurd heq (hfresh.2 v c₁ hne hc₁)
  -- without a handle the worker has the id zero, under which nobody is registered
  obtain ⟨hne, hcur, -⟩ := h.registered_self hw hc
  rcases h.standing w _ hc with ⟨-, hzero⟩ | ⟨hsome, -⟩
  · exact absurd (hcur.symm.trans hzero) hne
  · simp [hnone] at hsome

theorem Inv.register (h : Inv d) (hs : d.step (.register w) = some d') : Inv d' := by
  simp only [step] at hs
  obtain ⟨wd, hc, hd'⟩ := workerStep_eq_some hs
  obtain rfl := Option.some.inj hd'
  obtain ⟨hsome, hne⟩ := h.standing w _ hc
  dsimp only at hsome hne
  refine h.change (d.md.registerWDHandle wd.curHid w) d.next d.cancelling (h.used hc) h.cancelling
    (fun hid hw => ?_) (fun v hid hvw => ?_) (.inr ⟨hsome, if_pos rfl⟩) fun v c₁ hvw hc₁ heq =>
      heq.symm.trans (h.distinct v w c₁ _ hvw hc₁ hc heq)
  · by_cases hhid : hid = wd.curHid
    · exact ⟨hhid ▸ hne, hhid.symm, .inl rfl⟩
    · have hold : d.md.h2wmap hid = some w := by
        simpa [MainDispatch.registerWDHandle, hhid] using hw
      simpa using (h.registered_self hold hc).2.2
  · by_cases hhid : hid = wd.curHid
    · have hold : d.md.h2wmap hid ≠ some v := hhid ▸ h.not_registered hc hvw
      simp [MainDispatch.registerWDHandle, hhid, hvw.symm, hhid ▸ hold]
    · simp [MainDispatch.registerWDHandle, hhid]

theorem Inv.leave (h : Inv d) (hs : d.step (.leave w) = some d') : Inv d' := by
  simp only [step] at hs
  obtain ⟨wd, hc, hd'⟩ := workerStep_eq_some hs
  obtain rfl := Option.some.inj hd'
  exact h.change_self d.cancelling hc h.cancelling rfl (fun _ => .inr rfl) id

/-- Behind its unregistration a worker is registered under no id. -/
theorem Inv.unregister (h : Inv d) (hs : d.step (.unregister w) = some d') : Inv d' := by
  simp only [step] at hs
  obtain ⟨wd, hc, hd'⟩ := workerStep_eq_some hs
  obtain rfl := Option.some.inj hd'
  by_cases hzero : wd.curHid = 0
  · simp only [WorkerDispatch.unregister, hzero, ne_eq, not_true_eq_false, if_false]
    refine h.change d.md d.next d.cancelling (h.used hc) h.cancelling (fun hid hw => ?_)
      (fun _ _ _ => .rfl) hzero fun _ _ _ _ _ => hzero
    obtain ⟨hne, hcur, -⟩ := h.registered_self hw hc
    exact absurd (hcur.symm.trans hzero) hne
  · simp only [WorkerDispatch.unregister, ne_eq, hzero, not_false_eq_true, if_true]
    refine h.change (d.md.unregisterWDHandle wd.curHid) d.next d.cancelling (h.used hc) h.cancelling
      (fun hid hw => ?_) (fun v hid hvw => ?_) rfl fun _ _ _ _ _ => rfl
    · by_cases hhid : hid = wd.curHid
      · simp [MainDispatch.unregisterWDHandle, hhid] at hw
      · have hold : d.md.h2wmap hid = some w := by
          simpa [MainDispatch.unregisterWDHandle, hhid] using hw
        exact absurd (h.registered_self hold hc).2.1.symm hhid
    · by_cases hhid : hid = wd.curHid
      · have hold := h.not_registered hc hvw
        simpa [MainDispatch.unregisterWDHandle, hhid] using hold
      · simp [MainDispatch.unregisterWDHandle, hhid]

theorem Inv.dropHandle (h : Inv d) (hs : d.step (.dropHandle w) = some d') : Inv d' := by
  simp only [step] at hs
  obtain ⟨wd, hc, hd'⟩ := workerStep_eq_some hs
  obtain rfl := Option.some.inj hd'
  exact h.change_self d.cancelling hc h.cancelling rfl (fun hp => by simp at hp) fun hzero => ⟨rfl, hzero⟩

/-- Every step preserves the invariant, as long as new handles have fresh ids. -/
theorem Inv.step (h : Inv d) {a : Action} (hfresh : d.FreshId a) (hs : d.step a = some d') :
    Inv d' := by
  cases a with
  | accept script => exact h.accept hs
  | collect w => exact h.collect hs
  | lookup hid => exact h.lookup hs
  | call => exact h.call hs
  | newHandle w hd => exact h.newHandle hfresh hs
  | register w => exact h.register hs
  | leave w => exact h.leave hs
  | unregister w => exact h.unregister hs
  | dropHandle w => exact h.dropHandle hs

theorem Reachable.inv (h : Reachable FreshId d) : Inv d := by
  induction h with
  | refl => exact inv_new
  | tail _ hstep ih =>
    obtain ⟨a, hfresh, hs⟩ := hstep
    exact ih.step hfresh hs

/-- **Registrations.** In every state reached while all new handles have fresh ids, every registration
leads to a worker that has not been deleted and no CANCEL calls into one that has; and every worker that owns
a handle is the one its id leads to, just if none stands between the creation and the registration of its
handle or between its unregistration and its deletion. -/
theorem Reachable.registrations_sound (h : Reachable FreshId d) :
    ((∀ hid w, d.md.h2wmap hid = some w → ∃ c, d.children w = some c) ∧ d.fault = false) ∧
    (Sound d ↔ ∀ w c, d.children w = some c → ¬ c.InTransit) :=
  ⟨⟨h.inv.alive, h.inv.noFault⟩, h.inv.sound_iff⟩

/-! ## The source of the steps -/

theorem step_newHandle {wd : WorkerDispatch} (hc : d.children w = some ⟨wd, .looping⟩)
    (hnone : wd.curHandle = none) (h : Handle) : d.step (.newHandle w h) =
      some (d.setChild w (some ⟨{ wd with curHandle := some h, curHid := h.hid }, .registering⟩)) := by
  simp [step, workerStep, hc, hnone]

theorem step_register {wd : WorkerDispatch} (hc : d.children w = some ⟨wd, .registering⟩) :
    d.step (.register w) = some { d.setChild w (some ⟨wd, .looping⟩) with
      md := d.md.registerWDHandle wd.curHid w } := by
  simp [step, workerStep, hc]

section Requests

variable [JsonAccess] [JsonWriter]

/-- A call of `initializeHandle` leaves the handle and the registrations alone, or it takes the steps
`newHandle` and `register` of its worker. -/
theorem initializeHandle_steps {env : WorkerEnv} {wd wd' : WorkerDispatch} {md' : MainDispatch}
    {req : Request} (hcall : wd.initializeHandle env d.md req = .ok (wd', md'))
    (hc : d.children wd.id = some ⟨wd, .looping⟩) :
    (wd'.curHandle = wd.curHandle ∧ wd'.curHid = wd.curHid ∧ md'.h2wmap = d.md.h2wmap) ∨
    ∃ h d₁ d₂ c, h.hid = req.handleId ∧ d.step (.newHandle wd.id h) = some d₁ ∧
      d₁.step (.register wd.id) = some d₂ ∧ d₂.children wd.id = some c ∧ c.phase = .looping ∧
      c.wd.curHandle = wd'.curHandle ∧ c.wd.curHid = wd'.curHid ∧ d₂.md.h2wmap = md'.h2wmap := by
  unfold WorkerDispatch.initializeHandle at hcall
  split at hcall
  · cases hcall
  · next hOpts hopts =>
    dsimp only at hcall
    have hreply : ∀ (wd : WorkerDispatch) (err : Error),
        (wd.replyHandle req err).curHandle = wd.curHandle ∧
        (wd.replyHandle req err).curHid = wd.curHid := by
      intro wd err
      unfold WorkerDispatch.replyHandle
      split_ifs <;> exact ⟨rfl, rfl⟩
    split_ifs at hcall with hOk hsome hec <;> cases hcall
    · exact .inl ⟨(hreply _ _).1, (hreply _ _).2, rfl⟩
    · exact .inl ⟨(hreply _ _).1, (hreply _ _).2, rfl⟩
    · exact .inl ⟨(hreply _ _).1, (hreply _ _).2, d.md.ensureCluster_h2wmap _ _⟩
    · have hnone : wd.curHandle = none := by simpa using hsome
      refine .inr ⟨⟨hOpts, req.handleId, env.doCancel, []⟩, _, _, _, rfl,
        step_newHandle hc hnone _, step_register (setChild_self _ _ _), setChild_self _ _ _, rfl, rfl,
        rfl, ?_⟩
      funext hid
      simp only [MainDispatch.registerWDHandle, setChild_md, MainDispatch.ensureCluster_h2wmap]

end Requests

section Examples

/-- A handle with a given id. -/
def exampleHandleOf (hid : ℕ) : Handle := { exampleHandle with hid := hid }

/-- The states a list of steps leads to. -/
def runActions (d : Daemon) : List Action → Option Daemon
  | [] => some d
  | a :: as => (d.step a).bind fun d => runActions d as

theorem reachable_of_runActions {as : List Action} (h : Reachable (fun _ _ => True) d)
    (hs : d.runActions as = some d') : Reachable (fun _ _ => True) d' := by
  induction as generalizing d with
  | nil =>
    obtain rfl := Option.some.inj hs
    exact h
  | cons a as ih =>
    obtain ⟨d₁, hd₁, hrest⟩ := Option.bind_eq_some_iff.mp hs
    exact ih (h.tail ⟨a, trivial, hd₁⟩) hrest

/-- Only the connections accepted so far have to be looked at. -/
theorem Reachable.freshId (h : Reachable FreshId d) {hd : Handle} (hne : hd.hid ≠ 0)
    (hothers : ∀ v < d.next, v ≠ w → (d.children v).all (·.wd.curHid ≠ hd.hid) = true) :
    FreshId d (.newHandle w hd) := by
  refine ⟨hne, fun v c hvw hc => ?_⟩
  have hlt : v < d.next := by
    by_contra hge
    rw [h.inv.unused v (Nat.le_of_not_lt hge)] at hc
    cases hc
  have hall := hothers v hlt hvw
  rw [hc] at hall
  simpa using hall

/-- The first of two workers gives up its handle, and a CANCEL calls into the other. While the handle is in
transit the state is not sound. -/
theorem Reachable.registrations_sound_created :
    (∃ d, Reachable FreshId d ∧ d.md.h2wmap 4 = none ∧ (d.children 0).bind Child.owns = some 4 ∧ ¬ Sound d) ∧
    ∃ d, Reachable FreshId d ∧ d.md.h2wmap 5 = some 1 ∧ (d.children 1).bind Child.owns = some 5 ∧ Sound d := by
  have haccepted : Reachable FreshId _ :=
    (Relation.ReflTransGen.refl.tail ⟨.accept [], trivial, rfl⟩).tail ⟨.accept [], trivial, rfl⟩
  have hfirst : Reachable FreshId _ :=
    (haccepted.tail ⟨.newHandle 0 (exampleHandleOf 4), Reachable.freshId haccepted (by decide) (by decide), rfl⟩).tail
      ⟨.register 0, trivial, rfl⟩
  have hsecond : Reachable FreshId _ :=
    (hfirst.tail ⟨.newHandle 1 (exampleHandleOf 5), Reachable.freshId hfirst (by decide) (by decide), rfl⟩).tail
      ⟨.register 1, trivial, rfl⟩
  have htransit : Reachable FreshId _ :=
    (hsecond.tail ⟨.leave 0, trivial, rfl⟩).tail ⟨.unregister 0, trivial, rfl⟩
  have hgone : Reachable FreshId _ :=
    (((htransit.tail ⟨.dropHandle 0, trivial, rfl⟩).tail ⟨.collect 0, trivial, rfl⟩).tail
      ⟨.lookup 5, trivial, rfl⟩).tail ⟨.call, trivial, rfl⟩
  refine ⟨⟨_, htransit, rfl, rfl, fun hsound => ?_⟩, _, hgone, rfl, rfl, ?_⟩
  · exact (Reachable.registrations_sound htransit).2.mp hsound 0 _ rfl ⟨.inr rfl, rfl⟩
  · refine (Reachable.registrations_sound hgone).2.mpr fun w c hc htransit => ?_
    match w, hc with
    | 1, hc =>
      obtain rfl := Option.some.inj hc
      rcases htransit.1 with hphase | hphase <;> cases hphase

/-- A worker creates a handle with the id zero and goes, and a CANCEL follows. -/
def exampleZero : List Action :=
  [.accept [], .newHandle 0 (exampleHandleOf 0), .register 0, .leave 0, .unregister 0, .dropHandle 0,
    .collect 0, .lookup 0, .call]

/-- Two workers create a handle with the id 4. -/
def exampleTwice : List Action :=
  [.accept [], .accept [], .newHandle 0 (exampleHandleOf 4), .register 0,
    .newHandle 1 (exampleHandleOf 4), .register 1]

/-- The registration of a handle with the id zero outlives its worker, and a CANCEL calls into it. Of two
workers that create handles with the same id one is registered. -/
theorem not_sound :
    (∃ d, Reachable (fun _ _ => True) d ∧ d.fault = true ∧ ¬ Sound d) ∧
    (∃ d c, Reachable (fun _ _ => True) d ∧ d.children 0 = some c ∧ c.owns = some 4 ∧
      d.md.h2wmap 4 = some 1 ∧ ¬ Sound d) := by
  have hzero : new.runActions exampleZero = some _ := rfl
  have htwice : new.runActions exampleTwice = some _ := rfl
  refine ⟨⟨_, reachable_of_runActions .refl hzero, rfl, fun h => ?_⟩,
    ⟨_, _, reachable_of_runActions .refl htwice, rfl, rfl, rfl, fun h => ?_⟩⟩
  · cases h.noFault
  · exact absurd (h.leads 0 _ 4 rfl rfl) (by decide)

end Examples

end Daemon

end Sdkd
