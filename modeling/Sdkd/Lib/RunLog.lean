import Sdkd.Lib.LoopProg

/-!
# Logs of runs

What a run of a loop program has shown so far, where a step may show something of the state it leads to. The log
is no part of the state; an outline with a log says what holds of both.

## Main definitions

- `Prog.shown` — the log of a run
- `Prog.LogOutline` — an assertion about the log and the state for every control position

## Main results

- `Prog.LogOutline.sound` — the assertions hold wherever a run stands
-/

namespace LoopProg

variable {σ ε α : Type*} {p : Prog σ ε} {intf : σ → σ}

/-- What the first `n` steps of a run show. A step made at `pos` shows `obs pos s`, where `s` is the state it
leads to. -/
def Prog.shown (p : Prog σ ε) (intf : σ → σ) (obs : Pos ε → σ → List α) (sched : ℕ → Bool)
    (c : Config σ ε) : ℕ → List α
  | 0 => []
  | n + 1 => Prog.shown p intf obs sched c n ++
      obs (p.run intf sched c n).pos (p.run intf sched c (n + 1)).st

/-- A proof outline whose assertions speak about the log too. Only actions show something. -/
structure Prog.LogOutline (p : Prog σ ε) (intf : σ → σ) (obs : Pos ε → σ → List α)
    (A : List α → Pos ε → ℕ → σ → Prop) : Prop where
  silent : ∀ pos s, p.actionAt pos = none → obs pos s = []
  action : ∀ l here there a r s, p.actionAt here = some (a, there) → A l here r s →
    (a s).Establishes (fun pos s' => A (l ++ obs here s') pos r s') here there s
  pre_end : ∀ l k r s, p.pre.length ≤ k → A l (.pre k) r s → A l .test r s
  enter : ∀ l r s, p.test s = true → A l .test r s → A l (.body 0) (r + 1) s
  leave : ∀ l r s, p.test s = false → A l .test r s → A l (.post 0) r s
  body_end : ∀ l k r s, p.body.length ≤ k → A l (.body k) r s → A l .test r s
  post_end : ∀ l k r s, p.post.length ≤ k → A l (.post k) r s → A l .done r s
  stable : ∀ l pos r s, A l pos r s → A l pos r (intf s)

theorem Prog.actionAt_of_step_none {c : Config σ ε} (h : p.step c = none) : p.actionAt c.pos = none := by
  unfold Prog.step at h
  cases ha : p.actionAt c.pos with
  | none => rfl
  | some a =>
    rw [ha] at h
    cases h

/-- What an action that shows nothing has to establish. -/
theorem Ctl.Establishes.of_silent {A : List α → Pos ε → σ → Prop} {obs : Pos ε → σ → List α} {l : List α}
    {here there : Pos ε} {s : σ} {c : Ctl σ ε} (hobs : ∀ s', obs here s' = [])
    (h : c.Establishes (A l) here there s) :
    c.Establishes (fun pos s' => A (l ++ obs here s') pos s') here there s := by
  simpa only [hobs, List.append_nil] using h

namespace Prog.LogOutline

variable {obs : Pos ε → σ → List α} {A : List α → Pos ε → ℕ → σ → Prop}

theorem step (hA : p.LogOutline intf obs A) {l : List α} {c c' : Config σ ε} (h : p.step c = some c')
    (hc : A l c.pos c.rounds c.st) : A (l ++ obs c.pos c'.st) c'.pos c'.rounds c'.st := by
  -- a step that is no action shows nothing
  have hsilent : p.actionAt c.pos = none → ∀ {there : Pos ε} {r : ℕ}, A l there r c.st →
      A (l ++ obs c.pos c.st) there r c.st := by
    intro hnone there r hthere
    rwa [hA.silent _ _ hnone, List.append_nil]
  cases Prog.steps_of_step h with
  | perform ha =>
    exact Config.perform_satisfies (A := fun pos r s' => A (l ++ obs c.pos s') pos r s')
      (hA.action _ _ _ _ _ _ ha hc)
  | pre_end hpos hk =>
    exact hsilent (by simp [hpos, Prog.actionAt, hk]) (hA.pre_end _ _ _ _ hk (hpos ▸ hc))
  | enter hpos ht => exact hsilent (by simp [hpos, Prog.actionAt]) (hA.enter _ _ _ ht (hpos ▸ hc))
  | leave hpos ht => exact hsilent (by simp [hpos, Prog.actionAt]) (hA.leave _ _ _ ht (hpos ▸ hc))
  | body_end hpos hk =>
    exact hsilent (by simp [hpos, Prog.actionAt, hk]) (hA.body_end _ _ _ _ hk (hpos ▸ hc))
  | post_end hpos hk =>
    exact hsilent (by simp [hpos, Prog.actionAt, hk]) (hA.post_end _ _ _ _ hk (hpos ▸ hc))

/-- **Soundness of outlines with a log.** -/
theorem sound (hA : p.LogOutline intf obs A) (sched : ℕ → Bool) {c : Config σ ε}
    (hc : A [] c.pos c.rounds c.st) (n : ℕ) :
    A (p.shown intf obs sched c n) (p.run intf sched c n).pos (p.run intf sched c n).rounds
      (p.run intf sched c n).st := by
  induction n with
  | zero => exact hc
  | succ n ih =>
    -- the interference comes before the step and shows nothing
    obtain ⟨d, hpos, hd, hrun⟩ : ∃ d : Config σ ε, d.pos = (p.run intf sched c n).pos ∧
        A (p.shown intf obs sched c n) d.pos d.rounds d.st ∧
        p.run intf sched c (n + 1) = (p.step d).getD d := by
      cases hs : sched n with
      | false => exact ⟨_, rfl, ih, by simp [run, advance, hs]⟩
      | true => exact ⟨(p.run intf sched c n).interfere intf, rfl, hA.stable _ _ _ _ ih,
          by simp [run, advance, hs]⟩
    unfold shown
    rw [← hpos, hrun]
    cases hstep : p.step d with
    | some d' => exact hA.step hstep hd
    | none =>
      rw [Option.getD_none, hA.silent _ _ (actionAt_of_step_none hstep), List.append_nil]
      exact hd

end Prog.LogOutline

end LoopProg
