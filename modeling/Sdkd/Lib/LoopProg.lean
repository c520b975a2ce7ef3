import Mathlib.Logic.Relation
import Mathlib.Order.WellFounded

/-!
# Loop programs that run beside an interfering thread

A `LoopProg.Prog` is a straight-line prologue, one guarded loop and a straight-line epilogue, each
given as a list of atomic actions. Between any two actions another thread may change the state by a
fixed function, the interference. An action can repeat itself (`Ctl.again`), which is how an inner
loop is written, leave the loop, leave the program, or kill the process.

## Main definitions

- `Prog.step` — one step of the program's own thread
- `Prog.Reaches` — the configurations some interleaving leads to
- `Prog.run` — the deterministic run along a schedule of interferences
- `Prog.Outline` — a proof outline: an assertion for every control position

## Main results

- `Prog.steps_of_step` — what a step does
- `Prog.Reaches.maintained` — what every action and the interference keep holds along every interleaving
- `Prog.Reaches.not_dead`, `Prog.Reaches.not_dead_of_safe` — what no action of a program dies of, or no action
  where an invariant holds, the program does not die of
- `Prog.Outline.sound` — the assertions of an outline hold wherever an interleaving stops
- `Prog.Reaches.at_inner` — what one action establishes holds at the position behind it
- `Prog.StopFlag.rounds_eq` — once a stop flag is up behind the action that lowers it, the loop starts
  no further round
- `Prog.halts_of_bounded` — with a bounded number of rounds every schedule halts
- `Prog.StopFlag.halts_of_recurrent` — interferences that raise the flag again and again end the program
- `Prog.Outline.halts`, `Prog.StopFlag.halts` — an outline and a stop flag bound that number
- `Prog.Reaches.count_le` — what one action of the body raises grows once in a round
-/

namespace LoopProg

variable {σ ε : Type*}

/-- What one atomic action makes of the state it runs in. -/
inductive Ctl (σ ε : Type*) where
  /-- Go on with the next action. -/
  | next (s : σ)
  /-- Run the same action once more. -/
  | again (s : σ)
  /-- Leave the loop. -/
  | brk (s : σ)
  /-- Leave the program. -/
  | ret (s : σ)
  /-- The process dies. -/
  | fail (e : ε)

abbrev Action (σ ε : Type*) := σ → Ctl σ ε

/-- Prologue, loop test, loop body and epilogue. -/
structure Prog (σ ε : Type*) where
  pre : List (Action σ ε)
  test : σ → Bool
  body : List (Action σ ε)
  post : List (Action σ ε)

/-- A control position: the index of the action to run next in its part. -/
inductive Pos (ε : Type*) where
  | pre (k : ℕ)
  | test
  | body (k : ℕ)
  | post (k : ℕ)
  | done
  | dead (e : ε)
  deriving DecidableEq

/-- A control position, a state, and the number of rounds the loop has started. -/
structure Config (σ ε : Type*) where
  pos : Pos ε
  st : σ
  rounds : ℕ

def Config.start (s : σ) : Config σ ε := ⟨.pre 0, s, 0⟩

/-- Run the action `a`; `there` is the position after it. -/
def Config.perform (c : Config σ ε) (a : Action σ ε) (there : Pos ε) : Config σ ε :=
  match a c.st with
  | .next s => { c with pos := there, st := s }
  | .again s => { c with st := s }
  | .brk s => { c with pos := .post 0, st := s }
  | .ret s => { c with pos := .done, st := s }
  | .fail e => { c with pos := .dead e }

/-- The other thread's change of the state. -/
def Config.interfere (intf : σ → σ) (c : Config σ ε) : Config σ ε := { c with st := intf c.st }

/-- The action at a position of the program and the position behind it. -/
def Prog.actionAt (p : Prog σ ε) : Pos ε → Option (Action σ ε × Pos ε)
  | .pre k => (p.pre[k]?).map (·, .pre (k + 1))
  | .body k => (p.body[k]?).map (·, .body (k + 1))
  | .post k => (p.post[k]?).map (·, .post (k + 1))
  | _ => none

/-- One step of the program's own thread; `none` when it has halted. -/
def Prog.step (p : Prog σ ε) (c : Config σ ε) : Option (Config σ ε) :=
  match p.actionAt c.pos with
  | some (a, there) => some (c.perform a there)
  | none =>
    match c.pos with
    | .pre _ => some { c with pos := .test }
    | .body _ => some { c with pos := .test }
    | .test =>
      if p.test c.st then some { c with pos := .body 0, rounds := c.rounds + 1 }
      else some { c with pos := .post 0 }
    | .post _ => some { c with pos := .done }
    | .done => none
    | .dead _ => none

/-- One move of the two threads together. -/
def Prog.Moves (p : Prog σ ε) (intf : σ → σ) (c c' : Config σ ε) : Prop :=
  p.step c = some c' ∨ c' = c.interfere intf

/-- `c'` is reached from `c` by some interleaving of the two threads. -/
def Prog.Reaches (p : Prog σ ε) (intf : σ → σ) : Config σ ε → Config σ ε → Prop :=
  Relation.ReflTransGen (p.Moves intf)

/-- One own step, after an interference if the schedule asks for one. -/
def Prog.advance (p : Prog σ ε) (intf : σ → σ) (interrupted : Bool) (c : Config σ ε) :
    Config σ ε :=
  let c := if interrupted then c.interfere intf else c
  (p.step c).getD c

/-- The run of `n` own steps; `sched i` tells whether an interference comes before step `i`. -/
def Prog.run (p : Prog σ ε) (intf : σ → σ) (sched : ℕ → Bool) (c : Config σ ε) : ℕ → Config σ ε
  | 0 => c
  | n + 1 => p.advance intf (sched n) (p.run intf sched c n)

/-- The program has returned or its process is dead. -/
def Config.halted (c : Config σ ε) : Prop :=
  match c.pos with
  | .done => True
  | .dead _ => True
  | _ => False

variable {p : Prog σ ε} {intf : σ → σ}

theorem Prog.Reaches.own {c c' : Config σ ε} (h : p.step c = some c') : p.Reaches intf c c' :=
  .single (.inl h)

theorem Prog.Reaches.interfere (c : Config σ ε) : p.Reaches intf c (c.interfere intf) :=
  .single (.inr rfl)

theorem Prog.reaches_advance (b : Bool) (c : Config σ ε) :
    p.Reaches intf c (p.advance intf b c) := by
  have hown : ∀ d : Config σ ε, p.Reaches intf d ((p.step d).getD d) := by
    intro d
    cases h : p.step d with
    | none => exact .refl
    | some d' => exact .own h
  cases b with
  | false => exact hown c
  | true => exact (Reaches.interfere c).trans (hown _)

theorem Prog.reaches_run (sched : ℕ → Bool) (c : Config σ ε) (n : ℕ) :
    p.Reaches intf c (p.run intf sched c n) := by
  induction n with
  | zero => exact .refl
  | succ n ih => exact Relation.ReflTransGen.trans ih (reaches_advance _ _)

/-- The next configuration of a run is a step behind the last one, interrupted or not, or the program
has halted. -/
theorem Prog.run_succ_cases (sched : ℕ → Bool) (c : Config σ ε) (n : ℕ) :
    ∃ d, (d = p.run intf sched c n ∨ d = (p.run intf sched c n).interfere intf) ∧
      (p.step d = some (p.run intf sched c (n + 1)) ∨ p.run intf sched c (n + 1) = d) := by
  have hown : ∀ d : Config σ ε, p.step d = some ((p.step d).getD d) ∨ (p.step d).getD d = d := by
    intro d
    cases p.step d with
    | none => exact .inr rfl
    | some d' => exact .inl rfl
  cases hs : sched n with
  | false => exact ⟨_, .inl rfl, by simpa [run, advance, hs] using hown _⟩
  | true => exact ⟨_, .inr rfl, by simpa [run, advance, hs] using hown _⟩

/-- A step of the run that is not interrupted. -/
theorem Prog.run_succ_of_step {sched : ℕ → Bool} {c₀ c : Config σ ε} (c' : Config σ ε) {n : ℕ}
    (hrun : p.run intf sched c₀ n = c) (hs : sched n = false) (hstep : p.step c = some c') :
    p.run intf sched c₀ (n + 1) = c' := by
  simp [run, advance, hs, hrun, hstep]

/-- A run that is not interrupted goes through the steps of the program. -/
theorem Prog.exists_run_of_steps (intf : σ → σ) {c c' : Config σ ε}
    (h : Relation.ReflTransGen (fun d d' => p.step d = some d') c c') :
    ∃ n, p.run intf (fun _ => false) c n = c' := by
  induction h with
  | refl => exact ⟨0, rfl⟩
  | tail _ hstep ih =>
    obtain ⟨n, hn⟩ := ih
    exact ⟨n + 1, run_succ_of_step _ hn rfl hstep⟩

/-- A run goes on from where it has come to. -/
theorem Prog.run_add (sched : ℕ → Bool) (c : Config σ ε) (m n : ℕ) :
    p.run intf sched c (m + n) =
      p.run intf (fun i => sched (m + i)) (p.run intf sched c m) n := by
  induction n with
  | zero => rfl
  | succ n ih =>
    show p.advance intf (sched (m + n)) (p.run intf sched c (m + n)) = _
    rw [ih]
    rfl

/-- A run of `n` steps looks at the first `n` entries of its schedule. -/
theorem Prog.run_congr {sched sched' : ℕ → Bool} (c : Config σ ε) {n : ℕ}
    (h : ∀ i < n, sched i = sched' i) : p.run intf sched c n = p.run intf sched' c n := by
  induction n with
  | zero => rfl
  | succ n ih =>
    show p.advance intf (sched n) _ = p.advance intf (sched' n) _
    rw [h n n.lt_succ_self, ih fun i hi => h i (Nat.lt_succ_of_lt hi)]

/-- A property kept by every own step and by the interference is kept along every interleaving. -/
theorem Prog.Reaches.invariant {I : Config σ ε → Prop} {c c' : Config σ ε}
    (h : p.Reaches intf c c') (hc : I c)
    (hstep : ∀ a b, I a → p.step a = some b → I b) (hintf : ∀ a, I a → I (a.interfere intf)) :
    I c' := by
  induction h with
  | refl => exact hc
  | tail _ hmove ih =>
    rcases hmove with hown | rfl
    · exact hstep _ _ ih hown
    · exact hintf _ ih

/-- The action at a position is one of the part the position is in, and the next position follows. -/
theorem Prog.actionAt_cases {here there : Pos ε} {a : Action σ ε}
    (h : p.actionAt here = some (a, there)) :
    (∃ k, here = .pre k ∧ there = .pre (k + 1) ∧ p.pre[k]? = some a) ∨
    (∃ k, here = .body k ∧ there = .body (k + 1) ∧ p.body[k]? = some a) ∨
    (∃ k, here = .post k ∧ there = .post (k + 1) ∧ p.post[k]? = some a) := by
  cases here with
  | pre k =>
    obtain ⟨hget, rfl⟩ : p.pre[k]? = some a ∧ .pre (k + 1) = there := by
      simpa [Prog.actionAt] using h
    exact .inl ⟨k, rfl, rfl, hget⟩
  | body k =>
    obtain ⟨hget, rfl⟩ : p.body[k]? = some a ∧ .body (k + 1) = there := by
      simpa [Prog.actionAt] using h
    exact .inr (.inl ⟨k, rfl, rfl, hget⟩)
  | post k =>
    obtain ⟨hget, rfl⟩ : p.post[k]? = some a ∧ .post (k + 1) = there := by
      simpa [Prog.actionAt] using h
    exact .inr (.inr ⟨k, rfl, rfl, hget⟩)
  | test | done | dead e => cases h

theorem Prog.body_of_actionAt {k : ℕ} {there : Pos ε} {a : Action σ ε}
    (h : p.actionAt (.body k) = some (a, there)) : p.body[k]? = some a := by
  rcases Prog.actionAt_cases h with ⟨j, hj, -⟩ | ⟨j, hj, -, hget⟩ | ⟨j, hj, -⟩ <;> cases hj
  exact hget

/-- What holds of the actions of every part holds of the action at any position. -/
theorem Prog.forall_action {P : Action σ ε → Prop} (hpre : ∀ a ∈ p.pre, P a)
    (hbody : ∀ a ∈ p.body, P a) (hpost : ∀ a ∈ p.post, P a) {here there : Pos ε} {a : Action σ ε}
    (h : p.actionAt here = some (a, there)) : P a := by
  rcases Prog.actionAt_cases h with ⟨k, -, -, hget⟩ | ⟨k, -, -, hget⟩ | ⟨k, -, -, hget⟩
  · exact hpre a (List.mem_of_getElem? hget)
  · exact hbody a (List.mem_of_getElem? hget)
  · exact hpost a (List.mem_of_getElem? hget)

/-- Every state an action may leave behind satisfies `P`. -/
def Ctl.All (P : σ → Prop) : Ctl σ ε → Prop
  | .next s => P s
  | .again s => P s
  | .brk s => P s
  | .ret s => P s
  | .fail _ => True

theorem Ctl.All.imp {P Q : σ → Prop} {c : Ctl σ ε} (h : c.All P) (himp : ∀ s, P s → Q s) : c.All Q := by
  cases c with
  | next s | again s | brk s | ret s => exact himp s h
  | fail e => trivial

theorem Config.perform_all {P : σ → Prop} {c : Config σ ε} {a : Action σ ε} {there : Pos ε}
    (hc : P c.st) (h : (a c.st).All P) : P (c.perform a there).st := by
  unfold Config.perform
  split <;> rename_i heq <;> rw [heq] at h
  case h_5 => exact hc
  all_goals exact h

/-- The action keeps `P`. -/
def Action.Maintains (P : σ → Prop) (a : Action σ ε) : Prop := ∀ s, P s → (a s).All P

/-- What a step does: it runs the action at its position, or it moves on from the end of a part or from the
loop test. -/
inductive Prog.Steps (p : Prog σ ε) (c : Config σ ε) : Config σ ε → Prop
  | perform {a : Action σ ε} {there : Pos ε} (ha : p.actionAt c.pos = some (a, there)) :
    Steps p c (c.perform a there)
  | pre_end {k : ℕ} (hpos : c.pos = .pre k) (hk : p.pre.length ≤ k) : Steps p c { c with pos := .test }
  | enter (hpos : c.pos = .test) (ht : p.test c.st = true) :
    Steps p c { c with pos := .body 0, rounds := c.rounds + 1 }
  | leave (hpos : c.pos = .test) (ht : p.test c.st = false) : Steps p c { c with pos := .post 0 }
  | body_end {k : ℕ} (hpos : c.pos = .body k) (hk : p.body.length ≤ k) :
    Steps p c { c with pos := .test }
  | post_end {k : ℕ} (hpos : c.pos = .post k) (hk : p.post.length ≤ k) :
    Steps p c { c with pos := .done }

theorem Prog.steps_of_step {c c' : Config σ ε} (h : p.step c = some c') : p.Steps c c' := by
  unfold Prog.step at h
  split at h
  · next a there ha =>
    obtain rfl := Option.some.inj h
    exact .perform ha
  · next hnone =>
    cases hpos : c.pos with
    | pre k =>
      rw [hpos] at h hnone
      obtain rfl := Option.some.inj h
      exact .pre_end hpos (by simpa [Prog.actionAt] using hnone)
    | body k =>
      rw [hpos] at h hnone
      obtain rfl := Option.some.inj h
      exact .body_end hpos (by simpa [Prog.actionAt] using hnone)
    | post k =>
      rw [hpos] at h hnone
      obtain rfl := Option.some.inj h
      exact .post_end hpos (by simpa [Prog.actionAt] using hnone)
    | test =>
      rw [hpos] at h
      dsimp only at h
      split_ifs at h with ht
      · obtain rfl := Option.some.inj h
        exact .enter hpos ht
      · obtain rfl := Option.some.inj h
        exact .leave hpos (Bool.eq_false_iff.mpr ht)
    | done =>
      rw [hpos] at h
      cases h
    | dead e =>
      rw [hpos] at h
      cases h

/-- Only an action changes the state. -/
theorem Prog.step_cases {c c' : Config σ ε} (h : p.step c = some c') :
    (∃ a there, p.actionAt c.pos = some (a, there) ∧ c' = c.perform a there) ∨ c'.st = c.st := by
  cases Prog.steps_of_step h with
  | perform ha => exact .inl ⟨_, _, ha, rfl⟩
  | _ => exact .inr rfl

/-- What the actions of every part and the interference keep holds wherever an interleaving leads. -/
theorem Prog.Reaches.maintained {P : σ → Prop} {c c' : Config σ ε} (h : p.Reaches intf c c')
    (hpre : ∀ a ∈ p.pre, Action.Maintains P a) (hbody : ∀ a ∈ p.body, Action.Maintains P a)
    (hpost : ∀ a ∈ p.post, Action.Maintains P a) (hintf : ∀ s, P s → P (intf s)) (hc : P c.st) :
    P c'.st := by
  refine h.invariant (I := fun c => P c.st) hc (fun c d hP hs => ?_) (fun c hP => hintf _ hP)
  rcases Prog.step_cases hs with ⟨a, there, ha, rfl⟩ | hst
  · have hkeeps : Action.Maintains P a := Prog.forall_action hpre hbody hpost ha
    exact Config.perform_all hP (hkeeps _ hP)
  · rw [hst]
    exact hP

/-- The action never kills the process with `e`. -/
def Action.Spares (e : ε) (a : Action σ ε) : Prop := ∀ s, a s ≠ .fail e

theorem Action.Spares.of_next {e : ε} {a : Action σ ε} (h : ∀ s, ∃ s', a s = .next s') :
    Action.Spares e a := by
  intro s
  obtain ⟨s', hout⟩ := h s
  simp [hout]

/-- A program none of whose actions kills the process with `e` does not die of it. -/
theorem Prog.Reaches.not_dead {e : ε} {c c' : Config σ ε} (h : p.Reaches intf c c')
    (hpre : ∀ a ∈ p.pre, Action.Spares e a) (hbody : ∀ a ∈ p.body, Action.Spares e a)
    (hpost : ∀ a ∈ p.post, Action.Spares e a) (hc : c.pos ≠ .dead e) : c'.pos ≠ .dead e := by
  refine h.invariant (I := fun c => c.pos ≠ .dead e) hc (fun c d hlive hs => ?_) (fun _ hlive => hlive)
  cases Prog.steps_of_step hs with
  | @perform a there ha =>
    have hspares : Action.Spares e a := Prog.forall_action hpre hbody hpost ha
    have hthere : there ≠ .dead e := by
      rcases Prog.actionAt_cases ha with ⟨k, -, rfl, -⟩ | ⟨k, -, rfl, -⟩ | ⟨k, -, rfl, -⟩ <;> simp
    unfold Config.perform
    cases hout : a c.st with
    | next s => exact hthere
    | again s => exact hlive
    | brk s | ret s => simp
    | fail e' =>
      rintro heq
      exact hspares c.st (hout.trans (congrArg Ctl.fail (Pos.dead.inj heq)))
  | pre_end | enter | leave | body_end | post_end => simp

theorem Prog.step_of_next {c : Config σ ε} {a : Action σ ε} {there : Pos ε} {s : σ}
    (ha : p.actionAt c.pos = some (a, there)) (hnext : a c.st = .next s) :
    p.step c = some { c with pos := there, st := s } := by
  unfold Prog.step
  rw [ha]
  dsimp only
  rw [Config.perform, hnext]

theorem Prog.step_of_fail {c : Config σ ε} {a : Action σ ε} {there : Pos ε} {e : ε}
    (ha : p.actionAt c.pos = some (a, there)) (hfail : a c.st = .fail e) :
    p.step c = some { c with pos := .dead e } := by
  unfold Prog.step
  rw [ha]
  dsimp only
  rw [Config.perform, hfail]

/-! ## Proof outlines -/

/-- The assertion an action has to establish, given where its outcome leads. -/
def Ctl.Establishes (A : Pos ε → σ → Prop) (here there : Pos ε) (s : σ) : Ctl σ ε → Prop
  | .next s' => A there s'
  | .again s' => A here s'
  | .brk s' => A (.post 0) s'
  | .ret s' => A .done s'
  | .fail e => A (.dead e) s

theorem Ctl.Establishes.imp {A : Pos ε → σ → Prop} {here there : Pos ε} {s : σ} {c : Ctl σ ε}
    {P : Prop} (h : P → c.Establishes A here there s) :
    c.Establishes (fun pos s => P → A pos s) here there s := by
  cases c <;> exact h

/-- An assertion for every control position, which may speak about the number of rounds started; each
is established by the actions that lead to it and left true by the interference. -/
structure Prog.Outline (p : Prog σ ε) (intf : σ → σ) (A : Pos ε → ℕ → σ → Prop) : Prop where
  action : ∀ here there a r s, p.actionAt here = some (a, there) → A here r s →
    (a s).Establishes (A · r) here there s
  pre_end : ∀ k r s, p.pre.length ≤ k → A (.pre k) r s → A .test r s
  enter : ∀ r s, p.test s = true → A .test r s → A (.body 0) (r + 1) s
  leave : ∀ r s, p.test s = false → A .test r s → A (.post 0) r s
  body_end : ∀ k r s, p.body.length ≤ k → A (.body k) r s → A .test r s
  post_end : ∀ k r s, p.post.length ≤ k → A (.post k) r s → A .done r s
  stable : ∀ pos r s, A pos r s → A pos r (intf s)

/-- The assertion `A` where a configuration stands. -/
def Config.Satisfies (A : Pos ε → ℕ → σ → Prop) (c : Config σ ε) : Prop := A c.pos c.rounds c.st

theorem Config.Satisfies.of_pos {A : Pos ε → ℕ → σ → Prop} {c : Config σ ε} (h : c.Satisfies A)
    {pos : Pos ε} (hpos : c.pos = pos) : A pos c.rounds c.st := hpos ▸ h

theorem Config.perform_satisfies {A : Pos ε → ℕ → σ → Prop} {c : Config σ ε} {a : Action σ ε}
    {there : Pos ε} (h : (a c.st).Establishes (A · c.rounds) c.pos there c.st) :
    (c.perform a there).Satisfies A := by
  unfold Config.perform
  split <;> rename_i heq <;> rw [heq] at h <;> exact h

theorem Prog.Outline.step {A : Pos ε → ℕ → σ → Prop} (hA : p.Outline intf A) {c c' : Config σ ε}
    (h : p.step c = some c') (hc : c.Satisfies A) : c'.Satisfies A := by
  cases Prog.steps_of_step h with
  | perform ha => exact Config.perform_satisfies (hA.action _ _ _ _ _ ha hc)
  | pre_end hpos hk => exact hA.pre_end _ _ _ hk (hc.of_pos hpos)
  | enter hpos ht => exact hA.enter _ _ ht (hc.of_pos hpos)
  | leave hpos ht => exact hA.leave _ _ ht (hc.of_pos hpos)
  | body_end hpos hk => exact hA.body_end _ _ _ hk (hc.of_pos hpos)
  | post_end hpos hk => exact hA.post_end _ _ _ hk (hc.of_pos hpos)

/-- **Soundness of proof outlines.** -/
theorem Prog.Outline.sound {A : Pos ε → ℕ → σ → Prop} (hA : p.Outline intf A) {c c' : Config σ ε}
    (h : p.Reaches intf c c') (hc : c.Satisfies A) : c'.Satisfies A :=
  h.invariant (I := Config.Satisfies A) hc (fun _ _ ha hs => hA.step hs ha)
    (fun _ ha => hA.stable _ _ _ ha)

/-- The action keeps `P`, and where `P` holds it does not kill the process with `e`. -/
def Action.Safe (P : σ → Prop) (e : ε) (a : Action σ ε) : Prop :=
  ∀ s, P s → (a s).All P ∧ a s ≠ .fail e

theorem Action.Maintains.safe {P : σ → Prop} {e : ε} {a : Action σ ε} (h : Action.Maintains P a)
    (hspares : Action.Spares e a) : Action.Safe P e a := fun s hs => ⟨h s hs, hspares s⟩

/-- The assertions that keep a program from dying of `e`: the invariant, and what the test has found at the
start of a round. -/
def safeAssertion (P T : σ → Prop) (e : ε) (pos : Pos ε) (s : σ) : Prop :=
  match pos with
  | .dead e' => e' ≠ e
  | .body 0 => P s ∧ T s
  | _ => P s

theorem Action.Safe.establishes {P T : σ → Prop} {e : ε} {a : Action σ ε} {here there : Pos ε} {s : σ}
    (h : Action.Safe P e a) (hhere : ∀ s, P s → safeAssertion P T e here s)
    (hthere : ∀ s, P s → safeAssertion P T e there s) (hs : P s) :
    (a s).Establishes (safeAssertion P T e) here there s := by
  obtain ⟨hall, hne⟩ := h s hs
  cases hout : a s with
  | next s' => exact hthere s' (by rwa [hout] at hall)
  | again s' => exact hhere s' (by rwa [hout] at hall)
  | brk s' | ret s' =>
    rw [hout] at hall
    exact hall
  | fail e' => exact fun heq => hne (heq ▸ hout)

/-- **Safety under an invariant.** A program whose actions are safe does not die of `e`. The first action of a
round may rely on the loop test besides. -/
theorem Prog.Reaches.not_dead_of_safe {e : ε} {P T : σ → Prop} {first : Action σ ε}
    {rest : List (Action σ ε)} {s₀ : σ} {c : Config σ ε} (h : p.Reaches intf (.start s₀) c)
    (hs₀ : P s₀) (hbody : p.body = first :: rest)
    (hpre : ∀ a ∈ p.pre, Action.Safe P e a) (hrest : ∀ a ∈ rest, Action.Safe P e a)
    (hpost : ∀ a ∈ p.post, Action.Safe P e a) (htest : ∀ s, p.test s = true → T s)
    (hfirst : ∀ s, P s → T s →
      (first s).All P ∧ first s ≠ .fail e ∧ ∀ s', first s ≠ .again s')
    (hP : ∀ s, P s → P (intf s)) (hT : ∀ s, T s → T (intf s)) : c.pos ≠ .dead e := by
  have hA : p.Outline intf (fun pos _ s => safeAssertion P T e pos s) := {
    action := by
      intro here there a r s ha hs
      rcases Prog.actionAt_cases ha with ⟨k, rfl, rfl, hget⟩ | ⟨k, rfl, rfl, hget⟩ |
        ⟨k, rfl, rfl, hget⟩
      · exact (hpre a (List.mem_of_getElem? hget)).establishes (fun _ => id) (fun _ => id) hs
      · rw [hbody] at hget
        cases k with
        | zero =>
          obtain rfl : first = a := Option.some.inj hget
          obtain ⟨hall, hne, hagain⟩ := hfirst s hs.1 hs.2
          cases hout : first s with
          | next s' | brk s' | ret s' =>
            rw [hout] at hall
            exact hall
          | again s' => exact absurd hout (hagain s')
          | fail e' => exact fun heq => hne (heq ▸ hout)
        | succ k =>
          exact (hrest a (List.mem_of_getElem? hget)).establishes (fun _ => id) (fun _ => id) hs
      · exact (hpost a (List.mem_of_getElem? hget)).establishes (fun _ => id) (fun _ => id) hs
    pre_end := fun _ _ _ _ hs => hs
    enter := fun _ s ht hs => ⟨hs, htest s ht⟩
    leave := fun _ _ _ hs => hs
    body_end := by
      intro k r s hk hs
      cases k with
      | zero => exact hs.1
      | succ k => exact hs
    post_end := fun _ _ _ _ hs => hs
    stable := by
      intro pos r s hs
      match pos, hs with
      | .dead e', hs => exact hs
      | .body 0, hs => exact ⟨hP s hs.1, hT s hs.2⟩
      | .pre _, hs | .test, hs | .body (_ + 1), hs | .post _, hs | .done, hs => exact hP s hs }
  have hsat := hA.sound h hs₀
  intro hpos
  exact hsat.of_pos hpos rfl

/-- A position that only the action in front of it leads to, if there is one. -/
def Pos.Inner : Pos ε → Prop
  | .pre _ | .body (_ + 1) | .post (_ + 1) => True
  | _ => False

/-- What the action in front of an inner position establishes holds whenever the program stands there. -/
theorem Prog.Reaches.at_inner (pos : Pos ε) (hpos : pos.Inner) {Q : σ → Prop}
    (hin : ∀ here a s, p.actionAt here = some (a, pos) → (a s).All Q)
    (hagain : ∀ there a s s', p.actionAt pos = some (a, there) → a s ≠ .again s')
    (hintf : ∀ s, Q s → Q (intf s)) {c c' : Config σ ε} (h : p.Reaches intf c c')
    (hc : c.pos = pos → Q c.st) : c'.pos = pos → Q c'.st := by
  have hA : p.Outline intf (fun here _ s => here = pos → Q s) := {
    action := by
      intro here there a r s ha hs
      have hnext : there = pos → (a s).All Q := fun heq => hin here a s (heq ▸ ha)
      have hno : ∀ s', here = pos → a s ≠ .again s' := fun s' heq => hagain there a s s' (heq ▸ ha)
      cases hout : a s with
      | next s' =>
        rw [hout] at hnext
        exact hnext
      | again s' => exact fun heq => absurd hout (hno s' heq)
      | brk s' => exact fun heq => by cases heq; exact hpos.elim
      | ret s' => exact fun heq => by cases heq; exact hpos.elim
      | fail e => exact fun heq => by cases heq; exact hpos.elim
    pre_end := fun _ _ _ _ _ heq => by cases heq; exact hpos.elim
    enter := fun _ _ _ _ heq => by cases heq; exact hpos.elim
    leave := fun _ _ _ _ heq => by cases heq; exact hpos.elim
    body_end := fun _ _ _ _ _ heq => by cases heq; exact hpos.elim
    post_end := fun _ _ _ _ _ heq => by cases heq; exact hpos.elim
    stable := fun _ _ _ hs heq => hintf _ (hs heq) }
  exact hA.sound h hc

/-! ## Stop flags -/

/-- The position lies behind the prologue action with index `k`. -/
def Pos.Behind (k : ℕ) : Pos ε → Prop
  | .pre j => k < j
  | _ => True

/-- A flag that stops the loop: behind the prologue action `k` no action changes it, the loop test
fails while it is up, and the interference leaves it up. -/
structure Prog.StopFlag (p : Prog σ ε) (intf : σ → σ) (flag : σ → Bool) (k : ℕ) : Prop where
  keep : ∀ here there a s, p.actionAt here = some (a, there) → here.Behind k →
    (a s).All (fun s' => flag s' = flag s)
  stops : ∀ s, p.test s = true → flag s = false
  stable : ∀ s, flag s = true → flag (intf s) = true

/-- The action leaves the flag as it is. -/
def Action.Keeps (flag : σ → Bool) (a : Action σ ε) : Prop :=
  ∀ s, (a s).All fun s' => flag s' = flag s

/-- A stop flag from what the single actions do to it. -/
theorem Prog.StopFlag.of_keeps {flag : σ → Bool} {k : ℕ}
    (hpre : ∀ a ∈ p.pre.drop (k + 1), a.Keeps flag) (hbody : ∀ a ∈ p.body, a.Keeps flag)
    (hpost : ∀ a ∈ p.post, a.Keeps flag) (hstops : ∀ s, p.test s = true → flag s = false)
    (hstable : ∀ s, flag s = true → flag (intf s) = true) : p.StopFlag intf flag k where
  keep := by
    intro here there a s ha hb
    rcases Prog.actionAt_cases ha with ⟨j, rfl, -, hget⟩ | ⟨j, -, -, hget⟩ | ⟨j, -, -, hget⟩
    · have hj : k + 1 + (j - (k + 1)) = j := Nat.add_sub_cancel' hb
      have hmem : a ∈ p.pre.drop (k + 1) := by
        refine List.mem_of_getElem? (i := j - (k + 1)) ?_
        rw [List.getElem?_drop, hj, hget]
      exact hpre a hmem s
    · exact hbody a (List.mem_of_getElem? hget) s
    · exact hpost a (List.mem_of_getElem? hget) s
  stops := hstops
  stable := hstable

theorem Prog.actionAt_behind {k : ℕ} {here there : Pos ε} {a : Action σ ε}
    (h : p.actionAt here = some (a, there)) (hb : here.Behind k) : there.Behind k := by
  rcases Prog.actionAt_cases h with ⟨j, rfl, rfl, -⟩ | ⟨j, -, rfl, -⟩ | ⟨j, -, rfl, -⟩
  · exact Nat.lt_succ_of_lt hb
  · trivial
  · trivial

theorem Config.perform_behind {k : ℕ} {c : Config σ ε} {a : Action σ ε} {there : Pos ε}
    (hc : c.pos.Behind k) (ht : there.Behind k) : (c.perform a there).pos.Behind k := by
  unfold Config.perform
  split
  · exact ht
  · exact hc
  all_goals trivial

theorem Prog.step_behind {k : ℕ} {c c' : Config σ ε} (h : p.step c = some c') (hb : c.pos.Behind k) :
    c'.pos.Behind k := by
  cases Prog.steps_of_step h with
  | perform ha => exact Config.perform_behind hb (Prog.actionAt_behind ha hb)
  | _ => trivial

@[simp]
theorem Config.perform_rounds (c : Config σ ε) (a : Action σ ε) (there : Pos ε) :
    (c.perform a there).rounds = c.rounds := by
  unfold Config.perform
  split <;> rfl

/-- Only a passed loop test starts a round. -/
theorem Prog.step_rounds {c c' : Config σ ε} (h : p.step c = some c') :
    c'.rounds = c.rounds ∨ c.pos = .test ∧ p.test c.st = true ∧ c'.rounds = c.rounds + 1 := by
  cases Prog.steps_of_step h with
  | perform => exact .inl (Config.perform_rounds _ _ _)
  | enter hpos ht => exact .inr ⟨hpos, ht, rfl⟩
  | _ => exact .inl rfl

/-- One own step behind the lowering action, taken with the flag up, stays there, leaves the flag up
and starts no round. -/
theorem Prog.StopFlag.step {flag : σ → Bool} {k : ℕ} (hp : p.StopFlag intf flag k)
    {c c' : Config σ ε} (h : p.step c = some c') (hb : c.pos.Behind k) (hf : flag c.st = true) :
    c'.pos.Behind k ∧ flag c'.st = true ∧ c'.rounds = c.rounds := by
  refine ⟨step_behind h hb, ?_⟩
  cases Prog.steps_of_step h with
  | perform ha =>
    have hkeep := hp.keep _ _ _ c.st ha hb
    rw [hf] at hkeep
    exact ⟨Config.perform_all (P := fun s => flag s = true) hf hkeep, Config.perform_rounds _ _ _⟩
  | enter _ ht =>
    have hlow := hp.stops c.st ht
    rw [hf] at hlow
    cases hlow
  | _ => exact ⟨hf, rfl⟩

/-- The flag is up in round `r`, behind the action that lowers it. -/
structure StoppedIn (flag : σ → Bool) (k r : ℕ) (c : Config σ ε) : Prop where
  behind : c.pos.Behind k
  flag : flag c.st = true
  rounds : c.rounds = r

theorem StoppedIn.step {flag : σ → Bool} {k r : ℕ} {c c' : Config σ ε} (h : StoppedIn flag k r c)
    (hp : p.StopFlag intf flag k) (hs : p.step c = some c') : StoppedIn flag k r c' := by
  obtain ⟨hbehind, hflag, hrounds⟩ := hp.step hs h.behind h.flag
  exact ⟨hbehind, hflag, hrounds.trans h.rounds⟩

theorem StoppedIn.interfere {flag : σ → Bool} {k r : ℕ} {c : Config σ ε} (h : StoppedIn flag k r c)
    (hp : p.StopFlag intf flag k) : StoppedIn flag k r (c.interfere intf) :=
  ⟨h.behind, hp.stable _ h.flag, h.rounds⟩

/-- With the flag up behind the action that lowers it, no interleaving starts another round. -/
theorem Prog.StopFlag.rounds_eq {flag : σ → Bool} {k : ℕ} (hp : p.StopFlag intf flag k)
    {c c' : Config σ ε} (h : p.Reaches intf c c') (hb : c.pos.Behind k) (hf : flag c.st = true) :
    c'.rounds = c.rounds := by
  exact (h.invariant (I := StoppedIn flag k c.rounds) ⟨hb, hf, rfl⟩ (fun _ _ ha hs => ha.step hp hs)
    fun _ ha => ha.interfere hp).rounds

/-! ## Termination -/

theorem Prog.step_eq_none_iff {c : Config σ ε} : p.step c = none ↔ c.halted := by
  obtain ⟨pos, s, r⟩ := c
  cases pos with
  | pre k => simp only [step, actionAt, Config.halted]; cases p.pre[k]? <;> simp
  | test => simp only [step, actionAt, Config.halted]; split <;> simp
  | body k => simp only [step, actionAt, Config.halted]; cases p.body[k]? <;> simp
  | post k => simp only [step, actionAt, Config.halted]; cases p.post[k]? <;> simp
  | done => simp [step, actionAt, Config.halted]
  | dead e => simp [step, actionAt, Config.halted]

/-- If every own step that starts in the invariant `I` leads to the goal `G`, or decreases a well-founded
measure which the interference leaves alone, then along every schedule the program halts or comes to the
goal. -/
theorem Prog.eventually_of_measure {α : Type*} {r : α → α → Prop} (hwf : WellFounded r)
    {I G : Config σ ε → Prop} (μ : Config σ ε → α)
    (hstep : ∀ a b, I a → p.step a = some b → G b ∨ I b ∧ r (μ b) (μ a))
    (hintf : ∀ a, I a → I (a.interfere intf) ∧ μ (a.interfere intf) = μ a)
    (sched : ℕ → Bool) {c : Config σ ε} (hc : I c) :
    ∃ n, (p.run intf sched c n).halted ∨ G (p.run intf sched c n) := by
  have hrun : ∀ x n, I (p.run intf sched c n) → μ (p.run intf sched c n) = x →
      ∃ m, (p.run intf sched c m).halted ∨ G (p.run intf sched c m) := by
    intro x
    induction x using hwf.induction with
    | _ x ih =>
      intro n hI hx
      -- the configuration that takes own step `n`, after the interference the schedule asks for
      obtain ⟨d, hd, hId, hμd⟩ : ∃ d, p.run intf sched c (n + 1) = (p.step d).getD d ∧ I d ∧
          μ d = x := by
        cases hs : sched n with
        | false => exact ⟨_, by simp [run, advance, hs], hI, hx⟩
        | true =>
          obtain ⟨hI', hμ'⟩ := hintf _ hI
          exact ⟨_, by simp only [run, advance, hs, if_true], hI', hμ'.trans hx⟩
      cases hs : p.step d with
      | none =>
        refine ⟨n + 1, .inl ?_⟩
        rw [hd, hs]
        exact step_eq_none_iff.mp hs
      | some e =>
        rw [hs, Option.getD_some] at hd
        rcases hstep d e hId hs with hG | ⟨hIe, hlt⟩
        · exact ⟨n + 1, .inr (hd ▸ hG)⟩
        · rw [hμd] at hlt
          exact ih (μ e) hlt (n + 1) (hd ▸ hIe) (by rw [hd])
  exact hrun _ 0 hc rfl

/-- Without a goal, the program halts. -/
theorem Prog.halts_of_measure {α : Type*} {r : α → α → Prop} (hwf : WellFounded r)
    {I : Config σ ε → Prop} (μ : Config σ ε → α)
    (hstep : ∀ a b, I a → p.step a = some b → I b ∧ r (μ b) (μ a))
    (hintf : ∀ a, I a → I (a.interfere intf) ∧ μ (a.interfere intf) = μ a)
    (sched : ℕ → Bool) {c : Config σ ε} (hc : I c) :
    ∃ n, (p.run intf sched c n).halted := by
  obtain ⟨n, hn⟩ := eventually_of_measure (G := fun _ => False) hwf μ
    (fun a b ha hs => .inr (hstep a b ha hs)) hintf sched hc
  exact ⟨n, hn.resolve_right id⟩

/-- How far a control position is from the end of its round. -/
def Prog.rank (p : Prog σ ε) : Pos ε → ℕ
  | .pre k => p.pre.length - k + p.post.length + 3
  | .test => p.post.length + 2
  | .body k => p.body.length - k + p.post.length + 3
  | .post k => p.post.length - k + 1
  | .done | .dead _ => 0

/-- The outcome `c` of an action at `here` leads nearer to the end: it does not go back to the
beginning of the epilogue, and if it repeats the action then `ν` has decreased. -/
def Ctl.Progress (ν : σ → ℕ) (here : Pos ε) (s : σ) : Ctl σ ε → Prop
  | .again s' => ν s' < ν s
  | .brk _ => ∀ k, here ≠ .post k
  | _ => True

/-- The action is not repeated. -/
def Ctl.Straight : Ctl σ ε → Prop
  | .again _ => False
  | _ => True

/-- A program without an epilogue, none of whose actions repeats itself, makes progress. -/
theorem Prog.progress_of_straight {ν : σ → ℕ} (hpre : ∀ a ∈ p.pre, ∀ s, (a s).Straight)
    (hbody : ∀ a ∈ p.body, ∀ s, (a s).Straight) (hpost : p.post = []) {here there : Pos ε}
    {a : Action σ ε} (s : σ) (ha : p.actionAt here = some (a, there)) : (a s).Progress ν here s := by
  have hnot : ∀ k, here ≠ .post k := by
    rintro k rfl
    simp [Prog.actionAt, hpost] at ha
  have hstraight : (a s).Straight :=
    Prog.forall_action (P := fun a => (a s).Straight) (fun a ha => hpre a ha s)
      (fun a ha => hbody a ha s) (by simp [hpost]) ha
  cases hout : a s with
  | again s' =>
    rw [hout] at hstraight
    exact hstraight.elim
  | brk s' => exact hnot
  | next s' | ret s' | fail e => trivial

theorem Prog.rank_actionAt {here there : Pos ε} {a : Action σ ε}
    (h : p.actionAt here = some (a, there)) : p.rank there < p.rank here := by
  rcases Prog.actionAt_cases h with ⟨k, rfl, rfl, hget⟩ | ⟨k, rfl, rfl, hget⟩ |
    ⟨k, rfl, rfl, hget⟩
  all_goals
    have hk := (List.getElem?_eq_some_iff.mp hget).1
    simp only [Prog.rank]
    omega

/-- An action that makes progress leads nearer to the end of its round. -/
theorem Config.perform_lowers {ν : Pos ε → σ → ℕ} {c : Config σ ε} {a : Action σ ε} {there : Pos ε}
    (ha : p.actionAt c.pos = some (a, there)) (hprog : (a c.st).Progress (ν c.pos) c.pos c.st) :
    Prod.Lex (· < ·) (· < ·) (p.rank (c.perform a there).pos, ν (c.perform a there).pos
      (c.perform a there).st) (p.rank c.pos, ν c.pos c.st) := by
  have hlt := Prog.rank_actionAt ha
  unfold Config.perform
  cases hout : a c.st with
  | next s => exact .left _ _ hlt
  | again s =>
    rw [hout] at hprog
    exact .right _ hprog
  | brk s =>
    rw [hout] at hprog
    refine .left _ _ ?_
    rcases Prog.actionAt_cases ha with ⟨k, hpos, -⟩ | ⟨k, hpos, -⟩ | ⟨k, hpos, -⟩
    · simp only [hpos, Prog.rank]
      omega
    · simp only [hpos, Prog.rank]
      omega
    · exact absurd hpos (hprog k)
  | ret s | fail e => exact .left _ _ (by simp only [Prog.rank] at hlt ⊢; omega)

/-- A step of a program whose actions make progress starts a round, or it leads nearer to the end of its
round. -/
theorem Prog.step_lowers {ν : Pos ε → σ → ℕ}
    (hprogress : ∀ here there a s, p.actionAt here = some (a, there) →
      (a s).Progress (ν here) here s)
    {a b : Config σ ε} (hs : p.step a = some b) :
    (b.rounds = a.rounds ∧ Prod.Lex (· < ·) (· < ·) (p.rank b.pos, ν b.pos b.st)
      (p.rank a.pos, ν a.pos a.st)) ∨ (a.pos = .test ∧ b.rounds = a.rounds + 1) := by
  cases Prog.steps_of_step hs with
  | perform ha =>
    exact .inl ⟨Config.perform_rounds _ _ _, Config.perform_lowers ha (hprogress _ _ _ _ ha)⟩
  | enter hpos => exact .inr ⟨hpos, rfl⟩
  | leave hpos | pre_end hpos | body_end hpos | post_end hpos =>
    exact .inl ⟨rfl, .left _ _ (by simp only [hpos, rank]; omega)⟩

/-- A program halts along every schedule if the number of its rounds is bounded and every action makes
progress. -/
theorem Prog.halts_of_bounded {I : Config σ ε → Prop} {N : ℕ} {ν : Pos ε → σ → ℕ}
    (hstep : ∀ a b, I a → p.step a = some b → I b) (hintf : ∀ a, I a → I (a.interfere intf))
    (hν : ∀ pos s, ν pos (intf s) = ν pos s) (hrounds : ∀ a, I a → a.rounds ≤ N)
    (hprogress : ∀ here there a s, p.actionAt here = some (a, there) →
      (a s).Progress (ν here) here s)
    (sched : ℕ → Bool) {c : Config σ ε} (hc : I c) : ∃ n, (p.run intf sched c n).halted := by
  let μ : Config σ ε → ℕ × ℕ × ℕ := fun c => (N - c.rounds, p.rank c.pos, ν c.pos c.st)
  have hwf : WellFounded (Prod.Lex (· < ·) (Prod.Lex (· < ·) (· < ·)) : ℕ × ℕ × ℕ → _ → Prop) :=
    WellFounded.prod_lex Nat.lt_wfRel.wf (WellFounded.prod_lex Nat.lt_wfRel.wf Nat.lt_wfRel.wf)
  refine halts_of_measure hwf (I := I) μ (fun a b ha hs => ?_) (fun a ha => ⟨hintf a ha, ?_⟩) sched hc
  · have hb := hstep a b ha hs
    have hle := hrounds b hb
    refine ⟨hb, ?_⟩
    rcases step_lowers hprogress hs with ⟨heq, hlt⟩ | ⟨-, hsucc⟩
    · simp only [μ, heq]
      exact .right _ hlt
    · exact .left _ _ (by omega)
  · simp only [μ, Config.interfere, hν]

/-- With the flag up a program whose actions make progress halts along every schedule. -/
theorem Prog.StopFlag.halts {flag : σ → Bool} {k : ℕ} (hp : p.StopFlag intf flag k)
    (ν : Pos ε → σ → ℕ) (hν : ∀ pos s, ν pos (intf s) = ν pos s)
    (hprogress : ∀ here there a s, p.actionAt here = some (a, there) →
      (a s).Progress (ν here) here s)
    (sched : ℕ → Bool) {c : Config σ ε} (hb : c.pos.Behind k) (hf : flag c.st = true) :
    ∃ n, (p.run intf sched c n).halted := by
  exact halts_of_bounded (I := StoppedIn flag k c.rounds) (fun _ _ ha hs => ha.step hp hs)
    (fun _ ha => ha.interfere hp) hν (fun _ ha => ha.rounds.le) hprogress sched ⟨hb, hf, rfl⟩

theorem Prog.run_halted_of_le {sched : ℕ → Bool} {c : Config σ ε} {m n : ℕ}
    (h : (p.run intf sched c m).halted) (hle : m ≤ n) : (p.run intf sched c n).halted := by
  induction n, hle using Nat.le_induction with
  | base => exact h
  | succ n hle ih =>
    obtain ⟨d, hd, hnext⟩ := @run_succ_cases _ _ p intf sched c n
    have hhalted : d.halted := by
      rcases hd with rfl | rfl
      · exact ih
      · exact ih
    rcases hnext with hstep | heq
    · rw [step_eq_none_iff.mpr hhalted] at hstep
      cases hstep
    · rw [heq]
      exact hhalted

/-- A program whose actions make progress gets behind a prologue action, unless it halts before. -/
theorem Prog.eventually_behind (ν : Pos ε → σ → ℕ) (hν : ∀ pos s, ν pos (intf s) = ν pos s)
    (hprogress : ∀ here there a s, p.actionAt here = some (a, there) →
      (a s).Progress (ν here) here s)
    (k : ℕ) (sched : ℕ → Bool) (c : Config σ ε) :
    ∃ n, (p.run intf sched c n).halted ∨ (p.run intf sched c n).pos.Behind k := by
  by_cases hc : c.pos.Behind k
  · exact ⟨0, .inr hc⟩
  have hwf : WellFounded (Prod.Lex (· < ·) (· < ·) : ℕ × ℕ → _ → Prop) :=
    WellFounded.prod_lex Nat.lt_wfRel.wf Nat.lt_wfRel.wf
  refine eventually_of_measure hwf (I := fun d => ¬ d.pos.Behind k) (G := fun d => d.pos.Behind k)
    (fun d => (p.rank d.pos, ν d.pos d.st)) (fun a b ha hs => ?_) (fun a ha => ⟨ha, ?_⟩) sched hc
  · by_cases hb : b.pos.Behind k
    · exact .inl hb
    · refine .inr ⟨hb, ?_⟩
      rcases step_lowers hprogress hs with ⟨-, hlt⟩ | ⟨htest, -⟩
      · exact hlt
      -- the loop test is behind the prologue
      · rw [htest] at ha
        exact absurd trivial ha
  · simp only [Config.interfere, hν]

/-- If interferences that raise the flag keep coming, a program whose actions make progress halts from
wherever it stands, even if it is still to lower the flag. -/
theorem Prog.StopFlag.halts_of_recurrent {flag : σ → Bool} {k : ℕ} (hp : p.StopFlag intf flag k)
    (hraise : ∀ s, flag (intf s) = true) (ν : Pos ε → σ → ℕ)
    (hν : ∀ pos s, ν pos (intf s) = ν pos s)
    (hprogress : ∀ here there a s, p.actionAt here = some (a, there) →
      (a s).Progress (ν here) here s)
    {sched : ℕ → Bool} (hrec : ∀ n, ∃ m ≥ n, sched m = true) (c : Config σ ε) :
    ∃ n, (p.run intf sched c n).halted := by
  obtain ⟨n, hhalted | hbehind⟩ := eventually_behind ν hν hprogress k sched c
  · exact ⟨n, hhalted⟩
  obtain ⟨m, hle, hm⟩ := hrec n
  have hreach : p.Reaches intf (p.run intf sched c n) (p.run intf sched c m) := by
    obtain ⟨j, rfl⟩ := Nat.exists_eq_add_of_le hle
    rw [run_add]
    exact reaches_run _ _ _
  have hbehind' : (p.run intf sched c m).pos.Behind k :=
    hreach.invariant (I := fun d => d.pos.Behind k) hbehind (fun _ _ hb hs => step_behind hs hb)
      fun _ hb => hb
  -- the interference before step `m` raises the flag
  have hup : (p.run intf sched c (m + 1)).pos.Behind k ∧
      flag (p.run intf sched c (m + 1)).st = true := by
    have hnext : p.run intf sched c (m + 1) =
        (p.step ((p.run intf sched c m).interfere intf)).getD
          ((p.run intf sched c m).interfere intf) := by
      simp only [run, advance, hm, if_true]
    rw [hnext]
    cases hs : p.step ((p.run intf sched c m).interfere intf) with
    | none => exact ⟨hbehind', hraise _⟩
    | some d =>
      obtain ⟨hb, hf, -⟩ := hp.step hs hbehind' (hraise _)
      exact ⟨hb, hf⟩
  obtain ⟨j, hj⟩ := hp.halts ν hν hprogress (fun i => sched (m + 1 + i)) hup.1 hup.2
  exact ⟨m + 1 + j, by rwa [run_add]⟩

/-- What an outline says of a program that starts no round beyond the first `N`. -/
theorem Prog.Outline.bounded {A : Pos ε → ℕ → σ → Prop} (hA : p.Outline intf A) {N : ℕ}
    (hN : ∀ r s, r ≤ N → A .test r s → p.test s = true → r < N) {c c' : Config σ ε}
    (h : p.step c = some c') (hc : c.Satisfies A ∧ c.rounds ≤ N) : c'.Satisfies A ∧ c'.rounds ≤ N := by
  obtain ⟨hsat, hle⟩ := hc
  refine ⟨hA.step h hsat, ?_⟩
  rcases Prog.step_rounds h with heq | ⟨hpos, htest, hsucc⟩
  · omega
  · have hlt : c.rounds < N := hN _ _ hle (hsat.of_pos hpos) htest
    omega

/-- An outline that bounds the number of rounds bounds it along every interleaving. -/
theorem Prog.Outline.rounds_le {A : Pos ε → ℕ → σ → Prop} (hA : p.Outline intf A) {N : ℕ}
    (hN : ∀ r s, r ≤ N → A .test r s → p.test s = true → r < N) {c c' : Config σ ε}
    (h : p.Reaches intf c c') (hc : c.Satisfies A) (hr : c.rounds ≤ N) : c'.rounds ≤ N :=
  (h.invariant (I := fun c => c.Satisfies A ∧ c.rounds ≤ N) ⟨hc, hr⟩
    (fun _ _ ha hs => hA.bounded hN hs ha) (fun _ ha => ⟨hA.stable _ _ _ ha.1, ha.2⟩)).2

/-- A program whose outline bounds the number of its rounds halts along every schedule, and stands where
the outline allows it. -/
theorem Prog.Outline.halts {A : Pos ε → ℕ → σ → Prop} (hA : p.Outline intf A) {N : ℕ}
    (hN : ∀ r s, r ≤ N → A .test r s → p.test s = true → r < N) (ν : Pos ε → σ → ℕ)
    (hν : ∀ pos s, ν pos (intf s) = ν pos s)
    (hprogress : ∀ here there a s, p.actionAt here = some (a, there) →
      (a s).Progress (ν here) here s)
    (sched : ℕ → Bool) {c : Config σ ε} (hc : c.Satisfies A) (hr : c.rounds ≤ N) :
    ∃ n, (p.run intf sched c n).halted ∧ (p.run intf sched c n).Satisfies A ∧
      (p.run intf sched c n).rounds ≤ N := by
  let I : Config σ ε → Prop := fun c => c.Satisfies A ∧ c.rounds ≤ N
  have hstep : ∀ a b, I a → p.step a = some b → I b := fun _ _ ha hs => hA.bounded hN hs ha
  have hintf : ∀ a, I a → I (a.interfere intf) := fun a ha => ⟨hA.stable _ _ _ ha.1, ha.2⟩
  obtain ⟨n, hn⟩ := halts_of_bounded hstep hintf hν (fun _ ha => ha.2) hprogress sched ⟨hc, hr⟩
  exact ⟨n, hn, (reaches_run sched c n).invariant (I := I) ⟨hc, hr⟩ hstep hintf⟩

/-! ## Counts -/

/-- Whether the body action with index `j` is still to come in the round. -/
def Pos.due (j : ℕ) : Pos ε → ℕ
  | .body k => if k ≤ j then 1 else 0
  | _ => 0

theorem Prog.due_actionAt {j : ℕ} {here there : Pos ε} {a : Action σ ε}
    (h : p.actionAt here = some (a, there)) : there.due j ≤ here.due j := by
  cases here <;> simp only [Prog.actionAt, Option.map_eq_some_iff, Prod.mk.injEq, reduceCtorEq] at h
  case body k =>
    obtain ⟨b, -, -, rfl⟩ := h
    simp only [Pos.due]
    split_ifs <;> omega
  all_goals
    obtain ⟨b, -, -, rfl⟩ := h
    exact le_rfl

/-- The action adds at most `n` to the count `m`. -/
def Action.Adds (m : σ → ℕ) (n : ℕ) (a : Action σ ε) : Prop := ∀ s, (a s).All (m · ≤ m s + n)

theorem Action.Adds.le {m : σ → ℕ} {a : Action σ ε} (h : Action.Adds m 0 a) {c : Config σ ε}
    {there : Pos ε} : m (c.perform a there).st ≤ m c.st :=
  Config.perform_all (P := fun s => m s ≤ m c.st) le_rfl (h c.st)

/-- A step that raises a count runs an action that raises it. -/
theorem Prog.step_le {m : σ → ℕ} {c c' : Config σ ε} (h : p.step c = some c')
    (hadds : ∀ a there, p.actionAt c.pos = some (a, there) → Action.Adds m 0 a) :
    m c'.st ≤ m c.st := by
  rcases Prog.step_cases h with ⟨a, there, ha, rfl⟩ | hst
  · exact (hadds a there ha).le
  · rw [hst]

/-- A count that only the body action with index `j` raises, by one, grows by one in a round at most. -/
theorem Prog.Reaches.count_le {m : σ → ℕ} {j : ℕ} (hpre : ∀ a ∈ p.pre, Action.Adds m 0 a)
    (hbody : ∀ k a, p.body[k]? = some a → k ≠ j → Action.Adds m 0 a)
    (hpost : ∀ a ∈ p.post, Action.Adds m 0 a)
    (hraise : ∀ a s, p.body[j]? = some a → ∃ s', a s = .next s' ∧ m s' ≤ m s + 1)
    (hintf : ∀ s, m (intf s) = m s) {c c' : Config σ ε} (h : p.Reaches intf c c') :
    m c'.st + c'.pos.due j + c.rounds ≤ m c.st + c.pos.due j + c'.rounds := by
  let A : Pos ε → ℕ → σ → Prop :=
    fun pos r s => m s + pos.due j + c.rounds ≤ m c.st + c.pos.due j + r
  -- the actions that do not raise the count
  have hkeep : ∀ here there a r s, p.actionAt here = some (a, there) → Action.Adds m 0 a →
      A here r s → (a s).Establishes (A · r) here there s := by
    intro here there a r s ha hadds hs
    have hdue := Prog.due_actionAt (j := j) ha
    have hall := hadds s
    cases hout : a s <;> rw [hout] at hall <;> simp only [Ctl.All] at hall <;>
      simp only [A, Ctl.Establishes, Pos.due] at hs hdue ⊢ <;> omega
  have hA : p.Outline intf A := {
    action := by
      intro here there a r s ha hs
      rcases Prog.actionAt_cases ha with ⟨k, -, -, hget⟩ | ⟨k, rfl, rfl, hget⟩ | ⟨k, -, -, hget⟩
      · exact hkeep _ _ a r s ha (hpre a (List.mem_of_getElem? hget)) hs
      · by_cases hk : k = j
        · subst hk
          obtain ⟨s', hs', hle⟩ := hraise a s hget
          rw [hs']
          simp only [A, Pos.due, le_refl, if_true, Ctl.Establishes, show ¬ k + 1 ≤ k by omega,
            if_false] at hs ⊢
          omega
        · exact hkeep _ _ a r s ha (hbody k a hget hk) hs
      · exact hkeep _ _ a r s ha (hpost a (List.mem_of_getElem? hget)) hs
    pre_end := fun _ _ _ _ hs => hs
    enter := fun r s _ hs => by
      simp only [A, Pos.due, Nat.zero_le, if_true] at hs ⊢
      omega
    leave := fun _ _ _ hs => hs
    body_end := fun _ _ _ _ hs => by
      simp only [A, Pos.due] at hs ⊢
      omega
    post_end := fun _ _ _ _ hs => hs
    stable := fun _ _ _ hs => by
      simp only [A, hintf] at hs ⊢
      exact hs }
  exact hA.sound h (le_refl _)

end LoopProg
