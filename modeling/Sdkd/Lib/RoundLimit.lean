import Mathlib.Data.Nat.Find
import Sdkd.Lib.LoopProg

/-!
# Loop programs that are stopped by a round

A schedule may promise that the stop flag of a program is up by the time it has started a number of rounds. Such
a program starts no round more, and halts if its actions make progress. Conversely there is a schedule that stops
a program right then, unless the program leaves its loop before, with the flag down.

## Main definitions

- `Prog.StopsBy` — the promise of a schedule

## Main results

- `Prog.StopFlag.rounds_le`, `Prog.StopFlag.halts_by` — what the promise brings
- `Prog.StopFlag.exists_schedule` — the schedule that stops a program in a given round
- `Prog.Outline.cause` — why a program has died
- `Prog.Straight.up_of_done` — a program that is left only at its loop test returns with the flag up
- `Prog.Straight.counted` — what one action of its body counts is then the number of rounds
-/

namespace LoopProg

variable {σ ε : Type*} {p : Prog σ ε} {intf : σ → σ} {flag : σ → Bool} {sched : ℕ → Bool} {c : Config σ ε}
  {s₀ : σ} {B k : ℕ}

/-! ## Promises -/

/-- Whenever a run along the schedule stands at the loop test with `B` rounds started, or more, the flag is up,
or it is raised right then. -/
def Prog.StopsBy (p : Prog σ ε) (intf : σ → σ) (flag : σ → Bool) (sched : ℕ → Bool) (c : Config σ ε)
    (B : ℕ) : Prop :=
  ∀ n, (p.run intf sched c n).pos = .test → B ≤ (p.run intf sched c n).rounds →
    flag (p.run intf sched c n).st = true ∨ sched n = true

theorem Prog.StopsBy.mono {B' : ℕ} (h : p.StopsBy intf flag sched c B) (hle : B ≤ B') :
    p.StopsBy intf flag sched c B' := fun n hpos hrounds => h n hpos (hle.trans hrounds)

/-- The configuration that takes own step `n` of a run. -/
def Prog.atStep (p : Prog σ ε) (intf : σ → σ) (sched : ℕ → Bool) (c : Config σ ε) (n : ℕ) : Config σ ε :=
  if sched n then (p.run intf sched c n).interfere intf else p.run intf sched c n

theorem Prog.run_succ_eq (n : ℕ) :
    p.run intf sched c (n + 1) =
      (p.step (p.atStep intf sched c n)).getD (p.atStep intf sched c n) := rfl

theorem Prog.atStep_pos (n : ℕ) : (p.atStep intf sched c n).pos = (p.run intf sched c n).pos := by
  unfold atStep
  split_ifs <;> rfl

theorem Prog.atStep_rounds (n : ℕ) : (p.atStep intf sched c n).rounds = (p.run intf sched c n).rounds := by
  unfold atStep
  split_ifs <;> rfl

/-- Where the promise is due, the flag is up for the next own step. -/
theorem Prog.StopsBy.flag_atStep (h : p.StopsBy intf flag sched c B)
    (hraise : ∀ s, flag (intf s) = true) {n : ℕ} (hpos : (p.run intf sched c n).pos = .test)
    (hrounds : B ≤ (p.run intf sched c n).rounds) :
    flag (p.atStep intf sched c n).st = true := by
  unfold atStep
  split_ifs with hs
  · exact hraise _
  · exact (h n hpos hrounds).resolve_right hs

theorem Prog.Reaches.rounds_mono {c c' : Config σ ε} (h : p.Reaches intf c c') : c.rounds ≤ c'.rounds :=
  h.invariant (I := fun d => c.rounds ≤ d.rounds) le_rfl
    (fun a b hle hs => by
      rcases step_rounds hs with heq | ⟨-, -, hsucc⟩
      · rwa [heq]
      · rw [hsucc]
        exact Nat.le_succ_of_le hle)
    (fun _ hle => hle)

/-- No round is started beyond the promised one. -/
theorem Prog.StopFlag.rounds_le (hp : p.StopFlag intf flag k) (hraise : ∀ s, flag (intf s) = true)
    (h : p.StopsBy intf flag sched c B) (hc : c.rounds ≤ B) (n : ℕ) : (p.run intf sched c n).rounds ≤ B := by
  induction n with
  | zero => exact hc
  | succ n ih =>
    rw [run_succ_eq]
    cases hs : p.step (p.atStep intf sched c n) with
    | none => rwa [Option.getD_none, atStep_rounds]
    | some d =>
      rw [Option.getD_some]
      rcases step_rounds hs with heq | ⟨hpos, htest, hsucc⟩
      · rwa [heq, atStep_rounds]
      · rw [hsucc, atStep_rounds]
        by_contra hlt
        rw [atStep_pos] at hpos
        have hup := h.flag_atStep hraise hpos (by omega)
        rw [hp.stops _ htest] at hup
        cases hup

/-- A program whose actions make progress halts, or it comes to the loop test with `B` rounds started. -/
theorem Prog.eventually_round (ν : Pos ε → σ → ℕ) (hν : ∀ pos s, ν pos (intf s) = ν pos s)
    (hprogress : ∀ here there a s, p.actionAt here = some (a, there) →
      (a s).Progress (ν here) here s)
    (B : ℕ) (sched : ℕ → Bool) (c : Config σ ε) :
    ∃ n, (p.run intf sched c n).halted ∨
      ((p.run intf sched c n).pos = .test ∧ B ≤ (p.run intf sched c n).rounds) := by
  let G : Config σ ε → Prop := fun d => d.pos = .test ∧ B ≤ d.rounds
  by_cases hc : G c
  · exact ⟨0, .inr hc⟩
  let μ : Config σ ε → ℕ × ℕ × ℕ := fun d => (B - d.rounds, p.rank d.pos, ν d.pos d.st)
  have hwf : WellFounded (Prod.Lex (· < ·) (Prod.Lex (· < ·) (· < ·)) : ℕ × ℕ × ℕ → _ → Prop) :=
    WellFounded.prod_lex Nat.lt_wfRel.wf (WellFounded.prod_lex Nat.lt_wfRel.wf Nat.lt_wfRel.wf)
  refine eventually_of_measure hwf (I := fun d => ¬ G d) (G := G) μ (fun a b ha hs => ?_)
    (fun a ha => ⟨ha, ?_⟩) sched hc
  · by_cases hb : G b
    · exact .inl hb
    refine .inr ⟨hb, ?_⟩
    rcases step_lowers hprogress hs with ⟨heq, hlt⟩ | ⟨hpos, hsucc⟩
    · simp only [μ, heq]
      exact .right _ hlt
    -- the round that is started is one of the first `B`
    · have hlt : a.rounds < B := Nat.lt_of_not_le fun hle => ha ⟨hpos, hle⟩
      exact .left _ _ (by omega)
  · simp only [μ, Config.interfere, hν]

/-- So it halts. -/
theorem Prog.StopFlag.halts_by (hp : p.StopFlag intf flag k) (hraise : ∀ s, flag (intf s) = true)
    (ν : Pos ε → σ → ℕ) (hν : ∀ pos s, ν pos (intf s) = ν pos s)
    (hprogress : ∀ here there a s, p.actionAt here = some (a, there) →
      (a s).Progress (ν here) here s)
    (h : p.StopsBy intf flag sched c B) : ∃ n, (p.run intf sched c n).halted := by
  obtain ⟨n, hhalted | ⟨hpos, hrounds⟩⟩ := eventually_round (p := p) ν hν hprogress B sched c
  · exact ⟨n, hhalted⟩
  have hup := h.flag_atStep hraise hpos hrounds
  -- the flag is up behind the loop test, which leads to the epilogue
  have hnext : p.step (p.atStep intf sched c n) =
      some { p.atStep intf sched c n with pos := .post 0 } := by
    have htest : p.test (p.atStep intf sched c n).st = false := by
      by_contra hyes
      rw [hp.stops _ (Bool.not_eq_false _ ▸ hyes)] at hup
      cases hup
    rw [← atStep_pos] at hpos
    unfold Prog.step
    rw [hpos]
    simp [actionAt, htest]
  have hrun : p.run intf sched c (n + 1) = { p.atStep intf sched c n with pos := .post 0 } := by
    rw [run_succ_eq, hnext, Option.getD_some]
  obtain ⟨m, hm⟩ := hp.halts ν hν hprogress (fun i => sched (n + 1 + i))
    (c := p.run intf sched c (n + 1)) (by rw [hrun]; trivial) (by rw [hrun]; exact hup)
  exact ⟨n + 1 + m, by rwa [run_add]⟩

/-! ## Schedules that keep a promise -/

theorem Prog.run_never (c : Config σ ε) (n : ℕ) :
    p.run intf (fun _ => false) c n = p.run id (fun _ => false) c n := by
  induction n with
  | zero => rfl
  | succ n ih =>
    show p.advance intf false _ = p.advance id false _
    rw [ih]
    rfl

/-- Where nothing interferes, a flag that one action of the prologue lowers stays down behind it. -/
theorem Prog.StopFlag.low_of_never (hp : p.StopFlag intf flag k) (hk : k < p.pre.length)
    (hbefore : ∀ j < k, ∀ a, p.pre[j]? = some a → ∀ s, ∃ s', a s = .next s')
    (hlower : ∀ a, p.pre[k]? = some a → ∀ s, (a s).All (flag · = false)) {n : ℕ}
    (hdone : (p.run intf (fun _ => false) (.start s₀) n).pos = .done) :
    flag (p.run intf (fun _ => false) (.start s₀) n).st = false := by
  -- behind the action the flag is down, unless the program has died
  let A : Pos ε → ℕ → σ → Prop := fun pos _ s => pos.Behind k → (∀ e, pos ≠ .dead e) → flag s = false
  have hall : ∀ {here there : Pos ε} {a : Action σ ε} {s : σ} (r : ℕ), (a s).All (flag · = false) →
      (a s).Establishes (A · r) here there s := by
    intro here there a s r hs
    cases hout : a s <;> rw [hout] at hs
    case fail e => exact fun _ hno => absurd rfl (hno e)
    all_goals exact fun _ _ => hs
  have hA : p.Outline id A := {
    action := by
      intro here there a r s ha hs
      by_cases hbehind : here.Behind k
      · have hlow : flag s = false := hs hbehind fun e he => by
          subst he
          cases ha
        have hkeep := hp.keep here there a s ha hbehind
        rw [hlow] at hkeep
        exact hall r hkeep
      · rcases actionAt_cases ha with ⟨j, rfl, rfl, hget⟩ | ⟨j, rfl, -, -⟩ | ⟨j, rfl, -, -⟩
        · rcases Nat.lt_or_ge j k with hlt | hge
          · obtain ⟨s', hs'⟩ := hbefore j hlt a hget s
            rw [hs']
            exact fun hno => absurd hno (Nat.not_lt.mpr hlt)
          · obtain rfl : j = k := Nat.le_antisymm (Nat.not_lt.mp hbehind) hge
            exact hall r (hlower a hget s)
        · exact absurd trivial hbehind
        · exact absurd trivial hbehind
    pre_end := fun j r s hj hs _ _ => hs (hk.trans_le hj) (by simp)
    enter := fun r s _ hs _ _ => hs trivial (by simp)
    leave := fun r s _ hs _ _ => hs trivial (by simp)
    body_end := fun j r s _ hs _ _ => hs trivial (by simp)
    post_end := fun j r s _ hs _ _ => hs trivial (by simp)
    stable := fun _ _ _ hs => hs }
  rw [run_never] at hdone ⊢
  have hreach : p.Reaches id (.start s₀) _ := reaches_run (fun _ => false) _ n
  have hsat := hA.sound hreach fun hno => absurd hno (Nat.not_lt_zero k)
  exact hsat.of_pos hdone trivial (by simp)

/-- There is a schedule that keeps the promise. A program that returns along it has been stopped at the loop test
with exactly `B` rounds started, or the flag is down. -/
theorem Prog.StopFlag.exists_schedule (hp : p.StopFlag intf flag k) (hraise : ∀ s, flag (intf s) = true)
    (hk : k < p.pre.length) (hbefore : ∀ j < k, ∀ a, p.pre[j]? = some a → ∀ s, ∃ s', a s = .next s')
    (hlower : ∀ a, p.pre[k]? = some a → ∀ s, (a s).All (flag · = false)) (s₀ : σ) (B : ℕ) :
    ∃ sched, p.StopsBy intf flag sched (.start s₀) B ∧
      ∀ n, (p.run intf sched (.start s₀) n).pos = .done →
        ((p.run intf sched (.start s₀) n).rounds = B ∧
          ∃ m, (p.run intf sched (.start s₀) m).pos = .test ∧ (p.run intf sched (.start s₀) m).rounds = B) ∨
        flag (p.run intf sched (.start s₀) n).st = false := by
  let never : ℕ → Config σ ε := p.run intf (fun _ => false) (.start s₀)
  by_cases hdue : ∃ n, (never n).pos = .test ∧ B ≤ (never n).rounds
  swap
  · exact ⟨fun _ => false, fun n hpos hrounds => absurd ⟨n, hpos, hrounds⟩ hdue,
      fun n hdone => .inr (hp.low_of_never hk hbefore hlower hdone)⟩
  classical
  let N := Nat.find hdue
  obtain ⟨hpos, hrounds⟩ : (never N).pos = .test ∧ B ≤ (never N).rounds := Nat.find_spec hdue
  let sched : ℕ → Bool := fun i => decide (N ≤ i)
  have hsame : ∀ n ≤ N, p.run intf sched (.start s₀) n = never n := fun n hn =>
    run_congr _ fun i hi => decide_eq_false (Nat.not_le.mpr (hi.trans_le hn))
  -- up to `N` the promise is not due
  have hpromise : p.StopsBy intf flag sched (.start s₀) B := by
    intro n hn hle
    refine .inr (decide_eq_true (Nat.le_of_not_lt fun hlt => ?_))
    rw [hsame n hlt.le] at hn hle
    exact Nat.find_min hdue hlt ⟨hn, hle⟩
  have hle := hp.rounds_le hraise hpromise (Nat.zero_le B)
  have hexact : (p.run intf sched (.start s₀) N).rounds = B := by
    have hN := hle N
    rw [hsame N le_rfl] at hN ⊢
    exact Nat.le_antisymm hN hrounds
  refine ⟨sched, hpromise, fun n hdone => .inl ⟨?_, N, by rw [hsame N le_rfl]; exact hpos, hexact⟩⟩
  rcases Nat.le_total n N with hbefore | hbehind
  · -- a program that has returned does not come to its test
    have hhalted : (never n).halted := by
      rw [← hsame n hbefore]
      unfold Config.halted
      rw [hdone]
      trivial
    have hstill := run_halted_of_le hhalted hbefore
    unfold Config.halted at hstill
    rw [hpos] at hstill
    exact hstill.elim
  · refine Nat.le_antisymm (hle n) ?_
    rw [← hexact]
    obtain ⟨j, rfl⟩ := Nat.exists_eq_add_of_le hbehind
    rw [run_add]
    exact Reaches.rounds_mono (reaches_run _ _ j)

/-! ## Endings -/

/-- The action is followed by the next one, or it kills the process. -/
def Ctl.Onward : Ctl σ ε → Prop
  | .next _ | .fail _ => True
  | _ => False

theorem Ctl.Onward.establishes {A : Pos ε → σ → Prop} {here there : Pos ε} {s : σ} {a : Ctl σ ε} (h : a.Onward)
    (hnext : a.All (A there)) (hdead : ∀ e, A (.dead e) s) : a.Establishes A here there s := by
  cases a with
  | next s' => exact hnext
  | fail e => exact hdead e
  | again s' | brk s' | ret s' => exact h.elim

/-- The way out of the program is its loop test. -/
structure Prog.Straight (p : Prog σ ε) : Prop where
  pre : ∀ a ∈ p.pre, ∀ s, (a s).Onward
  body : ∀ a ∈ p.body, ∀ s, (a s).Onward
  post : ∀ a ∈ p.post, ∀ s, (a s).Onward

/-- A straight program that returns has found the flag up. -/
theorem Prog.Straight.up_of_done (hp : p.Straight) (hflag : p.StopFlag intf flag k)
    (htest : ∀ s, p.test s = false → flag s = true) (h : p.Reaches intf (.start s₀) c) (hdone : c.pos = .done) :
    flag c.st = true := by
  let A : Pos ε → ℕ → σ → Prop := fun pos _ s => match pos with
    | .post _ | .done => flag s = true
    | _ => True
  have hA : p.Outline intf A := {
    action := by
      intro here there a r s ha hs
      rcases actionAt_cases ha with ⟨i, rfl, rfl, hget⟩ | ⟨i, rfl, rfl, hget⟩ | ⟨i, rfl, rfl, hget⟩
      · exact (hp.pre a (List.mem_of_getElem? hget) s).establishes (by cases a s <;> trivial) fun _ => trivial
      · exact (hp.body a (List.mem_of_getElem? hget) s).establishes (by cases a s <;> trivial) fun _ => trivial
      · have hkeep := hflag.keep _ _ _ s ha trivial
        rw [show flag s = true from hs] at hkeep
        exact (hp.post a (List.mem_of_getElem? hget) s).establishes hkeep fun _ => trivial
    pre_end := fun _ _ _ _ _ => trivial
    enter := fun _ _ _ _ => trivial
    leave := fun _ s ht _ => htest s ht
    body_end := fun _ _ _ _ _ => trivial
    post_end := fun _ _ _ _ hs => hs
    stable := fun pos _ s hs => by
      cases pos with
      | post i | done => exact hflag.stable s hs
      | _ => trivial }
  exact (hA.sound h trivial).of_pos hdone

/-- A count that starts at zero, that the body action with index `j` raises by one, and that nothing else changes,
is the number of rounds when a straight program returns. -/
theorem Prog.Straight.counted (hp : p.Straight) {m : σ → ℕ} {j : ℕ} (hs₀ : m s₀ = 0)
    (hpre : ∀ a ∈ p.pre, ∀ s, m s = 0 → (a s).All (m · = 0))
    (hbody : ∀ i (a : Action σ ε), p.body[i]? = some a → ∀ s, (a s).All (m · = m s + if i = j then 1 else 0))
    (hj : j < p.body.length) (hpost : ∀ a ∈ p.post, ∀ s, (a s).All (m · = m s))
    (hintf : ∀ s, m (intf s) = m s) (h : p.Reaches intf (.start s₀) c) (hdone : c.pos = .done) :
    m c.st = c.rounds := by
  let A : Pos ε → ℕ → σ → Prop := fun pos r s => match pos with
    | .pre _ => m s = 0 ∧ r = 0
    | .body i => m s + (if i ≤ j then 1 else 0) = r
    | .dead _ => True
    | _ => m s = r
  have hA : p.Outline intf A := {
    action := by
      intro here there a r s ha hs
      rcases actionAt_cases ha with ⟨i, rfl, rfl, hget⟩ | ⟨i, rfl, rfl, hget⟩ | ⟨i, rfl, rfl, hget⟩
      · obtain ⟨hzero, hr⟩ : m s = 0 ∧ r = 0 := hs
        have hall := hpre a (List.mem_of_getElem? hget) s hzero
        exact (hp.pre a (List.mem_of_getElem? hget) s).establishes (hall.imp fun _ hs' => ⟨hs', hr⟩) fun _ => trivial
      · have hcount : m s + (if i ≤ j then 1 else 0) = r := hs
        refine (hp.body a (List.mem_of_getElem? hget) s).establishes
          ((hbody i a hget s).imp fun s' hs' => ?_) fun _ => trivial
        show m s' + (if i + 1 ≤ j then 1 else 0) = r
        rw [hs', ← hcount]
        split_ifs <;> omega
      · have hcount : m s = r := hs
        exact (hp.post a (List.mem_of_getElem? hget) s).establishes
          ((hpost a (List.mem_of_getElem? hget) s).imp fun _ hs' => hs'.trans hcount) fun _ => trivial
    pre_end := fun i r s _ hs => by
      obtain ⟨hzero, rfl⟩ : m s = 0 ∧ r = 0 := hs
      exact hzero
    enter := fun r s _ hs => by
      show m s + (if 0 ≤ j then 1 else 0) = r + 1
      rw [if_pos (Nat.zero_le j), show m s = r from hs]
    leave := fun _ _ _ hs => hs
    body_end := fun i r s hi hs => by
      have hcount : m s + (if i ≤ j then 1 else 0) = r := hs
      rwa [if_neg (by omega)] at hcount
    post_end := fun _ _ _ _ hs => hs
    stable := fun pos r s hs => by
      simp only [A, hintf] at hs ⊢
      exact hs }
  exact (hA.sound h ⟨hs₀, rfl⟩).of_pos hdone

end LoopProg
