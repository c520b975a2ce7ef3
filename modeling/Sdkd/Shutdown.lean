import Sdkd.Endings
import Sdkd.Lifecycle

/-!
# Shutdown

The loop of `~MainDispatch`, which cancels the current operation of every worker and collects the workers
that have finished, until none is left. A worker may be anywhere in `run` when it starts: in its `select`,
in an operation, in the flush behind its loop.

## Main definitions

- `Runner`, `Runner.Moves` — the thread of a worker and its steps
- `Threads` — what the thread library says of a thread that has ended
- `Step`, `Own` — the steps of the daemon, and those that need nothing from a client
- `State.CanMove` — some worker can come nearer to the end of `run`

## Main results

- `Reachable.canMove` — the destructor can go on unless all the workers that are left wait
- `not_canMove_of_idle` — it cannot if they are all idle
-/

namespace Sdkd

namespace Shutdown

/-! ## The threads -/

/-- Where the thread of a worker stands in `run`: in the `select` of `selectLoop`, in the operation of a
turn, in the flush behind the loop, behind the flush, behind the unregistration, or at its end. An uncaught
exception ends the whole process. -/
inductive Place where
  | selecting
  | operating (t : WorkerTurn)
  | flushing
  | unregistering
  | dropping
  | finished
  | dead (e : Crash)

/-- A worker with its thread and its client. `arrived` is what `recv` is going to return beyond what the
socket holds already, `selects` what the selects of the last flush are going to return; a client that does
not go on adds nothing to either. `cancelled` tells that `cancelCurrentHandle` has been called since the
last step of the operation. -/
structure Runner where
  wd : WorkerDispatch
  place : Place
  arrived : List RecvResult
  selects : List SelectResult
  cancelled : Bool

namespace Runner

/-- A worker on a new connection. -/
def new (id : ℕ) : Runner := ⟨.new id [], .selecting, [], [], false⟩

/-- `cancelCurrentHandle`; an operation sees the flag at its next step. -/
def cancel (r : Runner) : Runner :=
  match r.place with
  | .operating _ => { r with cancelled := true }
  | _ => { r with wd := r.wd.cancelCurrentHandle }

theorem cancel_of_operating {r : Runner} {t : WorkerTurn} (h : r.place = .operating t) :
    r.cancel = { r with cancelled := true } := by
  unfold cancel
  rw [h]

@[simp] theorem cancel_place (r : Runner) : r.cancel.place = r.place := by
  unfold cancel
  split <;> rfl

@[simp] theorem cancel_arrived (r : Runner) : r.cancel.arrived = r.arrived := by
  unfold cancel
  split <;> rfl

@[simp] theorem cancel_io (r : Runner) : r.cancel.wd.io = r.wd.io := by
  unfold cancel
  split <;> rfl

/-- The client sends or closes, or reads. -/
def receive (r : Runner) (more : List RecvResult) (reads : List SelectResult) : Runner :=
  { r with arrived := r.arrived ++ more, selects := r.selects ++ reads }

/-- What `select` can return, in surroundings that are given: it is interrupted, or the socket is ready, to
be read only if there is something to read. Nothing urgent is ever sent. -/
structure Returns (around : WorkerTurn) (r : Runner) (t : WorkerTurn) : Prop where
  junk : t.junk = around.junk
  env : t.env = around.env
  md : t.md = around.md
  arrived : t.arrived = r.arrived
  steps : t.steps = 0
  selv : t.selv = .error .eintr ∨ ∃ n, t.selv = .ready (n + 1)
  exc : t.exc = false
  readable : t.readable = true → r.wd.io.script ++ r.arrived ≠ []

section Moves

variable [JsonAccess] [JsonReader] [JsonWriter]

/-- The worker behind the turn `t`, or in its operation. -/
def after (r : Runner) (t : WorkerTurn) : Runner :=
  match r.wd.selectLoop t with
  | .running => { r with place := .operating t }
  | .crashed e => { r with place := .dead e }
  | .returned (true, wd, _) => { r with wd := wd, place := .selecting }
  | .returned (false, wd, _) => { r with wd := wd, place := .flushing }

/-- The steps of the thread. -/
inductive Moves (around : WorkerTurn) (r : Runner) : Runner → Prop
  | turn (t : WorkerTurn) (hplace : r.place = .selecting) (hreturns : r.Returns around t) :
    Moves around r ({ r with arrived := [] }.after t)
  | serve (t : WorkerTurn) (hplace : r.place = .operating t) :
    Moves around r ({ r with cancelled := false }.after (t.along (t.steps + 1)
      fun i => if i = t.steps then r.cancelled else t.env.sched i))
  | flush (rv : ℤ) (io : IOProtoHandler) (hplace : r.place = .flushing)
    (hflush : r.wd.io.flushBufferBlock r.selects = (some rv, io)) :
    Moves around r { r with wd := { r.wd with io := io }, place := .unregistering }
  | unregister (hplace : r.place = .unregistering) :
    Moves around r { r with wd := (r.wd.unregister around.md).1, place := .dropping }
  | drop (hplace : r.place = .dropping) :
    Moves around r { r with wd := r.wd.dropHandle, place := .finished }

end Moves

end Runner

/-! ## The daemon -/

/-- The workers that have not been deleted, by the number of their connection, the number of the next
connection, and whether the control thread has come to the destructor. -/
structure State where
  children : ℕ → Option Runner
  next : ℕ
  destructing : Bool

def State.init : State := ⟨fun _ => none, 0, false⟩

/-- Replace, add or delete the worker `w`. -/
def State.set (s : State) (w : ℕ) (r : Option Runner) : State :=
  { s with children := fun v => if v = w then r else s.children v }

theorem State.set_self (s : State) (w : ℕ) (r : Option Runner) : (s.set w r).children w = r :=
  if_pos rfl

theorem State.set_ne (s : State) {v w : ℕ} (r : Option Runner) (h : v ≠ w) :
    (s.set w r).children v = s.children v :=
  if_neg h

/-- What holds of the workers there were and of the one that is set holds of all. -/
theorem State.forall_set {s : State} {P : Runner → Prop} {w : ℕ} {o : Option Runner}
    (h : ∀ v r, s.children v = some r → P r) (ho : ∀ r, o = some r → P r) (v : ℕ) (r : Runner)
    (hv : (s.set w o).children v = some r) : P r := by
  simp only [State.set] at hv
  split_ifs at hv
  · exact ho r hv
  · exact h v r hv

/-! ## How far it is to the end -/

/-- How far a place is from the end of `run`. -/
def Place.stage : Place → ℕ
  | .selecting | .operating _ => 4
  | .flushing => 3
  | .unregistering => 2
  | .dropping => 1
  | .finished | .dead _ => 0

/-- What had arrived for the turn that is in an operation. -/
def Place.arrived : Place → List RecvResult
  | .operating t => t.arrived
  | _ => []

/-- An operation comes before the next `select`. -/
def Place.selects : Place → ℕ
  | .operating _ => 0
  | _ => 1

/-- What a worker has still before it: the stages of `run`, in its loop the input that is left, and then
the `select` for it. -/
def Runner.rank (r : Runner) : ℕ ×ₗ ((ℕ ×ₗ ℕ) ×ₗ ℕ) :=
  toLex (r.place.stage,
    toLex ((r.wd.io.deliver (r.place.arrived ++ r.arrived)).inputLeft, r.place.selects))

/-- Some worker is nearer to the end of `run` than before, or it has been collected. -/
def State.Nearer (s s' : State) : Prop :=
  ∃ w r, s.children w = some r ∧
    (s'.children w = none ∨ ∃ r', s'.children w = some r' ∧ r'.rank < r.rank)

/-- The process has died. -/
def State.Crashed (s : State) : Prop := ∃ w r e, s.children w = some r ∧ r.place = .dead e

theorem Runner.rank_lt_of_stage {r r' : Runner} (h : r'.place.stage < r.place.stage) : r'.rank < r.rank :=
  Prod.Lex.toLex_lt_toLex.mpr (.inl h)

theorem Runner.rank_lt_of_input {r r' : Runner} (hstage : r'.place.stage = r.place.stage)
    (h : (r'.wd.io.deliver (r'.place.arrived ++ r'.arrived)).inputLeft <
      (r.wd.io.deliver (r.place.arrived ++ r.arrived)).inputLeft) : r'.rank < r.rank :=
  Prod.Lex.toLex_lt_toLex.mpr (.inr ⟨hstage, Prod.Lex.toLex_lt_toLex.mpr (.inl h)⟩)

/-! ## Idle workers -/

section Idle

variable {around : WorkerTurn} {s s' : State} {w : ℕ} {r : Runner} {t : WorkerTurn}

/-- The worker stands in its `select` with nothing to read and nothing to write. -/
structure Runner.Idle (r : Runner) : Prop where
  place : r.place = .selecting
  script : r.wd.io.script = []
  arrived : r.arrived = []
  outbuf : r.wd.io.outbuf = []

/-- All `select` can do is to be interrupted, or to return with nothing to do. -/
theorem Runner.Idle.poll (h : r.Idle) (hreturns : r.Returns around t) :
    r.wd.poll t = (.idle, { r.wd with io := r.wd.io.deliver t.arrived }) := by
  have hquiet : ¬ t.readable = true := by
    intro hread
    refine hreturns.readable hread ?_
    rw [h.script, h.arrived]
    rfl
  have houtbuf : (r.wd.io.deliver t.arrived).outbuf = [] := h.outbuf
  unfold WorkerDispatch.poll
  rcases hreturns.selv with hsel | ⟨n, hsel⟩
  · rw [hsel]
    rfl
  · rw [hsel]
    simp [hreturns.exc, houtbuf, hquiet]

theorem Runner.Idle.cancel (h : r.Idle) : r.cancel.Idle ∧ r.cancel.rank = r.rank := by
  refine ⟨⟨?_, ?_, ?_, ?_⟩, ?_⟩
  · rw [r.cancel_place, h.place]
  · rw [r.cancel_io, h.script]
  · rw [r.cancel_arrived, h.arrived]
  · rw [r.cancel_io, h.outbuf]
  · unfold Runner.rank
    rw [r.cancel_place, r.cancel_io, r.cancel_arrived]

/-- The workers of `s` are all there in `s'`, idle, and as far from the end of `run` as they were. -/
def State.IdleSince (s s' : State) : Prop :=
  ∀ w, Option.Rel (fun r r' => r'.Idle ∧ r'.rank = r.rank) (s.children w) (s'.children w)

theorem State.IdleSince.set {o : Option Runner} (h : s.IdleSince s')
    (ho : Option.Rel (fun r r' => r'.Idle ∧ r'.rank = r.rank) (s.children w) o) :
    s.IdleSince (s'.set w o) := by
  intro v
  by_cases hv : v = w
  · rw [hv, State.set_self]
    exact ho
  · rw [State.set_ne s' o hv]
    exact h v

theorem State.IdleSince.worker (h : s.IdleSince s') (hr : s'.children w = some r) :
    ∃ r₀, s.children w = some r₀ ∧ r.Idle ∧ r.rank = r₀.rank := by
  have hw := h w
  rw [hr] at hw
  cases hw₀ : s.children w with
  | none =>
    rw [hw₀] at hw
    cases hw
  | some r₀ =>
    rw [hw₀] at hw
    cases hw with
    | some hidle => exact ⟨r₀, rfl, hidle⟩

end Idle

/-! ## Steps -/

/-- The thread library. Whether `pthread_kill` without a signal, and so `isAlive()`, still finds a thread that has
ended and has not been joined is up to it. -/
class Threads where
  isAliveEnded : Bool

/-- A library that does not find it. -/
abbrev Threads.plain : Threads := ⟨false⟩

section Steps

variable [JsonAccess] [JsonReader] [JsonWriter] [Threads]

/-- The steps that need no client: those of the threads, and the two calls in the loop of the
destructor. -/
inductive Own (around : WorkerTurn) (s : State) : State → Prop
  | thread {w : ℕ} {r r' : Runner} (hr : s.children w = some r) (hmoves : r.Moves around r') :
    Own around s (s.set w (some r'))
  | cancel {w : ℕ} {r : Runner} (hdestructing : s.destructing = true) (hr : s.children w = some r) :
    Own around s (s.set w (some r.cancel))
  | collect {w : ℕ} {r : Runner} (hr : s.children w = some r) (hplace : r.place = .finished)
    (halive : Threads.isAliveEnded = false) : Own around s (s.set w none)

/-- The steps of the daemon and its clients. -/
inductive Step (s : State) : State → Prop
  | own {s' : State} (around : WorkerTurn) (h : Own around s s') : Step s s'
  | accept (hdestructing : s.destructing = false) :
    Step s { s.set s.next (some (.new s.next)) with next := s.next + 1 }
  | control {w : ℕ} {r : Runner} (hdestructing : s.destructing = false) (hr : s.children w = some r) :
    Step s (s.set w (some r.cancel))
  | client {w : ℕ} {r : Runner} (hr : s.children w = some r) (more : List RecvResult)
    (reads : List SelectResult) : Step s (s.set w (some (r.receive more reads)))
  | goodbye : Step s { s with destructing := true }

/-- The states of the daemon. -/
def Reachable (s : State) : Prop := Relation.ReflTransGen Step .init s

/-- By steps that need no client some worker comes nearer to the end of `run`, unless the process dies. -/
def State.MovesOn (s : State) (around : WorkerTurn) : Prop :=
  ∃ s', Relation.ReflTransGen (Own around) s s' ∧ (s.Nearer s' ∨ s'.Crashed)

/-- Some worker can come nearer to the end of `run` without anything more from its client, whatever else
the turns find. -/
def State.CanMove (s : State) : Prop := ∀ around, s.MovesOn around

/-- The worker waits for its client, or is in a load that does not end, or cannot be collected: it stands in
`select` with nothing to read, in the last flush with a client that does not read, in a load over a dataset without
an end, or at the end of a thread that the library still finds. -/
def Runner.Waits (r : Runner) : Prop :=
  match r.place with
  | .selecting => r.wd.io.script ++ r.arrived = []
  | .operating t => r.wd.LoadsEndlessly t
  | .flushing => (r.wd.io.flushBufferBlock r.selects).1 = none
  | .finished => Threads.isAliveEnded = true
  | _ => False

/-! ## What the reachable states have in common -/

section Running

variable {around : WorkerTurn} {s s' : State} {r r' : Runner}

/-- A thread that stands in an operation has come there. -/
def Runner.Running (r : Runner) : Prop :=
  ∀ t, r.place = .operating t → r.wd.selectLoop t = .running

omit [Threads] in
theorem Runner.running_of_ne (h : ∀ t, r.place ≠ .operating t) : r.Running :=
  fun t ht => absurd ht (h t)

omit [Threads] in
theorem Runner.after_running (r : Runner) (t : WorkerTurn) : (r.after t).Running := by
  intro t' ht'
  unfold Runner.after at ht' ⊢
  cases hout : r.wd.selectLoop t with
  | running =>
    rw [hout] at ht'
    obtain rfl : t = t' := Place.operating.inj ht'
    exact hout
  | crashed e =>
    rw [hout] at ht'
    cases ht'
  | returned out =>
    rw [hout] at ht'
    obtain ⟨b, wd, md⟩ := out
    cases b <;> cases ht'

omit [Threads] in
theorem Runner.Moves.running (h : r.Moves around r') : r'.Running := by
  cases h with
  | turn t => exact Runner.after_running _ _
  | serve t => exact Runner.after_running _ _
  | flush => exact Runner.running_of_ne fun _ h => Place.noConfusion h
  | unregister => exact Runner.running_of_ne fun _ h => Place.noConfusion h
  | drop => exact Runner.running_of_ne fun _ h => Place.noConfusion h

omit [Threads] in
theorem Runner.Running.cancel (h : r.Running) : r.cancel.Running := by
  intro t ht
  rw [Runner.cancel_place] at ht
  rw [Runner.cancel_of_operating ht]
  exact h t ht

theorem Reachable.running (h : Reachable s) : ∀ w r, s.children w = some r → r.Running := by
  induction h with
  | refl => exact fun w r hr => by cases hr
  | tail _ hstep ih =>
    cases hstep with
    | own around hown =>
      cases hown with
      | thread hr hmoves => exact State.forall_set ih fun _ h => Option.some.inj h ▸ hmoves.running
      | cancel _ hr => exact State.forall_set ih fun _ h => Option.some.inj h ▸ (ih _ _ hr).cancel
      | collect hr => exact State.forall_set ih fun _ h => by cases h
    | accept =>
      exact State.forall_set ih fun _ h => Option.some.inj h ▸
        Runner.running_of_ne fun _ h => Place.noConfusion h
    | control _ hr => exact State.forall_set ih fun _ h => Option.some.inj h ▸ (ih _ _ hr).cancel
    | client hr more reads =>
      exact State.forall_set ih fun _ h => Option.some.inj h ▸ fun t ht => ih _ _ hr t ht
    | goodbye => exact ih

end Running

/-! ## The destructor can go on -/

section Progress

variable {around : WorkerTurn} {s s' : State} {w : ℕ} {r r' : Runner} {t : WorkerTurn}

omit [Threads] in
/-- A turn that comes to the input takes some of it, ends the loop, or comes to an operation. -/
theorem Runner.after_lt {wd₁ : WorkerDispatch} (hplace : r.place = .selecting)
    (harrived : t.arrived = r.arrived) (hpoll : r.wd.poll t = (.input, wd₁))
    (hscript : r.wd.io.script ++ r.arrived ≠ []) :
    (∃ e, ({ r with arrived := [] }.after t).place = .dead e) ∨
      ({ r with arrived := [] }.after t).rank < r.rank := by
  unfold Runner.after
  dsimp only
  cases hout : r.wd.selectLoop t with
  | running =>
    refine .inr (Prod.Lex.toLex_lt_toLex.mpr (.inr ⟨?_, Prod.Lex.toLex_lt_toLex.mpr (.inr ⟨?_, ?_⟩)⟩))
    · rw [hplace]
      rfl
    · rw [hplace]
      simp [Place.arrived, harrived]
    · rw [hplace]
      exact Nat.zero_lt_one
  | crashed e => exact .inl ⟨e, rfl⟩
  | returned out =>
    obtain ⟨b, wd', md'⟩ := out
    refine .inr ?_
    cases b with
    | false =>
      refine Runner.rank_lt_of_stage ?_
      rw [hplace]
      exact Nat.lt_succ_self 3
    | true =>
      have hlt := WorkerDispatch.selectLoop_lt hout hpoll (harrived ▸ hscript)
      refine Runner.rank_lt_of_input (by rw [hplace]) ?_
      rw [hplace]
      simpa [Place.arrived, harrived, IOProtoHandler.deliver] using hlt

omit [Threads] in
/-- A step of an operation: the worker is still in it, it is nearer to the end, or the process has died. -/
theorem Runner.serve_cases (hplace : r.place = .operating t) (hrunning : r.wd.selectLoop t = .running)
    (n : ℕ) (sched : ℕ → Bool) :
    (r.wd.selectLoop (t.along n sched) = .running ∧
      r.after (t.along n sched) = { r with place := .operating (t.along n sched) }) ∨
    (r.after (t.along n sched)).rank < r.rank ∨ ∃ e, (r.after (t.along n sched)).place = .dead e := by
  unfold Runner.after
  cases hout : r.wd.selectLoop (t.along n sched) with
  | running => exact .inl ⟨rfl, rfl⟩
  | crashed e => exact .inr (.inr ⟨e, rfl⟩)
  | returned out =>
    obtain ⟨b, wd', md'⟩ := out
    obtain ⟨rfl, hlt⟩ := WorkerDispatch.operation_returned hrunning hout
    refine .inr (.inl (Runner.rank_lt_of_input (by rw [hplace]; rfl) ?_))
    rw [hplace]
    have hmore := IOProtoHandler.deliver_lt hlt r.arrived
    simpa [Place.arrived, IOProtoHandler.deliver] using hmore

/-- The schedule on which every step from now on is cancelled. -/
def alwaysCancelled (t : WorkerTurn) (i : ℕ) : Bool := if i < t.steps then t.env.sched i else true

/-- `n` more steps of an operation, each behind a round of the destructor: it has ended before, or it has
made them all. -/
theorem serve_run (hdestructing : s.destructing = true) (hr : s.children w = some r)
    (hplace : r.place = .operating t) (hrunning : r.wd.selectLoop t = .running) (n : ℕ) :
    s.MovesOn around ∨
    ∃ s' sched c, Relation.ReflTransGen (Own around) s s' ∧ s'.destructing = true ∧
      (∀ i < t.steps + n, sched i = alwaysCancelled t i) ∧
      s'.children w =
        some { r with place := .operating (t.along (t.steps + n) sched), cancelled := c } ∧
      r.wd.selectLoop (t.along (t.steps + n) sched) = .running := by
  induction n with
  | zero =>
    refine .inr ⟨s, t.env.sched, r.cancelled, .refl, hdestructing, fun i hi => ?_, ?_, hrunning⟩
    · exact (if_pos hi).symm
    · rw [hr]
      exact congrArg some (congrArg (fun p => { r with place := p }) hplace)
  | succ n ih =>
    rcases ih with hdone | ⟨s₁, sched, c, hown, hdestr, hsched, hr₁, hrunning₁⟩
    · exact .inl hdone
    let r₁ : Runner := { r with place := .operating (t.along (t.steps + n) sched), cancelled := true }
    let sched' : ℕ → Bool := fun i => if i = t.steps + n then true else sched i
    have hcancel : Own around s₁ (s₁.set w (some r₁)) := .cancel hdestr hr₁
    have hserve : Own around (s₁.set w (some r₁)) ((s₁.set w (some r₁)).set w
        (some (({ r₁ with cancelled := false } : Runner).after (t.along (t.steps + (n + 1)) sched')))) :=
      .thread (State.set_self s₁ w _) (.serve (t.along (t.steps + n) sched) rfl)
    have hown' := (hown.tail hcancel).tail hserve
    have hrank : ({ r₁ with cancelled := false } : Runner).rank = r.rank := by
      unfold Runner.rank
      rw [hplace]
      rfl
    rcases Runner.serve_cases (r := { r₁ with cancelled := false }) rfl hrunning₁
      (t.steps + (n + 1)) sched' with ⟨hrunning', hafter⟩ | hlt | ⟨e, he⟩
    · refine .inr ⟨_, sched', false, hown', hdestr, fun i hi => ?_, ?_, hrunning'⟩
      · by_cases hlast : i = t.steps + n
        · rw [hlast]
          exact (if_pos rfl).trans (if_neg (Nat.not_lt.mpr (Nat.le_add_right _ _))).symm
        · exact (if_neg hlast).trans (hsched i (by omega))
      · exact (State.set_self _ w _).trans (congrArg some hafter)
    · rw [hrank] at hlt
      exact .inl ⟨_, hown', .inl ⟨w, r, hr, .inr ⟨_, State.set_self _ w _, hlt⟩⟩⟩
    · exact .inl ⟨_, hown', .inr ⟨w, _, e, State.set_self _ w _, he⟩⟩

/-- An operation that does not load a dataset without an end comes to its end. -/
theorem serve_ends (hdestructing : s.destructing = true) (hr : s.children w = some r)
    (hplace : r.place = .operating t) (hrunning : r.wd.selectLoop t = .running)
    (hload : ¬ r.wd.LoadsEndlessly t) : s.MovesOn around := by
  have hrec : ∀ n, ∃ m ≥ n, alwaysCancelled t m = true := fun n =>
    ⟨n + t.steps, Nat.le_add_right _ _, if_neg (Nat.not_lt.mpr (Nat.le_add_left _ _))⟩
  obtain ⟨n, hn⟩ := WorkerDispatch.operation_ends hrunning hload hrec
  have hrun : s.MovesOn around ∨ _ := serve_run hdestructing hr hplace hrunning n
  rcases hrun with hdone | ⟨s', sched, c, -, -, hsched, -, hstill⟩
  · exact hdone
  · rw [WorkerDispatch.selectLoop_congr hrunning hsched] at hstill
    exact absurd hstill (hn _ (Nat.le_add_left _ _))

/-- A single step of the thread of a worker. -/
theorem movesOn_of_moves (hr : s.children w = some r) (hmoves : r.Moves around r')
    (h : r'.rank < r.rank ∨ ∃ e, r'.place = .dead e) : s.MovesOn around := by
  refine ⟨s.set w (some r'), .single (.thread hr hmoves), ?_⟩
  rcases h with hlt | ⟨e, he⟩
  · exact .inl ⟨w, r, hr, .inr ⟨r', State.set_self s w _, hlt⟩⟩
  · exact .inr ⟨w, r', e, State.set_self s w _, he⟩

/-- **The destructor is not stuck** as long as one of the workers that are left does not wait for its client,
is not in a load over a dataset without an end, and has not ended in a thread that is found alive. -/
theorem Reachable.canMove (h : Reachable s) (hdestructing : s.destructing = true)
    (hr : s.children w = some r) (hwaits : ¬ r.Waits) : s.CanMove := by
  intro around
  unfold Runner.Waits at hwaits
  cases hplace : r.place with
  | selecting =>
    rw [hplace] at hwaits
    let t : WorkerTurn := { around with
      selv := .ready 1, exc := false, writable := false, readable := true, arrived := r.arrived, steps := 0 }
    have hreturns : r.Returns around t :=
      ⟨rfl, rfl, rfl, rfl, rfl, .inr ⟨0, rfl⟩, rfl, fun _ => hwaits⟩
    have hpoll : r.wd.poll t = (.input, { r.wd with io := r.wd.io.deliver r.arrived }) := by
      simp [WorkerDispatch.poll, t]
    refine movesOn_of_moves hr (.turn t hplace hreturns) ?_
    exact (Runner.after_lt hplace rfl hpoll hwaits).symm
  | operating t =>
    rw [hplace] at hwaits
    exact serve_ends hdestructing hr hplace (h.running w r hr t hplace) hwaits
  | flushing =>
    rw [hplace] at hwaits
    cases hflush : r.wd.io.flushBufferBlock r.selects with
    | mk rv io =>
      cases rv with
      | none =>
        dsimp only at hwaits
        rw [hflush] at hwaits
        exact absurd rfl hwaits
      | some rv =>
        refine movesOn_of_moves hr (.flush rv io hplace hflush) (.inl (Runner.rank_lt_of_stage ?_))
        rw [hplace]
        exact Nat.lt_succ_self 2
  | unregistering =>
    refine movesOn_of_moves hr (.unregister hplace) (.inl (Runner.rank_lt_of_stage ?_))
    rw [hplace]
    exact Nat.lt_succ_self 1
  | dropping =>
    refine movesOn_of_moves hr (.drop hplace) (.inl (Runner.rank_lt_of_stage ?_))
    rw [hplace]
    exact Nat.lt_succ_self 0
  | finished =>
    rw [hplace] at hwaits
    have halive : Threads.isAliveEnded = false := Bool.eq_false_iff.mpr hwaits
    exact ⟨s.set w none, .single (.collect hr hplace halive), .inl ⟨w, r, hr, .inl (State.set_self s w _)⟩⟩
  | dead e => exact ⟨s, .refl, .inr ⟨w, r, e, hr, hplace⟩⟩

omit [Threads] in
theorem Runner.Idle.moves (h : r.Idle) (hmoves : r.Moves around r') : r'.Idle ∧ r'.rank = r.rank := by
  cases hmoves with
  | turn t hplace hreturns =>
    have hturn : r.wd.selectLoop t =
        .returned (true, { r.wd with io := r.wd.io.deliver t.arrived }, t.md) := by
      unfold WorkerDispatch.selectLoop
      rw [h.poll hreturns]
    have hnone : t.arrived = [] := hreturns.arrived.trans h.arrived
    have hafter : ({ r with arrived := [] } : Runner).after t = r := by
      have hdeliver : r.wd.io.deliver [] = r.wd.io := by
        unfold IOProtoHandler.deliver
        rw [List.append_nil]
      unfold Runner.after
      rw [hturn, hnone, hdeliver]
      obtain ⟨wd, place, arrived, selects, cancelled⟩ := r
      obtain rfl : place = .selecting := hplace
      obtain rfl : arrived = [] := h.arrived
      rfl
    rw [hafter]
    exact ⟨h, rfl⟩
  | serve t hplace => cases h.place.symm.trans hplace
  | flush rv io hplace => cases h.place.symm.trans hplace
  | unregister hplace => cases h.place.symm.trans hplace
  | drop hplace => cases h.place.symm.trans hplace

theorem State.IdleSince.own {s'' : State} (h : s.IdleSince s') (hown : Own around s' s'') :
    s.IdleSince s'' := by
  cases hown with
  | thread hr hmoves =>
    obtain ⟨r₀, hr₀, hidle, hrank⟩ := h.worker hr
    obtain ⟨hidle', hrank'⟩ := hidle.moves hmoves
    refine h.set ?_
    rw [hr₀]
    exact .some ⟨hidle', hrank'.trans hrank⟩
  | cancel _ hr =>
    obtain ⟨r₀, hr₀, hidle, hrank⟩ := h.worker hr
    obtain ⟨hidle', hrank'⟩ := hidle.cancel
    refine h.set ?_
    rw [hr₀]
    exact .some ⟨hidle', hrank'.trans hrank⟩
  | collect hr hplace =>
    obtain ⟨-, -, hidle, -⟩ := h.worker hr
    cases hidle.place.symm.trans hplace

/-- When all the workers that are left are idle, nothing the daemon does brings one of them nearer to the
end of `run`. -/
theorem not_canMove_of_idle (around : WorkerTurn) (h : ∀ w r, s.children w = some r → r.Idle) :
    ¬ s.CanMove := by
  intro hmove
  obtain ⟨s', hown, hend⟩ := hmove around
  have hstart : s.IdleSince s := by
    intro w
    cases hr : s.children w with
    | none => exact .none
    | some r => exact .some ⟨h w r hr, rfl⟩
  have hidle : s.IdleSince s' := by
    clear hend
    induction hown with
    | refl => exact hstart
    | tail _ hstep ih => exact ih.own hstep
  rcases hend with ⟨w, r, hr, hnone | ⟨r', hr', hlt⟩⟩ | ⟨w, r', e, hr', hdead⟩
  · have hw := hidle w
    rw [hr, hnone] at hw
    cases hw
  · obtain ⟨r₀, hr₀, -, hrank⟩ := hidle.worker hr'
    obtain rfl := Option.some.inj (hr.symm.trans hr₀)
    exact hlt.ne hrank
  · obtain ⟨-, -, hplace, -⟩ := hidle.worker hr'
    cases hplace.place.symm.trans hdead

end Progress

end Steps

section Examples

/-- A worker is started. -/
def started : State := { State.init.set 0 (some (.new 0)) with next := 1 }

/-- What its client sends arrives, and then the GOODBYE. -/
def oneWorker (arrived : List RecvResult) : State :=
  { started.set 0 (some ((Runner.new 0).receive arrived [])) with destructing := true }

theorem oneWorker_reachable [JsonAccess] [JsonReader] [JsonWriter] [Threads] (arrived : List RecvResult) :
    Reachable (oneWorker arrived) := by
  have haccept : Step .init started := .accept rfl
  have hr : started.children 0 = some (.new 0) := rfl
  have hclient := Step.client hr arrived []
  exact ((Relation.ReflTransGen.refl.tail haccept).tail hclient).tail .goodbye

theorem oneWorker_zero (arrived : List RecvResult) :
    (oneWorker arrived).children 0 = some ((Runner.new 0).receive arrived []) :=
  State.set_self started 0 _

/-- A client that has closed its connection. -/
theorem canMove_closed :
    letI := JsonAccess.plain
    letI := exampleReader
    letI := JsonWriter.compact
    letI := Threads.plain
    (oneWorker [.eof]).CanMove := by
  let := JsonAccess.plain
  let := exampleReader
  let := JsonWriter.compact
  let := Threads.plain
  exact (oneWorker_reachable [.eof]).canMove rfl (oneWorker_zero _) (List.cons_ne_nil _ _)

/-- A client that keeps its connection and sends nothing: the worker stays in its `select`, which does not
see the flag, and the destructor in its loop. -/
theorem idle_not_canMove :
    letI := JsonAccess.plain
    letI := exampleReader
    letI := JsonWriter.compact
    letI := Threads.plain
    Reachable (oneWorker []) ∧ (oneWorker []).destructing = true ∧
      (∃ w r, (oneWorker []).children w = some r) ∧ ¬ (oneWorker []).CanMove := by
  let := JsonAccess.plain
  let := exampleReader
  let := JsonWriter.compact
  let := Threads.plain
  refine ⟨oneWorker_reachable [], rfl, ⟨0, _, oneWorker_zero []⟩, ?_⟩
  refine not_canMove_of_idle (exampleWorkerTurn 0) fun w r hr => ?_
  by_cases hw : w = 0
  · rw [hw, oneWorker_zero] at hr
    obtain rfl := Option.some.inj hr
    exact ⟨rfl, rfl, rfl, rfl⟩
  · have hnone : (oneWorker []).children w = none :=
      (State.set_ne started _ hw).trans (State.set_ne .init _ hw)
    cases hnone.symm.trans hr

end Examples

end Shutdown

end Sdkd
