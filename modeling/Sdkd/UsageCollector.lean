import Sdkd.ControlReplies

/-!
# The usage collectors

INFO and GETUSAGE each start a thread that collects usage data and turn the one pointer of the dispatcher
to it; GOODBYE stops and reports the collector of the pointer.

## Main results

- `singleCollector_iff` — when there is one collector at any time, and none behind GOODBYE
-/

namespace Sdkd

namespace MainDispatch

section Runs

variable [JsonWriter] [JsonAccess] {env : ControlEnv} {md md' : MainDispatch} {req : Request}
  {reqs : List Request} {b : Bool}

/-- The collectors whose threads are running. -/
def running (md : MainDispatch) : ℕ := md.collectors.count true

/-- A command that starts a collector. -/
def StartsCollector (req : Request) : Bool :=
  req.command.code = .info ∨ req.command.code = .getusage

/-- The pointer, the flag and the collectors are what they were. -/
structure SameCollectors (md md' : MainDispatch) : Prop where
  coll : md'.coll = md.coll
  isCollectingStats : md'.isCollectingStats = md.isCollectingStats
  collectors : md'.collectors = md.collectors

/-- What a command does with the collectors if the loop goes on. -/
theorem dispatchCommand_collectors (h : dispatchCommand env md req = .ok (true, md')) :
    if StartsCollector req then SameCollectors md.startCollector md' else SameCollectors md md' := by
  have hstarts : StartsCollector req = true ↔ req.command.code = .info ∨ req.command.code = .getusage :=
    decide_eq_true_iff
  obtain ⟨_, _, _, _, ⟨-, hno, -⟩ | ⟨-, -, rfl⟩⟩ := dispatchCommand_cases h
  · cases hno
  · by_cases hcode : req.command.code = .info ∨ req.command.code = .getusage
    · rw [if_pos (hstarts.mpr hcode), if_pos hcode]
      exact ⟨rfl, rfl, rfl⟩
    · rw [if_neg (mt hstarts.mp hcode), if_neg hcode]
      exact ⟨rfl, rfl, rfl⟩

/-- The commands are dispatched one after another, and the loop goes on behind each. -/
def Dispatches (env : ControlEnv) : MainDispatch → List Request → MainDispatch → Prop
  | md, [], md' => md' = md
  | md, req :: reqs, md' =>
    ∃ md₁, dispatchCommand env md req = .ok (true, md₁) ∧ Dispatches env md₁ reqs md'

/-- At most one collector is running, and a GOODBYE that reports one has stopped the only one there
was. -/
structure SingleCollector (env : ControlEnv) (md : MainDispatch) : Prop where
  single : md.running ≤ 1
  goodbye : ∀ req b md', req.command.code = .goodbye → dispatchCommand env md req = .ok (b, md') →
    md.isCollectingStats = true →
    md.running = 1 ∧ (∃ i, md.coll = some i ∧ md.collectors[i]? = some true) ∧ md'.running = 0

/-- `n` collectors were started, which are all running, and the pointer is on the last of them. -/
structure Started (n : ℕ) (md : MainDispatch) : Prop where
  collectors : md.collectors = List.replicate n true
  isCollectingStats : md.isCollectingStats = true ↔ 0 < n
  coll : 0 < n → md.coll = some (n - 1)

omit [JsonWriter] [JsonAccess] in
theorem started_new (script : List RecvResult) : Started 0 (.new script) where
  collectors := rfl
  isCollectingStats := by simp [new]
  coll := fun h => absurd h (Nat.lt_irrefl 0)

omit [JsonWriter] [JsonAccess] in
theorem Started.same {n : ℕ} (h : Started n md) (hsame : SameCollectors md md') : Started n md' where
  collectors := by rw [hsame.collectors, h.collectors]
  isCollectingStats := by rw [hsame.isCollectingStats, h.isCollectingStats]
  coll := fun hn => by rw [hsame.coll, h.coll hn]

omit [JsonWriter] [JsonAccess] in
theorem Started.startCollector {n : ℕ} (h : Started n md) : Started (n + 1) md.startCollector where
  collectors := by
    show md.collectors ++ [true] = List.replicate (n + 1) true
    rw [h.collectors, List.replicate_succ']
  isCollectingStats := ⟨fun _ => Nat.succ_pos n, fun _ => rfl⟩
  coll := fun _ => by
    show some md.collectors.length = some (n + 1 - 1)
    rw [h.collectors, List.length_replicate, Nat.add_sub_cancel]

/-- The step: one collector more with each command that starts one. -/
theorem Started.dispatchCommand {n : ℕ} (h : Started n md)
    (hdispatch : dispatchCommand env md req = .ok (true, md')) :
    Started (n + if StartsCollector req then 1 else 0) md' := by
  have hsame := dispatchCommand_collectors hdispatch
  by_cases hstarts : StartsCollector req = true
  · rw [if_pos hstarts] at hsame ⊢
    exact h.startCollector.same hsame
  · rw [if_neg hstarts] at hsame ⊢
    exact h.same hsame

/-- The run: as many collectors as commands that start one. -/
theorem Started.dispatches {n : ℕ} (h : Started n md) (hrun : Dispatches env md reqs md') :
    Started (n + reqs.countP StartsCollector) md' := by
  induction reqs generalizing n md with
  | nil =>
    cases hrun
    exact h
  | cons req reqs ih =>
    obtain ⟨md₁, hdispatch, hrest⟩ := hrun
    have hstep := ih (h.dispatchCommand hdispatch) hrest
    rw [List.countP_cons]
    convert hstep using 1
    omega

omit [JsonWriter] [JsonAccess] in
theorem Started.running_eq {n : ℕ} (h : Started n md) : md.running = n := by
  rw [running, h.collectors, List.count_replicate_self]

/-- With `n` collectors started there is a single one, and none behind GOODBYE, exactly when `n` is at
most one. -/
theorem Started.single_iff {n : ℕ} (h : Started n md) : SingleCollector env md ↔ n ≤ 1 := by
  constructor
  · intro hsingle
    rw [← h.running_eq]
    exact hsingle.single
  · intro hn
    refine ⟨h.running_eq.trans_le hn, fun req b md' hcode hdispatch hcollecting => ?_⟩
    obtain rfl : n = 1 := le_antisymm hn (h.isCollectingStats.mp hcollecting)
    have hcoll := h.coll Nat.one_pos
    refine ⟨h.running_eq, ⟨0, hcoll, by rw [h.collectors]; rfl⟩, ?_⟩
    obtain ⟨_, _, _, _, ⟨-, -, rfl⟩ | ⟨hno, -⟩⟩ := dispatchCommand_cases hdispatch
    swap
    · exact absurd hcode hno
    rw [if_pos hcollecting]
    show (md.coll.elim md.collectors fun i => md.collectors.set i false).count true = 0
    rw [hcoll, h.collectors]
    rfl

/-- **The usage collector.** In a sequence of commands there is a single collector at any time, and none
behind GOODBYE, if and only if at most one of them is an INFO or a GETUSAGE. -/
theorem singleCollector_iff {script : List RecvResult} (hrun : Dispatches env (.new script) reqs md) :
    (∀ reqs₁ md₁, reqs₁ <+: reqs → Dispatches env (.new script) reqs₁ md₁ →
      SingleCollector env md₁) ↔ reqs.countP StartsCollector ≤ 1 := by
  have hstarted : ∀ {reqs md}, Dispatches env (.new script) reqs md →
      Started (reqs.countP StartsCollector) md := by
    intro reqs md hrun
    have h := (started_new script).dispatches hrun
    rwa [Nat.zero_add] at h
  constructor
  · exact fun hall => (hstarted hrun).single_iff.mp (hall reqs md (List.prefix_refl _) hrun)
  · intro hcount reqs₁ md₁ hprefix hrun₁
    have hle : reqs₁.countP StartsCollector ≤ reqs.countP StartsCollector :=
      hprefix.sublist.countP_le
    exact (hstarted hrun₁).single_iff.mpr (hle.trans hcount)

end Runs

section Examples

/-- An INFO and a GETUSAGE. -/
def exampleUsage : List Request :=
  [exampleCommand .info (.object []), exampleCommand .getusage (.object [])]

theorem singleCollector_iff_usage :
    letI := JsonAccess.plain
    letI := JsonWriter.compact
    (∀ reqs₁ md₁, reqs₁ <+: exampleUsage → Dispatches exampleEnv (.new []) reqs₁ md₁ →
      SingleCollector exampleEnv md₁) ↔ exampleUsage.countP StartsCollector ≤ 1 := by
  let := JsonAccess.plain
  let := JsonWriter.compact
  obtain ⟨md, hrun⟩ : ∃ md, Dispatches exampleEnv (.new []) exampleUsage md :=
    ⟨_, _, rfl, _, rfl, rfl⟩
  exact singleCollector_iff hrun

/-- Behind INFO and GETUSAGE two collectors are running, and behind GOODBYE still one of them. -/
theorem not_singleCollector :
    letI := JsonAccess.plain
    letI := JsonWriter.compact
    ∃ md md', Dispatches exampleEnv (.new []) exampleUsage md ∧
      md.collectors = [true, true] ∧
      dispatchCommand exampleEnv md (exampleCommand .goodbye (.object [])) = .ok (false, md') ∧
      md'.collectors = [true, false] ∧ ¬ SingleCollector exampleEnv md := by
  let := JsonAccess.plain
  let := JsonWriter.compact
  refine ⟨_, _, ⟨_, rfl, _, rfl, rfl⟩, rfl, rfl, rfl, ?_⟩
  intro h
  exact absurd h.single (by decide)

end Examples

end MainDispatch

end Sdkd
