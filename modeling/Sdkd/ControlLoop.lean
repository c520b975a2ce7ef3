import Sdkd.Backlog

/-!
# The loop of the control connection

When `loopOnce` ends the loop, and what it does with the requests it reads. After a `select` that fails
the code goes on to look at the sets it has passed; after a line that is no request it goes on with a
pointer to a request that has been deleted.

## Main definitions

- `ControlRun` — a run of the loop of `MainDispatch::run`
- `Justified` — the loop ends for a real reason, and an interruption is none
- `handleInput` — the part of `loopOnce` behind the bit of the input, with what happens to the `Request`

## Main results

- `controlLoop_justified_iff` — exactly if no `select` is interrupted
- `controlLoop_requestsSound_iff` — requests are handled soundly exactly if all lines are valid requests
-/

namespace Sdkd

open IOProtoHandler

/-- The bits of the descriptor sets. -/
structure FdSets where
  acceptExc : Bool
  exc : Bool
  writable : Bool
  acceptReadable : Bool
  readable : Bool
  deriving DecidableEq

/-- The bits `loopOnce` looks at behind its `select`. -/
def ControlTurn.fdSets (t : ControlTurn) : FdSets :=
  ⟨t.acceptExc, t.exc, t.writable, t.acceptReadable, t.readable⟩

namespace MainDispatch

/-- The sets `loopOnce` passes: those of `setupFdSets`, and the listening socket. -/
def setupFdSets (md : MainDispatch) : FdSets := ⟨true, true, md.io.outbuf ≠ [], true, true⟩

/-- A `select` that fails leaves the sets as they were passed in. -/
def LeavesSets (md : MainDispatch) (t : ControlTurn) : Prop :=
  ∀ e, t.selv = .error e → t.fdSets = md.setupFdSets

section Turns

variable [JsonAccess] [JsonReader] [JsonWriter] {md md' : MainDispatch} {t : ControlTurn}

/-- A run of the loop: turn `k` starts in the state `s k`, and the turns before turn `n` let it go on.
Between two turns the workers may change the shared state, but not the control socket. -/
structure ControlRun (script : List RecvResult) (n : ℕ) (s : ℕ → MainDispatch) (t : ℕ → ControlTurn) :
    Prop where
  start : s 0 = .new script
  sets : ∀ k ≤ n, (s k).LeavesSets (t k)
  turn : ∀ k < n, ∃ md, (s k).loopOnce (t k) = .returned (true, md) ∧ (s (k + 1)).io = md.io

/-! ## The end of the loop -/

/-- What is behind a turn whose `select` succeeds and that ends the loop: an exceptional condition, a
failed write, a failed accept, the end of the stream or an error, or a GOODBYE. -/
inductive EndReason (md : MainDispatch) (t : ControlTurn) : Prop
  | exceptional (h : t.acceptExc ∨ t.exc)
  | write (hset : t.writable)
      (h : ((md.io.deliver t.arrived).flushBufferBlock t.selects).1 = some (-1))
  | accept (hset : t.acceptReadable) (h : t.accepted = false)
  | read (hset : t.readable) (h : ((md.poll t).2.io.readRequest t.junk).1 = .err)
  | goodbye (req : Request) (hset : t.readable)
      (h : ((md.poll t).2.io.readRequest t.junk).1 = .ok req) (hcode : req.command.code = .goodbye)

/-- A turn that ends the loop has a reason: an error of `select` other than an interruption, or one
behind a `select` that succeeds. An interruption changes nothing, and the loop goes on. -/
structure Justified (md : MainDispatch) (t : ControlTurn) : Prop where
  ended : ∀ md', md.loopOnce t = .returned (false, md') →
    t.selv.failed = true ∨ (∃ n, t.selv = .ready n) ∧ EndReason md t
  interrupted : t.selv = .error .eintr →
    md.loopOnce t = .returned (true, { md with io := md.io.deliver t.arrived })

/-- Behind an interruption the bit of the listening socket is still among the exceptional ones. -/
theorem loopOnce_interrupted (hsets : md.LeavesSets t) (hsel : t.selv = .error .eintr) :
    md.loopOnce t = .returned (false, { md with io := md.io.deliver t.arrived }) := by
  have hexc : t.acceptExc = true := congrArg FdSets.acceptExc (hsets _ hsel)
  have hpoll : md.poll t = (.stop, { md with io := md.io.deliver t.arrived }) := by
    unfold poll
    dsimp only
    rw [if_pos (.inr (.inl hexc))]
  unfold loopOnce
  rw [hpoll]

omit [JsonReader] in
/-- A dispatched command ends the loop only if it is a GOODBYE. -/
theorem dispatchCommand_false {env : ControlEnv} {req : Request}
    (h : dispatchCommand env md req = .ok (false, md')) : req.command.code = .goodbye := by
  obtain ⟨_, _, _, _, ⟨hcode, -, -⟩ | ⟨-, hno, -⟩⟩ := dispatchCommand_cases h
  · exact hcode
  · cases hno

omit [JsonAccess] [JsonReader] [JsonWriter] in
/-- Where a turn stands behind a `select` that succeeds. -/
theorem poll_cases (md : MainDispatch) {n : ℕ} (hsel : t.selv = .ready n) :
    (md.poll t).1 = .blocked ∨ ((md.poll t).1 = .stop ∧
      (t.acceptExc ∨ t.exc ∨ (t.writable ∧
        ((md.io.deliver t.arrived).flushBufferBlock t.selects).1 = some (-1)) ∨
        t.acceptReadable ∧ t.accepted = false)) ∨
    (md.poll t).1 = .idle ∨ ((md.poll t).1 = .input ∧ t.readable) := by
  have hfailed : t.selv.failed = false := by rw [hsel]; rfl
  unfold poll
  dsimp only
  by_cases hexc : t.acceptExc ∨ t.exc
  · rw [if_pos (.inr hexc)]
    exact .inr (.inl ⟨rfl, hexc.imp_right .inl⟩)
  rw [if_neg (by simpa [hfailed] using hexc)]
  split
  · exact .inl rfl
  · next rv hrv =>
    by_cases hstop : rv = -1 ∨ t.acceptReadable ∧ ¬ t.accepted
    · rw [if_pos hstop]
      refine .inr (.inl ⟨rfl, .inr (.inr ?_)⟩)
      rcases hstop with rfl | ⟨haccept, hno⟩
      · by_cases hwritable : t.writable
        · rw [if_pos hwritable] at hrv
          exact .inl ⟨hwritable, hrv⟩
        · rw [if_neg hwritable] at hrv
          cases hrv
      · exact .inr ⟨haccept, Bool.eq_false_iff.mpr hno⟩
    · rw [if_neg hstop]
      by_cases hreadable : t.readable
      · rw [if_pos hreadable]
        exact .inr (.inr (.inr ⟨rfl, hreadable⟩))
      · rw [if_neg hreadable]
        exact .inr (.inr (.inl rfl))

/-- With a `select` that succeeds, the loop ends for a reason. -/
theorem endReason_of_loopOnce {n : ℕ} (hsel : t.selv = .ready n)
    (h : md.loopOnce t = .returned (false, md')) : EndReason md t := by
  have hcases := md.poll_cases hsel
  have hread : t.readable → ((md.poll t).2.io.readRequest t.junk).1 = .err → EndReason md t := .read
  have hbye : ∀ req, t.readable → ((md.poll t).2.io.readRequest t.junk).1 = .ok req →
      req.command.code = .goodbye → EndReason md t := .goodbye
  unfold loopOnce at h
  generalize md.poll t = polled at h hcases hread hbye
  obtain ⟨p, md₁⟩ := polled
  cases p with
  | blocked => cases h
  | idle => cases h
  | stop =>
    obtain hblocked | ⟨-, hacc | hexc | ⟨hwritable, hflush⟩ | ⟨haccept, hno⟩⟩ | hidle | ⟨hinput, -⟩ :=
      hcases
    · cases hblocked
    · exact .exceptional (.inl hacc)
    · exact .exceptional (.inr hexc)
    · exact .write hwritable hflush
    · exact .accept haccept hno
    · cases hidle
    · cases hinput
  | input =>
    have hreadable : t.readable = true := by
      obtain hblocked | ⟨hstop, -⟩ | hidle | ⟨-, hreadable⟩ := hcases
      · cases hblocked
      · cases hstop
      · cases hidle
      · exact hreadable
    dsimp only at h hread hbye
    generalize md₁.io.readRequest t.junk = out at h hread hbye
    obtain ⟨res, io⟩ := out
    cases res with
    | notyet => cases h
    | err => exact hread hreadable rfl
    | invalid => cases h
    | ok req =>
      dsimp only at h
      split at h
      · cases h
      · next hdispatch =>
        cases h
        exact hbye req hreadable rfl (dispatchCommand_false hdispatch)

/-- A turn is justified exactly if its `select` is not interrupted. -/
theorem justified_iff (hsets : md.LeavesSets t) : Justified md t ↔ t.selv ≠ .error .eintr := by
  constructor
  · intro h hsel
    have hgoes := h.interrupted hsel
    rw [loopOnce_interrupted hsets hsel] at hgoes
    cases hgoes
  · intro hsel
    refine ⟨fun md' h => ?_, fun hintr => absurd hintr hsel⟩
    cases hselv : t.selv with
    | error e =>
      have hne : e ≠ .eintr := fun he => hsel (hselv.trans (congrArg Selv.error he))
      exact .inl (decide_eq_true hne)
    | ready n => exact .inr ⟨⟨n, rfl⟩, endReason_of_loopOnce hselv h⟩

/-- **The end of the control loop.** In a run of the loop every turn ends it for a real reason only, and an
interruption changes nothing, if and only if no `select` of the run is interrupted. -/
theorem controlLoop_justified_iff {script : List RecvResult} {n : ℕ} {s : ℕ → MainDispatch}
    {t : ℕ → ControlTurn} (hrun : ControlRun script n s t) :
    (∀ k ≤ n, Justified (s k) (t k)) ↔ ∀ k ≤ n, (t k).selv ≠ .error .eintr :=
  forall₂_congr fun k hk => justified_iff (hrun.sets k hk)

/-! ## The requests -/

end Turns

/-- What happens to the `Request` that `readRequest` has made: it is created, an error reply is made from
it, `dispatchCommand` is called with it behind the return value `rv`, and it is deleted. -/
inductive RequestEvent where
  | created
  | refused
  | dispatched (rv : ℤ)
  | deleted
  deriving DecidableEq

/-- The pointer `reqp`: null, on a request, or on one that has been deleted. -/
inductive RequestPtr where
  | null
  | live (req : Request)
  | freed (req : Request)

section Requests

variable [JsonAccess] [JsonReader] [JsonWriter] {md md' : MainDispatch} {t : ControlTurn}

/-- `readRequest` with its return value, its out pointer, and what happens to the request. -/
def readRequestInto (io : IOProtoHandler) (junk : Message) :
    ℤ × RequestPtr × List RequestEvent × IOProtoHandler :=
  match io.getRawMessage with
  | (.notyet, io) => (0, .null, [], io)
  | (.err, io) => (-1, .null, [], io)
  | (.ok c cs, io) =>
    let req := Request.decode junk (String.ofList (c :: cs))
    if Request.isValid req then (1, .live req, [.created], io)
    else (-1, .freed req, [.created, .refused, .deleted], io.writeResponse (.ofRequest req req.err))

/-- `loopOnce` behind the bit of the input, with what happens to the request. What `dispatchCommand` finds
behind a pointer to a deleted request is undefined. -/
def handleInput (env : ControlEnv) (md : MainDispatch) (junk : Message) :
    List RequestEvent × WorkerDispatch.Outcome (Bool × MainDispatch) :=
  match readRequestInto md.io junk with
  | (rv, .null, events, io) => (events, .returned (rv ≠ -1, { md with io := io }))
  | (rv, .live req, events, io) =>
    match dispatchCommand env { md with io := io } req with
    | .error e => (events ++ [.dispatched rv], .crashed e)
    | .ok out => (events ++ [.dispatched rv, .deleted], .returned out)
  | (rv, .freed _, events, _) =>
    (events ++ [.dispatched rv, .deleted], .crashed .useAfterFree)

/-- A turn that comes to the input does what `handleInput` does. -/
theorem loopOnce_eq_handleInput (h : md.poll t = (.input, md')) :
    md.loopOnce t = (handleInput t.env md' t.junk).2 := by
  unfold loopOnce handleInput readRequestInto IOProtoHandler.readRequest
  rw [h]
  dsimp only
  generalize md'.io.getRawMessage = out
  obtain ⟨st, io⟩ := out
  cases st with
  | notyet => rfl
  | err => rfl
  | ok c cs =>
    dsimp only
    split_ifs
    · dsimp only
      generalize dispatchCommand _ _ _ = out
      cases out <;> rfl
    · rfl

/-- What happens in a turn to the request that it reads. -/
def requestEvents (md : MainDispatch) (t : ControlTurn) : List RequestEvent :=
  match md.poll t with
  | (.input, md) => (handleInput t.env md t.junk).1
  | _ => []

/-- A turn dispatches nothing but what `readRequest` has returned 1 for. A request it creates is deleted
once, as the last thing that happens to it, unless `dispatchCommand` ends the process. A line that is no
valid request has its error reply as the only effect. -/
structure RequestsSound (md : MainDispatch) (t : ControlTurn) : Prop where
  dispatched : ∀ rv, .dispatched rv ∈ md.requestEvents t → rv = 1
  deleted : .created ∈ md.requestEvents t →
    (∃ before, md.requestEvents t = before ++ [.deleted] ∧ .deleted ∉ before) ∨
    (∃ e, md.loopOnce t = .crashed e) ∧ .deleted ∉ md.requestEvents t
  refused : ∀ line, md.inputLine t = some line →
    ¬ Request.isValid (Request.decode t.junk (String.ofList line)) →
    ∃ b, md.loopOnce t = .returned (b, { (md.poll t).2 with
      io := (md.poll t).2.io.getRawMessage.2.writeResponse
        (.ofRequest (Request.decode t.junk (String.ofList line))
          (Request.decode t.junk (String.ofList line)).err) })

/-- A line that is a JSON value with a `CommandData`. -/
def ValidLine (line : List Char) : Prop :=
  ∃ json, JsonReader.parse (String.ofList line) = .ok json ∧ (json.get "CommandData").isNull = false

omit [JsonAccess] [JsonReader] [JsonWriter] in
/-- Where a line comes from. -/
theorem inputLine_eq_some {line : List Char} (h : md.inputLine t = some line) :
    ∃ md₁ c cs io, md.poll t = (.input, md₁) ∧ md₁.io.getRawMessage = (.ok c cs, io) ∧
      line = c :: cs := by
  unfold inputLine at h
  split at h
  · next md₁ hpoll =>
    cases hraw : md₁.io.getRawMessage with
    | mk st io =>
      rw [hraw] at h
      cases st with
      | notyet => cases h
      | err => cases h
      | ok c cs => exact ⟨md₁, c, cs, io, hpoll, hraw, (Option.some.inj h).symm⟩
  · cases h

/-- Without a line there is no request. -/
theorem requestEvents_none (h : md.inputLine t = none) : md.requestEvents t = [] := by
  unfold inputLine at h
  unfold requestEvents
  split
  · next md₁ hpoll =>
    rw [hpoll] at h
    dsimp only at h
    unfold handleInput readRequestInto
    generalize md₁.io.getRawMessage = out at h
    obtain ⟨st, io⟩ := out
    cases st with
    | notyet => rfl
    | err => rfl
    | ok c cs => cases h
  · rfl

/-- A valid request is dispatched, and then deleted if the process goes on. -/
theorem requestEvents_valid {line : List Char} (h : md.inputLine t = some line)
    (hvalid : Request.isValid (Request.decode t.junk (String.ofList line)) = true) :
    (md.requestEvents t = [.created, .dispatched 1, .deleted] ∨
      md.requestEvents t = [.created, .dispatched 1] ∧ ∃ e, md.loopOnce t = .crashed e) := by
  obtain ⟨md₁, c, cs, io, hpoll, hraw, rfl⟩ := inputLine_eq_some h
  rw [loopOnce_eq_handleInput hpoll]
  unfold requestEvents
  rw [hpoll]
  dsimp only
  unfold handleInput readRequestInto
  rw [hraw]
  dsimp only
  rw [if_pos hvalid]
  dsimp only
  generalize dispatchCommand _ _ _ = out
  cases out with
  | error e => exact .inr ⟨rfl, e, rfl⟩
  | ok out => exact .inl rfl

/-- Behind any other line `dispatchCommand` is called with a pointer to the deleted request. -/
theorem requestEvents_invalid {line : List Char} (h : md.inputLine t = some line)
    (hvalid : ¬ Request.isValid (Request.decode t.junk (String.ofList line)) = true) :
    md.requestEvents t = [.created, .refused, .deleted, .dispatched (-1), .deleted] ∧
      md.loopOnce t = .crashed .useAfterFree := by
  obtain ⟨md₁, c, cs, io, hpoll, hraw, rfl⟩ := inputLine_eq_some h
  rw [loopOnce_eq_handleInput hpoll]
  unfold requestEvents
  rw [hpoll]
  dsimp only
  unfold handleInput readRequestInto
  rw [hraw]
  dsimp only
  rw [if_neg hvalid]
  exact ⟨rfl, rfl⟩

/-- A turn handles its request soundly exactly if the line it takes is a valid request. -/
theorem requestsSound_iff :
    RequestsSound md t ↔ ∀ line, md.inputLine t = some line → ValidLine line := by
  constructor
  · intro h line hline
    by_contra hno
    have hvalid : ¬ Request.isValid (Request.decode t.junk (String.ofList line)) = true :=
      mt Request.isValid_decode_iff.mp hno
    have hrv := h.dispatched (-1) (by rw [(requestEvents_invalid hline hvalid).1]; simp)
    cases hrv
  · intro hall
    cases hline : md.inputLine t with
    | none =>
      have hevents := requestEvents_none hline
      exact ⟨by simp [hevents], by simp [hevents], by simp [hline]⟩
    | some line =>
      have hvalid : Request.isValid (Request.decode t.junk (String.ofList line)) = true :=
        Request.isValid_decode_iff.mpr (hall line hline)
      refine ⟨?_, ?_, ?_⟩
      · rcases requestEvents_valid hline hvalid with hevents | ⟨hevents, -⟩ <;> simp [hevents]
      · intro _
        rcases requestEvents_valid hline hvalid with hevents | ⟨hevents, hcrash⟩
        · exact .inl ⟨[.created, .dispatched 1], by rw [hevents]; rfl, by simp⟩
        · exact .inr ⟨hcrash, by simp [hevents]⟩
      · intro line' hline' hno
        obtain rfl : line = line' := Option.some.inj (hline.symm.trans hline')
        exact absurd hvalid hno

/-- **The requests of the control loop.** The lines the turns of a run take are, in order, lines received on
the control socket. Every turn dispatches valid requests only, deletes each request once and behind all
uses, and answers any other line with its error reply alone, if and only if every line that is taken is a
valid request. -/
theorem controlLoop_requestsSound_iff {script : List RecvResult} {n : ℕ} {s : ℕ → MainDispatch}
    {t : ℕ → ControlTurn} (hrun : ControlRun script n s t) :
    let line := fun k => (s k).inputLine (t k)
    (∀ k ≤ n, served line k ++ Lines.nonEmpty (s k).io.newlines = linesReceived (s k).io) ∧
    ((∀ k ≤ n, RequestsSound (s k) (t k)) ↔ ∀ l ∈ served line (n + 1), ValidLine l) := by
  intro line
  have hturns : IsRun MainDispatch.Turn (.new script) n s line := by
    refine ⟨hrun.start, fun k hk => ?_⟩
    obtain ⟨md₁, hloop, hio⟩ := hrun.turn k hk
    exact ⟨t k, md₁, hloop, rfl, hio⟩
  refine ⟨fun k hk => (hturns.serving rfl (fun _ _ _ => Turn.serves) k hk).lines, ?_⟩
  have hmem : ∀ l, l ∈ served line (n + 1) ↔ ∃ k ≤ n, line k = some l := by
    intro l
    simp only [served, List.mem_flatMap, List.mem_range, Nat.lt_succ_iff, Option.mem_toList]
  constructor
  · intro hall l hl
    obtain ⟨k, hk, hline⟩ := (hmem l).mp hl
    exact requestsSound_iff.mp (hall k hk) l hline
  · intro hall k hk
    exact requestsSound_iff.mpr fun l hl => hall l ((hmem l).mpr ⟨k, hk, hl⟩)

end Requests

section Examples

/-- A `select` that is interrupted, with the sets as `loopOnce` passes them while there is no output. -/
def interruptedTurn : ControlTurn :=
  { exampleControlTurn 0 with
    selv := .error .eintr, acceptExc := true, exc := true, acceptReadable := true, readable := true }

/-- A turn in which the line `x` arrives. -/
def garbageTurn : ControlTurn := { exampleControlTurn 0 with arrived := [.data 'x' ['\n']] }

section Runs

variable [JsonAccess] [JsonReader] [JsonWriter]

/-- The first turn of the loop. -/
theorem controlRun_first {t : ControlTurn} (h : (new []).LeavesSets t) :
    ControlRun [] 0 (fun _ => .new []) (fun _ => t) where
  start := rfl
  sets := fun _ _ => h
  turn := fun _ hk => absurd hk (Nat.not_lt_zero _)

end Runs

theorem interruptedTurn_sets : (new []).LeavesSets interruptedTurn := fun _ _ => rfl

theorem garbageTurn_sets : (new []).LeavesSets garbageTurn := by
  intro e he
  cases he

theorem controlLoop_justified_iff_interrupted :
    letI := JsonAccess.plain
    letI := JsonWriter.compact
    letI := exampleReader
    (∀ k ≤ 0, Justified (.new []) interruptedTurn) ↔ ∀ k ≤ 0, interruptedTurn.selv ≠ .error .eintr :=
  letI := JsonAccess.plain
  letI := JsonWriter.compact
  letI := exampleReader
  controlLoop_justified_iff (controlRun_first interruptedTurn_sets)

/-- A signal ends the control loop, where a worker goes on. -/
theorem interrupted_not_justified :
    letI := JsonAccess.plain
    letI := JsonWriter.compact
    letI := exampleReader
    ControlRun [] 0 (fun _ => .new []) (fun _ => interruptedTurn) ∧
    (new []).loopOnce interruptedTurn = .returned (false, .new []) ∧
    ¬ Justified (.new []) interruptedTurn ∧
    (WorkerDispatch.new 0 []).selectLoop { exampleWorkerTurn 0 with selv := .error .eintr } =
      .returned (true, .new 0 [], .new []) := by
  let := JsonAccess.plain
  let := JsonWriter.compact
  let := exampleReader
  have hloop : (new []).loopOnce interruptedTurn = .returned (false, .new []) :=
    loopOnce_interrupted interruptedTurn_sets rfl
  refine ⟨controlRun_first interruptedTurn_sets, hloop, fun h => ?_, rfl⟩
  have hgoes := h.interrupted rfl
  rw [hloop] at hgoes
  cases hgoes

/-- The input behind a line that is no request. -/
theorem garbageTurn_inputLine : (new []).inputLine garbageTurn = some ['x'] := by
  have hpoll : (new []).poll garbageTurn =
      (.input, { new [] with io := (fresh []).deliver [.data 'x' ['\n']] }) := rfl
  have hsplit : Lines.split '\n' ['x', '\n'] = ([['x']], []) := by decide
  unfold inputLine
  rw [hpoll]
  dsimp only
  rw [waiting_fresh.getRawMessage hsplit]
  rfl

theorem controlLoop_requestsSound_iff_garbage :
    letI := JsonAccess.plain
    letI := JsonWriter.compact
    letI := exampleReader
    (∀ k ≤ 0, RequestsSound (.new []) garbageTurn) ↔
      ∀ l ∈ served (fun _ => (new []).inputLine garbageTurn) (0 + 1), ValidLine l :=
  letI := JsonAccess.plain
  letI := JsonWriter.compact
  letI := exampleReader
  (controlLoop_requestsSound_iff (controlRun_first garbageTurn_sets)).2

/-- A line that does not parse: the request is answered, deleted, dispatched and deleted again. -/
theorem garbage_not_requestsSound :
    letI := JsonAccess.plain
    letI := JsonWriter.compact
    letI := exampleReader
    ControlRun [] 0 (fun _ => .new []) (fun _ => garbageTurn) ∧
    (new []).requestEvents garbageTurn =
      [.created, .refused, .deleted, .dispatched (-1), .deleted] ∧
    ¬ RequestsSound (.new []) garbageTurn := by
  let := JsonAccess.plain
  let := JsonWriter.compact
  let := exampleReader
  have hinvalid : ¬ Request.isValid (Request.decode garbageTurn.junk (String.ofList ['x'])) = true := by
    decide
  have hevents := (requestEvents_invalid garbageTurn_inputLine hinvalid).1
  refine ⟨controlRun_first garbageTurn_sets, hevents, fun h => ?_⟩
  have hrv := h.dispatched (-1) (by rw [hevents]; simp)
  cases hrv

end Examples

end MainDispatch

end Sdkd
