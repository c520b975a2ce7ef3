import Sdkd.Conversations
import Sdkd.Isolation

/-!
# The handle of a connection

A connection has no handle at first. The first NEWHANDLE that can open one gives it a handle, which no request
behind it changes or replaces, and which a CANCEL from the control thread may find between two turns.

## Main definitions

- `Connection.Step` — what a line does to a connection, and the reply to it
- `Connection.Told` — the replies to all lines so far
- `WorkerDispatch.HandleTurn` — a turn of the worker

## Main results

- `WorkerDispatch.selectLoop_step` — a turn is a step of the connection
- `WorkerDispatch.one_handle` — what runs of turns come to
-/

namespace Sdkd

section Lines

variable [JsonAccess] [JsonReader]

/-! ## Connections -/

/-- The options and the id of the handle a connection has, if it has one. -/
abbrev Connection := Option (HandleOptions × ℕ)

/-- The line is a NEWHANDLE for a handle with these options and this id. -/
def Opens (line : List Char) (c : HandleOptions × ℕ) : Prop :=
  ∃ junk before certfile, let req := Request.decode junk (String.ofList line)
    req.command.code = .newhandle ∧ HandleOptions.ofJson before certfile req.payload = .ok c.1 ∧
      c.1.isValid = true ∧ req.handleId = c.2

namespace Connection

/-- What a line does to a connection. A NEWHANDLE may fail and be told otherwise. -/
inductive Step : Connection → Option (List Char) → List Response → Connection → Prop
  | quiet (c : Connection) : Step c none [] c
  | refused {l : List Char} {res : Response} (c : Connection) (h : res.status ≠ 0) : Step c (some l) [res] c
  | failed {l : List Char} {res : Response} (h : res.command.code = .newhandle) :
      Step none (some l) [res] none
  | opened {l : List Char} {res : Response} {c : HandleOptions × ℕ} (h : Opens l c)
      (hcode : res.command.code = .newhandle) (hstatus : res.status = 0) (hhid : res.handleId = c.2) :
      Step none (some l) [res] (some c)
  | served {l : List Char} {res : Response} (c : HandleOptions × ℕ) (h : res.command.code ≠ .newhandle) :
      Step (some c) (some l) [res] (some c)

/-- The replies before there is a handle: errors, but for those to NEWHANDLE. -/
def Refusals (rs : List Response) : Prop := ∀ res ∈ rs, res.command.code = .newhandle ∨ res.status ≠ 0

/-- The replies behind the one that says there is a handle: errors for every other NEWHANDLE. -/
def Answers (rs : List Response) : Prop := ∀ res ∈ rs, res.command.code = .newhandle → res.status ≠ 0

/-- One of the lines has opened the handle, and the reply in its place says so. -/
def Opened (c : HandleOptions × ℕ) (ms : List (List Char)) (rs : List Response) : Prop :=
  ∃ ms₁ l ms₂ rs₁ res rs₂, ms = ms₁ ++ l :: ms₂ ∧ rs = rs₁ ++ res :: rs₂ ∧ ms₁.length = rs₁.length ∧
    Opens l c ∧ (res.command.code = .newhandle ∧ res.status = 0 ∧ res.handleId = c.2) ∧
    Refusals rs₁ ∧ Answers rs₂

/-- What the client of a connection has been told: `rs` are the replies to the lines `ms`. -/
structure Told (c : Connection) (ms : List (List Char)) (rs : List Response) : Prop where
  length : rs.length = ms.length
  refusals : c = none → Refusals rs
  opened : ∀ c', c = some c' → Opened c' ms rs

variable {c c' : Connection} {line : Option (List Char)} {ms : List (List Char)} {rs rs' : List Response}

theorem Step.length (h : Step c line rs c') : rs.length = line.toList.length := by
  cases h <;> rfl

/-- A handle is never given up. -/
theorem Step.keeps (h : Step c line rs c') {o : HandleOptions × ℕ} (hc : c = some o) : c' = some o := by
  cases h with
  | quiet => exact hc
  | refused => exact hc
  | failed => cases hc
  | opened => cases hc
  | served => exact hc

/-- A connection that stays without a handle is refused. -/
theorem Step.refuses (h : Step none line rs none) : Refusals rs := by
  cases h with
  | quiet => exact nofun
  | refused _ hstatus => exact fun res hres => .inr (List.mem_singleton.mp hres ▸ hstatus)
  | failed hcode => exact fun res hres => .inl (List.mem_singleton.mp hres ▸ hcode)

/-- A connection with a handle gets no other one. -/
theorem Step.answers {o : HandleOptions × ℕ} (h : Step (some o) line rs c') : Answers rs := by
  cases h with
  | quiet => exact nofun
  | refused _ hstatus => exact fun res hres _ => List.mem_singleton.mp hres ▸ hstatus
  | served _ hcode => exact fun res hres hnew => absurd (List.mem_singleton.mp hres ▸ hnew) hcode

theorem Opened.append {o : HandleOptions × ℕ} (h : Opened o ms rs) (hanswers : Answers rs')
    (ms' : List (List Char)) : Opened o (ms ++ ms') (rs ++ rs') := by
  obtain ⟨ms₁, l, ms₂, rs₁, res, rs₂, rfl, rfl, hlen, hopens, hres, hbefore, hafter⟩ := h
  refine ⟨ms₁, l, ms₂ ++ ms', rs₁, res, rs₂ ++ rs', by simp, by simp, hlen, hopens, hres, hbefore, ?_⟩
  exact fun r hr => (List.mem_append.mp hr).elim (hafter r) (hanswers r)

/-- The replies after one more line. -/
theorem Told.step (h : Told c ms rs) (hstep : Step c line rs' c') :
    Told c' (ms ++ line.toList) (rs ++ rs') where
  length := by rw [List.length_append, List.length_append, h.length, hstep.length]
  refusals := by
    rintro rfl
    cases c with
    | none => exact fun res hres => (List.mem_append.mp hres).elim (h.refusals rfl res) (hstep.refuses res)
    | some o => cases hstep.keeps rfl
  opened := by
    rintro o rfl
    cases c with
    | some o' =>
      obtain rfl := Option.some.inj (hstep.keeps rfl)
      exact (h.opened _ rfl).append hstep.answers _
    | none =>
      cases hstep with
      | opened hopens hcode hstatus hhid =>
        exact ⟨ms, _, [], rs, _, [], rfl, rfl, h.length.symm, hopens, ⟨hcode, hstatus, hhid⟩,
          h.refusals rfl, nofun⟩

end Connection

end Lines

/-! ## Workers -/

namespace WorkerDispatch

open IOProtoHandler

/-- The connection a worker serves. -/
def owned (wd : WorkerDispatch) : Connection := wd.curHandle.map fun h => (h.options, h.hid)

/-- The id of the worker is that of its handle, and zero without one. -/
def Named (wd : WorkerDispatch) : Prop := wd.curHid = (wd.owned.map Prod.snd).getD 0

variable {env : WorkerEnv} {wd wd' : WorkerDispatch} {md md' : MainDispatch} {req : Request}
  {n : ℕ} {b : Bool} {l : List Char} {junk : Message}

theorem owned_cancelCurrentHandle (wd : WorkerDispatch) : wd.cancelCurrentHandle.owned = wd.owned := by
  simp [owned, cancelCurrentHandle, Function.comp_def]

/-- A step that leaves the handle and its id alone. -/
theorem Named.congr (h : wd.Named) (howned : wd'.owned = wd.owned) (hhid : wd'.curHid = wd.curHid) :
    wd'.Named := by
  rw [Named, hhid, howned]
  exact h

section Requests

variable [JsonAccess] [JsonReader] [JsonWriter]

/-- A call of `processRequest` for the line `l` is a step of the connection. -/
def CallStep (l : List Char) (wd wd' : WorkerDispatch) : Prop :=
  ∃ res, wd'.io = wd.io.writeResponse res ∧ Connection.Step wd.owned (some l) [res] wd'.owned ∧
    (wd.Named → wd'.Named)

theorem callStep_of_refusal {err : Error} (herr : err.isSet = true) (l : List Char) (wd : WorkerDispatch)
    (req : Request) : CallStep l wd (wd.writeResponse (.ofRequest req err)) :=
  ⟨_, rfl, .refused _ (Response.status_ofRequest_of_isSet herr), fun h => h.congr rfl rfl⟩

/-- `initializeHandle` refuses, or fails to open anything, or it creates the handle. -/
theorem initializeHandle_callStep (hreq : req = Request.decode junk (String.ofList l))
    (hvalid : req.isValid = true) (hcode : req.command.code = .newhandle)
    (h : wd.initializeHandle env md req = .ok (wd', md')) : CallStep l wd wd' := by
  have hstatus := Response.status_ofRequest_success hvalid Error.isSet_success
  unfold initializeHandle at h
  split at h
  · cases h
  · next o hopts =>
    dsimp only at h
    split_ifs at h with hinvalid hsome hfailed <;> obtain ⟨rfl, -⟩ := Prod.mk.inj (Except.ok.inj h)
    · rw [replyHandle_of_isSet (Error.isSet_createInvalid _)]
      exact callStep_of_refusal (Error.isSet_createInvalid _) l wd req
    · rw [replyHandle_of_isSet (Error.isSet_createInvalid _)]
      exact callStep_of_refusal (Error.isSet_createInvalid _) l wd req
    · -- the error has a text and no code
      have hnone : wd.owned = none := by simpa [owned] using hsome
      rw [replyHandle_of_not_isSet rfl]
      refine ⟨_, rfl, ?_, fun h => h.congr rfl rfl⟩
      rw [show (wd.writeResponse _).owned = none from hnone, hnone]
      exact .failed hcode
    · have hnone : wd.owned = none := by simpa [owned] using hsome
      rw [replyHandle_of_not_isSet Error.isSet_success]
      refine ⟨_, rfl, ?_, fun _ => rfl⟩
      rw [hnone]
      exact .opened (c := (o, req.handleId))
        ⟨junk, _, _, hreq ▸ hcode, hreq ▸ hopts, by simpa using hinvalid, hreq ▸ rfl⟩ hcode hstatus rfl

/-- With a handle a reply to anything but a NEWHANDLE is a step. -/
theorem callStep_of_served {h h' : Handle} (hh : wd.curHandle = some h) (hh' : wd'.curHandle = some h')
    (hsame : h'.options = h.options ∧ h'.hid = h.hid) (hhid : wd'.curHid = wd.curHid) {res : Response}
    (hcode : res.command.code ≠ .newhandle) (hio : wd'.io = wd.io.writeResponse res) :
    CallStep l wd wd' := by
  have howned : wd.owned = some (h.options, h.hid) := by rw [owned, hh, Option.map_some]
  have howned' : wd'.owned = wd.owned := by rw [howned, owned, hh', Option.map_some, hsame.1, hsame.2]
  refine ⟨res, hio, ?_, fun hnamed => hnamed.congr howned' hhid⟩
  rw [howned', howned]
  exact .served _ hcode

/-- The reply to an operation, which leaves the options and the id of its handle alone. -/
theorem replyResults_callStep {rs : ResultSet} {h h' : Handle} (hh : wd.curHandle = some h)
    (hsame : h'.options = h.options ∧ h'.hid = h.hid) (hcode : req.command.code ≠ .newhandle)
    (hcall : { wd with curHandle := some h' }.replyResults md req rs = .returned (b, wd', md')) :
    CallStep l wd wd' := by
  unfold replyResults at hcall
  split_ifs at hcall
  · cases hcall
    exact callStep_of_served hh rfl hsame rfl hcode rfl
  · split at hcall <;> cases hcall
    exact callStep_of_served hh rfl hsame rfl hcode rfl

/-- A call that lets the loop go on is a step of the connection. -/
theorem processRequest_callStep (hreq : req = Request.decode junk (String.ofList l))
    (h : wd.processRequest env md req n = .returned (true, wd', md')) : CallStep l wd wd' := by
  by_cases hvalid : req.isValid = true
  swap
  · simp [processRequest, hvalid] at h
  by_cases hclose : req.command.code = .closehandle
  · simp [processRequest, hclose] at h
  by_cases hnew : req.command.code = .newhandle
  · cases hinit : wd.initializeHandle env md req with
    | error e => simp [processRequest, hvalid, hnew, hinit] at h
    | ok out =>
      obtain rfl : out = (wd', md') := by simpa [processRequest, hvalid, hnew, hinit] using h
      exact initializeHandle_callStep hreq hvalid hnew hinit
  cases hh : wd.curHandle with
  | none =>
    simp only [processRequest, hvalid, hclose, hnew, hh, Bool.not_true, Bool.false_eq_true, if_false,
      Outcome.returned.injEq, Prod.mk.injEq] at h
    obtain ⟨-, rfl, -⟩ := h
    exact callStep_of_refusal rfl l wd req
  | some hd =>
    obtain ⟨err, hout⟩ | ⟨e, hout⟩ | ⟨op, hruns : Runs hd env.world md req op⟩ :=
      processRequest_cases_of_handle env hvalid hclose hnew hh n
    · rw [hout] at h
      cases h
      exact callStep_of_served hh hh ⟨rfl, rfl⟩ rfl hnew rfl
    · rw [hout] at h
      cases h
    · -- an operation sets the flag of the handle and its futures
      rw [processRequest_of_runs env hvalid hclose hnew hh hruns] at h
      unfold runOperation at h
      dsimp only at h
      split at h
      · refine replyResults_callStep hh ?_ hnew h
        exact ⟨rfl, rfl⟩
      · cases h
      · cases h

/-! ## Turns and runs -/

/-- A turn the loop goes on behind, and the control thread may CANCEL before the next one. -/
def HandleTurn (wd : WorkerDispatch) (line : Option (List Char)) (wd' : WorkerDispatch) : Prop :=
  ∃ t wd₁ md₁, wd.selectLoop t = .returned (true, wd₁, md₁) ∧ wd.inputLine t = line ∧
    (wd' = wd₁ ∨ wd' = wd₁.cancelCurrentHandle)

theorem HandleTurn.turn {line : Option (List Char)} (h : HandleTurn wd line wd') : Turn wd line wd' := by
  obtain ⟨t, wd₁, md₁, hturn, hline, rfl | rfl⟩ := h <;> exact ⟨t, _, md₁, hturn, hline, rfl⟩

omit [JsonAccess] [JsonReader] [JsonWriter] in
/-- Only the socket is touched before the line is taken. -/
theorem poll_frame (wd : WorkerDispatch) (t : WorkerTurn) : ∃ io, (wd.poll t).2 = { wd with io := io } := by
  unfold poll
  dsimp only
  split
  · exact ⟨_, rfl⟩
  · split_ifs <;> exact ⟨_, rfl⟩

/-- A turn the loop goes on behind has touched the socket only, or it has called `processRequest` for the line
it has taken. -/
theorem selectLoop_cases {t : WorkerTurn} (h : wd.selectLoop t = .returned (true, wd', md')) :
    (wd.inputLine t = none ∧ ∃ io, io.queued = wd.io.queued ∧ wd' = { wd with io := io }) ∨
    ∃ l io, wd.inputLine t = some l ∧ io.queued = wd.io.queued ∧
      processRequest t.env { wd with io := io } t.md (Request.decode t.junk (String.ofList l)) t.steps =
        .returned (true, wd', md') := by
  have hpolled := (wd.poll_movesOutput t).queued
  obtain ⟨io, hframe⟩ := wd.poll_frame t
  rw [inputLine_eq]
  unfold selectLoop at h
  generalize wd.poll t = polled at h hpolled hframe ⊢
  obtain ⟨p, wd₁⟩ := polled
  dsimp only at hpolled hframe
  subst hframe
  cases p with
  | blocked | stop => cases h
  | idle =>
    cases h
    exact .inl ⟨rfl, io, hpolled, rfl⟩
  | input =>
    have hread := (MovesOutput.getRawMessage io).queued.trans hpolled
    dsimp only at h ⊢
    rw [if_pos rfl]
    obtain ⟨hnone, hr | hr⟩ | ⟨l, hl, hr | ⟨err, hr⟩⟩ := io.readRequest_line t.junk <;> rw [hr] at h
    · cases h
      exact .inl ⟨hnone, _, hread, rfl⟩
    · cases h
    · exact .inr ⟨l, _, hl, hread, h⟩
    · cases h

/-- A turn is a step of the connection. -/
theorem selectLoop_step {t : WorkerTurn} (h : wd.selectLoop t = .returned (true, wd', md')) :
    ∃ rs, wd'.io.queued = wd.io.queued ++ rs ∧
      Connection.Step wd.owned (wd.inputLine t) rs wd'.owned ∧ (wd.Named → wd'.Named) := by
  obtain ⟨hnone, io, hio, rfl⟩ | ⟨l, io, hl, hio, hcall⟩ := selectLoop_cases h
  · rw [hnone]
    exact ⟨[], by simp [hio], .quiet _, fun hnamed => hnamed.congr rfl rfl⟩
  · rw [hl]
    obtain ⟨res, hres, hstep, hnamed⟩ := processRequest_callStep rfl hcall
    exact ⟨[res], by rw [hres, writeResponse_queued, hio], hstep,
      fun hbefore => hnamed (hbefore.congr rfl rfl)⟩

variable {id : ℕ} {script : List RecvResult} {wds : ℕ → WorkerDispatch} {line : ℕ → Option (List Char)}

/-- The connection between two turns. -/
theorem HandleTurn.step {line : Option (List Char)} (h : HandleTurn wd line wd') :
    ∃ rs, wd'.io.queued = wd.io.queued ++ rs ∧ Connection.Step wd.owned line rs wd'.owned ∧
      (wd.Named → wd'.Named) := by
  obtain ⟨t, wd₁, md₁, hturn, rfl, rfl | rfl⟩ := h
  · exact selectLoop_step hturn
  · obtain ⟨rs, hqueued, hstep, hnamed⟩ := selectLoop_step hturn
    refine ⟨rs, hqueued, ?_, fun h => (hnamed h).congr (owned_cancelCurrentHandle wd₁) rfl⟩
    rwa [owned_cancelCurrentHandle]

theorem run_told (hrun : IsRun HandleTurn (.new id script) n wds line) :
    ∀ k ≤ n, Connection.Told (wds k).owned (served line k) (wds k).io.queued ∧ (wds k).Named := by
  intro k
  induction k with
  | zero =>
    intro _
    rw [hrun.start]
    exact ⟨⟨rfl, fun _ => nofun, nofun⟩, rfl⟩
  | succ k ih =>
    intro hk
    obtain ⟨htold, hnamed⟩ := ih (Nat.le_of_succ_le hk)
    obtain ⟨rs, hqueued, hstep, hnamed'⟩ := (hrun.turn k hk).step
    rw [hqueued, served_succ]
    exact ⟨htold.step hstep, hnamed' hnamed⟩

theorem run_keeps (hrun : IsRun HandleTurn (.new id script) n wds line) {j k : ℕ} (hjk : j ≤ k)
    (hk : k ≤ n) {c : HandleOptions × ℕ} (hc : (wds j).owned = some c) : (wds k).owned = some c := by
  induction k, hjk using Nat.le_induction with
  | base => exact hc
  | succ k hjk ih =>
    obtain ⟨rs, -, hstep, -⟩ := (hrun.turn k hk).step
    exact hstep.keeps (ih (Nat.le_of_succ_le hk))

/-- **One handle for a connection.** In every run of the loop of a worker, whatever its requests are, however
its operations go, and with a CANCEL at any moment: as long as there is no handle the client is told errors, but
for its NEWHANDLEs. The handle has the options and the id of one of the lines, and the reply in the place of this
line says so; from then on it stays, and every other NEWHANDLE is told an error. -/
theorem one_handle (hrun : IsRun HandleTurn (.new id script) n wds line) :
    (∀ k ≤ n, Connection.Told (wds k).owned (served line k) (wds k).io.queued ∧ (wds k).Named ∧
      Lines.complete '\n' (wds k).io.accepted <+: (wds k).io.queued.map Response.line) ∧
    ∀ j k c, j ≤ k → k ≤ n → (wds j).owned = some c → (wds k).owned = some c := by
  have hturns : IsRun Turn (.new id script) n wds line :=
    ⟨hrun.start, fun k hk => (hrun.turn k hk).turn⟩
  refine ⟨fun k hk => ?_, fun j k c hjk hk hc => run_keeps hrun hjk hk hc⟩
  obtain ⟨htold, hnamed⟩ := run_told hrun k hk
  obtain ⟨-, -, hstream⟩ := run_inTurn hturns k hk
  exact ⟨htold, hnamed, hstream.lines⟩

end Requests

section Examples

/-- A NEWHANDLE on one line. -/
def exampleNewLine : String :=
  "\x7b\"Command\":\"NEWHANDLE\",\"ReqID\":1,\"Handle\":4,\"CommandData\":\x7b\"Hostname\":\"host\"," ++
    "\"Bucket\":\"default\",\"Options\":\x7b\x7d\x7d\x7d"

/-- A reader that knows it. -/
@[reducible] def exampleNewReader : JsonReader where
  parse := fun str =>
    if str = exampleNewLine then
      .ok (.object [("Command", .string "NEWHANDLE"), ("ReqID", .int 1), ("Handle", .int 4),
        ("CommandData", exampleNewHandle.payload)])
    else .error "Syntax error"

/-- The turn in which a line arrives. -/
def arrivingTurn (line : String) (env : WorkerEnv) (steps : ℕ) : WorkerTurn :=
  { exampleWorkerTurn 0 with
    arrived := match line.toList with
      | [] => []
      | c :: cs => [.data c (cs ++ ['\n'])]
    env := env
    steps := steps }

/-- The line is taken, and `processRequest` is called for it. -/
theorem arrivingTurn_selectLoop [JsonAccess] [JsonReader] [JsonWriter] (wd : WorkerDispatch)
    (hio : wd.io.Waiting) {line : String} {c : Char} {cs : List Char} (hline : line.toList = c :: cs)
    (hbreak : '\n' ∉ line.toList) (hvalid : (Request.decode exampleJunk line).isValid = true) (env : WorkerEnv)
    (steps : ℕ) :
    wd.inputLine (arrivingTurn line env steps) = some line.toList ∧
    ∃ io, io.Waiting ∧ io.queued = wd.io.queued ∧ wd.selectLoop (arrivingTurn line env steps) =
      processRequest env { wd with io := io } (.new []) (Request.decode exampleJunk line) steps := by
  have hsplit : Lines.split '\n' (c :: (cs ++ ['\n'])) = ([c :: cs], []) := by
    rw [Lines.split_eq_iff, ← hline]
    refine ⟨?_, fun l hl => ?_, by simp⟩
    · rw [List.flatMap_singleton, hline, List.append_nil, List.cons_append]
    · rw [List.mem_singleton.mp hl]
      exact hbreak
  have hraw := hio.getRawMessage hsplit
  have hpoll : wd.poll (arrivingTurn line env steps) =
      (.input, { wd with io := wd.io.deliver [.data c (cs ++ ['\n'])] }) := by
    simp only [arrivingTurn, hline]
    rfl
  constructor
  · simp only [inputLine, hpoll, hraw, IOStatus.message, hline]
  · unfold selectLoop
    rw [hpoll]
    dsimp only
    unfold readRequest
    rw [hraw]
    dsimp only
    rw [← hline, String.ofList_toList, show (arrivingTurn line env steps).junk = exampleJunk from rfl,
      if_pos hvalid]
    exact ⟨{ wd.io with newlines := [], inbuf := [], received := wd.io.received ++ c :: (cs ++ ['\n']) },
      ⟨hio.isOpen, rfl, rfl, hio.script⟩, rfl, rfl⟩

/-- The worker of the examples behind a NEWHANDLE. -/
def exampleOpened (io : IOProtoHandler) : WorkerDispatch :=
  { WorkerDispatch.new 0 [] with io := io, curHandle := some { exampleHandle with hid := 4 }, curHid := 4 }

theorem exampleNewHandle_processRequest (io : IOProtoHandler) :
    letI := JsonAccess.plain
    letI := JsonWriter.compact
    ∃ md res, processRequest (exampleWorkerEnv .success) { WorkerDispatch.new 0 [] with io := io } (.new [])
      exampleNewHandle 0 = .returned (true, exampleOpened (io.writeResponse res), md) ∧ res.status = 0 :=
  ⟨_, _, rfl, rfl⟩

/-- A second one, behind a CANCEL. -/
theorem exampleNewHandle_again (io io' : IOProtoHandler) :
    letI := JsonAccess.plain
    letI := JsonWriter.compact
    ∃ md res, processRequest (exampleWorkerEnv .success)
        { (exampleOpened io).cancelCurrentHandle with io := io' } (.new []) exampleNewHandle 0 =
      .returned (true, { (exampleOpened io).cancelCurrentHandle with io := io'.writeResponse res }, md) ∧
      res.status ≠ 0 := ⟨_, _, rfl, by decide⟩

/-- A handle is opened and cancelled, and a second NEWHANDLE is told an error. -/
theorem one_handle_twice :
    letI := JsonAccess.plain
    letI := JsonWriter.compact
    letI := exampleNewReader
    ∃ wds line res₁ res₂, IsRun HandleTurn (.new 0 []) 2 wds line ∧
      served line 2 = [exampleNewLine.toList, exampleNewLine.toList] ∧
      (wds 2).owned = some (exampleHandle.options, 4) ∧ (wds 2).io.queued = [res₁, res₂] ∧
      res₁.status = 0 ∧ res₂.status ≠ 0 ∧
      Connection.Told (wds 2).owned (served line 2) (wds 2).io.queued := by
  let := JsonAccess.plain
  let := JsonWriter.compact
  let := exampleNewReader
  have hline : exampleNewLine.toList = '\x7b' :: exampleNewLine.toList.tail := by decide
  obtain ⟨hinput, io₁, hio₁, hqueued, hselect⟩ := arrivingTurn_selectLoop (.new 0 []) waiting_fresh hline
    (by decide +kernel) (by rfl) (exampleWorkerEnv .success) 0
  obtain ⟨md₁, res₁, hcall, hstatus⟩ := exampleNewHandle_processRequest io₁
  have hfirst : HandleTurn (.new 0 []) (some exampleNewLine.toList)
      (exampleOpened (io₁.writeResponse res₁)).cancelCurrentHandle :=
    ⟨_, _, md₁, hselect.trans hcall, hinput, .inr rfl⟩
  obtain ⟨hinput₂, io₂, -, hqueued₂, hselect₂⟩ := arrivingTurn_selectLoop
    (exampleOpened (io₁.writeResponse res₁)).cancelCurrentHandle
    ⟨hio₁.isOpen, hio₁.newlines, hio₁.inbuf, hio₁.script⟩ hline (by decide +kernel) (by rfl)
    (exampleWorkerEnv .success) 0
  obtain ⟨md₂, res₂, hcall₂, hstatus₂⟩ := exampleNewHandle_again (io₁.writeResponse res₁) io₂
  have hsecond : HandleTurn (exampleOpened (io₁.writeResponse res₁)).cancelCurrentHandle
      (some exampleNewLine.toList) _ := ⟨_, _, md₂, hselect₂.trans hcall₂, hinput₂, .inl rfl⟩
  have hrun := isRun_two hfirst hsecond
  refine ⟨_, _, res₁, res₂, hrun, rfl, rfl, ?_, hstatus, hstatus₂, ((one_handle hrun).1 2 le_rfl).1⟩
  show io₂.queued ++ [res₂] = [res₁, res₂]
  rw [hqueued₂]
  show (io₁.queued ++ [res₁]) ++ [res₂] = [res₁, res₂]
  rw [hqueued]
  rfl

end Examples

end WorkerDispatch

end Sdkd
