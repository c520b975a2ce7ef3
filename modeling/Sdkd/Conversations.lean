import Sdkd.Backlog
import Sdkd.Lib.Positions
import Sdkd.OutputStream

/-!
# Conversations

What a client gets to read for the lines it sends. A turn of an event loop serves one line and queues the
replies to it, and the bytes of the replies go out whenever the socket takes them.

## Main definitions

- `MovesOutput` — bytes have gone from the buffer to the socket, and that is all
- `AnswersLine` — a response carries what a line is decoded to
- `Replied` — the replies to the lines served so far

## Main results

- `WorkerDispatch.replies_inTurn` — the line a client of a worker reads in some place answers the line it sent
  in the same place
- `MainDispatch.replies_inOrder` — on the control connection the replies come in the order of the lines
-/

namespace Sdkd

namespace IOProtoHandler

variable {io io' io'' : IOProtoHandler}

/-! ## The output side of a handler -/

/-- The output side has changed in one way only: some bytes of the buffer have been taken by the socket. -/
structure MovesOutput (io io' : IOProtoHandler) : Prop where
  queued : io'.queued = io.queued
  outStream : io'.outStream = io.outStream
  accepted : io.accepted <+: io'.accepted

namespace MovesOutput

@[refl] theorem refl (io : IOProtoHandler) : MovesOutput io io := ⟨rfl, rfl, List.prefix_rfl⟩

theorem trans (h : MovesOutput io io') (h' : MovesOutput io' io'') : MovesOutput io io'' :=
  ⟨h'.queued.trans h.queued, h'.outStream.trans h.outStream, h.accepted.trans h'.accepted⟩

theorem deliver (io : IOProtoHandler) (arrived : List RecvResult) : MovesOutput io (io.deliver arrived) :=
  ⟨rfl, rfl, List.prefix_rfl⟩

/-- The loop of `flushBuffer` hands bytes to the socket. -/
theorem flushLoop_accepted (sends : List SendResult) (v : FlushVars) (io : IOProtoHandler) :
    (flushLoop sends v io).2.queued = io.queued ∧
    io.accepted <+: (flushLoop sends v io).2.accepted := by
  induction sends generalizing v io with
  | nil => exact ⟨rfl, List.prefix_rfl⟩
  | cons r rest ih =>
    unfold flushLoop
    split_ifs
    · exact ⟨rfl, List.prefix_rfl⟩
    · cases r with
      | sent n =>
        obtain ⟨hqueued, haccepted⟩ := ih
          { v with sndbuf := v.sndbuf + min (n + 1) v.remaining,
                   remaining := v.remaining - min (n + 1) v.remaining }
          { io with accepted := io.accepted ++ (io.outbuf.drop v.sndbuf).take (min (n + 1) v.remaining) }
        exact ⟨hqueued, (List.prefix_append _ _).trans haccepted⟩
      | zero => exact ⟨rfl, List.prefix_rfl⟩
      | error e => cases e <;> first | exact ih v io | exact ⟨rfl, List.prefix_rfl⟩

theorem flushBuffer (io : IOProtoHandler) (sends : List SendResult) :
    MovesOutput io (io.flushBuffer sends).2 where
  queued := (flushLoop_accepted _ _ io).1
  outStream := flushBuffer_outStream io sends
  accepted := (flushLoop_accepted _ _ io).2

theorem flushBufferBlock (selects : List SelectResult) (io : IOProtoHandler) :
    MovesOutput io (io.flushBufferBlock selects).2 := by
  induction selects generalizing io with
  | nil => exact refl io
  | cons r rest ih =>
    unfold IOProtoHandler.flushBufferBlock
    split_ifs
    · exact refl io
    · cases r with
      | error e => cases e <;> first | exact ih io | exact refl io
      | writable sends =>
        dsimp only
        split_ifs
        · exact flushBuffer io sends
        · exact (flushBuffer io sends).trans (ih _)

theorem readTail {rv : ReadEnd}
    (hr : readSocket { io with newlines := io.newlines.tail } = (rv, io')) : MovesOutput io io' := by
  obtain ⟨inbuf, newlines, script, received, h⟩ :=
    readSocket_frame { io with newlines := io.newlines.tail }
  rw [hr] at h
  dsimp only at h
  subst h
  exact ⟨rfl, rfl, List.prefix_rfl⟩

theorem gets {st : IOStatus} (h : Gets io st io') : MovesOutput io io' := by
  induction h with
  | line => exact ⟨rfl, rfl, List.prefix_rfl⟩
  | again _ hr _ _ ih => exact (readTail hr).trans ih
  | eof _ hr =>
    have hread := readTail hr
    exact ⟨hread.queued, hread.outStream, hread.accepted⟩
  | wait _ hr => exact readTail hr
  | fail _ hr => exact readTail hr

theorem getRawMessage (io : IOProtoHandler) : MovesOutput io io.getRawMessage.2 := gets io.gets

end MovesOutput

/-- No line of the bytes received is lost: those served and those in the queue are all there are. -/
theorem Framed.congr {bytes : List Char} {ms : List (List Char)} (h : Framed bytes ms io)
    (heq : SameInput io io') : Framed bytes ms io' where
  lines := by
    rw [heq.newlines, heq.received]
    exact h.lines
  rest := by
    rw [heq.inbuf, heq.received]
    exact h.rest
  bytes := by
    rw [heq.script, heq.received]
    exact h.bytes
  closed := by
    rw [heq.isOpen, heq.script]
    exact h.closed

end IOProtoHandler

/-! ## Replies -/

section Lines

variable [JsonWriter]

/-- The line a response is sent as. -/
def Response.line (res : Response) : List Char := res.encode.toList.dropLast

theorem Response.encode_eq (res : Response) :
    res.encode.toList = res.line ++ ['\n'] ∧ '\n' ∉ res.line := by
  obtain ⟨body, hbody, hfree⟩ := IOProtoHandler.encode_line res
  have hline : res.line = body := by rw [line, hbody, List.dropLast_concat]
  rw [hline]
  exact ⟨hbody, hfree⟩

/-- The output stream consists of the responses queued. -/
def IOProtoHandler.Streamed (io : IOProtoHandler) : Prop :=
  io.outStream = io.queued.flatMap fun res => res.encode.toList

/-- The lines of the output stream are theirs. -/
theorem IOProtoHandler.Streamed.complete {io : IOProtoHandler} (h : io.Streamed) :
    Lines.complete '\n' io.outStream = io.queued.map Response.line := by
  have hstream : io.outStream = (io.queued.map Response.line).flatMap (· ++ ['\n']) := by
    rw [h, List.flatMap_map]
    exact List.flatMap_congr fun res _ => res.encode_eq.1
  rw [hstream]
  refine Lines.complete_flatMap fun l hl => ?_
  obtain ⟨res, -, rfl⟩ := List.mem_map.mp hl
  exact res.encode_eq.2

/-- Once all has been sent the client can read every reply. -/
theorem IOProtoHandler.Streamed.complete_of_sent {io : IOProtoHandler} (h : io.Streamed)
    (hsent : io.outbuf = []) : Lines.complete '\n' io.accepted = io.queued.map Response.line := by
  have hcomplete := h.complete
  rwa [outStream, hsent, List.append_nil] at hcomplete

/-- What the client has been able to read is the first of these. -/
theorem IOProtoHandler.Streamed.lines {io : IOProtoHandler} (h : io.Streamed) :
    Lines.complete '\n' io.accepted <+: io.queued.map Response.line := by
  rw [← h.complete]
  exact Lines.complete_mono (List.prefix_append _ _)

end Lines

section Replies

variable [JsonAccess] [JsonReader] [JsonWriter]

/-- The response carries the command and the numbers of a request that the line is decoded to. -/
def AnswersLine (line : List Char) (res : Response) : Prop :=
  ∃ junk, res.Answers (Request.decode junk (String.ofList line))

namespace IOProtoHandler

variable {io io' io'' : IOProtoHandler} {line : Option (List Char)} {rs : List Response}

/-- The responses `rs` have been queued, which answer `line`. -/
structure Replies (line : Option (List Char)) (rs : List Response) (io io' : IOProtoHandler) : Prop where
  queued : io'.queued = io.queued ++ rs
  streamed : io.Streamed → io'.Streamed
  accepted : io.accepted <+: io'.accepted
  answers : ∀ res ∈ rs, ∃ l ∈ line, AnswersLine l res

namespace Replies

theorem moves (h : MovesOutput io io') : Replies line [] io io' where
  queued := by rw [h.queued, List.append_nil]
  streamed := fun hs => by rw [Streamed, h.outStream, h.queued, hs]
  accepted := h.accepted
  answers := by simp

theorem trans {rs' : List Response} (h : Replies line rs io io') (h' : Replies line rs' io' io'') :
    Replies line (rs ++ rs') io io'' where
  queued := by rw [h'.queued, h.queued, List.append_assoc]
  streamed := h'.streamed ∘ h.streamed
  accepted := h.accepted.trans h'.accepted
  answers := fun res hres => (List.mem_append.mp hres).elim (h.answers res) (h'.answers res)

theorem write {l : List Char} {res : Response} (hres : AnswersLine l res) (io : IOProtoHandler) :
    Replies (some l) [res] io (io.writeResponse res) where
  queued := rfl
  streamed := fun hs => by
    rw [Streamed, writeResponse_outStream, hs, writeResponse_queued, List.flatMap_append,
      List.flatMap_singleton]
  accepted := List.prefix_rfl
  answers := by simpa using hres

theorem writeAll {l : List Char} {rs : List Response} (hrs : ∀ res ∈ rs, AnswersLine l res)
    (io : IOProtoHandler) : Replies (some l) rs io (rs.foldl IOProtoHandler.writeResponse io) := by
  induction rs generalizing io with
  | nil => exact moves (.refl io)
  | cons res rs ih =>
    obtain ⟨hres, hrest⟩ := List.forall_mem_cons.mp hrs
    exact (write hres io).trans (ih hrest _)

end Replies

/-- Bytes that go out before the replies are queued. -/
theorem Replies.after (h : Replies line rs io' io'') (hmoves : MovesOutput io io') :
    Replies line rs io io'' :=
  (Replies.moves hmoves).trans h

/-- A call of `readRequest` finds no line, or it decodes one. -/
theorem readRequest_line (io : IOProtoHandler) (junk : Message) :
    (io.getRawMessage.1.message = none ∧ (io.readRequest junk = (.notyet, io.getRawMessage.2) ∨
      io.readRequest junk = (.err, io.getRawMessage.2))) ∨
    ∃ l, io.getRawMessage.1.message = some l ∧
      (io.readRequest junk = (.ok (Request.decode junk (String.ofList l)), io.getRawMessage.2) ∨
        ∃ err, io.readRequest junk = (.invalid, io.getRawMessage.2.writeResponse
          (.ofRequest (Request.decode junk (String.ofList l)) err))) := by
  unfold readRequest
  generalize io.getRawMessage = out
  obtain ⟨st, io⟩ := out
  cases st with
  | notyet => exact .inl ⟨rfl, .inl rfl⟩
  | err => exact .inl ⟨rfl, .inr rfl⟩
  | ok c cs =>
    refine .inr ⟨c :: cs, rfl, ?_⟩
    dsimp only
    split_ifs
    · exact .inl rfl
    · exact .inr ⟨_, rfl⟩

end IOProtoHandler

open IOProtoHandler

/-! ## Turns -/

namespace WorkerDispatch

variable {wd wd' : WorkerDispatch} {t : WorkerTurn} {md' : MainDispatch} {b : Bool}

omit [JsonAccess] [JsonReader] [JsonWriter] in
theorem poll_movesOutput (wd : WorkerDispatch) (t : WorkerTurn) :
    MovesOutput wd.io (wd.poll t).2.io := by
  have hflush : ∀ sends, MovesOutput wd.io ((wd.io.deliver t.arrived).flushBuffer sends).2 :=
    fun sends => (MovesOutput.deliver _ _).trans (.flushBuffer _ _)
  unfold poll
  dsimp only
  split
  · exact .deliver _ _
  · split_ifs
    all_goals first | exact .deliver _ _ | exact hflush _

/-- A turn replies to the line it takes, once unless the loop ends. -/
theorem selectLoop_replies (h : wd.selectLoop t = .returned (b, wd', md')) :
    ∃ rs, Replies (wd.inputLine t) rs (wd.poll t).2.io wd'.io ∧
      rs.length ≤ (wd.inputLine t).toList.length ∧
      (b = true → rs.length = (wd.inputLine t).toList.length) := by
  rw [inputLine_eq]
  unfold selectLoop at h
  generalize wd.poll t = polled at h ⊢
  obtain ⟨p, wd₁⟩ := polled
  cases p with
  | blocked => cases h
  | stop | idle =>
    cases h
    exact ⟨[], .moves (.refl _), Nat.zero_le _, fun _ => rfl⟩
  | input =>
    have hread : MovesOutput wd₁.io wd₁.io.getRawMessage.2 := .getRawMessage _
    dsimp only at h ⊢
    rw [if_pos rfl]
    obtain ⟨hnone, hr | hr⟩ | ⟨l, hl, hr | ⟨err, hr⟩⟩ := wd₁.io.readRequest_line t.junk <;>
      rw [hr] at h
    · cases h
      rw [hnone]
      exact ⟨[], .moves hread, le_rfl, fun _ => rfl⟩
    · cases h
      rw [hnone]
      exact ⟨[], .moves hread, le_rfl, fun _ => rfl⟩
    · rw [hl]
      rcases processRequest_io h with ⟨rfl, hio⟩ | ⟨rfl, res, hres, hio⟩
      · -- CLOSEHANDLE
        rw [hio]
        exact ⟨[], .moves hread, Nat.zero_le _, fun hno => Bool.noConfusion hno⟩
      · rw [hio]
        exact ⟨[res], (Replies.moves hread).trans (.write ⟨_, hres⟩ _), le_rfl, fun _ => rfl⟩
    · cases h
      rw [hl]
      exact ⟨[_], (Replies.moves hread).trans (.write ⟨_, Response.answers_ofRequest _ _⟩ _), le_rfl,
        fun _ => rfl⟩

end WorkerDispatch

namespace MainDispatch

variable {env : ControlEnv} {md md' : MainDispatch} {req : Request} {t : ControlTurn} {b : Bool}

omit [JsonReader] in
/-- NEWDATASET is replied to once or twice. -/
theorem createNewDs_answers (h : md.createNewDs req = .ok md') :
    ∃ rs : List Response, md'.io = rs.foldl IOProtoHandler.writeResponse md.io ∧ rs.length ≤ 2 ∧
      ∀ res ∈ rs, res.Answers req := by
  rw [createNewDs_eq] at h
  split at h
  · cases h
  · cases h
    by_cases hinvalid : (Dataset.determineType req).1 = .invalid
    · rw [if_pos hinvalid]
      exact ⟨[_, _], rfl, le_rfl, by simp⟩
    · rw [if_neg hinvalid]
      exact ⟨[_], rfl, by simp, by simp⟩

omit [JsonReader] in
/-- A command is replied to twice at most. -/
theorem dispatchCommand_answers (h : dispatchCommand env md req = .ok (b, md')) :
    ∃ rs : List Response, md'.io = rs.foldl IOProtoHandler.writeResponse md.io ∧ rs.length ≤ 2 ∧
      ∀ res ∈ rs, res.Answers req := by
  unfold dispatchCommand at h
  cases hcode : req.command.code with
  | newdataset =>
    rw [hcode] at h
    dsimp only at h
    split at h
    · next hnew =>
      cases h
      exact createNewDs_answers hnew
    · cases h
  | goodbye =>
    rw [hcode] at h
    dsimp only at h
    split_ifs at h <;> cases h
    · exact ⟨[_], rfl, by simp, by simp⟩
    · exact ⟨[], rfl, by simp, by simp⟩
  | cancel =>
    rw [hcode] at h
    dsimp only at h
    split at h <;> cases h <;> exact ⟨[_], rfl, by simp, by simp⟩
  | ttl =>
    rw [hcode] at h
    dsimp only at h
    split_ifs at h <;> cases h <;> exact ⟨[_], rfl, by simp, by simp⟩
  | getusage =>
    rw [hcode] at h
    cases h
    exact ⟨[], rfl, by simp, by simp⟩
  | uploadlogs =>
    rw [hcode] at h
    dsimp only at h
    split at h <;> cases h
    exact ⟨[_], rfl, by simp, by simp⟩
  | _ =>
    rw [hcode] at h
    cases h
    exact ⟨[_], rfl, by simp, by simp⟩

omit [JsonAccess] [JsonReader] [JsonWriter] in
theorem poll_movesOutput (md : MainDispatch) (t : ControlTurn) :
    MovesOutput md.io (md.poll t).2.io := by
  have hflush : MovesOutput md.io ((md.io.deliver t.arrived).flushBufferBlock t.selects).2 :=
    (MovesOutput.deliver _ _).trans (.flushBufferBlock _ _)
  unfold poll
  dsimp only
  split_ifs
  all_goals try split
  all_goals try split_ifs
  all_goals first | exact .deliver _ _ | exact hflush

/-- A turn replies to the line it takes, twice at most. -/
theorem loopOnce_replies (h : md.loopOnce t = .returned (b, md')) :
    ∃ rs, Replies (md.inputLine t) rs (md.poll t).2.io md'.io ∧ rs.length ≤ 2 := by
  rw [inputLine_eq]
  unfold loopOnce at h
  generalize md.poll t = polled at h ⊢
  obtain ⟨p, md₁⟩ := polled
  cases p with
  | blocked => cases h
  | stop | idle =>
    cases h
    exact ⟨[], .moves (.refl _), Nat.zero_le _⟩
  | input =>
    have hread : MovesOutput md₁.io md₁.io.getRawMessage.2 := .getRawMessage _
    dsimp only at h ⊢
    rw [if_pos rfl]
    obtain ⟨hnone, hr | hr⟩ | ⟨l, hl, hr | ⟨err, hr⟩⟩ := md₁.io.readRequest_line t.junk <;>
      rw [hr] at h
    · cases h
      rw [hnone]
      exact ⟨[], .moves hread, Nat.zero_le _⟩
    · cases h
      rw [hnone]
      exact ⟨[], .moves hread, Nat.zero_le _⟩
    · rw [hl]
      dsimp only at h
      split at h
      · cases h
      · next hdispatch =>
        cases h
        obtain ⟨rs, hio, hle, hrs⟩ := dispatchCommand_answers hdispatch
        rw [hio]
        exact ⟨rs, (Replies.moves hread).trans (.writeAll (fun res hres => ⟨_, hrs res hres⟩) _), hle⟩
    · -- the process dies behind an invalid line
      cases h

end MainDispatch

/-! ## Runs -/

namespace IOProtoHandler

variable {io io' : IOProtoHandler} {line : Option (List Char)} {rs : List Response}
  {ms : List (List Char)} {replies : List (List Response)}

omit [JsonAccess] [JsonReader] [JsonWriter] in
/-- The lines served are the first ones received, also behind the last turn. -/
theorem served_prefix {p : Polled} {io₁ : IOProtoHandler} {arrived : List RecvResult} {b : Bool}
    (h : Serving ms io) (hpoll : SameInput (io.deliver arrived) io₁) (hdoes : p.Does io₁ b io') :
    ms ++ (if p = .input then io₁.getRawMessage.1.message else none).toList <+: io'.linesReceived := by
  obtain ⟨-, bytes, hframed⟩ := (h.deliver arrived).congr hpoll
  have hbefore : ∀ {ms : List (List Char)} {io : IOProtoHandler}, Framed bytes ms io →
      ms <+: io.linesReceived := by
    intro ms io hf
    rw [linesReceived, ← hf.lines]
    exact List.prefix_append _ _
  cases p with
  | blocked => exact hdoes.elim
  | stop | idle =>
    obtain ⟨-, rfl⟩ := hdoes
    simpa using hbefore hframed
  | input => exact hbefore (hframed.getRawMessage.1.congr hdoes.1)

/-- The reply with number `k` answers the line with number `k`. -/
def InTurn (ms : List (List Char)) (io : IOProtoHandler) : Prop :=
  ∀ (k : ℕ) (res : Response), io.queued[k]? = some res → ∃ l : List Char, ms[k]? = some l ∧ AnswersLine l res

theorem InTurn.turn (h : InTurn ms io) (hlen : io.queued.length = ms.length)
    (hreplies : Replies line rs io io') (hrs : rs.length ≤ line.toList.length) :
    InTurn (ms ++ line.toList) io' := by
  intro k res hk
  rw [hreplies.queued] at hk
  by_cases hlt : k < io.queued.length
  · rw [List.getElem?_append_left hlt] at hk
    obtain ⟨l, hl, hanswers⟩ := h k res hk
    exact ⟨l, by rw [List.getElem?_append_left (by omega), hl], hanswers⟩
  · rw [List.getElem?_append_right (Nat.le_of_not_lt hlt)] at hk
    obtain ⟨l, hl, hanswers⟩ := hreplies.answers res (List.mem_of_getElem? hk)
    obtain rfl : line = some l := hl
    obtain rfl : k = ms.length := by
      have := (List.getElem?_eq_some_iff.mp hk).1
      simp only [Option.toList_some, List.length_singleton] at hrs
      omega
    exact ⟨l, by simp, hanswers⟩

/-- The line with number `k` that the client can read is a reply to the line with number `k` that it has
sent. -/
def ReadsInTurn (io : IOProtoHandler) : Prop :=
  ∀ (k : ℕ) (out : List Char), (Lines.complete '\n' io.accepted)[k]? = some out →
    ∃ (l : List Char) (res : Response), io.linesReceived[k]? = some l ∧ AnswersLine l res ∧ out = res.line

theorem InTurn.reads (h : InTurn ms io) (hs : io.Streamed) (hms : ms <+: io.linesReceived) :
    ReadsInTurn io := by
  intro k out hk
  obtain ⟨res, hres, rfl⟩ : ∃ res, io.queued[k]? = some res ∧ res.line = out := by
    simpa using Positions.getElem?_of_prefix hs.lines hk
  obtain ⟨l, hl, hanswers⟩ := h k res hres
  exact ⟨l, res, Positions.getElem?_of_prefix hms hl, hanswers, rfl⟩

/-- The replies, line by line. -/
structure Replied (ms : List (List Char)) (replies : List (List Response)) (io : IOProtoHandler) :
    Prop where
  streamed : io.Streamed
  queued : io.queued = replies.flatten
  answers : List.Forall₂ (fun l rs => rs.length ≤ 2 ∧ ∀ res ∈ rs, AnswersLine l res) ms replies

theorem Replied.turn (h : Replied ms replies io) (hreplies : Replies line rs io io')
    (hrs : rs.length ≤ 2) : ∃ replies', Replied (ms ++ line.toList) replies' io' := by
  cases line with
  | none =>
    obtain rfl : rs = [] := List.eq_nil_iff_forall_not_mem.mpr fun res hres => by
      obtain ⟨l, hl, -⟩ := hreplies.answers res hres
      cases hl
    refine ⟨replies, hreplies.streamed h.streamed, ?_, by simpa using h.answers⟩
    rw [hreplies.queued, h.queued, List.append_nil]
  | some l =>
    refine ⟨replies ++ [rs], hreplies.streamed h.streamed, ?_, ?_⟩
    · rw [hreplies.queued, h.queued, List.flatten_append, List.flatten_singleton]
    · refine List.rel_append h.answers (.cons ⟨hrs, fun res hres => ?_⟩ .nil)
      obtain ⟨l', hl', hanswers⟩ := hreplies.answers res hres
      obtain rfl : l = l' := Option.some.inj hl'
      exact hanswers

/-- What the client can read is the replies, in the order of the lines. -/
theorem Replied.reads (h : Replied ms replies io) :
    Lines.complete '\n' io.accepted <+: replies.flatten.map Response.line :=
  h.queued ▸ h.streamed.lines

omit [JsonAccess] [JsonReader] in
theorem Streamed.moves (h : io.Streamed) (hmoves : MovesOutput io io') : io'.Streamed := by
  rw [Streamed, hmoves.outStream, hmoves.queued, h]

omit [JsonWriter] in
theorem InTurn.moves (h : InTurn ms io) (hmoves : MovesOutput io io') : InTurn ms io' := by
  rw [InTurn, hmoves.queued]
  exact h

theorem Replied.moves (h : Replied ms replies io) (hmoves : MovesOutput io io') :
    Replied ms replies io' :=
  ⟨h.streamed.moves hmoves, hmoves.queued.trans h.queued, h.answers⟩

omit [JsonAccess] [JsonReader] [JsonWriter] in
theorem served_succ (line : ℕ → Option (List Char)) (k : ℕ) :
    served line (k + 1) = served line k ++ (line k).toList := by
  simp [served, List.range_succ]

end IOProtoHandler

namespace WorkerDispatch

variable {id n : ℕ} {script : List RecvResult} {wd : ℕ → WorkerDispatch} {line : ℕ → Option (List Char)}

theorem run_serving (hrun : IsRun Turn (.new id script) n wd line) :
    ∀ k ≤ n, Serving (served line k) (wd k).io :=
  hrun.serving rfl fun _ _ _ => Turn.serves

/-- Whenever the loop enters its `select` it has replied once to every line it has served. -/
theorem run_inTurn (hrun : IsRun Turn (.new id script) n wd line) :
    ∀ k ≤ n, InTurn (served line k) (wd k).io ∧
      (wd k).io.queued.length = (served line k).length ∧ (wd k).io.Streamed := by
  intro k
  induction k with
  | zero =>
    intro _
    rw [hrun.start]
    exact ⟨fun k res hk => by simp [new, fresh] at hk, rfl, rfl⟩
  | succ k ih =>
    intro hk
    obtain ⟨hin, hlen, hstream⟩ := ih (Nat.le_of_succ_le hk)
    obtain ⟨t, wd₁, md₁, hturn, hline, hio⟩ := hrun.turn k hk
    obtain ⟨rs, hpolled, hle, hone⟩ := selectLoop_replies hturn
    have hreplies := hpolled.after ((wd k).poll_movesOutput t)
    rw [hline] at hreplies hle hone
    rw [hio, served_succ]
    refine ⟨hin.turn hlen hreplies hle, ?_, hreplies.streamed hstream⟩
    rw [hreplies.queued, List.length_append, List.length_append, hlen, hone rfl]

/-- **The conversation of a worker.** In every run of its loop, however the bytes of either direction are
divided, the client reads the replies to its lines in the order of the lines: one to each line that has been
served, except that the last turn and the flush behind the loop may leave out the reply to the last
line. -/
theorem replies_inTurn (hrun : IsRun Turn (.new id script) n wd line) :
    (∀ k ≤ n, ReadsInTurn (wd k).io ∧ (wd k).io.queued.length = (served line k).length) ∧
    ∀ t b wd' md' selects, (wd n).selectLoop t = .returned (b, wd', md') →
      ReadsInTurn (wd'.io.flushBufferBlock selects).2 ∧
      (served line n).length ≤ (wd'.io.flushBufferBlock selects).2.queued.length ∧
      (wd'.io.flushBufferBlock selects).2.queued.length ≤
        (served line n ++ ((wd n).inputLine t).toList).length := by
  have hserving := run_serving hrun
  constructor
  · intro k hk
    obtain ⟨hin, hlen, hstream⟩ := run_inTurn hrun k hk
    refine ⟨hin.reads hstream ?_, hlen⟩
    rw [← (hserving k hk).lines]
    exact List.prefix_append _ _
  · intro t b wd' md' selects hturn
    obtain ⟨hin, hlen, hstream⟩ := run_inTurn hrun n le_rfl
    obtain ⟨rs, hpolled, hle, -⟩ := selectLoop_replies hturn
    have hreplies := hpolled.after ((wd n).poll_movesOutput t)
    have hmoves : MovesOutput wd'.io (wd'.io.flushBufferBlock selects).2 := .flushBufferBlock _ _
    have hsame : SameInput wd'.io (wd'.io.flushBufferBlock selects).2 := .flushBufferBlock _ _
    have hserved := served_prefix (hserving n le_rfl) ((wd n).poll_sameInput t) (selectLoop_does hturn)
    rw [← inputLine_eq] at hserved
    refine ⟨?_, ?_, ?_⟩
    · refine ((hin.turn hlen hreplies hle).moves hmoves).reads
        ((hreplies.streamed hstream).moves hmoves) ?_
      rwa [linesReceived, hsame.received]
    · rw [hmoves.queued, hreplies.queued, List.length_append, hlen]
      exact Nat.le_add_right _ _
    · rw [hmoves.queued, hreplies.queued, List.length_append, List.length_append, hlen]
      exact Nat.add_le_add_left hle _

end WorkerDispatch

namespace MainDispatch

variable {n : ℕ} {script : List RecvResult} {md : ℕ → MainDispatch} {line : ℕ → Option (List Char)}

theorem run_replied (hrun : IsRun Turn (.new script) n md line) :
    ∀ k ≤ n, ∃ replies, Replied (served line k) replies (md k).io := by
  intro k
  induction k with
  | zero =>
    intro _
    rw [hrun.start]
    exact ⟨[], rfl, rfl, .nil⟩
  | succ k ih =>
    intro hk
    obtain ⟨replies, hreplied⟩ := ih (Nat.le_of_succ_le hk)
    obtain ⟨t, md₁, hturn, hline, hio⟩ := hrun.turn k hk
    obtain ⟨rs, hpolled, hle⟩ := loopOnce_replies hturn
    have hreplies := hpolled.after ((md k).poll_movesOutput t)
    rw [hline] at hreplies
    rw [hio, served_succ]
    exact hreplied.turn hreplies hle

/-- **The conversation on the control connection.** The replies to one line stand together, there are two at
most, and the client reads them in the order of the lines, up to the flush behind the loop. -/
theorem replies_inOrder (hrun : IsRun Turn (.new script) n md line) :
    (∀ k ≤ n, ∃ replies, Replied (served line k) replies (md k).io ∧
      Lines.complete '\n' (md k).io.accepted <+: replies.flatten.map Response.line) ∧
    ∀ t b md' selects, (md n).loopOnce t = .returned (b, md') →
      ∃ replies, Replied (served line n ++ ((md n).inputLine t).toList) replies
          (md'.io.flushBufferBlock selects).2 ∧
        Lines.complete '\n' (md'.io.flushBufferBlock selects).2.accepted <+:
          replies.flatten.map Response.line := by
  constructor
  · intro k hk
    obtain ⟨replies, hreplied⟩ := run_replied hrun k hk
    exact ⟨replies, hreplied, hreplied.reads⟩
  · intro t b md' selects hturn
    obtain ⟨replies, hreplied⟩ := run_replied hrun n le_rfl
    obtain ⟨rs, hpolled, hle⟩ := loopOnce_replies hturn
    have hreplies := hpolled.after ((md n).poll_movesOutput t)
    obtain ⟨replies', hreplied'⟩ := hreplied.turn hreplies hle
    have hflushed := hreplied'.moves (.flushBufferBlock selects md'.io)
    exact ⟨replies', hflushed, hflushed.reads⟩

end MainDispatch

end Replies

section Examples

open IOProtoHandler

/-- A worker without a handle refuses the request. -/
theorem WorkerDispatch.exampleLine_refused (io : IOProtoHandler) :
    letI := JsonAccess.plain
    letI := JsonWriter.compact
    letI := exampleReader
    ∃ res, processRequest (exampleWorkerEnv .success) { WorkerDispatch.new 0 [] with io := io } (.new [])
        (Request.decode exampleJunk exampleLine) 0 =
      .returned (true, { WorkerDispatch.new 0 [] with io := io.writeResponse res }, .new []) := ⟨_, rfl⟩

/-- The control connection refuses it too. -/
theorem MainDispatch.exampleLine_refused (io : IOProtoHandler) :
    letI := JsonAccess.plain
    letI := JsonWriter.compact
    letI := exampleReader
    ∃ res, dispatchCommand exampleEnv { MainDispatch.new [] with io := io }
        (Request.decode exampleJunk exampleLine) =
      .ok (true, { MainDispatch.new [] with io := io.writeResponse res }) := ⟨_, rfl⟩

/-- The line that is left in the queue is taken without anything being read. -/
theorem IOProtoHandler.exampleLine_queued {io : IOProtoHandler} (hq : io.newlines = [exampleLine.toList]) :
    letI := JsonAccess.plain
    letI := JsonWriter.compact
    letI := exampleReader
    (io.deliver []).readRequest exampleJunk =
      (.ok (Request.decode exampleJunk exampleLine), { io with newlines := [] }) ∧
    (io.deliver []).getRawMessage.1.message = some exampleLine.toList := by
  let := JsonAccess.plain
  let := JsonWriter.compact
  let := exampleReader
  have hline : exampleLine.toList = '\x7b' :: exampleLine.toList.tail := by decide
  have hdeliver : io.deliver [] = io := by simp [deliver]
  have hraw : io.getRawMessage = (.ok '\x7b' exampleLine.toList.tail, { io with newlines := [] }) :=
    getRawMessage_line (hline ▸ hq)
  rw [hdeliver]
  constructor
  · unfold readRequest
    rw [hraw]
    dsimp only
    rw [← hline, String.ofList_toList, if_pos (by rfl)]
  · rw [hraw, IOStatus.message, ← hline]

/-- A turn in which the socket takes `n + 1` bytes. -/
def exampleSendTurn (n : ℕ) : WorkerTurn :=
  { exampleWorkerTurn 0 with writable := true, readable := false, sends := [.sent n] }

/-- Enough room for all the output. -/
theorem IOProtoHandler.flushBuffer_all {io : IOProtoHandler} (hopen : io.isOpen = true) :
    (io.flushBuffer [.sent io.outbuf.length]).1 = 0 ∧
    (io.flushBuffer [.sent io.outbuf.length]).2 = { io with accepted := io.outStream, outbuf := [] } := by
  unfold flushBuffer outStream
  rw [if_pos hopen]
  by_cases hzero : io.outbuf.length = 0
  · obtain ⟨⟩ := io
    simp_all [flushLoop]
  · simp [flushLoop, hzero]

section Turns

variable {io : IOProtoHandler}

theorem WorkerDispatch.exampleTurn_queued (hq : io.newlines = [exampleLine.toList]) :
    letI := JsonAccess.plain
    letI := JsonWriter.compact
    letI := exampleReader
    ∃ res, Turn { WorkerDispatch.new 0 [] with io := io } (some exampleLine.toList)
      { WorkerDispatch.new 0 [] with io := { io with newlines := [] }.writeResponse res } := by
  let := JsonAccess.plain
  let := JsonWriter.compact
  let := exampleReader
  obtain ⟨hread, hraw⟩ := exampleLine_queued hq
  obtain ⟨res, hrefused⟩ := exampleLine_refused { io with newlines := [] }
  have hpoll : ({ WorkerDispatch.new 0 [] with io := io } : WorkerDispatch).poll (exampleWorkerTurn 0) =
      (.input, { WorkerDispatch.new 0 [] with io := io.deliver [] }) := rfl
  refine ⟨res, exampleWorkerTurn 0, _, .new [], ?_, ?_, rfl⟩
  · unfold selectLoop
    rw [hpoll]
    dsimp only
    rw [show (exampleWorkerTurn 0).junk = exampleJunk from rfl, hread]
    exact hrefused
  · rw [inputLine, hpoll]
    exact hraw

theorem WorkerDispatch.exampleTurn_send (io : IOProtoHandler) (hopen : io.isOpen = true) :
    letI := JsonAccess.plain
    letI := JsonWriter.compact
    letI := exampleReader
    ∃ io', Turn { WorkerDispatch.new 0 [] with io := io } none { WorkerDispatch.new 0 [] with io := io' } ∧
      io'.outbuf = [] := by
  let := JsonAccess.plain
  let := JsonWriter.compact
  let := exampleReader
  have hdeliver : io.deliver [] = io := by simp [deliver]
  obtain ⟨hret, hsent⟩ := flushBuffer_all hopen
  have hpoll : ∃ io', ({ WorkerDispatch.new 0 [] with io := io } : WorkerDispatch).poll
      (exampleSendTurn io.outbuf.length) = (.idle, { WorkerDispatch.new 0 [] with io := io' }) ∧
      io'.outbuf = [] := by
    by_cases hout : io.outbuf = []
    · refine ⟨io, ?_, hout⟩
      simp [poll, exampleSendTurn, exampleWorkerTurn, exampleChunk, hdeliver, hout]
    · refine ⟨{ io with accepted := io.outStream, outbuf := [] }, ?_, rfl⟩
      simp [poll, exampleSendTurn, exampleWorkerTurn, exampleChunk, hdeliver, hout, hret, hsent]
  obtain ⟨io', hpoll, hempty⟩ := hpoll
  refine ⟨io', ⟨exampleSendTurn io.outbuf.length, _, .new [], ?_, ?_, rfl⟩, hempty⟩
  · unfold selectLoop
    rw [hpoll]
    rfl
  · rw [inputLine, hpoll]

theorem MainDispatch.exampleTurn_queued (hq : io.newlines = [exampleLine.toList]) :
    letI := JsonAccess.plain
    letI := JsonWriter.compact
    letI := exampleReader
    ∃ res, Turn { MainDispatch.new [] with io := io } (some exampleLine.toList)
      { MainDispatch.new [] with io := { io with newlines := [] }.writeResponse res } := by
  let := JsonAccess.plain
  let := JsonWriter.compact
  let := exampleReader
  obtain ⟨hread, hraw⟩ := exampleLine_queued hq
  obtain ⟨res, hrefused⟩ := exampleLine_refused { io with newlines := [] }
  have hpoll : ({ MainDispatch.new [] with io := io } : MainDispatch).poll (exampleControlTurn 0) =
      (.input, { MainDispatch.new [] with io := io.deliver [] }) := rfl
  refine ⟨res, exampleControlTurn 0, _, ?_, ?_, rfl⟩
  · unfold loopOnce
    rw [hpoll]
    dsimp only
    rw [show (exampleControlTurn 0).junk = exampleJunk from rfl, hread]
    dsimp only
    rw [show (exampleControlTurn 0).env = exampleEnv from rfl, hrefused]
  · rw [inputLine, hpoll]
    exact hraw

theorem MainDispatch.exampleTurn_send (io : IOProtoHandler) (hopen : io.isOpen = true) :
    letI := JsonAccess.plain
    letI := JsonWriter.compact
    letI := exampleReader
    ∃ io', Turn { MainDispatch.new [] with io := io } none { MainDispatch.new [] with io := io' } ∧
      io'.outbuf = [] := by
  let := JsonAccess.plain
  let := JsonWriter.compact
  let := exampleReader
  let t : ControlTurn := { exampleControlTurn 0 with
    writable := true, readable := false, selects := [.writable [.sent io.outbuf.length]] }
  have hdeliver : io.deliver [] = io := by simp [deliver]
  obtain ⟨hret, hsent⟩ := flushBuffer_all hopen
  have hflush : ∃ io', io.flushBufferBlock t.selects = (some 0, io') ∧ io'.outbuf = [] := by
    by_cases hout : io.outbuf = []
    · exact ⟨io, by simp [t, flushBufferBlock, hout], hout⟩
    · exact ⟨{ io with accepted := io.outStream, outbuf := [] },
        by simp [t, flushBufferBlock, hout, hret, hsent], rfl⟩
  obtain ⟨io', hflush, hempty⟩ := hflush
  have hpoll : ({ MainDispatch.new [] with io := io } : MainDispatch).poll t =
      (.idle, { MainDispatch.new [] with io := io' }) := by
    have hdelivered : (({ MainDispatch.new [] with io := io } : MainDispatch).io.deliver t.arrived) = io := hdeliver
    unfold poll
    rw [hdelivered]
    simp [t, exampleControlTurn, Selv.failed, hflush]
  refine ⟨io', ⟨t, _, ?_, ?_, rfl⟩, hempty⟩
  · unfold loopOnce
    rw [hpoll]
  · rw [inputLine, hpoll]

end Turns

/-- A worker gets two requests at once, serves them in two turns and sends both replies in a third. -/
theorem WorkerDispatch.replies_inTurn_two :
    letI := JsonAccess.plain
    letI := JsonWriter.compact
    letI := exampleReader
    ∃ (wd : ℕ → WorkerDispatch) (line : ℕ → Option (List Char)), IsRun Turn (.new 0 []) 3 wd line ∧
      served line 3 = [exampleLine.toList, exampleLine.toList] ∧ ReadsInTurn (wd 3).io ∧
      (Lines.complete '\n' (wd 3).io.accepted).length = 2 := by
  let := JsonAccess.plain
  let := JsonWriter.compact
  let := exampleReader
  obtain ⟨wd₁, ⟨t, wd, md, hturn, hline, hio⟩, hqueue, hopen⟩ := exampleWorkerTurn_turn 1
  have hfirst : Turn (.new 0 []) (some exampleLine.toList) { WorkerDispatch.new 0 [] with io := wd₁.io } :=
    ⟨t, wd, md, hturn, hline, hio⟩
  obtain ⟨res, hsecond⟩ := exampleTurn_queued hqueue
  obtain ⟨io, hthird, hsent⟩ := exampleTurn_send ({ wd₁.io with newlines := [] }.writeResponse res) hopen
  have hrun := isRun_three hfirst hsecond hthird
  obtain ⟨-, hqueued, hstream⟩ := run_inTurn hrun 3 le_rfl
  refine ⟨_, _, hrun, rfl, ((replies_inTurn hrun).1 3 le_rfl).1, ?_⟩
  have hcomplete : Lines.complete '\n' io.accepted = io.queued.map Response.line := hstream.complete_of_sent hsent
  exact (congrArg List.length hcomplete).trans ((List.length_map _).trans hqueued)

/-- So does the control connection. -/
theorem MainDispatch.replies_inOrder_two :
    letI := JsonAccess.plain
    letI := JsonWriter.compact
    letI := exampleReader
    ∃ (md : ℕ → MainDispatch) (line : ℕ → Option (List Char)) (replies : List (List Response)),
      IsRun Turn (.new []) 3 md line ∧ served line 3 = [exampleLine.toList, exampleLine.toList] ∧
      Replied (served line 3) replies (md 3).io ∧
      Lines.complete '\n' (md 3).io.accepted = replies.flatten.map Response.line := by
  let := JsonAccess.plain
  let := JsonWriter.compact
  let := exampleReader
  obtain ⟨md₁, ⟨t, md, hturn, hline, hio⟩, hqueue, hopen⟩ := exampleControlTurn_turn 1
  have hfirst : Turn (.new []) (some exampleLine.toList) { MainDispatch.new [] with io := md₁.io } :=
    ⟨t, md, hturn, hline, hio⟩
  obtain ⟨res, hsecond⟩ := exampleTurn_queued hqueue
  obtain ⟨io, hthird, hsent⟩ := exampleTurn_send ({ md₁.io with newlines := [] }.writeResponse res) hopen
  have hrun := isRun_three hfirst hsecond hthird
  obtain ⟨replies, hreplied, -⟩ := (replies_inOrder hrun).1 3 le_rfl
  have hcomplete : Lines.complete '\n' io.accepted = io.queued.map Response.line :=
    hreplied.streamed.complete_of_sent hsent
  exact ⟨_, _, replies, hrun, rfl, hreplied, hcomplete.trans (congrArg _ hreplied.queued)⟩

end Examples

end Sdkd
