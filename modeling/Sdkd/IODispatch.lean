import Mathlib.Tactic.SplitIfs
import Sdkd.Lib.Lines
import Sdkd.Message

/-!
# Reading and writing messages

`IODispatch.cpp`: the protocol handler that cuts what it receives into lines and buffers what it
sends. What `recv`, `send` and `select` are going to return is given as a list of results; after its
last entry a socket has nothing to read and takes nothing.

## Main definitions

- `IOProtoHandler.readSocket`, `getRawMessage`, `readRequest`
- `IOProtoHandler.flushBuffer`, `flushBufferBlock`, `writeResponse`

## Main results

- `IOProtoHandler.gets` — the ways a call of `getRawMessage` can go, for inductions
-/

namespace Sdkd

/-- The values of `errno` the handler tells apart. -/
inductive Errno where
  | ewouldblock
  | eintr
  | ebadf
  | other (n : ℕ)
  deriving DecidableEq

/-- A result of `recv`: a chunk of at least one byte, the end of the stream, or an error. -/
inductive RecvResult where
  | data (c : Char) (cs : List Char)
  | eof
  | error (e : Errno)
  deriving DecidableEq

/-- A result of `send`: `n + 1` bytes, or all it was given if these are fewer; none; or an error. -/
inductive SendResult where
  | sent (n : ℕ)
  | zero
  | error (e : Errno)
  deriving DecidableEq

/-- A result of the `select` in `flushBufferBlock`, and what the sends after it return. -/
inductive SelectResult where
  | error (e : Errno)
  | writable (sends : List SendResult)
  deriving DecidableEq

/-- A protocol handler with its socket. `script` is what `recv` is going to return; `received`,
`accepted` and `queued` are history variables: the bytes received, the bytes the socket has taken and
the responses written. -/
structure IOProtoHandler where
  isOpen : Bool
  inbuf : List Char
  outbuf : List Char
  newlines : List (List Char)
  script : List RecvResult
  received : List Char
  accepted : List Char
  queued : List Response

/-- `IOStatus`; with `OK` comes a message `c :: cs`, which is not empty. -/
inductive IOStatus where
  | ok (c : Char) (cs : List Char)
  | notyet
  | err
  deriving DecidableEq

/-- How a call of `readSocket` ended: with a return value of zero, or with an error. -/
inductive ReadEnd where
  | eof
  | error (e : Errno)
  deriving DecidableEq

namespace IOProtoHandler

/-- A handler on a new connection. -/
def fresh (script : List RecvResult) : IOProtoHandler where
  isOpen := true
  inbuf := []
  outbuf := []
  newlines := []
  script := script
  received := []
  accepted := []
  queued := []

/-! ## Input -/

/-- The loop over the bytes of a chunk: an ended line goes to `newlines`, other bytes to `inbuf`. -/
def ingest (io : IOProtoHandler) (cs : List Char) : IOProtoHandler :=
  let cut := Lines.ingest '\n' (io.newlines, io.inbuf) cs
  { io with newlines := cut.1, inbuf := cut.2, received := io.received ++ cs }

/-- The loop of `readSocket`. The end of the stream is there to be read again. -/
def readAll : List RecvResult → IOProtoHandler → ReadEnd × IOProtoHandler
  | [], io => (.error .ewouldblock, { io with script := [] })
  | .data c cs :: rest, io => readAll rest (io.ingest (c :: cs))
  | .eof :: rest, io => (.eof, { io with script := .eof :: rest })
  | .error e :: rest, io => (.error e, { io with script := rest })

def readSocket (io : IOProtoHandler) : ReadEnd × IOProtoHandler :=
  if io.isOpen then readAll io.script io else (.error .ebadf, io)

theorem readAll_script_le (script : List RecvResult) (io : IOProtoHandler) :
    (readAll script io).2.script.length ≤ script.length := by
  induction script generalizing io with
  | nil => exact Nat.le_refl _
  | cons r rest ih =>
    cases r with
    | data c cs => exact Nat.le_trans (ih _) (Nat.le_succ _)
    | eof => exact Nat.le_refl _
    | error e => exact Nat.le_succ _

/-- A call of `readSocket` uses up some of the script, or it changes nothing and was not
interrupted. -/
theorem readSocket_progress (io : IOProtoHandler) :
    io.readSocket.2.script.length < io.script.length ∨
    (io.readSocket.2 = io ∧ io.readSocket.1 ≠ .error .eintr) := by
  unfold readSocket
  split_ifs
  · cases hs : io.script with
    | nil => exact .inr ⟨by simp [readAll, ← hs], by simp [readAll]⟩
    | cons r rest =>
      cases r with
      | data c cs => exact .inl (Nat.lt_succ_of_le (readAll_script_le rest _))
      | eof => exact .inr ⟨by simp [readAll, ← hs], by simp [readAll]⟩
      | error e => exact .inl (Nat.lt_succ_self _)
  · exact .inr ⟨rfl, by simp⟩

/-- `getRawMessage`. An empty line is dropped and the socket is read; `continue` and the recursive call
do the same thing, since at `continue` the queue is empty. -/
def getRawMessage (io : IOProtoHandler) : IOStatus × IOProtoHandler :=
  match _hq : io.newlines with
  | (c :: cs) :: rest => (.ok c cs, { io with newlines := rest })
  | q =>
    match _hr : readSocket { io with newlines := q.tail } with
    | (rv, io') =>
      if io'.newlines ≠ [] then getRawMessage io'
      else
        match rv with
        | .eof => (.err, { io' with isOpen := false })
        | .error .ewouldblock => (.notyet, io')
        | .error .eintr => getRawMessage io'
        | .error _ => (.err, io')
termination_by (io.script.length, io.newlines.length)
decreasing_by
  all_goals
    have hprog := readSocket_progress { io with newlines := q.tail }
    rw [_hr] at hprog
    rcases hprog with hlt | ⟨heq, hne⟩
    · exact .left _ _ hlt
  · rename_i hnil
    dsimp only at heq
    subst heq
    refine .right _ ?_
    cases q with
    | nil => exact absurd rfl hnil
    | cons l q =>
      rw [_hq]
      exact Nat.lt_succ_self _
  · exact absurd rfl hne

theorem getRawMessage_line {io : IOProtoHandler} {c : Char} {cs : List Char}
    {rest : List (List Char)} (h : io.newlines = (c :: cs) :: rest) :
    io.getRawMessage = (.ok c cs, { io with newlines := rest }) := by
  rw [getRawMessage]
  split
  · next c' cs' rest' hq =>
    rw [h] at hq
    cases hq
    rfl
  · next hno => exact absurd h (hno c cs rest)

/-- A call that finds no non-empty line at the head of the queue reads the socket. -/
theorem getRawMessage_read {io : IOProtoHandler} {rv : ReadEnd} {io' : IOProtoHandler}
    (h : ∀ c cs rest, io.newlines ≠ (c :: cs) :: rest)
    (hr : readSocket { io with newlines := io.newlines.tail } = (rv, io')) :
    io.getRawMessage = if io'.newlines ≠ [] then io'.getRawMessage else
      match rv with
      | .eof => (.err, { io' with isOpen := false })
      | .error .ewouldblock => (.notyet, io')
      | .error .eintr => io'.getRawMessage
      | .error _ => (.err, io') := by
  rw [getRawMessage]
  split
  · next c cs rest hq => exact absurd hq (h c cs rest)
  · split
    next rv' io₂ hr' =>
    rw [hr] at hr'
    cases hr'
    split_ifs
    · rfl
    · cases rv with
      | eof => rfl
      | error e => cases e <;> rfl

/-- What a call of `getRawMessage` does: it takes a line, or it reads the socket, having dropped an empty line
if there was one, and starts again or returns. -/
inductive Gets : IOProtoHandler → IOStatus → IOProtoHandler → Prop
  | line {io : IOProtoHandler} {c : Char} {cs : List Char} {rest : List (List Char)}
    (hq : io.newlines = (c :: cs) :: rest) : Gets io (.ok c cs) { io with newlines := rest }
  | again {io io₁ io' : IOProtoHandler} {rv : ReadEnd} {st : IOStatus}
    (hq : ∀ c cs rest, io.newlines ≠ (c :: cs) :: rest)
    (hr : readSocket { io with newlines := io.newlines.tail } = (rv, io₁))
    (hagain : io₁.newlines ≠ [] ∨ rv = .error .eintr) (h : Gets io₁ st io') : Gets io st io'
  | eof {io io₁ : IOProtoHandler} (hq : ∀ c cs rest, io.newlines ≠ (c :: cs) :: rest)
    (hr : readSocket { io with newlines := io.newlines.tail } = (.eof, io₁)) (hnil : io₁.newlines = []) :
    Gets io .err { io₁ with isOpen := false }
  | wait {io io₁ : IOProtoHandler} (hq : ∀ c cs rest, io.newlines ≠ (c :: cs) :: rest)
    (hr : readSocket { io with newlines := io.newlines.tail } = (.error .ewouldblock, io₁))
    (hnil : io₁.newlines = []) : Gets io .notyet io₁
  | fail {io io₁ : IOProtoHandler} {e : Errno} (hq : ∀ c cs rest, io.newlines ≠ (c :: cs) :: rest)
    (hr : readSocket { io with newlines := io.newlines.tail } = (.error e, io₁)) (hnil : io₁.newlines = [])
    (hwould : e ≠ .ewouldblock) (hintr : e ≠ .eintr) : Gets io .err io₁

theorem gets (io : IOProtoHandler) : Gets io io.getRawMessage.1 io.getRawMessage.2 := by
  induction io using getRawMessage.induct with
  | case1 io c cs rest hq =>
    rw [getRawMessage_line hq]
    exact .line hq
  | case2 io rv io₁ hne hq hr ih =>
    rw [getRawMessage_read hq hr, if_pos hne]
    exact .again hq hr (.inl hne) ih
  | case3 io io₁ hnil hq hr =>
    rw [getRawMessage_read hq hr, if_neg hnil]
    exact .eof hq hr (not_not.mp hnil)
  | case4 io io₁ hnil hq hr =>
    rw [getRawMessage_read hq hr, if_neg hnil]
    exact .wait hq hr (not_not.mp hnil)
  | case5 io io₁ hnil hq hr _ ih =>
    rw [getRawMessage_read hq hr, if_neg hnil]
    exact .again hq hr (.inr rfl) ih
  | case6 io io₁ hnil e hq hr hwould hintr =>
    have hwould' : e ≠ .ewouldblock := by
      rintro rfl
      exact hwould hr HEq.rfl rfl
    have hintr' : e ≠ .eintr := by
      rintro rfl
      exact hintr hr HEq.rfl rfl
    have hfail : io.getRawMessage = (.err, io₁) := by
      rw [getRawMessage_read hq hr, if_neg hnil]
      cases e with
      | ewouldblock => exact absurd rfl hwould'
      | eintr => exact absurd rfl hintr'
      | ebadf => rfl
      | other n => rfl
    rw [hfail]
    exact .fail hq hr (not_not.mp hnil) hwould' hintr'

/-! ## Output -/

/-- `writeResponse`. -/
def writeResponse [JsonWriter] (io : IOProtoHandler) (res : Response) : IOProtoHandler :=
  let encoded := res.encode.toList
  let encoded := if encoded.getLast? ≠ some '\n' then encoded ++ ['\n'] else encoded
  { io with outbuf := io.outbuf ++ encoded, queued := io.queued ++ [res] }

@[simp] theorem writeResponse_queued [JsonWriter] (io : IOProtoHandler) (res : Response) :
    (io.writeResponse res).queued = io.queued ++ [res] := rfl

/-- The two local variables of `flushBuffer` and its return value so far. -/
structure FlushVars where
  sndbuf : ℕ
  remaining : ℕ
  fbret : ℤ

/-- The loop of `flushBuffer`: `sndbuf` is an offset into `outbuf`. -/
def flushLoop : List SendResult → FlushVars → IOProtoHandler → FlushVars × IOProtoHandler
  | [], v, io => (v, io)
  | r :: rest, v, io =>
    if v.remaining = 0 then (v, io)
    else
      match r with
      | .sent n =>
        let rv := min (n + 1) v.remaining
        flushLoop rest { v with sndbuf := v.sndbuf + rv, remaining := v.remaining - rv }
          { io with accepted := io.accepted ++ (io.outbuf.drop v.sndbuf).take rv }
      | .zero => ({ v with fbret := -1 }, io)
      | .error .eintr => flushLoop rest v io
      | .error .ewouldblock => ({ v with fbret := 0 }, io)
      | .error _ => ({ v with fbret := -1 }, io)

/-- `flushBuffer`; a closed socket refuses every send. -/
def flushBuffer (io : IOProtoHandler) (sends : List SendResult) : ℤ × IOProtoHandler :=
  let sends := if io.isOpen then sends else [.error .ebadf]
  let out := flushLoop sends ⟨0, io.outbuf.length, 0⟩ io
  (out.1.fbret,
    { out.2 with outbuf := out.2.outbuf.drop (out.2.outbuf.length - out.1.remaining) })

/-- `flushBufferBlock`; `none` while it is still blocked in its `select`. -/
def flushBufferBlock : List SelectResult → IOProtoHandler → Option ℤ × IOProtoHandler
  | [], io => (if io.outbuf = [] then some 0 else none, io)
  | r :: rest, io =>
    if io.outbuf = [] then (some 0, io)
    else
      match r with
      | .error .eintr => flushBufferBlock rest io
      | .error _ => (some (-1), io)
      | .writable sends =>
        let out := io.flushBuffer sends
        if out.1 = -1 then (some (-1), out.2) else flushBufferBlock rest out.2

end IOProtoHandler

/-! ## Requests -/

/-- What `readRequest` returns: 0, -1 with the request pointer untouched, -1 with the pointer left on a
request that has been deleted, or 1 with a request. -/
inductive ReadResult where
  | notyet
  | err
  | invalid
  | ok (req : Request)

/-- `readRequest`; `junk` is what the memory of the new request happens to hold. -/
def IOProtoHandler.readRequest [JsonAccess] [JsonReader] [JsonWriter] (io : IOProtoHandler)
    (junk : Message) : ReadResult × IOProtoHandler :=
  match io.getRawMessage with
  | (.notyet, io) => (.notyet, io)
  | (.err, io) => (.err, io)
  | (.ok c cs, io) =>
    let req := Request.decode junk (String.ofList (c :: cs))
    if Request.isValid req then (.ok req, io)
    else (.invalid, io.writeResponse (.ofRequest req req.err))

/-- What `readRequest` returns, by whether `getRawMessage` has failed. -/
theorem IOProtoHandler.readRequest_cases [JsonAccess] [JsonReader] [JsonWriter] (io : IOProtoHandler)
    (junk : Message) :
    (io.getRawMessage.1 = .err ∧ io.readRequest junk = (.err, io.getRawMessage.2)) ∨
    (io.getRawMessage.1 ≠ .err ∧ (io.readRequest junk = (.notyet, io.getRawMessage.2) ∨
      (∃ req, io.readRequest junk = (.ok req, io.getRawMessage.2)) ∨
      ∃ res, io.readRequest junk = (.invalid, io.getRawMessage.2.writeResponse res))) := by
  unfold readRequest
  generalize io.getRawMessage = out
  obtain ⟨st, io⟩ := out
  cases st with
  | notyet => exact .inr ⟨fun herr => IOStatus.noConfusion herr, .inl rfl⟩
  | err => exact .inl ⟨rfl, rfl⟩
  | ok c cs =>
    refine .inr ⟨fun herr => IOStatus.noConfusion herr, .inr ?_⟩
    dsimp only
    split_ifs
    · exact .inl ⟨_, rfl⟩
    · exact .inr ⟨_, rfl⟩

end Sdkd
