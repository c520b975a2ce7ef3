import Sdkd.ControlLoop

/-!
# The descriptor of a connection

Every call that either loop passes its socket to, with whether the socket is still open: the end of the
stream closes it in `getRawMessage`, and both `run`s flush their output behind the loop.

## Main definitions

- `SocketUse` — a call the descriptor is passed to
- `getRawMessageUses`, `flushBufferUses`, `flushBufferBlockUses` — the calls of the handler's functions
- `SocketTurn` — a turn of a loop as the socket sees it

## Main results

- `runs_useOpenSocket_iff` — a closed socket is used exactly if there was output when it was closed
-/

namespace Sdkd

/-- The calls that take the descriptor. -/
inductive SocketCall where
  | fdSet
  | select
  | send
  | recv
  deriving DecidableEq

/-- A call with the descriptor, and whether it is that of an open socket. -/
structure SocketUse where
  call : SocketCall
  isOpen : Bool
  deriving DecidableEq

namespace IOProtoHandler

variable {io io' : IOProtoHandler}

/-! ## The calls of the handler -/

def uses (io : IOProtoHandler) (calls : List SocketCall) : List SocketUse :=
  calls.map fun call => ⟨call, io.isOpen⟩

theorem uses_isOpen (h : io.isOpen = true) (calls : List SocketCall) :
    ∀ u ∈ io.uses calls, u.isOpen = true := by
  intro u hu
  obtain ⟨call, -, rfl⟩ := List.mem_map.mp hu
  exact h

/-- The calls of `recv` in the loop of `readSocket`. -/
def recvCalls : List RecvResult → List SocketCall
  | [] => [.recv]
  | .data _ _ :: rest => .recv :: recvCalls rest
  | .eof :: _ => [.recv]
  | .error _ :: _ => [.recv]

def readSocketUses (io : IOProtoHandler) : List SocketUse :=
  io.uses (if io.isOpen then recvCalls io.script else [.recv])

/-- The calls of `getRawMessage`. -/
def getRawMessageUses (io : IOProtoHandler) : List SocketUse :=
  match _hq : io.newlines with
  | (_ :: _) :: _ => []
  | q =>
    readSocketUses { io with newlines := q.tail } ++
      match _hr : readSocket { io with newlines := q.tail } with
      | (rv, io') =>
        if io'.newlines ≠ [] then getRawMessageUses io'
        else
          match rv with
          | .eof => []
          | .error .ewouldblock => []
          | .error .eintr => getRawMessageUses io'
          | .error _ => []
termination_by (io.script.length, io.newlines.length)
decreasing_by
  all_goals
    have hprog := readSocket_progress { io with newlines := q.tail }
    rw [_hr] at hprog
    rcases hprog with hlt | ⟨heq, hne⟩
    · exact .left _ _ hlt
  · rename_i hnil
    dsimp only at heq
    subst heq
    refine .right _ ?_
    cases q with
    | nil => exact absurd rfl hnil
    | cons l q =>
      rw [_hq]
      exact Nat.lt_succ_self _
  · exact absurd rfl hne

/-- The calls of `send` in the loop of `flushBuffer`. -/
def sendCalls : List SendResult → FlushVars → List SocketCall
  | [], v => if v.remaining = 0 then [] else [.send]
  | r :: rest, v =>
    if v.remaining = 0 then []
    else
      match r with
      | .sent n =>
        let rv := min (n + 1) v.remaining
        .send :: sendCalls rest { v with sndbuf := v.sndbuf + rv, remaining := v.remaining - rv }
      | .zero => [.send]
      | .error .eintr => .send :: sendCalls rest v
      | .error _ => [.send]

def flushBufferUses (io : IOProtoHandler) (sends : List SendResult) : List SocketUse :=
  io.uses (sendCalls (if io.isOpen then sends else [.error .ebadf]) ⟨0, io.outbuf.length, 0⟩)

/-- The calls of `flushBufferBlock`. -/
def flushBufferBlockUses : List SelectResult → IOProtoHandler → List SocketUse
  | [], io => if io.outbuf = [] then [] else io.uses [.fdSet, .select]
  | r :: rest, io =>
    if io.outbuf = [] then []
    else io.uses [.fdSet, .select] ++
      match r with
      | .error .eintr => flushBufferBlockUses rest io
      | .error _ => []
      | .writable sends =>
        let out := io.flushBuffer sends
        io.flushBufferUses sends ++ if out.1 = -1 then [] else flushBufferBlockUses rest out.2

/-- The calls of `setupFdSets` and of the `select` behind it. -/
def selectUses (io : IOProtoHandler) : List SocketUse :=
  io.uses ([.fdSet, .fdSet] ++ (if io.outbuf ≠ [] then [.fdSet] else []) ++ [.select])

theorem getRawMessageUses_line {c : Char} {cs : List Char} {rest : List (List Char)}
    (h : io.newlines = (c :: cs) :: rest) : io.getRawMessageUses = [] := by
  rw [getRawMessageUses]
  split
  · rfl
  · next hno => exact absurd h (hno c cs rest)

theorem getRawMessageUses_read {rv : ReadEnd} (h : ∀ c cs rest, io.newlines ≠ (c :: cs) :: rest)
    (hr : readSocket { io with newlines := io.newlines.tail } = (rv, io')) :
    io.getRawMessageUses = readSocketUses { io with newlines := io.newlines.tail } ++
      if io'.newlines ≠ [] then io'.getRawMessageUses else
        match rv with
        | .eof => []
        | .error .ewouldblock => []
        | .error .eintr => io'.getRawMessageUses
        | .error _ => [] := by
  rw [getRawMessageUses]
  split
  · next c cs rest hq => exact absurd hq (h c cs rest)
  · congr 1
    split
    next rv' io₂ hr' =>
    rw [hr] at hr'
    cases hr'
    split_ifs
    · rfl
    · cases rv with
      | eof => rfl
      | error e => cases e <;> rfl

theorem getRawMessageUses_again {rv : ReadEnd} (h : ∀ c cs rest, io.newlines ≠ (c :: cs) :: rest)
    (hr : readSocket { io with newlines := io.newlines.tail } = (rv, io'))
    (hagain : io'.newlines ≠ [] ∨ rv = .error .eintr) :
    io.getRawMessageUses =
      readSocketUses { io with newlines := io.newlines.tail } ++ io'.getRawMessageUses := by
  by_cases hne : io'.newlines ≠ []
  · rw [getRawMessageUses_read h hr, if_pos hne]
  · obtain rfl : rv = .error .eintr := hagain.resolve_left hne
    rw [getRawMessageUses_read h hr, if_neg hne]

/-- A call of `getRawMessage` on an open socket uses it before it closes it. -/
theorem Gets.uses_isOpen {st : IOStatus} (h : Gets io st io') (hopen : io.isOpen = true) :
    ∀ u ∈ io.getRawMessageUses, u.isOpen = true := by
  have hread : ∀ io : IOProtoHandler, io.isOpen = true →
      ∀ u ∈ readSocketUses { io with newlines := io.newlines.tail }, u.isOpen = true :=
    fun io h => IOProtoHandler.uses_isOpen h _
  induction h with
  | line hq =>
    rw [getRawMessageUses_line hq]
    simp
  | again hq hr hagain _ ih =>
    rw [getRawMessageUses_again hq hr hagain]
    exact List.forall_mem_append.mpr ⟨hread _ hopen, ih ((readTail_isOpen hr).trans hopen)⟩
  | eof hq hr hnil | wait hq hr hnil =>
    rw [getRawMessageUses_read hq hr, if_neg (not_not.mpr hnil), List.append_nil]
    exact hread _ hopen
  | @fail io io₁ e hq hr hnil hwould hintr =>
    have hlast : io.getRawMessageUses = readSocketUses { io with newlines := io.newlines.tail } := by
      rw [getRawMessageUses_read hq hr, if_neg (not_not.mpr hnil)]
      cases e with
      | ewouldblock => exact absurd rfl hwould
      | eintr => exact absurd rfl hintr
      | ebadf => exact List.append_nil _
      | other n => exact List.append_nil _
    rw [hlast]
    exact hread io hopen

/-- A flush of an open socket uses it while it is open. -/
theorem flushBufferBlockUses_open (selects : List SelectResult) (h : io.isOpen = true) :
    ∀ u ∈ flushBufferBlockUses selects io, u.isOpen = true := by
  induction selects generalizing io with
  | nil =>
    unfold flushBufferBlockUses
    split_ifs
    · simp
    · exact uses_isOpen h _
  | cons r rest ih =>
    unfold flushBufferBlockUses
    split_ifs with hempty
    · simp
    · refine List.forall_mem_append.mpr ⟨uses_isOpen h _, ?_⟩
      cases r with
      | error e =>
        cases e with
        | eintr => exact ih h
        | _ => simp
      | writable sends =>
        refine List.forall_mem_append.mpr ⟨uses_isOpen h _, ?_⟩
        split_ifs
        · simp
        · exact ih ((SameInput.flushBuffer io sends).isOpen.trans h)

/-- A flush of a closed socket uses it exactly if there is output. -/
theorem flushBufferBlockUses_closed (selects : List SelectResult) (h : io.isOpen = false) :
    (∀ u ∈ flushBufferBlockUses selects io, u.isOpen = true) ↔ io.outbuf = [] := by
  by_cases hempty : io.outbuf = []
  · have hnone : flushBufferBlockUses selects io = [] := by
      cases selects <;> (unfold flushBufferBlockUses; rw [if_pos hempty])
    simp [hnone, hempty]
  · have hfirst : ⟨.fdSet, false⟩ ∈ flushBufferBlockUses selects io := by
      cases selects <;> (unfold flushBufferBlockUses; rw [if_neg hempty]; simp [uses, h])
    constructor
    · intro hall
      cases hall _ hfirst
    · exact fun hno => absurd hno hempty

theorem readSocket_outbuf (io : IOProtoHandler) : io.readSocket.2.outbuf = io.outbuf := by
  obtain ⟨inbuf, newlines, script, received, h⟩ := readSocket_frame io
  rw [h]

theorem readTail_outbuf {rv : ReadEnd}
    (hr : readSocket { io with newlines := io.newlines.tail } = (rv, io')) : io'.outbuf = io.outbuf := by
  have hout := readSocket_outbuf { io with newlines := io.newlines.tail }
  rwa [hr] at hout

/-- Reading leaves the output as it is. -/
theorem Gets.outbuf {st : IOStatus} (h : Gets io st io') : io'.outbuf = io.outbuf := by
  induction h with
  | line => rfl
  | again _ hr _ _ ih => exact ih.trans (readTail_outbuf hr)
  | eof _ hr =>
    have hout := readTail_outbuf hr
    exact hout
  | wait _ hr | fail _ hr => exact readTail_outbuf hr

/-- A response is at least a line feed. -/
theorem writeResponse_outbuf [JsonWriter] (io : IOProtoHandler) (res : Response) :
    (io.writeResponse res).outbuf ≠ [] := by
  unfold writeResponse
  dsimp only
  split_ifs with hlast
  · simp
  · intro hnil
    rw [List.append_eq_nil_iff] at hnil
    simp [hnil.2] at hlast

/-- A call of `getRawMessage` meets the end of the stream and closes the socket. -/
def MeetsEof (io : IOProtoHandler) : Prop := io.isOpen = true ∧ io.getRawMessage.2.isOpen = false

/-- The call that closes the socket returns an error. -/
theorem MeetsEof.err (h : io.MeetsEof) : io.getRawMessage.1 = .err := by
  by_contra hne
  have hopen := getRawMessage_isOpen io hne
  rw [h.1, h.2] at hopen
  cases hopen

/-! ## Turns -/

/-- A turn of a loop as the socket sees it: the calls it is passed to, and the handler that
`getRawMessage` is called on if the turn comes to the input. -/
structure SocketTurn where
  uses : List SocketUse
  reading : Option IOProtoHandler

/-- There is no output when the turn meets the end of the stream. -/
def SocketTurn.EofFlushed (tr : SocketTurn) : Prop :=
  ∀ r ∈ tr.reading, r.MeetsEof → r.outbuf = []

/-- What a turn makes of an open socket: it is open behind it, or the turn met the end of the stream and
the loop ends. -/
def SocketTurn.Leaves (tr : SocketTurn) (goesOn : Bool) (io' : IOProtoHandler) : Prop :=
  (io'.isOpen = true ∧ ∀ r ∈ tr.reading, ¬ r.MeetsEof) ∨
  (goesOn = false ∧ io'.isOpen = false ∧ ∃ r ∈ tr.reading, r.MeetsEof ∧ io'.outbuf = r.outbuf)

/-- A run of turns on an open socket: each of the first `n` lets the loop go on. -/
structure SocketRun (n : ℕ) (io : ℕ → IOProtoHandler) (tr : ℕ → SocketTurn) : Prop where
  start : (io 0).isOpen = true
  uses : ∀ k ≤ n, (io k).isOpen = true → ∀ u ∈ (tr k).uses, u.isOpen = true
  turn : ∀ k < n, (io k).isOpen = true → (tr k).Leaves true (io (k + 1))

namespace SocketRun

variable {n : ℕ} {tr : ℕ → SocketTurn} {ios : ℕ → IOProtoHandler} {last : IOProtoHandler}

/-- While the loop goes on the socket is open. -/
theorem isOpen (h : SocketRun n ios tr) : ∀ k ≤ n, (ios k).isOpen = true := by
  intro k
  induction k with
  | zero => exact fun _ => h.start
  | succ k ih =>
    intro hk
    obtain ⟨hopen, -⟩ | ⟨hno, -⟩ := h.turn k hk (ih (Nat.le_of_succ_le hk))
    · exact hopen
    · cases hno

/-- The turns of a run use the socket while it is open. -/
theorem uses_isOpen (h : SocketRun n ios tr) : ∀ k ≤ n, ∀ u ∈ (tr k).uses, u.isOpen = true :=
  fun k hk => h.uses k hk (h.isOpen k hk)

/-- Behind the last turn, the flush uses an open socket if and only if there was no output when the end of
the stream was met. -/
theorem flush_isOpen_iff (h : SocketRun n ios tr) (hlast : (tr n).Leaves false last)
    (selects : List SelectResult) :
    (∀ u ∈ flushBufferBlockUses selects last, u.isOpen = true) ↔ ∀ k ≤ n, (tr k).EofFlushed := by
  constructor
  · intro hflush k hk r hr heof
    obtain rfl | hlt := Nat.eq_or_lt_of_le hk
    · obtain ⟨-, hno⟩ | ⟨-, hclosed, r', hr', -, hout⟩ := hlast
      · exact absurd heof (hno r hr)
      · obtain rfl : r' = r := Option.some.inj (hr'.symm.trans hr)
        rw [← hout]
        exact (flushBufferBlockUses_closed selects hclosed).mp hflush
    · obtain ⟨-, hno⟩ | ⟨hno, -⟩ := h.turn k hlt (h.isOpen k hk)
      · exact absurd heof (hno r hr)
      · cases hno
  · intro hflushed
    obtain ⟨hopen, -⟩ | ⟨-, hclosed, r, hr, heof, hout⟩ := hlast
    · exact flushBufferBlockUses_open selects hopen
    · rw [flushBufferBlockUses_closed selects hclosed, hout]
      exact hflushed n le_rfl r hr heof

end SocketRun

end IOProtoHandler

open IOProtoHandler

/-! ## The two loops -/

section Turns

variable {p : Polled} {io r io' : IOProtoHandler} {b : Bool} {tr : SocketTurn}

/-- What `getRawMessage` leaves of an open socket. -/
theorem IOProtoHandler.SocketTurn.leaves_of_reading (hr : tr.reading = some r) (hopen : r.isOpen = true)
    (hsame : SameInput r.getRawMessage.2 io')
    (herr : r.getRawMessage.1 = .err → b = false ∧ io' = r.getRawMessage.2) : tr.Leaves b io' := by
  by_cases heof : r.MeetsEof
  · obtain ⟨hb, rfl⟩ := herr heof.err
    exact .inr ⟨hb, heof.2, r, hr, heof, r.gets.outbuf⟩
  · refine .inl ⟨?_, fun r' hr' => ?_⟩
    · rw [hsame.isOpen]
      by_contra hno
      exact heof ⟨hopen, Bool.eq_false_iff.mpr hno⟩
    · obtain rfl : r = r' := Option.some.inj (hr.symm.trans hr')
      exact heof

/-- What a turn leaves of an open socket. -/
theorem Polled.Does.leaves (h : p.Does io b io') (hopen : io.isOpen = true)
    (hreading : tr.reading = if p = .input then some io else none) : tr.Leaves b io' := by
  cases p with
  | blocked => exact h.elim
  | stop =>
    obtain ⟨-, rfl⟩ := h
    exact .inl ⟨hopen, by simp [hreading]⟩
  | idle =>
    obtain ⟨-, rfl⟩ := h
    exact .inl ⟨hopen, by simp [hreading]⟩
  | input => exact SocketTurn.leaves_of_reading hreading hopen h.1 h.2

/-- The calls of a turn are on an open socket if those of its flush are. -/
theorem IOProtoHandler.turn_uses_isOpen {flushes : List SocketUse} (h : io.isOpen = true)
    (hflushes : ∀ u ∈ flushes, u.isOpen = true) (hr : r.isOpen = true) :
    ∀ u ∈ io.selectUses ++ flushes ++ (if p = .input then some r else none).elim [] getRawMessageUses,
      u.isOpen = true := by
  refine List.forall_mem_append.mpr ⟨List.forall_mem_append.mpr ⟨uses_isOpen h _, hflushes⟩, ?_⟩
  by_cases hp : p = .input
  · rw [if_pos hp]
    exact r.gets.uses_isOpen hr
  · rw [if_neg hp]
    simp

end Turns

namespace WorkerDispatch

/-- A turn of `selectLoop` as the socket sees it. -/
def socketTurn (wd : WorkerDispatch) (t : WorkerTurn) : SocketTurn :=
  let io := wd.io.deliver t.arrived
  let reading := match wd.poll t with
    | (.input, wd) => some wd.io
    | _ => none
  let flushes := match t.selv with
    | .error _ => []
    | .ready n =>
      if n = 0 ∨ t.exc then []
      else if t.writable ∧ io.outbuf ≠ [] then io.flushBufferUses t.sends else []
  ⟨wd.io.selectUses ++ flushes ++ reading.elim [] getRawMessageUses, reading⟩

variable {wd wd' : WorkerDispatch} {t : WorkerTurn} {md' : MainDispatch} {b : Bool}

theorem poll_isOpen (h : wd.io.isOpen = true) : (wd.poll t).2.io.isOpen = true :=
  (wd.poll_sameInput t).isOpen.trans h

theorem socketTurn_reading (wd : WorkerDispatch) (t : WorkerTurn) : (wd.socketTurn t).reading =
    if (wd.poll t).1 = .input then some (wd.poll t).2.io else none := by
  unfold socketTurn
  obtain ⟨p, wd₁⟩ := wd.poll t
  cases p <;> rfl

/-- A turn uses an open socket while it is open. -/
theorem socketTurn_uses (h : wd.io.isOpen = true) :
    ∀ u ∈ (wd.socketTurn t).uses, u.isOpen = true := by
  show ∀ u ∈ wd.io.selectUses ++ _ ++ (wd.socketTurn t).reading.elim [] getRawMessageUses, u.isOpen = true
  rw [socketTurn_reading]
  refine turn_uses_isOpen h ?_ (poll_isOpen h)
  split
  · simp
  · split_ifs
    · simp
    · exact uses_isOpen h _
    · simp

variable [JsonAccess] [JsonReader] [JsonWriter]

theorem selectLoop_leaves (h : wd.io.isOpen = true)
    (hturn : wd.selectLoop t = .returned (b, wd', md')) : (wd.socketTurn t).Leaves b wd'.io :=
  (selectLoop_does hturn).leaves (poll_isOpen h) (socketTurn_reading wd t)

end WorkerDispatch

namespace MainDispatch

/-- A turn of `loopOnce` as the control socket sees it. -/
def socketTurn (md : MainDispatch) (t : ControlTurn) : SocketTurn :=
  let io := md.io.deliver t.arrived
  let reading := match md.poll t with
    | (.input, md) => some md.io
    | _ => none
  let flushes :=
    if t.selv.failed ∨ t.acceptExc ∨ t.exc then []
    else if t.writable then flushBufferBlockUses t.selects io else []
  ⟨md.io.selectUses ++ flushes ++ reading.elim [] getRawMessageUses, reading⟩

variable {md md' : MainDispatch} {t : ControlTurn} {b : Bool}

theorem poll_isOpen (h : md.io.isOpen = true) : (md.poll t).2.io.isOpen = true :=
  (md.poll_sameInput t).isOpen.trans h

theorem socketTurn_reading (md : MainDispatch) (t : ControlTurn) : (md.socketTurn t).reading =
    if (md.poll t).1 = .input then some (md.poll t).2.io else none := by
  unfold socketTurn
  obtain ⟨p, md₁⟩ := md.poll t
  cases p <;> rfl

/-- A turn uses an open socket while it is open. -/
theorem socketTurn_uses (h : md.io.isOpen = true) :
    ∀ u ∈ (md.socketTurn t).uses, u.isOpen = true := by
  show ∀ u ∈ md.io.selectUses ++ _ ++ (md.socketTurn t).reading.elim [] getRawMessageUses, u.isOpen = true
  rw [socketTurn_reading]
  refine turn_uses_isOpen h ?_ (poll_isOpen h)
  split_ifs
  · simp
  · exact flushBufferBlockUses_open _ h
  · simp

variable [JsonAccess] [JsonReader] [JsonWriter]

theorem loopOnce_leaves (h : md.io.isOpen = true)
    (hturn : md.loopOnce t = .returned (b, md')) : (md.socketTurn t).Leaves b md'.io :=
  (loopOnce_does hturn).leaves (poll_isOpen h) (socketTurn_reading md t)

end MainDispatch

section Runs

variable [JsonAccess] [JsonReader] [JsonWriter]

/-- A run of the loop of `WorkerDispatch::run`: turn `k` starts in the state `wd k`, and the turns before
turn `n` let it go on. Between two turns other threads may change what is not the worker's own, but not its
socket. -/
structure WorkerDispatch.WorkerRun (id : ℕ) (script : List RecvResult) (n : ℕ) (wd : ℕ → WorkerDispatch)
    (t : ℕ → WorkerTurn) : Prop where
  start : wd 0 = .new id script
  turn : ∀ k < n, ∃ wd₁ md₁, (wd k).selectLoop (t k) = .returned (true, wd₁, md₁) ∧
    (wd (k + 1)).io = wd₁.io

theorem WorkerDispatch.WorkerRun.socketRun {id : ℕ} {script : List RecvResult} {n : ℕ}
    {wd : ℕ → WorkerDispatch} {t : ℕ → WorkerTurn} (h : WorkerRun id script n wd t) :
    SocketRun n (fun k => (wd k).io) (fun k => (wd k).socketTurn (t k)) where
  start := by rw [h.start]; rfl
  uses := fun _ _ => socketTurn_uses
  turn := fun k hk hopen => by
    obtain ⟨wd₁, md₁, hturn, hio⟩ := h.turn k hk
    rw [hio]
    exact selectLoop_leaves hopen hturn

theorem MainDispatch.ControlRun.socketRun {script : List RecvResult} {n : ℕ}
    {md : ℕ → MainDispatch} {t : ℕ → ControlTurn} (h : ControlRun script n md t) :
    SocketRun n (fun k => (md k).io) (fun k => (md k).socketTurn (t k)) where
  start := by rw [h.start]; rfl
  uses := fun _ _ => socketTurn_uses
  turn := fun k hk hopen => by
    obtain ⟨md₁, hturn, hio⟩ := h.turn k hk
    rw [hio]
    exact loopOnce_leaves hopen hturn

/-- **Closed sockets.** The turns of a run of either loop use its socket while it is open. If the last turn
ends the loop, then so does the flush behind it, if and only if in every turn there is no output when the
end of the stream is met. -/
theorem runs_useOpenSocket_iff :
    (∀ id script n wd t, WorkerDispatch.WorkerRun id script n wd t →
      (∀ k ≤ n, ∀ u ∈ ((wd k).socketTurn (t k)).uses, u.isOpen = true) ∧
      ∀ wd' md', (wd n).selectLoop (t n) = .returned (false, wd', md') → ∀ selects,
        ((∀ u ∈ flushBufferBlockUses selects wd'.io, u.isOpen = true) ↔
          ∀ k ≤ n, ((wd k).socketTurn (t k)).EofFlushed)) ∧
    (∀ script n md t, MainDispatch.ControlRun script n md t →
      (∀ k ≤ n, ∀ u ∈ ((md k).socketTurn (t k)).uses, u.isOpen = true) ∧
      ∀ md', (md n).loopOnce (t n) = .returned (false, md') → ∀ selects,
        ((∀ u ∈ flushBufferBlockUses selects md'.io, u.isOpen = true) ↔
          ∀ k ≤ n, ((md k).socketTurn (t k)).EofFlushed)) := by
  constructor
  · intro id script n wd t hrun
    refine ⟨hrun.socketRun.uses_isOpen, fun wd' md' hend selects => ?_⟩
    exact hrun.socketRun.flush_isOpen_iff
      (WorkerDispatch.selectLoop_leaves (hrun.socketRun.isOpen n le_rfl) hend) selects
  · intro script n md t hrun
    refine ⟨hrun.socketRun.uses_isOpen, fun md' hend selects => ?_⟩
    exact hrun.socketRun.flush_isOpen_iff
      (MainDispatch.loopOnce_leaves (hrun.socketRun.isOpen n le_rfl) hend) selects

end Runs

section Examples

/-- The turn of a worker in which the end of the stream arrives, while the socket takes no output. -/
def eofWorkerTurn : WorkerTurn := { exampleWorkerTurn 0 with arrived := [.eof] }

/-- The same turn of the control connection. -/
def eofControlTurn : ControlTurn := { exampleControlTurn 0 with arrived := [.eof] }

/-- The end of the stream is all that is left to read. -/
theorem IOProtoHandler.getRawMessage_eof {io : IOProtoHandler} (hopen : io.isOpen = true)
    (hnewlines : io.newlines = []) (hscript : io.script = [.eof]) :
    io.getRawMessage = (.err, { io with isOpen := false }) := by
  have hread : readSocket { io with newlines := io.newlines.tail } = (.eof, io) := by
    cases io
    dsimp only at hopen hnewlines hscript
    subst hopen hnewlines hscript
    rfl
  rw [getRawMessage_read (by simp [hnewlines]) hread, if_neg (by simp [hnewlines])]

/-- The states of a worker whose first turn leaves `wd`, and the turns. -/
def exampleWorkers (wd : WorkerDispatch) (k : ℕ) : WorkerDispatch := if k = 0 then .new 0 [] else wd

def exampleWorkerTurns (k : ℕ) : WorkerTurn := if k = 0 then exampleWorkerTurn 1 else eofWorkerTurn

def exampleControls (md : MainDispatch) (k : ℕ) : MainDispatch := if k = 0 then .new [] else md

def exampleControlTurns (k : ℕ) : ControlTurn := if k = 0 then exampleControlTurn 1 else eofControlTurn

/-- A worker answers a request, and before the socket has taken the reply it meets the end of the
stream. -/
theorem exampleWorkers_run :
    letI := JsonAccess.plain
    letI := JsonWriter.compact
    letI := exampleReader
    ∃ wd wd' md', WorkerDispatch.WorkerRun 0 [] 1 (exampleWorkers wd) exampleWorkerTurns ∧
      (exampleWorkers wd 1).selectLoop (exampleWorkerTurns 1) = .returned (false, wd', md') ∧
      wd'.io.isOpen = false ∧ wd'.io.outbuf ≠ [] := by
  let := JsonAccess.plain
  let := JsonWriter.compact
  let := exampleReader
  obtain ⟨wd, io, res, hturn, hio, hnewlines, hscript, hopen⟩ := exampleWorkerTurn_selectLoop 0
  have hraw : (wd.io.deliver [.eof]).getRawMessage =
      (.err, { wd.io.deliver [.eof] with isOpen := false }) := by
    refine getRawMessage_eof ?_ ?_ ?_ <;> rw [hio]
    · exact hopen
    · exact hnewlines
    · exact congrArg (· ++ [.eof]) hscript
  refine ⟨wd, { wd with io := { wd.io.deliver [.eof] with isOpen := false } }, eofWorkerTurn.md,
    ⟨rfl, fun k hk => ?_⟩, ?_, rfl, ?_⟩
  · obtain rfl := Nat.lt_one_iff.mp hk
    exact ⟨wd, _, hturn, rfl⟩
  · show wd.selectLoop eofWorkerTurn = _
    have hpoll : wd.poll eofWorkerTurn = (.input, { wd with io := wd.io.deliver [.eof] }) := rfl
    unfold WorkerDispatch.selectLoop IOProtoHandler.readRequest
    rw [hpoll]
    dsimp only
    rw [hraw]
  · show wd.io.outbuf ≠ []
    rw [hio]
    exact writeResponse_outbuf io res

/-- So does the control connection. -/
theorem exampleControls_run :
    letI := JsonAccess.plain
    letI := JsonWriter.compact
    letI := exampleReader
    ∃ md md', MainDispatch.ControlRun [] 1 (exampleControls md) exampleControlTurns ∧
      (exampleControls md 1).loopOnce (exampleControlTurns 1) = .returned (false, md') ∧
      md'.io.isOpen = false ∧ md'.io.outbuf ≠ [] := by
  let := JsonAccess.plain
  let := JsonWriter.compact
  let := exampleReader
  obtain ⟨md, io, res, hturn, hio, hnewlines, hscript, hopen⟩ := exampleControlTurn_loopOnce 0
  have hraw : (md.io.deliver [.eof]).getRawMessage =
      (.err, { md.io.deliver [.eof] with isOpen := false }) := by
    refine getRawMessage_eof ?_ ?_ ?_ <;> rw [hio]
    · exact hopen
    · exact hnewlines
    · exact congrArg (· ++ [.eof]) hscript
  refine ⟨md, { md with io := { md.io.deliver [.eof] with isOpen := false } },
    ⟨rfl, fun k _ e he => ?_, fun k hk => ?_⟩, ?_, rfl, ?_⟩
  · -- no `select` fails
    unfold exampleControlTurns at he
    split_ifs at he <;> cases he
  · obtain rfl := Nat.lt_one_iff.mp hk
    exact ⟨md, hturn, rfl⟩
  · show md.loopOnce eofControlTurn = _
    have hpoll : md.poll eofControlTurn = (.input, { md with io := md.io.deliver [.eof] }) := rfl
    unfold MainDispatch.loopOnce IOProtoHandler.readRequest
    rw [hpoll]
    dsimp only
    rw [hraw]
  · show md.io.outbuf ≠ []
    rw [hio]
    exact writeResponse_outbuf io res

theorem runs_useOpenSocket_iff_eof :
    letI := JsonAccess.plain
    letI := JsonWriter.compact
    letI := exampleReader
    (∃ wd, (∀ k ≤ 1, ∀ u ∈ ((exampleWorkers wd k).socketTurn (exampleWorkerTurns k)).uses,
      u.isOpen = true)) ∧
    ∃ md, (∀ k ≤ 1, ∀ u ∈ ((exampleControls md k).socketTurn (exampleControlTurns k)).uses,
      u.isOpen = true) := by
  let := JsonAccess.plain
  let := JsonWriter.compact
  let := exampleReader
  obtain ⟨wd, -, -, hworker, -⟩ := exampleWorkers_run
  obtain ⟨md, -, hcontrol, -⟩ := exampleControls_run
  exact ⟨⟨wd, (runs_useOpenSocket_iff.1 _ _ _ _ _ hworker).1⟩,
    ⟨md, (runs_useOpenSocket_iff.2 _ _ _ _ hcontrol).1⟩⟩

/-- Both then pass the closed socket to `FD_SET` and `select`. -/
theorem closedSocket_used :
    letI := JsonAccess.plain
    letI := JsonWriter.compact
    letI := exampleReader
    (∃ wd wd' md', WorkerDispatch.WorkerRun 0 [] 1 (exampleWorkers wd) exampleWorkerTurns ∧
      (exampleWorkers wd 1).selectLoop (exampleWorkerTurns 1) = .returned (false, wd', md') ∧
      ¬ ∀ u ∈ flushBufferBlockUses [] wd'.io, u.isOpen = true) ∧
    (∃ md md', MainDispatch.ControlRun [] 1 (exampleControls md) exampleControlTurns ∧
      (exampleControls md 1).loopOnce (exampleControlTurns 1) = .returned (false, md') ∧
      ¬ ∀ u ∈ flushBufferBlockUses [] md'.io, u.isOpen = true) := by
  let := JsonAccess.plain
  let := JsonWriter.compact
  let := exampleReader
  obtain ⟨wd, wd', _, hworker, hend, hclosed, hout⟩ := exampleWorkers_run
  obtain ⟨md, md', hcontrol, hend', hclosed', hout'⟩ := exampleControls_run
  exact ⟨⟨wd, wd', _, hworker, hend, fun h => hout ((flushBufferBlockUses_closed [] hclosed).mp h)⟩,
    ⟨md, md', hcontrol, hend', fun h => hout' ((flushBufferBlockUses_closed [] hclosed').mp h)⟩⟩

end Examples

end Sdkd
