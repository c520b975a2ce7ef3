import Sdkd.Conversations

/-!
# Delivery

When the bytes of a reply reach the client. A turn of a worker sends a part of its output at most, a turn of
the control connection sends all of it or blocks.

## Main definitions

- `WorkerTurn.room` — how much the socket of a worker takes in a turn
- `WorkerDispatch.IsLoop` — a run of the loop with its turns

## Main results

- `delivered` — a reply is with the client once the socket has been ready often enough
-/

namespace Sdkd

namespace IOProtoHandler

variable {io io' : IOProtoHandler}

/-- How many bytes the sends take, if they are given so many. -/
def takenBy : List SendResult → ℕ
  | .sent n :: rest => n + 1 + takenBy rest
  | .error .eintr :: rest => takenBy rest
  | _ => 0

theorem flushLoop_takes (sends : List SendResult) (v : FlushVars) (io : IOProtoHandler)
    (hv : v.sndbuf + v.remaining = io.outbuf.length) :
    io.accepted.length + min v.remaining (takenBy sends) ≤
      (flushLoop sends v io).2.accepted.length := by
  induction sends generalizing v io with
  | nil => simp [flushLoop, takenBy]
  | cons r rest ih =>
    unfold flushLoop
    split_ifs with hzero
    · simp [hzero]
    · cases r with
      | sent n =>
        have hlater := ih { v with sndbuf := v.sndbuf + min (n + 1) v.remaining,
                                   remaining := v.remaining - min (n + 1) v.remaining }
          { io with accepted := io.accepted ++
            (io.outbuf.drop v.sndbuf).take (min (n + 1) v.remaining) } (by dsimp only; omega)
        refine le_trans ?_ hlater
        simp only [List.length_append, List.length_take, List.length_drop, takenBy]
        omega
      | zero => simp [takenBy]
      | error e =>
        cases e with
        | eintr => exact ih v io hv
        | ewouldblock | ebadf | other => simp [takenBy]

theorem flushBuffer_takes (io : IOProtoHandler) (sends : List SendResult) (hopen : io.isOpen = true) :
    io.accepted.length + min io.outbuf.length (takenBy sends) ≤
      (io.flushBuffer sends).2.accepted.length := by
  unfold flushBuffer
  rw [if_pos hopen]
  exact flushLoop_takes sends ⟨0, io.outbuf.length, 0⟩ io (Nat.zero_add _)

/-- Replies join the end of the output. -/
theorem Replies.outStream_mono [JsonAccess] [JsonReader] [JsonWriter] {line : Option (List Char)}
    {rs : List Response} (h : Replies line rs io io') (hs : io.Streamed) : io.outStream <+: io'.outStream := by
  rw [hs, h.streamed hs, h.queued, List.flatMap_append]
  exact List.prefix_append _ _

/-- What the socket has taken is an initial part of the output. -/
theorem accepted_prefix (io : IOProtoHandler) : io.accepted <+: io.outStream := List.prefix_append _ _

/-- Output is with the client once as many bytes have been taken. -/
theorem prefix_accepted (h : io.outStream <+: io'.outStream)
    (hlen : io.outStream.length ≤ io'.accepted.length) : io.outStream <+: io'.accepted :=
  List.prefix_of_prefix_length_le h io'.accepted_prefix hlen

/-- The client can read every reply among this output. -/
theorem Streamed.replies_read [JsonWriter] (hs : io.Streamed) (h : io.outStream <+: io'.accepted) :
    io.queued.length ≤ (Lines.complete '\n' io'.accepted).length := by
  have hle : (Lines.complete '\n' io.outStream).length ≤ (Lines.complete '\n' io'.accepted).length :=
    (Lines.complete_mono h).length_le
  rwa [hs.complete, List.length_map] at hle

end IOProtoHandler

open IOProtoHandler

/-! ## Workers -/

/-- How many bytes the socket takes in the turn, if there are so many. -/
def WorkerTurn.room (t : WorkerTurn) : ℕ :=
  match t.selv with
  | .error _ => 0
  | .ready n => if n ≠ 0 ∧ ¬ t.exc ∧ t.writable then takenBy t.sends else 0

namespace WorkerDispatch

theorem poll_takes {wd : WorkerDispatch} {t : WorkerTurn} (hopen : wd.io.isOpen = true) :
    wd.io.accepted.length + min wd.io.outbuf.length t.room ≤ (wd.poll t).2.io.accepted.length := by
  have hmono := (wd.poll_movesOutput t).accepted.length_le
  by_cases hroom : t.room = 0
  · simpa [hroom] using hmono
  by_cases hout : wd.io.outbuf = []
  · simpa [hout] using hmono
  -- the turn comes to the flush
  have hflush := flushBuffer_takes (wd.io.deliver t.arrived) t.sends hopen
  unfold WorkerTurn.room at hroom ⊢
  unfold poll
  cases hselv : t.selv with
  | error e => simp [hselv] at hroom
  | ready n =>
    simp only [hselv] at hroom ⊢
    by_cases hready : n ≠ 0 ∧ ¬ t.exc ∧ t.writable
    · obtain ⟨hn, hexc, hwritable⟩ := hready
      have hboth : t.writable = true ∧ (wd.io.deliver t.arrived).outbuf ≠ [] := ⟨hwritable, hout⟩
      rw [if_pos ⟨hn, hexc, hwritable⟩, if_neg (not_or.mpr ⟨hn, hexc⟩), if_pos hboth]
      split_ifs <;> exact hflush
    · rw [if_neg hready] at hroom
      exact absurd rfl hroom

variable [JsonAccess] [JsonReader] [JsonWriter]

/-- A run of `n` turns from `first`; `t k` is what turn `k` is given. -/
structure IsLoop (first : WorkerDispatch) (n : ℕ) (wd : ℕ → WorkerDispatch) (t : ℕ → WorkerTurn) :
    Prop where
  start : wd 0 = first
  turn : ∀ k < n, ∃ wd₁ md₁, (wd k).selectLoop (t k) = .returned (true, wd₁, md₁) ∧
    (wd (k + 1)).io = wd₁.io

variable {id n k m : ℕ} {script : List RecvResult} {wd : ℕ → WorkerDispatch} {t : ℕ → WorkerTurn}

theorem IsLoop.isRun (h : IsLoop (.new id script) n wd t) :
    IsRun Turn (.new id script) n wd fun k => (wd k).inputLine (t k) where
  start := h.start
  turn := fun k hk => by
    obtain ⟨wd₁, md₁, hturn, hio⟩ := h.turn k hk
    exact ⟨t k, wd₁, md₁, hturn, rfl, hio⟩

theorem IsLoop.streamed (h : IsLoop (.new id script) n wd t) (hk : k ≤ n) : (wd k).io.Streamed :=
  (run_inTurn h.isRun k hk).2.2

theorem IsLoop.isOpen (h : IsLoop (.new id script) n wd t) (hk : k ≤ n) : (wd k).io.isOpen = true :=
  (run_serving h.isRun k hk).1

/-- A turn adds to the output, and the socket takes what it has room for. -/
theorem IsLoop.step (h : IsLoop (.new id script) n wd t) (hk : k < n) :
    (wd k).io.outStream <+: (wd (k + 1)).io.outStream ∧
    (wd k).io.accepted.length + min (wd k).io.outbuf.length (t k).room ≤
      (wd (k + 1)).io.accepted.length := by
  obtain ⟨wd₁, md₁, hturn, hio⟩ := h.turn k hk
  obtain ⟨rs, hpolled, -⟩ := selectLoop_replies hturn
  rw [hio]
  exact ⟨(hpolled.after ((wd k).poll_movesOutput (t k))).outStream_mono (h.streamed hk.le),
    (poll_takes (h.isOpen hk.le)).trans hpolled.accepted.length_le⟩

/-- What the socket has room for in the `m` turns behind the first `k`. -/
def roomIn (t : ℕ → WorkerTurn) (k m : ℕ) : ℕ := ((List.range' k m).map fun j => (t j).room).sum

omit [JsonAccess] [JsonReader] [JsonWriter] in
theorem roomIn_succ (t : ℕ → WorkerTurn) (k m : ℕ) :
    roomIn t k (m + 1) = roomIn t k m + (t (k + m)).room := by
  simp [roomIn, List.range'_1_concat]

/-- The output of turn `k` goes first. -/
theorem IsLoop.accepted_le (h : IsLoop (.new id script) n wd t) (hm : k + m ≤ n) :
    (wd k).io.outStream <+: (wd (k + m)).io.outStream ∧
    min (wd k).io.outStream.length ((wd k).io.accepted.length + roomIn t k m) ≤
      (wd (k + m)).io.accepted.length := by
  induction m with
  | zero => exact ⟨List.prefix_rfl, by simp [roomIn]⟩
  | succ m ih =>
    obtain ⟨hstream, hle⟩ := ih (by omega)
    obtain ⟨hstep, htaken⟩ := h.step (show k + m < n by omega)
    refine ⟨hstream.trans hstep, ?_⟩
    rw [roomIn_succ]
    have hlen := hstream.length_le
    have hsplit : (wd (k + m)).io.outStream.length =
        (wd (k + m)).io.accepted.length + (wd (k + m)).io.outbuf.length := List.length_append
    change _ ≤ (wd (k + m + 1)).io.accepted.length
    omega

theorem IsLoop.delivers (h : IsLoop (.new id script) (k + m) wd t)
    (hroom : (wd k).io.outbuf.length ≤ roomIn t k m) :
    (wd k).io.outStream <+: (wd (k + m)).io.accepted ∧
    (served (fun j => (wd j).inputLine (t j)) k).length ≤
      (Lines.complete '\n' (wd (k + m)).io.accepted).length := by
  obtain ⟨hstream, hle⟩ := h.accepted_le le_rfl
  have hlen : (wd k).io.outStream.length ≤ (wd (k + m)).io.accepted.length := by
    have hsplit : (wd k).io.outStream.length =
        (wd k).io.accepted.length + (wd k).io.outbuf.length := List.length_append
    omega
  have htaken := prefix_accepted hstream hlen
  obtain ⟨-, hqueued, hstreamed⟩ := run_inTurn h.isRun k (Nat.le_add_right _ _)
  exact ⟨htaken, hqueued ▸ hstreamed.replies_read htaken⟩

end WorkerDispatch

/-! ## The control connection -/

namespace IOProtoHandler

/-- A flush that comes to its end without an error has sent everything. -/
theorem flushBufferBlock_sent {io : IOProtoHandler} {selects : List SelectResult} {rv : ℤ}
    (h : (io.flushBufferBlock selects).1 = some rv) (hrv : rv ≠ -1) :
    (io.flushBufferBlock selects).2.outbuf = [] := by
  refine flushBufferBlock_zero selects io ?_
  induction selects generalizing io with
  | nil =>
    unfold flushBufferBlock at h ⊢
    split_ifs at h ⊢
    rfl
  | cons r rest ih =>
    unfold flushBufferBlock at h ⊢
    split_ifs at h ⊢ with hempty
    · rfl
    · cases r with
      | error e =>
        cases e with
        | eintr => exact ih h
        | ewouldblock | ebadf | other => exact absurd (Option.some.inj h).symm hrv
      | writable sends =>
        dsimp only at h ⊢
        split_ifs at h ⊢
        · exact absurd (Option.some.inj h).symm hrv
        · exact ih h

end IOProtoHandler

namespace MainDispatch

/-- A turn that finds the socket ready for output and goes on has sent everything there was. -/
theorem poll_sends {md : MainDispatch} {t : ControlTurn} (hwritable : t.writable = true)
    (h : (md.poll t).1 = .idle ∨ (md.poll t).1 = .input) : (md.poll t).2.io.outbuf = [] := by
  unfold poll at h ⊢
  dsimp only at h ⊢
  rw [if_pos hwritable] at h ⊢
  by_cases hstop : t.selv.failed = true ∨ t.acceptExc = true ∨ t.exc = true
  · rw [if_pos hstop] at h
    simp at h
  · rw [if_neg hstop] at h ⊢
    cases hrv : ((md.io.deliver t.arrived).flushBufferBlock t.selects).1 with
    | none => simp [hrv] at h
    | some rv =>
      have hsent : rv ≠ -1 → ((md.io.deliver t.arrived).flushBufferBlock t.selects).2.outbuf = [] :=
        flushBufferBlock_sent hrv
      simp only [hrv] at h ⊢
      split_ifs at h ⊢ with hfail
      · simp at h
      all_goals exact hsent fun heq => hfail (.inl heq)

variable [JsonAccess] [JsonReader] [JsonWriter]

theorem delivers {md md' : MainDispatch} {t : ControlTurn}
    (h : md.loopOnce t = .returned (true, md')) (hwritable : t.writable = true) :
    md.io.outStream <+: md'.io.accepted := by
  have hpoll := md.poll_movesOutput t
  obtain ⟨rs, hreplies, -⟩ := loopOnce_replies h
  have hsent : (md.poll t).2.io.outbuf = [] := by
    refine poll_sends hwritable ?_
    have hdoes := loopOnce_does h
    cases hp : (md.poll t).1 with
    | blocked =>
      rw [hp] at hdoes
      exact hdoes.elim
    | stop =>
      rw [hp] at hdoes
      exact absurd hdoes.1 (by decide)
    | idle => exact .inl rfl
    | input => exact .inr rfl
  have hall : md.io.outStream = (md.poll t).2.io.accepted := by
    rw [← hpoll.outStream, outStream, hsent, List.append_nil]
  rw [hall]
  exact hreplies.accepted

end MainDispatch

section Delivered

variable [JsonAccess] [JsonReader] [JsonWriter]

/-- **Delivery.** In every run of the loop of a worker, once the socket has had room for what stands in the
buffer the client can read the replies to all the lines that had been served, whatever else has been received
and queued in between. On the control connection one turn is enough that finds the socket ready and lets the
loop go on. -/
theorem delivered :
    (∀ id script wd t k m, WorkerDispatch.IsLoop (.new id script) (k + m) wd t →
      (wd k).io.outbuf.length ≤ WorkerDispatch.roomIn t k m →
      (wd k).io.outStream <+: (wd (k + m)).io.accepted ∧
      (served (fun j => (wd j).inputLine (t j)) k).length ≤
        (Lines.complete '\n' (wd (k + m)).io.accepted).length) ∧
    (∀ script n md line, IsRun MainDispatch.Turn (.new script) n md line → ∀ k ≤ n, ∀ t md',
      (md k).loopOnce t = .returned (true, md') → t.writable = true →
      (md k).io.outStream <+: md'.io.accepted ∧
      (md k).io.queued.length ≤ (Lines.complete '\n' md'.io.accepted).length) := by
  constructor
  · exact fun id script wd t k m h hroom => h.delivers hroom
  · intro script n md line hrun k hk t md' hturn hwritable
    obtain ⟨replies, hreplied⟩ := MainDispatch.run_replied hrun k hk
    have htaken := MainDispatch.delivers hturn hwritable
    exact ⟨htaken, hreplied.streamed.replies_read htaken⟩

end Delivered

section Examples

theorem exampleSendTurn_selectLoop [JsonAccess] [JsonReader] [JsonWriter] {wd : WorkerDispatch}
    (hopen : wd.io.isOpen = true) (n : ℕ) :
    ∃ wd', wd.selectLoop (exampleSendTurn n) = .returned (true, wd', .new []) := by
  have hflush : ((wd.io.deliver []).flushBuffer [.sent n]).1 ≠ -1 := by
    simp only [flushBuffer, deliver, hopen, if_true, flushLoop]
    split_ifs <;> simp
  have hidle : (wd.poll (exampleSendTurn n)).1 = .idle := by
    by_cases hout : wd.io.outbuf = []
    · simp [WorkerDispatch.poll, exampleSendTurn, exampleWorkerTurn, exampleChunk, deliver, hout]
    · have hout' : (wd.io.deliver []).outbuf ≠ [] := hout
      simp [WorkerDispatch.poll, exampleSendTurn, exampleWorkerTurn, exampleChunk, hout', hflush]
  unfold WorkerDispatch.selectLoop
  generalize wd.poll (exampleSendTurn n) = polled at hidle
  obtain ⟨p, wd'⟩ := polled
  obtain rfl : p = .idle := hidle
  exact ⟨wd', rfl⟩

/-- A worker that replies to one request and sends the reply in its next turn. -/
theorem delivered_one :
    letI := JsonAccess.plain
    letI := JsonWriter.compact
    letI := exampleReader
    ∃ (wd : ℕ → WorkerDispatch), (wd 1).io.outStream <+: (wd 2).io.accepted ∧
      1 ≤ (Lines.complete '\n' (wd 2).io.accepted).length := by
  let := JsonAccess.plain
  let := JsonWriter.compact
  let := exampleReader
  obtain ⟨wd₁, io, res, hturn, hio, -, -, hopen⟩ := exampleWorkerTurn_selectLoop 0
  have hopen₁ : wd₁.io.isOpen = true := hio ▸ hopen
  obtain ⟨wd₂, hturn₂⟩ := exampleSendTurn_selectLoop hopen₁ wd₁.io.outbuf.length
  let wd : ℕ → WorkerDispatch := fun k => if k = 0 then .new 0 [] else if k = 1 then wd₁ else wd₂
  let t : ℕ → WorkerTurn := fun k =>
    if k = 0 then exampleWorkerTurn 1 else exampleSendTurn wd₁.io.outbuf.length
  have hloop : WorkerDispatch.IsLoop (.new 0 []) 2 wd t := by
    refine ⟨rfl, fun k hk => ?_⟩
    match k, hk with
    | 0, _ => exact ⟨wd₁, _, hturn, rfl⟩
    | 1, _ => exact ⟨wd₂, _, hturn₂, rfl⟩
  have hroom : (wd 1).io.outbuf.length ≤ WorkerDispatch.roomIn t 1 1 :=
    Nat.le_add_right _ 1
  obtain ⟨htaken, hserved⟩ := delivered.1 0 [] wd t 1 1 hloop hroom
  have hqueued : 1 ≤ (wd 1).io.queued.length := by
    have heq : (wd 1).io.queued = io.queued ++ [res] := congrArg IOProtoHandler.queued hio
    rw [heq, List.length_append]
    exact Nat.le_add_left _ _
  rw [(WorkerDispatch.run_inTurn hloop.isRun 1 (by decide)).2.1] at hqueued
  exact ⟨wd, htaken, hqueued.trans hserved⟩

end Examples

end Sdkd
