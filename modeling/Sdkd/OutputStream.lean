import Sdkd.IODispatch

/-!
# Integrity of the output stream

What the socket has taken and what is still in the output buffer are, one after the other, the encoded
responses in the order they were written, whatever `send` and `select` return.

## Main results

- `flushLoop_conserves` — the loop of `flushBuffer` moves bytes and loses none
- `runCalls_stream` — the statement about a whole run
-/

namespace Sdkd

namespace IOProtoHandler

/-- The bytes of the output stream so far. -/
def outStream (io : IOProtoHandler) : List Char := io.accepted ++ io.outbuf

/-- The loop of `flushBuffer` keeps its two variables in step, leaves the buffer alone, and hands the
socket what lies before `sndbuf`. -/
theorem flushLoop_conserves (sends : List SendResult) (v : FlushVars) (io : IOProtoHandler)
    (h : v.sndbuf + v.remaining = io.outbuf.length) :
    let out := flushLoop sends v io
    out.1.sndbuf + out.1.remaining = io.outbuf.length ∧ out.2.outbuf = io.outbuf ∧
    out.2.accepted ++ io.outbuf.drop out.1.sndbuf = io.accepted ++ io.outbuf.drop v.sndbuf := by
  induction sends generalizing v io with
  | nil => exact ⟨h, rfl, rfl⟩
  | cons r rest ih =>
    unfold flushLoop
    split_ifs with hzero
    · exact ⟨h, rfl, rfl⟩
    · cases r with
      | sent n =>
        obtain ⟨hstep, hbuf, hbytes⟩ := ih
          { v with sndbuf := v.sndbuf + min (n + 1) v.remaining,
                   remaining := v.remaining - min (n + 1) v.remaining }
          { io with accepted := io.accepted ++ (io.outbuf.drop v.sndbuf).take (min (n + 1) v.remaining) }
          (by dsimp only; omega)
        refine ⟨hstep, hbuf, hbytes.trans ?_⟩
        dsimp only
        rw [List.append_assoc, ← List.drop_drop, List.take_append_drop]
      | zero => exact ⟨h, rfl, rfl⟩
      | error e =>
        cases e with
        | eintr => exact ih v io h
        | ewouldblock => exact ⟨h, rfl, rfl⟩
        | ebadf => exact ⟨h, rfl, rfl⟩
        | other n => exact ⟨h, rfl, rfl⟩

/-- `flushBuffer` moves bytes from the buffer to the socket. -/
theorem flushBuffer_outStream (io : IOProtoHandler) (sends : List SendResult) :
    (io.flushBuffer sends).2.outStream = io.outStream := by
  obtain ⟨hstep, hbuf, hbytes⟩ := flushLoop_conserves (if io.isOpen then sends else [.error .ebadf])
    ⟨0, io.outbuf.length, 0⟩ io (by simp)
  have hdrop : io.outbuf.length - (flushLoop (if io.isOpen then sends else [.error .ebadf])
      ⟨0, io.outbuf.length, 0⟩ io).1.remaining =
      (flushLoop (if io.isOpen then sends else [.error .ebadf]) ⟨0, io.outbuf.length, 0⟩ io).1.sndbuf := by
    omega
  simp only [flushBuffer, outStream, hbuf, hdrop]
  simpa using hbytes

theorem flushBufferBlock_outStream (selects : List SelectResult) (io : IOProtoHandler) :
    (flushBufferBlock selects io).2.outStream = io.outStream := by
  induction selects generalizing io with
  | nil => rfl
  | cons r rest ih =>
    unfold flushBufferBlock
    split_ifs with hempty
    · rfl
    · cases r with
      | error e => cases e <;> first | exact ih io | rfl
      | writable sends =>
        dsimp only
        split_ifs
        · exact flushBuffer_outStream io sends
        · exact (ih _).trans (flushBuffer_outStream io sends)

/-- `flushBufferBlock` returns 0 only when everything has been sent. -/
theorem flushBufferBlock_zero (selects : List SelectResult) (io : IOProtoHandler)
    (h : (flushBufferBlock selects io).1 = some 0) : (flushBufferBlock selects io).2.outbuf = [] := by
  induction selects generalizing io with
  | nil =>
    unfold flushBufferBlock at h ⊢
    split_ifs at h with hempty
    exact hempty
  | cons r rest ih =>
    unfold flushBufferBlock at h ⊢
    split_ifs at h ⊢ with hempty
    · exact hempty
    · cases r with
      | error e =>
        cases e with
        | eintr => exact ih io h
        | ewouldblock => cases h
        | ebadf => cases h
        | other n => cases h
      | writable sends =>
        dsimp only at h ⊢
        split_ifs at h ⊢
        · simp at h
        · exact ih _ h

variable [JsonWriter]

/-- An encoded response is one line. -/
theorem encode_line (res : Response) :
    ∃ body, res.encode.toList = body ++ ['\n'] ∧ '\n' ∉ body :=
  JsonWriter.write_line res.toJson

theorem writeResponse_outStream (io : IOProtoHandler) (res : Response) :
    (io.writeResponse res).outStream = io.outStream ++ res.encode.toList := by
  obtain ⟨body, hbody, -⟩ := encode_line res
  have hlast : res.encode.toList.getLast? = some '\n' := by simp [hbody]
  simp [writeResponse, outStream, hlast]

/-- A call of one of the three functions, with what the socket does during it. -/
inductive OutputCall where
  | writeResponse (res : Response)
  | flushBuffer (sends : List SendResult)
  | flushBufferBlock (selects : List SelectResult)

/-- The handler after a call. -/
def call (io : IOProtoHandler) : OutputCall → IOProtoHandler
  | .writeResponse res => io.writeResponse res
  | .flushBuffer sends => (io.flushBuffer sends).2
  | .flushBufferBlock selects => (io.flushBufferBlock selects).2

/-- The responses among the calls, in order. -/
def responses (calls : List OutputCall) : List Response :=
  calls.filterMap fun c => match c with
    | .writeResponse res => some res
    | _ => none

theorem call_outStream (io : IOProtoHandler) (c : OutputCall) :
    (io.call c).outStream = io.outStream ++ (responses [c]).flatMap fun res => res.encode.toList := by
  cases c with
  | writeResponse res => simpa [call, responses] using writeResponse_outStream io res
  | flushBuffer sends => simpa [call, responses] using flushBuffer_outStream io sends
  | flushBufferBlock selects => simpa [call, responses] using flushBufferBlock_outStream selects io

/-- **Output stream.** After any calls the bytes the socket has taken and then the buffer are the
encoded responses in the order of the calls, each of which is a line, and `flushBufferBlock` returns 0
only with an empty buffer. -/
theorem runCalls_stream (script : List RecvResult) (calls : List OutputCall) :
    (calls.foldl call (fresh script)).accepted ++ (calls.foldl call (fresh script)).outbuf =
      (responses calls).flatMap (fun res => res.encode.toList) ∧
    (∀ res ∈ responses calls, ∃ body, res.encode.toList = body ++ ['\n'] ∧ '\n' ∉ body) ∧
    (∀ selects, ((calls.foldl call (fresh script)).flushBufferBlock selects).1 = some 0 →
      ((calls.foldl call (fresh script)).flushBufferBlock selects).2.outbuf = []) := by
  have hrun : ∀ (calls : List OutputCall) (io : IOProtoHandler), (calls.foldl call io).outStream =
      io.outStream ++ (responses calls).flatMap fun res => res.encode.toList := by
    intro calls
    induction calls with
    | nil => simp [responses]
    | cons c calls ih =>
      intro io
      have hcons : responses (c :: calls) = responses [c] ++ responses calls := by
        cases c <;> simp [responses]
      rw [List.foldl_cons, ih, call_outStream, hcons, List.flatMap_append, List.append_assoc]
  exact ⟨hrun calls (fresh script), fun res _ => encode_line res,
    fun selects h => flushBufferBlock_zero selects _ h⟩

end IOProtoHandler

end Sdkd
