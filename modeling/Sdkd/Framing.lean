import Mathlib.Data.List.Infix
import Mathlib.Order.Basic
import Sdkd.IODispatch

/-!
# Input framing

The messages `getRawMessage` returns are the non-empty lines of the bytes received, however these
were divided into chunks.

## Main definitions

- `stream` — the bytes a script is going to deliver
- `Framed` — what ties the queue and the input buffer to the bytes received
- `getRawMessages` — a number of successive calls

## Main results

- `Framed.getRawMessage` — a call keeps `Framed`
- `getRawMessages_lines` — every non-empty line is returned once, in order, and nothing else is
-/

namespace Sdkd

/-- The bytes a script is going to deliver. -/
def stream : List RecvResult → List Char
  | [] => []
  | .data c cs :: rest => c :: cs ++ stream rest
  | .eof :: _ => []
  | .error _ :: rest => stream rest

namespace IOStatus

/-- The message returned with `OK`. -/
def message : IOStatus → Option (List Char)
  | .ok c cs => some (c :: cs)
  | _ => none

end IOStatus

namespace IOProtoHandler

variable {io io' : IOProtoHandler} {ms total : List (List Char)}

/-- The state after the messages `ms` have been returned: the queue holds the other lines received so
far, the input buffer the unfinished one, and a closed socket has nothing left to deliver. -/
structure Framed (bytes : List Char) (ms : List (List Char)) (io : IOProtoHandler) : Prop where
  lines : ms ++ Lines.nonEmpty io.newlines = Lines.nonEmpty (Lines.complete '\n' io.received)
  rest : io.inbuf = Lines.rest '\n' io.received
  bytes : io.received ++ stream io.script = bytes
  closed : io.isOpen = false → stream io.script = []

/-- A chunk goes from the stream to the queue and the buffer. -/
theorem Framed.ingest {bytes cs : List Char} (h : Framed bytes ms io) (hopen : io.isOpen = true)
    {script : List RecvResult} (hs : stream io.script = cs ++ stream script) :
    Framed bytes ms { io.ingest cs with script := script } where
  lines := by
    simp only [IOProtoHandler.ingest]
    rw [Lines.ingest_fst, Lines.nonEmpty_append, Lines.complete_append, Lines.nonEmpty_append,
      ← h.rest, ← h.lines, List.append_assoc]
  rest := by
    simp only [IOProtoHandler.ingest]
    rw [Lines.ingest_snd, Lines.rest_append, ← h.rest]
  bytes := by
    simp only [IOProtoHandler.ingest]
    rw [List.append_assoc, ← hs, h.bytes]
  closed := fun hclosed => by
    simp only [IOProtoHandler.ingest, hopen] at hclosed
    cases hclosed

theorem readAll_framed {bytes : List Char} (script : List RecvResult)
    (h : Framed bytes ms { io with script := script }) (hopen : io.isOpen = true) :
    Framed bytes ms (readAll script io).2 ∧ (readAll script io).2.isOpen = true ∧
    ((readAll script io).1 = .eof → stream (readAll script io).2.script = []) := by
  induction script generalizing io with
  | nil => exact ⟨h, hopen, fun heof => by cases heof⟩
  | cons r script ih =>
    cases r with
    | data c cs => exact ih (h.ingest hopen rfl) hopen
    | eof => exact ⟨h, hopen, fun _ => rfl⟩
    | error e =>
      refine ⟨⟨h.lines, h.rest, h.bytes, fun hclosed => ?_⟩, hopen, fun heof => by cases heof⟩
      exact absurd (hopen.symm.trans hclosed) (by decide)

/-- `readSocket` keeps `Framed`, and at the end of the stream nothing is left to deliver. -/
theorem Framed.readSocket {bytes : List Char} (h : Framed bytes ms io) :
    Framed bytes ms io.readSocket.2 ∧
    (io.readSocket.1 = .eof → stream io.readSocket.2.script = []) := by
  unfold IOProtoHandler.readSocket
  split_ifs with hopen
  · have hread := readAll_framed io.script h hopen
    exact ⟨hread.1, hread.2.2⟩
  · exact ⟨h, fun heof => by cases heof⟩

/-- An empty line at the head of the queue can be dropped. -/
theorem Framed.dropEmpty {bytes : List Char} (h : Framed bytes ms io)
    (hempty : ∀ c cs rest, io.newlines ≠ (c :: cs) :: rest) :
    Framed bytes ms { io with newlines := io.newlines.tail } := by
  have htail : Lines.nonEmpty io.newlines.tail = Lines.nonEmpty io.newlines := by
    match hq : io.newlines with
    | [] => rfl
    | [] :: rest => simp [Lines.nonEmpty]
    | (c :: cs) :: rest => exact absurd hq (hempty c cs rest)
  exact ⟨by simp only [htail]; exact h.lines, h.rest, h.bytes, h.closed⟩

/-- The read `getRawMessage` does when no message is at the head of the queue. -/
theorem Framed.readTail {bytes : List Char} (h : Framed bytes ms io)
    (hempty : ∀ c cs rest, io.newlines ≠ (c :: cs) :: rest) {rv : ReadEnd}
    (hr : IOProtoHandler.readSocket { io with newlines := io.newlines.tail } = (rv, io')) :
    Framed bytes ms io' ∧ (rv = .eof → stream io'.script = []) := by
  have hread := (h.dropEmpty hempty).readSocket
  rwa [hr] at hread

/-- A call of `getRawMessage` returns the next non-empty line, and an error only with no such line in
the queue. -/
theorem Framed.gets {bytes : List Char} {st : IOStatus} (h : Framed bytes ms io) (hgets : Gets io st io') :
    Framed bytes (ms ++ st.message.toList) io' ∧ (st.message = none → io'.newlines = []) := by
  induction hgets with
  | line hq =>
    refine ⟨⟨?_, h.rest, h.bytes, h.closed⟩, fun hnone => by cases hnone⟩
    have hlines := h.lines
    rw [hq] at hlines
    simpa [IOStatus.message, Lines.nonEmpty] using hlines
  | again hq hr _ _ ih => exact ih (h.readTail hq hr).1
  | eof hq hr hnil =>
    obtain ⟨hread, heof⟩ := h.readTail hq hr
    refine ⟨⟨?_, hread.rest, hread.bytes, fun _ => heof rfl⟩, fun _ => hnil⟩
    simpa [IOStatus.message] using hread.lines
  | wait hq hr hnil | fail hq hr hnil _ _ =>
    have hread := (h.readTail hq hr).1
    exact ⟨by simpa [IOStatus.message] using hread, fun _ => hnil⟩

theorem Framed.getRawMessage {bytes : List Char} (h : Framed bytes ms io) :
    Framed bytes (ms ++ io.getRawMessage.1.message.toList) io.getRawMessage.2 ∧
    (io.getRawMessage.1.message = none → io.getRawMessage.2.newlines = []) :=
  h.gets io.gets

/-! ## Progress -/

/-- How many results a script still holds, each chunk with its bytes. -/
def scriptWeight : List RecvResult → ℕ
  | [] => 0
  | .data _ cs :: rest => cs.length + 2 + scriptWeight rest
  | .eof :: _ => 0
  | .error _ :: rest => 1 + scriptWeight rest

/-- What is left to do before the handler has nothing to return and nothing to read. -/
def workLeft (io : IOProtoHandler) : ℕ := scriptWeight io.script + io.newlines.length

theorem ingest_newlines_le (io : IOProtoHandler) (cs : List Char) :
    (io.ingest cs).newlines.length ≤ io.newlines.length + cs.length := by
  have hle : ∀ (cs : List Char) (ls : List (List Char)) (f : List Char),
      (Lines.ingest '\n' (ls, f) cs).1.length ≤ ls.length + cs.length := by
    intro cs
    induction cs with
    | nil => exact fun _ _ => le_rfl
    | cons c cs ih =>
      intro ls f
      rw [Lines.ingest_cons, Lines.feed]
      split_ifs
      · refine (ih _ _).trans ?_
        simp only [List.length_append, List.length_cons, List.length_nil]
        omega
      · refine (ih _ _).trans ?_
        simp only [List.length_cons]
        omega
  exact hle cs io.newlines io.inbuf

theorem readAll_workLeft (script : List RecvResult) (io : IOProtoHandler) :
    (readAll script io).2.workLeft ≤ scriptWeight script + io.newlines.length := by
  induction script generalizing io with
  | nil => exact le_rfl
  | cons r script ih =>
    cases r with
    | data c cs =>
      have hlines := ingest_newlines_le io (c :: cs)
      have hrest := ih (io.ingest (c :: cs))
      simp only [readAll, scriptWeight, List.length_cons] at hlines hrest ⊢
      omega
    | eof => exact le_rfl
    | error e =>
      simp only [readAll, workLeft, scriptWeight]
      omega

/-- A call of `readSocket` makes progress, unless there is nothing to read or the socket is closed. -/
theorem readSocket_workLeft (io : IOProtoHandler) :
    io.readSocket.2.workLeft < io.workLeft ∨
    io.readSocket.2 = io ∧ io.readSocket.1 ≠ .error .eintr ∧
      (io.isOpen = true → stream io.script = []) := by
  unfold readSocket
  split_ifs with hopen
  · cases hs : io.script with
    | nil => exact .inr ⟨by simp [readAll, ← hs], by simp [readAll], fun _ => rfl⟩
    | cons r script =>
      cases r with
      | data c cs =>
        have hlines := ingest_newlines_le io (c :: cs)
        have hrest := readAll_workLeft script (io.ingest (c :: cs))
        refine .inl ?_
        simp only [readAll, workLeft, hs, scriptWeight, List.length_cons] at hlines hrest ⊢
        omega
      | eof => exact .inr ⟨by simp [readAll, ← hs], by simp [readAll], fun _ => rfl⟩
      | error e =>
        refine .inl ?_
        simp only [readAll, workLeft, hs, scriptWeight]
        omega
  · exact .inr ⟨rfl, by simp, fun h => absurd h hopen⟩

theorem workLeft_tail (io : IOProtoHandler) :
    workLeft { io with newlines := io.newlines.tail } ≤ io.workLeft ∧
    (io.newlines ≠ [] → workLeft { io with newlines := io.newlines.tail } < io.workLeft) := by
  simp only [workLeft, List.length_tail]
  refine ⟨by omega, fun hne => ?_⟩
  have := List.length_pos_of_ne_nil hne
  omega

/-- Nothing to return and nothing to read. -/
def Exhausted (io : IOProtoHandler) : Prop := io.newlines = [] ∧ stream io.script = []

/-- A call that starts with the socket, having dropped an empty line or none. -/
theorem readTail_workLeft {bytes : List Char} (h : Framed bytes ms io) {rv : ReadEnd}
    (hr : readSocket { io with newlines := io.newlines.tail } = (rv, io')) :
    io'.workLeft ≤ io.workLeft ∧
    (io'.workLeft < io.workLeft ∨ Exhausted io ∧ rv ≠ .error .eintr) := by
  obtain ⟨hle, hlt⟩ := workLeft_tail io
  have hread := readSocket_workLeft { io with newlines := io.newlines.tail }
  rw [hr] at hread
  rcases hread with hprog | ⟨heq, hne, hstream⟩
  · have hprog' : io'.workLeft < workLeft { io with newlines := io.newlines.tail } := hprog
    exact ⟨by omega, .inl (by omega)⟩
  · dsimp only at heq
    subst heq
    refine ⟨hle, ?_⟩
    by_cases hnil : io.newlines = []
    · refine .inr ⟨⟨hnil, ?_⟩, hne⟩
      cases hopen : io.isOpen with
      | true => exact hstream hopen
      | false => exact h.closed hopen
    · exact .inl (hlt hnil)

/-- A call of `getRawMessage` makes progress until the handler is exhausted. -/
theorem Framed.gets_workLeft {bytes : List Char} {st : IOStatus} (h : Framed bytes ms io)
    (hgets : Gets io st io') :
    io'.workLeft ≤ io.workLeft ∧ (io'.workLeft < io.workLeft ∨ Exhausted io) := by
  induction hgets with
  | line hq =>
    simp only [workLeft, hq, List.length_cons]
    exact ⟨by omega, .inl (by omega)⟩
  | again hq hr hagain _ ih =>
    obtain ⟨hle, hprog⟩ := readTail_workLeft h hr
    obtain ⟨hle', hrest⟩ := ih (h.readTail hq hr).1
    rcases hagain with hne | hintr
    · rcases hrest with hlt | hex
      · exact ⟨by omega, .inl (by omega)⟩
      · exact absurd hex.1 hne
    · rcases hprog with hlt | ⟨-, hno⟩
      · exact ⟨by omega, .inl (by omega)⟩
      · exact absurd hintr hno
  | eof _ hr _ | wait _ hr _ | fail _ hr _ _ _ =>
    obtain ⟨hle, hprog⟩ := readTail_workLeft h hr
    exact ⟨hle, hprog.imp_right And.left⟩

theorem Framed.getRawMessage_workLeft {bytes : List Char} (h : Framed bytes ms io) :
    io.getRawMessage.2.workLeft ≤ io.workLeft ∧
    (io.getRawMessage.2.workLeft < io.workLeft ∨ Exhausted io) :=
  h.gets_workLeft io.gets

/-! ## Successive calls -/

/-- The results of `n` successive calls, and the handler after them. -/
def getRawMessages (io : IOProtoHandler) : ℕ → List IOStatus × IOProtoHandler
  | 0 => ([], io)
  | n + 1 =>
    let before := io.getRawMessages n
    let out := before.2.getRawMessage
    (before.1 ++ [out.1], out.2)

/-- The messages among the results. -/
def messages (outs : List IOStatus) : List (List Char) := outs.filterMap IOStatus.message

theorem fresh_framed (script : List RecvResult) : Framed (stream script) [] (fresh script) :=
  ⟨rfl, rfl, rfl, fun h => by cases h⟩

theorem messages_snoc (outs : List IOStatus) (st : IOStatus) :
    messages (outs ++ [st]) = messages outs ++ st.message.toList := by
  cases h : st.message <;> simp [messages, h]

theorem getRawMessages_framed (script : List RecvResult) (n : ℕ) :
    Framed (stream script) (messages ((fresh script).getRawMessages n).1)
      ((fresh script).getRawMessages n).2 := by
  induction n with
  | zero => exact fresh_framed script
  | succ n ih =>
    rw [getRawMessages, messages_snoc]
    exact ih.getRawMessage.1

/-- What has been returned is an initial part of the non-empty lines of the stream. -/
theorem Framed.initial {bytes : List Char} (h : Framed bytes ms io) :
    ms <+: Lines.nonEmpty (Lines.complete '\n' bytes) := by
  rw [← h.bytes, Lines.complete_append, Lines.nonEmpty_append, ← h.lines, List.append_assoc]
  exact List.prefix_append _ _

theorem Framed.exhausted {bytes : List Char} (h : Framed bytes ms io) (hex : Exhausted io) :
    ms = Lines.nonEmpty (Lines.complete '\n' bytes) := by
  have hlines := h.lines
  have hbytes := h.bytes
  rw [hex.1] at hlines
  rw [hex.2, List.append_nil] at hbytes
  rw [← hbytes, ← hlines]
  simp [Lines.nonEmpty]

theorem getRawMessages_mono (io : IOProtoHandler) {m n : ℕ} (h : m ≤ n) :
    messages (io.getRawMessages m).1 <+: messages (io.getRawMessages n).1 := by
  induction n, h using Nat.le_induction with
  | base => exact List.prefix_rfl
  | succ n _ ih =>
    rw [getRawMessages, messages_snoc]
    exact ih.trans (List.prefix_append _ _)

/-- Enough calls exhaust the handler. -/
theorem getRawMessages_exhausted (script : List RecvResult) :
    ∃ n, Exhausted ((fresh script).getRawMessages n).2 := by
  by_contra hnever
  -- otherwise every call makes progress
  have hdec : ∀ n, ((fresh script).getRawMessages n).2.workLeft + n ≤ (fresh script).workLeft := by
    intro n
    induction n with
    | zero => exact le_rfl
    | succ n ih =>
      obtain ⟨-, hlt | hex⟩ := (getRawMessages_framed script n).getRawMessage_workLeft
      · rw [getRawMessages]
        dsimp only
        omega
      · exact absurd ⟨n, hex⟩ hnever
  have := hdec ((fresh script).workLeft + 1)
  omega

/-- **Input framing.** Whatever `recv` returns, the messages returned are an initial part of the
non-empty lines of the stream, enough calls return all of them, and a call that returns none leaves no
line of the bytes received unreturned. -/
theorem getRawMessages_lines (script : List RecvResult) :
    (∀ n, messages ((fresh script).getRawMessages n).1 <+:
      Lines.nonEmpty (Lines.complete '\n' (stream script))) ∧
    (∃ N, ∀ n, N ≤ n → messages ((fresh script).getRawMessages n).1 =
      Lines.nonEmpty (Lines.complete '\n' (stream script))) ∧
    (∀ n, ((fresh script).getRawMessages n).2.getRawMessage.1.message = none →
      messages ((fresh script).getRawMessages n).1 =
        Lines.nonEmpty (Lines.complete '\n' ((fresh script).getRawMessages (n + 1)).2.received)) := by
  refine ⟨fun n => (getRawMessages_framed script n).initial, ?_, fun n hnone => ?_⟩
  · obtain ⟨N, hex⟩ := getRawMessages_exhausted script
    refine ⟨N, fun n hn => ?_⟩
    have hall := (getRawMessages_framed script N).exhausted hex
    have hmore := getRawMessages_mono (fresh script) hn
    rw [hall] at hmore
    exact (getRawMessages_framed script n).initial.eq_of_length_le hmore.length_le
  · obtain ⟨hframed, hempty⟩ := (getRawMessages_framed script n).getRawMessage
    have hlines := hframed.lines
    rw [hempty hnone, hnone] at hlines
    simpa [Lines.nonEmpty, getRawMessages] using hlines

end IOProtoHandler

end Sdkd
