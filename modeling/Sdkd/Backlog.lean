import Sdkd.ControlReplies
import Sdkd.EventLoop
import Sdkd.Framing
import Sdkd.NewHandle

/-!
# Requests left in the queue

A turn of an event loop reads all there is to read and serves one line of it. Whether a loop that
blocks in its `select` has served every line it has received.

## Main definitions

- `Serves` — what a turn does to the input: nothing, or one call of `getRawMessage`
- `Polled.Does` — what a turn of either loop does to the handler
- `IsRun` — a run of turns from a new connection

## Main results

- `nothingStranded_iff` — exactly if no turn receives more than one line
-/

namespace Sdkd

namespace IOProtoHandler

variable {io io' io'' : IOProtoHandler}

/-! ## The input side of a handler -/

/-- The output side is all that may have changed. -/
structure SameInput (io io' : IOProtoHandler) : Prop where
  isOpen : io'.isOpen = io.isOpen
  inbuf : io'.inbuf = io.inbuf
  newlines : io'.newlines = io.newlines
  script : io'.script = io.script
  received : io'.received = io.received

namespace SameInput

@[refl] theorem refl (io : IOProtoHandler) : SameInput io io := ⟨rfl, rfl, rfl, rfl, rfl⟩

theorem trans (h : SameInput io io') (h' : SameInput io' io'') : SameInput io io'' :=
  ⟨h'.isOpen.trans h.isOpen, h'.inbuf.trans h.inbuf, h'.newlines.trans h.newlines,
    h'.script.trans h.script, h'.received.trans h.received⟩

theorem writeResponse [JsonWriter] (io : IOProtoHandler) (res : Response) :
    SameInput io (io.writeResponse res) := ⟨rfl, rfl, rfl, rfl, rfl⟩

theorem foldl_writeResponse [JsonWriter] (io : IOProtoHandler) (replies : List Response) :
    SameInput io (replies.foldl IOProtoHandler.writeResponse io) := by
  induction replies generalizing io with
  | nil => exact .refl io
  | cons res replies ih => exact (writeResponse io res).trans (ih _)

theorem flushLoop (sends : List SendResult) (v : FlushVars) (io : IOProtoHandler) :
    SameInput io (IOProtoHandler.flushLoop sends v io).2 := by
  induction sends generalizing v io with
  | nil => exact .refl io
  | cons r rest ih =>
    unfold IOProtoHandler.flushLoop
    split_ifs
    · exact .refl io
    · cases r with
      | sent n =>
        dsimp only
        refine trans ?_ (ih _ _)
        exact ⟨rfl, rfl, rfl, rfl, rfl⟩
      | zero => exact .refl io
      | error e => cases e <;> first | exact ih v io | exact .refl io

theorem flushBuffer (io : IOProtoHandler) (sends : List SendResult) :
    SameInput io (io.flushBuffer sends).2 :=
  trans (flushLoop _ _ io) ⟨rfl, rfl, rfl, rfl, rfl⟩

theorem flushBufferBlock (selects : List SelectResult) (io : IOProtoHandler) :
    SameInput io (IOProtoHandler.flushBufferBlock selects io).2 := by
  induction selects generalizing io with
  | nil => exact .refl io
  | cons r rest ih =>
    unfold IOProtoHandler.flushBufferBlock
    split_ifs
    · exact .refl io
    · cases r with
      | error e => cases e <;> first | exact ih io | exact .refl io
      | writable sends =>
        dsimp only
        split_ifs
        · exact flushBuffer io sends
        · exact trans (flushBuffer io sends) (ih _)

end SameInput

/-- What ties the input side to the lines that have been served, on a socket that is open. -/
def Serving (ms : List (List Char)) (io : IOProtoHandler) : Prop :=
  io.isOpen = true ∧ ∃ bytes, Framed bytes ms io

theorem Serving.congr {ms : List (List Char)} (h : Serving ms io) (heq : SameInput io io') :
    Serving ms io' := by
  obtain ⟨hopen, bytes, hframed⟩ := h
  refine ⟨heq.isOpen.trans hopen, bytes, ?_, ?_, ?_, ?_⟩
  · rw [heq.newlines, heq.received]
    exact hframed.lines
  · rw [heq.inbuf, heq.received]
    exact hframed.rest
  · rw [heq.script, heq.received]
    exact hframed.bytes
  · rw [heq.isOpen, heq.script]
    exact hframed.closed

theorem Serving.deliver {ms : List (List Char)} (h : Serving ms io) (arrived : List RecvResult) :
    Serving ms (io.deliver arrived) := by
  obtain ⟨hopen, bytes, hframed⟩ := h
  exact ⟨hopen, _, hframed.lines, hframed.rest, rfl,
    fun hclosed => absurd (hopen.symm.trans hclosed) (by decide)⟩

/-- All that reading the socket changes. -/
theorem readSocket_frame (io : IOProtoHandler) : ∃ inbuf newlines script received, io.readSocket.2 =
    { io with inbuf := inbuf, newlines := newlines, script := script, received := received } := by
  have hread : ∀ (script : List RecvResult) (io : IOProtoHandler),
      ∃ inbuf newlines left received, (readAll script io).2 =
        { io with inbuf := inbuf, newlines := newlines, script := left, received := received } := by
    intro script
    induction script with
    | nil => exact fun _ => ⟨_, _, _, _, rfl⟩
    | cons r rest ih =>
      intro io
      cases r with
      | data c cs => exact ih (io.ingest (c :: cs))
      | eof => exact ⟨_, _, _, _, rfl⟩
      | error e => exact ⟨_, _, _, _, rfl⟩
  unfold readSocket
  split_ifs
  · exact hread io.script io
  · exact ⟨_, _, _, _, rfl⟩

theorem readSocket_isOpen (io : IOProtoHandler) : io.readSocket.2.isOpen = io.isOpen := by
  obtain ⟨inbuf, newlines, script, received, h⟩ := readSocket_frame io
  rw [h]

/-- The read behind an empty line, or behind an empty queue. -/
theorem readTail_isOpen {rv : ReadEnd}
    (hr : readSocket { io with newlines := io.newlines.tail } = (rv, io')) : io'.isOpen = io.isOpen := by
  have hopen := readSocket_isOpen { io with newlines := io.newlines.tail }
  rwa [hr] at hopen

theorem Gets.isOpen {st : IOStatus} (h : Gets io st io') (hst : st ≠ .err) : io'.isOpen = io.isOpen := by
  induction h with
  | line => rfl
  | again _ hr _ _ ih => exact (ih hst).trans (readTail_isOpen hr)
  | wait _ hr => exact readTail_isOpen hr
  | eof => exact absurd rfl hst
  | fail => exact absurd rfl hst

/-- Only the end of the stream closes the socket. -/
theorem getRawMessage_isOpen (io : IOProtoHandler) (h : io.getRawMessage.1 ≠ .err) :
    io.getRawMessage.2.isOpen = io.isOpen :=
  io.gets.isOpen h

/-! ## One turn -/

/-- The effect of a turn on the input side: results of `recv` arrive, and then either nothing is read,
or `getRawMessage` is called once and takes `line` from the queue or finds none. -/
def Serves (io : IOProtoHandler) (line : Option (List Char)) (io' : IOProtoHandler) : Prop :=
  ∃ arrived io₁, SameInput (io.deliver arrived) io₁ ∧
    (line = none ∧ SameInput io₁ io' ∨
      io₁.getRawMessage.1 ≠ .err ∧ line = io₁.getRawMessage.1.message ∧
        SameInput io₁.getRawMessage.2 io')

/-- The non-empty lines of the bytes received. -/
def linesReceived (io : IOProtoHandler) : List (List Char) :=
  Lines.nonEmpty (Lines.complete '\n' io.received)

/-- The bytes received between `io` and `io'` complete at most one non-empty line. -/
def AtMostOneLine (io io' : IOProtoHandler) : Prop :=
  (linesReceived io').length ≤ (linesReceived io).length + 1

/-- The queue holds no non-empty line: the lines `ms` that have been served are all those received. -/
def NothingStranded (ms : List (List Char)) (io : IOProtoHandler) : Prop :=
  Lines.nonEmpty io.newlines = [] ∧ ms = linesReceived io

theorem Serving.lines {ms : List (List Char)} (h : Serving ms io) :
    ms ++ Lines.nonEmpty io.newlines = linesReceived io := by
  obtain ⟨-, bytes, hframed⟩ := h
  exact hframed.lines

/-- With the queue empty, nothing is stranded. -/
theorem Serving.nothingStranded_iff {ms : List (List Char)} (h : Serving ms io) :
    NothingStranded ms io ↔ Lines.nonEmpty io.newlines = [] := by
  refine and_iff_left_of_imp fun hempty => ?_
  rw [← h.lines, hempty, List.append_nil]

/-- A turn serves the line it takes. -/
theorem Serving.serves {ms : List (List Char)} {line : Option (List Char)} (h : Serving ms io)
    (hturn : Serves io line io') : Serving (ms ++ line.toList) io' := by
  obtain ⟨arrived, io₁, heq, ⟨rfl, hsame⟩ | ⟨hok, rfl, hsame⟩⟩ := hturn
  · rw [Option.toList_none, List.append_nil]
    exact ((h.deliver arrived).congr heq).congr hsame
  · obtain ⟨hopen, bytes, hframed⟩ := (h.deliver arrived).congr heq
    exact Serving.congr ⟨(getRawMessage_isOpen io₁ hok).trans hopen, bytes, hframed.getRawMessage.1⟩
      hsame

/-- A turn that takes no line leaves none in the queue, if there was none before. -/
theorem Serves.newlines_of_none {ms : List (List Char)} (h : Serving ms io)
    (hturn : Serves io none io') (hempty : Lines.nonEmpty io.newlines = []) :
    Lines.nonEmpty io'.newlines = [] := by
  obtain ⟨arrived, io₁, heq, ⟨-, hsame⟩ | ⟨hok, hnone, hsame⟩⟩ := hturn
  · rwa [hsame.newlines, heq.newlines]
  · obtain ⟨-, bytes, hframed⟩ := (h.deliver arrived).congr heq
    rw [hsame.newlines, hframed.getRawMessage.2 hnone.symm]
    rfl

/-- A turn that starts with nothing in the queue ends so if and only if it receives at most one line. -/
theorem Serves.empty_iff {ms : List (List Char)} {line : Option (List Char)} (h : Serving ms io)
    (hturn : Serves io line io') (hempty : Lines.nonEmpty io.newlines = []) :
    Lines.nonEmpty io'.newlines = [] ↔ AtMostOneLine io io' := by
  have hbefore := congrArg List.length h.lines
  have hafter := congrArg List.length (h.serves hturn).lines
  rw [hempty] at hbefore
  simp only [List.length_append, List.length_nil, Option.length_toList] at hbefore hafter
  unfold AtMostOneLine
  rw [← List.length_eq_zero_iff]
  cases line with
  | none =>
    have hnone := congrArg List.length (Serves.newlines_of_none h hturn hempty)
    simp only [List.length_nil, Option.isSome_none, Bool.false_eq_true, if_false] at hnone hafter
    omega
  | some l =>
    simp only [Option.isSome_some, if_true] at hafter
    omega

/-! ## Runs -/

/-- A run of `n` turns from `first`; `line k` is the line turn `k` takes, and every state is one in which
the loop enters its `select`. -/
structure IsRun {σ : Type*} (turn : σ → Option (List Char) → σ → Prop) (first : σ) (n : ℕ)
    (s : ℕ → σ) (line : ℕ → Option (List Char)) : Prop where
  start : s 0 = first
  turn : ∀ k < n, turn (s k) (line k) (s (k + 1))

/-- A run of one turn. -/
theorem isRun_one {σ : Type*} {turn : σ → Option (List Char) → σ → Prop} {a b : σ}
    {l : Option (List Char)} (h : turn a l b) :
    IsRun turn a 1 (fun k => if k = 0 then a else b) (fun _ => l) where
  start := rfl
  turn := fun k hk => by
    obtain rfl := Nat.lt_one_iff.mp hk
    exact h

/-- A run of two turns. -/
theorem isRun_two {σ : Type*} {turn : σ → Option (List Char) → σ → Prop} {a b c : σ}
    {l l' : Option (List Char)} (h : turn a l b) (h' : turn b l' c) :
    IsRun turn a 2 (fun k => if k = 0 then a else if k = 1 then b else c) (fun k => if k = 0 then l else l') where
  start := rfl
  turn := fun k hk => by
    match k, hk with
    | 0, _ => exact h
    | 1, _ => exact h'

/-- The states of a run of three turns. -/
def threeTurns {σ : Type*} (s₀ s₁ s₂ s₃ : σ) (k : ℕ) : σ :=
  if k = 0 then s₀ else if k = 1 then s₁ else if k = 2 then s₂ else s₃

theorem isRun_three {σ : Type*} {turn : σ → Option (List Char) → σ → Prop} {s₀ s₁ s₂ s₃ : σ}
    {l₁ l₂ l₃ : Option (List Char)} (h₁ : turn s₀ l₁ s₁) (h₂ : turn s₁ l₂ s₂) (h₃ : turn s₂ l₃ s₃) :
    IsRun turn s₀ 3 (threeTurns s₀ s₁ s₂ s₃) (threeTurns l₁ l₂ l₃ none) where
  start := rfl
  turn := fun k hk => by
    match k, hk with
    | 0, _ => exact h₁
    | 1, _ => exact h₂
    | 2, _ => exact h₃

/-- The lines the first `k` turns take. -/
def served (line : ℕ → Option (List Char)) (k : ℕ) : List (List Char) :=
  (List.range k).flatMap fun j => (line j).toList

theorem fresh_serving (script : List RecvResult) : Serving [] (fresh script) :=
  ⟨rfl, _, fresh_framed script⟩

theorem IsRun.serving {σ : Type*} {turn : σ → Option (List Char) → σ → Prop} {first : σ}
    {n : ℕ} {s : ℕ → σ} {line : ℕ → Option (List Char)} (hrun : IsRun turn first n s line)
    {io : σ → IOProtoHandler} {script : List RecvResult} (hfirst : io first = fresh script)
    (hturn : ∀ s l s', turn s l s' → Serves (io s) l (io s')) :
    ∀ k ≤ n, Serving (served line k) (io (s k)) := by
  intro k
  induction k with
  | zero =>
    intro _
    rw [hrun.start, hfirst]
    exact fresh_serving script
  | succ k ih =>
    intro hk
    have hserving := (ih (Nat.le_of_succ_le hk)).serves (hturn _ _ _ (hrun.turn k hk))
    simpa [served, List.range_succ] using hserving

/-- In a run whose turns serve their lines, nothing is ever stranded if and only if every turn receives
at most one line. -/
theorem IsRun.nothingStranded_iff {σ : Type*} {turn : σ → Option (List Char) → σ → Prop} {first : σ}
    {n : ℕ} {s : ℕ → σ} {line : ℕ → Option (List Char)} (hrun : IsRun turn first n s line)
    {io : σ → IOProtoHandler} {script : List RecvResult} (hfirst : io first = fresh script)
    (hturn : ∀ s l s', turn s l s' → Serves (io s) l (io s')) :
    (∀ k ≤ n, NothingStranded (served line k) (io (s k))) ↔
      ∀ k < n, AtMostOneLine (io (s k)) (io (s (k + 1))) := by
  have hserving := hrun.serving hfirst hturn
  constructor
  · intro hall k hk
    exact (Serves.empty_iff (hserving k hk.le) (hturn _ _ _ (hrun.turn k hk)) (hall k hk.le).1).mp
      (hall (k + 1) hk).1
  · intro hone k
    induction k with
    | zero =>
      intro hk
      rw [(hserving 0 hk).nothingStranded_iff, hrun.start, hfirst]
      rfl
    | succ k ih =>
      intro hk
      rw [(hserving (k + 1) hk).nothingStranded_iff]
      exact (Serves.empty_iff (hserving k (Nat.le_of_succ_le hk)) (hturn _ _ _ (hrun.turn k hk))
        (ih (Nat.le_of_succ_le hk)).1).mpr (hone k hk)

end IOProtoHandler

open IOProtoHandler

/-! ## The two loops -/

/-- What a turn that `poll` has brought to `p` does to the handler `io` when it returns: nothing, unless it
has come to the input. There it reads, and behind the read it only writes; if the read fails then the loop
ends. -/
def Polled.Does (p : Polled) (io : IOProtoHandler) (goesOn : Bool) (io' : IOProtoHandler) : Prop :=
  match p with
  | .blocked => False
  | .stop => goesOn = false ∧ io' = io
  | .idle => goesOn = true ∧ io' = io
  | .input => SameInput io.getRawMessage.2 io' ∧
    (io.getRawMessage.1 = .err → goesOn = false ∧ io' = io.getRawMessage.2)

/-- A turn behind which the loop goes on has served the line that it took, if it took one. -/
theorem Polled.Does.serves {p : Polled} {io io₁ io' : IOProtoHandler} {arrived : List RecvResult}
    (h : p.Does io₁ true io') (hpoll : SameInput (io.deliver arrived) io₁) :
    Serves io (if p = .input then io₁.getRawMessage.1.message else none) io' := by
  refine ⟨arrived, io₁, hpoll, ?_⟩
  cases p with
  | blocked => exact h.elim
  | stop => cases h.1
  | idle =>
    obtain ⟨-, rfl⟩ := h
    exact .inl ⟨rfl, .refl _⟩
  | input =>
    obtain ⟨hsame, herr⟩ := h
    exact .inr ⟨fun hfail => Bool.noConfusion (herr hfail).1, rfl, hsame⟩

namespace WorkerDispatch

/-- `poll` leaves the input as it was delivered. -/
theorem poll_sameInput (wd : WorkerDispatch) (t : WorkerTurn) :
    SameInput (wd.io.deliver t.arrived) (wd.poll t).2.io := by
  unfold poll
  dsimp only
  split
  · rfl
  · split_ifs
    all_goals first | rfl | exact SameInput.flushBuffer _ _

/-- The line a turn takes from the queue. -/
def inputLine (wd : WorkerDispatch) (t : WorkerTurn) : Option (List Char) :=
  match wd.poll t with
  | (.input, wd) => wd.io.getRawMessage.1.message
  | _ => none

theorem inputLine_eq (wd : WorkerDispatch) (t : WorkerTurn) : wd.inputLine t =
    if (wd.poll t).1 = .input then (wd.poll t).2.io.getRawMessage.1.message else none := by
  unfold inputLine
  obtain ⟨p, wd₁⟩ := wd.poll t
  cases p <;> rfl

variable [JsonAccess] [JsonReader] [JsonWriter]

/-- A turn after which the loop goes on, taking `line`. Until the next one other threads may change what
is not the worker's own, but not its socket. -/
def Turn (wd : WorkerDispatch) (line : Option (List Char)) (wd' : WorkerDispatch) : Prop :=
  ∃ t wd₁ md₁, wd.selectLoop t = .returned (true, wd₁, md₁) ∧ wd.inputLine t = line ∧
    wd'.io = wd₁.io

theorem selectLoop_does {wd wd' : WorkerDispatch} {t : WorkerTurn} {md' : MainDispatch} {b : Bool}
    (h : wd.selectLoop t = .returned (b, wd', md')) :
    (wd.poll t).1.Does (wd.poll t).2.io b wd'.io := by
  unfold selectLoop at h
  generalize wd.poll t = polled at h ⊢
  obtain ⟨p, wd₁⟩ := polled
  cases p with
  | blocked => cases h
  | stop =>
    cases h
    exact ⟨rfl, rfl⟩
  | idle =>
    cases h
    exact ⟨rfl, rfl⟩
  | input =>
    dsimp only at h
    obtain ⟨-, hr⟩ | ⟨hok, hr | ⟨req, hr⟩ | ⟨res, hr⟩⟩ := wd₁.io.readRequest_cases t.junk <;>
      rw [hr] at h
    · cases h
      exact ⟨.refl _, fun _ => ⟨rfl, rfl⟩⟩
    · cases h
      exact ⟨.refl _, fun herr => absurd herr hok⟩
    · refine ⟨?_, fun herr => absurd herr hok⟩
      rcases processRequest_io h with ⟨-, hio⟩ | ⟨-, res, -, hio⟩
      · rw [hio]
      · rw [hio]
        exact .writeResponse _ res
    · cases h
      exact ⟨.writeResponse _ res, fun herr => absurd herr hok⟩

theorem Turn.serves {wd wd' : WorkerDispatch} {line : Option (List Char)} (h : Turn wd line wd') :
    Serves wd.io line wd'.io := by
  obtain ⟨t, wd₁, md₁, hturn, rfl, hio⟩ := h
  rw [hio, inputLine_eq]
  exact (selectLoop_does hturn).serves (wd.poll_sameInput t)

end WorkerDispatch

namespace MainDispatch

theorem poll_sameInput (md : MainDispatch) (t : ControlTurn) :
    SameInput (md.io.deliver t.arrived) (md.poll t).2.io := by
  unfold poll
  dsimp only
  split_ifs
  all_goals try split
  all_goals try split_ifs
  all_goals first | rfl | exact SameInput.flushBufferBlock _ _

/-- The line a turn takes from the queue. -/
def inputLine (md : MainDispatch) (t : ControlTurn) : Option (List Char) :=
  match md.poll t with
  | (.input, md) => md.io.getRawMessage.1.message
  | _ => none

theorem inputLine_eq (md : MainDispatch) (t : ControlTurn) : md.inputLine t =
    if (md.poll t).1 = .input then (md.poll t).2.io.getRawMessage.1.message else none := by
  unfold inputLine
  obtain ⟨p, md₁⟩ := md.poll t
  cases p <;> rfl

variable [JsonAccess] [JsonWriter]

variable [JsonReader]

/-- A turn after which the loop goes on, taking `line`. Until the next one the workers may change the
shared state, but not the control socket. -/
def Turn (md : MainDispatch) (line : Option (List Char)) (md' : MainDispatch) : Prop :=
  ∃ t md₁, md.loopOnce t = .returned (true, md₁) ∧ md.inputLine t = line ∧ md'.io = md₁.io

/-- As with a worker, but behind an invalid request the process dies. -/
theorem loopOnce_does {md md' : MainDispatch} {t : ControlTurn} {b : Bool}
    (h : md.loopOnce t = .returned (b, md')) : (md.poll t).1.Does (md.poll t).2.io b md'.io := by
  unfold loopOnce at h
  generalize md.poll t = polled at h ⊢
  obtain ⟨p, md₁⟩ := polled
  cases p with
  | blocked => cases h
  | stop =>
    cases h
    exact ⟨rfl, rfl⟩
  | idle =>
    cases h
    exact ⟨rfl, rfl⟩
  | input =>
    dsimp only at h
    obtain ⟨-, hr⟩ | ⟨hok, hr | ⟨req, hr⟩ | ⟨res, hr⟩⟩ := md₁.io.readRequest_cases t.junk <;>
      rw [hr] at h
    · cases h
      exact ⟨.refl _, fun _ => ⟨rfl, rfl⟩⟩
    · cases h
      exact ⟨.refl _, fun herr => absurd herr hok⟩
    · refine ⟨?_, fun herr => absurd herr hok⟩
      dsimp only at h
      split at h
      · cases h
      · next hdispatch =>
        cases h
        obtain ⟨replies, hreplies⟩ := (dispatched hdispatch).io
        rw [hreplies]
        exact .foldl_writeResponse _ replies
    · cases h

theorem Turn.serves {md md' : MainDispatch} {line : Option (List Char)} (h : Turn md line md') :
    Serves md.io line md'.io := by
  obtain ⟨t, md₁, hturn, rfl, hio⟩ := h
  rw [hio, inputLine_eq]
  exact (loopOnce_does hturn).serves (md.poll_sameInput t)

end MainDispatch

section Loops

variable [JsonAccess] [JsonReader] [JsonWriter]

/-- **Blocking with nothing left to do.** In every run of the loop of a worker or of the control
connection, whenever it enters its `select` it has served every line received, if and only if in every
turn the bytes received complete at most one non-empty line. -/
theorem eventLoops_nothingStranded_iff :
    (∀ id script n wd line, IsRun WorkerDispatch.Turn (.new id script) n wd line →
      ((∀ k ≤ n, NothingStranded (served line k) (wd k).io) ↔
        ∀ k < n, AtMostOneLine (wd k).io (wd (k + 1)).io)) ∧
    (∀ script n md line, IsRun MainDispatch.Turn (.new script) n md line →
      ((∀ k ≤ n, NothingStranded (served line k) (md k).io) ↔
        ∀ k < n, AtMostOneLine (md k).io (md (k + 1)).io)) :=
  ⟨fun _ _ _ _ _ hrun => hrun.nothingStranded_iff rfl fun _ _ _ => WorkerDispatch.Turn.serves,
    fun _ _ _ _ hrun => hrun.nothingStranded_iff rfl fun _ _ _ => MainDispatch.Turn.serves⟩

end Loops

section Examples

/-- A request on one line. -/
def exampleLine : String := "\x7b\"Command\":\"MC_DS_GET\",\"CommandData\":\x7b\x7d\x7d"

/-- A reader that knows the request. -/
@[reducible] def exampleReader : JsonReader where
  parse := fun str =>
    if str = exampleLine then
      .ok (.object [("Command", .string "MC_DS_GET"), ("CommandData", .object [])])
    else .error "Syntax error"

def exampleJunk : Message := ⟨0, 0, ⟨"", .invalidCommand⟩, .null, .success⟩

/-- The first chunk of a client that sends the request `n` times and then waits. -/
def exampleChunk (n : ℕ) : List RecvResult :=
  match (List.replicate n (exampleLine.toList ++ ['\n'])).flatten with
  | [] => []
  | c :: cs => [.data c cs]

/-- The turn of a worker in which that chunk arrives. -/
def exampleWorkerTurn (n : ℕ) : WorkerTurn where
  selv := .ready 1
  exc := false
  writable := false
  readable := true
  arrived := exampleChunk n
  sends := []
  junk := exampleJunk
  env := WorkerDispatch.exampleWorkerEnv .success
  md := .new []
  steps := 0

/-- The turn of the control connection in which that chunk arrives. -/
def exampleControlTurn (n : ℕ) : ControlTurn where
  selv := .ready 1
  acceptExc := false
  exc := false
  writable := false
  acceptReadable := false
  accepted := true
  readable := true
  arrived := exampleChunk n
  selects := []
  junk := exampleJunk
  env := MainDispatch.exampleEnv

/-- Nothing has arrived that has not been taken. -/
structure IOProtoHandler.Waiting (io : IOProtoHandler) : Prop where
  isOpen : io.isOpen = true
  newlines : io.newlines = []
  inbuf : io.inbuf = []
  script : io.script = []

theorem IOProtoHandler.waiting_fresh : (fresh []).Waiting := ⟨rfl, rfl, rfl, rfl⟩

/-- The input after a chunk has been read and its first line taken. -/
theorem IOProtoHandler.Waiting.getRawMessage {io : IOProtoHandler} (hio : io.Waiting) {c c' : Char}
    {cs cs' f : List Char} {rest : List (List Char)}
    (h : Lines.split '\n' (c :: cs) = ((c' :: cs') :: rest, f)) :
    (io.deliver [.data c cs]).getRawMessage =
      (.ok c' cs', { io with newlines := rest, inbuf := f, received := io.received ++ c :: cs }) := by
  obtain ⟨isOpen, inbuf, outbuf, newlines, script, received, accepted, queued⟩ := io
  obtain ⟨rfl, rfl, rfl, rfl⟩ := hio
  have hread : readSocket { (IOProtoHandler.mk true [] outbuf [] [] received accepted queued).deliver
        [.data c cs] with newlines := [] } =
      (.error .ewouldblock,
        ⟨true, f, outbuf, (c' :: cs') :: rest, [], received ++ c :: cs, accepted, queued⟩) := by
    have h' : Lines.ingest '\n' ([], []) (c :: cs) = ((c' :: cs') :: rest, f) := h
    simp [readSocket, readAll, IOProtoHandler.ingest, deliver, h']
  rw [getRawMessage_read (by simp [deliver]) hread, if_pos (by simp), getRawMessage_line rfl]

/-- The first call of `getRawMessage` returns one request and leaves the others in the queue. -/
theorem exampleChunk_getRawMessage (m : ℕ) : ∃ c cs io, c :: cs = exampleLine.toList ∧
    ((fresh []).deliver (exampleChunk (m + 1))).getRawMessage = (.ok c cs, io) ∧
    io.newlines = List.replicate m exampleLine.toList ∧ io.script = [] ∧ io.isOpen = true := by
  have hline : exampleLine.toList = '\x7b' :: exampleLine.toList.tail := by decide
  have hchunk : exampleChunk (m + 1) = [.data '\x7b' (exampleLine.toList.tail ++
      '\n' :: (List.replicate m (exampleLine.toList ++ ['\n'])).flatten)] := by
    simp only [exampleChunk, List.replicate_succ, List.flatten_cons]
    generalize (List.replicate m (exampleLine.toList ++ ['\n'])).flatten = rest
    rw [hline]
    simp
  have hsplit : Lines.split '\n' ('\x7b' :: (exampleLine.toList.tail ++
      '\n' :: (List.replicate m (exampleLine.toList ++ ['\n'])).flatten)) =
      (('\x7b' :: exampleLine.toList.tail) :: List.replicate m exampleLine.toList, []) := by
    rw [Lines.split_eq_iff, ← hline, ← List.replicate_succ]
    refine ⟨?_, fun l hl => ?_, by simp⟩
    · rw [← List.cons_append, ← hline]
      simp [List.flatMap, List.replicate_succ]
    · rw [List.eq_of_mem_replicate hl]
      decide
  rw [hchunk]
  exact ⟨_, _, _, hline.symm, waiting_fresh.getRawMessage hsplit, rfl, rfl, rfl⟩

theorem exampleChunk_readRequest (m : ℕ) :
    letI := JsonAccess.plain
    letI := JsonWriter.compact
    letI := exampleReader
    ∃ io, ((fresh []).deliver (exampleChunk (m + 1))).readRequest exampleJunk =
        (.ok (Request.decode exampleJunk exampleLine), io) ∧
      io.newlines = List.replicate m exampleLine.toList ∧ io.script = [] ∧ io.isOpen = true := by
  let := JsonAccess.plain
  let := JsonWriter.compact
  let := exampleReader
  obtain ⟨c, cs, io, hline, hraw, hrest⟩ := exampleChunk_getRawMessage m
  refine ⟨io, ?_, hrest⟩
  unfold readRequest
  rw [hraw]
  dsimp only
  rw [hline, String.ofList_toList, if_pos (by rfl)]

/-- A worker answers the first request and keeps the others in its queue. -/
theorem exampleWorkerTurn_selectLoop (m : ℕ) :
    letI := JsonAccess.plain
    letI := JsonWriter.compact
    letI := exampleReader
    ∃ (wd : WorkerDispatch) (io : IOProtoHandler) (res : Response),
      (WorkerDispatch.new 0 []).selectLoop (exampleWorkerTurn (m + 1)) =
        .returned (true, wd, .new []) ∧ wd.io = io.writeResponse res ∧
      io.newlines = List.replicate m exampleLine.toList ∧ io.script = [] ∧ io.isOpen = true := by
  let := JsonAccess.plain
  let := JsonWriter.compact
  let := exampleReader
  obtain ⟨io, hread, hrest⟩ := exampleChunk_readRequest m
  have hpoll : (WorkerDispatch.new 0 []).poll (exampleWorkerTurn (m + 1)) = (.input,
      { WorkerDispatch.new 0 [] with io := (fresh []).deliver (exampleChunk (m + 1)) }) := rfl
  unfold WorkerDispatch.selectLoop
  rw [hpoll]
  dsimp only
  rw [show (exampleWorkerTurn (m + 1)).junk = exampleJunk from rfl, hread]
  exact ⟨_, io, _, rfl, rfl, hrest⟩

/-- So does the control connection. -/
theorem exampleControlTurn_loopOnce (m : ℕ) :
    letI := JsonAccess.plain
    letI := JsonWriter.compact
    letI := exampleReader
    ∃ (md : MainDispatch) (io : IOProtoHandler) (res : Response),
      (MainDispatch.new []).loopOnce (exampleControlTurn (m + 1)) = .returned (true, md) ∧
      md.io = io.writeResponse res ∧
      io.newlines = List.replicate m exampleLine.toList ∧ io.script = [] ∧ io.isOpen = true := by
  let := JsonAccess.plain
  let := JsonWriter.compact
  let := exampleReader
  obtain ⟨io, hread, hrest⟩ := exampleChunk_readRequest m
  have hpoll : (MainDispatch.new []).poll (exampleControlTurn (m + 1)) = (.input,
      { MainDispatch.new [] with io := (fresh []).deliver (exampleChunk (m + 1)) }) := rfl
  unfold MainDispatch.loopOnce
  rw [hpoll]
  dsimp only
  rw [show (exampleControlTurn (m + 1)).junk = exampleJunk from rfl, hread]
  exact ⟨_, io, _, rfl, rfl, hrest⟩

theorem exampleWorkerTurn_turn (m : ℕ) :
    letI := JsonAccess.plain
    letI := JsonWriter.compact
    letI := exampleReader
    ∃ wd, WorkerDispatch.Turn (.new 0 []) (some exampleLine.toList) wd ∧
      wd.io.newlines = List.replicate m exampleLine.toList ∧ wd.io.isOpen = true := by
  let := JsonAccess.plain
  let := JsonWriter.compact
  let := exampleReader
  obtain ⟨c, cs, _, hline, hraw, -⟩ := exampleChunk_getRawMessage m
  obtain ⟨wd, io, res, hturn, hio, hnewlines, -, hopen⟩ := exampleWorkerTurn_selectLoop m
  have hpoll : (WorkerDispatch.new 0 []).poll (exampleWorkerTurn (m + 1)) = (.input,
      { WorkerDispatch.new 0 [] with io := (fresh []).deliver (exampleChunk (m + 1)) }) := rfl
  refine ⟨wd, ⟨_, wd, _, hturn, ?_, rfl⟩, by rw [hio]; exact ⟨hnewlines, hopen⟩⟩
  simp only [WorkerDispatch.inputLine, hpoll, hraw, IOStatus.message, hline]

theorem exampleControlTurn_turn (m : ℕ) :
    letI := JsonAccess.plain
    letI := JsonWriter.compact
    letI := exampleReader
    ∃ md, MainDispatch.Turn (.new []) (some exampleLine.toList) md ∧
      md.io.newlines = List.replicate m exampleLine.toList ∧ md.io.isOpen = true := by
  let := JsonAccess.plain
  let := JsonWriter.compact
  let := exampleReader
  obtain ⟨c, cs, _, hline, hraw, -⟩ := exampleChunk_getRawMessage m
  obtain ⟨md, io, res, hturn, hio, hnewlines, -, hopen⟩ := exampleControlTurn_loopOnce m
  have hpoll : (MainDispatch.new []).poll (exampleControlTurn (m + 1)) = (.input,
      { MainDispatch.new [] with io := (fresh []).deliver (exampleChunk (m + 1)) }) := rfl
  refine ⟨md, ⟨_, md, hturn, ?_, rfl⟩, by rw [hio]; exact ⟨hnewlines, hopen⟩⟩
  simp only [MainDispatch.inputLine, hpoll, hraw, IOStatus.message, hline]

theorem eventLoops_nothingStranded_iff_request :
    letI := JsonAccess.plain
    letI := JsonWriter.compact
    letI := exampleReader
    (∃ wd line, IsRun WorkerDispatch.Turn (.new 0 []) 1 wd line ∧
      ((∀ k ≤ 1, NothingStranded (served line k) (wd k).io) ↔
        ∀ k < 1, AtMostOneLine (wd k).io (wd (k + 1)).io)) ∧
    (∃ md line, IsRun MainDispatch.Turn (.new []) 1 md line ∧
      ((∀ k ≤ 1, NothingStranded (served line k) (md k).io) ↔
        ∀ k < 1, AtMostOneLine (md k).io (md (k + 1)).io)) := by
  let := JsonAccess.plain
  let := JsonWriter.compact
  let := exampleReader
  obtain ⟨wd, hwd, -⟩ := exampleWorkerTurn_turn 0
  obtain ⟨md, hmd, -⟩ := exampleControlTurn_turn 0
  exact ⟨⟨_, _, isRun_one hwd, eventLoops_nothingStranded_iff.1 _ _ _ _ _ (isRun_one hwd)⟩,
    ⟨_, _, isRun_one hmd, eventLoops_nothingStranded_iff.2 _ _ _ _ (isRun_one hmd)⟩⟩

/-- Two requests that arrive at once: after a turn that serves the first one, either loop enters its
`select` with the second one in the queue. -/
theorem request_stranded :
    letI := JsonAccess.plain
    letI := JsonWriter.compact
    letI := exampleReader
    (∃ wd line, IsRun WorkerDispatch.Turn (.new 0 []) 1 wd line ∧
      (wd 1).io.newlines = [exampleLine.toList] ∧ ¬ NothingStranded (served line 1) (wd 1).io) ∧
    (∃ md line, IsRun MainDispatch.Turn (.new []) 1 md line ∧
      (md 1).io.newlines = [exampleLine.toList] ∧ ¬ NothingStranded (served line 1) (md 1).io) := by
  let := JsonAccess.plain
  let := JsonWriter.compact
  let := exampleReader
  obtain ⟨wd, hwd, hqueue, -⟩ := exampleWorkerTurn_turn 1
  obtain ⟨md, hmd, hqueue', -⟩ := exampleControlTurn_turn 1
  have hstranded : ∀ {ms : List (List Char)} {io : IOProtoHandler},
      io.newlines = List.replicate 1 exampleLine.toList → ¬ NothingStranded ms io := by
    rintro ms io hio ⟨hempty, -⟩
    rw [hio] at hempty
    exact absurd hempty (by decide)
  exact ⟨⟨_, _, isRun_one hwd, hqueue, hstranded hqueue⟩,
    ⟨_, _, isRun_one hmd, hqueue', hstranded hqueue'⟩⟩

end Examples

end Sdkd
