import Mathlib.Data.Prod.Lex
import Sdkd.Backlog
import Sdkd.Cancellation
import Sdkd.ProcessRequest

/-!
# Endings

What a worker brings to an end without anything more from its client: the operation it is in, as long as it
is cancelled again and again, and the input that has arrived.

## Main results

- `queryOperation_ends`, `dsOperation_ends` — operations that are cancelled again and again end
- `operation_ends` — so does the turn that is in one
- `selectLoop_lt`, `operation_returned` — a turn leaves less input than it has found
-/

namespace Sdkd

open LoopProg

/-! ## Operations that are cancelled again and again -/

section Ends

variable [JsonAccess] [JsonWriter] {h : Handle} {w : World} {req : Request} {opts : ResultOptions}
  {op : Operation}

/-- No action of a query repeats itself. -/
theorem queryOperation_progress (hop : queryOperation h w req opts = some op)
    {here there : Pos Crash} {a : OpAction op.L} (s : OpState op.L)
    (ha : op.prog.actionAt here = some (a, there)) : (a s).Progress (fun _ => 0) here s := by
  cases queryOperation_kind hop with
  | view _ =>
    refine Prog.progress_of_straight ?_ ?_ rfl s ha
    · simp only [executeView, List.forall_mem_cons]
      refine ⟨fun _ => trivial, fun s => ?_, fun _ => trivial, by simp⟩
      unfold checkNames
      split_ifs <;> trivial
    · simp only [executeView, List.forall_mem_cons]
      refine ⟨fun _ => trivial, fun _ => trivial, fun _ => trivial, fun s => ?_, by simp⟩
      obtain ⟨loc, hout | hout⟩ := countDown_outcome s <;> rw [hout] <;> trivial
  | n1ql _ =>
    refine Prog.progress_of_straight ?_ ?_ rfl s ha
    · simp only [executeN1QL, List.forall_mem_cons]
      exact ⟨fun _ => trivial, fun _ => trivial, by simp⟩
    · simp only [executeN1QL, List.forall_mem_cons]
      refine ⟨fun _ => trivial, fun s => ?_, fun _ => trivial, fun _ => trivial, by simp⟩
      rcases insertDoc_outcome h.options h.hid w s with ⟨r, loc, hout⟩ | ⟨e, hout⟩ <;> rw [hout] <;>
        trivial
  | fts _ =>
    refine Prog.progress_of_straight ?_ ?_ rfl s ha
    · simp only [executeFTS, List.forall_mem_cons]
      refine ⟨fun _ => trivial, fun _ => trivial, fun s => ?_, by simp⟩
      rcases checkConsistency_outcome req s with ⟨-, hout⟩ | ⟨-, hout⟩ <;> rw [hout] <;> trivial
    · simp only [executeFTS, List.forall_mem_cons]
      refine ⟨fun _ => trivial, fun s => ?_, by simp⟩
      rcases search_outcome h.options w req s with ⟨r, loc, hout⟩ | ⟨r, r', loc, hout⟩ | ⟨e, hout⟩ <;>
        rw [hout] <;> trivial
  | cbas _ =>
    refine Prog.progress_of_straight ?_ ?_ rfl s ha
    · simp only [executeCBAS, List.forall_mem_cons]
      exact ⟨fun _ => trivial, fun _ => trivial, by simp⟩
    · simp only [executeCBAS, List.forall_mem_cons]
      refine ⟨fun _ => trivial, fun _ => trivial, fun s => ?_, by simp⟩
      rcases nextGenerator_outcome req s with ⟨loc, hout⟩ | ⟨e, hout⟩ <;> rw [hout] <;> trivial

/-- Cancelled again and again, a query ends. -/
theorem queryOperation_ends (hop : queryOperation h w req opts = some op) {sched : ℕ → Bool}
    (hrec : ∀ n, ∃ m ≥ n, sched m = true) (c : Config (OpState op.L) Crash) :
    ∃ n, (op.prog.run cancelCurrent sched c n).halted := by
  obtain ⟨k, hk⟩ : ∃ k, resetIndex req.command.code = some k := by
    cases queryOperation_kind hop with
    | view hcode | n1ql hcode | fts hcode | cbas hcode =>
      rw [hcode]
      exact ⟨_, rfl⟩
  have hstop := queryOperation_stopFlag hop hk
  exact hstop.halts_of_recurrent (fun _ => rfl) (fun _ _ => 0) (fun _ _ => rfl)
    (fun _ _ _ s ha => queryOperation_progress hop s ha) hrec c

/-- Cancelled again and again, an operation on a dataset ends; a loader, which does not look at the flag,
ends if its dataset does. -/
theorem dsOperation_ends {ds : Dataset} (hop : dsOperation h w req ds opts = some op)
    (hload : req.command.code.isDsOperation = false → ds.Finite) {sched : ℕ → Bool}
    (hrec : ∀ n, ∃ m ≥ n, sched m = true) :
    ∃ n, (op.prog.run cancelCurrent sched (op.start (h.session .new)) n).halted := by
  cases dsOperation_kind hop with
  | items checks mk hchecks hmk hcode =>
    have hstop : (dsOp ds.getIter h.options w opts checks mk).StopFlag cancelCurrent cancelFlag 1 :=
      dsOp_stopFlag _ _ _ _ (fun a ha s => by rw [hchecks a ha s]; rfl) mk
    exact hstop.halts_of_recurrent (fun _ => rfl) (fun _ s => s.ses.pending.length - s.ses.cursor)
      (fun _ _ => rfl) (fun _ _ _ s ha => dsOp_progress hchecks s ha) hrec _
  | subdoc hcode =>
    have hstop : (dsSDSinglePath ds.getIter h.options w opts).StopFlag cancelCurrent cancelFlag 1 :=
      dsOp_stopFlag _ _ _ _ (by simp) _
    exact hstop.halts_of_recurrent (fun _ => rfl) (fun _ s => s.ses.pending.length - s.ses.cursor)
      (fun _ _ => rfl) (fun _ _ _ s ha => dsOp_progress (by simp) s ha) hrec _
  | load hcode => exact (loader_ends (hload hcode) .refl).2 sched
  | viewLoad hcode =>
    have hfinite : ds.Finite := hload (by rw [hcode]; rfl)
    exact (viewLoader_ends hfinite _ .refl).2 sched

end Ends

/-! ## The input that is left -/

namespace IOProtoHandler

variable {io io' : IOProtoHandler}

/-- The input a worker has still to take: what `recv` is going to return, and then the queue. -/
def inputLeft (io : IOProtoHandler) : ℕ ×ₗ ℕ := toLex (io.script.length, io.newlines.length)

theorem inputLeft_lt_of_script (h : io.script.length < io'.script.length) :
    io.inputLeft < io'.inputLeft :=
  Prod.Lex.toLex_lt_toLex.mpr (.inl h)

theorem inputLeft_le_of_newlines (hscript : io.script = io'.script)
    (h : io.newlines.length ≤ io'.newlines.length) : io.inputLeft ≤ io'.inputLeft :=
  Prod.Lex.toLex_le_toLex.mpr (.inr ⟨congrArg List.length hscript, h⟩)

theorem inputLeft_lt_of_newlines (hscript : io.script = io'.script)
    (h : io.newlines.length < io'.newlines.length) : io.inputLeft < io'.inputLeft :=
  Prod.Lex.toLex_lt_toLex.mpr (.inr ⟨congrArg List.length hscript, h⟩)

theorem SameInput.inputLeft_eq (h : SameInput io io') : io'.inputLeft = io.inputLeft := by
  unfold inputLeft
  rw [h.script, h.newlines]

/-- What is still to arrive counts on both sides. -/
theorem deliver_lt (h : io.inputLeft < io'.inputLeft) (arrived : List RecvResult) :
    (io.deliver arrived).inputLeft < (io'.deliver arrived).inputLeft := by
  simp only [inputLeft, deliver, Prod.Lex.toLex_lt_toLex, List.length_append] at h ⊢
  omega

/-- A socket that has something to read and keeps it does not say that it would block. -/
theorem readSocket_ne_ewouldblock (h : io.script ≠ []) (hsame : io.readSocket.2 = io) :
    io.readSocket.1 ≠ .error .ewouldblock := by
  have hscript := congrArg (List.length ∘ IOProtoHandler.script) hsame
  unfold readSocket at hscript ⊢
  split_ifs at hscript ⊢
  · cases hs : io.script with
    | nil => exact absurd hs h
    | cons r rest =>
      simp only [Function.comp, hs, List.length_cons] at hscript
      cases r with
      | data c cs =>
        have hle := readAll_script_le rest (io.ingest (c :: cs))
        simp only [readAll] at hscript
        omega
      | eof => simp [readAll]
      | error e =>
        simp only [readAll] at hscript
        omega
  · simp

/-- The read behind an empty line, or behind an empty queue. -/
theorem readSocket_tail {rv : ReadEnd}
    (hr : readSocket { io with newlines := io.newlines.tail } = (rv, io')) :
    io'.script.length < io.script.length ∨
    (io' = { io with newlines := io.newlines.tail } ∧ rv ≠ .error .eintr ∧
      (io.script ≠ [] → rv ≠ .error .ewouldblock)) := by
  have hprogress := readSocket_progress { io with newlines := io.newlines.tail }
  have hne := @readSocket_ne_ewouldblock { io with newlines := io.newlines.tail }
  rw [hr] at hprogress hne
  exact hprogress.imp_right fun ⟨hsame, hintr⟩ => ⟨hsame, hintr, fun h => hne h hsame⟩

theorem readSocket_tail_le {rv : ReadEnd}
    (hr : readSocket { io with newlines := io.newlines.tail } = (rv, io')) :
    io'.inputLeft ≤ io.inputLeft := by
  rcases readSocket_tail hr with hlt | ⟨rfl, -⟩
  · exact (inputLeft_lt_of_script hlt).le
  · exact inputLeft_le_of_newlines rfl (by rw [List.length_tail]; exact Nat.sub_le _ _)

theorem Gets.inputLeft_le {st : IOStatus} (h : Gets io st io') : io'.inputLeft ≤ io.inputLeft := by
  induction h with
  | line hq => exact inputLeft_le_of_newlines rfl (by rw [hq]; exact Nat.le_succ _)
  | again _ hr _ _ ih => exact ih.trans (readSocket_tail_le hr)
  | eof _ hr =>
    have hle := readSocket_tail_le hr
    exact hle
  | wait _ hr | fail _ hr => exact readSocket_tail_le hr

/-- A call that does not fail takes some of the input, if there is something to read or it returns a
message. -/
theorem Gets.inputLeft_lt {st : IOStatus} (h : Gets io st io') (herr : st ≠ .err)
    (hinput : io.script ≠ [] ∨ st ≠ .notyet) : io'.inputLeft < io.inputLeft := by
  cases h with
  | line hq => exact inputLeft_lt_of_newlines rfl (by rw [hq]; exact Nat.lt_succ_self _)
  | again _ hr hagain h =>
    refine h.inputLeft_le.trans_lt ?_
    rcases readSocket_tail hr with hlt | ⟨rfl, hintr, -⟩
    · exact inputLeft_lt_of_script hlt
    -- nothing was read, so the line that was dropped is behind the progress
    · refine inputLeft_lt_of_newlines rfl ?_
      have hpos := List.length_pos_of_ne_nil (hagain.resolve_right hintr)
      rw [List.length_tail] at hpos ⊢
      omega
  | wait _ hr =>
    have hscript : io.script ≠ [] := hinput.resolve_right fun hne => hne rfl
    rcases readSocket_tail hr with hlt | ⟨-, -, hne⟩
    · exact inputLeft_lt_of_script hlt
    · exact absurd rfl (hne hscript)
  | eof => exact absurd rfl herr
  | fail => exact absurd rfl herr

section Requests

variable [JsonAccess] [JsonReader] [JsonWriter]

/-- So does a call of `readRequest` that returns a request. -/
theorem readRequest_lt {junk : Message} {req : Request} (hr : io.readRequest junk = (.ok req, io')) :
    io'.inputLeft < io.inputLeft := by
  have hgets := io.gets
  unfold readRequest at hr
  generalize io.getRawMessage = out at hr hgets
  obtain ⟨st, io₁⟩ := out
  cases st with
  | notyet => cases hr
  | err => cases hr
  | ok c cs =>
    dsimp only at hr
    split_ifs at hr
    · obtain ⟨-, rfl⟩ := Prod.mk.inj hr
      exact hgets.inputLeft_lt (fun herr => IOStatus.noConfusion herr)
        (.inr fun hno => IOStatus.noConfusion hno)
    · cases hr

end Requests

end IOProtoHandler

/-! ## Turns of a worker -/

/-- The turn with this number of steps for its operation, along a schedule. -/
def WorkerTurn.along (t : WorkerTurn) (n : ℕ) (sched : ℕ → Bool) : WorkerTurn :=
  { t with steps := n, env := { t.env with sched := sched } }

namespace WorkerDispatch

theorem poll_ne_blocked (wd : WorkerDispatch) (t : WorkerTurn) : (wd.poll t).1 ≠ .blocked := by
  unfold poll
  dsimp only
  split
  · split_ifs <;> simp
  · split_ifs <;> simp

variable [JsonAccess] [JsonReader] [JsonWriter] {wd wd₁ wd' : WorkerDispatch} {t : WorkerTurn}
  {md' : MainDispatch}

/-- A turn that comes to the input and lets the loop go on takes some of it. -/
theorem selectLoop_lt (h : wd.selectLoop t = .returned (true, wd', md'))
    (hpoll : wd.poll t = (.input, wd₁)) (hscript : wd.io.script ++ t.arrived ≠ []) :
    wd'.io.inputLeft < (wd.io.deliver t.arrived).inputLeft := by
  have hdoes := selectLoop_does h
  have hpolled := poll_sameInput wd t
  rw [hpoll] at hdoes hpolled
  obtain ⟨hsame, herr⟩ := hdoes
  rw [hsame.inputLeft_eq, ← hpolled.inputLeft_eq]
  refine wd₁.io.gets.inputLeft_lt (fun hfail => Bool.noConfusion (herr hfail).1) (.inl ?_)
  rw [hpolled.script]
  exact hscript

omit [JsonReader] in
/-- A call that is in an operation is there whatever the schedule and the number of steps. -/
theorem processRequest_running {env : WorkerEnv} {md : MainDispatch} {req : Request} {n : ℕ}
    (h : wd.processRequest env md req n = .running) :
    ∃ hd op, Runs hd env.world md req op ∧ ∀ n sched,
      wd.processRequest { env with sched := sched } md req n =
        wd.runOperation { env with sched := sched } md req hd op n := by
  obtain hout | ⟨out, -, hout⟩ | ⟨err, hout⟩ | ⟨e, hout⟩ | ⟨hd, op, -, hruns, hrun⟩ :=
    processRequest_cases env wd md req n
  · rw [hout] at h
    cases h
  · rw [hout] at h
    cases h
  · rw [hout] at h
    cases h
  · rw [hout] at h
    cases h
  · exact ⟨hd, op, hruns, hrun⟩

/-- A turn in an operation has read the request for it, and goes on with it. -/
theorem selectLoop_running (h : wd.selectLoop t = .running) :
    ∃ wd₁ req io hd op, wd.poll t = (.input, wd₁) ∧
      wd₁.io.readRequest t.junk = (.ok req, io) ∧ Runs hd t.env.world t.md req op ∧
      ∀ n sched, wd.selectLoop (t.along n sched) =
        ({ wd₁ with io := io } : WorkerDispatch).runOperation { t.env with sched := sched } t.md req
          hd op n := by
  unfold selectLoop at h
  cases hpoll : wd.poll t with
  | mk p wd₁ =>
    rw [hpoll] at h
    cases p with
    | blocked => exact absurd (congrArg Prod.fst hpoll) (poll_ne_blocked wd t)
    | stop => cases h
    | idle => cases h
    | input =>
      dsimp only at h
      cases hr : wd₁.io.readRequest t.junk with
      | mk res io =>
        rw [hr] at h
        cases res with
        | notyet => cases h
        | err => cases h
        | invalid => cases h
        | ok req =>
          obtain ⟨hd, op, hop, hrun⟩ := processRequest_running h
          refine ⟨wd₁, req, io, hd, op, rfl, hr, hop, fun n sched => ?_⟩
          rw [← hrun n sched]
          have hpoll' : wd.poll (t.along n sched) = (.input, wd₁) := hpoll
          have hr' : wd₁.io.readRequest (t.along n sched).junk = (.ok req, io) := hr
          unfold selectLoop
          rw [hpoll']
          dsimp only
          rw [hr']
          rfl

/-- The turn is in a load over a dataset without an end. -/
def LoadsEndlessly (wd : WorkerDispatch) (t : WorkerTurn) : Prop :=
  ∃ wd₁ req io ty ds, wd.poll t = (.input, wd₁) ∧ wd₁.io.readRequest t.junk = (.ok req, io) ∧
    req.command.code.needsDs = true ∧ req.command.code.isDsOperation = false ∧
    resolveDataset t.md req = .ok (.ok (ty, ds)) ∧ ¬ ds.Finite

omit [JsonAccess] [JsonReader] in
theorem runOperation_of_halted {env : WorkerEnv} {md : MainDispatch} {req : Request} {hd : Handle}
    {op : Operation} {n : ℕ}
    (h : (op.prog.run cancelCurrent env.sched (op.start (hd.session .new)) n).halted) :
    wd.runOperation env md req hd op n ≠ .running := by
  have hreply : ∀ (wd : WorkerDispatch) (rs : ResultSet), wd.replyResults md req rs ≠ .running := by
    intro wd rs
    unfold replyResults
    split_ifs
    · simp
    · split <;> simp
  unfold runOperation
  dsimp only
  unfold Config.halted at h
  split at h
  · next hpos =>
    rw [hpos]
    exact hreply _ _
  · next e hpos =>
    rw [hpos]
    simp
  · exact h.elim

/-- **Cancelled again and again, an operation ends**, unless it is a load over a dataset without an
end. -/
theorem operation_ends (h : wd.selectLoop t = .running) (hload : ¬ wd.LoadsEndlessly t)
    {sched : ℕ → Bool} (hrec : ∀ n, ∃ m ≥ n, sched m = true) :
    ∃ n, ∀ m ≥ n, wd.selectLoop (t.along m sched) ≠ .running := by
  obtain ⟨wd₁, req, io, hd, op, hpoll, hr, hop, hrun⟩ := selectLoop_running h
  have hends : ∃ n, (op.prog.run cancelCurrent sched (op.start (hd.session .new)) n).halted := by
    rcases hop.cases with ⟨hneeds, ty, ds, hds, -, hop⟩ | ⟨-, hop⟩
    · refine dsOperation_ends hop (fun hcode => ?_) hrec
      by_contra hfinite
      exact hload ⟨wd₁, req, io, ty, ds, hpoll, hr, hneeds, hcode, hds, hfinite⟩
    · exact queryOperation_ends hop hrec _
  obtain ⟨n, hn⟩ := hends
  refine ⟨n, fun m hle => ?_⟩
  rw [hrun]
  exact runOperation_of_halted (Prog.run_halted_of_le hn hle)

/-- What an operation has done depends on the cancellations so far. -/
theorem selectLoop_congr (h : wd.selectLoop t = .running) {n : ℕ} {sched sched' : ℕ → Bool}
    (heq : ∀ i < n, sched i = sched' i) :
    wd.selectLoop (t.along n sched) = wd.selectLoop (t.along n sched') := by
  obtain ⟨wd₁, req, io, hd, op, -, -, -, hrun⟩ := selectLoop_running h
  rw [hrun, hrun]
  unfold runOperation
  dsimp only
  rw [Prog.run_congr _ heq]

/-- Behind an operation the loop goes on, with less input left than before its request was read. -/
theorem operation_returned {b : Bool} {n : ℕ} {sched : ℕ → Bool} (h : wd.selectLoop t = .running)
    (hret : wd.selectLoop (t.along n sched) = .returned (b, wd', md')) :
    b = true ∧ wd'.io.inputLeft < (wd.io.deliver t.arrived).inputLeft := by
  obtain ⟨wd₁, req, io, hd, op, hpoll, hr, -, hrun⟩ := selectLoop_running h
  have hsame := poll_sameInput wd t
  rw [hpoll] at hsame
  rw [hrun] at hret
  have hserve : ({ wd₁ with io := io } : WorkerDispatch).serve { t.env with sched := sched } t.md req hd
      (some op) n = .returned (b, wd', md') := hret
  obtain ⟨hb, res, -, hio⟩ := serve_io hserve
  refine ⟨hb, ?_⟩
  rw [hio, (IOProtoHandler.SameInput.writeResponse io res).inputLeft_eq, ← hsame.inputLeft_eq]
  exact IOProtoHandler.readRequest_lt hr

end WorkerDispatch

end Sdkd
