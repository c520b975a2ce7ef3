import Sdkd.Worker

/-!
# The event loops

`selectLoop` of `Worker.cpp` and `loopOnce` of `Control.cpp`: one turn of the loop of a worker and of
the control connection. What `select`, `recv` and `send` return in a turn is given; the workers the
control loop starts and collects are the subject of another module.

## Main definitions

- `WorkerDispatch.selectLoop`, `MainDispatch.loopOnce`
- `inputLine` — the line a turn takes from the queue
-/

namespace Sdkd

/-- The return value of `select`: an error, or a number of ready descriptors. -/
inductive Selv where
  | error (e : Errno)
  | ready (n : ℕ)
  deriving DecidableEq

/-- An error other than an interruption. -/
def Selv.failed : Selv → Bool
  | .error e => e ≠ .eintr
  | .ready _ => false

/-- Where a turn stands when it comes to the input: still in the `select` of `flushBufferBlock`, at the
end of the loop, at the end of the turn, or about to read. -/
inductive Polled where
  | blocked
  | stop
  | idle
  | input
  deriving DecidableEq

/-- New results of `recv` are there. -/
def IOProtoHandler.deliver (io : IOProtoHandler) (arrived : List RecvResult) : IOProtoHandler :=
  { io with script := io.script ++ arrived }

/-! ## Workers -/

/-- What a turn of `selectLoop` is given: the results of `select` and the three bits of the socket,
what `recv` and `send` return, the memory of the new request, and the surroundings of
`processRequest`, with the number of steps for the operation it runs. -/
structure WorkerTurn where
  selv : Selv
  exc : Bool
  writable : Bool
  readable : Bool
  arrived : List RecvResult
  sends : List SendResult
  junk : Message
  env : WorkerEnv
  md : MainDispatch
  steps : ℕ

namespace WorkerDispatch

/-- `selectLoop` up to the bit of the input. -/
def poll (wd : WorkerDispatch) (t : WorkerTurn) : Polled × WorkerDispatch :=
  let wd := { wd with io := wd.io.deliver t.arrived }
  match t.selv with
  | .error e => (if (Selv.error e).failed then .stop else .idle, wd)
  | .ready n =>
    if n = 0 ∨ t.exc then (.stop, wd)
    else
      -- the socket is among the writable ones only if there is output
      let flushed := if t.writable ∧ wd.io.outbuf ≠ [] then wd.io.flushBuffer t.sends else (0, wd.io)
      let wd := { wd with io := flushed.2 }
      if flushed.1 = -1 then (.stop, wd) else if t.readable then (.input, wd) else (.idle, wd)

variable [JsonAccess] [JsonReader] [JsonWriter]

/-- `selectLoop`. -/
def selectLoop (wd : WorkerDispatch) (t : WorkerTurn) :
    Outcome (Bool × WorkerDispatch × MainDispatch) :=
  match wd.poll t with
  | (.blocked, _) => .running
  | (.stop, wd) => .returned (false, wd, t.md)
  | (.idle, wd) => .returned (true, wd, t.md)
  | (.input, wd) =>
    match wd.io.readRequest t.junk with
    | (.notyet, io) => .returned (true, { wd with io := io }, t.md)
    | (.err, io) => .returned (false, { wd with io := io }, t.md)
    | (.invalid, io) => .returned (false, { wd with io := io }, t.md)
    | (.ok req, io) => processRequest t.env { wd with io := io } t.md req t.steps

end WorkerDispatch

/-! ## The control connection -/

/-- What a turn of `loopOnce` is given. If `select` fails then the bits are whatever its arguments
hold. -/
structure ControlTurn where
  selv : Selv
  acceptExc : Bool
  exc : Bool
  writable : Bool
  acceptReadable : Bool
  accepted : Bool
  readable : Bool
  arrived : List RecvResult
  selects : List SelectResult
  junk : Message
  env : ControlEnv

namespace MainDispatch

/-- `loopOnce` up to the bit of the input. -/
def poll (md : MainDispatch) (t : ControlTurn) : Polled × MainDispatch :=
  let md := { md with io := md.io.deliver t.arrived }
  if t.selv.failed ∨ t.acceptExc ∨ t.exc then (.stop, md)
  else
    let flushed := if t.writable then md.io.flushBufferBlock t.selects else (some 0, md.io)
    let md := { md with io := flushed.2 }
    match flushed.1 with
    | none => (.blocked, md)
    | some rv =>
      if rv = -1 ∨ (t.acceptReadable ∧ ¬ t.accepted) then (.stop, md)
      else if t.readable then (.input, md) else (.idle, md)

variable [JsonAccess] [JsonReader] [JsonWriter]

/-- `loopOnce`. Behind an invalid line the pointer `reqp` is left on a deleted request. -/
def loopOnce (md : MainDispatch) (t : ControlTurn) : WorkerDispatch.Outcome (Bool × MainDispatch) :=
  match md.poll t with
  | (.blocked, _) => .running
  | (.stop, md) => .returned (false, md)
  | (.idle, md) => .returned (true, md)
  | (.input, md) =>
    match md.io.readRequest t.junk with
    | (.notyet, io) => .returned (true, { md with io := io })
    | (.err, io) => .returned (false, { md with io := io })
    | (.invalid, _) => .crashed .useAfterFree
    | (.ok req, io) =>
      match dispatchCommand t.env { md with io := io } req with
      | .error e => .crashed e
      | .ok out => .returned out

end MainDispatch

end Sdkd
