import Sdkd.Dataset
import Sdkd.Lib.LoopProg
import Sdkd.Lib.Rounding
import Sdkd.ResultSet

/-!
# Handles

`Handle.h` and the parts of `Handle.cpp` every operation shares: the options of a handle, the choice
of a collection, the requests sent to the cluster, the futures that wait for their answers, and the
bookkeeping between two iterations of an operation.

The cluster library is not part of the sources. What it answers, what the clock shows and what
`rand()` returns is a `World`; a future is the outcome it is going to deliver.

## Main definitions

- `HandleOptions.ofJson`, `HandleOptions.getCollection`
- `Session` — what an operation works on: the handle's flag and futures and the result set
- `OpState`, `OpAction`, `OpProg` — states, atomic actions and programs of operations with local
  variables `L`
- `postsubmit`, `drain`, `collectResult` — the actions the operations are put together from
-/

namespace Sdkd

structure HandleOptions where
  hostname : String
  username : String
  password : String
  bucket : String
  useSSL : Bool
  useCollections : Bool
  certpath : String
  scopes : ℕ
  collections : ℕ
  timeout : ℕ
  deriving DecidableEq

namespace HandleOptions

def isValid (o : HandleOptions) : Bool := o.hostname.length ≠ 0 ∧ o.bucket.length ≠ 0

section OfJson

variable [JsonAccess]

/-- The loop of `getExtraHosts` over the backup nodes. -/
def extraHosts (extras : String) : List Json → Option String
  | [] => some extras
  | curbu :: rest =>
    if curbu.isString then extraHosts (extras ++ asString curbu ++ ";") rest
    else if curbu.isArray then
      if curbu.size > 2 then none
      else if !(curbu.index 0).isString then none
      else extraHosts (extras ++ asString (curbu.index 0) ++ ";") rest
    else extraHosts (extras ++ ";") rest

/-- `getExtraHosts`; `none` when it returns false. -/
def getExtraHosts (opts : Json) : Option String :=
  match opts.get "OtherNodes" with
  | .null => some ""
  | .array xs => extraHosts "" xs
  | _ => none

/-- The constructor. `junk` holds what the members it does not initialise happen to hold, `certfile` is
the file the certificate can be stored in, if there is one. -/
def ofJson (junk : HandleOptions) (certfile : Option String) (json : Json) :
    Except Crash HandleOptions :=
  let opts := json.get "Options"
  let o : HandleOptions := { junk with
    hostname := asString (json.get "Hostname")
    username := ""
    password := ""
    bucket := asString (json.get "Bucket")
    certpath := "" }
  if !isObject opts then .ok { o with timeout := 0 }
  else
    match getExtraHosts opts with
    | none => .ok { o with hostname := "" }
    | some hostExtra =>
      let hostname := if hostExtra.length ≠ 0 then
          (if o.hostname.length ≠ 0 then o.hostname ++ "," else o.hostname) ++ hostExtra
        else o.hostname
      let o := { o with
        hostname := hostname
        timeout := asUInt (opts.get "Timeout")
        username := asString (opts.get "Username")
        password := asString (opts.get "Password")
        useSSL := asBool (opts.get "SSL")
        useCollections := asString (json.get "Collections_type") = "many"
        scopes := asUInt (json.get "Scopes")
        collections := asUInt (json.get "Collections") }
      if o.useSSL then
        if (asString (opts.get "ClusterCertificate")).length = 0 then .error (.exit 1)
        else
          match certfile with
          | none => .error .nullPointer
          | some path => if path.length = 0 then .error (.exit 1) else .ok { o with certpath := path }
      else .ok o

end OfJson

/-- `std::stoi` on a string of digits; `none` when it throws, because there is no number or because it
is no `int`. -/
def stoi : List Char → Option ℕ
  | [] => none
  | digits =>
    let n := digits.foldl (fun n c => 10 * n + (c.toNat - '0'.toNat)) 0
    if n < 2 ^ 31 then some n else none

/-- The digits among the last three characters of a key, whose length is looked at as an `int`. -/
def takenDigits (key : String) : List Char :=
  let start := max 0 (toInt (toInt key.length - 3))
  (key.toList.drop start.toNat).filter Char.isDigit

/-- `floor((float)a / (float)b)` as an `int`: a `float` has 24 digits. -/
def floatFloor (a b : ℕ) : ℤ :=
  toInt ⌊Rounding.roundTo 24 (Rounding.roundTo 24 a / Rounding.roundTo 24 b)⌋

/-- `getCollection`: the scope and the collection of a key. -/
def getCollection (o : HandleOptions) (key : String) : Except Crash (String × String) :=
  if o.useCollections ∧ key ≠ "" then
    match stoi (takenDigits key) with
    | none => .error .uncaughtException
    | some keyNum =>
      let total := o.collections * o.scopes % 2 ^ 64
      if total = 0 then .error .divisionByZero
      else
        let collectionNum := keyNum % total
        .ok (toString (floatFloor collectionNum o.collections), toString collectionNum)
  else .ok ("_default", "_default")

end HandleOptions

/-! ## Requests to the cluster -/

structure DocumentId where
  bucket : String
  scope : String
  collection : String
  key : String
  deriving DecidableEq

inductive SubdocOpcode where
  | get | exists | replace | dictAdd | dictUpsert | arrayPushFirst | arrayPushLast | counter
  deriving DecidableEq

inductive ScanConsistency where
  | requestPlus
  | atPlus (mutationState : List ℕ)
  | notBounded
  deriving DecidableEq

/-- The requests the daemon sends. A mutation token is the number of the request it was issued for. -/
inductive ClusterRequest where
  | get (id : DocumentId)
  | upsert (id : DocumentId) (value : String) (expiry flags : ℕ)
  | insert (id : DocumentId) (value : String) (expiry flags : ℕ)
  | replace (id : DocumentId) (value : String) (expiry flags : ℕ)
  | append (id : DocumentId) (value : String)
  | prepend (id : DocumentId) (value : String)
  | remove (id : DocumentId)
  | touch (id : DocumentId)
  | lookupIn (id : DocumentId) (specs : List (SubdocOpcode × String))
  | mutateIn (id : DocumentId) (opcode : SubdocOpcode) (path value : String)
  | documentView (bucket documentName viewName : String) (limit skip : Option ℕ)
  | query (bucket statement : String) (adhoc flex : Bool) (scope : Option String)
      (consistency : ScanConsistency)
  | search (indexName query : String) (collections : List String) (mutationState : List ℕ)
  | analytics (bucket statement : String) (scope : Option String)
  | createScope (bucket scope : String)
  | createCollection (bucket scope collection : String)
  deriving DecidableEq

/-- What a worker's thread is given from outside: the answers to its requests and the readings of the
clock and of `rand()`, each in the order they are asked for, the name of the thread, and what two
uninitialised variables happen to hold. -/
structure World where
  outcome : ℕ → ErrorCode
  clock : ℕ → TimeVal
  rand : ℕ → ℕ
  threadId : String
  junk : Bool × Bool

/-- What an operation works on. `draining` and `cursor` belong to `drainPendingFutures`: whether it has
been called, and how many futures it has waited for. `sent`, `clockReads` and `randReads` are history
variables. -/
structure Session where
  doCancel : Bool
  pending : List ErrorCode
  rs : ResultSet
  draining : Bool
  cursor : ℕ
  sent : List ClusterRequest
  clockReads : ℕ
  randReads : ℕ

/-- The state of an operation with local variables `L`. -/
structure OpState (L : Type*) where
  ses : Session
  loc : L

abbrev OpAction (L : Type*) := LoopProg.Action (OpState L) Crash

abbrev OpProg (L : Type*) := LoopProg.Prog (OpState L) Crash

namespace Session

/-- `execute_async_ec`, with the future put into `pending_futures`. -/
def submit (w : World) (r : ClusterRequest) (s : Session) : Session :=
  { s with pending := s.pending ++ [w.outcome s.sent.length], sent := s.sent ++ [r] }

/-- `execute`: send a request and wait for the outcome. -/
def execute (w : World) (r : ClusterRequest) (s : Session) : ErrorCode × Session :=
  (w.outcome s.sent.length, { s with sent := s.sent ++ [r] })

/-- `rs.setRescode(ec)`, which looks at the clock once. -/
def setRescode (w : World) (ec : ErrorCode) (s : Session) : Session :=
  { s with rs := s.rs.setRescode (w.clock s.clockReads) ec, clockReads := s.clockReads + 1 }

/-- `rs.setRescode(ec, isFinal)`. -/
def setRescodeFinal (w : World) (ec : ErrorCode) (isFinal : Bool) (s : Session) : Session :=
  { s with rs := s.rs.setRescodeFinal (w.clock s.clockReads) ec isFinal,
           clockReads := s.clockReads + 1 }

/-- `rs.markBegin()`: of its two readings of the clock the second one counts. -/
def markBegin (w : World) (s : Session) : Session :=
  { s with rs := s.rs.markBegin (w.clock (s.clockReads + 1)), clockReads := s.clockReads + 2 }

/-- `out.options = options; out.clear()`, in either order. -/
def enter (options : ResultOptions) (s : Session) : Session :=
  { s with rs := { s.rs with options := options }.clear }

def clearResults (s : Session) : Session := { s with rs := s.rs.clear }

section DoCancel

variable (w : World) (s : Session)

@[simp] theorem execute_doCancel (r : ClusterRequest) :
    (s.execute w r).2.doCancel = s.doCancel := rfl

@[simp] theorem setRescodeFinal_doCancel (ec : ErrorCode) (isFinal : Bool) :
    (s.setRescodeFinal w ec isFinal).doCancel = s.doCancel := rfl

end DoCancel

end Session

/-- The other thread: `cancelCurrent`. No handle has a certificate path of its own, so there is no
file to remove. -/
def cancelCurrent {L : Type*} (s : OpState L) : OpState L :=
  { s with ses := { s.ses with doCancel := true } }

/-- `do_cancel = false`, also as `externalEnter`. -/
def resetCancel {L : Type*} : OpAction L := fun s =>
  .next { s with ses := { s.ses with doCancel := false } }

/-! ## Operations on a dataset -/

/-- The local variables of an operation on a dataset: the iterator, the current collection, and what
else the operation keeps. -/
structure DsLocal (ι X : Type*) where
  iter : ι
  collection : String × String
  extra : X

section Actions

variable {L ι X : Type*} (it : IterOps ι) (o : HandleOptions) (w : World)

def enter (options : ResultOptions) : OpAction L := fun s =>
  .next { s with ses := s.ses.enter options }

def markBegin : OpAction L := fun s => .next { s with ses := s.ses.markBegin w }

/-- `drainPendingFutures`, one future at a time: `handler` gets its outcome, and behind the last one
the futures are cleared. -/
def drain (handler : ErrorCode → OpState L → OpState L) : OpAction L := fun s =>
  if s.ses.draining then
    match s.ses.pending[s.ses.cursor]? with
    | some ec =>
      let s := handler ec s
      .again { s with ses := { s.ses with cursor := s.ses.cursor + 1 } }
    | none => .next { s with ses := { s.ses with pending := [], cursor := 0 } }
  else .next s

/-- The handler of `postsubmit` and `collect_result`. -/
def recordOutcome (ec : ErrorCode) (s : OpState L) : OpState L :=
  { s with ses := s.ses.setRescode w ec }

/-- `postsubmit(out)` up to its call of `drainPendingFutures`. -/
def postsubmit : OpAction L := fun s =>
  let rs := { s.ses.rs with remaining := toInt (s.ses.rs.remaining + 1) }
  let returns := rs.options.iterwait = 0 ∨
    (rs.remaining > 0 ∧ toUInt rs.remaining < rs.options.iterwait)
  .next { s with ses := { s.ses with rs := rs, draining := !returns } }

/-- The rest of `postsubmit`, which is reached after a drain: the sleep itself changes nothing. -/
def delay : OpAction L := fun s =>
  if s.ses.draining then
    match s.ses.rs.options.getDelay (w.rand s.ses.randReads) with
    | .ok _ =>
      let draws := if s.ses.rs.options.drawsDelay then 1 else 0
      .next { s with ses := { s.ses with draining := false, randReads := s.ses.randReads + draws } }
    | .error e => .fail e
  else .next s

/-- `collect_result(out)` up to its call of `drainPendingFutures`. -/
def collectResult : OpAction L := fun s =>
  if s.ses.rs.remaining = 0 then .ret s
  else .next { s with ses := { s.ses with draining := true } }

/-- `iter->start()`. -/
def startIter : OpAction (DsLocal ι X) := fun s =>
  match it.start s.loc.iter with
  | .ok i => .next { s with loc := { s.loc with iter := i } }
  | .error e => .fail e

/-- `iter->advance()`. -/
def advanceIter : OpAction (DsLocal ι X) := fun s =>
  match it.advance s.loc.iter with
  | .ok i => .next { s with loc := { s.loc with iter := i } }
  | .error e => .fail e

def lookupCollection : OpAction (DsLocal ι X) := fun s =>
  match o.getCollection (it.key s.loc.iter) with
  | .ok c => .next { s with loc := { s.loc with collection := c } }
  | .error e => .fail e

/-- The id of the current item's document. -/
def documentId (l : DsLocal ι X) : DocumentId :=
  ⟨o.bucket, l.collection.1, l.collection.2, it.key l.iter⟩

/-- Send the request `mk` makes for the current item, if it makes one. -/
def submitItem (mk : DocumentId → ι → Option ClusterRequest) : OpAction (DsLocal ι X) := fun s =>
  match mk (documentId it o s.loc) s.loc.iter with
  | some r => .next { s with ses := s.ses.submit w r }
  | none => .next s

/-- `iter->done() == false && do_cancel == false`. -/
def itemsLeft (s : OpState (DsLocal ι X)) : Bool := !it.done s.loc.iter && !s.ses.doCancel

end Actions

/-! ## What the actions come to -/

section Outcomes

variable {L ι X : Type*} (it : IterOps ι) (o : HandleOptions) (w : World)

/-- A drain that is called for hands out the next future, or it is through. -/
theorem drain_outcome (handler : ErrorCode → OpState L → OpState L) (s : OpState L) :
    (s.ses.draining = false ∧ drain handler s = .next s) ∨
    (∃ ec, s.ses.draining = true ∧ s.ses.pending[s.ses.cursor]? = some ec ∧
      drain handler s = .again { handler ec s with
        ses := { (handler ec s).ses with cursor := (handler ec s).ses.cursor + 1 } }) ∨
    (s.ses.draining = true ∧ s.ses.pending[s.ses.cursor]? = none ∧
      drain handler s = .next { s with ses := { s.ses with pending := [], cursor := 0 } }) := by
  unfold drain
  cases hdrain : s.ses.draining with
  | false => exact .inl ⟨rfl, rfl⟩
  | true =>
    cases hec : s.ses.pending[s.ses.cursor]? with
    | some ec => exact .inr (.inl ⟨ec, rfl, rfl, rfl⟩)
    | none => exact .inr (.inr ⟨rfl, rfl, rfl⟩)

/-- The delay behind a batch always has a length. -/
theorem delay_outcome (s : OpState L) :
    ∃ draws, delay w s = .next { s with
      ses := { s.ses with draining := false, randReads := s.ses.randReads + draws } } := by
  obtain ⟨⟨_, _, rs, draining, _, _, _, randReads⟩, _⟩ := s
  cases draining with
  | false => exact ⟨0, rfl⟩
  | true =>
    obtain ⟨d, hd⟩ := rs.options.getDelay_ok (w.rand randReads)
    exact ⟨if rs.options.drawsDelay then 1 else 0, by simp only [delay, if_true, hd]⟩

theorem collectResult_outcome (s : OpState L) :
    (s.ses.rs.remaining = 0 ∧ collectResult s = .ret s) ∨
    (s.ses.rs.remaining ≠ 0 ∧
      collectResult s = .next { s with ses := { s.ses with draining := true } }) := by
  by_cases hzero : s.ses.rs.remaining = 0
  · exact .inl ⟨hzero, if_pos hzero⟩
  · exact .inr ⟨hzero, if_neg hzero⟩

variable (s : OpState (DsLocal ι X))

theorem startIter_outcome :
    (∃ i, it.start s.loc.iter = .ok i ∧
      startIter it s = .next { s with loc := { s.loc with iter := i } }) ∨
    ∃ e, it.start s.loc.iter = .error e ∧ startIter it s = .fail e := by
  unfold startIter
  cases it.start s.loc.iter with
  | ok i => exact .inl ⟨i, rfl, rfl⟩
  | error e => exact .inr ⟨e, rfl, rfl⟩

theorem advanceIter_outcome :
    (∃ i, it.advance s.loc.iter = .ok i ∧
      advanceIter it s = .next { s with loc := { s.loc with iter := i } }) ∨
    ∃ e, it.advance s.loc.iter = .error e ∧ advanceIter it s = .fail e := by
  unfold advanceIter
  cases it.advance s.loc.iter with
  | ok i => exact .inl ⟨i, rfl, rfl⟩
  | error e => exact .inr ⟨e, rfl, rfl⟩

theorem lookupCollection_outcome :
    (∃ c, o.getCollection (it.key s.loc.iter) = .ok c ∧
      lookupCollection it o s = .next { s with loc := { s.loc with collection := c } }) ∨
    ∃ e, o.getCollection (it.key s.loc.iter) = .error e ∧ lookupCollection it o s = .fail e := by
  unfold lookupCollection
  cases o.getCollection (it.key s.loc.iter) with
  | ok c => exact .inl ⟨c, rfl, rfl⟩
  | error e => exact .inr ⟨e, rfl, rfl⟩

theorem submitItem_outcome (mk : DocumentId → ι → Option ClusterRequest) :
    (∃ r, mk (documentId it o s.loc) s.loc.iter = some r ∧
      submitItem it o w mk s = .next { s with ses := s.ses.submit w r }) ∨
    (mk (documentId it o s.loc) s.loc.iter = none ∧ submitItem it o w mk s = .next s) := by
  unfold submitItem
  cases mk (documentId it o s.loc) s.loc.iter with
  | some r => exact .inl ⟨r, rfl, rfl⟩
  | none => exact .inr ⟨rfl, rfl⟩

/-- Each step of a drain leaves fewer futures to wait for. -/
theorem drain_progress (handler : ErrorCode → OpState L → OpState L)
    (hpending : ∀ ec s, (handler ec s).ses.pending = s.ses.pending)
    (hcursor : ∀ ec s, (handler ec s).ses.cursor = s.ses.cursor) (here : LoopProg.Pos Crash)
    (s : OpState L) :
    (drain handler s).Progress (fun s => s.ses.pending.length - s.ses.cursor) here s := by
  rcases drain_outcome handler s with ⟨-, hout⟩ | ⟨ec, -, hec, hout⟩ | ⟨-, -, hout⟩ <;> rw [hout]
  · trivial
  · have hlt := (List.getElem?_eq_some_iff.mp hec).1
    simp only [LoopProg.Ctl.Progress, hpending, hcursor]
    omega
  · trivial

end Outcomes

end Sdkd
