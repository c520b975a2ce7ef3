import Sdkd.Handle

/-!
# Query executors

`ViewExecutor.cpp`, `N1QLQueryExecutor.cpp`, `FTSQueryExecutor.cpp` and `CBASQueryExecutor.cpp` as loop
programs. Each sends queries until it is cancelled; a view query can also have a number of iterations.

The rows of an answer are left out: the daemon counts them and never looks at the count.
-/

namespace Sdkd

/-- `!handle->isCancelled()`. -/
def notCancelled {L : Type*} (s : OpState L) : Bool := !s.ses.doCancel

def clearResults {L : Type*} : OpAction L := fun s => .next { s with ses := s.ses.clearResults }

section Executors

variable [JsonAccess] (o : HandleOptions) (hid : ℕ) (w : World) (req : Request)

/-! ## Views -/

/-- The variable `num_iterations`. -/
structure ViewQueryVars where
  numIterations : ℤ

def ViewQueryVars.start : ViewQueryVars :=
  ⟨asInt ((req.payload.get "Options").get "ViewQueryCount")⟩

/-- The early return for an empty design or view name. -/
def checkNames : OpAction ViewQueryVars := fun s =>
  if (asString (req.payload.get "DesignName")).length = 0 ∨
      (asString (req.payload.get "ViewName")).length = 0 then .ret s
  else .next s

def unsignedOption (j : Json) : Option ℕ := if isUInt j then some (asUInt64 j) else none

def viewRequest : ClusterRequest :=
  let vqopts := req.payload.get "ViewParameters"
  .documentView o.bucket (asString (req.payload.get "DesignName"))
    (asString (req.payload.get "ViewName")) (unsignedOption (vqopts.get "limit"))
    (unsignedOption (vqopts.get "skip"))

def beginView : OpAction ViewQueryVars := fun s =>
  .next { s with ses := { s.ses with rs := { s.ses.rs with vrespComplete := false } } }

def queryView : OpAction ViewQueryVars := fun s =>
  let answer := s.ses.execute w (viewRequest o req)
  .next { s with ses := answer.2.setRescode w answer.1 }

/-- The countdown: a negative count never ends the loop. -/
def countDown : OpAction ViewQueryVars := fun s =>
  if 0 ≤ s.loc.numIterations then
    let s' : OpState ViewQueryVars := { s with loc := ⟨s.loc.numIterations - 1⟩ }
    if s'.loc.numIterations ≤ 0 then .brk s' else .next s'
  else .next s

/-- `executeView`. -/
def executeView (options : ResultOptions) : OpProg ViewQueryVars where
  pre := [enter options, checkNames req, resetCancel]
  test := notCancelled
  body := [beginView, markBegin w, queryView o w req, countDown]
  post := []

/-! ## N1QL -/

/-- The variables of the loop; `ii` is the number of iterations, which the source looks at as an `int`. -/
structure N1QLVars where
  ii : ℕ
  params : List String
  paramValues : List String
  mutationTokens : List ℕ

def N1QLVars.start : N1QLVars where
  ii := 0
  params := Dataset.split (asString (req.payload.get "NQParam")) ++ ["handleid", "unique_id"]
  paramValues := Dataset.split (asString (req.payload.get "NQParamValues")) ++
    [toString hid, toString 0]
  mutationTokens := []

/-- Replace the last parameter value by the number of the iteration. -/
def setUniqueId : OpAction N1QLVars := fun s =>
  .next { s with loc := { s.loc with
    paramValues := s.loc.paramValues.dropLast ++ [toString (toInt s.loc.ii)] } }

/-- `insertDoc`; an upsert that succeeds leaves a mutation token. -/
def insertDoc [JsonWriter] : OpAction N1QLVars := fun s =>
  match Dataset.pairParams (Json.null.set "id" (.string (toString hid))) s.loc.params
      s.loc.paramValues with
  | .error e => .fail e
  | .ok doc =>
    let key := asString (doc.get "id")
    match o.getCollection key with
    | .error e => .fail e
    | .ok c =>
      let number := s.ses.sent.length
      let answer := s.ses.execute w (.upsert ⟨o.bucket, c.1, c.2, key⟩ (JsonWriter.write doc) 0 0)
      .next ⟨answer.2, { s.loc with
        mutationTokens := if answer.1.isSet then s.loc.mutationTokens
          else s.loc.mutationTokens ++ [number] }⟩

/-- The conditions behind `where`. -/
def whereClause : List (String × String) → String
  | [] => ""
  | [(p, v)] => p ++ "=\"" ++ v ++ "\" "
  | (p, v) :: rest => p ++ "=\"" ++ v ++ "\" " ++ " and " ++ whereClause rest

/-- `istringstream(str) >> std::boolalpha >> b`: an empty stream leaves `b` as it was. -/
def readBool (b : Bool) (str : String) : Bool :=
  match str.toList.dropWhile Char.isWhitespace with
  | [] => b
  | cs => "true".toList.isPrefixOf cs

def n1qlStatement (vars : N1QLVars) : String :=
  let q := if o.useCollections then "select * from `0`" else "select * from `" ++ o.bucket ++ "`"
  if asString (req.payload.get "NQIndexType") = "secondary" then
    q ++ " where " ++ whereClause (vars.params.zip vars.paramValues)
  else q

/-- The variables `prepared` and `flex` are not initialised. -/
def n1qlRequest (vars : N1QLVars) : ClusterRequest :=
  let prepared := readBool w.junk.1 (asString (req.payload.get "NQPrepared"))
  let flex := readBool w.junk.2 (asString (req.payload.get "NQFlex"))
  let consistency := match asString (req.payload.get "NQScanConsistency") with
    | "request_plus" => .requestPlus
    | "at_plus" => .atPlus vars.mutationTokens
    | _ => .notBounded
  .query o.bucket (n1qlStatement o req vars) (!prepared) flex
    (if o.useCollections then some "0" else none) consistency

def queryN1QL : OpAction N1QLVars := fun s =>
  let answer := s.ses.execute w (n1qlRequest o w req s.loc)
  .next ⟨answer.2.setRescodeFinal w answer.1 true, { s.loc with ii := s.loc.ii + 1 }⟩

/-- `N1QLQueryExecutor::execute`. -/
def executeN1QL [JsonWriter] : OpProg N1QLVars where
  pre := [clearResults, resetCancel]
  test := notCancelled
  body := [setUniqueId, insertDoc o hid w, markBegin w, queryN1QL o w req]
  post := []

/-! ## Full-text search -/

structure SearchVars where
  generator : ℤ

/-- `collectionsForSearch`. -/
def collectionsForSearch (numOfCollections : ℤ) : List String :=
  (List.range numOfCollections.toNat).map toString

def searchRequest [JsonWriter] (field : String) (mutationState : List ℕ) : ClusterRequest :=
  let numOfCollections := toInt (asInt64 (req.payload.get "FTSCollections"))
  .search (asString (req.payload.get "FTSIndexName"))
    (JsonWriter.write (Json.null.set "match" (.string field)))
    (if numOfCollections ≠ 0 then collectionsForSearch numOfCollections else []) mutationState

/-- `(generator + 1) % (2 * kvCount)`. -/
def nextPreloaded (kvCount generator : ℤ) : Except Crash ℤ :=
  let modulus := toInt (2 * kvCount)
  if modulus = 0 then .error .divisionByZero else .ok ((toInt (generator + 1)).tmod modulus)

/-- The text the search with a number looks for. -/
def searchField (generator : ℤ) : String :=
  (if generator.tmod 2 = 0 then "SampleValue" else "SampleSubvalue") ++
    toString (generator.tdiv 2)

/-- `runSearchOnPreloadedData` behind its `markBegin`, and the recording of its outcome. -/
def runSearchOnPreloadedData [JsonWriter] (kvCount : ℤ) : OpAction SearchVars := fun s =>
  match nextPreloaded kvCount s.loc.generator with
  | .error e => .fail e
  | .ok generator =>
    let answer := s.ses.execute w (searchRequest req (searchField generator) [])
    .next ⟨answer.2.setRescodeFinal w answer.1 true, ⟨generator⟩⟩

/-- The key `curk` of the document the next search looks for. -/
def searchKey (generator : ℤ) : String :=
  "key" ++ w.threadId ++ ":" ++
    toString (if generator.tmod 2 = 0 then generator else generator.tdiv 2)

/-- `runSearchUnderAtPlusConsistency` behind its `markBegin`, and the recording of its outcome. -/
def runSearchUnderAtPlusConsistency [JsonWriter] : OpAction SearchVars := fun s =>
  let generator := s.loc.generator
  let matchTerm := "SampleValue:" ++ w.threadId ++ ":" ++ toString generator
  let curv := JsonWriter.write (Json.null.set "value" (.string matchTerm))
  let curk := searchKey w generator
  match o.getCollection curk with
  | .error e => .fail e
  | .ok c =>
    let number := s.ses.sent.length
    let stored := s.ses.execute w (.upsert ⟨o.bucket, c.1, c.2, curk⟩ curv 0 0)
    if stored.1.isSet then .next { s with ses := stored.2.setRescodeFinal w stored.1 true }
    else
      let answer := stored.2.execute w (searchRequest req matchTerm [number])
      .next ⟨answer.2.setRescodeFinal w answer.1 true, ⟨toInt (generator + 1)⟩⟩

/-- Whether a search waits for what has been stored before: `not_bounded` is false. -/
def AtPlus (req : Request) : Prop :=
  asCString (req.payload.get "FTSConsistency") = .ok "at_plus".toList

instance : Decidable (AtPlus req) := inferInstanceAs (Decidable (_ = _))

/-- The consistency the request asks for is looked at once. -/
def checkConsistency {L : Type*} : OpAction L := fun s =>
  match asCString (req.payload.get "FTSConsistency") with
  | .ok _ => .next s
  | .error e => .fail e

/-- The body of the loop depends on it. -/
def search [JsonWriter] : OpAction SearchVars :=
  let kvCount := toInt (toUInt (asInt64 (req.payload.get "Count")))
  if AtPlus req then runSearchUnderAtPlusConsistency o w req
  else runSearchOnPreloadedData w req kvCount

/-- `FTSQueryExecutor::execute`. -/
def executeFTS [JsonWriter] : OpProg SearchVars where
  pre := [clearResults, resetCancel, checkConsistency req]
  test := notCancelled
  body := [markBegin w, search o w req]
  post := []

/-! ## Analytics -/

def cbasStatement (generator : ℤ) : String :=
  if o.useCollections then
    "SELECT * FROM `0` where `0`.`value` = 'SampleValue" ++ toString generator ++ "'"
  else "SELECT * FROM defaultDataSet where `value` = 'SampleValue" ++ toString generator ++ "'"

def queryCBAS : OpAction SearchVars := fun s =>
  let answer := s.ses.execute w (.analytics o.bucket (cbasStatement o s.loc.generator)
    (if o.useCollections then some "0" else none))
  .next { s with ses := answer.2.setRescodeFinal w answer.1 true }

/-- `(generator + 1) % kvCount`, in unsigned arithmetic. -/
def nextAnalytics (kvCount : ℕ) (generator : ℤ) : Except Crash ℤ :=
  if kvCount = 0 then .error .divisionByZero
  else .ok (toInt (toUInt (generator + 1) % kvCount : ℕ))

def nextGenerator : OpAction SearchVars := fun s =>
  match nextAnalytics (toUInt (asInt64 (req.payload.get "Count"))) s.loc.generator with
  | .ok generator => .next { s with loc := ⟨generator⟩ }
  | .error e => .fail e

/-- `CBASQueryExecutor::execute`. -/
def executeCBAS : OpProg SearchVars where
  pre := [clearResults, resetCancel]
  test := notCancelled
  body := [markBegin w, queryCBAS o w, nextGenerator req]
  post := []

/-! ## What the actions do -/

omit [JsonAccess] in
theorem countDown_outcome (s : OpState ViewQueryVars) :
    ∃ loc, countDown s = .next { s with loc := loc } ∨ countDown s = .brk { s with loc := loc } := by
  unfold countDown
  dsimp only
  split_ifs
  · exact ⟨_, .inr rfl⟩
  · exact ⟨_, .inl rfl⟩
  · exact ⟨s.loc, .inl rfl⟩

theorem nextGenerator_outcome (s : OpState SearchVars) :
    (∃ loc, nextGenerator req s = .next { s with loc := loc }) ∨
    (∃ e, nextGenerator req s = .fail e) := by
  unfold nextGenerator
  split
  · exact .inl ⟨_, rfl⟩
  · exact .inr ⟨_, rfl⟩

omit [JsonAccess] in
/-- Only a string is looked at. -/
theorem checkConsistency_outcome {L : Type*} (s : OpState L) :
    ((req.payload.get "FTSConsistency").isString = true ∧ checkConsistency req s = .next s) ∨
    ((req.payload.get "FTSConsistency").isString = false ∧
      checkConsistency req s = .fail .assertion) := by
  unfold checkConsistency
  cases req.payload.get "FTSConsistency" with
  | string _ => exact .inl ⟨rfl, rfl⟩
  | _ => exact .inr ⟨rfl, rfl⟩

variable [JsonWriter]

/-- The document is stored, and nothing recorded about it. -/
theorem insertDoc_outcome (s : OpState N1QLVars) :
    (∃ r loc, insertDoc o hid w s = .next ⟨(s.ses.execute w r).2, loc⟩) ∨
    (∃ e, insertDoc o hid w s = .fail e) := by
  unfold insertDoc
  split
  · exact .inr ⟨_, rfl⟩
  · dsimp only
    split
    · exact .inr ⟨_, rfl⟩
    · exact .inl ⟨_, _, rfl⟩

/-- A document is stored before the search; where that fails its own outcome is recorded. -/
theorem runSearchUnderAtPlusConsistency_outcome (s : OpState SearchVars) :
    (∃ r loc, runSearchUnderAtPlusConsistency o w req s =
      .next ⟨(s.ses.execute w r).2.setRescodeFinal w (s.ses.execute w r).1 true, loc⟩) ∨
    (∃ r r' loc, runSearchUnderAtPlusConsistency o w req s =
      .next ⟨((s.ses.execute w r).2.execute w r').2.setRescodeFinal w
        ((s.ses.execute w r).2.execute w r').1 true, loc⟩) ∨
    (∃ e, runSearchUnderAtPlusConsistency o w req s = .fail e) := by
  unfold runSearchUnderAtPlusConsistency
  dsimp only
  split
  · exact .inr (.inr ⟨_, rfl⟩)
  · split
    · exact .inl ⟨_, _, rfl⟩
    · exact .inr (.inl ⟨_, _, _, rfl⟩)

theorem runSearchOnPreloadedData_outcome (kvCount : ℤ) (s : OpState SearchVars) :
    (∃ r loc, runSearchOnPreloadedData w req kvCount s =
      .next ⟨(s.ses.execute w r).2.setRescodeFinal w (s.ses.execute w r).1 true, loc⟩) ∨
    (∃ e, runSearchOnPreloadedData w req kvCount s = .fail e) := by
  unfold runSearchOnPreloadedData
  split
  · exact .inr ⟨_, rfl⟩
  · exact .inl ⟨_, _, rfl⟩

/-- A search records the outcome of its last request. -/
theorem search_outcome (s : OpState SearchVars) :
    (∃ r loc, search o w req s =
      .next ⟨(s.ses.execute w r).2.setRescodeFinal w (s.ses.execute w r).1 true, loc⟩) ∨
    (∃ r r' loc, search o w req s = .next ⟨((s.ses.execute w r).2.execute w r').2.setRescodeFinal w
      ((s.ses.execute w r).2.execute w r').1 true, loc⟩) ∨
    (∃ e, search o w req s = .fail e) := by
  unfold search
  split_ifs
  · exact runSearchUnderAtPlusConsistency_outcome o w req s
  · rcases runSearchOnPreloadedData_outcome w req _ s with h | h
    · exact .inl h
    · exact .inr (.inr h)

end Executors

end Sdkd
