import Mathlib.Tactic.SplitIfs
import Sdkd.Message

/-!
# Datasets and their iterators

`Dataset.cpp`, `N1QLDataset.cpp`, `SDDataset.cpp`, `FTSDataset.cpp` and `CBASDataset.cpp`: how the type
of a request's dataset is determined, the dataset a request describes, and the iterators over it.

## Main definitions

- `Dataset.determineType`, `Dataset.fromType` — from a request to a dataset
- `IterOps` — the interface of an iterator, which the operations are written against
- `Dataset.getIter` — the iterator of a dataset
-/

namespace Sdkd

/-- `Dataset::Type`. -/
inductive DsType where
  | file | inline | reference | seeded | n1ql | sd | fts | cbas | invalid
  deriving DecidableEq

namespace DsType

/-- The name of a type on the wire; the invalid type has none. -/
def name : DsType → String
  | file => "DSTYPE_FILE"
  | inline => "DSTYPE_INLINE"
  | reference => "DSTYPE_REFERENCE"
  | seeded => "DSTYPE_SEEDED"
  | n1ql => "DSTYPE_N1QL"
  | sd => "DSTYPE_SD"
  | fts => "DSTYPE_FTS"
  | cbas => "DSTYPE_CBAS"
  | invalid => ""

/-- The types of `CBSDKD_DATASET_XTYPE`, in its order. -/
def all : List DsType := [file, inline, reference, seeded, n1ql, sd, fts, cbas]

end DsType

structure DatasetSeedSpecification where
  count : ℕ
  ksize : ℕ
  vsize : ℕ
  continuous : Bool
  repeatText : String
  kseed : String
  vseed : String
  deriving DecidableEq

structure N1QLDatasetSpecification where
  params : List String
  paramValues : List String
  continuous : Bool
  count : ℕ
  deriving DecidableEq

structure SDDatasetSpecification where
  doc : Json
  load : Bool
  command : String
  path : String
  value : String
  continuous : Bool
  count : ℕ

/-- What each class of datasets stores. -/
inductive DatasetSpec where
  | inline (items : Json)
  | seeded (spec : DatasetSeedSpecification)
  | n1ql (spec : N1QLDatasetSpecification)
  | sd (spec : SDDatasetSpecification)
  | fts (count : ℕ)
  | cbas (count : ℕ)

structure Dataset where
  err : Error
  spec : DatasetSpec

namespace Dataset

def isValid (ds : Dataset) : Bool := ds.err.code = 0

/-- The number of items of one pass. -/
def getCount : DatasetSpec → ℕ
  | .inline items => items.size
  | .seeded s => s.count
  | .n1ql s => s.count
  | .sd s => s.count
  | .fts count => count
  | .cbas count => count

/-- The common first check of every `verify_spec`. -/
def mustHaveCount (count : ℕ) (otherwise : Error) : Error :=
  if count = 0 then .of Error.SDKD_EINVAL Error.SUBSYSf_SDKD "Must have count" else otherwise

/-- `verify_spec` of each class: the error it leaves. There is none for an inline dataset. -/
def verifySpec : DatasetSpec → Error
  | .inline _ => .success
  | .seeded s => mustHaveCount s.count (if s.kseed.length = 0 ∨ s.vseed.length = 0 then
      .of Error.SDKD_EINVAL Error.SUBSYSf_SDKD "KSeed and VSeed must not be empty"
    else Error.success)
  | .n1ql s => mustHaveCount s.count (if s.params.length = 0 ∨ s.paramValues.length = 0 then
      .of Error.SDKD_EINVAL Error.SUBSYSf_SDKD "params and values must not be empty"
    else Error.success)
  | .sd s => mustHaveCount s.count .success
  | .fts count => mustHaveCount count .success
  | .cbas count => mustHaveCount count .success

theorem count_pos_of_mustHaveCount {count : ℕ} {e : Error}
    (h : (mustHaveCount count e).isSet = false) : 0 < count := by
  refine Nat.pos_of_ne_zero fun hzero => ?_
  rw [mustHaveCount, if_pos hzero] at h
  cases h

/-- A specification that is accepted has a count. -/
theorem count_pos_of_verifySpec {spec : DatasetSpec} (hinline : ∀ items, spec ≠ .inline items)
    (h : (verifySpec spec).isSet = false) : 0 < getCount spec := by
  cases spec with
  | inline items => exact absurd rfl (hinline items)
  | _ => exact count_pos_of_mustHaveCount h

/-- `split(s, ',', elems)`: empty pieces are dropped. -/
def split (s : String) : List String :=
  ((s.toList.splitOn ',').filter (· ≠ [])).map String.ofList

section Constructors

variable [JsonAccess]

def inlineOfJson (json : Json) : Dataset :=
  let dsitems := json.get "Items"
  if asTruthVal dsitems then ⟨.success, .inline dsitems⟩
  else ⟨⟨Error.SDKD_EINVAL, "Expected 'Items' but couldn't find any"⟩, .inline .null⟩

def seededOfJson (jspec : Json) : Dataset :=
  let spec : DatasetSeedSpecification := {
    kseed := asString (jspec.get "KSeed")
    vseed := asString (jspec.get "VSeed")
    ksize := asUInt (jspec.get "KSize")
    vsize := asUInt (jspec.get "VSize")
    repeatText := asString (jspec.get "Repeat")
    count := asUInt (jspec.get "Count")
    continuous := asTruthVal (jspec.get "Continuous") }
  let seeds := if spec.kseed.length = 0 ∨ spec.vseed.length = 0 then
      .of Error.SDKD_EINVAL Error.SUBSYSf_SDKD "KSeed and VSeed must not be empty"
    else Error.success
  ⟨mustHaveCount spec.count seeds, .seeded spec⟩

def n1qlOfJson (jspec : Json) : Dataset :=
  let spec : N1QLDatasetSpecification := {
    params := split (asString (jspec.get "NQParam"))
    paramValues := split (asString (jspec.get "NQParamValues"))
    count := asUInt (jspec.get "NQCount")
    continuous := asTruthVal (jspec.get "Continuous") }
  let lists := if spec.params.length = 0 ∨ spec.paramValues.length = 0 then
      .of Error.SDKD_EINVAL Error.SUBSYSf_SDKD "params and values must not be empty"
    else Error.success
  ⟨mustHaveCount spec.count lists, .n1ql spec⟩

def sdOfJson (jspec : Json) (load : Bool) : Dataset :=
  let spec : SDDatasetSpecification := {
    load := load
    doc := if load then .string (asString (jspec.get "SDSchema")) else .null
    command := if load then "" else asString (jspec.get "SDCommand")
    path := if load then "" else asString (jspec.get "SDPath")
    value := if load then "" else asString (jspec.get "SDValue")
    count := asUInt (jspec.get "Count")
    continuous := asTruthVal (jspec.get "Continuous") }
  ⟨mustHaveCount spec.count .success, .sd spec⟩

def ftsOfJson (jspec : Json) : Dataset :=
  let count := asUInt (jspec.get "Count")
  ⟨mustHaveCount count .success, .fts count⟩

def cbasOfJson (jspec : Json) : Dataset :=
  let count := asUInt (jspec.get "Count")
  ⟨mustHaveCount count .success, .cbas count⟩

/-- `determineType`: the type of a request's dataset, and the ID of a reference. -/
def determineType (req : Request) : DsType × String :=
  if (req.payload.get "DSType").isNull then (.invalid, "")
  else if (req.payload.get "DS").isNull then (.invalid, "")
  else
    let typestr := asString (req.payload.get "DSType")
    let dsdata := req.payload.get "DS"
    match DsType.all.find? (fun t => t.name = typestr) with
    | none => (.invalid, "")
    | some .reference =>
      if (dsdata.get "ID").isNull then (.invalid, "")
      else (.reference, asString (dsdata.get "ID"))
    | some t => (t, "")

/-- The types whose constructor call stands behind an assertion that `DS` is a true value. -/
def assertsTruth : DsType → Bool
  | .seeded | .n1ql | .sd | .fts | .cbas => true
  | _ => false

/-- The constructor `fromType` calls; none for a file, a reference or an invalid type. -/
def construct (t : DsType) (req : Request) : Option Dataset :=
  let ds := req.payload.get "DS"
  match t with
  | .inline => some (inlineOfJson ds)
  | .seeded => some (seededOfJson ds)
  | .n1ql => some (n1qlOfJson ds)
  | .sd => some (sdOfJson ds (req.command.code = .mcDsSdLoad))
  | .fts => some (ftsOfJson ds)
  | .cbas => some (cbasOfJson ds)
  | .file | .reference | .invalid => none

def fromType (t : DsType) (req : Request) : Except Crash (Option Dataset) :=
  if assertsTruth t && !asTruthVal (req.payload.get "DS") then .error .assertion
  else .ok (construct t req)

/-- Only a reference has an ID. -/
theorem determineType_id {req : Request} (h : (determineType req).2 ≠ "") :
    (determineType req).1 = .reference := by
  unfold determineType at h ⊢
  dsimp only at h ⊢
  by_cases htype : (req.payload.get "DSType").isNull = true
  · exact absurd (by rw [if_pos htype]) h
  by_cases hds : (req.payload.get "DS").isNull = true
  · exact absurd (by rw [if_neg htype, if_pos hds]) h
  rw [if_neg htype, if_neg hds] at h ⊢
  cases hfind : DsType.all.find? (fun t => t.name = asString (req.payload.get "DSType")) with
  | none => exact absurd (by rw [hfind]) h
  | some t =>
    rw [hfind] at h
    cases t with
    | reference =>
      dsimp only at h ⊢
      split_ifs at h ⊢
      · exact absurd rfl h
      · rfl
    | _ => exact absurd rfl h

/-- A reference is no dataset of its own. -/
theorem fromType_reference (req : Request) : fromType .reference req = .ok none := rfl

end Constructors

end Dataset

/-! ## Iterators -/

/-- The interface of an iterator over the state `ι`. Building the data of an item can fail. -/
structure IterOps (ι : Type*) where
  start : ι → Except Crash ι
  advance : ι → Except Crash ι
  done : ι → Bool
  key : ι → String
  value : ι → String
  path : ι → String
  command : ι → String

structure DatasetIterator where
  curidx : ℕ
  curk : String
  curv : String
  curp : String
  curc : String
  deriving DecidableEq

namespace Dataset

/-- An iterator as it comes from its constructor. -/
def newIterator : DatasetIterator := ⟨0, "", "", "", ""⟩

/-- The loop of `_fill_repeat`. The index in `ext` makes it non-empty, so the second conjunct of the
test is always true. -/
def fillLoop (ext : String) (bound : ℕ) (result : String) : String :=
  if result.length < bound ∧ 0 < ext.length then fillLoop ext bound (result ++ ext) else result
termination_by bound - result.length
decreasing_by
  rw [String.length_append]
  omega

/-- `_fill_repeat`; `limit - 1` is computed in unsigned 32-bit arithmetic. -/
def fillRepeat (base : String) (limit : ℕ) (repeatText : String) (idx : ℕ) : String :=
  let repeatExt := repeatText ++ toString idx
  fillLoop repeatExt ((limit + (2 ^ 32 - 1)) % 2 ^ 32) (base ++ repeatExt)

/-- The lockstep walk over parameter names and values; a value past the end is out of bounds. -/
def pairParams (doc : Json) : List String → List String → Except Crash Json
  | [], _ => .ok doc
  | p :: ps, v :: vs => pairParams (doc.set p (.string v)) ps vs
  | _ :: _, [] => .error .outOfBounds

/-- The characters of a rendered string that `SDDatasetIterator::init_data` keeps. -/
def stripRendering (curv : String) : String :=
  let cs := curv.toList
  String.ofList ((cs.zipIdx.filter fun ci =>
    ci.1 ≠ '\\' ∧ ci.2 ≠ 0 ∧ ci.2 + 2 ≠ cs.length ∧ ci.2 + 1 ≠ cs.length).map Prod.fst)

/-- The document of an item of a full-text or analytics dataset. -/
def sampleDoc (idx : ℤ) : Json :=
  let subValue := (Json.null.set "subvalue" (.string ("SampleSubvalue" ++ toString idx))).set
    "recurringField" (.string "RecurringSubvalue")
  (Json.null.set "value" (.string ("SampleValue" ++ toString idx))).set "SubFields" subValue

variable [JsonAccess] [JsonWriter]

/-- `init_data` of each iterator class. -/
def initData (spec : DatasetSpec) (it : DatasetIterator) (idx : ℤ) : Except Crash DatasetIterator :=
  match spec with
  | .inline items =>
    -- the JSON library asserts that an index is not negative
    if idx < 0 then .error .assertion
    else
      let pair := items.index idx
      if pair.isArray then
        .ok { it with curk := asString (pair.index 0), curv := asString (pair.index 1) }
      else .ok { it with curk := asString pair }
  | .seeded s =>
    let uidx := (idx % 2 ^ 32).toNat
    .ok { it with
      curk := fillRepeat s.kseed s.ksize s.repeatText uidx
      curv := fillRepeat s.vseed s.vsize s.repeatText uidx }
  | .n1ql s =>
    match pairParams (Json.null.set "id" (.string (toString idx))) s.params s.paramValues with
    | .ok doc => .ok { it with curv := JsonWriter.write doc, curk := asString (doc.get "id") }
    | .error e => .error e
  | .sd s =>
    if s.load then
      .ok { it with curv := stripRendering (JsonWriter.write s.doc), curk := toString idx }
    else .ok { it with curp := s.path, curv := s.value, curc := s.command, curk := toString idx }
  | .fts _ => .ok { it with curv := JsonWriter.write (sampleDoc idx), curk := toString idx }
  | .cbas _ => .ok { it with curv := JsonWriter.write (sampleDoc idx), curk := toString idx }

/-- The bound a continuous iterator wraps around at, if it is one. -/
def continuousCount : DatasetSpec → Option ℕ
  | .seeded s => if s.continuous then some s.count else none
  | .n1ql s => if s.continuous then some s.count else none
  | .sd s => if s.continuous then some s.count else none
  | _ => none

/-- Store the index and build the data of the item it stands for. -/
def seek (spec : DatasetSpec) (it : DatasetIterator) (curidx : ℕ) : Except Crash DatasetIterator :=
  initData spec { it with curidx := curidx } ((curidx : ℤ).bmod (2 ^ 32))

/-- The index `advance` moves to. -/
def nextIndex (spec : DatasetSpec) (curidx : ℕ) : ℕ :=
  let next := (curidx + 1) % 2 ^ 32
  match continuousCount spec with
  | some count => if count ≤ next then 0 else next
  | none => next

/-- `done`: a continuous iterator never is. -/
def done (spec : DatasetSpec) (it : DatasetIterator) : Bool :=
  match continuousCount spec with
  | some _ => false
  | none => getCount spec ≤ it.curidx

/-- `getIter`: the iterator over a dataset. -/
def getIter (ds : Dataset) : IterOps DatasetIterator where
  start := fun it => seek ds.spec it 0
  advance := fun it => seek ds.spec it (nextIndex ds.spec it.curidx)
  done := done ds.spec
  key := DatasetIterator.curk
  value := DatasetIterator.curv
  path := DatasetIterator.curp
  command := DatasetIterator.curc

end Dataset

end Sdkd
