import Sdkd.Handle

/-!
# Loaders

`N1QLLoader.cpp`, `SDLoader.cpp`, `FTSLoader.cpp`, `CBASLoader.cpp` and `ViewLoader.cpp` as loop
programs. The first four are one loop; none of the five looks at the cancel flag.
-/

namespace Sdkd

section Loader

variable {ι : Type*} (it : IterOps ι) (o : HandleOptions) (w : World)

/-- The number of items counted, which the source looks at as an `int`, and the verdict on a batch. -/
structure BatchVars where
  jj : ℕ
  ok : Bool

/-- `jj % 100 == 0`, where `jj` is an `int`. -/
@[irreducible] def endsBatch (jj : ℕ) : Bool := (toInt jj).tmod 100 = 0

theorem endsBatch_zero : endsBatch 0 = true := by decide +kernel

/-- Behind every item whose number is a multiple of 100, the one with number 0 included, the futures are
waited for. -/
def checkBatch : OpAction (DsLocal ι BatchVars) := fun s =>
  if endsBatch s.loc.extra.jj then
    .next ⟨{ s.ses with draining := true }, { s.loc with extra := { s.loc.extra with ok := true } }⟩
  else .next s

theorem checkBatch_outcome (s : OpState (DsLocal ι BatchVars)) :
    (endsBatch s.loc.extra.jj = true ∧ checkBatch s =
      .next ⟨{ s.ses with draining := true }, { s.loc with extra := { s.loc.extra with ok := true } }⟩) ∨
    (endsBatch s.loc.extra.jj = false ∧ checkBatch s = .next s) := by
  cases hends : endsBatch s.loc.extra.jj with
  | true => exact .inl ⟨rfl, if_pos hends⟩
  | false => exact .inr ⟨rfl, if_neg (by simp [hends])⟩

/-- `ok = ok && !ec`. -/
def checkOutcome (ec : ErrorCode) (s : OpState (DsLocal ι BatchVars)) :
    OpState (DsLocal ι BatchVars) :=
  { s with loc := { s.loc with extra := { s.loc.extra with ok := s.loc.extra.ok && !ec.isSet } } }

/-- `if (!ok) return false`, behind a drain. -/
def endBatch : OpAction (DsLocal ι BatchVars) := fun s =>
  if s.ses.draining then
    let s' := { s with ses := { s.ses with draining := false } }
    if s.loc.extra.ok then .next s' else .ret s'
  else .next s

def countItem : OpAction (DsLocal ι BatchVars) := fun s =>
  .next { s with loc := { s.loc with extra := { s.loc.extra with jj := s.loc.extra.jj + 1 } } }

def startDrain {L : Type*} : OpAction L := fun s =>
  .next { s with ses := { s.ses with draining := true } }

/-- `populate`, as all four loaders have it. -/
def loader : OpProg (DsLocal ι BatchVars) where
  pre := [startIter it]
  test := fun s => !it.done s.loc.iter
  body := [lookupCollection it o, submitItem it o w fun id i => some (.upsert id (it.value i) 0 0),
    checkBatch, drain checkOutcome, endBatch, advanceIter it, countItem]
  post := [startDrain, drain fun _ s => s]

def n1qlLoader : OpProg (DsLocal ι BatchVars) := loader it o w

def sdLoader : OpProg (DsLocal ι BatchVars) := loader it o w

def ftsLoader : OpProg (DsLocal ι BatchVars) := loader it o w

def cbasLoader : OpProg (DsLocal ι BatchVars) := loader it o w

def BatchVars.start : BatchVars := ⟨0, true⟩

/-- What `ViewLoader` keeps: the document it fills in, the counter of items, the batch, and the
progress of a flush. -/
structure ViewVars where
  schema : Json
  ii : ℕ
  values : List (String × String)
  flushing : Bool
  futures : List ErrorCode

def ViewVars.start (schema : Json) : ViewVars := ⟨schema, 0, [], false, []⟩

/-- Change the variables of the view loader. -/
def setView (s : OpState (DsLocal ι ViewVars)) (v : ViewVars) : OpState (DsLocal ι ViewVars) :=
  { s with loc := { s.loc with extra := v } }

/-- The document for an item, whose number is an `int`. -/
def numberedSchema (schema : Json) (key : String) (ii : ℕ) : Json :=
  (schema.set "KIdent" (.string key)).set "KVSequence" (.int (toInt ii))

/-- Put the current item into the batch. The JSON library asserts that members are assigned to an object, or
to a null which thereby becomes one. -/
def addValue [JsonWriter] : OpAction (DsLocal ι ViewVars) := fun s =>
  let v := s.loc.extra
  let key := it.key s.loc.iter
  if v.schema.isObject || v.schema.isNull then
    let schema := numberedSchema v.schema key v.ii
    .next (setView s { v with
      schema := schema
      values := v.values ++ [(key, JsonWriter.write schema)] })
  else .fail .assertion

theorem addValue_outcome [JsonWriter] (s : OpState (DsLocal ι ViewVars)) :
    ((s.loc.extra.schema.isObject || s.loc.extra.schema.isNull) = true ∧
      addValue it s = .next (setView s { s.loc.extra with
        schema := numberedSchema s.loc.extra.schema (it.key s.loc.iter) s.loc.extra.ii
        values := s.loc.extra.values ++ [(it.key s.loc.iter, JsonWriter.write
          (numberedSchema s.loc.extra.schema (it.key s.loc.iter) s.loc.extra.ii))] })) ∨
    ((s.loc.extra.schema.isObject || s.loc.extra.schema.isNull) = false ∧
      addValue it s = .fail .assertion) := by
  unfold addValue
  dsimp only
  by_cases h : (s.loc.extra.schema.isObject || s.loc.extra.schema.isNull) = true
  · exact .inl ⟨h, if_pos h⟩
  · exact .inr ⟨Bool.eq_false_iff.mpr h, if_neg h⟩

def flushFull : OpAction (DsLocal ι ViewVars) := fun s =>
  let v := s.loc.extra
  .next (setView s { v with flushing := 1000 ≤ v.values.length })

def flushRest : OpAction (DsLocal ι ViewVars) := fun s =>
  let v := s.loc.extra
  .next (setView s { v with flushing := !v.values.isEmpty })

/-- The first loop of `flushValues`: send the value whose future is still missing. -/
def flushSend : OpAction (DsLocal ι ViewVars) := fun s =>
  let v := s.loc.extra
  if v.flushing then
    match v.values[v.futures.length]? with
    | none => .next s
    | some (key, value) =>
      match o.getCollection key with
      | .error e => .fail e
      | .ok c =>
        let sent := s.ses.execute w (.upsert ⟨o.bucket, c.1, c.2, key⟩ value 0 0)
        .again (setView { s with ses := sent.2 } { v with futures := v.futures ++ [sent.1] })
  else .next s

/-- The second loop of `flushValues`: only errors are recorded. -/
def flushCollect : OpAction (DsLocal ι ViewVars) := fun s =>
  let v := s.loc.extra
  match v.futures with
  | [] => .next s
  | ec :: rest =>
    let ses := if ec.isSet then s.ses.setRescode w ec else s.ses
    .again (setView { s with ses := ses } { v with futures := rest })

theorem flushSend_outcome (s : OpState (DsLocal ι ViewVars)) :
    ((s.loc.extra.flushing = true → s.loc.extra.values[s.loc.extra.futures.length]? = none) ∧
      flushSend o w s = .next s) ∨
    (∃ key value c, s.loc.extra.flushing = true ∧
      s.loc.extra.values[s.loc.extra.futures.length]? = some (key, value) ∧
      o.getCollection key = .ok c ∧
      flushSend o w s = .again (setView
        { s with ses := (s.ses.execute w (.upsert ⟨o.bucket, c.1, c.2, key⟩ value 0 0)).2 }
        { s.loc.extra with futures := s.loc.extra.futures ++ [w.outcome s.ses.sent.length] })) ∨
    ∃ key value e, s.loc.extra.flushing = true ∧
      s.loc.extra.values[s.loc.extra.futures.length]? = some (key, value) ∧
      o.getCollection key = .error e ∧ flushSend o w s = .fail e := by
  unfold flushSend
  dsimp only
  by_cases hflush : s.loc.extra.flushing = true
  · rw [if_pos hflush]
    cases hget : s.loc.extra.values[s.loc.extra.futures.length]? with
    | none => exact .inl ⟨fun _ => rfl, rfl⟩
    | some entry =>
      obtain ⟨key, value⟩ := entry
      cases hc : o.getCollection key with
      | ok c => exact .inr (.inl ⟨key, value, c, hflush, rfl, hc, by simp only [hc]; rfl⟩)
      | error e => exact .inr (.inr ⟨key, value, e, hflush, rfl, hc, by simp only [hc]⟩)
  · rw [if_neg hflush]
    exact .inl ⟨fun hyes => absurd hyes hflush, rfl⟩

theorem flushCollect_outcome (s : OpState (DsLocal ι ViewVars)) :
    (s.loc.extra.futures = [] ∧ flushCollect w s = .next s) ∨
    ∃ ec rest, s.loc.extra.futures = ec :: rest ∧
      flushCollect w s = .again (setView
        { s with ses := if ec.isSet then s.ses.setRescode w ec else s.ses }
        { s.loc.extra with futures := rest }) := by
  unfold flushCollect
  dsimp only
  cases s.loc.extra.futures with
  | nil => exact .inl ⟨rfl, rfl⟩
  | cons ec rest => exact .inr ⟨ec, rest, rfl, rfl⟩

/-- `values.clear()` behind a flush. -/
def flushClear : OpAction (DsLocal ι ViewVars) := fun s =>
  let v := s.loc.extra
  if v.flushing then .next (setView s { v with flushing := false, values := [] }) else .next s

def countValue : OpAction (DsLocal ι ViewVars) := fun s =>
  .next (setView s { s.loc.extra with ii := s.loc.extra.ii + 1 })

/-- `populateViewData`. -/
def viewLoader [JsonWriter] (options : ResultOptions) : OpProg (DsLocal ι ViewVars) where
  pre := [enter options, resetCancel, startIter it]
  test := fun s => !it.done s.loc.iter
  body := [addValue it, flushFull, flushSend o w, flushCollect w, flushClear, advanceIter it,
    countValue]
  post := [flushRest, flushSend o w, flushCollect w]

end Loader

end Sdkd
