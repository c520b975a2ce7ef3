import Sdkd.Lib.RunLog
import Sdkd.RequestLog
import Sdkd.ViewLoads

/-!
# Batches of the view loader

What `populateViewData` gives to `flushValues`. One vector is filled, flushed and cleared in the loop and
flushed once more behind it, and one document is rewritten for every item.

## Main definitions

- `flushedBatch` — what a step gives to `flushValues`
- `batchAssertion` — the assertion about the batches that holds at each control position

## Main results

- `viewLoader_batches` — the assertions form an outline with a log
-/

namespace Sdkd

open LoopProg

/-! ## The documents -/

namespace Json

/-- Two members rewritten in turn. -/
theorem set_set_set_set (doc : Json) (p q : String) (v v' u u' : Json) :
    (((doc.set p v).set q v').set p u).set q u' = (doc.set p u).set q u' := by
  have hmembers : ∀ ms : List (String × Json),
      ((((Json.object ms).set p v).set q v').set p u).set q u' = ((Json.object ms).set p u).set q u' := by
    intro ms
    simp only [Json.set, List.filter_append, List.filter_filter, Json.object.injEq]
    by_cases hpq : p = q
    · simp [hpq]
    · have hqp : q ≠ p := Ne.symm hpq
      simp [hpq, hqp, Bool.and_comm, Bool.and_left_comm]
  cases doc with
  | object ms => exact hmembers ms
  | _ => exact hmembers []

end Json

/-- A document that has been numbered can be numbered again. -/
theorem numberedSchema_numberedSchema (schema : Json) (key key' : String) (ii ii' : ℕ) :
    numberedSchema (numberedSchema schema key ii) key' ii' = numberedSchema schema key' ii' :=
  Json.set_set_set_set _ _ _ _ _ _ _

theorem numberedSchema_isObject (schema : Json) (key : String) (ii : ℕ) :
    (numberedSchema schema key ii).isObject = true := by
  unfold numberedSchema
  cases schema.set "KIdent" (.string key) <;> rfl

/-- The JSON library lets members be assigned to the schema. -/
def Assignable (schema : Json) : Prop := (schema.isObject || schema.isNull) = true

section Entries

variable {ι : Type*} (it : IterOps ι) (i₀ : ι)

/-- The key of the item with number `k`. -/
def itemKey (k : ℕ) : String :=
  match it.item i₀ k with
  | .ok i => it.key i
  | .error _ => ""

/-- The entry of the batches for an item. -/
def viewEntry [JsonWriter] (schema : Json) (k : ℕ) : String × String :=
  (itemKey it i₀ k, JsonWriter.write (numberedSchema schema (itemKey it i₀ k) k))

/-- The request an entry is sent as. -/
def Upserts (o : HandleOptions) (e : String × String) (r : ClusterRequest) : Prop :=
  ∃ c, o.getCollection e.1 = .ok c ∧ r = .upsert ⟨o.bucket, c.1, c.2, e.1⟩ e.2 0 0

/-- What a step made at `pos` gives to `flushValues`, if it is a call. -/
def flushedBatch (pos : Pos Crash) (s : OpState (DsLocal ι ViewVars)) : List (List (String × String)) :=
  match pos with
  | .body 1 | .post 0 => if s.loc.extra.flushing then [s.loc.extra.values] else []
  | _ => []

variable {it i₀}

theorem Walked.itemKey_eq {k : ℕ} {i : ι} (h : Walked it i₀ k i) : itemKey it i₀ k = it.key i := by
  rw [itemKey, h.item]

end Entries

/-! ## The failures -/

section Failures

variable (w : World)

/-- The failures among the first `n` outcomes. -/
def failures (n : ℕ) : List ErrorCode :=
  ((List.range n).map w.outcome).filter ErrorCode.isSet

/-- The failures of the requests sent have been recorded, but for those of the futures that are left. -/
structure FailuresRecorded (futures : List ErrorCode) (rs : ResultSet) (sent : List ClusterRequest) : Prop where
  recorded : rs.recorded ++ futures.filter ErrorCode.isSet = failures w sent.length
  stats : Histogram.Counts intCounter rs.stats (rs.recorded.map ErrorCode.text)

variable {w}

/-- The failures of one request more. -/
theorem failures_succ (n : ℕ) :
    failures w (n + 1) = failures w n ++ [w.outcome n].filter ErrorCode.isSet := by
  rw [failures, List.range_succ, List.map_append, List.filter_append]
  rfl

/-- One request more, whose future is kept. -/
theorem FailuresRecorded.execute {futures : List ErrorCode} {rs : ResultSet} {sent : List ClusterRequest}
    (h : FailuresRecorded w futures rs sent) (q : ClusterRequest) :
    FailuresRecorded w (futures ++ [w.outcome sent.length]) rs (sent ++ [q]) where
  recorded := by
    rw [List.length_append, List.length_singleton, failures_succ, ← h.recorded, List.filter_append,
      List.append_assoc]
  stats := h.stats

/-- The next future is looked at. -/
theorem FailuresRecorded.collect {ec : ErrorCode} {futures : List ErrorCode} {ses : Session}
    (h : FailuresRecorded w (ec :: futures) ses.rs ses.sent) :
    FailuresRecorded w futures (if ec.isSet then ses.setRescode w ec else ses).rs
      (if ec.isSet then ses.setRescode w ec else ses).sent := by
  have hrecorded := h.recorded
  by_cases hset : ec.isSet = true
  · rw [List.filter_cons_of_pos hset] at hrecorded
    rw [if_pos hset]
    refine ⟨?_, ?_⟩
    · simpa [Session.setRescode] using hrecorded
    · simpa [Session.setRescode] using h.stats.bump ec.text
  · rw [List.filter_cons_of_neg hset] at hrecorded
    rw [if_neg hset]
    exact ⟨hrecorded, h.stats⟩

end Failures

/-! ## The assertions -/

section Outline

variable [JsonWriter] {ι : Type*} (it : IterOps ι) (i₀ : ι) (o : HandleOptions) (w : World)
  (schema : Json)

/-- The batches `l` and then the vector hold the entries of the first `m` items. The document is the schema but
for the members that are rewritten. -/
structure Filled (l : List (List (String × String))) (m : ℕ) (doc : Json)
    (values : List (String × String)) : Prop where
  kind : Assignable doc ↔ Assignable schema
  assignable : 0 < m → Assignable schema
  rewritten : ∀ key ii, numberedSchema doc key ii = numberedSchema schema key ii
  entries : l.flatten ++ values = (List.range m).map (viewEntry it i₀ schema)
  full : ∀ b ∈ l, b.length = 1000

/-- The requests sent are those for the first `c` entries. -/
def SentEntries (c : ℕ) (sent : List ClusterRequest) : Prop :=
  Logs (fun k r => Upserts o (viewEntry it i₀ schema k) r) c sent

/-- No flush is going on behind `m` items. -/
structure Resting (l : List (List (String × String))) (m : ℕ) (s : OpState (DsLocal ι ViewVars)) :
    Prop where
  filled : Filled it i₀ schema l m s.loc.extra.schema s.loc.extra.values
  accounted : FailuresRecorded w [] s.ses.rs s.ses.sent
  sent : SentEntries it i₀ o schema l.flatten.length s.ses.sent
  futures : s.loc.extra.futures = []
  flushing : s.loc.extra.flushing = false

/-- The vector is being flushed, and is the last batch; `c` of its entries have been sent. -/
structure Flushing (c : ℕ) (l : List (List (String × String))) (m : ℕ)
    (s : OpState (DsLocal ι ViewVars)) : Prop where
  split : ∃ l₀, l = l₀ ++ [s.loc.extra.values] ∧
    Filled it i₀ schema l₀ m s.loc.extra.schema s.loc.extra.values ∧
    SentEntries it i₀ o schema (l₀.flatten.length + c) s.ses.sent
  accounted : FailuresRecorded w s.loc.extra.futures s.ses.rs s.ses.sent
  flushing : s.loc.extra.flushing = true

/-- Before or in the first loop of `flushValues`. The size of the vector tells whether it is flushed. -/
def BeforeSend (rest full : ℕ → Prop) (l : List (List (String × String))) (m : ℕ)
    (s : OpState (DsLocal ι ViewVars)) : Prop :=
  (Resting it i₀ o w schema l m s ∧ rest s.loc.extra.values.length) ∨
  (Flushing it i₀ o w schema s.loc.extra.futures.length l m s ∧
    s.loc.extra.futures.length ≤ s.loc.extra.values.length ∧ full s.loc.extra.values.length)

/-- Behind it. -/
def BehindSend (rest full : ℕ → Prop) (l : List (List (String × String))) (m : ℕ)
    (s : OpState (DsLocal ι ViewVars)) : Prop :=
  (Resting it i₀ o w schema l m s ∧ rest s.loc.extra.values.length) ∨
  (Flushing it i₀ o w schema s.loc.extra.values.length l m s ∧ full s.loc.extra.values.length)

/-- In round `r`, at its item. -/
def InRound (r : ℕ) (i : ι) (ii : ℕ) : Prop :=
  ∃ k, r = k + 1 ∧ ii = k ∧ Walked it i₀ k i ∧ it.done i = false

/-- What holds at a control position after `r` rounds; `l` are the batches that have been given to `flushValues`. -/
def batchAssertion (l : List (List (String × String))) (pos : Pos Crash) (r : ℕ)
    (s : OpState (DsLocal ι ViewVars)) : Prop :=
  let inRound := InRound it i₀ r s.loc.iter s.loc.extra.ii
  let ended := Walked it i₀ r s.loc.iter ∧ it.done s.loc.iter = true
  let resting := Resting it i₀ o w schema l r s ∧ s.loc.extra.values.length < 1000
  match pos with
  | .pre 0 => r = 0 ∧ l = [] ∧ s.loc.iter = i₀ ∧ s.loc.extra = .start schema ∧ s.ses.sent = []
  | .pre 1 | .pre 2 => r = 0 ∧ s.loc.iter = i₀ ∧ s.loc.extra.ii = 0 ∧ resting
  | .pre (_ + 3) | .test | .body (_ + 7) => Walked it i₀ r s.loc.iter ∧ s.loc.extra.ii = r ∧ resting
  | .body 0 => inRound ∧ ∃ k, r = k + 1 ∧ Resting it i₀ o w schema l k s ∧
      s.loc.extra.values.length < 1000
  | .body 1 => inRound ∧ Resting it i₀ o w schema l r s ∧ s.loc.extra.values.length ≤ 1000
  | .body 2 => inRound ∧ BeforeSend it i₀ o w schema (· < 1000) (· = 1000) l r s
  | .body 3 => inRound ∧ BehindSend it i₀ o w schema (· < 1000) (· = 1000) l r s
  | .body 4 => inRound ∧ BehindSend it i₀ o w schema (· < 1000) (· = 1000) l r s ∧
      s.loc.extra.futures = []
  | .body 5 => inRound ∧ resting
  | .body 6 => Walked it i₀ r s.loc.iter ∧ s.loc.extra.ii + 1 = r ∧ resting
  | .post 0 => ended ∧ resting
  | .post 1 => ended ∧ BeforeSend it i₀ o w schema (· = 0) (fun c => 0 < c ∧ c < 1000) l r s
  | .post 2 => ended ∧ BehindSend it i₀ o w schema (· = 0) (fun c => 0 < c ∧ c < 1000) l r s
  | .post (_ + 3) | .done => ended ∧
      BehindSend it i₀ o w schema (· = 0) (fun c => 0 < c ∧ c < 1000) l r s ∧ s.loc.extra.futures = []
  | .dead e => Failed it i₀ o r e ∨ (0 < r ∧ ¬ Assignable schema)

/-! ### What the structures say -/

variable {it i₀ o w schema} {l : List (List (String × String))} {m r : ℕ}
  {s : OpState (DsLocal ι ViewVars)}

theorem Filled.length_eq {doc : Json} {values : List (String × String)}
    (h : Filled it i₀ schema l m doc values) : l.flatten.length + values.length = m := by
  have hlen := congrArg List.length h.entries
  rwa [List.length_append, List.length_map, List.length_range] at hlen

/-- The entries of the vector go on where the batches end. -/
theorem Filled.get {doc : Json} {values : List (String × String)} {j : ℕ} {e : String × String}
    (h : Filled it i₀ schema l m doc values) (hget : values[j]? = some e) :
    l.flatten.length + j < m ∧ e = viewEntry it i₀ schema (l.flatten.length + j) := by
  have hlt := (List.getElem?_eq_some_iff.mp hget).1
  have hlen := h.length_eq
  have hbound : l.flatten.length + j < m := by omega
  have hentry : (l.flatten ++ values)[l.flatten.length + j]? = some e := by
    rw [List.getElem?_append_right (Nat.le_add_right _ _), Nat.add_sub_cancel_left, hget]
  rw [h.entries, List.getElem?_map, List.getElem?_range hbound] at hentry
  exact ⟨hbound, (Option.some.inj hentry).symm⟩

/-- One entry more. -/
theorem Filled.snoc {doc : Json} {values : List (String × String)} {key : String} {ii : ℕ}
    (h : Filled it i₀ schema l m doc values) (hdoc : Assignable doc) (hkey : key = itemKey it i₀ m)
    (hii : ii = m) :
    Filled it i₀ schema l (m + 1) (numberedSchema doc key ii)
      (values ++ [(key, JsonWriter.write (numberedSchema doc key ii))]) where
  kind := iff_of_true (by rw [Assignable, numberedSchema_isObject, Bool.true_or]) (h.kind.mp hdoc)
  assignable := fun _ => h.kind.mp hdoc
  rewritten := fun key ii => by rw [numberedSchema_numberedSchema, h.rewritten]
  entries := by
    subst hkey hii
    rw [List.range_succ, List.map_append, ← h.entries, List.append_assoc, h.rewritten]
    rfl
  full := h.full

/-- The vector becomes a batch when it is cleared behind a flush. -/
theorem Filled.clear {doc : Json} {values : List (String × String)} (h : Filled it i₀ schema l m doc values)
    (hfull : values.length = 1000) : Filled it i₀ schema (l ++ [values]) m doc [] where
  kind := h.kind
  assignable := h.assignable
  rewritten := h.rewritten
  entries := by rw [List.append_nil, List.flatten_append, List.flatten_singleton, h.entries]
  full := List.forall_mem_append.mpr ⟨h.full, List.forall_mem_singleton.mpr hfull⟩

/-! ### One lemma for each action -/

theorem enter_batches {options : ResultOptions} (h : batchAssertion it i₀ o w schema l (.pre 0) r s) :
    (enter options s).Establishes (batchAssertion it i₀ o w schema l · r) (.pre 0) (.pre 1) s := by
  obtain ⟨rfl, rfl, hiter, hextra, hsent⟩ := h
  obtain ⟨ses, iter, collection, extra⟩ := s
  subst hiter hextra
  have hnone : FailuresRecorded w [] (ses.enter options).rs (ses.enter options).sent :=
    ⟨by rw [show (ses.enter options).sent = [] from hsent]; rfl, Histogram.counts_empty⟩
  refine ⟨rfl, rfl, rfl, ⟨⟨.rfl, fun hno => absurd hno (Nat.lt_irrefl 0), fun _ _ => rfl, rfl, by simp⟩, hnone, ?_,
    rfl, rfl⟩, Nat.succ_pos 999⟩
  show Logs _ _ ses.sent
  rw [show ses.sent = [] from hsent]
  exact .nil

theorem startIter_batches (h : batchAssertion it i₀ o w schema l (.pre 2) r s) :
    (startIter it s).Establishes (batchAssertion it i₀ o w schema l · r) (.pre 2) (.pre 3) s := by
  obtain ⟨rfl, rfl, hii, hrest, hlt⟩ := h
  rcases startIter_outcome it s with ⟨i, hi, hout⟩ | ⟨e, he, hout⟩ <;> rw [hout]
  · exact ⟨⟨hi, by simp⟩, hii,
      ⟨hrest.filled, hrest.accounted, hrest.sent, hrest.futures, hrest.flushing⟩, hlt⟩
  · exact .inl (.inl ⟨0, le_rfl, he⟩)

theorem addValue_batches (h : batchAssertion it i₀ o w schema l (.body 0) r s) :
    (addValue it s).Establishes (batchAssertion it i₀ o w schema l · r) (.body 0) (.body 1) s := by
  obtain ⟨⟨k, rfl, hii, hw, hmore⟩, k', hk, hrest, hlt⟩ := h
  obtain rfl : k = k' := Nat.succ.inj hk
  rcases addValue_outcome it s with ⟨hyes, hout⟩ | ⟨hbad, hout⟩ <;> rw [hout]
  · refine ⟨⟨k, rfl, hii, hw, hmore⟩, ⟨hrest.filled.snoc hyes hw.itemKey_eq.symm hii, hrest.accounted,
      hrest.sent, hrest.futures, hrest.flushing⟩, ?_⟩
    simp only [setView, List.length_append, List.length_singleton]
    omega
  · refine .inr ⟨k.succ_pos, fun hyes => ?_⟩
    rw [← hrest.filled.kind, Assignable, hbad] at hyes
    cases hyes

/-- `flushFull` and `flushRest` raise the flag if the vector is to be flushed, and then it is a batch. -/
theorem Resting.flush {rest full : ℕ → Prop} (h : Resting it i₀ o w schema l m s) (flushing : Bool)
    (hrest : flushing = false → rest s.loc.extra.values.length)
    (hfull : flushing = true → full s.loc.extra.values.length) :
    BeforeSend it i₀ o w schema rest full (l ++ if flushing then [s.loc.extra.values] else []) m
      (setView s { s.loc.extra with flushing := flushing }) := by
  cases flushing with
  | false =>
    rw [if_neg (by decide), List.append_nil]
    exact .inl ⟨⟨h.filled, h.accounted, h.sent, h.futures, rfl⟩, hrest rfl⟩
  | true =>
    rw [if_pos rfl]
    have hnone : (setView s { s.loc.extra with flushing := true }).loc.extra.futures = [] := h.futures
    refine .inr ⟨⟨⟨l, rfl, h.filled, ?_⟩, ?_, rfl⟩, ?_, hfull rfl⟩
    · rw [hnone]
      exact h.sent
    · rw [hnone]
      exact h.accounted
    · rw [hnone]
      exact Nat.zero_le _

/-- The first loop of `flushValues`. -/
theorem flushSend_batches {rest full : ℕ → Prop} (h : BeforeSend it i₀ o w schema rest full l m s) :
    (flushSend o w s = .next s ∧ BehindSend it i₀ o w schema rest full l m s) ∨
    (∃ e, flushSend o w s = .fail e ∧ ∃ k < m, o.getCollection (itemKey it i₀ k) = .error e) ∨
    ∃ s', flushSend o w s = .again s' ∧ s'.loc.iter = s.loc.iter ∧
      s'.loc.extra.ii = s.loc.extra.ii ∧ BeforeSend it i₀ o w schema rest full l m s' := by
  rcases flushSend_outcome o w s with ⟨hnone, hout⟩ | ⟨key, value, c, hflush, hget, hc, hout⟩ |
    ⟨key, value, e, hflush, hget, he, hout⟩
  · refine .inl ⟨hout, ?_⟩
    rcases h with hrest | ⟨hflushing, hle, hsize⟩
    · exact .inl hrest
    · have hge := List.getElem?_eq_none_iff.mp (hnone hflushing.flushing)
      rw [Nat.le_antisymm hle hge] at hflushing
      exact .inr ⟨hflushing, hsize⟩
  · rcases h with ⟨hrest, -⟩ | ⟨⟨⟨l₀, hl, hfilled, hsent⟩, haccounted, -⟩, -, hsize⟩
    · cases hrest.flushing.symm.trans hflush
    · obtain ⟨-, hentry⟩ := hfilled.get hget
      have hlt := (List.getElem?_eq_some_iff.mp hget).1
      refine .inr (.inr ⟨_, hout, rfl, rfl, .inr ⟨⟨⟨l₀, hl, hfilled, ?_⟩, haccounted.execute _, hflush⟩, ?_,
        hsize⟩⟩)
      · simp only [setView, Session.execute, List.length_append, List.length_singleton]
        exact hsent.snoc (hentry ▸ ⟨c, hc, rfl⟩)
      · simp only [setView, List.length_append, List.length_singleton]
        exact hlt
  · rcases h with ⟨hrest, -⟩ | ⟨⟨⟨l₀, -, hfilled, -⟩, -, -⟩, -, -⟩
    · cases hrest.flushing.symm.trans hflush
    · -- the key is that of an item
      obtain ⟨hlt, hentry⟩ := hfilled.get hget
      rw [(Prod.mk.inj hentry).1] at he
      exact .inr (.inl ⟨e, hout, _, hlt, he⟩)

/-- The second one. -/
theorem flushCollect_batches {rest full : ℕ → Prop} (h : BehindSend it i₀ o w schema rest full l m s) :
    (flushCollect w s = .next s ∧ s.loc.extra.futures = []) ∨
    ∃ s', flushCollect w s = .again s' ∧ s'.loc.iter = s.loc.iter ∧
      s'.loc.extra.ii = s.loc.extra.ii ∧ BehindSend it i₀ o w schema rest full l m s' := by
  rcases flushCollect_outcome w s with ⟨hnil, hout⟩ | ⟨ec, left, hfutures, hout⟩
  · exact .inl ⟨hout, hnil⟩
  · rcases h with ⟨hrest, -⟩ | ⟨⟨⟨l₀, hl, hfilled, hsent⟩, haccounted, hflush⟩, hsize⟩
    · cases hrest.futures.symm.trans hfutures
    · rw [hfutures] at haccounted
      refine .inr ⟨_, hout, rfl, rfl, .inr ⟨⟨⟨l₀, hl, hfilled, ?_⟩, haccounted.collect, hflush⟩, hsize⟩⟩
      simp only [setView]
      split_ifs <;> exact hsent

theorem flushFull_batches (h : batchAssertion it i₀ o w schema l (.body 1) r s) :
    (flushFull s).Establishes
      (fun pos s' => batchAssertion it i₀ o w schema (l ++ flushedBatch (.body 1) s') pos r s')
      (.body 1) (.body 2) s := by
  obtain ⟨hround, hrest, hle⟩ := h
  refine ⟨hround, hrest.flush _ (fun hsmall => ?_) fun hlarge => ?_⟩
  · simpa [setView] using hsmall
  · exact Nat.le_antisymm hle (by simpa [setView] using hlarge)

theorem flushRest_batches (h : batchAssertion it i₀ o w schema l (.post 0) r s) :
    (flushRest s).Establishes
      (fun pos s' => batchAssertion it i₀ o w schema (l ++ flushedBatch (.post 0) s') pos r s')
      (.post 0) (.post 1) s := by
  obtain ⟨hended, hrest, hlt⟩ := h
  refine ⟨hended, hrest.flush _ (fun hempty => ?_) fun hrests => ⟨?_, hlt⟩⟩
  · simpa [setView] using hempty
  · exact List.length_pos_iff.mpr (by simpa [setView] using hrests)

omit [JsonWriter] in
/-- A key that is looked up in vain is that of an item. -/
theorem failed_of_lookup {k : ℕ} {e : Crash} (hitem : ∃ i, it.item i₀ k = .ok i ∧ it.done i = false)
    (hlt : k < r) (he : o.getCollection (itemKey it i₀ k) = .error e) : Failed it i₀ o r e := by
  obtain ⟨i, hi, hmore⟩ := hitem
  rw [itemKey, hi] at he
  exact .inr ⟨k, hlt, i, hi, hmore, he⟩

theorem roundSend_batches (h : batchAssertion it i₀ o w schema l (.body 2) r s) :
    (flushSend o w s).Establishes (batchAssertion it i₀ o w schema l · r) (.body 2) (.body 3) s := by
  obtain ⟨hround, h⟩ := h
  rcases flushSend_batches h with ⟨hout, hbehind⟩ | ⟨e, hout, k, hk, he⟩ | ⟨s', hout, hiter, hii, hbefore⟩ <;>
    rw [hout]
  · exact ⟨hround, hbehind⟩
  · -- the items of the batch are those up to that of the round
    obtain ⟨k', rfl, -, hw, hmore⟩ := hround
    refine .inl (failed_of_lookup ?_ hk he)
    rcases Nat.lt_succ_iff_lt_or_eq.mp hk with hlt | rfl
    · exact hw.passed k hlt
    · exact ⟨_, hw.item, hmore⟩
  · exact ⟨hiter ▸ hii ▸ hround, hbefore⟩

theorem restSend_batches (h : batchAssertion it i₀ o w schema l (.post 1) r s) :
    (flushSend o w s).Establishes (batchAssertion it i₀ o w schema l · r) (.post 1) (.post 2) s := by
  obtain ⟨hended, h⟩ := h
  rcases flushSend_batches h with ⟨hout, hbehind⟩ | ⟨e, hout, k, hk, he⟩ | ⟨s', hout, hiter, -, hbefore⟩ <;>
    rw [hout]
  · exact ⟨hended, hbehind⟩
  · exact .inl (failed_of_lookup (hended.1.passed k hk) hk he)
  · exact ⟨hiter ▸ hended, hbefore⟩

theorem roundCollect_batches (h : batchAssertion it i₀ o w schema l (.body 3) r s) :
    (flushCollect w s).Establishes (batchAssertion it i₀ o w schema l · r) (.body 3) (.body 4) s := by
  obtain ⟨hround, h⟩ := h
  rcases flushCollect_batches h with ⟨hout, hnil⟩ | ⟨s', hout, hiter, hii, hbehind⟩ <;> rw [hout]
  · exact ⟨hround, h, hnil⟩
  · exact ⟨hiter ▸ hii ▸ hround, hbehind⟩

theorem restCollect_batches (h : batchAssertion it i₀ o w schema l (.post 2) r s) :
    (flushCollect w s).Establishes (batchAssertion it i₀ o w schema l · r) (.post 2) (.post 3) s := by
  obtain ⟨hended, h⟩ := h
  rcases flushCollect_batches h with ⟨hout, hnil⟩ | ⟨s', hout, hiter, -, hbehind⟩ <;> rw [hout]
  · exact ⟨hended, h, hnil⟩
  · exact ⟨hiter ▸ hended, hbehind⟩

theorem flushClear_batches (h : batchAssertion it i₀ o w schema l (.body 4) r s) :
    (flushClear s).Establishes (batchAssertion it i₀ o w schema l · r) (.body 4) (.body 5) s := by
  obtain ⟨hround, ⟨hrest, hlt⟩ | ⟨⟨⟨l₀, hl, hfilled, hsent⟩, haccounted, hflush⟩, hsize⟩, hnil⟩ := h
  · rw [flushClear, if_neg (by rw [hrest.flushing]; decide)]
    exact ⟨hround, hrest, hlt⟩
  · rw [flushClear, if_pos hflush]
    rw [hnil] at haccounted
    refine ⟨hround, ⟨hl ▸ hfilled.clear hsize, haccounted, ?_, hnil, rfl⟩, by simp [setView]⟩
    rw [hl, List.flatten_append, List.flatten_singleton, List.length_append]
    exact hsent

theorem advanceIter_batches (h : batchAssertion it i₀ o w schema l (.body 5) r s) :
    (advanceIter it s).Establishes (batchAssertion it i₀ o w schema l · r) (.body 5) (.body 6) s := by
  obtain ⟨⟨k, rfl, hii, hw, hmore⟩, hrest, hlt⟩ := h
  rcases advanceIter_outcome it s with ⟨i, hi, hout⟩ | ⟨e, he, hout⟩ <;> rw [hout]
  · exact ⟨hw.succ hmore hi, congrArg (· + 1) hii,
      ⟨hrest.filled, hrest.accounted, hrest.sent, hrest.futures, hrest.flushing⟩, hlt⟩
  · exact .inl (.inl ⟨k + 1, le_rfl, by simp only [IterOps.item, hw.item, he]⟩)

/-- Another step that gives nothing to `flushValues`. -/
theorem establishes_batches {here there : Pos Crash} {a : OpAction (DsLocal ι ViewVars)}
    (hsilent : ∀ s' : OpState (DsLocal ι ViewVars), flushedBatch here s' = [])
    (h : (a s).Establishes (batchAssertion it i₀ o w schema l · r) here there s) :
    (a s).Establishes (fun pos s' => batchAssertion it i₀ o w schema (l ++ flushedBatch here s') pos r s')
      here there s :=
  Ctl.Establishes.of_silent (A := fun l pos => batchAssertion it i₀ o w schema l pos r) hsilent h

theorem Resting.cancel (h : Resting it i₀ o w schema l m s) :
    Resting it i₀ o w schema l m (cancelCurrent s) :=
  ⟨h.filled, h.accounted, h.sent, h.futures, h.flushing⟩

theorem Flushing.cancel {c : ℕ} (h : Flushing it i₀ o w schema c l m s) :
    Flushing it i₀ o w schema c l m (cancelCurrent s) :=
  ⟨h.split, h.accounted, h.flushing⟩

theorem BeforeSend.cancel {rest full : ℕ → Prop} (h : BeforeSend it i₀ o w schema rest full l m s) :
    BeforeSend it i₀ o w schema rest full l m (cancelCurrent s) :=
  h.imp (.imp_left Resting.cancel) (.imp_left Flushing.cancel)

theorem BehindSend.cancel {rest full : ℕ → Prop} (h : BehindSend it i₀ o w schema rest full l m s) :
    BehindSend it i₀ o w schema rest full l m (cancelCurrent s) :=
  h.imp (.imp_left Resting.cancel) (.imp_left Flushing.cancel)

/-- The control thread leaves every assertion true. -/
theorem batchAssertion_cancel {pos : Pos Crash} (h : batchAssertion it i₀ o w schema l pos r s) :
    batchAssertion it i₀ o w schema l pos r (cancelCurrent s) := by
  match pos, h with
  | .pre 0, h => exact h
  | .pre 1, ⟨hr, hiter, hii, hrest, hlt⟩ | .pre 2, ⟨hr, hiter, hii, hrest, hlt⟩ =>
    exact ⟨hr, hiter, hii, hrest.cancel, hlt⟩
  | .pre (k + 3), ⟨hw, hii, hrest, hlt⟩ | .test, ⟨hw, hii, hrest, hlt⟩ |
    .body (k + 7), ⟨hw, hii, hrest, hlt⟩ | .body 6, ⟨hw, hii, hrest, hlt⟩ =>
    exact ⟨hw, hii, hrest.cancel, hlt⟩
  | .body 0, ⟨hround, k, hk, hrest, hlt⟩ => exact ⟨hround, k, hk, hrest.cancel, hlt⟩
  | .body 1, ⟨hround, hrest, hle⟩ => exact ⟨hround, hrest.cancel, hle⟩
  | .body 2, ⟨hround, h⟩ => exact ⟨hround, h.cancel⟩
  | .body 3, ⟨hround, h⟩ => exact ⟨hround, h.cancel⟩
  | .body 4, ⟨hround, h, hnil⟩ => exact ⟨hround, h.cancel, hnil⟩
  | .body 5, ⟨hround, hrest, hlt⟩ => exact ⟨hround, hrest.cancel, hlt⟩
  | .post 0, ⟨hended, hrest, hlt⟩ => exact ⟨hended, hrest.cancel, hlt⟩
  | .post 1, ⟨hended, h⟩ => exact ⟨hended, h.cancel⟩
  | .post 2, ⟨hended, h⟩ => exact ⟨hended, h.cancel⟩
  | .post (k + 3), ⟨hended, h, hnil⟩ | .done, ⟨hended, h, hnil⟩ => exact ⟨hended, h.cancel, hnil⟩
  | .dead e, h => exact h

/-- The assertions form an outline with a log of the view loader. -/
theorem viewLoader_batches {options : ResultOptions} :
    (viewLoader it o w options).LogOutline cancelCurrent flushedBatch
      (batchAssertion it i₀ o w schema) where
  silent := by
    intro pos s hnone
    match pos, hnone with
    | .body 1, hnone | .post 0, hnone => cases hnone
    | .pre _, _ | .test, _ | .done, _ | .dead _, _ | .body 0, _ | .body (k + 2), _ | .post (k + 1), _ => rfl
  action := by
    intro l here there a r s ha h
    match here, h with
    | .pre 0, h =>
      cases ha
      exact establishes_batches (fun _ => rfl) (enter_batches h)
    | .pre 1, ⟨hr, hiter, hii, hrest, hlt⟩ =>
      cases ha
      exact establishes_batches (fun _ => rfl) ⟨hr, hiter, hii,
        ⟨hrest.filled, hrest.accounted, hrest.sent, hrest.futures, hrest.flushing⟩, hlt⟩
    | .pre 2, h =>
      cases ha
      exact establishes_batches (fun _ => rfl) (startIter_batches h)
    | .body 0, h =>
      cases ha
      exact establishes_batches (fun _ => rfl) (addValue_batches h)
    | .body 1, h =>
      cases ha
      exact flushFull_batches h
    | .body 2, h =>
      cases ha
      exact establishes_batches (fun _ => rfl) (roundSend_batches h)
    | .body 3, h =>
      cases ha
      exact establishes_batches (fun _ => rfl) (roundCollect_batches h)
    | .body 4, h =>
      cases ha
      exact establishes_batches (fun _ => rfl) (flushClear_batches h)
    | .body 5, h =>
      cases ha
      exact establishes_batches (fun _ => rfl) (advanceIter_batches h)
    | .body 6, ⟨hw, hii, hrest, hlt⟩ =>
      cases ha
      exact establishes_batches (fun _ => rfl) ⟨hw, hii,
        ⟨hrest.filled, hrest.accounted, hrest.sent, hrest.futures, hrest.flushing⟩, hlt⟩
    | .post 0, h =>
      cases ha
      exact flushRest_batches h
    | .post 1, h =>
      cases ha
      exact establishes_batches (fun _ => rfl) (restSend_batches h)
    | .post 2, h =>
      cases ha
      exact establishes_batches (fun _ => rfl) (restCollect_batches h)
    | .pre (k + 3), h | .body (k + 7), h | .post (k + 3), h | .test, h | .done, h | .dead e, h =>
      cases ha
  pre_end := by
    intro l k r s hk h
    obtain ⟨j, rfl⟩ := Nat.exists_eq_add_of_le' (show 3 ≤ k from hk)
    exact h
  enter := by
    rintro l r s htest ⟨hw, hii, hrest, hlt⟩
    exact ⟨⟨r, rfl, hii, hw, by simpa [viewLoader] using htest⟩, r, rfl, hrest, hlt⟩
  leave := by
    rintro l r s htest ⟨hw, -, hrest⟩
    exact ⟨⟨hw, by simpa [viewLoader] using htest⟩, hrest⟩
  body_end := by
    intro l k r s hk h
    obtain ⟨j, rfl⟩ := Nat.exists_eq_add_of_le' (show 7 ≤ k from hk)
    exact h
  post_end := by
    intro l k r s hk h
    obtain ⟨j, rfl⟩ := Nat.exists_eq_add_of_le' (show 3 ≤ k from hk)
    exact h
  stable := fun _ _ _ _ h => batchAssertion_cancel h

end Outline

end Sdkd
