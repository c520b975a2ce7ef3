import Sdkd.CollectionLookups
import Sdkd.Loads
import Sdkd.ViewBatches

/-!
# Exact view loads

A load is exact if every item is in the batches once, has been sent once, and its failure has been counted once.

## Main definitions

- `BatchedExactly` — what that means for given entries
- `viewLoad`, `viewBatches` — a load and its batches
- `LoadsExactly` — the load comes to its end, and the entries are those of the items

## Main results

- `viewLoad_exact_iff` — when a load is exact
-/

namespace Sdkd

open LoopProg

/-! ## Exact loads -/

/-- No text is that of `2 ^ 31` failures or more among the first `n` outcomes. -/
def FewFailures (w : World) (n : ℕ) : Prop :=
  ∀ text, ((failures w n).map ErrorCode.text).count text < 2 ^ 31

theorem length_failures_le (w : World) (n : ℕ) : (failures w n).length ≤ n :=
  (List.length_filter_le _ _).trans (by simp)

theorem FewFailures.of_lt {w : World} {n : ℕ} (h : n < 2 ^ 31) : FewFailures w n := by
  intro text
  have hle := length_failures_le w n
  exact List.count_le_length.trans_lt (by rw [List.length_map]; omega)

/-- Of `n` entries every one is in the batches once and in order, is sent once, and its failure counts once, on
the counters `κ`. A full batch has `VIEWLOAD_BATCH_COUNT` entries, which is 1000. -/
structure BatchedExactly (κ : Histogram.Counter ℤ) (o : HandleOptions) (w : World)
    (E : ℕ → String × String) (n : ℕ) (batches : List (List (String × String))) (ses : Session) : Prop where
  entries : batches.flatten = (List.range n).map E
  bounded : ∀ b ∈ batches, b.length ≤ 1000
  full : ∀ b ∈ batches.dropLast, b.length = 1000
  sent : Logs (fun k r => Upserts o (E k) r) n ses.sent
  counted : Histogram.Counts κ ses.rs.stats ((failures w n).map ErrorCode.text)

section BatchedExactly

variable {κ κ' : Histogram.Counter ℤ} {o : HandleOptions} {w : World} {E E' : ℕ → String × String} {n : ℕ}
  {batches : List (List (String × String))} {ses : Session}

theorem BatchedExactly.congr (h : BatchedExactly κ o w E n batches ses) (hE : ∀ k < n, E k = E' k) :
    BatchedExactly κ o w E' n batches ses where
  entries := h.entries.trans (List.map_congr_left fun k hk => hE k (List.mem_range.mp hk))
  bounded := h.bounded
  full := h.full
  sent := h.sent.imp fun k hk _ hr => hE k hk ▸ hr
  counted := h.counted

/-- Short of `2 ^ 31` failures with one text they are counted exactly. -/
theorem BatchedExactly.exact (h : BatchedExactly intCounter o w E n batches ses)
    (hfew : FewFailures w n) : BatchedExactly (.exact ℤ) o w E n batches ses where
  entries := h.entries
  bounded := h.bounded
  full := h.full
  sent := h.sent
  counted := counts_exact h.counted hfew

/-- The batches determine the entries. -/
theorem BatchedExactly.unique {ses' : Session} (h : BatchedExactly κ o w E n batches ses)
    (h' : BatchedExactly κ' o w E' n batches ses') : ∀ k < n, E k = E' k := fun k hk =>
  List.map_inj_left.mp (h.entries.symm.trans h'.entries) k (List.mem_range.mpr hk)

/-- Every entry has a collection. -/
theorem BatchedExactly.getCollection (h : BatchedExactly κ o w E n batches ses) :
    ∀ k < n, ∃ c, o.getCollection (E k).1 = .ok c := by
  intro k hk
  have hlt : k < ses.sent.length := by rwa [h.sent.length]
  obtain ⟨c, hc, -⟩ := h.sent.each k _ (List.getElem?_eq_getElem hlt)
  exact ⟨c, hc⟩

end BatchedExactly

section Returned

variable [JsonWriter] {ι : Type*} {it : IterOps ι} {i₀ : ι} {o : HandleOptions} {w : World} {schema : Json}
  {r : ℕ} {l : List (List (String × String))} {s : OpState (DsLocal ι ViewVars)}

/-- The failures of a load that has come to its end are recorded, and its schema has been assigned to. -/
theorem recorded_of_done (h : batchAssertion it i₀ o w schema l .done r s) :
    FailuresRecorded w [] s.ses.rs s.ses.sent ∧ (0 < r → Assignable schema) := by
  obtain ⟨-, ⟨hrest, -⟩ | ⟨⟨⟨l₀, -, hfilled, -⟩, haccounted, -⟩, -⟩, hnil⟩ := h
  · exact ⟨hrest.accounted, hrest.filled.assignable⟩
  · exact ⟨hnil ▸ haccounted, hfilled.assignable⟩

/-- What is left behind the last item is a full load. -/
theorem batchedExactly_of_done (h : batchAssertion it i₀ o w schema l .done r s) :
    BatchedExactly intCounter o w (viewEntry it i₀ schema) r l s.ses := by
  obtain ⟨hrecorded, -⟩ := recorded_of_done h
  obtain ⟨-, hbehind, -⟩ := h
  have hcounted : s.ses.sent.length = r →
      Histogram.Counts intCounter s.ses.rs.stats ((failures w r).map ErrorCode.text) := by
    rintro rfl
    rw [← hrecorded.recorded, List.filter_nil, List.append_nil]
    exact hrecorded.stats
  rcases hbehind with ⟨hrest, hempty⟩ | ⟨⟨⟨l₀, hl, hfilled, hsent⟩, -, -⟩, hpos, hlt⟩
  · have hvalues : s.loc.extra.values = [] := List.length_eq_zero_iff.mp hempty
    have hfilled := hrest.filled
    rw [hvalues] at hfilled
    have hlen := hfilled.length_eq
    rw [List.length_nil, Nat.add_zero] at hlen
    exact {
      entries := (List.append_nil _).symm.trans hfilled.entries
      bounded := fun b hb => (hfilled.full b hb).le
      full := fun b hb => hfilled.full b (List.mem_of_mem_dropLast hb)
      sent := hlen ▸ hrest.sent
      counted := hcounted (hrest.sent.length.trans hlen) }
  · rw [hfilled.length_eq] at hsent
    subst hl
    exact {
      entries := by rw [List.flatten_append, List.flatten_singleton, hfilled.entries]
      bounded := List.forall_mem_append.mpr
        ⟨fun b hb => (hfilled.full b hb).le, List.forall_mem_singleton.mpr hlt.le⟩
      full := by
        rw [List.dropLast_concat]
        exact hfilled.full
      sent := hsent
      counted := hcounted hsent.length }

end Returned

/-! ## When a load is exact -/

/-- The key has a collection: where there are collections to choose from, a number can be read from it. -/
def HasCollection (o : HandleOptions) (key : String) : Prop :=
  o.useCollections = true → key ≠ "" → Numbered key ∧ o.collections * o.scopes % 2 ^ 64 ≠ 0

theorem hasCollection_iff {o : HandleOptions} {key : String} :
    HasCollection o key ↔ ∃ c, o.getCollection key = .ok c := by
  unfold HasCollection
  by_cases hdefault : o.useCollections = true ∧ key ≠ ""
  · obtain ⟨huse, hkey⟩ := hdefault
    by_cases htotal : o.collections * o.scopes % 2 ^ 64 = 0
    · refine iff_of_false (fun h => (h huse hkey).2 htotal) ?_
      rintro ⟨c, hc⟩
      unfold HandleOptions.getCollection at hc
      rw [if_pos ⟨huse, hkey⟩] at hc
      split at hc
      · cases hc
      · rw [if_pos htotal] at hc
        cases hc
    · rw [getCollection_ok_iff huse htotal, Lookable, or_iff_right hkey]
      exact ⟨fun h => (h huse hkey).1, fun h _ _ => ⟨h, htotal⟩⟩
  · refine iff_of_true (fun huse hkey => absurd ⟨huse, hkey⟩ hdefault) ⟨_, if_neg hdefault⟩

/-- The `int` the items are numbered with holds the numbers below `2 ^ 31`. -/
theorem toInt_natCast_eq_iff (k : ℕ) : toInt k = k ↔ k < 2 ^ 31 := by
  have hhi := Int.bmod_lt (x := (k : ℤ)) (m := 2 ^ 32) (by decide)
  refine ⟨fun heq => ?_, fun hlt => toInt_of_bounds (by omega) (by omega)⟩
  unfold toInt at heq
  omega

section Loads

/-- Different numbers are written differently. -/
def WritesNumbers [JsonWriter] : Prop := ∀ (doc : Json) (name : String) (i j : ℤ),
  JsonWriter.write (doc.set name (.int i)) = JsonWriter.write (doc.set name (.int j)) → i = j

variable [JsonAccess] [JsonWriter] (h : Handle) (w : World) (ds : Dataset) (schema : Json)
  (opts : ResultOptions) (sched : ℕ → Bool)

/-- Where a load starts. -/
def viewStart : Config (OpState (DsLocal DatasetIterator ViewVars)) Crash :=
  .start ⟨h.session .new, ⟨Dataset.newIterator, ("", ""), .start schema⟩⟩

/-- The load behind `m` steps. -/
def viewLoad (m : ℕ) : Config (OpState (DsLocal DatasetIterator ViewVars)) Crash :=
  (viewLoader ds.getIter h.options w opts).run cancelCurrent sched (viewStart h schema) m

/-- The batches it has given to `flushValues`. -/
def viewBatches (m : ℕ) : List (List (String × String)) :=
  (viewLoader ds.getIter h.options w opts).shown cancelCurrent flushedBatch sched (viewStart h schema) m

/-- The key of an item, and the schema with its key and its number. -/
def numberedEntry (k : ℕ) : String × String :=
  let key := itemKey ds.getIter Dataset.newIterator k
  (key, JsonWriter.write ((schema.set "KIdent" (.string key)).set "KVSequence" (.int k)))

/-- The load of `n` items comes to its end, and it is exact: the entries are those of `numberedEntry`. -/
def LoadsExactly (n : ℕ) : Prop :=
  ∃ m, (viewLoad h w ds schema opts sched m).pos = .done ∧
    BatchedExactly (.exact ℤ) h.options w (numberedEntry ds schema) n (viewBatches h w ds schema opts sched m)
      (viewLoad h w ds schema opts sched m).st.ses

variable {n : ℕ}

/-- Wherever a load stands. -/
theorem viewLoad_batches (m : ℕ) :
    batchAssertion ds.getIter Dataset.newIterator h.options w schema
      (viewBatches h w ds schema opts sched m) (viewLoad h w ds schema opts sched m).pos
      (viewLoad h w ds schema opts sched m).rounds (viewLoad h w ds schema opts sched m).st :=
  viewLoader_batches.sound sched (c := viewStart h schema) ⟨rfl, rfl, rfl, rfl, rfl⟩ m

/-- On a dataset with an end every schedule brings a load to its end, if members can be assigned to its schema
and its items have collections. -/
theorem viewLoad_ends (hn : HasItems ds.getIter Dataset.newIterator n) (hschema : 0 < n → Assignable schema)
    (hlook : ∀ k < n, HasCollection h.options (itemKey ds.getIter Dataset.newIterator k)) :
    ∃ m, (viewLoad h w ds schema opts sched m).pos = .done := by
  have hA : (viewLoader ds.getIter h.options w opts).Outline cancelCurrent
    (viewAssertion ds.getIter Dataset.newIterator) := viewLoader_outline
  have hN : ∀ r (s : OpState (DsLocal DatasetIterator ViewVars)), r ≤ n →
      viewAssertion ds.getIter Dataset.newIterator .test r s →
      (viewLoader ds.getIter h.options w opts).test s = true → r < n :=
    fun r s _ hgathered htest => hn.lt_of_walked hgathered.2 (by simpa [viewLoader] using htest)
  obtain ⟨m, hhalted, -, hrounds⟩ := hA.halts hN viewMeasure viewMeasure_cancel
    (fun _ _ _ s ha => viewLoader_progress s ha) sched (c := viewStart h schema)
    ⟨rfl, rfl, rfl, rfl, rfl⟩ (Nat.zero_le n)
  change (viewLoad h w ds schema opts sched m).halted at hhalted
  change (viewLoad h w ds schema opts sched m).rounds ≤ n at hrounds
  refine ⟨m, ?_⟩
  unfold Config.halted at hhalted
  split at hhalted
  · assumption
  · next e hdead =>
    have hbatches := viewLoad_batches h w ds schema opts sched m
    rw [hdead] at hbatches
    rcases hbatches with (⟨k, hk, hfail⟩ | ⟨k, hk, i, hi, -, hfail⟩) | ⟨hpos, hbad⟩
    · obtain ⟨i, hi⟩ := hn.items k (hk.trans hrounds)
      cases hi.symm.trans hfail
    · obtain ⟨c, hc⟩ := hasCollection_iff.mp (hlook k (hk.trans_le hrounds))
      rw [itemKey, hi] at hc
      cases hc.symm.trans hfail
    · exact absurd (hschema (hpos.trans_le hrounds)) hbad
  · exact hhalted.elim

variable {h w ds schema opts sched}

theorem LoadsExactly.hasCollection (hload : LoadsExactly h w ds schema opts sched n) :
    ∀ k < n, HasCollection h.options (itemKey ds.getIter Dataset.newIterator k) := by
  obtain ⟨m, -, hexact⟩ := hload
  exact fun k hk => hasCollection_iff.mpr (hexact.getCollection k hk)

/-- **View loads.** On a dataset of `n` items a load is exact if and only if members can be assigned to its
schema, every key has a collection, an `int` can number the items, and an `int` can count the failures. -/
theorem viewLoad_exact_iff (hn : HasItems ds.getIter Dataset.newIterator n) (hwrite : WritesNumbers) :
    LoadsExactly h w ds schema opts sched n ↔
      (0 < n → Assignable schema) ∧
      (∀ k < n, HasCollection h.options (itemKey ds.getIter Dataset.newIterator k)) ∧ n ≤ 2 ^ 31 ∧
      FewFailures w n := by
  constructor
  · intro hload
    have hcollection := hload.hasCollection
    obtain ⟨m, hdone, hexact⟩ := hload
    have hbatches := viewLoad_batches h w ds schema opts sched m
    rw [hdone] at hbatches
    have hreal := batchedExactly_of_done hbatches
    have hassignable := (recorded_of_done hbatches).2
    rw [hn.of_walked hbatches.1.1 hbatches.1.2] at hreal hassignable
    refine ⟨hassignable, hcollection, ?_, fun text => ?_⟩
    · by_contra hlarge
      -- the entry with number 2 ^ 31 is written with another one
      have hentry := hreal.unique hexact (2 ^ 31) (by omega)
      have hnumber := (toInt_natCast_eq_iff _).mp (hwrite _ _ _ _ (Prod.mk.inj hentry).2)
      omega
    · -- one number is both what the counter reads and what it should
      rw [← toInt_natCast_eq_iff, ← getD_of_counts hreal.counted]
      exact hexact.counted.getD_eq text
  · rintro ⟨hschema, hlook, hle, hfew⟩
    obtain ⟨m, hdone⟩ := viewLoad_ends h w ds schema opts sched hn hschema hlook
    have hbatches := viewLoad_batches h w ds schema opts sched m
    rw [hdone] at hbatches
    have hreal := batchedExactly_of_done hbatches
    rw [hn.of_walked hbatches.1.1 hbatches.1.2] at hreal
    refine ⟨m, hdone, (hreal.exact hfew).congr fun k hk => ?_⟩
    rw [viewEntry, numberedSchema, (toInt_natCast_eq_iff k).mpr (by omega)]
    rfl

end Loads

section Examples

/-- The member set last is rendered last. -/
theorem renderMembers_snoc (name : String) (ms : List (String × Json)) :
    ∃ front, ∀ v, Json.renderMembers (ms ++ [(name, v)]) = front ++ Json.render v := by
  induction ms with
  | nil =>
    refine ⟨'"' :: Json.escape name ++ ['"', ':'], fun v => ?_⟩
    simp [Json.renderMembers]
  | cons m ms ih =>
    obtain ⟨front, hfront⟩ := ih
    obtain ⟨key, x⟩ := m
    refine ⟨'"' :: Json.escape key ++ '"' :: ':' :: (Json.render x ++ ',' :: front), fun v => ?_⟩
    obtain ⟨m', ms', hcons⟩ : ∃ m' ms', ms ++ [(name, v)] = m' :: ms' :=
      List.exists_cons_of_ne_nil (by simp)
    rw [List.cons_append, hcons, Json.renderMembers, ← hcons, hfront]
    simp

theorem render_set (doc : Json) (name : String) :
    ∃ front, ∀ v, Json.render (doc.set name v) = front ++ Json.render v ++ ['\x7d'] := by
  have hmembers : ∀ ms : List (String × Json), ∃ front, ∀ v,
      Json.render (.object (ms ++ [(name, v)])) = front ++ Json.render v ++ ['\x7d'] := by
    intro ms
    obtain ⟨front, hfront⟩ := renderMembers_snoc name ms
    exact ⟨'\x7b' :: front, fun v => by rw [Json.render, hfront]; rfl⟩
  cases doc with
  | object ms => exact hmembers _
  | _ => exact hmembers []

theorem compact_writesNumbers : @WritesNumbers JsonWriter.compact := by
  intro doc name i j heq
  obtain ⟨front, hfront⟩ := render_set doc name
  have hline : ∀ i : ℤ, (toString i).toList.filter (· ≠ '\n') = (toString i).toList := by
    intro i
    refine List.filter_eq_self.mpr fun c hc => ?_
    rcases Words.toString_int_chars i c hc with rfl | hdigit
    · decide
    · simp only [ne_eq, decide_eq_true_eq]
      rintro rfl
      cases hdigit
  have hbody := String.ofList_injective heq
  simp only [hfront, Json.render, List.filter_append, hline, List.append_assoc,
    List.append_cancel_left_eq, List.append_cancel_right_eq] at hbody
  exact Words.toString_int_injective hbody

/-- The keys of a full-text dataset are its indices. -/
theorem fts_itemKey [JsonAccess] [JsonWriter] {n k : ℕ} (hk : k < 2 ^ 32) :
    itemKey (Dataset.mk .success (.fts n)).getIter Dataset.newIterator k = toString (toInt k) := by
  obtain ⟨i, hi, -, hsought⟩ := @Dataset.exists_item _ _ ⟨.success, .fts n⟩ k
    (fun k' _ => ⟨fun _ hno => (by cases hno), fun _ hno => (by cases hno)⟩) (fun _ hno => by cases hno) hk
  rw [itemKey, hi]
  exact hsought.key

/-- A full batch and an item more, which the cluster refuses. -/
theorem twoBatches_load_exactly :
    letI := JsonAccess.plain
    letI := JsonWriter.compact
    let w : World := { exampleWorld with
      outcome := fun k => if k = 1000 then ⟨1, "refused"⟩ else .success }
    failures w 1001 = [⟨1, "refused"⟩] ∧
    LoadsExactly manyHandle w ⟨.success, .fts 1001⟩ .null .default (fun _ => false) 1001 := by
  let := JsonAccess.plain
  let := JsonWriter.compact
  refine ⟨by decide +kernel,
    (viewLoad_exact_iff (Dataset.fts_hasItems (by decide)) compact_writesNumbers).mpr
      ⟨fun _ => rfl, fun k hk => ?_, by decide, .of_lt (by decide)⟩⟩
  rw [hasCollection_iff, getCollection_ok_iff rfl (by decide), fts_itemKey (by omega)]
  exact lookable_index k

/-- One item, whose key has no number: the daemon dies when the batch is flushed. -/
theorem wordKey_not_loaded :
    letI := JsonAccess.plain
    letI := JsonWriter.compact
    let ds : Dataset := ⟨.success, .inline (.array [.string "abc"])⟩
    HasItems ds.getIter Dataset.newIterator 1 ∧
    ¬ LoadsExactly manyHandle exampleWorld ds (.object []) .default (fun _ => false) 1 := by
  let := JsonAccess.plain
  let := JsonWriter.compact
  intro ds
  have hfirst : ds.getIter.item Dataset.newIterator 0 = .ok ⟨0, "abc", "", "", ""⟩ := by decide +kernel
  have hend : ds.getIter.item Dataset.newIterator 1 = .ok ⟨1, "", "", "", ""⟩ := by decide +kernel
  refine ⟨⟨fun k hk => ?_, fun k hk i hi => ?_, fun i hi => ?_⟩, fun hload => ?_⟩
  · match k, hk with
    | 0, _ => exact ⟨_, hfirst⟩
    | 1, _ => exact ⟨_, hend⟩
  · obtain rfl : k = 0 := Nat.lt_one_iff.mp hk
    obtain rfl := Except.ok.inj (hfirst.symm.trans hi)
    decide +kernel
  · obtain rfl := Except.ok.inj (hend.symm.trans hi)
    decide +kernel
  · have herror : manyHandle.options.getCollection "abc" = .error .uncaughtException := by decide
    obtain ⟨c, hc⟩ := hasCollection_iff.mp (hload.hasCollection 0 Nat.one_pos)
    rw [itemKey, hfirst] at hc
    cases herror.symm.trans hc

end Examples

end Sdkd
