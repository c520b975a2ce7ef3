import Sdkd.Lib.Cycles
import Sdkd.Lib.Words
import Sdkd.Operation
import Sdkd.RequestLog

/-!
# The terms searched for

The full-text and the analytics operation ask for the documents their loaders store, one after the other and
again from the first one. The number of the next document is moved on before a search and behind an analytics
query.

## Main definitions

- `documentTerms` — the terms a document of the loaders can be found by
- `Covers` — each term is asked for once

## Main results

- `searches_cover` — every stretch of requests as long as a pass covers the terms of the documents
-/

namespace Sdkd

open LoopProg

/-! ## Terms -/

/-- The terms the document of an index can be found by. -/
def documentTerms (i : ℤ) : List Json :=
  [(Dataset.sampleDoc i).get "value", ((Dataset.sampleDoc i).get "SubFields").get "subvalue"]

/-- Each of the terms stored is asked for once. -/
def Covers (asked : List String) (stored : List Json) : Prop :=
  (asked.map Json.string).Perm stored ∧ stored.Nodup

/-- The analytics query for a value. -/
def analyticsRequest (o : HandleOptions) (value : String) : ClusterRequest :=
  .analytics o.bucket
    (if o.useCollections then "SELECT * FROM `0` where `0`.`value` = '" ++ value ++ "'"
      else "SELECT * FROM defaultDataSet where `value` = '" ++ value ++ "'")
    (if o.useCollections then some "0" else none)

section Terms

variable {n i j k : ℕ}

theorem searchField_even (i : ℕ) :
    searchField ((2 * i : ℕ) : ℤ) = "SampleValue" ++ toString (i : ℤ) := by
  have hmod : ((2 * i : ℕ) : ℤ).tmod 2 = 0 := by
    rw [Int.tmod_eq_emod_of_nonneg (by omega)]
    omega
  have hdiv : ((2 * i : ℕ) : ℤ).tdiv 2 = i := by
    rw [Int.natCast_tdiv_eq_ediv]
    omega
  rw [searchField, if_pos hmod, hdiv]

theorem searchField_odd (i : ℕ) :
    searchField ((2 * i + 1 : ℕ) : ℤ) = "SampleSubvalue" ++ toString (i : ℤ) := by
  have hmod : ((2 * i + 1 : ℕ) : ℤ).tmod 2 ≠ 0 := by
    rw [Int.tmod_eq_emod_of_nonneg (by omega)]
    omega
  have hdiv : ((2 * i + 1 : ℕ) : ℤ).tdiv 2 = i := by
    rw [Int.natCast_tdiv_eq_ediv]
    omega
  rw [searchField, if_neg hmod, hdiv]

/-- A document is found by two numbers in a row. -/
theorem documentTerms_eq (i : ℕ) : documentTerms i =
    [.string (searchField ((2 * i : ℕ) : ℤ)), .string (searchField ((2 * i + 1 : ℕ) : ℤ))] := by
  rw [searchField_even, searchField_odd]
  rfl

theorem flatMap_documentTerms (n : ℕ) : (List.range n).flatMap (fun i : ℕ => documentTerms i) =
    ((List.range (2 * n)).map fun g : ℕ => searchField g).map Json.string := by
  rw [List.map_map, Cycles.map_range_two_mul]
  refine List.flatMap_congr fun i _ => ?_
  rw [documentTerms_eq]
  rfl

theorem toString_int_inj (h : toString (i : ℤ) = toString (j : ℤ)) : i = j :=
  Words.toString_inj (congrArg String.toList h)

/-- No two numbers have one term. -/
theorem searchField_inj {g g' : ℕ} (h : searchField g = searchField g') : g = g' := by
  have hparity : ∀ i j : ℕ, searchField ((2 * i : ℕ) : ℤ) ≠ searchField ((2 * j + 1 : ℕ) : ℤ) := by
    intro i j heq
    rw [searchField_even, searchField_odd] at heq
    have hchar := congrArg (fun s : String => s.toList[6]?) heq
    simp [String.toList_append] at hchar
  have hhalf : ∀ g : ℕ, ∃ i, g = 2 * i ∨ g = 2 * i + 1 := fun g => ⟨g / 2, by omega⟩
  obtain ⟨i, rfl | rfl⟩ := hhalf g <;> obtain ⟨j, rfl | rfl⟩ := hhalf g'
  · rw [searchField_even, searchField_even] at h
    rw [toString_int_inj (String.append_right_inj _ |>.mp h)]
  · exact absurd h (hparity i j)
  · exact absurd h.symm (hparity j i)
  · rw [searchField_odd, searchField_odd] at h
    rw [toString_int_inj (String.append_right_inj _ |>.mp h)]

/-- One number for each document is one request for its value. -/
theorem cbasStatement_request (o : HandleOptions) (i : ℕ) :
    ClusterRequest.analytics o.bucket (cbasStatement o i) (if o.useCollections then some "0" else none) =
      analyticsRequest o ("SampleValue" ++ toString (i : ℤ)) := by
  unfold analyticsRequest cbasStatement
  cases o.useCollections <;> simp [← String.toList_inj, String.toList_append]

end Terms

/-! ## Generators -/

section Generators

variable {n : ℕ}

theorem count_eq (hint : 2 * n < 2 ^ 31) : toUInt (n : ℤ) = n ∧ toInt (toUInt (n : ℤ)) = n := by
  have huint : toUInt (n : ℤ) = n := by
    unfold toUInt
    omega
  refine ⟨huint, ?_⟩
  rw [huint, toInt_of_bounds] <;> omega

/-- The next search is for the next term, behind the last one for the first. -/
theorem nextPreloaded_eq (hpos : 1 ≤ n) (hint : 2 * n < 2 ^ 31) (k : ℕ) :
    nextPreloaded n ((k % (2 * n) : ℕ) : ℤ) = .ok (((k + 1) % (2 * n) : ℕ) : ℤ) := by
  have hmodulus : toInt (2 * (n : ℤ)) = ((2 * n : ℕ) : ℤ) := by
    rw [toInt_of_bounds] <;> omega
  have hnext : ((k % (2 * n) : ℕ) : ℤ) + 1 = ((k % (2 * n) + 1 : ℕ) : ℤ) := rfl
  unfold nextPreloaded
  dsimp only
  rw [hmodulus, if_neg (by omega), hnext, toInt_natCast (by have := Nat.mod_lt k (show 0 < 2 * n by omega); omega),
    ← Int.ofNat_tmod, Nat.mod_add_mod]

theorem nextAnalytics_eq (hpos : 1 ≤ n) (hint : 2 * n < 2 ^ 31) (k : ℕ) :
    nextAnalytics n ((k % n : ℕ) : ℤ) = .ok (((k + 1) % n : ℕ) : ℤ) := by
  have hlt : k % n < n := Nat.mod_lt k hpos
  have hnext : toUInt (((k % n : ℕ) : ℤ) + 1) = k % n + 1 := by
    unfold toUInt
    omega
  have hlt' : (k % n + 1) % n < n := Nat.mod_lt _ hpos
  unfold nextAnalytics
  rw [if_neg (by omega), hnext, toInt_of_bounds (by omega) (by omega), Nat.mod_add_mod]

end Generators

/-! ## Runs -/

section Runs

variable [JsonAccess] {o : HandleOptions} {w : World} {req : Request} {n : ℕ}

/-- The analytics queries by number. -/
def kthQuery (o : HandleOptions) (n k : ℕ) : ClusterRequest :=
  analyticsRequest o ("SampleValue" ++ toString ((k % n : ℕ) : ℤ))

/-- What holds at a control position of an analytics run: between a query and the step of the number, one more
has been sent. -/
def cbasAssertion (o : HandleOptions) (n : ℕ) (pos : Pos Crash) (_ : ℕ) (s : OpState SearchVars) : Prop :=
  match pos with
  | .body 2 => ∃ k : ℕ, s.loc.generator = ((k % n : ℕ) : ℤ) ∧
      Logs (fun k r => r = kthQuery o n k) (k + 1) s.ses.sent
  | _ => ∃ k : ℕ, s.loc.generator = ((k % n : ℕ) : ℤ) ∧
      Logs (fun k r => r = kthQuery o n k) k s.ses.sent

omit [JsonAccess] in
theorem queryCBAS_queries {r : ℕ} {s : OpState SearchVars} (h : cbasAssertion o n (.body 1) r s) :
    (queryCBAS o w s).Establishes (cbasAssertion o n · r) (.body 1) (.body 2) s := by
  obtain ⟨k, hgenerator, hlog⟩ := h
  refine ⟨k, hgenerator, hlog.snoc ?_⟩
  rw [hgenerator]
  exact cbasStatement_request o (k % n)

theorem nextGenerator_steps (hpos : 1 ≤ n) (hint : 2 * n < 2 ^ 31)
    (hcount : asInt64 (req.payload.get "Count") = n) {r : ℕ} {s : OpState SearchVars}
    (h : cbasAssertion o n (.body 2) r s) :
    (nextGenerator req s).Establishes (cbasAssertion o n · r) (.body 2) (.body 3) s := by
  obtain ⟨k, hgenerator, hlog⟩ := h
  unfold nextGenerator
  rw [hcount, (count_eq hint).1, hgenerator, nextAnalytics_eq hpos hint]
  exact ⟨k + 1, rfl, hlog⟩

theorem executeCBAS_outline (hpos : 1 ≤ n) (hint : 2 * n < 2 ^ 31)
    (hcount : asInt64 (req.payload.get "Count") = n) :
    (executeCBAS o w req).Outline cancelCurrent (cbasAssertion o n) where
  action := by
    intro here there a r s ha h
    match here, h with
    | .pre 0, h | .pre 1, h | .body 0, h =>
      cases ha
      exact h
    | .body 1, h =>
      cases ha
      exact queryCBAS_queries h
    | .body 2, h =>
      cases ha
      exact nextGenerator_steps hpos hint hcount h
  pre_end := fun _ _ _ _ h => h
  enter := fun _ _ _ h => h
  leave := fun _ _ _ h => h
  body_end := by
    intro k r s hk h
    obtain ⟨k, rfl⟩ := Nat.exists_eq_add_of_le' hk
    exact h
  post_end := fun _ _ _ _ h => h
  stable := by
    intro pos r s h
    match pos, h with
    | .body 2, h => exact h
    | .pre _, h | .test, h | .body 0, h | .body 1, h | .body (_ + 3), h => exact h
    | .post _, h | .done, h | .dead _, h => exact h

/-- The analytics queries of a run wherever it stands. -/
theorem executeCBAS_sent (hpos : 1 ≤ n) (hint : 2 * n < 2 ^ 31)
    (hcount : asInt64 (req.payload.get "Count") = n) {ses : Session} (hses : ses.sent = [])
    {c : Config (OpState SearchVars) Crash}
    (hc : (executeCBAS o w req).Reaches cancelCurrent (.start ⟨ses, ⟨0⟩⟩) c) :
    c.st.ses.sent = (List.range c.st.ses.sent.length).map (kthQuery o n) := by
  have hstart : (Config.start ⟨ses, ⟨0⟩⟩ : Config (OpState SearchVars) Crash).Satisfies
      (cbasAssertion o n) := by
    refine ⟨0, by rw [Nat.zero_mod]; rfl, ?_⟩
    show Logs _ _ ses.sent
    rw [hses]
    exact .nil
  have hsat := (executeCBAS_outline hpos hint hcount).sound hc hstart
  have hlogs : ∃ m, Logs (fun k r => r = kthQuery o n k) m c.st.ses.sent := by
    unfold Config.Satisfies cbasAssertion at hsat
    split at hsat <;> exact ⟨_, hsat.choose_spec.2⟩
  obtain ⟨m, hlogs⟩ := hlogs
  rw [hlogs.length]
  exact hlogs.eq_map

variable [JsonWriter]

/-- The searches by number. -/
def kthSearch (req : Request) (n k : ℕ) : ClusterRequest :=
  searchRequest req (searchField (((k + 1) % (2 * n) : ℕ) : ℤ)) []

/-- The number of the last search, and the searches up to it. -/
def Searched (req : Request) (n : ℕ) (s : OpState SearchVars) : Prop :=
  ∃ k : ℕ, s.loc.generator = ((k % (2 * n) : ℕ) : ℤ) ∧
    Logs (fun k r => r = kthSearch req n k) k s.ses.sent

theorem search_preloaded {s : OpState SearchVars} {kvCount g : ℤ}
    (hpreloaded : ¬ AtPlus req)
    (hcount : toInt (toUInt (asInt64 (req.payload.get "Count"))) = kvCount)
    (hnext : nextPreloaded kvCount s.loc.generator = .ok g) :
    search o w req s = .next ⟨(s.ses.execute w (searchRequest req (searchField g) [])).2.setRescodeFinal w
      (s.ses.execute w (searchRequest req (searchField g) [])).1 true, ⟨g⟩⟩ := by
  unfold search
  rw [if_neg hpreloaded, hcount]
  unfold runSearchOnPreloadedData
  rw [hnext]

theorem search_searches (hpos : 1 ≤ n) (hint : 2 * n < 2 ^ 31)
    (hcount : asInt64 (req.payload.get "Count") = n)
    (hpreloaded : ¬ AtPlus req) :
    Action.Maintains (Searched req n) (search o w req) := by
  rintro s ⟨k, hgenerator, hlog⟩
  have hkv : toInt (toUInt (asInt64 (req.payload.get "Count"))) = n := by
    rw [hcount, (count_eq hint).2]
  have hnext : nextPreloaded n s.loc.generator = .ok (((k + 1) % (2 * n) : ℕ) : ℤ) := by
    rw [hgenerator, nextPreloaded_eq hpos hint]
  rw [search_preloaded hpreloaded hkv hnext]
  exact ⟨k + 1, rfl, hlog.snoc rfl⟩

/-- The searches of a run wherever it stands. -/
theorem executeFTS_sent (hpos : 1 ≤ n) (hint : 2 * n < 2 ^ 31)
    (hcount : asInt64 (req.payload.get "Count") = n)
    (hpreloaded : ¬ AtPlus req)
    {ses : Session} (hses : ses.sent = []) {c : Config (OpState SearchVars) Crash}
    (hc : (executeFTS o w req).Reaches cancelCurrent (.start ⟨ses, ⟨0⟩⟩) c) :
    c.st.ses.sent = (List.range c.st.ses.sent.length).map (kthSearch req n) := by
  have hsearched : Searched req n c.st := by
    refine hc.maintained ?_ ?_ ?_ (fun _ h => h) ⟨0, by rw [Nat.zero_mod]; rfl, ?_⟩
    · simp only [executeFTS, List.forall_mem_cons]
      refine ⟨fun _ h => h, fun _ h => h, fun s h => ?_, by simp⟩
      rcases checkConsistency_outcome req s with ⟨-, hout⟩ | ⟨-, hout⟩ <;> rw [hout]
      · exact h
      · trivial
    · simp only [executeFTS, List.forall_mem_cons]
      exact ⟨fun _ h => h, search_searches hpos hint hcount hpreloaded, by simp⟩
    · simp [executeFTS]
    · show Logs _ _ ses.sent
      rw [hses]
      exact .nil
  obtain ⟨k, -, hlogs⟩ := hsearched
  rw [hlogs.length]
  exact hlogs.eq_map

end Runs

/-! ## Coverage -/

section Coverage

variable {n : ℕ}

/-- The terms of a pass, from anywhere. -/
theorem covers_searches (n a : ℕ) :
    Covers ((List.range' a (2 * n)).map fun k => searchField (((k + 1) % (2 * n) : ℕ) : ℤ))
      ((List.range n).flatMap fun i : ℕ => documentTerms i) := by
  let term : ℕ → Json := fun g => .string (searchField g)
  have hshift : ((List.range' a (2 * n)).map fun k => searchField (((k + 1) % (2 * n) : ℕ) : ℤ)).map
      Json.string = (List.range' (1 + a) (2 * n)).map fun k => term (k % (2 * n)) := by
    rw [← List.map_add_range', List.map_map, List.map_map]
    refine List.map_congr_left fun k _ => ?_
    simp only [Function.comp, Nat.add_comm 1 k, term]
  have hstored : (List.range n).flatMap (fun i : ℕ => documentTerms i) =
      (List.range (2 * n)).map fun k => term (k % (2 * n)) := by
    rw [flatMap_documentTerms, List.map_map]
    refine List.map_congr_left fun k hk => ?_
    simp only [Function.comp, term, Nat.mod_eq_of_lt (List.mem_range.mp hk)]
  have hinj : Function.Injective term := fun g g' h => searchField_inj (Json.string.inj h)
  refine ⟨?_, ?_⟩
  · rw [hshift, hstored]
    refine Cycles.window_perm (fun k => ?_) _
    rw [Nat.add_mod_right]
  · rw [flatMap_documentTerms, List.map_map]
    exact List.nodup_range.map hinj

theorem covers_queries (n a : ℕ) :
    Covers ((List.range' a n).map fun k => "SampleValue" ++ toString ((k % n : ℕ) : ℤ))
      ((List.range n).map fun i : ℕ => (Dataset.sampleDoc i).get "value") := by
  let value : ℕ → Json := fun i => .string ("SampleValue" ++ toString (i : ℤ))
  have hstored : ((List.range n).map fun i : ℕ => (Dataset.sampleDoc i).get "value") =
      (List.range n).map fun k => value (k % n) := by
    refine List.map_congr_left fun k hk => ?_
    simp only [value, Nat.mod_eq_of_lt (List.mem_range.mp hk)]
    rfl
  have hinj : Function.Injective value := fun i j h =>
    toString_int_inj ((String.append_right_inj _).mp (Json.string.inj h))
  refine ⟨?_, List.nodup_range.map hinj⟩
  rw [hstored, List.map_map]
  refine Cycles.window_perm (f := fun k => value (k % n)) (fun k => ?_) a
  rw [Nat.add_mod_right]

variable [JsonAccess] [JsonWriter]

/-- **Coverage.** With a count `n` that is not zero and twice of which is an `int`, every term a full-text run
searches for is one of a document the loader stored, every `2 * n` searches in a row cover the terms of all
`n` documents, and every `n` analytics queries in a row cover their values. -/
theorem searches_cover (n : ℕ) (hpos : 1 ≤ n) (hint : 2 * n < 2 ^ 31) (h : Handle) (w : World)
    (req : Request) (rs : ResultSet) (hcount : asInt64 (req.payload.get "Count") = n) :
    (∀ spec, spec = .fts n ∨ spec = .cbas n → ∀ (it : DatasetIterator) (i : ℕ), i < n →
      Dataset.initData spec it i =
        .ok { it with curv := JsonWriter.write (Dataset.sampleDoc i), curk := toString (i : ℤ) }) ∧
    (¬ AtPlus req →
      ∀ c, (executeFTS h.options w req).Reaches cancelCurrent (.start ⟨h.session rs, ⟨0⟩⟩) c →
        (∀ r ∈ c.st.ses.sent, ∃ t, r = searchRequest req t [] ∧
          ∃ i < n, .string t ∈ documentTerms i) ∧
        ∀ a, a + 2 * n ≤ c.st.ses.sent.length → ∃ ts,
          (c.st.ses.sent.drop a).take (2 * n) = ts.map (searchRequest req · []) ∧
          Covers ts ((List.range n).flatMap fun i : ℕ => documentTerms i)) ∧
    (∀ c, (executeCBAS h.options w req).Reaches cancelCurrent (.start ⟨h.session rs, ⟨0⟩⟩) c →
      ∀ a, a + n ≤ c.st.ses.sent.length → ∃ vs,
        (c.st.ses.sent.drop a).take n = vs.map (analyticsRequest h.options) ∧
        Covers vs ((List.range n).map fun i : ℕ => (Dataset.sampleDoc i).get "value")) := by
  have hsent : (h.session rs).sent = [] := rfl
  refine ⟨?_, fun hpreloaded c hc => ⟨fun r hr => ?_, fun a ha => ?_⟩, fun c hc a ha => ?_⟩
  · rintro spec (rfl | rfl) it i - <;> rfl
  · rw [executeFTS_sent hpos hint hcount hpreloaded hsent hc] at hr
    obtain ⟨k, -, rfl⟩ := List.mem_map.mp hr
    have hlt : (k + 1) % (2 * n) < 2 * n := Nat.mod_lt _ (by omega)
    have hmem : Json.string (searchField (((k + 1) % (2 * n) : ℕ) : ℤ)) ∈
        (List.range n).flatMap fun i : ℕ => documentTerms i := by
      rw [flatMap_documentTerms]
      exact List.mem_map_of_mem (List.mem_map_of_mem (List.mem_range.mpr hlt))
    obtain ⟨i, hi, hterm⟩ := List.mem_flatMap.mp hmem
    exact ⟨_, rfl, i, List.mem_range.mp hi, hterm⟩
  · refine ⟨_, ?_, covers_searches n a⟩
    rw [executeFTS_sent hpos hint hcount hpreloaded hsent hc,
      Cycles.drop_take_map_range _ ha, List.map_map]
    rfl
  · refine ⟨_, ?_, covers_queries n a⟩
    rw [executeCBAS_sent hpos hint hcount hsent hc,
      Cycles.drop_take_map_range _ ha, List.map_map]
    rfl

end Coverage

section Examples

/-- A full-text query over two documents. -/
def exampleFTS : Request :=
  ⟨1, 1, ⟨"CB_FTS_QUERY", .cbFtsQuery⟩,
    .object [("Count", .uint 2), ("FTSConsistency", .string "not_bounded")], .success⟩

/-- An analytics query over them. -/
def exampleAnalytics : Request := ⟨1, 1, ⟨"CB_AS_QUERY", .cbAsQuery⟩, .object [("Count", .uint 2)], .success⟩

/-- Four searches in a row behind the first, and two analytics queries in a row behind the first. -/
theorem searches_cover_two :
    letI := JsonAccess.plain
    letI := JsonWriter.compact
    (∃ c, (executeFTS exampleHandle.options exampleWorld exampleFTS).Reaches cancelCurrent
        (.start ⟨exampleHandle.session .new, ⟨0⟩⟩) c ∧
      ∃ ts, ts.length = 4 ∧ (c.st.ses.sent.drop 1).take 4 = ts.map (searchRequest exampleFTS · []) ∧
        Covers ts ((List.range 2).flatMap fun i : ℕ => documentTerms i)) ∧
    ∃ c, (executeCBAS exampleHandle.options exampleWorld exampleAnalytics).Reaches cancelCurrent
        (.start ⟨exampleHandle.session .new, ⟨0⟩⟩) c ∧
      ∃ vs, vs.length = 2 ∧
        (c.st.ses.sent.drop 1).take 2 = vs.map (analyticsRequest exampleHandle.options) ∧
        Covers vs ((List.range 2).map fun i : ℕ => (Dataset.sampleDoc i).get "value") := by
  let _ := JsonAccess.plain
  let _ := JsonWriter.compact
  obtain ⟨c, hreach, hlength⟩ : ∃ c, (executeFTS exampleHandle.options exampleWorld exampleFTS).Reaches
      cancelCurrent (.start ⟨exampleHandle.session .new, ⟨0⟩⟩) c ∧ c.st.ses.sent.length = 5 :=
    ⟨_, Prog.reaches_run (fun _ => false) _ 24, by decide +kernel⟩
  obtain ⟨d, hreach', hlength'⟩ : ∃ d,
      (executeCBAS exampleHandle.options exampleWorld exampleAnalytics).Reaches
        cancelCurrent (.start ⟨exampleHandle.session .new, ⟨0⟩⟩) d ∧ d.st.ses.sent.length = 3 :=
    ⟨_, Prog.reaches_run (fun _ => false) _ 16, by decide +kernel⟩
  obtain ⟨-, hsearches, -⟩ := searches_cover 2 (by decide) (by decide) exampleHandle exampleWorld
    exampleFTS .new rfl
  obtain ⟨-, -, hqueries⟩ := searches_cover 2 (by decide) (by decide) exampleHandle exampleWorld
    exampleAnalytics .new rfl
  obtain ⟨ts, hts, hcovers⟩ := (hsearches (by decide) c hreach).2 1 (by omega)
  obtain ⟨vs, hvs, hcovers'⟩ := hqueries d hreach' 1 (by omega)
  refine ⟨⟨c, hreach, ts, ?_, hts, hcovers⟩, d, hreach', vs, ?_, hvs, hcovers'⟩
  · have hlen := congrArg List.length hts
    simpa [hlength] using hlen.symm
  · have hlen := congrArg List.length hvs
    simpa [hlength'] using hlen.symm

end Examples

end Sdkd
