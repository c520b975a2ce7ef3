import Sdkd.Divisors
import Sdkd.OwnQueries
import Sdkd.ViewQueries

/-!
# Queries that wait for documents

The N1QL and the full-text queries store documents of their own, and with the consistency `at_plus` they hand
the mutation tokens of these documents to the cluster, which then answers only when its indexes have come so
far. Which tokens they hand over, and which outcomes they report.

## Main definitions

- `tokensBefore` — the tokens of the documents a N1QL request has stored
- `NextSearch` — the request of a full-text query at `at_plus` that follows those sent so far
- `unstored` — the numbers of the requests that have not stored a document

## Main results

- `executeN1QL_tokens` — every query names the documents its request has stored so far, and only queries are
  reported
- `executeFTS_tokens` — every search names the one document it looks for, which is stored right before it
-/

namespace Sdkd

open LoopProg

/-- The consistency a query asks for. -/
def ClusterRequest.consistency : ClusterRequest → Option ScanConsistency
  | .query _ _ _ _ _ consistency => some consistency
  | _ => none

/-! ## N1QL -/

section N1QL

/-- The numbers of the documents stored in the first `r` rounds. -/
def tokensBefore (w : World) (r : ℕ) : List ℕ :=
  ((List.range r).map (2 * ·)).filter fun k => !(w.outcome k).isSet

theorem tokensBefore_succ (w : World) (r : ℕ) : tokensBefore w (r + 1) =
    if (w.outcome (2 * r)).isSet then tokensBefore w r else tokensBefore w r ++ [2 * r] := by
  unfold tokensBefore
  rw [List.range_succ, List.map_append, List.filter_append]
  cases hset : (w.outcome (2 * r)).isSet <;> simp [hset]

variable [JsonAccess] [JsonWriter] (o : HandleOptions) (hid : ℕ) (w : World) (req : Request)

/-- The consistency the request asks for, when the documents with the numbers `tokens` are stored. -/
def requestedConsistency (tokens : List ℕ) : ScanConsistency :=
  match asString (req.payload.get "NQScanConsistency") with
  | "request_plus" => .requestPlus
  | "at_plus" => .atPlus tokens
  | _ => .notBounded

/-- The requests by number: a document is stored, then a query names all that have been. -/
def NamesStored (k : ℕ) (r : ClusterRequest) : Prop :=
  if k % 2 = 0 then ∃ id value, r = .upsert id value 0 0
  else r.consistency = some (requestedConsistency req (tokensBefore w (k / 2 + 1)))

/-- After `r` rounds. -/
structure N1QLRounds (r : ℕ) (s : OpState N1QLVars) : Prop where
  log : Logs (NamesStored w req) (2 * r) s.ses.sent
  tokens : s.loc.mutationTokens = tokensBefore w r
  reported : Reported ((List.range r).map fun i => w.outcome (2 * i + 1)) s.ses

/-- In the round after `r` others, between the document and the query. -/
structure N1QLStored (r : ℕ) (s : OpState N1QLVars) : Prop where
  log : Logs (NamesStored w req) (2 * r + 1) s.ses.sent
  tokens : s.loc.mutationTokens = tokensBefore w (r + 1)
  reported : Reported ((List.range r).map fun i => w.outcome (2 * i + 1)) s.ses

/-- What holds at a control position after `r` rounds. -/
def tokenAssertion (pos : Pos Crash) (r : ℕ) (s : OpState N1QLVars) : Prop :=
  match pos with
  | .pre 0 => r = 0 ∧ s.ses.sent = [] ∧ s.loc.mutationTokens = []
  | .pre (_ + 1) | .test | .body (_ + 4) | .post _ | .done => N1QLRounds w req r s
  | .body 0 | .body 1 => ∃ k, r = k + 1 ∧ N1QLRounds w req k s
  | .body 2 | .body 3 => ∃ k, r = k + 1 ∧ N1QLStored w req k s
  | .dead _ => ∃ k, N1QLRounds w req k s

variable {o hid w req} {r k : ℕ} {s s' : OpState N1QLVars}

omit [JsonWriter] in
theorem N1QLRounds.congr (h : N1QLRounds w req r s) (hsent : s'.ses.sent = s.ses.sent)
    (htokens : s'.loc.mutationTokens = s.loc.mutationTokens)
    (hrecorded : s'.ses.rs.recorded = s.ses.rs.recorded) (hstats : s'.ses.rs.stats = s.ses.rs.stats) :
    N1QLRounds w req r s' :=
  ⟨hsent ▸ h.log, htokens.trans h.tokens, hrecorded.trans h.reported.recorded, hstats ▸ h.reported.stats⟩

/-- The document joins the ones stored if its upsert succeeds. -/
theorem insertDoc_tokens (h : N1QLRounds w req k s) :
    (insertDoc o hid w s).Establishes (tokenAssertion w req · (k + 1)) (.body 1) (.body 2) s := by
  unfold insertDoc
  split
  · exact ⟨k, h⟩
  · dsimp only
    split
    · exact ⟨k, h⟩
    · refine ⟨k, rfl, h.log.snoc ?_, ?_, h.reported.recorded, h.reported.stats⟩
      · rw [NamesStored, if_pos (Nat.mul_mod_right 2 k)]
        exact ⟨_, _, rfl⟩
      · rw [tokensBefore_succ]
        simp only [Session.execute, h.tokens, h.log.length]

omit [JsonWriter] in
theorem queryN1QL_tokens (h : N1QLStored w req k s) :
    (queryN1QL o w req s).Establishes (tokenAssertion w req · (k + 1)) (.body 3) (.body 4) s := by
  refine ⟨h.log.snoc ?_, h.tokens, ?_⟩
  · rw [NamesStored, if_neg (by omega), show (2 * k + 1) / 2 = k by omega, ← h.tokens]
    rfl
  · have hexecuted := h.reported.executedFinal (w := w) (n1qlRequest o w req s.loc)
    rw [h.log.length] at hexecuted
    rwa [List.range_succ, List.map_append]

/-- The assertions form a proof outline of a N1QL query. -/
theorem executeN1QL_token_outline :
    (executeN1QL o hid w req).Outline cancelCurrent (tokenAssertion w req) where
  action := by
    intro here there a r s ha h
    match here, h with
    | .pre 0, ⟨hr, hsent, htokens⟩ =>
      cases ha
      subst hr
      refine ⟨?_, htokens, .clearResults s.ses⟩
      show Logs _ _ s.ses.sent
      rw [hsent]
      exact .nil
    | .pre 1, h =>
      cases ha
      exact h.congr rfl rfl rfl rfl
    | .body 0, ⟨k, hk, h⟩ =>
      cases ha
      exact ⟨k, hk, h.congr rfl rfl rfl rfl⟩
    | .body 1, ⟨k, hk, h⟩ =>
      cases ha
      exact hk ▸ insertDoc_tokens h
    | .body 2, ⟨k, hk, h⟩ =>
      cases ha
      exact ⟨k, hk, h.log, h.tokens, h.reported.markBegin⟩
    | .body 3, ⟨k, hk, h⟩ =>
      cases ha
      exact hk ▸ queryN1QL_tokens h
    | .pre (k + 2), h | .body (k + 4), h | .post k, h | .test, h | .done, h | .dead e, h => cases ha
  pre_end := by
    intro k r s hk h
    obtain ⟨j, rfl⟩ := Nat.exists_eq_add_of_le' (show 2 ≤ k from hk)
    exact h
  enter := fun r s _ h => ⟨r, rfl, h⟩
  leave := fun _ _ _ h => h
  body_end := by
    intro k r s hk h
    obtain ⟨j, rfl⟩ := Nat.exists_eq_add_of_le' (show 4 ≤ k from hk)
    exact h
  post_end := fun _ _ _ _ h => h
  stable := by
    intro pos r s h
    have hrounds : ∀ {k}, N1QLRounds w req k s → N1QLRounds w req k (cancelCurrent s) :=
      fun h => h.congr rfl rfl rfl rfl
    match pos, h with
    | .pre 0, h => exact h
    | .pre (k + 1), h | .test, h | .body (k + 4), h | .post k, h | .done, h => exact hrounds h
    | .body 0, ⟨k, hk, h⟩ | .body 1, ⟨k, hk, h⟩ => exact ⟨k, hk, hrounds h⟩
    | .body 2, ⟨k, hk, h⟩ | .body 3, ⟨k, hk, h⟩ =>
      exact ⟨k, hk, h.log, h.tokens, h.reported.recorded, h.reported.stats⟩
    | .dead e, ⟨k, h⟩ => exact ⟨k, hrounds h⟩

/-- **Tokens of N1QL queries.** Wherever an interleaving with the control thread takes a N1QL query, its
requests are an upsert and a query in turn, and at `at_plus` every query names the tokens of all documents
that its request has stored by then, in their order, and no others; when it returns it has reported the
outcomes of its queries, and of no upsert. -/
theorem executeN1QL_tokens (h : Handle) (w : World) (req : Request) (rs : ResultSet)
    {c : Config (OpState N1QLVars) Crash}
    (hreach : (executeN1QL h.options h.hid w req).Reaches cancelCurrent
      (.start ⟨h.session rs, .start h.hid req⟩) c) :
    (∃ n, Logs (NamesStored w req) n c.st.ses.sent) ∧
    (c.pos = .done → c.st.ses.sent.length = 2 * c.rounds ∧
      Reported ((List.range c.rounds).map fun i => w.outcome (2 * i + 1)) c.st.ses) := by
  have hsat : c.Satisfies (tokenAssertion w req) :=
    executeN1QL_token_outline.sound hreach ⟨rfl, rfl, rfl⟩
  obtain ⟨pos, s, r⟩ := c
  refine ⟨?_, fun hpos => ?_⟩
  · match pos, hsat with
    | .pre 0, ⟨_, hsent, _⟩ =>
      refine ⟨0, ?_⟩
      dsimp only at hsent ⊢
      rw [hsent]
      exact .nil
    | .pre (k + 1), h | .test, h | .body (k + 4), h | .post k, h | .done, h => exact ⟨_, h.log⟩
    | .body 0, ⟨k, _, h⟩ | .body 1, ⟨k, _, h⟩ => exact ⟨_, h.log⟩
    | .body 2, ⟨k, _, h⟩ | .body 3, ⟨k, _, h⟩ => exact ⟨_, h.log⟩
    | .dead e, ⟨k, h⟩ => exact ⟨_, h.log⟩
  · subst hpos
    exact ⟨hsat.log.length, hsat.reported⟩

/-- A query that waits for its documents. -/
def exampleAtPlus : Request :=
  ⟨1, 1, ⟨"CB_N1QL_QUERY", .cbN1qlQuery⟩,
    .object [("NQParam", .string "name"), ("NQParamValues", .string "ann"),
      ("NQScanConsistency", .string "at_plus")], .success⟩

omit [JsonAccess] [JsonWriter] in
theorem executeN1QL_tokens_two :
    letI := JsonAccess.plain
    letI := JsonWriter.compact
    ∃ c, (executeN1QL exampleHandle.options 1 exampleWorld exampleAtPlus).Reaches cancelCurrent
        (.start ⟨exampleHandle.session .new, .start 1 exampleAtPlus⟩) c ∧
      c.st.ses.sent.map ClusterRequest.consistency =
        [none, some (.atPlus [0]), none, some (.atPlus [0, 2])] ∧
      ∃ n, Logs (NamesStored exampleWorld exampleAtPlus) n c.st.ses.sent := by
  let _ := JsonAccess.plain
  let _ := JsonWriter.compact
  let p := executeN1QL exampleHandle.options 1 exampleWorld exampleAtPlus
  let c₀ : Config (OpState N1QLVars) Crash :=
    .start ⟨exampleHandle.session .new, .start 1 exampleAtPlus⟩
  have hreach : p.Reaches cancelCurrent c₀ (p.run cancelCurrent (fun _ => false) c₀ 14) :=
    Prog.reaches_run _ _ _
  exact ⟨_, hreach, by decide +kernel,
    (executeN1QL_tokens exampleHandle exampleWorld exampleAtPlus .new hreach).1⟩

end N1QL

/-! ## Full-text search -/

/-- Each entry of a list is as `φ` demands of it behind the entries before it. -/
def EachAfter {α : Type*} (φ : List α → α → Prop) (l : List α) : Prop :=
  ∀ k a, l[k]? = some a → φ (l.take k) a

theorem EachAfter.nil {α : Type*} {φ : List α → α → Prop} : EachAfter φ [] := fun _ _ h => by simp at h

theorem EachAfter.snoc {α : Type*} {φ : List α → α → Prop} {l : List α} {a : α} (h : EachAfter φ l)
    (ha : φ l a) : EachAfter φ (l ++ [a]) := by
  intro k b hk
  rcases Nat.lt_trichotomy k l.length with hlt | rfl | hgt
  · rw [List.getElem?_append_left hlt] at hk
    rw [List.take_append_of_le_length hlt.le]
    exact h k b hk
  · rw [List.getElem?_concat_length] at hk
    obtain rfl := Option.some.inj hk
    rwa [List.take_left']
    rfl
  · rw [List.getElem?_eq_none (by rw [List.length_append, List.length_singleton]; omega)] at hk
    cases hk

/-- A search of the full-text index. -/
def ClusterRequest.isSearch : ClusterRequest → Bool
  | .search _ _ _ _ => true
  | _ => false

/-- A document is stored. -/
def ClusterRequest.isUpsert : ClusterRequest → Bool
  | .upsert _ _ _ _ => true
  | _ => false

/-- The request with the number `k` has stored a document. -/
def storedAt (w : World) (sent : List ClusterRequest) (k : ℕ) : Bool :=
  sent[k]?.any ClusterRequest.isUpsert && !(w.outcome k).isSet

/-- The numbers of the requests that have not. -/
def unstored (w : World) (sent : List ClusterRequest) : List ℕ :=
  (List.range sent.length).filter fun k => !storedAt w sent k

section Log

variable {w : World} {sent : List ClusterRequest} {r : ClusterRequest}

theorem storedAt_append {k : ℕ} (hk : k < sent.length) : storedAt w (sent ++ [r]) k = storedAt w sent k := by
  rw [storedAt, List.getElem?_append_left hk, storedAt]

theorem storedAt_last : storedAt w (sent ++ [r]) sent.length =
    (r.isUpsert && !(w.outcome sent.length).isSet) := by
  rw [storedAt, List.getElem?_concat_length, Option.any_some]

theorem unstored_append : unstored w (sent ++ [r]) =
    if storedAt w (sent ++ [r]) sent.length then unstored w sent else unstored w sent ++ [sent.length] := by
  have hbefore : (List.range sent.length).filter (fun k => !storedAt w (sent ++ [r]) k) =
      unstored w sent :=
    List.filter_congr fun k hk => by rw [storedAt_append (List.mem_range.mp hk)]
  rw [unstored, List.length_append, List.length_singleton, List.range_succ, List.filter_append, hbefore]
  cases hstored : storedAt w (sent ++ [r]) sent.length <;> simp [hstored]

end Log

section Search

open WorkerDispatch (atPlusSearch atPlusSearch_consistency)

variable [JsonAccess] [JsonWriter] (o : HandleOptions) (w : World) (req : Request)

/-- The text of the document with a number. -/
def matchTerm (g : ℤ) : String := "SampleValue:" ++ w.threadId ++ ":" ++ toString g

/-- Behind the requests `sent` comes `r`: behind a document the search for its text, with its token; and else
the document for the next search. -/
def NextSearch (sent : List ClusterRequest) (r : ClusterRequest) : Prop :=
  let g := toInt (sent.countP ClusterRequest.isSearch)
  if storedAt w sent (sent.length - 1) then r = searchRequest req (matchTerm w g) [sent.length - 1]
  else ∃ c, o.getCollection (searchKey w g) = .ok c ∧ r = .upsert ⟨o.bucket, c.1, c.2, searchKey w g⟩
    (JsonWriter.write (Json.null.set "value" (.string (matchTerm w g)))) 0 0

/-- After `r` rounds. -/
structure SearchRounds (r : ℕ) (s : OpState SearchVars) : Prop where
  log : EachAfter (NextSearch o w req) s.ses.sent
  searched : storedAt w s.ses.sent (s.ses.sent.length - 1) = false
  generator : s.loc.generator = toInt (s.ses.sent.countP ClusterRequest.isSearch)
  reported : Reported ((unstored w s.ses.sent).map w.outcome) s.ses
  rounds : (unstored w s.ses.sent).length = r

/-- What holds at a control position after `r` rounds. -/
def searchLogAssertion (pos : Pos Crash) (r : ℕ) (s : OpState SearchVars) : Prop :=
  match pos with
  | .pre 0 => r = 0 ∧ s.ses.sent = [] ∧ s.loc.generator = 0
  | .pre (_ + 1) | .test | .body (_ + 2) | .post _ | .done => SearchRounds o w req r s
  | .body 0 | .body 1 => ∃ k, r = k + 1 ∧ SearchRounds o w req k s
  | .dead _ => ∃ k, SearchRounds o w req k s

variable {o w req} {r k : ℕ} {s s' : OpState SearchVars}

theorem SearchRounds.congr (h : SearchRounds o w req r s) (hsent : s'.ses.sent = s.ses.sent)
    (hloc : s'.loc.generator = s.loc.generator) (hrecorded : s'.ses.rs.recorded = s.ses.rs.recorded)
    (hstats : s'.ses.rs.stats = s.ses.rs.stats) : SearchRounds o w req r s' where
  log := hsent ▸ h.log
  searched := hsent ▸ h.searched
  generator := by rw [hloc, hsent, h.generator]
  reported := ⟨by rw [hrecorded, hsent, h.reported.recorded], by rw [hstats, hsent]; exact h.reported.stats⟩
  rounds := hsent ▸ h.rounds

variable {doc : ClusterRequest}

omit [JsonAccess] [JsonWriter] in
/-- An upsert is no search. -/
theorem countP_upsert {sent : List ClusterRequest} (hupsert : doc.isUpsert = true) :
    (sent ++ [doc]).countP ClusterRequest.isSearch = sent.countP ClusterRequest.isSearch := by
  have hnot : doc.isSearch = false := by
    cases doc with
    | upsert _ _ _ _ => rfl
    | _ => cases hupsert
  rw [List.countP_append, List.countP_singleton, hnot]
  rfl

/-- The upsert fails, and its outcome stands for the search's. -/
theorem SearchRounds.refused (h : SearchRounds o w req k s) (hnext : NextSearch o w req s.ses.sent doc)
    (hupsert : doc.isUpsert = true) (hset : (w.outcome s.ses.sent.length).isSet = true) :
    SearchRounds o w req (k + 1)
      { s with ses := (s.ses.execute w doc).2.setRescodeFinal w (s.ses.execute w doc).1 true } := by
  have hnot : storedAt w (s.ses.sent ++ [doc]) s.ses.sent.length = false := by
    rw [storedAt_last, hset]
    simp
  have hunstored : unstored w (s.ses.sent ++ [doc]) = unstored w s.ses.sent ++ [s.ses.sent.length] := by
    rw [unstored_append, if_neg (Bool.eq_false_iff.mp hnot)]
  exact {
    log := h.log.snoc hnext
    searched := by
      show storedAt w (s.ses.sent ++ [doc]) ((s.ses.sent ++ [doc]).length - 1) = false
      rwa [List.length_append, List.length_singleton, Nat.add_sub_cancel]
    generator := by
      show s.loc.generator = toInt ((s.ses.sent ++ [doc]).countP ClusterRequest.isSearch : ℕ)
      rw [countP_upsert hupsert, h.generator]
    reported := by
      show Reported ((unstored w (s.ses.sent ++ [doc])).map w.outcome) _
      rw [hunstored, List.map_append]
      exact h.reported.executedFinal doc
    rounds := by
      show (unstored w (s.ses.sent ++ [doc])).length = k + 1
      rw [hunstored, List.length_append, h.rounds, List.length_singleton] }

/-- The upsert succeeds, and the search for the document follows. -/
theorem SearchRounds.found (h : SearchRounds o w req k s) (hnext : NextSearch o w req s.ses.sent doc)
    (hupsert : doc.isUpsert = true) (hset : (w.outcome s.ses.sent.length).isSet = false) :
    letI stored := s.ses.execute w doc
    letI answer := stored.2.execute w
      (searchRequest req (matchTerm w s.loc.generator) [s.ses.sent.length])
    SearchRounds o w req (k + 1)
      ⟨answer.2.setRescodeFinal w answer.1 true, ⟨toInt (s.loc.generator + 1)⟩⟩ := by
  generalize hsearch : searchRequest req (matchTerm w s.loc.generator) [s.ses.sent.length] = search
  have hnotUpsert : search.isUpsert = false := by rw [← hsearch]; rfl
  have hisSearch : search.isSearch = true := by rw [← hsearch]; rfl
  have hlength : (s.ses.sent ++ [doc]).length = s.ses.sent.length + 1 := by simp
  have hstored : storedAt w (s.ses.sent ++ [doc]) s.ses.sent.length = true := by
    rw [storedAt_last, hupsert, hset]
    rfl
  have hcount : (s.ses.sent ++ [doc]).countP ClusterRequest.isSearch =
      s.ses.sent.countP ClusterRequest.isSearch := countP_upsert hupsert
  have hnot : storedAt w (s.ses.sent ++ [doc] ++ [search]) (s.ses.sent ++ [doc]).length = false := by
    rw [storedAt_last, hnotUpsert, Bool.false_and]
  have hunstored : unstored w (s.ses.sent ++ [doc] ++ [search]) =
      unstored w s.ses.sent ++ [s.ses.sent.length + 1] := by
    rw [unstored_append, if_neg (Bool.eq_false_iff.mp hnot), unstored_append, if_pos hstored, hlength]
  have hthen : NextSearch o w req (s.ses.sent ++ [doc]) search := by
    rw [NextSearch, hlength, Nat.add_sub_cancel, if_pos hstored, hcount, ← h.generator, hsearch]
  exact {
    log := (h.log.snoc hnext).snoc hthen
    searched := by
      show storedAt w (s.ses.sent ++ [doc] ++ [search]) _ = false
      rw [← hnot]
      congr 1
      show (s.ses.sent ++ [doc] ++ [search]).length - 1 = _
      rw [List.length_append, List.length_singleton, Nat.add_sub_cancel]
    generator := by
      show toInt (s.loc.generator + 1) =
        toInt ((s.ses.sent ++ [doc] ++ [search]).countP ClusterRequest.isSearch : ℕ)
      rw [List.countP_append, hcount, List.countP_singleton, hisSearch, if_pos rfl, h.generator,
        toInt_toInt_add, Nat.cast_succ]
    reported := by
      show Reported ((unstored w (s.ses.sent ++ [doc] ++ [search])).map w.outcome) _
      rw [hunstored, List.map_append, ← hlength]
      have hbetween : Reported ((unstored w s.ses.sent).map w.outcome) (s.ses.execute w doc).2 :=
        ⟨h.reported.recorded, h.reported.stats⟩
      exact hbetween.executedFinal search
    rounds := by
      show (unstored w (s.ses.sent ++ [doc] ++ [search])).length = k + 1
      rw [hunstored, List.length_append, h.rounds, List.length_singleton] }

/-- A round stores a document, and searches for it if that succeeds. -/
theorem search_searched (hplus : AtPlus req) (h : SearchRounds o w req k s) :
    (search o w req s).Establishes (searchLogAssertion o w req · (k + 1)) (.body 1) (.body 2) s := by
  unfold search
  rw [if_pos hplus]
  unfold runSearchUnderAtPlusConsistency
  dsimp only
  split
  · exact ⟨k, h⟩
  · next c hc =>
    have hnext : NextSearch o w req s.ses.sent (.upsert ⟨o.bucket, c.1, c.2, searchKey w s.loc.generator⟩
        (JsonWriter.write (Json.null.set "value" (.string (matchTerm w s.loc.generator)))) 0 0) := by
      rw [NextSearch, h.searched, ← h.generator]
      exact ⟨c, hc, rfl⟩
    split
    · next hset => exact h.refused hnext rfl hset
    · next hset => exact h.found hnext rfl (Bool.eq_false_iff.mpr hset)

/-- The assertions form a proof outline of a full-text query at `at_plus`. -/
theorem executeFTS_token_outline (hplus : AtPlus req) :
    (executeFTS o w req).Outline cancelCurrent (searchLogAssertion o w req) where
  action := by
    intro here there a r s ha h
    match here, h with
    | .pre 0, ⟨hr, hsent, hgenerator⟩ =>
      cases ha
      subst hr
      have hnone : s.ses.clearResults.sent = [] := hsent
      exact {
        log := by rw [hnone]; exact .nil
        searched := by rw [hnone]; rfl
        generator := by rw [hnone]; exact hgenerator.trans (toInt_natCast (by decide)).symm
        reported := by rw [hnone]; exact .clearResults s.ses
        rounds := by rw [hnone]; rfl }
    | .pre 1, h =>
      cases ha
      exact h.congr rfl rfl rfl rfl
    | .pre 2, h =>
      cases ha
      rcases checkConsistency_outcome req s with ⟨-, hout⟩ | ⟨-, hout⟩ <;> rw [hout]
      · exact h
      · exact ⟨r, h⟩
    | .body 0, ⟨k, hk, h⟩ =>
      cases ha
      exact ⟨k, hk, h.congr rfl rfl rfl rfl⟩
    | .body 1, ⟨k, hk, h⟩ =>
      cases ha
      exact hk ▸ search_searched hplus h
    | .pre (k + 3), h | .body (k + 2), h | .post k, h | .test, h | .done, h | .dead e, h => cases ha
  pre_end := by
    intro k r s hk h
    obtain ⟨j, rfl⟩ := Nat.exists_eq_add_of_le' (show 3 ≤ k from hk)
    exact h
  enter := fun r s _ h => ⟨r, rfl, h⟩
  leave := fun _ _ _ h => h
  body_end := by
    intro k r s hk h
    obtain ⟨j, rfl⟩ := Nat.exists_eq_add_of_le' (show 2 ≤ k from hk)
    exact h
  post_end := fun _ _ _ _ h => h
  stable := by
    intro pos r s h
    match pos, h with
    | .pre 0, h => exact h
    | .pre (k + 1), h | .test, h | .body (k + 2), h | .post k, h | .done, h =>
      exact h.congr rfl rfl rfl rfl
    | .body 0, ⟨k, hk, h⟩ | .body 1, ⟨k, hk, h⟩ => exact ⟨k, hk, h.congr rfl rfl rfl rfl⟩
    | .dead e, ⟨k, h⟩ => exact ⟨k, h.congr rfl rfl rfl rfl⟩

/-- **Tokens of full-text queries.** Wherever an interleaving with the control thread takes a full-text query at
`at_plus`, each document it has stored is followed by the search for the text of that very document, which
hands over its token and no other, the searches have the numbers from zero, and a document that could not be
stored is tried again under its number; when the query returns it has reported the searches and the failed
upserts, one for each round. The numbers are `int`s. -/
theorem executeFTS_tokens (h : Handle) (w : World) (req : Request) (rs : ResultSet)
    (hplus : AtPlus req) {c : Config (OpState SearchVars) Crash}
    (hreach : (executeFTS h.options w req).Reaches cancelCurrent (.start ⟨h.session rs, ⟨0⟩⟩) c) :
    EachAfter (NextSearch h.options w req) c.st.ses.sent ∧
    (c.pos = .done → storedAt w c.st.ses.sent (c.st.ses.sent.length - 1) = false ∧
      (unstored w c.st.ses.sent).length = c.rounds ∧
      Reported ((unstored w c.st.ses.sent).map w.outcome) c.st.ses) := by
  have hsat : c.Satisfies (searchLogAssertion h.options w req) :=
    (executeFTS_token_outline hplus).sound hreach ⟨rfl, rfl, rfl⟩
  obtain ⟨pos, s, r⟩ := c
  refine ⟨?_, fun hpos => ?_⟩
  · match pos, hsat with
    | .pre 0, ⟨_, hsent, _⟩ =>
      dsimp only at hsent ⊢
      rw [hsent]
      exact .nil
    | .pre (k + 1), h | .test, h | .body (k + 2), h | .post k, h | .done, h => exact h.log
    | .body 0, ⟨k, _, h⟩ | .body 1, ⟨k, _, h⟩ => exact h.log
    | .dead e, ⟨k, h⟩ => exact h.log
  · subst hpos
    exact ⟨hsat.searched, hsat.rounds, hsat.reported⟩

omit [JsonAccess] [JsonWriter] in
theorem executeFTS_tokens_two :
    letI := JsonAccess.plain
    letI := JsonWriter.compact
    ∃ c, (executeFTS exampleHandle.options exampleWorld atPlusSearch).Reaches cancelCurrent
        (.start ⟨exampleHandle.session .new, ⟨0⟩⟩) c ∧
      c.st.ses.sent.map ClusterRequest.isSearch = [false, true, false, true] ∧
      EachAfter (NextSearch exampleHandle.options exampleWorld atPlusSearch) c.st.ses.sent := by
  let _ := JsonAccess.plain
  let _ := JsonWriter.compact
  let p := executeFTS exampleHandle.options exampleWorld atPlusSearch
  let c₀ : Config (OpState SearchVars) Crash := .start ⟨exampleHandle.session .new, ⟨0⟩⟩
  have hreach : p.Reaches cancelCurrent c₀ (p.run cancelCurrent (fun _ => false) c₀ 12) :=
    Prog.reaches_run _ _ _
  exact ⟨_, hreach, by decide +kernel,
    (executeFTS_tokens exampleHandle exampleWorld atPlusSearch .new atPlusSearch_consistency hreach).1⟩

end Search

end Sdkd
