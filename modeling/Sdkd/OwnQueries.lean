import Sdkd.Lib.Clause
import Sdkd.Lib.Words
import Sdkd.Operation
import Sdkd.Pairing
import Sdkd.RequestLog
import Sdkd.Schema

/-!
# Documents that satisfy their own queries

An iteration of the N1QL operation stores a document with a field for each parameter and then, with a
secondary index, asks for the documents whose fields have just these values. The document is built by
assignments, the conditions are written side by side.

## Main definitions

- `iterationPairs` — the names and the values of an iteration
- `OwnQuery` — the document satisfies the conditions, and the clause consists of these
- `ConsistentParams` — the condition for it on the parameters

## Main results

- `ownQuery_iff` — in every run, for every iteration
-/

namespace Sdkd

open LoopProg Clause

section Pairs

variable [JsonAccess] (hid : ℕ) (req : Request) (ii : ℕ)

/-- The vector `params`. -/
def paramNames : List String :=
  Dataset.split (asString (req.payload.get "NQParam")) ++ ["handleid", "unique_id"]

/-- The vector `paramValues` in the iteration `ii`, which is counted in an `int`. -/
def paramValues : List String :=
  Dataset.split (asString (req.payload.get "NQParamValues")) ++ [toString hid, toString (toInt ii)]

def iterationPairs : List (String × String) := (paramNames req).zip (paramValues hid req ii)

/-- The document the iteration stores. -/
def iterationDoc : Json :=
  Dataset.assignPairs (Json.null.set "id" (.string (toString hid))) (iterationPairs hid req ii)

/-- The pairs the client has named. -/
def clientPairs : List (String × String) :=
  (Dataset.split (asString (req.payload.get "NQParam"))).zip
    (Dataset.split (asString (req.payload.get "NQParamValues")))

variable (G : Grammar)

/-- The clause consists of the equations of the iteration and of nothing else, and the document satisfies
each of them. -/
def OwnQuery (doc : Json) (clause : String) : Prop :=
  (∀ es, G.Parses es clause.toList ↔
      es = (iterationPairs hid req ii).map fun e => (e.1.toList, e.2.toList)) ∧
    ∀ e ∈ iterationPairs hid req ii, doc.get e.1 = .string e.2

/-- Each name is a name of the query language and has one value, which the operation's own names share, and no
value needs to be escaped. -/
structure ConsistentParams : Prop where
  single : ∀ e ∈ clientPairs req, ∀ e' ∈ clientPairs req, e.1 = e'.1 → e.2 = e'.2
  handleid : ∀ v, ("handleid", v) ∈ clientPairs req → v = toString hid
  unique_id : ∀ v, ("unique_id", v) ∈ clientPairs req → v = toString (toInt ii)
  names : ∀ e ∈ clientPairs req, G.IsName e.1.toList
  plain : ∀ e ∈ clientPairs req, '"' ∉ e.2.toList ∧ '\\' ∉ e.2.toList

variable {hid req ii G}

theorem iterationPairs_eq (hlen : (Dataset.split (asString (req.payload.get "NQParam"))).length =
      (Dataset.split (asString (req.payload.get "NQParamValues"))).length) :
    iterationPairs hid req ii =
      clientPairs req ++ [("handleid", toString hid), ("unique_id", toString (toInt ii))] := by
  rw [iterationPairs, paramNames, paramValues, List.zip_append hlen]
  rfl

omit [JsonAccess] in
/-- The clause is the rendering of its equations. -/
theorem whereClause_toList (pairs : List (String × String)) :
    (whereClause pairs).toList = render (pairs.map fun e => (e.1.toList, e.2.toList)) := by
  induction pairs with
  | nil => rfl
  | cons e pairs ih =>
    obtain ⟨p, v⟩ := e
    cases pairs with
    | nil => simp [whereClause, render]
    | cons e pairs =>
      have hmore : whereClause ((p, v) :: e :: pairs) =
          p ++ "=\"" ++ v ++ "\" " ++ " and " ++ whereClause (e :: pairs) := rfl
      rw [hmore, String.toList_append, ih]
      simp [render]

omit [JsonAccess] in
/-- A number is plain. -/
theorem plain_toString (x : ℤ) : Plain (toString x).toList := by
  exact ⟨fun h => absurd (Words.toString_int_chars x _ h) (by decide),
    fun h => absurd (Words.toString_int_chars x _ h) (by decide)⟩

/-- A name of the operation has its value, whoever gives it, so no name has two. -/
theorem ConsistentParams.value_unique (h : ConsistentParams hid req ii G) {e e' : String × String}
    (he : e ∈ clientPairs req ++ [("handleid", toString hid), ("unique_id", toString (toInt ii))])
    (he' : e' ∈ clientPairs req ++ [("handleid", toString hid), ("unique_id", toString (toInt ii))])
    (heq : e.1 = e'.1) : e.2 = e'.2 := by
  have hown : ∀ e ∈ clientPairs req ++ [("handleid", toString hid), ("unique_id", toString (toInt ii))],
      (e.1 = "handleid" → e.2 = toString hid) ∧ (e.1 = "unique_id" → e.2 = toString (toInt ii)) := by
    simp only [List.forall_mem_append, List.forall_mem_cons]
    refine ⟨?_, by simp, by simp, by simp⟩
    rintro ⟨p, v⟩ hmem
    exact ⟨fun hp => h.handleid v (hp ▸ hmem), fun hp => h.unique_id v (hp ▸ hmem)⟩
  have hclient : ∀ e ∈ clientPairs req ++ [("handleid", toString hid), ("unique_id", toString (toInt ii))],
      e ∈ clientPairs req ∨ e = ("handleid", toString hid) ∨ e = ("unique_id", toString (toInt ii)) := by
    simp
  rcases hclient e he with hc | rfl | rfl
  · rcases hclient e' he' with hc' | rfl | rfl
    · exact h.single e hc e' hc' heq
    · exact (hown e he).1 heq
    · exact (hown e he).2 heq
  · exact ((hown e' he').1 heq.symm).symm
  · exact ((hown e' he').2 heq.symm).symm

/-- The names of the operation and their values are just right; the others are up to the client. -/
theorem iterationPairs_consistent (hhandle : G.IsName "handleid".toList)
    (hunique : G.IsName "unique_id".toList)
    (hlen : (Dataset.split (asString (req.payload.get "NQParam"))).length =
      (Dataset.split (asString (req.payload.get "NQParamValues"))).length) :
    ((∀ e ∈ iterationPairs hid req ii, G.IsName e.1.toList ∧ Plain e.2.toList) ∧
      ∀ e ∈ iterationPairs hid req ii, ∀ e' ∈ iterationPairs hid req ii, e.1 = e'.1 → e.2 = e'.2) ↔
    ConsistentParams hid req ii G := by
  rw [iterationPairs_eq hlen]
  constructor
  · rintro ⟨hwritten, hsingle⟩
    have hleft : ∀ e ∈ clientPairs req,
        e ∈ clientPairs req ++ [("handleid", toString hid), ("unique_id", toString (toInt ii))] :=
      fun e he => List.mem_append_left _ he
    exact {
      single := fun e he e' he' => hsingle e (hleft e he) e' (hleft e' he')
      handleid := fun v hv => hsingle _ (hleft _ hv) ("handleid", toString hid) (by simp) rfl
      unique_id := fun v hv => hsingle _ (hleft _ hv) ("unique_id", toString (toInt ii)) (by simp) rfl
      names := fun e he => (hwritten e (hleft e he)).1
      plain := fun e he => (hwritten e (hleft e he)).2 }
  · intro h
    refine ⟨?_, fun e he e' he' heq => h.value_unique he he' heq⟩
    simp only [List.forall_mem_append, List.forall_mem_cons]
    exact ⟨fun e he => ⟨h.names e he, h.plain e he⟩, ⟨hhandle, plain_toString hid⟩,
      ⟨hunique, plain_toString (toInt ii)⟩, by simp⟩

/-- The conditions on the parameters, without those on the run. -/
theorem ownQuery_pairs_iff (hhandle : G.IsName "handleid".toList)
    (hunique : G.IsName "unique_id".toList)
    (hlen : (Dataset.split (asString (req.payload.get "NQParam"))).length =
      (Dataset.split (asString (req.payload.get "NQParamValues"))).length) :
    OwnQuery hid req ii G (iterationDoc hid req ii) (whereClause (iterationPairs hid req ii)) ↔
      ConsistentParams hid req ii G := by
  rw [← iterationPairs_consistent hhandle hunique hlen, OwnQuery, whereClause_toList]
  refine and_congr ?_ ?_
  · rw [Grammar.parses_render_iff (by rw [iterationPairs_eq hlen]; simp)]
    simp only [List.forall_mem_map]
  · rw [← Assignments.assigned_of_mem_iff]
    refine forall₂_congr fun e he => ?_
    obtain ⟨v, hv⟩ := Assignments.exists_assigned (k := e.1) (v := e.2) he
    rw [iterationDoc, Dataset.get_assignPairs, hv]
    simp

end Pairs

/-! ## The run -/

section Run

variable [JsonAccess] [JsonWriter] (o : HandleOptions) (hid : ℕ) (w : World) (req : Request)

/-- The request `insertDoc` sends in the iteration. -/
def Stores (ii : ℕ) (r : ClusterRequest) : Prop :=
  ∃ id, r = .upsert id (JsonWriter.write (iterationDoc hid req ii)) 0 0

/-- The query of the iteration. -/
def Queries (ii : ℕ) (r : ClusterRequest) : Prop :=
  ∃ tokens, r = n1qlRequest o w req ⟨ii, paramNames req, paramValues hid req ii, tokens⟩

/-- The requests by number: a document and a query in turn. -/
def TakesTurns (k : ℕ) (r : ClusterRequest) : Prop :=
  if k % 2 = 0 then Stores hid req (k / 2) r else Queries o hid w req (k / 2) r

/-- What holds at a control position. -/
def n1qlAssertion (pos : Pos Crash) (_ : ℕ) (s : OpState N1QLVars) : Prop :=
  match pos with
  | .pre _ | .test | .body 0 | .body (_ + 4) =>
    s.loc.params = paramNames req ∧ (∃ jj, s.loc.paramValues = paramValues hid req jj) ∧
      Logs (TakesTurns o hid w req) (2 * s.loc.ii) s.ses.sent
  | .body 1 =>
    s.loc.params = paramNames req ∧ s.loc.paramValues = paramValues hid req s.loc.ii ∧
      Logs (TakesTurns o hid w req) (2 * s.loc.ii) s.ses.sent
  | .body 2 | .body 3 =>
    s.loc.params = paramNames req ∧ s.loc.paramValues = paramValues hid req s.loc.ii ∧
      Logs (TakesTurns o hid w req) (2 * s.loc.ii + 1) s.ses.sent
  | .post _ | .done | .dead _ => ∃ n, Logs (TakesTurns o hid w req) n s.ses.sent

variable {o hid w req} {s : OpState N1QLVars}

omit [JsonWriter] in
theorem setUniqueId_values (jj ii : ℕ) :
    (paramValues hid req jj).dropLast ++ [toString (toInt ii)] = paramValues hid req ii := by
  simp [paramValues]

omit [JsonWriter] in
/-- The lists are walked to the end. -/
theorem pairParams_iteration (hlen : (Dataset.split (asString (req.payload.get "NQParam"))).length =
      (Dataset.split (asString (req.payload.get "NQParamValues"))).length) (ii : ℕ) :
    Dataset.pairParams (Json.null.set "id" (.string (toString hid))) (paramNames req)
      (paramValues hid req ii) = .ok (iterationDoc hid req ii) := by
  refine Dataset.pairParams_eq ?_ _
  rw [paramNames, paramValues, List.length_append, List.length_append, hlen]
  simp

theorem takesTurns_even {ii : ℕ} {r : ClusterRequest} :
    TakesTurns o hid w req (2 * ii) r ↔ Stores hid req ii r := by
  rw [TakesTurns, if_pos (Nat.mul_mod_right 2 ii), Nat.mul_div_cancel_left ii (by decide)]

theorem takesTurns_odd {ii : ℕ} {r : ClusterRequest} :
    TakesTurns o hid w req (2 * ii + 1) r ↔ Queries o hid w req ii r := by
  rw [TakesTurns, if_neg (by omega), show (2 * ii + 1) / 2 = ii by omega]

theorem insertDoc_stores {n : ℕ}
    (hlen : (Dataset.split (asString (req.payload.get "NQParam"))).length =
      (Dataset.split (asString (req.payload.get "NQParamValues"))).length)
    (h : n1qlAssertion o hid w req (.body 1) n s) :
    (insertDoc o hid w s).Establishes (n1qlAssertion o hid w req · n) (.body 1) (.body 2) s := by
  obtain ⟨hparams, hvalues, hlog⟩ := h
  unfold insertDoc
  rw [hparams, hvalues, pairParams_iteration hlen]
  dsimp only
  split
  · exact ⟨_, hlog⟩
  · exact ⟨hparams, hvalues, hlog.snoc (takesTurns_even.mpr ⟨_, rfl⟩)⟩

theorem queryN1QL_queries {n : ℕ} (h : n1qlAssertion o hid w req (.body 3) n s) :
    (queryN1QL o w req s).Establishes (n1qlAssertion o hid w req · n) (.body 3) (.body 4) s := by
  obtain ⟨hparams, hvalues, hlog⟩ := h
  refine ⟨hparams, ⟨_, hvalues⟩, hlog.snoc (takesTurns_odd.mpr ⟨s.loc.mutationTokens, ?_⟩)⟩
  rw [← hparams, ← hvalues]

/-- The assertions form a proof outline of the operation. -/
theorem executeN1QL_outline
    (hlen : (Dataset.split (asString (req.payload.get "NQParam"))).length =
      (Dataset.split (asString (req.payload.get "NQParamValues"))).length) :
    (executeN1QL o hid w req).Outline cancelCurrent (n1qlAssertion o hid w req) where
  action := by
    intro here there a n s ha h
    match here, h with
    | .pre 0, h =>
      cases ha
      exact h
    | .pre 1, h =>
      cases ha
      exact h
    | .body 0, ⟨hparams, ⟨jj, hvalues⟩, hlog⟩ =>
      cases ha
      refine ⟨hparams, ?_, hlog⟩
      simp only [hvalues, setUniqueId_values]
    | .body 1, h =>
      cases ha
      exact insertDoc_stores hlen h
    | .body 2, h =>
      cases ha
      exact h
    | .body 3, h =>
      cases ha
      exact queryN1QL_queries h
  pre_end := fun _ _ _ _ h => h
  enter := fun _ _ _ h => h
  leave := fun _ _ _ h => ⟨_, h.2.2⟩
  body_end := by
    intro k n s hk h
    obtain ⟨k, rfl⟩ := Nat.exists_eq_add_of_le' hk
    exact h
  post_end := fun _ _ _ _ h => h
  stable := by
    intro pos n s h
    match pos, h with
    | .pre _, h | .test, h | .body 0, h | .body (_ + 4), h => exact h
    | .body 1, h | .body 2, h | .body 3, h => exact h
    | .post _, h | .done, h | .dead _, h => exact h

/-- The requests of a run wherever it stands. -/
theorem executeN1QL_logs
    (hlen : (Dataset.split (asString (req.payload.get "NQParam"))).length =
      (Dataset.split (asString (req.payload.get "NQParamValues"))).length)
    {ses : Session} (hses : ses.sent = []) {c : Config (OpState N1QLVars) Crash}
    (hc : (executeN1QL o hid w req).Reaches cancelCurrent (.start ⟨ses, .start hid req⟩) c) :
    ∃ n, Logs (TakesTurns o hid w req) n c.st.ses.sent := by
  have hstart : (Config.start ⟨ses, .start hid req⟩ : Config (OpState N1QLVars) Crash).Satisfies
      (n1qlAssertion o hid w req) := by
    refine ⟨rfl, ⟨0, rfl⟩, ?_⟩
    show Logs _ _ ses.sent
    rw [hses]
    exact .nil
  have hsat := (executeN1QL_outline hlen).sound hc hstart
  unfold Config.Satisfies at hsat
  match c.pos, hsat with
  | .pre _, h | .test, h | .body 0, h | .body (_ + 4), h => exact ⟨_, h.2.2⟩
  | .body 1, h | .body 2, h | .body 3, h => exact ⟨_, h.2.2⟩
  | .post _, h | .done, h | .dead _, h => exact h

/-- The statement up to the clause. -/
def n1qlSource (o : HandleOptions) : String :=
  if o.useCollections then "select * from `0`" else "select * from `" ++ o.bucket ++ "`"

/-- **Own queries.** In every run with a secondary index and as many values as names, each iteration stores its
document and asks with its clause; the document satisfies the clause, and the clause consists of the
conditions meant, if and only if the parameters are consistent. -/
theorem ownQuery_iff (G : Grammar) (hhandle : G.IsName "handleid".toList)
    (hunique : G.IsName "unique_id".toList) (h : Handle) (w : World) (req : Request) (rs : ResultSet)
    (hlen : (Dataset.split (asString (req.payload.get "NQParam"))).length =
      (Dataset.split (asString (req.payload.get "NQParamValues"))).length)
    (hindex : asString (req.payload.get "NQIndexType") = "secondary")
    (c : Config (OpState N1QLVars) Crash)
    (hc : (executeN1QL h.options h.hid w req).Reaches cancelCurrent
      (.start ⟨h.session rs, .start h.hid req⟩) c) (ii : ℕ) :
    (∀ r ∈ c.st.ses.sent[2 * ii]?,
      ∃ id, r = .upsert id (JsonWriter.write (iterationDoc h.hid req ii)) 0 0) ∧
    (∀ r ∈ c.st.ses.sent[2 * ii + 1]?, ∃ adhoc flex scope consistency,
      r = .query h.options.bucket
        (n1qlSource h.options ++ " where " ++ whereClause (iterationPairs h.hid req ii))
        adhoc flex scope consistency) ∧
    (OwnQuery h.hid req ii G (iterationDoc h.hid req ii) (whereClause (iterationPairs h.hid req ii)) ↔
      ConsistentParams h.hid req ii G) := by
  have hsent : (h.session rs).sent = [] := rfl
  obtain ⟨n, hlogs⟩ := executeN1QL_logs hlen hsent hc
  refine ⟨fun r hr => takesTurns_even.mp (hlogs.each _ _ hr), fun r hr => ?_,
    ownQuery_pairs_iff hhandle hunique hlen⟩
  obtain ⟨tokens, rfl⟩ := takesTurns_odd.mp (hlogs.each _ _ hr)
  have hstatement : n1qlStatement h.options req ⟨ii, paramNames req, paramValues h.hid req ii, tokens⟩ =
      n1qlSource h.options ++ " where " ++ whereClause (iterationPairs h.hid req ii) := by
    rw [n1qlStatement, if_pos hindex]
    rfl
  unfold n1qlRequest
  rw [hstatement]
  exact ⟨_, _, _, _, rfl⟩

end Run

section Examples

/-- Names of letters, digits and underscores, and the escape sequences of two characters. -/
def identifiers : Grammar where
  IsName := fun p => ∀ c ∈ p, c.isAlphanum ∨ c = '_'
  Escape := fun e cs => ∃ x ∈ twoCharEscapes, e = [x.2] ∧ cs = [x.1]
  name_chars := by
    intro p hp c hc
    refine ⟨?_, ?_⟩ <;> rintro rfl <;> exact absurd (hp _ hc) (by decide)
  escape_quote := by
    have hall : ∀ x ∈ twoCharEscapes, '"' ∈ [x.2] → [x.1] = ['"'] := by decide
    rintro e cs ⟨x, hx, rfl, rfl⟩
    exact hall x hx
  escape_length := by
    rintro e cs ⟨x, -, rfl, rfl⟩
    exact le_rfl

/-- A query with a secondary index. -/
def exampleN1QL (names values : String) : Request :=
  ⟨1, 1, ⟨"CB_N1QL_QUERY", .cbN1qlQuery⟩,
    .object [("NQParam", .string names), ("NQParamValues", .string values),
      ("NQIndexType", .string "secondary")], .success⟩

theorem ownQuery_iff_one :
    letI := JsonAccess.plain
    letI := JsonWriter.compact
    ∃ c, (executeN1QL exampleHandle.options 1 exampleWorld (exampleN1QL "name" "ann")).Reaches
        cancelCurrent (.start ⟨exampleHandle.session .new, .start 1 (exampleN1QL "name" "ann")⟩) c ∧
      c.st.ses.sent.length = 2 ∧
      (OwnQuery 1 (exampleN1QL "name" "ann") 0 identifiers (iterationDoc 1 (exampleN1QL "name" "ann") 0)
          (whereClause (iterationPairs 1 (exampleN1QL "name" "ann") 0)) ↔
        ConsistentParams 1 (exampleN1QL "name" "ann") 0 identifiers) := by
  let _ := JsonAccess.plain
  let _ := JsonWriter.compact
  let p := executeN1QL exampleHandle.options 1 exampleWorld (exampleN1QL "name" "ann")
  let c₀ : Config (OpState N1QLVars) Crash :=
    .start ⟨exampleHandle.session .new, .start 1 (exampleN1QL "name" "ann")⟩
  have hreach : p.Reaches cancelCurrent c₀ (p.run cancelCurrent (fun _ => false) c₀ 8) :=
    Prog.reaches_run _ _ _
  refine ⟨_, hreach, by decide +kernel, ?_⟩
  have hhandle : ∀ c ∈ "handleid".toList, c.isAlphanum ∨ c = '_' := by simp
  have hunique : ∀ c ∈ "unique_id".toList, c.isAlphanum ∨ c = '_' := by simp
  exact (ownQuery_iff identifiers hhandle hunique exampleHandle exampleWorld
    (exampleN1QL "name" "ann") .new (by decide) rfl _ hreach 0).2.2

/-- A name that is given twice: the document has the second value, and the clause asks for both. -/
theorem sameName_not_ownQuery :
    letI := JsonAccess.plain
    letI := JsonWriter.compact
    let req := exampleN1QL "name,name" "ann,bob"
    (Dataset.split (asString (req.payload.get "NQParam"))).length =
      (Dataset.split (asString (req.payload.get "NQParamValues"))).length ∧
    ∃ c, (executeN1QL exampleHandle.options 1 exampleWorld req).Reaches cancelCurrent
        (.start ⟨exampleHandle.session .new, .start 1 req⟩) c ∧
      c.st.ses.sent = [
        .upsert ⟨"default", "_default", "_default", "1"⟩ (JsonWriter.write (iterationDoc 1 req 0)) 0 0,
        .query "default" ("select * from `default` where name=\"ann\"  and name=\"bob\"  and " ++
          "handleid=\"1\"  and unique_id=\"0\" ") true false none .notBounded] ∧
      ∀ G, ¬ OwnQuery 1 req 0 G (iterationDoc 1 req 0) (whereClause (iterationPairs 1 req 0)) := by
  intro req
  let _ := JsonAccess.plain
  let _ := JsonWriter.compact
  refine ⟨by decide, _, Prog.reaches_run (fun _ => false) _ 8, by decide +kernel, fun G hown => ?_⟩
  have hfirst := hown.2 ("name", "ann") (by decide)
  have hassigned : Assignments.assigned (iterationPairs 1 req 0) "name" = some "bob" := by decide
  rw [iterationDoc, Dataset.get_assignPairs, hassigned] at hfirst
  exact absurd (Json.string.inj hfirst) (by decide)

end Examples

end Sdkd
