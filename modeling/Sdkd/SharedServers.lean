import Sdkd.DocumentServer
import Sdkd.SharedCluster

/-!
# Workers that serve documents together

The workers of the daemon go through their runs at the same time, and one cluster answers what they ask for.
A worker whose documents are its own serves them as if the cluster were its own too.

## Main definitions

- `WorkerDispatch.Asks` — what a call asks the cluster for, with the answers
- `WorkerDispatch.AskingTurn` — a turn of a worker, before any cluster

## Main results

- `WorkerDispatch.AskingTurn.alone` — a turn that is answered as by a store is one before a cluster of its own
- `WorkerDispatch.serve_documents_together` — workers with documents of their own do not disturb each other
-/

namespace Sdkd

open IOProtoHandler LoopProg KeyValue

namespace WorkerDispatch

section Calls

variable [JsonAccess] [JsonWriter] {env : WorkerEnv} {md : MainDispatch} {req : Request} {n : ℕ}
  {before : Option Handle} {asked : History DocumentId String} {st : Store DocumentId String}

/-- The operations of requests, each with whether the request is answered without an error. -/
def askedFor (w : World) (sent : List ClusterRequest) : History DocumentId String :=
  (sent.filterMap ClusterRequest.storeOp).zip ((List.range sent.length).map fun k => !(w.outcome k).isSet)

/-- What a call asks the cluster for: nothing, or what an operation on whole documents asks for if the call runs
one. No error has the text "success". -/
inductive Asks (env : WorkerEnv) (before : Option Handle) (md : MainDispatch) (req : Request) (n : ℕ) :
    History DocumentId String → Prop
  | runs {h : Handle} {op : Operation} (hh : before = some h) (hruns : Runs h env.world md req op)
      (hplain : req.command.code.isPlain = true)
      (htexts : ∀ k, (env.world.outcome k).isSet = true → (env.world.outcome k).message ≠ "success") :
      Asks env before md req n (askedFor env.world
        (op.prog.run cancelCurrent env.sched (op.start (h.session .new)) n).st.ses.sent)
  | quiet (hno : ∀ h op, before = some h → ¬ Runs h env.world md req op) : Asks env before md req n []

/-- Every request of a plain command is for an operation on a document. -/
theorem Runs.length_storeOps {h : Handle} {op : Operation} (hruns : Runs h env.world md req op)
    (hplain : req.command.code.isPlain = true) {c : Config (OpState op.L) Crash}
    (hreach : op.prog.Reaches cancelCurrent (op.start (h.session .new)) c) :
    (c.st.ses.sent.filterMap ClusterRequest.storeOp).length = c.st.ses.sent.length := by
  obtain ⟨-, t, ds, -, -, hop⟩ | ⟨hno, -⟩ := hruns.cases
  · obtain ⟨m, -, -, hsent⟩ := (dsOperation_sends hop (Code.ne_viewLoad_of_isPlain hplain) .new hreach).sofar
    obtain ⟨hlen, hops⟩ := hsent.storeOps hplain
    rw [hops, List.length_map, hlen, length_itemDocuments fun k hk => (hsent.documents k hk).imp fun d hd => hd.1]
  · rw [Code.needsDs_of_isPlain hplain] at hno
    cases hno

/-- A call that is answered as by a store goes along with a cluster that keeps documents. -/
theorem Asks.keeps (h : Asks env before md req n asked) (hst : Legal asked st) :
    Keeps env before md req n st (run (asked.map Prod.fst) st) := by
  cases h with
  | @runs h op hh hruns hplain htexts =>
    generalize hc : op.prog.run cancelCurrent env.sched (op.start (h.session .new)) n = c at hst ⊢
    have hreach : op.prog.Reaches cancelCurrent (op.start (h.session .new)) c := hc ▸ Prog.reaches_run _ _ n
    have hlen := Runs.length_storeOps hruns hplain hreach
    have hops : (askedFor env.world c.st.ses.sent).map Prod.fst =
        c.st.ses.sent.filterMap ClusterRequest.storeOp := List.map_fst_zip (by simp [hlen])
    have hanswers : (askedFor env.world c.st.ses.sent).map Prod.snd =
        (List.range c.st.ses.sent.length).map fun k => !(env.world.outcome k).isSet :=
      List.map_snd_zip (by simp [hlen])
    rw [Legal, hops, hanswers] at hst
    rw [hops]
    subst hc
    exact Keeps.runs hh hruns hplain htexts hst
  | quiet hno => exact .quiet hno

end Calls

section Runs

variable [JsonAccess] [JsonReader] [JsonWriter]

/-- A worker, what it sees of the daemon, and what it has asked the cluster for so far. -/
structure Client where
  wd : WorkerDispatch
  md : MainDispatch
  asked : History DocumentId String

/-- It before a cluster of its own that kept `st`. -/
def Client.site (s : Client) (st : Store DocumentId String) : Site := ⟨s.wd, s.md, run (s.asked.map Prod.fst) st⟩

/-- A turn of the loop, or a CANCEL between two turns; the rest of the daemon changes as it likes. -/
inductive AskingTurn : Client → Option (List Char) → Client → Prop
  | turn {wd wd' : WorkerDispatch} {md md' : MainDispatch} {asked new : History DocumentId String} {t : WorkerTurn}
      (hturn : wd.selectLoop t = .returned (true, wd', md)) (hidle : wd.inputLine t = none → new = [])
      (hcall : ∀ l, wd.inputLine t = some l →
        Asks t.env wd.curHandle t.md (Request.decode t.junk (String.ofList l)) t.steps new ∧
        Counted t.env wd t.md (Request.decode t.junk (String.ofList l)) t.steps) :
      AskingTurn ⟨wd, t.md, asked⟩ (wd.inputLine t) ⟨wd', md', asked ++ new⟩
  | cancel (wd : WorkerDispatch) (md md' : MainDispatch) (asked : History DocumentId String) :
      AskingTurn ⟨wd, md, asked⟩ none ⟨wd.cancelCurrentHandle, md', asked⟩

variable {s s' : Client} {line : Option (List Char)} {st : Store DocumentId String}

theorem AskingTurn.asked_append (h : AskingTurn s line s') : ∃ new, s'.asked = s.asked ++ new := by
  cases h with
  | turn => exact ⟨_, rfl⟩
  | cancel => exact ⟨[], (List.append_nil _).symm⟩

/-- A turn that is answered as by a store is one before a cluster of its own. -/
theorem AskingTurn.alone (h : AskingTurn s line s') (hst : Legal s'.asked st) :
    DocumentTurn (s.site st) line (s'.site st) := by
  cases h with
  | @turn wd wd' _ md' asked new t hturn hidle hcall =>
    have hnew := (legal_append.mp hst).2
    have hsite : run ((asked ++ new).map Prod.fst) st = run (new.map Prod.fst) (run (asked.map Prod.fst) st) := by
      rw [List.map_append, run_append]
    rw [Client.site, Client.site, hsite]
    refine .turn hturn (fun hnone => ?_) fun l hl => ⟨(hcall l hl).1.keeps hnew, (hcall l hl).2⟩
    rw [hidle hnone]
    rfl
  | cancel wd md md' asked => exact .cancel wd md md' _

/-- So is every turn of a run. -/
theorem isRun_alone {s₀ : Client} {n : ℕ} {states : ℕ → Client} {lines : ℕ → Option (List Char)}
    (hrun : IsRun AskingTurn s₀ n states lines) (hst : Legal (states n).asked st) :
    IsRun DocumentTurn (s₀.site st) n (fun k => (states k).site st) lines := by
  have hlegal : ∀ k ≤ n, Legal (states k).asked st := by
    intro k hk
    induction hk using Nat.decreasingInduction with
    | self => exact hst
    | of_succ k hk ih =>
      obtain ⟨new, hnew⟩ := (hrun.turn k hk).asked_append
      rw [hnew] at ih
      exact (legal_append.mp ih).1
  exact ⟨congrArg (Client.site · st) hrun.start, fun k hk => (hrun.turn k hk).alone (hlegal (k + 1) hk)⟩

end Runs

section Together

variable [JsonAccess] [JsonReader] [JsonWriter] {τ : Type*} [DecidableEq τ]

/-- **Workers serve documents together.** Let several workers with no futures left go through any runs, with a
CANCEL at any moment, and let one cluster, which keeps documents, get what all of them ask for in any order. If
the documents each of them asks for are its own, then its run is one of a plain server of its own, which keeps
of these documents what the cluster keeps, and no other documents change. -/
theorem serve_documents_together {s₀ : τ → Client} {n : τ → ℕ} {states : τ → ℕ → Client}
    {lines : τ → ℕ → Option (List Char)} {log : List (τ × Op DocumentId String × Bool)}
    {st : Store DocumentId String} {K : τ → Set DocumentId}
    (hdrained : ∀ i, (s₀ i).wd.Drained) (hnothing : ∀ i, (s₀ i).asked = [])
    (hrun : ∀ i, IsRun AskingTurn (s₀ i) (n i) (states i) (lines i))
    (horder : ∀ i, ofParty i log = (states i (n i)).asked) (hlegal : Legal (log.map Prod.snd) st)
    (hown : ∀ i, ∀ e ∈ (states i (n i)).asked, e.1.key ∈ K i)
    (hdisjoint : ∀ i j, i ≠ j → ∀ id ∈ K i, id ∉ K j) :
    (∀ i, ∃ rs ops,
      ServedAs ⟨(s₀ i).wd, (s₀ i).md, st⟩ (n i) (fun k => (states i k).site st) (lines i) rs ops ∧
      Set.EqOn (run ((partyOps log).map Prod.snd) st) (run ((List.range (n i)).flatMap ops) st) (K i)) ∧
    ∀ id, (∀ i, id ∉ K i) → run ((partyOps log).map Prod.snd) st id = st id := by
  have hkey : ∀ i op, (i, op) ∈ partyOps log → op.key ∈ K i := by
    intro i op hop
    obtain ⟨⟨j, op', b⟩, hmem, heq⟩ := List.mem_map.mp hop
    obtain ⟨rfl, rfl⟩ : j = i ∧ op' = op := Prod.mk.inj heq
    exact hown j _ (horder j ▸ mem_ofParty.mpr hmem)
  refine ⟨fun i => ?_, fun id hid => run_frame fun op hop => ?_⟩
  · have howns : Owns i (K i) (partyOps log) := .of_disjoint hkey hdisjoint i
    have halone := isRun_alone (hrun i) (horder i ▸ howns.legal hlegal)
    have hfirst : (s₀ i).site st = ⟨(s₀ i).wd, (s₀ i).md, st⟩ := by
      rw [Client.site, hnothing i]
      rfl
    rw [hfirst] at halone
    obtain ⟨rs, ops, hserved⟩ := exists_servedAs (hdrained i) halone
    refine ⟨rs, ops, hserved, ?_⟩
    -- the server keeps what the worker has asked for
    have hdocs : run ((states i (n i)).asked.map Prod.fst) st = run ((List.range (n i)).flatMap ops) st :=
      hserved.docs (n i) le_rfl
    rw [← hdocs, ← horder i, ← ofParty_map]
    exact howns.run_eqOn (Set.eqOn_refl st _)
  · obtain ⟨⟨i, op'⟩, hmem, rfl⟩ := List.mem_map.mp hop
    rintro rfl
    exact hid i (hkey i op' hmem)

end Together

section Examples

/-- A line that asks for a plain command, before a worker whose handle is open. -/
theorem askingTurn_of_line [JsonAccess] [JsonReader] [JsonWriter] {env : WorkerEnv} {req : Request} {n : ℕ}
    {op : Operation} {line : String} {c : Char} {cs : List Char} (hline : line.toList = c :: cs)
    (hbreak : '\n' ∉ line.toList) (hdecode : Request.decode exampleJunk line = req) (hvalid : req.isValid = true)
    (hplain : req.command.code.isPlain = true) (hruns : Runs exampleHandle env.world (.new []) req op)
    (htexts : ∀ k, (env.world.outcome k).isSet = true → (env.world.outcome k).message ≠ "success")
    {d : Config (OpState op.L) Crash}
    (hd : op.prog.run cancelCurrent env.sched (op.start (exampleHandle.session .new)) n = d) (hpos : d.pos = .done)
    (hroot : (d.st.ses.rs.resultsJson (MainDispatch.new []).pFactor).toOption.isSome = true)
    (hcounted : Counted env exampleWorker (.new []) req n) :
    ∃ wd md, AskingTurn ⟨exampleWorker, .new [], []⟩ (some line.toList)
      ⟨wd, md, askedFor env.world d.st.ses.sent⟩ := by
  subst hdecode
  obtain ⟨hinput, io, -, -, hselect⟩ := arrivingTurn_selectLoop exampleWorker waiting_fresh hline hbreak hvalid
    env n
  have hh : ({ exampleWorker with io := io } : WorkerDispatch).curHandle = some exampleHandle := rfl
  obtain ⟨wd, md, hcall⟩ := processRequest_returns hvalid hplain hh hruns hd hpos hroot
  have hasks : Asks env exampleWorker.curHandle (.new []) (Request.decode exampleJunk line) n
      (askedFor env.world d.st.ses.sent) := by
    subst hd
    exact .runs rfl hruns hplain htexts
  have hturn : AskingTurn ⟨exampleWorker, .new [], []⟩ (exampleWorker.inputLine (arrivingTurn line env n))
      ⟨wd, md, [] ++ askedFor env.world d.st.ses.sent⟩ := by
    refine .turn (hselect.trans hcall) (fun hnone => ?_) fun l hl => ?_
    · rw [hinput] at hnone
      cases hnone
    · obtain rfl := Option.some.inj (hinput.symm.trans hl)
      rw [String.ofList_toList]
      exact ⟨hasks, hcounted⟩
  rw [hinput] at hturn
  exact ⟨wd, md, hturn⟩

/-- A GET of another document. -/
def exampleGetLine : String :=
  "\x7b\"Command\":\"MC_DS_GET\",\"ReqID\":1,\"Handle\":1,\"CommandData\":\x7b" ++
    "\"DSType\":\"DSTYPE_INLINE\",\"DS\":\x7b\"Items\":[[\"key3\",\"c\"]]\x7d\x7d\x7d"

def exampleGetOne : Request :=
  ⟨1, 1, ⟨"MC_DS_GET", .mcDsGet⟩, .object [("DSType", .string "DSTYPE_INLINE"),
    ("DS", .object [("Items", .array [.array [.string "key3", .string "c"]])])], .success⟩

/-- A reader that knows both lines. -/
@[reducible] def exampleBothReader : JsonReader where
  parse := fun str =>
    if str = exampleGetLine then
      .ok (.object [("Command", .string "MC_DS_GET"), ("ReqID", .int 1), ("Handle", .int 1),
        ("CommandData", exampleGetOne.payload)])
    else exampleSetReader.parse str

def exampleGetOneDone : Config (OpState exampleGetThird.L) Crash :=
  exampleGetThird.prog.run cancelCurrent (fun _ => false) (exampleGetThird.start (exampleHandle.session .new)) 18

/-- The worker `true` asks for a document that is not there, and the worker `false` sets another one. -/
def exampleLine (i : Bool) : String := if i then exampleGetLine else exampleSetLine

def exampleAsked (i : Bool) : History DocumentId String :=
  if i then askedFor emptyWorld exampleGetOneDone.st.ses.sent
  else askedFor exampleWorld exampleSetOneDone.st.ses.sent

theorem exampleAsked_turn (i : Bool) :
    letI := JsonAccess.plain
    letI := JsonWriter.compact
    letI := exampleBothReader
    ∃ wd md, AskingTurn ⟨exampleWorker, .new [], []⟩ (some (exampleLine i).toList) ⟨wd, md, exampleAsked i⟩ := by
  let := JsonAccess.plain
  let := JsonWriter.compact
  let := exampleBothReader
  cases i with
  | true =>
    have hline : exampleGetLine.toList = '\x7b' :: exampleGetLine.toList.tail := by decide +kernel
    have hruns : Runs exampleHandle emptyWorld (.new []) exampleGetOne exampleGetThird :=
      ⟨.inline, thirdDocument, rfl, rfl, rfl⟩
    have hdone : exampleGetThird.prog.run cancelCurrent (fun _ => false)
        (exampleGetThird.start (exampleHandle.session .new)) 18 = exampleGetOneDone := rfl
    have htext : "document_not_found" ≠ "success" := by decide
    have hcounted : Counted { exampleWorkerEnv .success with world := emptyWorld } exampleWorker (.new [])
        exampleGetOne 18 := by
      intro h t ds op _ hds _ _
      obtain rfl : thirdDocument = ds := congrArg Prod.snd (Except.ok.inj (Except.ok.inj hds))
      exact .inr (.inl ⟨rfl, by decide⟩)
    exact askingTurn_of_line hline (by decide +kernel) rfl rfl rfl hruns (fun _ _ => htext) hdone
      (by decide +kernel) (by decide +kernel) hcounted
  | false =>
    have hline : exampleSetLine.toList = '\x7b' :: exampleSetLine.toList.tail := by decide +kernel
    have hruns : Runs exampleHandle exampleWorld (.new []) exampleSetOne exampleSetOneOperation :=
      ⟨.inline, oneInline, rfl, rfl, rfl⟩
    have hdone : exampleSetOneOperation.prog.run cancelCurrent (fun _ => false)
        (exampleSetOneOperation.start (exampleHandle.session .new)) 19 = exampleSetOneDone := rfl
    have htexts : ∀ k, (exampleWorld.outcome k).isSet = true → (exampleWorld.outcome k).message ≠ "success" :=
      fun _ hset => by cases hset
    have hcounted : Counted (exampleWorkerEnv .success) exampleWorker (.new []) exampleSetOne 19 := by
      intro h t ds op _ hds _ _
      obtain rfl : oneInline = ds := congrArg Prod.snd (Except.ok.inj (Except.ok.inj hds))
      exact .inr (.inl ⟨rfl, by decide⟩)
    exact askingTurn_of_line hline (by decide +kernel) rfl rfl rfl hruns htexts hdone
      (by decide +kernel) (by decide +kernel) hcounted

/-- The get reaches the cluster first. -/
def exampleHistory : List (Bool × Op DocumentId String × Bool) :=
  (exampleAsked true).map (Prod.mk true) ++ (exampleAsked false).map (Prod.mk false)

theorem ofParty_exampleHistory (i : Bool) : ofParty i exampleHistory = exampleAsked i := by
  have hcomp : ∀ i j : Bool, (fun e : Bool × Op DocumentId String × Bool => if e.1 = i then some e.2 else none) ∘
      Prod.mk j = fun c => if j = i then some c else none := fun _ _ => rfl
  simp only [exampleHistory, ofParty, List.filterMap_append, List.filterMap_map, hcomp]
  cases i <;> simp only [reduceIte, reduceCtorEq, List.filterMap_some, List.filterMap_none, List.append_nil,
    List.nil_append]

/-- The documents of the two workers. -/
def exampleDocuments (i : Bool) : Set DocumentId := {id | id.key = if i then "key3" else "key1"}

theorem serve_documents_together_two :
    letI := JsonAccess.plain
    letI := JsonWriter.compact
    letI := exampleBothReader
    ∃ states : Bool → ℕ → Client,
      (∀ i, ∃ rs ops, ServedAs ⟨exampleWorker, .new [], fun _ => none⟩ 1 (fun k => (states i k).site fun _ => none)
        (fun _ => some (exampleLine i).toList) rs ops ∧
        Set.EqOn (run ((partyOps exampleHistory).map Prod.snd) fun _ => none)
          (run ((List.range 1).flatMap ops) fun _ => none) (exampleDocuments i)) ∧
      run ((partyOps exampleHistory).map Prod.snd) (fun _ => none) ⟨"default", "_default", "_default", "key1"⟩ =
        some "a" := by
  let := JsonAccess.plain
  let := JsonWriter.compact
  let := exampleBothReader
  choose wd md hturn using exampleAsked_turn
  have hdrained : exampleWorker.Drained := by
    intro h hh
    rw [← Option.some.inj hh]
    rfl
  have hasked : ∀ i, ∀ e ∈ exampleAsked i, e.1.key.key = if i then "key3" else "key1" := by decide +kernel
  have hown : ∀ i, ∀ e ∈ exampleAsked i, e.1.key ∈ exampleDocuments i := hasked
  have hkeys : ∀ i j : Bool, (if i then "key3" else "key1") = (if j then "key3" else "key1") → i = j := by decide
  have hdisjoint : ∀ i j, i ≠ j → ∀ id ∈ exampleDocuments i, id ∉ exampleDocuments j :=
    fun i j hij _ hi hj => hij (hkeys i j (Eq.trans (Eq.symm hi) hj))
  have hlegal : Legal (exampleHistory.map Prod.snd) fun _ => none := by
    unfold Legal
    decide +kernel
  refine ⟨fun i k => if k = 0 then ⟨exampleWorker, .new [], []⟩ else ⟨wd i, md i, exampleAsked i⟩, ?_,
    by decide +kernel⟩
  exact (serve_documents_together (fun _ => hdrained) (fun _ => rfl) (fun i => isRun_one (hturn i))
    ofParty_exampleHistory hlegal hown hdisjoint).1

end Examples

end WorkerDispatch

end Sdkd
