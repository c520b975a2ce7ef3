import Sdkd.Documents
import Sdkd.Lib.SharedStore

/-!
# Workers that share a cluster

The requests of several workers reach one cluster in some order. Commands on different documents do not notice
each other.

## Main definitions

- `logOps` — the operations of the requests of all workers, in the order in which the cluster gets them
- `Shared` — the cluster answers all of them as one store

## Main results

- `dsOperations_together` — each command does to its documents what it would do alone
-/

namespace Sdkd

open LoopProg KeyValue

variable {τ : Type*}

/-- The operations of the requests of all workers. -/
def logOps (log : List (τ × ClusterRequest)) : List (τ × Op DocumentId String) :=
  log.filterMap fun e => e.2.storeOp.map (Prod.mk e.1)

theorem map_snd_logOps (log : List (τ × ClusterRequest)) :
    (logOps log).map Prod.snd = (log.map Prod.snd).filterMap ClusterRequest.storeOp := by
  rw [logOps, List.map_filterMap, List.filterMap_map]
  refine List.filterMap_congr fun e _ => ?_
  rw [Function.comp_apply, Option.map_map]
  exact Option.map_id'

variable [DecidableEq τ]

theorem ofParty_logOps (i : τ) (log : List (τ × ClusterRequest)) :
    ofParty i (logOps log) = (ofParty i log).filterMap ClusterRequest.storeOp := ofParty_filterMap _ i log

/-- The cluster, which keeps `st`, gets the requests `sent` of all workers in the order of `log`, and answers
each of them with an error where it refuses it and only there. -/
structure Shared (st : Store DocumentId String) (w : τ → World) (log : List (τ × ClusterRequest))
    (sent : τ → List ClusterRequest) : Prop where
  order : ∀ i, ofParty i log = sent i
  answers : ∀ i, (List.range (sent i).length).map (fun k => !((w i).outcome k).isSet) =
    answersTo i (logOps log) st

section Own

variable {st : Store DocumentId String} {w : τ → World} {log : List (τ × ClusterRequest)}
  {sent : τ → List ClusterRequest} {i : τ} {K : Set DocumentId}

/-- A worker whose documents are its own is answered as if it were alone. -/
theorem Shared.serves (h : Shared st w log sent) (howns : Owns i K (logOps log)) :
    Serves st (w i) (sent i) := by
  rw [Serves, h.answers i, howns.answersTo_eq (Set.eqOn_refl st K), ofParty_logOps, h.order i]

/-- Its documents are then as it has made them. -/
theorem Shared.storeBehind_eqOn (h : Shared st w log sent) (howns : Owns i K (logOps log)) :
    Set.EqOn (storeBehind st (log.map Prod.snd)) (storeBehind st (sent i)) K := by
  have heq := howns.run_eqOn (Set.eqOn_refl st K)
  rwa [map_snd_logOps, ofParty_logOps, h.order i] at heq

end Own

/-! ## Commands at the same time -/

section Commands

variable [JsonAccess] [JsonWriter]

/-- A plain command of a worker, wherever an interleaving with the control thread has taken it. -/
structure Running where
  handle : Handle
  world : World
  req : Request
  ds : Dataset
  opts : ResultOptions
  op : Operation
  rs : ResultSet
  config : Config (OpState op.L) Crash
  selects : dsOperation handle world req ds opts = some op
  plain : req.command.code.isPlain = true
  reached : op.prog.Reaches cancelCurrent (op.start (handle.session rs)) config

namespace Running

/-- The document of an item, with the item. -/
def document (r : Running) (k : ℕ) : Option (DocumentId × DatasetIterator) :=
  addressed r.ds.getIter Dataset.newIterator r.handle.options k

/-- The documents of the items the command has come to. -/
def documents (r : Running) : Set DocumentId := {id | ∃ k < r.config.rounds, ∃ i, r.document k = some (id, i)}

def sent (r : Running) : List ClusterRequest := r.config.st.ses.sent

/-- Every operation asked for is on a document of an item. -/
theorem key_mem_documents (r : Running) {op : Op DocumentId String}
    (hop : op ∈ r.sent.filterMap ClusterRequest.storeOp) : op.key ∈ r.documents := by
  have hview := Code.ne_viewLoad_of_isPlain r.plain
  obtain ⟨m, hle, -, hsent⟩ := (dsOperation_sends r.selects hview r.rs r.reached).sofar
  rw [sent, (hsent.storeOps r.plain).2] at hop
  obtain ⟨⟨id, i⟩, hmem, rfl⟩ := List.mem_map.mp hop
  obtain ⟨k, hk, hd⟩ := List.mem_filterMap.mp hmem
  rw [commandOp_key]
  exact ⟨k, (List.mem_range.mp hk).trans_le hle, i, hd⟩

end Running

variable {τ : Type*} [DecidableEq τ] {r : τ → Running} {st : Store DocumentId String}
  {log : List (τ × ClusterRequest)}

/-- The items that all commands have come to have different documents. -/
def Separate (r : τ → Running) : Prop :=
  ∀ i j, ∀ k < (r i).config.rounds, ∀ l < (r j).config.rounds, ∀ d d', (r i).document k = some d →
    (r j).document l = some d' → d.1 = d'.1 → i = j ∧ k = l

theorem Separate.owns (h : Separate r) (hshared : Shared st (fun i => (r i).world) log fun i => (r i).sent) (i : τ) :
    Owns i (r i).documents (logOps log) := by
  refine Owns.of_disjoint (K := fun i => (r i).documents) (fun j op hop => (r j).key_mem_documents ?_) ?_ i
  · rw [← hshared.order j, ← ofParty_logOps]
    exact mem_ofParty.mpr hop
  · rintro i j hij id ⟨k, hk, d, hd⟩ ⟨l, hl, d', hd'⟩
    exact hij (h i j k hk l hl _ _ hd hd' rfl).1

/-- The command `r`, which began in a cluster that kept `st`, has done what it would do alone: to the documents of
the items it has gone through what it is for, and in the end it records which of them the store took. -/
structure Undisturbed (r : Running) (st behind : Store DocumentId String) : Prop where
  worked : ∃ m, m ≤ r.config.rounds ∧ r.config.rounds ≤ m + 1 ∧ ∀ k < m, ∃ id d,
    r.document k = some (id, d) ∧
    ((r.world.outcome k).isSet = false ↔ (commandOp r.req.command.code id d.curv).accepted st = true) ∧
    behind id = (commandOp r.req.command.code id d.curv).apply st id
  recorded : r.config.pos = .done → r.req.command.code.isLoad = false → r.handle.pending = [] →
    0 < r.opts.iterwait ∨ r.config.rounds < 2 ^ 32 →
    r.config.st.ses.rs.recorded.map (fun ec => !ec.isSet) =
      (itemDocuments r.handle.options r.ds r.config.rounds).map fun d =>
        (commandOp r.req.command.code d.1 d.2.curv).accepted st

/-- **Commands at the same time.** Let the plain commands of several workers be anywhere in their runs, and let
one cluster, which keeps documents, have got their requests in any order. If the items they have come to have
different documents, then no command is disturbed by the others, and no other documents have changed. -/
theorem dsOperations_together (hshared : Shared st (fun i => (r i).world) log fun i => (r i).sent)
    (hseparate : Separate r) :
    (∀ i, Undisturbed (r i) st (storeBehind st (log.map Prod.snd))) ∧
    ∀ id, (∀ i, id ∉ (r i).documents) → storeBehind st (log.map Prod.snd) id = st id := by
  refine ⟨fun i => ?_, fun id hid => ?_⟩
  · have howns := hseparate.owns hshared i
    have hdistinct : DistinctDocuments (r i).ds.getIter Dataset.newIterator (r i).handle.options
        (r i).config.rounds := fun j hj k hk d d' hd hd' heq => (hseparate i i j hj k hk d d' hd hd' heq).2
    have hserves := hshared.serves howns
    have hsends := dsOperation_sends (r i).selects (Code.ne_viewLoad_of_isPlain (r i).plain) (r i).rs (r i).reached
    refine ⟨?_, fun hpos hload hleft hsmall => ?_⟩
    · obtain ⟨m, hle, hge, hsent⟩ := hsends.sofar
      refine ⟨m, hle, hge, fun k hk => ?_⟩
      have hworked := hsent.worked (r i).plain hserves fun j hj k hk =>
        hdistinct j (hj.trans_le hle) k (hk.trans_le hle)
      obtain ⟨id, d, hd, hanswer, hstore⟩ := hworked.each k hk
      -- the cluster has the document as the command has made it
      have hshown := hshared.storeBehind_eqOn howns ⟨k, hk.trans_le hle, d, hd⟩
      exact ⟨id, d, hd, hanswer, hshown.trans hstore⟩
    · rw [dsOperation_recorded (r i).selects (r i).plain hload hleft (r i).reached hpos hsmall, List.map_map]
      exact (hsends.returned hpos).answered (r i).plain hserves hdistinct
  · rw [storeBehind, ← map_snd_logOps]
    refine run_frame fun op hop => ?_
    obtain ⟨⟨i, op'⟩, hmem, rfl⟩ := List.mem_map.mp hop
    rintro rfl
    exact hid i ((hseparate.owns hshared i).own op' hmem)

end Commands

section Examples

def thirdDocument : Dataset := ⟨.success, .inline (.array [.array [.string "key3", .string "c"]])⟩

/-- A cluster in which nothing is found. -/
def emptyWorld : World := { exampleWorld with outcome := fun _ => ⟨101, "document_not_found"⟩ }

def exampleGetThird : Operation :=
  ⟨_, @dsGet _ (@Dataset.getIter JsonAccess.plain JsonWriter.compact thirdDocument)
    exampleHandle.options emptyWorld .default, ⟨Dataset.newIterator, ("", ""), ()⟩⟩

/-- One worker sets two documents, and another one asks for a third. -/
def exampleRunning (i : Bool) : @Running JsonAccess.plain JsonWriter.compact :=
  letI := JsonAccess.plain
  letI := JsonWriter.compact
  if i then
    { handle := exampleHandle
      world := emptyWorld
      req := exampleGet
      ds := thirdDocument
      opts := .default
      op := exampleGetThird
      rs := .new
      config := exampleGetThird.prog.run cancelCurrent (fun _ => false)
        (exampleGetThird.start (exampleHandle.session .new)) 18
      selects := rfl
      plain := rfl
      reached := Prog.reaches_run _ _ 18 }
  else
    { handle := exampleHandle
      world := exampleWorld
      req := exampleSet
      ds := twoDocuments
      opts := .default
      op := exampleSetOperation
      rs := .new
      config := exampleSetDone
      selects := exampleSet_operation
      plain := rfl
      reached := Prog.reaches_run _ _ 29 }

/-- The get reaches the cluster between the two upserts. -/
def exampleLog : List (Bool × ClusterRequest) :=
  letI := JsonAccess.plain
  letI := JsonWriter.compact
  ((exampleRunning false).sent.take 1).map (Prod.mk false) ++ (exampleRunning true).sent.map (Prod.mk true) ++
    ((exampleRunning false).sent.drop 1).map (Prod.mk false)

theorem exampleLog_shared :
    letI := JsonAccess.plain
    letI := JsonWriter.compact
    Shared (fun _ => none) (fun i => (exampleRunning i).world) exampleLog fun i => (exampleRunning i).sent := by
  let := JsonAccess.plain
  let := JsonWriter.compact
  refine ⟨fun i => ?_, fun i => ?_⟩
  · have hcomp : ∀ i j : Bool, (fun e : Bool × ClusterRequest => if e.1 = i then some e.2 else none) ∘ Prod.mk j =
        fun c => if j = i then some c else none := fun _ _ => rfl
    simp only [exampleLog, ofParty, List.filterMap_append, List.filterMap_map, hcomp]
    cases i <;> simp only [reduceIte, reduceCtorEq, List.filterMap_some, List.filterMap_none, List.append_nil,
      List.nil_append, List.take_append_drop]
  · cases i <;> decide +kernel

theorem exampleRunning_separate :
    letI := JsonAccess.plain
    letI := JsonWriter.compact
    Separate exampleRunning := by
  let := JsonAccess.plain
  let := JsonWriter.compact
  have hkey : ∀ i, ∀ k < (exampleRunning i).config.rounds,
      ((exampleRunning i).document k).map (fun d => d.1.key) =
        some (if i then "key3" else if k = 0 then "key1" else "key2") := by
    intro i
    cases i <;> decide +kernel
  have hrounds : ∀ i, (exampleRunning i).config.rounds = if i then 1 else 2 := by decide +kernel
  intro i j k hk l hl d d' hd hd' heq
  have hi := hkey i k hk
  have hj := hkey j l hl
  rw [hd, Option.map_some] at hi
  rw [hd', Option.map_some, ← heq, hi] at hj
  rw [hrounds] at hk hl
  grind

theorem dsOperations_together_two :
    letI := JsonAccess.plain
    letI := JsonWriter.compact
    (∀ i, (exampleRunning i).config.pos = .done) ∧
    (∀ i, Undisturbed (exampleRunning i) (fun _ => none) (storeBehind (fun _ => none) (exampleLog.map Prod.snd))) ∧
    storeBehind (fun _ => none) (exampleLog.map Prod.snd) ⟨"default", "_default", "_default", "key2"⟩ =
      some "b" := by
  let := JsonAccess.plain
  let := JsonWriter.compact
  exact ⟨by decide +kernel, (dsOperations_together exampleLog_shared exampleRunning_separate).1,
    by decide +kernel⟩

end Examples

end Sdkd
