import Sdkd.Accounts
import Sdkd.ItemRequests
import Sdkd.Lib.KeyValue
import Sdkd.Switch

/-!
# Documents

What the commands on whole documents do to a cluster that keeps documents by their ids: it answers a
request with an error exactly if it refuses the request, and no document expires. Each command comes to
the operation it is named after, on the document of each item the command goes through.

## Main definitions

- `ClusterRequest.storeOp` — what the cluster does on a request
- `commandOp` — what a command is for
- `Serves` — the cluster answers the requests as a store

## Main results

- `dsOperation_documents` — a command does to the documents of its items what it is for, and to no others
- `dsOperation_after` — what a second command finds behind one that wrote or deleted the documents
-/

namespace Sdkd

open LoopProg KeyValue

/-- What the cluster does on a request about a whole document. -/
def ClusterRequest.storeOp : ClusterRequest → Option (Op DocumentId String)
  | .get id | .touch id => some (.read id)
  | .upsert id value _ _ => some (.put id value)
  | .insert id value _ _ => some (.add id value)
  | .replace id value _ _ => some (.modify id fun _ => value)
  | .append id value => some (.modify id (· ++ value))
  | .prepend id value => some (.modify id (value ++ ·))
  | .remove id => some (.remove id)
  | _ => none

/-- The commands on a dataset that work on whole documents, but for the view load. -/
def Code.isPlain (code : Code) : Bool :=
  code.isLoad || code.isMutation || [Code.mcDsGet, .mcDsDelete, .mcDsTouch].contains code

theorem Code.isDsOperation_of_isPlain {code : Code} (hplain : code.isPlain = true)
    (hload : code.isLoad = false) : code.isDsOperation = true := by
  revert hplain hload
  cases code <;> decide

theorem Code.ne_viewLoad_of_isPlain {code : Code} (hplain : code.isPlain = true) : code ≠ .cbViewLoad := by
  rintro rfl
  exact absurd hplain (by decide)

/-- What a command is for: the operation on the document of an item with the value `value`. -/
def commandOp (code : Code) (id : DocumentId) (value : String) : Op DocumentId String :=
  match code with
  | .mcDsGet | .mcDsTouch => .read id
  | .mcDsDelete => .remove id
  | .mcDsMutateAdd => .add id value
  | .mcDsMutateReplace => .modify id fun _ => value
  | .mcDsMutateAppend => .modify id (· ++ value)
  | .mcDsMutatePrepend => .modify id (value ++ ·)
  | _ => .put id value

theorem commandOp_key (code : Code) (id : DocumentId) (value : String) :
    (commandOp code id value).key = id := by
  unfold commandOp
  split <;> rfl

/-- Whether a plain command succeeds on a document, by whether it is there. -/
def Code.succeedsOn (code : Code) (present : Bool) : Bool :=
  if code.isLoad || code == .mcDsMutateSet then true
  else if code == .mcDsMutateAdd then !present
  else present

theorem accepted_commandOp {code : Code} (hplain : code.isPlain = true) (id : DocumentId) (value : String)
    (st : Store DocumentId String) :
    (commandOp code id value).accepted st = code.succeedsOn (st id).isSome := by
  cases code <;> first
    | exact absurd hplain (by decide)
    | rfl
    | simp [commandOp, Code.succeedsOn, Code.isLoad]

/-- The documents are there behind a command that writes them and gone behind a deletion; the other
commands leave it as it was. -/
def Code.leaves (code : Code) : Option Bool :=
  if code.isLoad || code == .mcDsMutateSet || code == .mcDsMutateAdd then some true
  else if code == .mcDsDelete then some false
  else none

theorem isSome_apply_commandOp {code : Code} {present : Bool} (h : code.leaves = some present)
    (id : DocumentId) (value : String) (st : Store DocumentId String) :
    ((commandOp code id value).apply st id).isSome = present := by
  have hkey := (commandOp code id value).apply_key st
  rw [commandOp_key] at hkey
  rw [hkey]
  cases code <;> simp only [Code.leaves, Code.isLoad] at h <;> try cases h
  all_goals cases st id <;> simp [commandOp, Op.put, Op.add, Op.remove]

theorem Code.isPlain_of_leaves {code : Code} {present : Bool} (h : code.leaves = some present) :
    code.isPlain = true := by
  cases code <;> first
    | rfl
    | cases h

/-- The request of a command asks the cluster for what the command is for. -/
theorem storeOp_commandRequest {code : Code} (hplain : code.isPlain = true) (opts : ResultOptions)
    (id : DocumentId) (i : DatasetIterator) :
    ∃ r, commandRequest opts code id i = some r ∧ r.storeOp = some (commandOp code id i.curv) := by
  cases code <;> first
    | exact ⟨_, rfl, rfl⟩
    | exact absurd hplain (by decide)

/-- The documents behind the requests `sent`, in a cluster that kept `st` before. -/
def storeBehind (st : Store DocumentId String) (sent : List ClusterRequest) : Store DocumentId String :=
  run (sent.filterMap ClusterRequest.storeOp) st

/-- The cluster, which keeps `st`, answers the requests with an error where it refuses them and only
there. -/
def Serves (st : Store DocumentId String) (w : World) (sent : List ClusterRequest) : Prop :=
  (List.range sent.length).map (fun k => !(w.outcome k).isSet) =
    answers (sent.filterMap ClusterRequest.storeOp) st

/-- The first `n` items have different documents. -/
def DistinctDocuments {ι : Type*} (it : IterOps ι) (i₀ : ι) (o : HandleOptions) (n : ℕ) : Prop :=
  ∀ j < n, ∀ k < n, ∀ d d', addressed it i₀ o j = some d → addressed it i₀ o k = some d' →
    d.1 = d'.1 → j = k

section Documents

variable [JsonAccess] [JsonWriter] {o : HandleOptions} {ds : Dataset} {opts : ResultOptions} {code : Code}
  {m n : ℕ} {sent : List ClusterRequest} {st : Store DocumentId String} {w : World}

/-- The documents of the first `m` items, with the items. -/
def itemDocuments (o : HandleOptions) (ds : Dataset) (m : ℕ) : List (DocumentId × DatasetIterator) :=
  (List.range m).filterMap (addressed ds.getIter Dataset.newIterator o)

/-- If every item has a document, the list of documents numbers them as the dataset does. -/
theorem itemDocuments_eq (h : ∀ k < m, ∃ d, addressed ds.getIter Dataset.newIterator o k = some d) :
    (itemDocuments o ds m).map some = (List.range m).map (addressed ds.getIter Dataset.newIterator o) := by
  unfold itemDocuments
  induction m with
  | zero => rfl
  | succ m ih =>
    obtain ⟨d, hd⟩ := h m m.lt_succ_self
    rw [List.range_succ, List.filterMap_append, List.map_append, List.map_append,
      ih fun k hk => h k (Nat.lt_succ_of_lt hk)]
    simp [hd]

theorem getElem?_itemDocuments
    (h : ∀ k < m, ∃ d, addressed ds.getIter Dataset.newIterator o k = some d) {k : ℕ} (hk : k < m) :
    (itemDocuments o ds m)[k]? = addressed ds.getIter Dataset.newIterator o k := by
  have hget := congrArg (fun l => l[k]?) (itemDocuments_eq h)
  simp only [List.getElem?_map, List.getElem?_range hk, Option.map_some] at hget
  obtain ⟨d, hd⟩ := h k hk
  rw [hd] at hget ⊢
  simpa using hget

theorem length_itemDocuments
    (h : ∀ k < m, ∃ d, addressed ds.getIter Dataset.newIterator o k = some d) :
    (itemDocuments o ds m).length = m := by
  simpa using congrArg List.length (itemDocuments_eq h)

/-- The requests of a plain command are one for each item, and they ask for what the command is for. -/
theorem SentFor.storeOps (hplain : code.isPlain = true)
    (h : SentFor ds.getIter Dataset.newIterator o (commandRequest opts code) m sent) :
    sent.length = m ∧ sent.filterMap ClusterRequest.storeOp =
      (itemDocuments o ds m).map fun d => commandOp code d.1 d.2.curv := by
  have hdocs : ∀ k < m, ∃ d, addressed ds.getIter Dataset.newIterator o k = some d :=
    fun k hk => (h.documents k hk).imp fun d hd => hd.1
  -- the requests are those of the documents
  have hsent : sent = (itemDocuments o ds m).filterMap fun d => commandRequest opts code d.1 d.2 := by
    rw [h.requests, itemRequests, itemDocuments, List.filterMap_filterMap]
  have hrequest := storeOp_commandRequest hplain opts
  constructor
  · have hlen : ∀ l : List (DocumentId × DatasetIterator),
        (l.filterMap fun d => commandRequest opts code d.1 d.2).length = l.length := by
      intro l
      induction l with
      | nil => rfl
      | cons d l ih =>
        obtain ⟨r, hr, -⟩ := hrequest d.1 d.2
        simp [hr, ih]
    rw [hsent, hlen, length_itemDocuments hdocs]
  · rw [hsent, List.filterMap_filterMap, ← List.filterMap_eq_map]
    refine List.filterMap_congr fun d _ => ?_
    obtain ⟨r, hr, hop⟩ := hrequest d.1 d.2
    rw [hr, Option.bind_some, hop]
    rfl

/-- Different documents make operations with different keys. -/
theorem DistinctDocuments.nodup (h : DistinctDocuments ds.getIter Dataset.newIterator o m)
    (hdocs : ∀ k < m, ∃ d, addressed ds.getIter Dataset.newIterator o k = some d) :
    (((itemDocuments o ds m).map fun d => commandOp code d.1 d.2.curv).map Op.key).Nodup := by
  have hlen := length_itemDocuments hdocs
  rw [List.map_map, List.nodup_iff_injective_getElem]
  rintro ⟨j, hj⟩ ⟨k, hk⟩ heq
  simp only [List.length_map, hlen] at hj hk
  obtain ⟨d, hd⟩ := hdocs j hj
  obtain ⟨d', hd'⟩ := hdocs k hk
  have hget : ∀ {l : ℕ} {e : DocumentId × DatasetIterator} (hl : l < m),
      addressed ds.getIter Dataset.newIterator o l = some e →
      (itemDocuments o ds m)[l]? = some e := fun hl he => (getElem?_itemDocuments hdocs hl).trans he
  simp only [List.getElem_map, Function.comp_apply, commandOp_key,
    (List.getElem?_eq_some_iff.mp (hget hj hd)).2, (List.getElem?_eq_some_iff.mp (hget hk hd')).2] at heq
  exact Fin.ext (h j hj k hk d d' hd hd' heq)

/-- The answers to operations on different documents are those of the store before. -/
theorem SentFor.answered (hplain : code.isPlain = true)
    (h : SentFor ds.getIter Dataset.newIterator o (commandRequest opts code) m sent)
    (hserves : Serves st w sent) (hdistinct : DistinctDocuments ds.getIter Dataset.newIterator o m) :
    (List.range m).map (fun k => !(w.outcome k).isSet) =
      (itemDocuments o ds m).map fun d => (commandOp code d.1 d.2.curv).accepted st := by
  obtain ⟨hlen, hops⟩ := h.storeOps hplain
  have hnodup : (((itemDocuments o ds m).map fun d => commandOp code d.1 d.2.curv).map Op.key).Nodup :=
    hdistinct.nodup fun k hk => (h.documents k hk).imp fun d hd => hd.1
  unfold Serves at hserves
  rwa [hops, answers_eq_map hnodup, hlen, List.map_map] at hserves

/-- What the requests for the first `m` items have done to the documents, and what the cluster has answered:
to the document of each of these items what the command is for, to no other document anything. -/
structure Worked (o : HandleOptions) (ds : Dataset) (code : Code) (st : Store DocumentId String) (w : World)
    (sent : List ClusterRequest) (m : ℕ) : Prop where
  each : ∀ k < m, ∃ id i, addressed ds.getIter Dataset.newIterator o k = some (id, i) ∧
    ((w.outcome k).isSet = false ↔ (commandOp code id i.curv).accepted st = true) ∧
    storeBehind st sent id = (commandOp code id i.curv).apply st id
  others : ∀ id, (∀ k < m, ∀ i, addressed ds.getIter Dataset.newIterator o k ≠ some (id, i)) →
    storeBehind st sent id = st id

theorem SentFor.worked (hplain : code.isPlain = true)
    (h : SentFor ds.getIter Dataset.newIterator o (commandRequest opts code) m sent)
    (hserves : Serves st w sent) (hdistinct : DistinctDocuments ds.getIter Dataset.newIterator o m) :
    Worked o ds code st w sent m := by
  have hops := (h.storeOps hplain).2
  have hdocs : ∀ k < m, ∃ d, addressed ds.getIter Dataset.newIterator o k = some d :=
    fun k hk => (h.documents k hk).imp fun d hd => hd.1
  have hnodup : (((itemDocuments o ds m).map fun d => commandOp code d.1 d.2.curv).map Op.key).Nodup :=
    hdistinct.nodup hdocs
  refine ⟨fun k hk => ?_, fun id hid => ?_⟩
  · obtain ⟨⟨id, i⟩, hd⟩ := hdocs k hk
    have hget := (getElem?_itemDocuments hdocs hk).trans hd
    refine ⟨id, i, hd, ?_, ?_⟩
    · have hk' := congrArg (fun l => l[k]?) (h.answered hplain hserves hdistinct)
      simp only [List.getElem?_map, List.getElem?_range hk, hget, Option.map_some, Option.some.injEq] at hk'
      rw [← hk', Bool.not_eq_true']
    · unfold storeBehind
      rw [hops]
      have hmem : commandOp code id i.curv ∈ (itemDocuments o ds m).map fun d => commandOp code d.1 d.2.curv :=
        List.mem_map.mpr ⟨(id, i), List.mem_of_getElem? hget, rfl⟩
      have hkey := run_key hnodup hmem st
      rwa [commandOp_key] at hkey
  · unfold storeBehind
    rw [hops]
    refine run_frame fun op hop => ?_
    obtain ⟨⟨id', i⟩, hmem, rfl⟩ := List.mem_map.mp hop
    rw [commandOp_key]
    rintro rfl
    -- a document of the list is that of an item
    obtain ⟨k, hk, hget⟩ := List.mem_filterMap.mp hmem
    exact hid k (List.mem_range.mp hk) i hget

/-! ## The commands -/

variable {h : Handle} {req : Request} {op : Operation}

/-- A plain command that is no load records the outcomes of its requests in their order. -/
theorem dsOperation_recorded (hop : dsOperation h w req ds opts = some op)
    (hplain : req.command.code.isPlain = true) (hload : req.command.code.isLoad = false)
    (hleft : h.pending = []) {rs : ResultSet} {c : Config (OpState op.L) Crash}
    (hreach : op.prog.Reaches cancelCurrent (op.start (h.session rs)) c) (hpos : c.pos = .done)
    (hsmall : 0 < opts.iterwait ∨ c.rounds < 2 ^ 32) :
    c.st.ses.rs.recorded = (List.range c.rounds).map w.outcome := by
  cases dsOperation_kind hop with
  | items checks mk hchecks hmk hcode =>
    obtain ⟨hclosed, hcollected⟩ := ((dsOp_books hchecks fun _ i _ _ id => hmk id i).sound hreach
      ⟨hleft, rfl, rfl, rfl, rfl, rfl⟩).of_pos hpos
    have hnil := hclosed.pending_nil hcollected hsmall
    simpa [hnil, hclosed.count] using hclosed.books.outcomes
  | subdoc hcode => exact absurd hplain (by rw [hcode]; decide)
  | load hcode => exact absurd (Code.isDsOperation_of_isPlain hplain hload) (by simp [hcode])
  | viewLoad hcode => exact absurd hplain (by rw [hcode]; decide)

/-- **What a command does to the documents.** Let the cluster answer as a store that keeps `st`, and let
the items the command comes to have different documents. Then wherever an interleaving with the control
thread takes the command, it has done to the documents of the first `m` items, the ones gone through, what
it is for, and to no others anything; it records for each of them whether the store took the operation. -/
theorem dsOperation_documents (hop : dsOperation h w req ds opts = some op)
    (hplain : req.command.code.isPlain = true) (rs : ResultSet) {c : Config (OpState op.L) Crash}
    (hreach : op.prog.Reaches cancelCurrent (op.start (h.session rs)) c)
    (hserves : Serves st w c.st.ses.sent)
    (hdistinct : DistinctDocuments ds.getIter Dataset.newIterator h.options c.rounds) :
    (∃ m, m ≤ c.rounds ∧ c.rounds ≤ m + 1 ∧ (c.pos = .done → m = c.rounds) ∧
      Worked h.options ds req.command.code st w c.st.ses.sent m) ∧
    (c.pos = .done → req.command.code.isLoad = false → h.pending = [] →
      0 < opts.iterwait ∨ c.rounds < 2 ^ 32 →
      c.st.ses.rs.recorded.map (fun ec => !ec.isSet) =
        (itemDocuments h.options ds c.rounds).map fun d =>
          (commandOp req.command.code d.1 d.2.curv).accepted st) := by
  obtain ⟨⟨m, hle, hge, hsofar⟩, hreturned, -⟩ :=
    dsOperation_sends hop (Code.ne_viewLoad_of_isPlain hplain) rs hreach
  refine ⟨?_, fun hpos hload hleft hsmall => ?_⟩
  · by_cases hpos : c.pos = .done
    · exact ⟨c.rounds, le_rfl, Nat.le_succ _, fun _ => rfl,
        (hreturned hpos).worked hplain hserves hdistinct⟩
    · exact ⟨m, hle, hge, fun h => absurd h hpos, hsofar.worked hplain hserves
        fun j hj k hk => hdistinct j (hj.trans_le hle) k (hk.trans_le hle)⟩
  · rw [dsOperation_recorded hop hplain hload hleft hreach hpos hsmall, List.map_map]
    exact (hreturned hpos).answered hplain hserves hdistinct

/-- Only the items of the dataset have their requests sent. -/
theorem SentFor.le_of_hasItems (h : SentFor ds.getIter Dataset.newIterator o (commandRequest opts code) m sent)
    (hn : HasItems ds.getIter Dataset.newIterator n) : m ≤ n := by
  refine Nat.le_of_not_lt fun hlt => ?_
  obtain ⟨d, hd, hmore⟩ := h.documents n hlt
  rw [hn.ended d.2 (item_of_addressed hd).1] at hmore
  cases hmore

/-- **One command behind another.** Let a command that writes or deletes documents have gone through a
dataset of `n` items with different documents. Then every request of a second command on the same dataset,
in the cluster the first one left, succeeds or fails by whether the first one wrote or deleted, whenever the
second one is cancelled and however it batches; and so do all results it records. -/
theorem dsOperation_after {h₂ : Handle} {req₂ : Request} {opts₂ : ResultOptions} {op₂ : Operation}
    {w₂ : World} (hsame : h₂.options = h.options) (hop : dsOperation h w req ds opts = some op)
    (hop₂ : dsOperation h₂ w₂ req₂ ds opts₂ = some op₂) {present : Bool}
    (hleaves : req.command.code.leaves = some present) (hplain : req₂.command.code.isPlain = true)
    (hn : HasItems ds.getIter Dataset.newIterator n)
    (hdistinct : DistinctDocuments ds.getIter Dataset.newIterator h.options n) (rs rs₂ : ResultSet)
    {c : Config (OpState op.L) Crash} {c₂ : Config (OpState op₂.L) Crash}
    (hreach : op.prog.Reaches cancelCurrent (op.start (h.session rs)) c) (hpos : c.pos = .done)
    (hall : ¬ Excused req.command.code w h.pending c) (hserves : Serves st w c.st.ses.sent)
    (hreach₂ : op₂.prog.Reaches cancelCurrent (op₂.start (h₂.session rs₂)) c₂)
    (hserves₂ : Serves (storeBehind st c.st.ses.sent) w₂ c₂.st.ses.sent) :
    (∀ k < c₂.st.ses.sent.length,
      (w₂.outcome k).isSet = !req₂.command.code.succeedsOn present) ∧
    (c₂.pos = .done → req₂.command.code.isLoad = false → h₂.pending = [] →
      0 < opts₂.iterwait ∨ c₂.rounds < 2 ^ 32 → c₂.st.ses.rs.recorded.map (fun ec => !ec.isSet) =
        List.replicate c₂.rounds (req₂.command.code.succeedsOn present)) := by
  have hplain₁ := Code.isPlain_of_leaves hleaves
  -- the first command has gone through all `n` items
  have hsends := dsOperation_sends hop (Code.ne_viewLoad_of_isPlain hplain₁) rs hreach
  have hdone := hsends.returned hpos
  rw [hsends.complete hpos hall n hn] at hdone
  have hworked := hdone.worked hplain₁ hserves hdistinct
  have hpresent : ∀ k < n, ∀ id i, addressed ds.getIter Dataset.newIterator h.options k = some (id, i) →
      (storeBehind st c.st.ses.sent id).isSome = present := by
    intro k hk id i hd
    obtain ⟨id', i', hd', -, hstore⟩ := hworked.each k hk
    obtain ⟨rfl, rfl⟩ := Prod.mk.inj (Option.some.inj (hd.symm.trans hd'))
    rw [hstore]
    exact isSome_apply_commandOp hleaves id i.curv st
  -- the second one meets what the first one left
  have hsends₂ := dsOperation_sends hop₂ (Code.ne_viewLoad_of_isPlain hplain) rs₂ hreach₂
  have hmeets : ∀ m, SentFor ds.getIter Dataset.newIterator h₂.options
      (commandRequest opts₂ req₂.command.code) m c₂.st.ses.sent →
      ∀ k < m, (w₂.outcome k).isSet = !req₂.command.code.succeedsOn present := by
    intro m hsent k hk
    rw [hsame] at hsent
    have hle := hsent.le_of_hasItems hn
    have hworked₂ := hsent.worked hplain hserves₂ fun j hj k hk =>
      hdistinct j (hj.trans_le hle) k (hk.trans_le hle)
    obtain ⟨id, i, hd, hanswer, -⟩ := hworked₂.each k hk
    rw [accepted_commandOp hplain, hpresent k (hk.trans_le hle) id i hd] at hanswer
    cases hout : (w₂.outcome k).isSet with
    | false => rw [hanswer.mp hout]; rfl
    | true =>
      cases hsucceeds : req₂.command.code.succeedsOn present with
      | false => rfl
      | true => simp [hanswer.mpr hsucceeds] at hout
  refine ⟨?_, fun hpos₂ hload hleft hsmall => ?_⟩
  · obtain ⟨m, -, -, hsent⟩ := hsends₂.sofar
    rw [(hsent.storeOps hplain).1]
    exact hmeets m hsent
  · rw [dsOperation_recorded hop₂ hplain hload hleft hreach₂ hpos₂ hsmall, List.map_map,
      List.eq_replicate_iff]
    refine ⟨by simp, fun b hb => ?_⟩
    obtain ⟨k, hk, rfl⟩ := List.mem_map.mp hb
    simp [hmeets c₂.rounds (hsends₂.returned hpos₂) k (List.mem_range.mp hk)]

end Documents

section Examples

def exampleSet : Request := ⟨1, 1, ⟨"MC_DS_MUTATE_SET", .mcDsMutateSet⟩, .null, .success⟩

/-- A dataset of two documents. -/
def twoDocuments : Dataset :=
  ⟨.success, .inline (.array [.array [.string "key1", .string "a"], .array [.string "key2", .string "b"]])⟩

def exampleSetOperation : Operation :=
  ⟨_, @dsMutate _ (@Dataset.getIter JsonAccess.plain JsonWriter.compact twoDocuments)
    exampleHandle.options exampleWorld .default .mcDsMutateSet, ⟨Dataset.newIterator, ("", ""), ()⟩⟩

/-- The set of the two documents behind its last step. -/
def exampleSetDone : Config (OpState exampleSetOperation.L) Crash :=
  exampleSetOperation.prog.run cancelCurrent (fun _ => false)
    (exampleSetOperation.start (exampleHandle.session .new)) 29

theorem exampleSet_operation :
    @dsOperation JsonAccess.plain JsonWriter.compact exampleHandle exampleWorld exampleSet twoDocuments .default =
      some exampleSetOperation := rfl

theorem exampleSet_distinct : @DistinctDocuments _
    (@Dataset.getIter JsonAccess.plain JsonWriter.compact twoDocuments) Dataset.newIterator
    exampleHandle.options 2 := by
  intro j hj k hk d d' hd hd' heq
  match j, hj, k, hk with
  | 0, _, 0, _ | 1, _, 1, _ => rfl
  | 0, _, 1, _ | 1, _, 0, _ =>
    obtain rfl := Option.some.inj hd
    obtain rfl := Option.some.inj hd'
    exact absurd heq (by decide)

theorem exampleSet_serves : Serves (fun _ => none) exampleWorld exampleSetDone.st.ses.sent := by
  unfold Serves
  decide +kernel

/-- Two documents set in an empty cluster, which takes both. -/
theorem dsOperation_documents_set :
    letI := JsonAccess.plain
    letI := JsonWriter.compact
    exampleSetDone.pos = .done ∧ (∃ m, m ≤ 2 ∧ 2 ≤ m + 1 ∧ (exampleSetDone.pos = .done → m = 2) ∧
      Worked exampleHandle.options twoDocuments .mcDsMutateSet (fun _ => none) exampleWorld
        exampleSetDone.st.ses.sent m) ∧
    exampleSetDone.st.ses.rs.recorded.map (fun ec => !ec.isSet) =
      (itemDocuments exampleHandle.options twoDocuments 2).map fun d =>
        (commandOp .mcDsMutateSet d.1 d.2.curv).accepted fun _ => none := by
  let := JsonAccess.plain
  let := JsonWriter.compact
  have hpos : exampleSetDone.pos = .done := by decide +kernel
  obtain ⟨hworked, hrecorded⟩ := dsOperation_documents exampleSet_operation rfl .new
    (Prog.reaches_run (fun _ => false) _ 29) exampleSet_serves exampleSet_distinct
  exact ⟨hpos, hworked, hrecorded hpos rfl rfl (.inr (show 2 < 2 ^ 32 by decide))⟩

def exampleGetOperation : Operation :=
  ⟨_, @dsGet _ (@Dataset.getIter JsonAccess.plain JsonWriter.compact twoDocuments)
    exampleHandle.options exampleWorld .default, ⟨Dataset.newIterator, ("", ""), ()⟩⟩

def exampleGetDone : Config (OpState exampleGetOperation.L) Crash :=
  exampleGetOperation.prog.run cancelCurrent (fun _ => false)
    (exampleGetOperation.start (exampleHandle.session .new)) 28

theorem twoDocuments_hasItems :
    letI := JsonAccess.plain
    letI := JsonWriter.compact
    HasItems twoDocuments.getIter Dataset.newIterator 2 := by
  let := JsonAccess.plain
  let := JsonWriter.compact
  have hitem : twoDocuments.getIter.item Dataset.newIterator 0 = .ok ⟨0, "key1", "a", "", ""⟩ ∧
      twoDocuments.getIter.item Dataset.newIterator 1 = .ok ⟨1, "key2", "b", "", ""⟩ ∧
      twoDocuments.getIter.item Dataset.newIterator 2 = .ok ⟨2, "", "b", "", ""⟩ := by
    decide +kernel
  obtain ⟨hfirst, hsecond, hend⟩ := hitem
  refine ⟨fun k hk => ?_, fun k hk i hi => ?_, fun i hi => ?_⟩
  · match k, hk with
    | 0, _ => exact ⟨_, hfirst⟩
    | 1, _ => exact ⟨_, hsecond⟩
    | 2, _ => exact ⟨_, hend⟩
  · obtain rfl | rfl : k = 0 ∨ k = 1 := by omega
    · obtain rfl := Except.ok.inj (hfirst.symm.trans hi)
      rfl
    · obtain rfl := Except.ok.inj (hsecond.symm.trans hi)
      rfl
  · obtain rfl := Except.ok.inj (hend.symm.trans hi)
    rfl

theorem exampleSet_notExcused :
    ¬ Excused .mcDsMutateSet exampleWorld exampleHandle.pending exampleSetDone := by
  show ¬ exampleSetDone.st.ses.doCancel = true
  decide +kernel

theorem exampleGet_serves : Serves (storeBehind (fun _ => none) exampleSetDone.st.ses.sent) exampleWorld
    exampleGetDone.st.ses.sent := by
  unfold Serves
  decide +kernel

theorem exampleGet_operation :
    @dsOperation JsonAccess.plain JsonWriter.compact exampleHandle exampleWorld exampleGet twoDocuments .default =
      some exampleGetOperation := rfl

/-- A get behind the set of the same documents. -/
theorem dsOperation_after_set : exampleGetDone.st.ses.sent.length = 2 ∧
    ∀ k < exampleGetDone.st.ses.sent.length, (exampleWorld.outcome k).isSet = !true := by
  let := JsonAccess.plain
  let := JsonWriter.compact
  exact ⟨by decide +kernel, (dsOperation_after rfl exampleSet_operation exampleGet_operation rfl rfl
    twoDocuments_hasItems exampleSet_distinct .new .new (Prog.reaches_run (fun _ => false) _ 29)
    (by decide +kernel) exampleSet_notExcused exampleSet_serves (Prog.reaches_run (fun _ => false) _ 28)
    exampleGet_serves).1⟩

end Examples

end Sdkd
