import Mathlib.Data.Int.CardIntervalMod
import Sdkd.Documents
import Sdkd.KeyNumbers

/-!
# How the items are spread over the collections

The number of a key is the one its last three characters give. Where the keys of a dataset end in the index of
their items, and this stands apart from what is before it, the documents go to the collections in turn. The view
load, which looks its keys up a batch at a time, is left out.

## Main definitions

- `Dataset.KeysEndInIndex` — such datasets
- `Spread` — documents that are spread evenly over the collections

## Main results

- `hasNumber_of_apart` — the number of a key that ends in an index
- `dsOperation_spread` — what a command on such a dataset does
-/

namespace Sdkd

open LoopProg

/-! ## Keys that end in an index -/

section Keys

variable {l : List Char} {k : ℕ}

theorem digitsValue_toString (k : ℕ) : digitsValue (toString k).toList = k := by
  show Nat.ofDigitChars 10 (Nat.repr k).toList 0 = k
  rw [Nat.toList_repr]
  exact Nat.ofDigitChars_ten_toDigits

/-- The last digits are the rest modulo a power of ten. -/
theorem digitsValue_drop {ds : List Char} (h : ∀ c ∈ ds, c.isDigit = true) {n : ℕ} (hn : n ≤ ds.length) :
    digitsValue (ds.drop (ds.length - n)) = digitsValue ds % 10 ^ n := by
  have hlen : (ds.drop (ds.length - n)).length = n := by
    rw [List.length_drop]
    omega
  have hlt : digitsValue (ds.drop (ds.length - n)) < (0 + 1) * 10 ^ (ds.drop (ds.length - n)).length :=
    foldl_digits_lt (fun c hc => h c (List.mem_of_mem_drop hc)) 0
  have hsplit : digitsValue ds =
      10 ^ n * digitsValue (ds.take (ds.length - n)) + digitsValue (ds.drop (ds.length - n)) := by
    calc digitsValue ds = digitsValue (ds.take (ds.length - n) ++ ds.drop (ds.length - n)) := by
          rw [List.take_append_drop]
      _ = Nat.ofDigitChars 10 (ds.drop (ds.length - n)) (digitsValue (ds.take (ds.length - n))) :=
          Nat.ofDigitChars_append 0
      _ = _ := by
          rw [Nat.ofDigitChars_eq_ofDigitChars_zero, hlen]
          rfl
  rw [hlen, Nat.zero_add, Nat.one_mul] at hlt
  rw [hsplit, Nat.mul_add_mod, Nat.mod_eq_of_lt hlt]

/-- An index behind this text stands apart: neither of the last two characters is a digit. -/
def Apart (l : List Char) : Prop := ∀ c ∈ l.drop (l.length - 2), c.isDigit = false

theorem apart_nil : Apart [] := nofun

theorem Apart.append (h : Apart l) (hlen : 2 ≤ l.length) (front : List Char) : Apart (front ++ l) := by
  have hdrop : (front ++ l).drop ((front ++ l).length - 2) = l.drop (l.length - 2) := by
    rw [List.length_append, Nat.add_sub_assoc hlen, List.drop_append, Nat.add_sub_cancel_left]
    simp
  rw [Apart, hdrop]
  exact h

/-- The digits among the last three characters are the last three digits of the index. -/
theorem filter_lastThree (h : Apart l) (k : ℕ) :
    digitsValue (((l ++ (toString k).toList).drop ((l ++ (toString k).toList).length - 3)).filter
      Char.isDigit) = k % 1000 := by
  have hdigits := Words.toString_digits k
  have hvalue := digitsValue_toString k
  have hne : (toString k).toList.length ≠ 0 := by simp
  generalize (toString k).toList = ds at hdigits hvalue hne ⊢
  rw [List.length_append]
  by_cases hlen : 3 ≤ ds.length
  · -- nothing is taken from the text before
    rw [Nat.add_sub_assoc hlen, List.drop_append, Nat.add_sub_cancel_left,
      List.drop_eq_nil_of_le (Nat.le_add_right _ _), List.nil_append,
      List.filter_eq_self.mpr fun c hc => hdigits c (List.mem_of_mem_drop hc),
      digitsValue_drop hdigits hlen, hvalue]
    rfl
  · -- the whole index is taken, and at most two characters that are no digits
    have hsmall : k < 1000 := by
      have hlt : digitsValue ds < (0 + 1) * 10 ^ ds.length := foldl_digits_lt hdigits 0
      have hle : 10 ^ ds.length ≤ 10 ^ 3 := Nat.pow_le_pow_right (by decide) (by omega)
      omega
    have hbefore : (l.drop (l.length + ds.length - 3)).filter Char.isDigit = [] := by
      rw [List.filter_eq_nil_iff]
      intro c hc
      rw [show l.length + ds.length - 3 = (l.length - 2) + (l.length + ds.length - 3 - (l.length - 2)) by
        omega, ← List.drop_drop] at hc
      simp [h c (List.mem_of_mem_drop hc)]
    rw [List.drop_append_of_le_length (by omega), List.filter_append, hbefore, List.nil_append,
      List.filter_eq_self.mpr hdigits, hvalue, Nat.mod_eq_of_lt hsmall]

/-- The number of a key whose end is an index. -/
structure HasNumber (key : String) (n : ℕ) : Prop where
  taken : HandleOptions.takenDigits key ≠ []
  value : digitsValue (HandleOptions.takenDigits key) = n

theorem hasNumber_of_apart {key : String} (hkey : key.toList = l ++ (toString k).toList) (h : Apart l)
    (hshort : key.length < 2 ^ 31) : HasNumber key (k % 1000) where
  taken := by
    obtain ⟨front, c, hindex, hc⟩ := endsInDigit_nat k
    have hends : EndsInDigit key := ⟨l ++ front, c, by rw [hkey, hindex, List.append_assoc], hc⟩
    exact takenDigits_ne_nil_iff.mpr (hends.numbered hshort).digit
  value := by
    unfold HandleOptions.takenDigits
    dsimp only
    rw [HandleOptions.start_of_short hshort, ← String.length_toList, hkey]
    exact filter_lastThree h k

/-- A key that is an index. -/
theorem hasNumber_toString (h : k < 2 ^ 32) : HasNumber (toString k) (k % 1000) :=
  hasNumber_of_apart (l := []) rfl apart_nil
    ((length_nat_le (k := 10) (by decide) (h.trans (by decide))).trans_lt (by decide))

variable {o : HandleOptions} {key : String} {n : ℕ}

/-- The documents go to the scopes and collections by their numbers. -/
theorem HasNumber.getCollection (h : HasNumber key n) (hn : n < 2 ^ 24) (huse : o.useCollections = true)
    (hpos : 0 < o.collections * o.scopes) (hint : o.collections * o.scopes < 2 ^ 31) :
    o.getCollection key = .ok (toString (n % (o.collections * o.scopes) / o.collections),
      toString (n % (o.collections * o.scopes))) := by
  rw [HandleOptions.getCollection_eq huse hpos hint h.taken, h.value, if_pos (hn.trans (by decide)),
    HandleOptions.floatFloor_of_lt ((Nat.mod_le _ _).trans_lt hn) (Nat.pos_of_mul_pos_right hpos)]
  rfl

end Keys

namespace Dataset

section Keys

variable [JsonAccess]

/-- The key of every item ends in its index, which stands apart and is not negative as an `int`. -/
def KeysEndInIndex (spec : DatasetSpec) : Prop :=
  match spec with
  | .inline _ => False
  | .seeded s => Apart s.repeatText.toList ∧ 2 ≤ s.repeatText.toList.length ∧
      ∀ k < s.count, (fillRepeat s.kseed s.ksize s.repeatText k).length < 2 ^ 31
  | .n1ql s => namedKey s = none ∧ s.count ≤ 2 ^ 31
  | .sd s => s.count ≤ 2 ^ 31
  | .fts count | .cbas count => count ≤ 2 ^ 31

variable {spec : DatasetSpec} {ds : Dataset} {k : ℕ} {i : DatasetIterator}

theorem KeysEndInIndex.hasNumber (h : KeysEndInIndex spec) (hcount : getCount spec < 2 ^ 32)
    (hk : k < getCount spec) : HasNumber (keyAt spec (toInt k)) (k % 1000) := by
  have hplain : getCount spec ≤ 2 ^ 31 → HasNumber (toString (toInt k)) (k % 1000) := by
    intro hle
    rw [toInt_of_bounds (x := k) (by omega) (by omega)]
    exact hasNumber_toString (hk.trans hcount)
  cases spec with
  | inline items => exact h.elim
  | seeded s =>
    obtain ⟨hapart, hlen, hshort⟩ := h
    have hindex : (toInt k % 2 ^ 32).toNat = k := by
      have hlt : k < 2 ^ 32 := hk.trans hcount
      rw [toInt, Int.bmod_def]
      split_ifs <;> omega
    obtain ⟨n, hn⟩ := fillRepeat_eq s.kseed s.ksize s.repeatText k
    rw [List.replicate_succ', List.flatten_append, List.flatten_singleton, ← List.append_assoc,
      ← List.append_assoc] at hn
    rw [keyAt, hindex]
    exact hasNumber_of_apart hn (hapart.append hlen _) (hshort k hk)
  | n1ql s =>
    obtain ⟨hname, hle⟩ := h
    rw [keyAt, hname, Option.getD_none]
    exact hplain hle
  | sd s => exact hplain h
  | fts count | cbas count => exact hplain h

variable [JsonWriter]

/-- The item with number `k` shows the index `indexAt` counts to. -/
theorem sought_item (hcount : getCount ds.spec < 2 ^ 32) (hpos : 0 < getCount ds.spec)
    (hpassed : ∀ j < k, ∀ i, ds.getIter.item newIterator j = .ok i → ds.getIter.done i = false)
    (hi : ds.getIter.item newIterator k = .ok i) : Sought ds.spec (indexAt ds.spec k) i := by
  induction k generalizing i with
  | zero =>
    have hzero : indexAt ds.spec 0 = 0 := by
      unfold indexAt
      split
      · exact Nat.zero_mod _
      · rfl
    rw [hzero]
    exact sought_of_seek (by decide) hi
  | succ k ih =>
    unfold IterOps.item at hi
    split at hi
    · next j hj =>
      have hsought := ih (fun j' hlt => hpassed j' (Nat.lt_succ_of_lt hlt)) hj
      have hbelow : continuousCount ds.spec = none → k < getCount ds.spec := by
        intro hcont
        have hmore : done ds.spec j = false := hpassed k k.lt_succ_self j hj
        simpa [done, hcont, hsought.curidx, indexAt] using hmore
      rw [advance_eq, hsought.curidx, nextIndex_indexAt hcount hpos hbelow] at hi
      rw [← nextIndex_indexAt hcount hpos hbelow] at hi ⊢
      exact sought_of_seek (nextIndex_lt _ _) hi
    · cases hi

/-- The index of an item that is there is below the count. -/
theorem indexAt_lt (hpos : 0 < getCount ds.spec) (hmore : ds.getIter.done i = false)
    (hsought : Sought ds.spec (indexAt ds.spec k) i) : indexAt ds.spec k < getCount ds.spec := by
  cases hcont : continuousCount ds.spec with
  | some n =>
    obtain rfl := continuousCount_eq hcont
    rw [indexAt, hcont]
    exact Nat.mod_lt _ hpos
  | none =>
    have hdone : done ds.spec i = false := hmore
    simpa [done, hcont, hsought.curidx] using hdone

end Keys

end Dataset

/-! ## The collections in turn -/

/-- Document number `k` is in collection number `k` of the collections of all scopes, from the first one again
behind the last one. -/
def InTurnOf (o : HandleOptions) (k : ℕ) (d : DocumentId) : Prop :=
  d.bucket = o.bucket ∧ d.scope = toString (k % (o.collections * o.scopes) / o.collections) ∧
    d.collection = toString (k % (o.collections * o.scopes))

/-- The documents are spread over the collections: they go to them in turn, they are all in collections that a
successful creation has created, and so many are in each. -/
structure Spread (o : HandleOptions) (docs : List DocumentId) : Prop where
  turn : ∀ k d, docs[k]? = some d → InTurnOf o k d
  created : ∀ created, (generateCollections o created false).1 = true → ∀ d ∈ docs,
    .createCollection d.bucket d.scope d.collection ∈ (generateCollections o created false).2.2
  share : ∀ x < o.collections * o.scopes, docs.countP (fun d => d.collection = toString x) =
    docs.length / (o.collections * o.scopes) + if x < docs.length % (o.collections * o.scopes) then 1 else 0

section Shares

variable {o : HandleOptions} {docs : List DocumentId} {k : ℕ} {d : DocumentId}

theorem toString_eq_iff {i j : ℕ} : toString i = toString j ↔ i = j :=
  ⟨fun h => Words.toString_inj (congrArg String.toList h), fun h => h ▸ rfl⟩

/-- The share of a collection, counted over the numbers of the documents. -/
theorem share_of_turn (hpos : 0 < o.collections * o.scopes)
    (h : ∀ k d, docs[k]? = some d → InTurnOf o k d) {x : ℕ} (hx : x < o.collections * o.scopes) :
    docs.countP (fun d => d.collection = toString x) =
      docs.length / (o.collections * o.scopes) +
        if x < docs.length % (o.collections * o.scopes) then 1 else 0 := by
  have hcollections : docs.map DocumentId.collection =
      (List.range docs.length).map fun k => toString (k % (o.collections * o.scopes)) := by
    refine List.ext_getElem (by simp) fun k hk _ => ?_
    rw [List.getElem_map, List.getElem_map, List.getElem_range]
    exact (h k _ (List.getElem?_eq_getElem _)).2.2
  calc docs.countP (fun d => d.collection = toString x)
      = (docs.map DocumentId.collection).countP (· = toString x) := by
        rw [List.countP_map]
        rfl
    _ = Nat.count (· ≡ x [MOD o.collections * o.scopes]) docs.length := by
        rw [hcollections, List.countP_map, Nat.count]
        congr 1
        funext k
        simp only [Function.comp, toString_eq_iff, Nat.ModEq, Nat.mod_eq_of_lt hx]
    _ = _ := by rw [Nat.count_modEq_card _ hpos, Nat.mod_eq_of_lt hx]

/-- Every collection in turn is created. -/
theorem InTurnOf.created (h : InTurnOf o k d) (huse : o.useCollections = true) (hs : 1 ≤ o.scopes)
    (hc : 1 ≤ o.collections) (hint : o.scopes * o.collections < 2 ^ 31) {created : ℕ → ErrorCode}
    (hcreated : (generateCollections o created false).1 = true) :
    .createCollection d.bucket d.scope d.collection ∈ (generateCollections o created false).2.2 := by
  obtain ⟨hbucket, hscope, hcollection⟩ := h
  have hlt : k % (o.collections * o.scopes) < o.scopes * o.collections := by
    rw [Nat.mul_comm o.scopes]
    exact Nat.mod_lt _ (Nat.mul_pos hc hs)
  obtain ⟨hs', hle, hbelow⟩ := HandleOptions.scope_bounds hc hlt
  rw [hbucket, hscope, hcollection]
  exact (HandleOptions.created_of_bounds huse hint hs' hle hbelow hcreated).2

end Shares

/-! ## Commands -/

section Commands

variable [JsonAccess] [JsonWriter] {o : HandleOptions} {ds : Dataset} {opts : ResultOptions} {code : Code}
  {sent : List ClusterRequest} {m k : ℕ}

/-- A dataset with collections for its items: the keys end in the index, and the number of collections goes
into a thousand, and into the count if the iterator starts again. -/
structure Dealt (o : HandleOptions) (ds : Dataset) : Prop where
  useCollections : o.useCollections = true
  scopes : 1 ≤ o.scopes
  collections : 1 ≤ o.collections
  int : o.scopes * o.collections < 2 ^ 31
  keys : Dataset.KeysEndInIndex ds.spec
  count : Dataset.getCount ds.spec < 2 ^ 32
  count_pos : 0 < Dataset.getCount ds.spec
  thousand : o.collections * o.scopes ∣ 1000
  round : ∀ n, Dataset.continuousCount ds.spec = some n → o.collections * o.scopes ∣ n

omit [JsonAccess] [JsonWriter] in
/-- The number of the collection depends on the number of the item alone. -/
theorem Dealt.indexAt_mod (h : Dealt o ds) (k : ℕ) :
    Dataset.indexAt ds.spec k % 1000 % (o.collections * o.scopes) = k % (o.collections * o.scopes) := by
  rw [Nat.mod_mod_of_dvd _ h.thousand]
  unfold Dataset.indexAt
  split
  · next n hcont => exact Nat.mod_mod_of_dvd _ (h.round n hcont)
  · rfl

theorem Dealt.inTurnOf (h : Dealt o ds) {d : DocumentId × DatasetIterator}
    (hpassed : ∀ j < k, ∃ d, addressed ds.getIter Dataset.newIterator o j = some d ∧
      ds.getIter.done d.2 = false)
    (hd : addressed ds.getIter Dataset.newIterator o k = some d) (hmore : ds.getIter.done d.2 = false) :
    InTurnOf o k d.1 := by
  obtain ⟨hitem, hcollection, hbucket, -⟩ := item_of_addressed hd
  have hpos : 0 < o.collections * o.scopes := Nat.mul_pos h.collections h.scopes
  have hint : o.collections * o.scopes < 2 ^ 31 := Nat.mul_comm o.scopes _ ▸ h.int
  have hsought := Dataset.sought_item h.count h.count_pos (fun j hj i hi => by
    obtain ⟨d', hd', hmore'⟩ := hpassed j hj
    obtain rfl := Except.ok.inj ((item_of_addressed hd').1.symm.trans hi)
    exact hmore') hitem
  have hnumber := h.keys.hasNumber h.count (Dataset.indexAt_lt h.count_pos hmore hsought)
  rw [← hsought.key] at hnumber
  have hlookup := hnumber.getCollection ((Nat.mod_lt _ (by decide)).trans (by decide)) h.useCollections hpos hint
  rw [h.indexAt_mod] at hlookup
  obtain ⟨hscope, hcoll⟩ := Prod.mk.inj (Except.ok.inj (hcollection.symm.trans hlookup))
  exact ⟨hbucket, hscope, hcoll⟩

/-- The documents of the items gone through. -/
theorem Dealt.spread (h : Dealt o ds)
    (hdocuments : ∀ k < m, ∃ d, addressed ds.getIter Dataset.newIterator o k = some d ∧
      ds.getIter.done d.2 = false) : Spread o ((itemDocuments o ds m).map Prod.fst) := by
  have hthere : ∀ k < m, ∃ d, addressed ds.getIter Dataset.newIterator o k = some d :=
    fun k hk => (hdocuments k hk).imp fun _ hd => hd.1
  have hturn : ∀ k d, ((itemDocuments o ds m).map Prod.fst)[k]? = some d → InTurnOf o k d := by
    intro k d hk
    rw [List.getElem?_map] at hk
    obtain ⟨d', hd', rfl⟩ := Option.map_eq_some_iff.mp hk
    have hlt : k < m := by
      have := (List.getElem?_eq_some_iff.mp hd').1
      rwa [length_itemDocuments hthere] at this
    rw [getElem?_itemDocuments hthere hlt] at hd'
    obtain ⟨d'', hd'', hmore⟩ := hdocuments k hlt
    obtain rfl := Option.some.inj (hd'.symm.trans hd'')
    exact h.inTurnOf (fun j hj => hdocuments j (hj.trans hlt)) hd' hmore
  refine ⟨hturn, fun created hcreated d hd => ?_, fun x hx => ?_⟩
  · obtain ⟨k, hk⟩ := List.mem_iff_getElem?.mp hd
    exact (hturn k d hk).created h.useCollections h.scopes h.collections h.int hcreated
  · exact share_of_turn (Nat.mul_pos h.collections h.scopes) hturn hx

variable {h : Handle} {w : World} {req : Request} {op : Operation}

/-- **Collections in turn.** Wherever an interleaving with the control thread takes a command on such a dataset,
its requests are for documents that are spread over all collections that NEWHANDLE creates: they go to them in
turn, and at no time has one collection been sent two documents more than another one. -/
theorem dsOperation_spread (hop : dsOperation h w req ds opts = some op)
    (hview : req.command.code ≠ .cbViewLoad) (hdealt : Dealt h.options ds) (rs : ResultSet)
    {c : Config (OpState op.L) Crash}
    (hreach : op.prog.Reaches cancelCurrent (op.start (h.session rs)) c) :
    ∃ docs : List (DocumentId × DatasetIterator),
      c.st.ses.sent = docs.filterMap (fun d => commandRequest opts req.command.code d.1 d.2) ∧
      docs.length ≤ c.rounds ∧ c.rounds ≤ docs.length + 1 ∧ Spread h.options (docs.map Prod.fst) := by
  obtain ⟨m, hle, hge, hsent⟩ := (dsOperation_sends hop hview rs hreach).sofar
  have hlen := length_itemDocuments fun k hk => (hsent.documents k hk).imp fun _ hd => hd.1
  refine ⟨itemDocuments h.options ds m, ?_, hlen.symm ▸ hle, hlen.symm ▸ hge, hdealt.spread hsent.documents⟩
  rw [hsent.requests, itemRequests, itemDocuments, List.filterMap_filterMap]

end Commands

section Examples

/-- Four collections in two scopes. -/
def exampleSpreadHandle : Handle :=
  { exampleHandle with options := { HandleOptions.manyCollections with collections := 2 } }

def sixDocuments : Dataset := ⟨.success, .fts 6⟩

def exampleSpreadOperation : Operation :=
  ⟨_, @dsGet _ (@Dataset.getIter JsonAccess.plain JsonWriter.compact sixDocuments)
    exampleSpreadHandle.options exampleWorld .default, ⟨Dataset.newIterator, ("", ""), ()⟩⟩

/-- A get of six documents. The first two collections get two of them each, the others one. -/
theorem dsOperation_spread_six :
    letI := JsonAccess.plain
    letI := JsonWriter.compact
    let c := exampleSpreadOperation.prog.run cancelCurrent (fun _ => false)
      (exampleSpreadOperation.start (exampleSpreadHandle.session .new)) 70
    c.pos = .done ∧ c.rounds = 6 ∧ ∃ docs : List (DocumentId × DatasetIterator),
      c.st.ses.sent = docs.filterMap (fun d => commandRequest .default .mcDsGet d.1 d.2) ∧
      docs.length ≤ 6 ∧ 6 ≤ docs.length + 1 ∧ Spread exampleSpreadHandle.options (docs.map Prod.fst) := by
  let := JsonAccess.plain
  let := JsonWriter.compact
  have hop : dsOperation exampleSpreadHandle exampleWorld exampleGet sixDocuments .default =
      some exampleSpreadOperation := rfl
  have hdealt : Dealt exampleSpreadHandle.options sixDocuments :=
    ⟨rfl, by decide, by decide, by decide, show 6 ≤ 2 ^ 31 by decide, by decide, by decide, by decide, nofun⟩
  have hspread := dsOperation_spread hop (by decide) hdealt .new (Prog.reaches_run (fun _ => false) _ 70)
  have hrounds : (exampleSpreadOperation.prog.run cancelCurrent (fun _ => false)
      (exampleSpreadOperation.start (exampleSpreadHandle.session .new)) 70).rounds = 6 := by decide +kernel
  rw [hrounds] at hspread
  exact ⟨by decide +kernel, hrounds, hspread⟩

end Examples

end Sdkd
