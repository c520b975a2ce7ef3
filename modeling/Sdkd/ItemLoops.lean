import Sdkd.Operation

/-!
# Loops over the items of a dataset

The four operations on datasets and four of the five loaders go through a dataset in the same way: look
up the collection of the current item, send one request for its document, advance. What they do besides
neither sends anything nor moves the iterator.

## Main definitions

- `addressed` — the document of the item with a number
- `ItemLoop` — programs that send one request for each item they go through

## Main results

- `ItemLoop.outline` — wherever such a loop stands, it has sent the requests of the items gone through
-/

namespace Sdkd

open LoopProg

section Items

variable {ι : Type*} (it : IterOps ι) (i₀ : ι) (o : HandleOptions)

/-- The document of the item with number `k`, and the item; none where its data cannot be built or its
key has no collection. -/
def addressed (k : ℕ) : Option (DocumentId × ι) :=
  match it.item i₀ k with
  | .ok i =>
    match o.getCollection (it.key i) with
    | .ok c => some (⟨o.bucket, c.1, c.2, it.key i⟩, i)
    | .error _ => none
  | .error _ => none

/-- The requests for the first `m` items. -/
def itemRequests (mk : DocumentId → ι → Option ClusterRequest) (m : ℕ) : List ClusterRequest :=
  (List.range m).filterMap fun k => (addressed it i₀ o k).bind fun d => mk d.1 d.2

/-- What has been sent are the requests for the first `m` items, which are there and have a document. -/
structure SentFor (mk : DocumentId → ι → Option ClusterRequest) (m : ℕ)
    (sent : List ClusterRequest) : Prop where
  requests : sent = itemRequests it i₀ o mk m
  documents : ∀ k < m, ∃ d, addressed it i₀ o k = some d ∧ it.done d.2 = false

variable {it i₀ o} {mk : DocumentId → ι → Option ClusterRequest}

theorem addressed_eq {k : ℕ} {i : ι} {c : String × String} (hi : it.item i₀ k = .ok i)
    (hc : o.getCollection (it.key i) = .ok c) :
    addressed it i₀ o k = some (⟨o.bucket, c.1, c.2, it.key i⟩, i) := by
  simp only [addressed, hi, hc]

theorem item_of_addressed {k : ℕ} {d : DocumentId × ι} (h : addressed it i₀ o k = some d) :
    it.item i₀ k = .ok d.2 ∧ o.getCollection (it.key d.2) = .ok (d.1.scope, d.1.collection) ∧
      d.1.bucket = o.bucket ∧ d.1.key = it.key d.2 := by
  unfold addressed at h
  split at h
  · next i hi =>
    split at h
    · next c hc =>
      obtain rfl := Option.some.inj h
      exact ⟨hi, hc, rfl, rfl⟩
    · cases h
  · cases h

theorem sentFor_zero : SentFor it i₀ o mk 0 [] := ⟨rfl, by simp⟩

/-- The request of the next item joins the others. -/
theorem SentFor.succ {m : ℕ} {sent : List ClusterRequest} (h : SentFor it i₀ o mk m sent) {i : ι}
    (hi : it.item i₀ m = .ok i) (hmore : it.done i = false) {c : String × String}
    (hc : o.getCollection (it.key i) = .ok c) :
    SentFor it i₀ o mk (m + 1) (sent ++ (mk ⟨o.bucket, c.1, c.2, it.key i⟩ i).toList) where
  requests := by
    rw [h.requests, itemRequests, itemRequests, List.range_succ, List.filterMap_append]
    congr 1
    simp only [List.filterMap_cons, List.filterMap_nil, addressed_eq hi hc, Option.bind_some]
    cases mk ⟨o.bucket, c.1, c.2, it.key i⟩ i <;> rfl
  documents := fun k hk => by
    rcases Nat.lt_succ_iff_lt_or_eq.mp hk with hlt | rfl
    · exact h.documents k hlt
    · exact ⟨_, addressed_eq hi hc, hmore⟩

end Items

/-! ## The loops -/

section Loops

variable {ι X : Type*}

/-- The iterator stands where it stood, and nothing has been sent. -/
structure SameItem (s s' : OpState (DsLocal ι X)) : Prop where
  iter : s'.loc.iter = s.loc.iter
  collection : s'.loc.collection = s.loc.collection
  sent : s'.ses.sent = s.ses.sent

theorem SameItem.refl (s : OpState (DsLocal ι X)) : SameItem s s := ⟨rfl, rfl, rfl⟩

/-- The action neither sends nor moves anything; it leaves the operation only with the excuse `E`. -/
def Inert (E : OpState (DsLocal ι X) → Prop) (a : OpAction (DsLocal ι X)) : Prop :=
  ∀ s, match a s with
    | .next s' | .again s' => SameItem s s'
    | .brk _ => False
    | .ret s' => SameItem s s' ∧ E s'
    | .fail _ => True

/-- The action leaves the item and the excuse for having stopped before the end alone. -/
def Closing (E : OpState (DsLocal ι X) → Prop) (a : OpAction (DsLocal ι X)) : Prop :=
  ∀ s, (a s).All fun s' => SameItem s s' ∧ (E s → E s')

/-- A program that starts the iterator at the end of its prologue and in each round looks up the
collection first, sends the request of the item with its action number `jS` and advances with its action
number `jA`. It stops before the end of the dataset only with the excuse `E`. -/
structure ItemLoop (p : OpProg (DsLocal ι X)) (it : IterOps ι) (o : HandleOptions) (w : World)
    (mk : DocumentId → ι → Option ClusterRequest) (jS jA : ℕ)
    (E : OpState (DsLocal ι X) → Prop) : Prop where
  pre_pos : 0 < p.pre.length
  pre : ∀ k a, p.pre[k]? = some a →
    (k + 1 = p.pre.length ∧ a = startIter it) ∨ (k + 1 < p.pre.length ∧ Inert E a)
  order : 0 < jS ∧ jS < jA ∧ jA < p.body.length
  body : ∀ k a, p.body[k]? = some a → (k = 0 ∧ a = lookupCollection it o) ∨
    (k = jS ∧ a = submitItem it o w mk) ∨ (k = jA ∧ a = advanceIter it) ∨
    (k ≠ 0 ∧ k ≠ jS ∧ k ≠ jA ∧ Inert E a ∧ ∀ s s', a s = .ret s' → jS < k)
  post : ∀ a ∈ p.post, Closing E a
  enters : ∀ s, p.test s = true → it.done s.loc.iter = false
  leaves : ∀ s, p.test s = false → it.done s.loc.iter = true ∨ E s
  stable : ∀ s, E s → E (cancelCurrent s)

variable (it : IterOps ι) (i₀ : ι) (o : HandleOptions) (mk : DocumentId → ι → Option ClusterRequest)

/-- In the round with number `r`, before action number `k`: whether the request has been sent and whether
the iterator has moved. -/
structure WithinItem (jS jA k r : ℕ) (s : OpState (DsLocal ι X)) : Prop where
  position : ∃ m, r = m + 1 ∧
    (if k ≤ jA then Walked it i₀ m s.loc.iter ∧ it.done s.loc.iter = false
      else Walked it i₀ r s.loc.iter) ∧
    SentFor it i₀ o mk (if k ≤ jS then m else r) s.ses.sent
  collection : 0 < k → k ≤ jS → o.getCollection (it.key s.loc.iter) = .ok s.loc.collection

/-- Behind the loop: it has come to the end of the dataset, or there is an excuse. -/
structure Over (E : OpState (DsLocal ι X) → Prop) (r : ℕ) (s : OpState (DsLocal ι X)) : Prop where
  sent : SentFor it i₀ o mk r s.ses.sent
  ended : (Walked it i₀ r s.loc.iter ∧ it.done s.loc.iter = true) ∨ E s

/-- What holds at a control position after `r` rounds; `n` is the length of the prologue. -/
def itemAssertion (n jS jA : ℕ) (E : OpState (DsLocal ι X) → Prop) (pos : Pos Crash) (r : ℕ)
    (s : OpState (DsLocal ι X)) : Prop :=
  match pos with
  | .pre k => r = 0 ∧ s.ses.sent = [] ∧
      if k < n then s.loc.iter = i₀ else Walked it i₀ 0 s.loc.iter
  | .test => SentFor it i₀ o mk r s.ses.sent ∧ Walked it i₀ r s.loc.iter
  | .body k => WithinItem it i₀ o mk jS jA k r s
  | .post _ | .done => Over it i₀ o mk E r s
  | .dead _ => ∃ m, m ≤ r ∧ r ≤ m + 1 ∧ SentFor it i₀ o mk m s.ses.sent

variable {it i₀ o mk} {w : World} {n jS jA r : ℕ} {E : OpState (DsLocal ι X) → Prop}
  {s s' : OpState (DsLocal ι X)}

theorem WithinItem.congr {k : ℕ} (h : WithinItem it i₀ o mk jS jA k r s) (hsame : SameItem s s') :
    WithinItem it i₀ o mk jS jA k r s' := by
  obtain ⟨⟨m, hm, hwalked, hsent⟩, hcollection⟩ := h
  exact ⟨⟨m, hm, by rwa [hsame.iter], by rwa [hsame.sent]⟩,
    fun hpos hle => by rw [hsame.iter, hsame.collection, hcollection hpos hle]⟩

theorem Over.congr (h : Over it i₀ o mk E r s) (hsame : SameItem s s') (hE : E s → E s') :
    Over it i₀ o mk E r s' where
  sent := by
    rw [hsame.sent]
    exact h.sent
  ended := h.ended.imp (by rw [hsame.iter]; exact id) hE

/-- The next action but one that sends or moves finds the round as the last one left it. -/
theorem WithinItem.next {k : ℕ} (h : WithinItem it i₀ o mk jS jA k r s) (hzero : k ≠ 0) (hS : k ≠ jS)
    (hA : k ≠ jA) : WithinItem it i₀ o mk jS jA (k + 1) r s := by
  obtain ⟨⟨m, hm, hwalked, hsent⟩, hcollection⟩ := h
  refine ⟨⟨m, hm, ?_, ?_⟩, fun _ hle => hcollection (Nat.pos_of_ne_zero hzero) (by omega)⟩
  · simp only [show k + 1 ≤ jA ↔ k ≤ jA by omega]
    exact hwalked
  · simp only [show k + 1 ≤ jS ↔ k ≤ jS by omega]
    exact hsent

/-- Wherever a round stands, it has sent the requests of the items before, and perhaps the item's own. -/
theorem WithinItem.sent {k : ℕ} (h : WithinItem it i₀ o mk jS jA k r s) :
    ∃ m, m ≤ r ∧ r ≤ m + 1 ∧ SentFor it i₀ o mk m s.ses.sent := by
  obtain ⟨⟨m, rfl, -, hsent⟩, -⟩ := h
  exact ⟨_, by split_ifs <;> omega, by split_ifs <;> omega, hsent⟩

/-! ### One lemma for each kind of action -/

theorem Inert.establishes_pre {a : OpAction (DsLocal ι X)} (ha : Inert E a) {k : ℕ} (hk : k + 1 < n)
    (h : itemAssertion it i₀ o mk n jS jA E (.pre k) r s) :
    (a s).Establishes (itemAssertion it i₀ o mk n jS jA E · r) (.pre k) (.pre (k + 1)) s := by
  obtain ⟨rfl, hsent, hiter⟩ := h
  rw [if_pos (by omega)] at hiter
  have hsame := ha s
  cases hout : a s <;> rw [hout] at hsame
  case next s' =>
    exact ⟨rfl, by rw [hsame.sent, hsent], by rw [if_pos hk, hsame.iter, hiter]⟩
  case again s' =>
    exact ⟨rfl, by rw [hsame.sent, hsent], by rw [if_pos (by omega), hsame.iter, hiter]⟩
  case brk s' => exact hsame.elim
  case ret s' =>
    refine ⟨?_, .inr hsame.2⟩
    rw [hsame.1.sent, hsent]
    exact sentFor_zero
  case fail e =>
    refine ⟨0, le_rfl, Nat.zero_le _, ?_⟩
    rw [hsent]
    exact sentFor_zero

theorem startIter_itemAssertion {k : ℕ} (hk : k + 1 = n)
    (h : itemAssertion it i₀ o mk n jS jA E (.pre k) r s) :
    (startIter it s).Establishes (itemAssertion it i₀ o mk n jS jA E · r) (.pre k) (.pre (k + 1))
      s := by
  obtain ⟨rfl, hsent, hiter⟩ := h
  rw [if_pos (by omega)] at hiter
  rcases startIter_outcome it s with ⟨i, hi, hout⟩ | ⟨e, -, hout⟩ <;> rw [hout]
  · refine ⟨rfl, hsent, ?_⟩
    rw [if_neg (by omega)]
    exact ⟨by rw [← hiter]; exact hi, by simp⟩
  · exact ⟨0, le_rfl, Nat.zero_le _, by rw [hsent]; exact sentFor_zero⟩

theorem Inert.establishes_body {a : OpAction (DsLocal ι X)} (ha : Inert E a) {k : ℕ} (hzero : k ≠ 0)
    (hS : k ≠ jS) (hA : k ≠ jA) (hreturns : ∀ s', a s = .ret s' → jS < k)
    (h : WithinItem it i₀ o mk jS jA k r s) :
    (a s).Establishes (itemAssertion it i₀ o mk n jS jA E · r) (.body k) (.body (k + 1)) s := by
  have hsame := ha s
  cases hout : a s <;> rw [hout] at hsame
  case next s' => exact (h.congr hsame).next hzero hS hA
  case again s' => exact h.congr hsame
  case brk s' => exact hsame.elim
  case ret s' =>
    obtain ⟨⟨m, -, -, hsent⟩, -⟩ := h
    rw [if_neg (Nat.not_le_of_lt (hreturns s' hout))] at hsent
    exact ⟨by rw [hsame.1.sent]; exact hsent, .inr hsame.2⟩
  case fail e => exact h.sent

theorem lookupCollection_itemAssertion (hS : 0 < jS) (hA : 0 < jA)
    (h : WithinItem it i₀ o mk jS jA 0 r s) :
    (lookupCollection it o s).Establishes (itemAssertion it i₀ o mk n jS jA E · r) (.body 0)
      (.body 1) s := by
  rcases lookupCollection_outcome it o s with ⟨c, hc, hout⟩ | ⟨e, -, hout⟩ <;> rw [hout]
  · obtain ⟨⟨m, hm, hwalked, hsent⟩, -⟩ := h
    rw [if_pos (Nat.zero_le _)] at hwalked hsent
    exact ⟨⟨m, hm, by rwa [if_pos (by omega)], by rwa [if_pos (by omega)]⟩, fun _ _ => hc⟩
  · exact h.sent

/-- The request of the item is sent, if it has one. -/
theorem submitItem_itemAssertion (hS : 0 < jS) (hA : jS < jA) (h : WithinItem it i₀ o mk jS jA jS r s) :
    (submitItem it o w mk s).Establishes (itemAssertion it i₀ o mk n jS jA E · r) (.body jS)
      (.body (jS + 1)) s := by
  obtain ⟨⟨m, rfl, hwalked, hsent⟩, hcollection⟩ := h
  rw [if_pos hA.le] at hwalked
  rw [if_pos le_rfl] at hsent
  have hsucc := hsent.succ hwalked.1.item hwalked.2 (hcollection hS le_rfl)
  rcases submitItem_outcome it o w s mk with ⟨q, hq, hout⟩ | ⟨hnone, hout⟩ <;> rw [hout]
  · refine ⟨⟨m, rfl, by rwa [if_pos (by omega)], ?_⟩, fun _ hle => absurd hle (by omega)⟩
    rw [if_neg (by omega)]
    unfold documentId at hq
    rw [hq] at hsucc
    exact hsucc
  · refine ⟨⟨m, rfl, by rwa [if_pos (by omega)], ?_⟩, fun _ hle => absurd hle (by omega)⟩
    rw [if_neg (by omega)]
    unfold documentId at hnone
    rw [hnone] at hsucc
    simpa using hsucc

theorem advanceIter_itemAssertion (hS : jS < jA) (h : WithinItem it i₀ o mk jS jA jA r s) :
    (advanceIter it s).Establishes (itemAssertion it i₀ o mk n jS jA E · r) (.body jA)
      (.body (jA + 1)) s := by
  rcases advanceIter_outcome it s with ⟨i, hi, hout⟩ | ⟨e, -, hout⟩ <;> rw [hout]
  · obtain ⟨⟨m, rfl, hwalked, hsent⟩, -⟩ := h
    rw [if_pos le_rfl] at hwalked
    rw [if_neg (by omega)] at hsent
    refine ⟨⟨m, rfl, ?_, by rwa [if_neg (by omega)]⟩, fun _ hle => absurd hle (by omega)⟩
    rw [if_neg (by omega)]
    exact hwalked.1.succ hwalked.2 hi
  · exact h.sent

theorem Closing.establishes {a : OpAction (DsLocal ι X)} (ha : Closing E a) {k : ℕ}
    (h : Over it i₀ o mk E r s) :
    (a s).Establishes (itemAssertion it i₀ o mk n jS jA E · r) (.post k) (.post (k + 1)) s := by
  have hsame := ha s
  cases hout : a s <;> rw [hout] at hsame
  case fail e => exact ⟨r, le_rfl, Nat.le_succ r, h.sent⟩
  all_goals exact h.congr hsame.1 hsame.2

theorem sameItem_cancel (s : OpState (DsLocal ι X)) : SameItem s (cancelCurrent s) := ⟨rfl, rfl, rfl⟩

theorem itemAssertion_cancel (hE : ∀ s, E s → E (cancelCurrent s)) {pos : Pos Crash}
    (h : itemAssertion it i₀ o mk n jS jA E pos r s) :
    itemAssertion it i₀ o mk n jS jA E pos r (cancelCurrent s) := by
  match pos, h with
  | .pre k, h | .test, h | .dead e, h => exact h
  | .body k, h => exact WithinItem.congr h (sameItem_cancel s)
  | .post k, h | .done, h => exact Over.congr h (sameItem_cancel s) (hE s)

/-- The assertions form a proof outline of every loop over items. -/
theorem ItemLoop.outline {p : OpProg (DsLocal ι X)} (hp : ItemLoop p it o w mk jS jA E) :
    p.Outline cancelCurrent (itemAssertion it i₀ o mk p.pre.length jS jA E) where
  action := by
    intro here there a r s ha h
    rcases Prog.actionAt_cases ha with ⟨k, rfl, rfl, hget⟩ | ⟨k, rfl, rfl, hget⟩ | ⟨k, rfl, rfl, hget⟩
    · rcases hp.pre k a hget with ⟨hk, rfl⟩ | ⟨hk, hinert⟩
      · exact startIter_itemAssertion hk h
      · exact hinert.establishes_pre hk h
    · obtain ⟨hS, hA, -⟩ := hp.order
      rcases hp.body k a hget with ⟨rfl, rfl⟩ | ⟨rfl, rfl⟩ | ⟨rfl, rfl⟩ | ⟨hzero, hneS, hneA, hinert, hret⟩
      · exact lookupCollection_itemAssertion hS (hS.trans hA) h
      · exact submitItem_itemAssertion hS hA h
      · exact advanceIter_itemAssertion hA h
      · exact hinert.establishes_body hzero hneS hneA (fun s' => hret s s') h
    · exact (hp.post a (List.mem_of_getElem? hget)).establishes h
  pre_end := by
    intro k r s hk h
    obtain ⟨rfl, hsent, hwalked⟩ := h
    rw [if_neg (by omega)] at hwalked
    exact ⟨by rw [hsent]; exact sentFor_zero, hwalked⟩
  enter := by
    intro r s ht h
    obtain ⟨hsent, hwalked⟩ := h
    refine ⟨⟨r, rfl, ?_, by rwa [if_pos (Nat.zero_le _)]⟩, fun hpos => absurd hpos (lt_irrefl 0)⟩
    rw [if_pos (Nat.zero_le _)]
    exact ⟨hwalked, hp.enters s ht⟩
  leave := by
    intro r s ht h
    obtain ⟨hsent, hwalked⟩ := h
    exact ⟨hsent, (hp.leaves s ht).imp_left fun hdone => ⟨hwalked, hdone⟩⟩
  body_end := by
    intro k r s hk h
    obtain ⟨⟨m, -, hwalked, hsent⟩, -⟩ := h
    obtain ⟨-, hSA, hA⟩ := hp.order
    rw [if_neg (by omega)] at hwalked hsent
    exact ⟨hsent, hwalked⟩
  post_end := fun _ _ _ _ h => h
  stable := fun _ _ _ h => itemAssertion_cancel hp.stable h

/-- A loop over items starts in its assertion. -/
theorem ItemLoop.start {p : OpProg (DsLocal ι X)} (hp : ItemLoop p it o w mk jS jA E)
    {s₀ : OpState (DsLocal ι X)} (hsent : s₀.ses.sent = []) (hiter : s₀.loc.iter = i₀) :
    itemAssertion it i₀ o mk p.pre.length jS jA E (.pre 0) 0 s₀ :=
  ⟨rfl, hsent, by rw [if_pos hp.pre_pos]; exact hiter⟩

/-- Wherever an interleaving takes a loop over items, it has sent the requests of the items gone through,
each once and in their order; if it has returned, it has come to the end of the dataset, or there is an
excuse. -/
theorem ItemLoop.sends {p : OpProg (DsLocal ι X)} (hp : ItemLoop p it o w mk jS jA E)
    {s₀ : OpState (DsLocal ι X)} {c : Config (OpState (DsLocal ι X)) Crash}
    (h : p.Reaches cancelCurrent (.start s₀) c) (hsent : s₀.ses.sent = []) (hiter : s₀.loc.iter = i₀) :
    (∃ m, m ≤ c.rounds ∧ c.rounds ≤ m + 1 ∧ SentFor it i₀ o mk m c.st.ses.sent) ∧
    (c.pos = .done → Over it i₀ o mk E c.rounds c.st) := by
  have hsat := hp.outline.sound h (hp.start hsent hiter)
  obtain ⟨pos, s, r⟩ := c
  refine ⟨?_, fun hpos => by subst hpos; exact hsat⟩
  match pos, hsat with
  | .pre k, ⟨hr, hnil, _⟩ =>
    refine ⟨0, Nat.zero_le _, by dsimp only at hr ⊢; omega, ?_⟩
    dsimp only at hnil ⊢
    rw [hnil]
    exact sentFor_zero
  | .test, ⟨hall, _⟩ => exact ⟨r, le_rfl, Nat.le_succ r, hall⟩
  | .body k, h => exact WithinItem.sent h
  | .post k, h | .done, h => exact ⟨r, le_rfl, Nat.le_succ r, h.sent⟩
  | .dead e, h => exact h

end Loops

end Sdkd
