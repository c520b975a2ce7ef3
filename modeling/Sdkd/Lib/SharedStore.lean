import Mathlib.Data.Set.Function
import Sdkd.Lib.KeyValue

/-!
# A store of several parties

The operations of several parties reach one store in some order. A party whose keys no other one touches is
served as if it were alone.

## Main definitions

- `ofParty` — what is of one party in a sequence of several
- `answersTo` — which of its operations are accepted
- `Owns` — the keys of a party are its own
- `partyOps` — the operations of a history of several parties

## Main results

- `Owns.answersTo_eq`, `Owns.run_eqOn` — the party does not notice the others
- `Owns.legal` — its part of a legal history is legal
-/

namespace KeyValue

variable {τ β κ α : Type*} [DecidableEq τ]

/-- What is of one party, in its order. -/
def ofParty (i : τ) (l : List (τ × β)) : List β := l.filterMap fun e => if e.1 = i then some e.2 else none

theorem ofParty_map {γ : Type*} (f : β → γ) (i : τ) (l : List (τ × β)) :
    ofParty i (l.map (Prod.map id f)) = (ofParty i l).map f := by
  rw [ofParty, ofParty, List.filterMap_map, List.map_filterMap]
  refine List.filterMap_congr fun e _ => ?_
  by_cases hi : e.1 = i <;> simp [hi]

theorem ofParty_filterMap {γ : Type*} (f : β → Option γ) (i : τ) (l : List (τ × β)) :
    ofParty i (l.filterMap fun e => (f e.2).map (Prod.mk e.1)) = (ofParty i l).filterMap f := by
  rw [ofParty, ofParty, List.filterMap_filterMap, List.filterMap_filterMap]
  refine List.filterMap_congr fun e _ => ?_
  cases hf : f e.2 <;> by_cases hi : e.1 = i <;> simp [hi, hf]

theorem mem_ofParty {i : τ} {l : List (τ × β)} {b : β} : b ∈ ofParty i l ↔ (i, b) ∈ l := by
  rw [ofParty, List.mem_filterMap]
  constructor
  · rintro ⟨⟨j, b'⟩, hmem, hsome⟩
    obtain ⟨rfl, rfl⟩ : j = i ∧ b' = b := by simpa using hsome
    exact hmem
  · exact fun hmem => ⟨(i, b), hmem, if_pos rfl⟩

variable [DecidableEq κ] {i : τ} {K : Set κ} {l : List (τ × Op κ α)} {st st' : Store κ α}

/-- Which of the operations of a party are accepted. -/
def answersTo (i : τ) : List (τ × Op κ α) → Store κ α → List Bool
  | [], _ => []
  | (j, op) :: l, st =>
    if j = i then op.accepted st :: answersTo i l (op.apply st) else answersTo i l (op.apply st)

/-- The operations of the party are about the keys of `K`, and no others are. -/
structure Owns (i : τ) (K : Set κ) (l : List (τ × Op κ α)) : Prop where
  own : ∀ op, (i, op) ∈ l → op.key ∈ K
  others : ∀ j op, j ≠ i → (j, op) ∈ l → op.key ∉ K

omit [DecidableEq τ] [DecidableEq κ] in
theorem Owns.tail {e : τ × Op κ α} (h : Owns i K (e :: l)) : Owns i K l where
  own := fun op hop => h.own op (List.mem_cons_of_mem _ hop)
  others := fun j op hj hop => h.others j op hj (List.mem_cons_of_mem _ hop)

omit [DecidableEq τ] [DecidableEq κ] in
/-- Parties whose keys are of disjoint sets. -/
theorem Owns.of_disjoint {K : τ → Set κ} (hown : ∀ j op, (j, op) ∈ l → op.key ∈ K j)
    (hdisjoint : ∀ i j, i ≠ j → ∀ k ∈ K i, k ∉ K j) (i : τ) : Owns i (K i) l where
  own := fun op hop => hown i op hop
  others := fun j op hj hop => hdisjoint j i hj _ (hown j op hop)

/-- An operation on one of the keys does the same to stores that agree on them. -/
theorem Op.apply_eqOn (op : Op κ α) (hkey : op.key ∈ K) (h : Set.EqOn st st' K) :
    Set.EqOn (op.apply st) (op.apply st') K := by
  intro k hk
  by_cases heq : op.key = k
  · subst heq
    exact op.apply_key_congr (h hkey)
  · rw [op.apply_of_ne st heq, op.apply_of_ne st' heq, h hk]

/-- An operation on another key leaves them as they are. -/
theorem Op.eqOn_of_notMem (op : Op κ α) (hkey : op.key ∉ K) (h : Set.EqOn st st' K) :
    Set.EqOn (op.apply st) st' K := by
  intro k hk
  rw [op.apply_of_ne st fun heq => hkey (heq ▸ hk), h hk]

/-- The answers to the party are those it gets alone. -/
theorem Owns.answersTo_eq (h : Owns i K l) (hst : Set.EqOn st st' K) :
    answersTo i l st = answers (ofParty i l) st' := by
  induction l generalizing st st' with
  | nil => rfl
  | cons e l ih =>
    obtain ⟨j, op⟩ := e
    by_cases hj : j = i
    · subst hj
      have hkey := h.own op List.mem_cons_self
      rw [answersTo, if_pos rfl, ih h.tail (op.apply_eqOn hkey hst), op.accepted_congr (hst hkey)]
      simp [ofParty, answers]
    · have hkey := h.others j op hj List.mem_cons_self
      rw [answersTo, if_neg hj, ih h.tail (op.eqOn_of_notMem hkey hst)]
      simp [ofParty, hj]

/-- On its keys the store is the one it has made alone. -/
theorem Owns.run_eqOn (h : Owns i K l) (hst : Set.EqOn st st' K) :
    Set.EqOn (run (l.map Prod.snd) st) (run (ofParty i l) st') K := by
  induction l generalizing st st' with
  | nil => exact hst
  | cons e l ih =>
    obtain ⟨j, op⟩ := e
    by_cases hj : j = i
    · subst hj
      have hrest := ih h.tail (op.apply_eqOn (h.own op List.mem_cons_self) hst)
      simpa [ofParty, run_cons] using hrest
    · have hrest := ih h.tail (op.eqOn_of_notMem (h.others j op hj List.mem_cons_self) hst)
      simpa [ofParty, hj, run_cons] using hrest

/-! ## Histories of several parties -/

/-- The operations of a history of several parties. -/
def partyOps (l : List (τ × Op κ α × Bool)) : List (τ × Op κ α) := l.map (Prod.map id Prod.fst)

variable {log : List (τ × Op κ α × Bool)}

/-- In a legal history every party has got its answers. -/
theorem Legal.answersTo_eq (h : Legal (log.map Prod.snd) st) (i : τ) :
    answersTo i (partyOps log) st = (ofParty i log).map Prod.snd := by
  induction log generalizing st with
  | nil => rfl
  | cons e log ih =>
    obtain ⟨j, op, b⟩ := e
    obtain ⟨hb, hrest⟩ : b = op.accepted st ∧ Legal (log.map Prod.snd) (op.apply st) := List.cons_eq_cons.mp h
    have hlog := ih hrest
    by_cases hj : j = i
    · subst hj hb
      simpa [partyOps, answersTo, ofParty] using hlog
    · simpa [partyOps, answersTo, ofParty, hj] using hlog

/-- What a legal history has of a party whose keys are its own is legal. -/
theorem Owns.legal (h : Owns i K (partyOps log)) (hlog : Legal (log.map Prod.snd) st) :
    Legal (ofParty i log) st := by
  have hanswers := h.answersTo_eq (Set.eqOn_refl st K)
  rwa [hlog.answersTo_eq, partyOps, ofParty_map] at hanswers

end KeyValue
