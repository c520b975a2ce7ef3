import Sdkd.ResultSet

/-!
# Delays

The delay of an operation is drawn between two bounds of the request. `getDelay` subtracts and adds
unsigned numbers, so that it draws below the first bound where the bounds come the wrong way round.
-/

namespace Sdkd

namespace ResultOptions

/-- The divisor of `getDelay`. -/
def delaySpan (o : ResultOptions) : ℕ := (o.delayMax + 2 ^ 32 - o.delayMin) % 2 ^ 32

/-- The subtraction and the addition of `getDelay` are those of the integers, where it computes them. -/
def DelayExact (o : ResultOptions) (rand : ℕ) : Prop :=
  o.drawsDelay = true →
    o.delayMin ≤ o.delayMax ∧ o.delayMin + rand % o.delaySpan < 2 ^ 32

theorem delaySpan_of_le {o : ResultOptions} (hle : o.delayMin ≤ o.delayMax) :
    o.delaySpan = o.delayMax - o.delayMin := by
  have hmax := o.delayMax_lt
  unfold delaySpan
  omega

/-- A delay is drawn only between two bounds that differ. -/
theorem ne_of_drawsDelay {o : ResultOptions} (hdraw : o.drawsDelay = true) :
    o.delay = 0 ∧ o.delayMin ≠ o.delayMax := by
  simp only [drawsDelay, decide_eq_true_eq] at hdraw
  exact ⟨hdraw.1, fun heq => hdraw.2 ⟨heq, o.settled hdraw.1 heq⟩⟩

theorem delaySpan_pos {o : ResultOptions} (hdraw : o.drawsDelay = true) : 0 < o.delaySpan := by
  have hne := (ne_of_drawsDelay hdraw).2
  have hmin := o.delayMin_lt
  have hmax := o.delayMax_lt
  unfold delaySpan
  omega

theorem getDelay_of_draws {o : ResultOptions} (hdraw : o.drawsDelay = true) (rand : ℕ) :
    o.getDelay rand = .ok ((o.delayMin + rand % o.delaySpan) % 2 ^ 32) := by
  unfold getDelay
  rw [if_pos hdraw]
  exact if_neg (delaySpan_pos hdraw).ne'

theorem getDelay_of_not_draws {o : ResultOptions} (hdraw : o.drawsDelay = false) (rand : ℕ) :
    o.getDelay rand = .ok o.delay := by
  unfold getDelay
  rw [hdraw]
  rfl

/-- Ordered bounds: the delay is the lower one and a remainder that stays below the upper one. -/
theorem getDelay_of_le {o : ResultOptions} (hdraw : o.drawsDelay = true) (hle : o.delayMin ≤ o.delayMax)
    (rand : ℕ) :
    o.DelayExact rand ∧ ∃ d, o.getDelay rand = .ok d ∧ o.delayMin ≤ d ∧ d < o.delayMax := by
  have hrem : rand % o.delaySpan < o.delaySpan := Nat.mod_lt _ (delaySpan_pos hdraw)
  have hspan := delaySpan_of_le hle
  have hmax := o.delayMax_lt
  have hsum : o.delayMin + rand % o.delaySpan < 2 ^ 32 := by omega
  refine ⟨fun _ => ⟨hle, hsum⟩, _, getDelay_of_draws hdraw rand, ?_⟩
  rw [Nat.mod_eq_of_lt hsum]
  omega

section Requests

variable [JsonAccess] (opts : Json)

/-- The delay of `opts` is its `DelayMsec` or else lies between its bounds, and nothing wraps around. -/
structure DelayInRange (rand : ℕ) : Prop where
  fixed : asUInt (opts.get "DelayMsec") ≠ 0 →
    (ofJson opts).getDelay rand = .ok (asUInt (opts.get "DelayMsec"))
  drawn : asUInt (opts.get "DelayMsec") = 0 → ∃ d, (ofJson opts).getDelay rand = .ok d ∧
    min (asUInt (opts.get "DelayMin")) (asUInt (opts.get "DelayMax")) ≤ d ∧
    d ≤ max (asUInt (opts.get "DelayMin")) (asUInt (opts.get "DelayMax"))
  exact : (ofJson opts).DelayExact rand

variable {opts}

/-- A `DelayMsec` replaces the bounds. -/
theorem ofJson_of_delay (hdelay : asUInt (opts.get "DelayMsec") ≠ 0) :
    (ofJson opts).delay = asUInt (opts.get "DelayMsec") ∧ (ofJson opts).drawsDelay = false := by
  have hsettled : (determineDelay (asUInt (opts.get "DelayMin")) (asUInt (opts.get "DelayMax"))
      (asUInt (opts.get "DelayMsec"))).2.2 = asUInt (opts.get "DelayMsec") := by
    unfold determineDelay
    rw [if_pos hdelay]
  refine ⟨hsettled, decide_eq_false fun hdraw => hdelay ?_⟩
  rw [← hsettled]
  exact hdraw.1

/-- Equal bounds are the delay. -/
theorem ofJson_of_eq (hdelay : asUInt (opts.get "DelayMsec") = 0)
    (heq : asUInt (opts.get "DelayMin") = asUInt (opts.get "DelayMax")) :
    (ofJson opts).delay = asUInt (opts.get "DelayMax") ∧ (ofJson opts).drawsDelay = false := by
  have hsettled : determineDelay (asUInt (opts.get "DelayMin")) (asUInt (opts.get "DelayMax"))
      (asUInt (opts.get "DelayMsec")) = (asUInt (opts.get "DelayMax"), asUInt (opts.get "DelayMax"),
        asUInt (opts.get "DelayMax")) := by
    unfold determineDelay
    rw [if_neg (not_not.mpr hdelay), if_pos heq]
  simp [ofJson, make, drawsDelay, hsettled]

/-- Bounds that differ are kept, and a delay is drawn from them. -/
theorem ofJson_of_ne (hdelay : asUInt (opts.get "DelayMsec") = 0)
    (hne : asUInt (opts.get "DelayMin") ≠ asUInt (opts.get "DelayMax")) :
    (ofJson opts).delayMin = asUInt (opts.get "DelayMin") ∧
      (ofJson opts).delayMax = asUInt (opts.get "DelayMax") ∧ (ofJson opts).drawsDelay = true := by
  have hsettled : determineDelay (asUInt (opts.get "DelayMin")) (asUInt (opts.get "DelayMax"))
      (asUInt (opts.get "DelayMsec")) = (asUInt (opts.get "DelayMin"), asUInt (opts.get "DelayMax"), 0) := by
    unfold determineDelay
    rw [if_neg (not_not.mpr hdelay), if_neg hne, hdelay]
  simp only [ofJson, make, drawsDelay, hsettled, true_and, decide_eq_true_eq]
  exact fun hboth => hne hboth.1

/-- Nothing is drawn for a `DelayMsec` and for equal bounds. -/
theorem not_draws_iff : (ofJson opts).drawsDelay = false ↔
    asUInt (opts.get "DelayMsec") ≠ 0 ∨ asUInt (opts.get "DelayMin") = asUInt (opts.get "DelayMax") := by
  by_cases hdelay : asUInt (opts.get "DelayMsec") = 0
  · by_cases heq : asUInt (opts.get "DelayMin") = asUInt (opts.get "DelayMax")
    · exact iff_of_true (ofJson_of_eq hdelay heq).2 (.inr heq)
    · rw [(ofJson_of_ne hdelay heq).2.2]
      simp [hdelay, heq]
  · exact iff_of_true (ofJson_of_delay hdelay).2 (.inl hdelay)

theorem delayInRange_of_not_draws (hdraw : (ofJson opts).drawsDelay = false) (rand : ℕ) :
    DelayInRange opts rand where
  fixed := fun hdelay => by
    rw [getDelay_of_not_draws hdraw, (ofJson_of_delay hdelay).1]
  drawn := fun hdelay => by
    have heq := (not_draws_iff.mp hdraw).resolve_left (not_not.mpr hdelay)
    refine ⟨_, getDelay_of_not_draws hdraw rand, ?_⟩
    rw [(ofJson_of_eq hdelay heq).1, heq]
    simp
  exact := fun htrue => by
    rw [hdraw] at htrue
    cases htrue

/-- **Delay range.** The delay of a request is what its options say, whatever random number is drawn,
unless its lower bound lies above the upper one and no `DelayMsec` overrides them. -/
theorem delayInRange_iff (opts : Json) (rand : ℕ) :
    DelayInRange opts rand ↔
      asUInt (opts.get "DelayMsec") ≠ 0 ∨
        asUInt (opts.get "DelayMin") ≤ asUInt (opts.get "DelayMax") := by
  cases hdraw : (ofJson opts).drawsDelay with
  | false =>
    exact iff_of_true (delayInRange_of_not_draws hdraw rand) ((not_draws_iff.mp hdraw).imp_right le_of_eq)
  | true =>
    obtain ⟨hdelay, hne⟩ : asUInt (opts.get "DelayMsec") = 0 ∧
        asUInt (opts.get "DelayMin") ≠ asUInt (opts.get "DelayMax") := by
      have hno := mt not_draws_iff.mpr (Bool.not_eq_false _ ▸ hdraw)
      rwa [not_or, not_not] at hno
    obtain ⟨hmin, hmax, -⟩ := ofJson_of_ne hdelay hne
    constructor
    · intro hrange
      right
      rw [← hmin, ← hmax]
      exact (hrange.exact hdraw).1
    · rintro (habsurd | hle)
      · exact absurd hdelay habsurd
      rw [← hmin, ← hmax] at hle
      obtain ⟨hexact, d, hd, hlo, hhi⟩ := getDelay_of_le hdraw hle rand
      rw [hmin] at hlo
      rw [hmax] at hhi
      exact ⟨fun habsurd => absurd hdelay habsurd,
        fun _ => ⟨d, hd, (min_le_left _ _).trans hlo, hhi.le.trans (le_max_right _ _)⟩, hexact⟩

/-- Reversed bounds: the random number 1 gives a delay outside them, unless they are the extreme ones. -/
theorem getDelay_one_of_reversed (hdelay : asUInt (opts.get "DelayMsec") = 0)
    (hlt : asUInt (opts.get "DelayMax") < asUInt (opts.get "DelayMin"))
    (hextreme : ¬ (asUInt (opts.get "DelayMax") = 0 ∧ asUInt (opts.get "DelayMin") = 2 ^ 32 - 1)) :
    ∃ d, (ofJson opts).getDelay 1 = .ok d ∧
      (d < asUInt (opts.get "DelayMax") ∨ asUInt (opts.get "DelayMin") < d) := by
  obtain ⟨hmin, hmax, hdraw⟩ := ofJson_of_ne hdelay hlt.ne'
  have hbound := (ofJson opts).delayMin_lt
  rw [← hmin, ← hmax] at hlt hextreme ⊢
  have hspan : 1 < (ofJson opts).delaySpan := by
    unfold delaySpan
    omega
  refine ⟨_, getDelay_of_draws hdraw 1, ?_⟩
  rw [Nat.mod_eq_of_lt hspan]
  omega

end Requests

/-- Ten milliseconds at most, and twenty at least. -/
def exampleReversedDelays : Json := .object [("DelayMin", .int 20), ("DelayMax", .int 10)]

/-- A delay above twenty milliseconds, by way of a difference that wraps around. -/
theorem reversedDelays_out_of_range :
    letI := JsonAccess.plain
    ¬ DelayInRange exampleReversedDelays 1 := by
  let := JsonAccess.plain
  intro hrange
  have hdelay : asUInt (exampleReversedDelays.get "DelayMsec") = 0 := rfl
  obtain ⟨d, hd, hlo, hhi⟩ := hrange.drawn hdelay
  obtain ⟨d', hd', hout⟩ := getDelay_one_of_reversed hdelay (by decide) (by decide)
  obtain rfl := Except.ok.inj (hd.symm.trans hd')
  rcases hout with hlt | hlt
  · exact absurd (hlo.trans_lt hlt) (by decide)
  · exact absurd (hlt.trans_le hhi) (by decide)

end ResultOptions

end Sdkd
