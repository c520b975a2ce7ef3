import Mathlib.Data.Int.Log
import Mathlib.Algebra.Order.Floor.Semiring
import Mathlib.Data.Rat.Floor
import Mathlib.Tactic.FieldSimp
import Mathlib.Tactic.Linarith
import Mathlib.Tactic.Positivity

/-!
# Rounding to a number of binary digits

Positive rational numbers rounded to `p` significant binary digits, to the nearest of them and to the even one
of two that are equally near. Exponents have no bounds.

## Main definitions

- `roundEven` — the nearest whole number
- `roundTo` — the nearest number of `p` digits

## Main results

- `roundTo_natCast` — small whole numbers are not rounded
- `floor_roundTo_div` — the rounded quotient of small whole numbers has the whole part of the exact one
-/

namespace Rounding

/-- The nearest whole number, an even one if there are two. -/
def roundEven (x : ℚ) : ℤ :=
  if Int.fract x < 1 / 2 then ⌊x⌋
  else if 1 / 2 < Int.fract x then ⌊x⌋ + 1
  else if ⌊x⌋ % 2 = 0 then ⌊x⌋ else ⌊x⌋ + 1

theorem floor_le_roundEven (x : ℚ) : ⌊x⌋ ≤ roundEven x := by
  unfold roundEven
  split_ifs <;> omega

theorem roundEven_le (x : ℚ) : (roundEven x : ℚ) ≤ x + 1 / 2 := by
  have hfract := Int.self_sub_floor x
  have hnonneg := Int.fract_nonneg x
  unfold roundEven
  split_ifs <;> push_cast <;> linarith

theorem roundEven_intCast (n : ℤ) : roundEven n = n := by
  rw [roundEven, Int.fract_intCast, if_pos (by norm_num), Int.floor_intCast]

/-- The distance of numbers of `p` digits near `x`. -/
def unit (p : ℕ) (x : ℚ) : ℚ := 2 ^ (Int.log 2 x + 1 - p)

/-- `x`, rounded to `p` digits. -/
def roundTo (p : ℕ) (x : ℚ) : ℚ := roundEven (x / unit p x) * unit p x

variable {p : ℕ} {x : ℚ}

theorem unit_pos (p : ℕ) (x : ℚ) : 0 < unit p x := zpow_pos (by norm_num) _

/-- Near numbers of at most `p` digits the distance is at most one. -/
theorem log_lt (hpos : 0 < x) (hlt : x < 2 ^ p) : Int.log 2 x + 1 - p ≤ 0 := by
  have hlog : ((2 : ℕ) : ℚ) ^ Int.log 2 x ≤ x := Int.zpow_log_le_self (by norm_num) hpos
  have hexp : (2 : ℚ) ^ Int.log 2 x < 2 ^ (p : ℤ) := by
    rw [zpow_natCast]
    exact lt_of_le_of_lt (by exact_mod_cast hlog) hlt
  have := (zpow_lt_zpow_iff_right₀ (by norm_num : (1 : ℚ) < 2)).mp hexp
  omega

/-- There every whole number is a multiple of the distance. -/
theorem exists_mul_unit (h : Int.log 2 x + 1 - p ≤ 0) (n : ℤ) : ∃ m : ℤ, (n : ℚ) = m * unit p x := by
  obtain ⟨k, hk⟩ : ∃ k : ℕ, Int.log 2 x + 1 - p = -k := ⟨(Int.log 2 x + 1 - p).natAbs, by omega⟩
  refine ⟨n * 2 ^ k, ?_⟩
  rw [unit, hk, zpow_neg, zpow_natCast]
  push_cast
  field_simp

/-- Rounding does not go below a number that is a multiple of the distance. -/
theorem le_roundTo {m : ℤ} (h : m * unit p x ≤ x) : m * unit p x ≤ roundTo p x := by
  have hunit := unit_pos p x
  have hle : m ≤ ⌊x / unit p x⌋ := by
    rw [Int.le_floor, le_div_iff₀ hunit]
    exact h
  have hround : (m : ℚ) ≤ roundEven (x / unit p x) := by exact_mod_cast hle.trans (floor_le_roundEven _)
  exact mul_le_mul_of_nonneg_right hround hunit.le

/-- It does not come to a multiple that is more than half the distance away. -/
theorem roundTo_lt {m : ℤ} (h : x + unit p x / 2 < m * unit p x) : roundTo p x < m * unit p x := by
  have hunit := unit_pos p x
  have hround := roundEven_le (x / unit p x)
  refine mul_lt_mul_of_pos_right (hround.trans_lt ?_) hunit
  rw [← sub_pos] at h ⊢
  have heq : (m : ℚ) - (x / unit p x + 1 / 2) = (m * unit p x - (x + unit p x / 2)) / unit p x := by
    field_simp
  rw [heq]
  exact div_pos h hunit

theorem roundTo_zero (p : ℕ) : roundTo p 0 = 0 := by
  have hzero : roundEven 0 = 0 := by simpa using roundEven_intCast 0
  rw [roundTo, zero_div, hzero, Int.cast_zero, zero_mul]

/-- A whole number of at most `p` digits is not rounded. -/
theorem roundTo_natCast {n : ℕ} (hn : n < 2 ^ p) : roundTo p n = n := by
  rcases Nat.eq_zero_or_pos n with rfl | hpos
  · simpa using roundTo_zero p
  have hle : Int.log 2 (n : ℚ) + 1 - p ≤ 0 := log_lt (by exact_mod_cast hpos) (by exact_mod_cast hn)
  obtain ⟨m, hm⟩ := exists_mul_unit hle n
  rw [Int.cast_natCast] at hm
  have hdiv : (n : ℚ) / unit p n = m := by
    rw [div_eq_iff (unit_pos p _).ne']
    exact hm
  rw [roundTo, hdiv, roundEven_intCast]
  exact hm.symm

/-- A whole number of more than `p` digits is rounded to a whole number of more than `p` digits. -/
theorem exists_roundTo_natCast {n : ℕ} (hp : 0 < p) (hn : 2 ^ p ≤ n) :
    ∃ m : ℕ, roundTo p n = m ∧ 2 ^ p ≤ m := by
  have hpos : (0 : ℚ) < n := by exact_mod_cast (Nat.two_pow_pos p).trans_le hn
  have hlog : (2 : ℚ) ^ Int.log 2 (n : ℚ) ≤ n := by
    exact_mod_cast Int.zpow_log_le_self (b := 2) (by norm_num) hpos
  have hge : (p : ℤ) ≤ Int.log 2 (n : ℚ) := by
    rw [← Int.zpow_le_iff_le_log (by norm_num) hpos, zpow_natCast]
    exact_mod_cast hn
  obtain ⟨k, hk⟩ : ∃ k : ℕ, Int.log 2 (n : ℚ) + 1 - p = k := ⟨_, (Int.toNat_of_nonneg (by omega)).symm⟩
  have hunit : unit p n = 2 ^ k := by rw [unit, hk, zpow_natCast]
  -- the largest power of two below the number is a multiple of the distance
  have hmul : (2 : ℚ) ^ Int.log 2 (n : ℚ) = ((2 ^ (p - 1) : ℕ) : ℤ) * unit p n := by
    rw [hunit, show Int.log 2 (n : ℚ) = ((p - 1 + k : ℕ) : ℤ) by omega, zpow_natCast, pow_add]
    push_cast
    rfl
  have hround : (2 : ℚ) ^ p ≤ roundTo p n := by
    calc (2 : ℚ) ^ p ≤ 2 ^ Int.log 2 (n : ℚ) := by
          rw [← zpow_natCast]
          exact zpow_le_zpow_right₀ (by norm_num) hge
      _ ≤ roundTo p n := by
          rw [hmul] at hlog ⊢
          exact le_roundTo hlog
  have hwhole : roundTo p n = ((roundEven (n / unit p n) * 2 ^ k : ℤ) : ℚ) := by
    rw [roundTo, hunit]
    push_cast
    rfl
  have hnonneg : (2 ^ p : ℤ) ≤ roundEven (n / unit p n) * 2 ^ k := by
    rw [hwhole] at hround
    exact_mod_cast hround
  obtain ⟨m, hm⟩ := Int.eq_ofNat_of_zero_le ((pow_nonneg (by norm_num) p).trans hnonneg)
  refine ⟨m, by rw [hwhole, hm, Int.cast_natCast], ?_⟩
  rw [hm] at hnonneg
  exact_mod_cast hnonneg

/-- The whole part of a rounded quotient is exact where the dividend has at most `p` digits. -/
theorem floor_roundTo_div {a b : ℕ} (ha : a < 2 ^ p) (hb : 0 < b) : ⌊roundTo p (a / b)⌋ = (a / b : ℕ) := by
  rcases Nat.eq_zero_or_pos a with rfl | hpos
  · simp [roundTo_zero]
  have hbq : (0 : ℚ) < b := by exact_mod_cast hb
  have haq : (a : ℚ) < 2 ^ p := by exact_mod_cast ha
  have hx : (0 : ℚ) < a / b := div_pos (by exact_mod_cast hpos) hbq
  have hsmall : (a : ℚ) / b ≤ a := div_le_self (Nat.cast_nonneg a) (by exact_mod_cast hb)
  have hle := log_lt hx (hsmall.trans_lt haq)
  rw [Int.floor_eq_iff]
  constructor
  · -- the whole part is a multiple of the distance
    obtain ⟨m, hm⟩ := exists_mul_unit hle (a / b : ℕ)
    rw [hm]
    refine le_roundTo ?_
    rw [← hm, Int.cast_natCast]
    rw [le_div_iff₀ hbq]
    exact_mod_cast Nat.div_mul_le_self a b
  · -- and so is the next number, which is further away than half the distance
    obtain ⟨m, hm⟩ := exists_mul_unit hle ((a / b : ℕ) + 1)
    rw [Int.cast_add, Int.cast_one] at hm
    rw [hm]
    refine roundTo_lt ?_
    rw [← hm, Int.cast_natCast]
    have hlog : (2 : ℚ) ^ Int.log 2 ((a : ℚ) / b) ≤ a / b := by
      exact_mod_cast Int.zpow_log_le_self (b := 2) (by norm_num) hx
    have hunit : unit p ((a : ℚ) / b) = 2 ^ Int.log 2 ((a : ℚ) / b) * (2 / 2 ^ p) := by
      rw [unit, zpow_sub₀ (by norm_num), zpow_add₀ (by norm_num), zpow_one, zpow_natCast, mul_div_assoc]
    have hhalf : unit p ((a : ℚ) / b) / 2 < 1 / b := by
      rw [hunit]
      calc (2 : ℚ) ^ Int.log 2 ((a : ℚ) / b) * (2 / 2 ^ p) / 2 = 2 ^ Int.log 2 ((a : ℚ) / b) / 2 ^ p := by ring
        _ ≤ a / b / 2 ^ p := by gcongr
        _ < 1 / b := by
          rw [div_div, div_lt_div_iff₀ (by positivity) hbq]
          nlinarith
    have hquotient : (a : ℚ) / b + 1 / b ≤ (a / b : ℕ) + 1 := by
      rw [← add_div, div_le_iff₀ hbq]
      have hlt := Nat.lt_mul_div_succ a hb
      have hsucc : a + 1 ≤ (a / b + 1) * b := by rw [mul_comm]; exact hlt
      exact_mod_cast hsucc
    linarith

end Rounding
