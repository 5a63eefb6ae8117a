import Mathlib.Algebra.Order.Floor.Ring
import Mathlib.Algebra.Order.Archimedean.Basic
import Mathlib.Data.Int.Log
import Mathlib.Data.Rat.Floor
import Mathlib.Tactic.FieldSimp
import Mathlib.Tactic.Linarith

namespace rounding

/-- The integer nearest to a rational, the even one of two. -/
def half_even (x : ℚ) : ℤ :=
  if x - ⌊x⌋ < 1 / 2 then ⌊x⌋
  else if 1 / 2 < x - ⌊x⌋ then ⌊x⌋ + 1
  else if Even ⌊x⌋ then ⌊x⌋ else ⌊x⌋ + 1

theorem floor_le_half_even (x : ℚ) : ⌊x⌋ ≤ half_even x := by
  rw [half_even]
  split_ifs <;> omega

theorem half_even_le (x : ℚ) : half_even x ≤ ⌊x⌋ + 1 := by
  rw [half_even]
  split_ifs <;> omega

@[simp] theorem half_even_intCast (n : ℤ) : half_even n = n := by
  rw [half_even, Int.floor_intCast, sub_self, if_pos (by norm_num)]

theorem half_even_mono {x y : ℚ} (hle : x ≤ y) : half_even x ≤ half_even y := by
  rcases (Int.floor_le_floor hle).lt_or_eq with hless | hsame
  · calc half_even x ≤ ⌊x⌋ + 1 := half_even_le x
      _ ≤ ⌊y⌋ := hless
      _ ≤ half_even y := floor_le_half_even y
  · rw [half_even, half_even, ← hsame]
    have hfraction : x - (⌊x⌋ : ℚ) ≤ y - (⌊x⌋ : ℚ) := by linarith
    split_ifs <;> first | omega | (exfalso; linarith)

/-- The number nearest to a rational among those whose binary significand has the given number of digits after
the point, of two such numbers the one with the even significand. The exponent is not bounded. -/
def nearest (digits : ℕ) (x : ℚ) : ℚ :=
  half_even (x / 2 ^ (Int.log 2 x - digits)) * 2 ^ (Int.log 2 x - digits)

variable (digits : ℕ)

theorem two_zpow_split (exponent : ℤ) : (2 : ℚ) ^ exponent = ((2 ^ digits : ℕ) : ℚ) * 2 ^ (exponent - digits) := by
  rw [Nat.cast_pow, Nat.cast_ofNat, ← zpow_natCast, ← zpow_add₀ two_ne_zero]
  congr 1
  omega

@[simp] theorem nearest_zero : nearest digits 0 = 0 := by
  have hzero : half_even 0 = 0 := half_even_intCast 0
  rw [nearest, zero_div, hzero, Int.cast_zero, zero_mul]

theorem zpow_log_le_nearest {x : ℚ} (hpos : 0 < x) : (2 : ℚ) ^ Int.log 2 x ≤ nearest digits x := by
  have hunit : (0 : ℚ) < 2 ^ (Int.log 2 x - digits) := zpow_pos two_pos _
  have hlow : (2 : ℚ) ^ Int.log 2 x ≤ x := Int.zpow_log_le_self one_lt_two hpos
  rw [two_zpow_split digits] at hlow ⊢
  have hfloor : ((2 ^ digits : ℕ) : ℤ) ≤ ⌊x / 2 ^ (Int.log 2 x - digits)⌋ := by
    rw [Int.le_floor, le_div_iff₀ hunit]
    exact hlow
  have hsignificand := hfloor.trans (floor_le_half_even _)
  rw [nearest, mul_le_mul_iff_of_pos_right hunit]
  exact_mod_cast hsignificand

theorem nearest_le_zpow_log (x : ℚ) : nearest digits x ≤ (2 : ℚ) ^ (Int.log 2 x + 1) := by
  have hunit : (0 : ℚ) < 2 ^ (Int.log 2 x - digits) := zpow_pos two_pos _
  have hhigh : x < (2 : ℚ) ^ (Int.log 2 x + 1) := Int.lt_zpow_succ_log_self one_lt_two x
  have hshift : Int.log 2 x + 1 - (digits + 1 : ℕ) = Int.log 2 x - digits := by
    push_cast
    ring
  rw [two_zpow_split (digits + 1), hshift] at hhigh ⊢
  have hfloor : ⌊x / 2 ^ (Int.log 2 x - digits)⌋ < ((2 ^ (digits + 1) : ℕ) : ℤ) := by
    rw [Int.floor_lt, div_lt_iff₀ hunit]
    exact hhigh
  have hsignificand := (half_even_le _).trans hfloor
  rw [nearest, mul_le_mul_iff_of_pos_right hunit]
  exact_mod_cast hsignificand

theorem nearest_pos {x : ℚ} (hpos : 0 < x) : 0 < nearest digits x :=
  (zpow_pos two_pos _).trans_le (zpow_log_le_nearest digits hpos)

/-- Rounding keeps the order: within one binary order of magnitude the significands are rounded in order, and a
number is rounded to at most the power of two that starts the next. -/
theorem nearest_mono {x y : ℚ} (hx : 0 ≤ x) (hle : x ≤ y) : nearest digits x ≤ nearest digits y := by
  rcases hx.eq_or_lt with rfl | hpos
  · rw [nearest_zero]
    rcases hle.eq_or_lt with rfl | hy
    · rw [nearest_zero]
    · exact (nearest_pos digits hy).le
  · have hy : 0 < y := hpos.trans_le hle
    rcases (Int.log_mono_right (b := 2) hpos hle).lt_or_eq with hless | hsame
    · calc nearest digits x ≤ (2 : ℚ) ^ (Int.log 2 x + 1) := nearest_le_zpow_log digits x
        _ ≤ (2 : ℚ) ^ Int.log 2 y := zpow_le_zpow_right₀ one_le_two hless
        _ ≤ nearest digits y := zpow_log_le_nearest digits hy
    · have hunit : (0 : ℚ) < 2 ^ (Int.log 2 y - digits) := zpow_pos two_pos _
      rw [nearest, nearest, hsame, mul_le_mul_iff_of_pos_right hunit, Int.cast_le]
      exact half_even_mono ((div_le_div_iff_of_pos_right hunit).mpr hle)

/-- A whole number with few enough binary digits is exact. -/
theorem nearest_natCast {n : ℕ} (hsmall : n < 2 ^ (digits + 1)) : nearest digits n = n := by
  rcases Nat.eq_zero_or_pos n with rfl | hpos
  · exact nearest_zero digits
  · have hlog : Int.log 2 (n : ℚ) ≤ digits := by
      rw [Int.log_natCast, Int.ofNat_le]
      exact Nat.lt_succ_iff.mp (Nat.log_lt_of_lt_pow hpos.ne' hsmall)
    obtain ⟨shift, hshift⟩ := Int.le.dest hlog
    have hexponent : Int.log 2 (n : ℚ) - digits = -(shift : ℤ) := by omega
    have hunit : (2 : ℚ) ^ shift ≠ 0 := pow_ne_zero _ two_ne_zero
    have hwhole : (n : ℚ) / 2 ^ (-(shift : ℤ)) = ((n * 2 ^ shift : ℕ) : ℤ) := by
      rw [zpow_neg, zpow_natCast, div_inv_eq_mul]
      push_cast
      rfl
    rw [nearest, hexponent, hwhole, half_even_intCast, zpow_neg, zpow_natCast]
    push_cast
    field_simp

end rounding
