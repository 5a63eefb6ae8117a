import Mathlib.Data.Nat.Bitwise

namespace xormetric

/-- Distances from two points to a third do not change with the origin. -/
theorem xor_xor_xor_cancel (own target point : Nat) :
    (own ^^^ target) ^^^ (own ^^^ point) = target ^^^ point := by
  apply Nat.eq_of_testBit_eq
  intro i
  simp only [Nat.testBit_xor]
  cases own.testBit i <;> cases target.testBit i <;> cases point.testBit i <;> rfl

theorem xor_left_inj {target a b : Nat} : target ^^^ a = target ^^^ b ↔ a = b := by
  constructor
  · intro h
    have hcancel := congrArg (target ^^^ ·) h
    simpa only [← Nat.xor_assoc, Nat.xor_self, Nat.zero_xor] using hcancel
  · rintro rfl
    rfl

/-- Of two points that agree above a bit, the one that has this bit of the target
is nearer to it. -/
theorem xor_lt_xor_of_testBit (target : Nat) {near far bit : Nat}
    (habove : near >>> (bit + 1) = far >>> (bit + 1)) (hnear : near.testBit bit = target.testBit bit)
    (hfar : far.testBit bit ≠ target.testBit bit) : target ^^^ near < target ^^^ far := by
  apply Nat.lt_of_testBit bit
  · rw [Nat.testBit_xor, hnear]
    cases target.testBit bit <;> rfl
  · rw [Nat.testBit_xor]
    cases htarget : target.testBit bit <;> cases hbit : far.testBit bit <;> simp_all
  · intro above hlarger
    have hagree := congrArg (fun value => value.testBit (above - (bit + 1))) habove
    simp only [Nat.testBit_shiftRight] at hagree
    have hindex : bit + 1 + (above - (bit + 1)) = above := by omega
    rw [hindex] at hagree
    rw [Nat.testBit_xor, Nat.testBit_xor, hagree]

/-- A prefix that is one bit longer ends in that bit. -/
theorem shiftRight_eq_two_mul_add (value bit : Nat) :
    value >>> bit = 2 * (value >>> (bit + 1)) + (value.testBit bit).toNat := by
  rw [Nat.shiftRight_succ, Nat.toNat_testBit, Nat.shiftRight_eq_div_pow]
  omega

end xormetric
