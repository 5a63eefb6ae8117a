import AmuleD.Download.Ics.Sound
import Mathlib.Algebra.Order.Floor.Ring
import Mathlib.Data.Rat.Floor
import Mathlib.Tactic.Linarith

open intervals

namespace amuled.download.ics

section Ceiling

variable {numerator denominator : Nat}

theorem round_half_even_bounds :
    numerator / denominator ≤ round_half_even numerator denominator ∧
      round_half_even numerator denominator ≤ numerator / denominator + 1 := by
  simp only [round_half_even]
  split <;> omega

theorem round_half_even_of_dvd (hpos : 0 < denominator) (quotient : Nat) :
    round_half_even (denominator * quotient) denominator = quotient := by
  simp only [round_half_even]
  rw [Nat.mul_mod_right, Nat.mul_div_cancel_left _ hpos, if_pos (Or.inl (by omega))]

/-- Rounding a quotient up to the next integer is not disturbed by the double it
passes through, as long as the double's last bit is worth at most one part of the
denominator. -/
theorem math_ceil_div_eq (hpos : 0 < denominator) (hmagnitude : (numerator / denominator).log2 ≤ 52)
    (hscale : denominator ≤ 2 ^ (52 - (numerator / denominator).log2)) :
    math_ceil_div numerator denominator = (numerator + denominator - 1) / denominator := by
  rw [math_ceil_div]
  simp only
  rw [if_pos hmagnitude]
  generalize 2 ^ (52 - (numerator / denominator).log2) = scale at hscale
  have hscalePos : 0 < scale := Nat.lt_of_lt_of_le hpos hscale
  have hsplit := Nat.div_add_mod numerator denominator
  have hmod := Nat.mod_lt numerator hpos
  generalize numerator / denominator = quotient at hsplit
  generalize numerator % denominator = remainder at hsplit hmod
  subst hsplit
  obtain rfl | hremainder := Nat.eq_zero_or_pos remainder
  · -- An exact quotient is a double already.
    have hexact : (denominator * quotient + 0) * scale = denominator * (quotient * scale) := by
      rw [Nat.add_zero, Nat.mul_assoc]
    rw [hexact, round_half_even_of_dvd hpos, Nat.add_zero]
    have hleft : (quotient * scale + scale - 1) / scale = quotient := by
      rw [Nat.div_eq_iff hscalePos]
      omega
    have hright : (denominator * quotient + denominator - 1) / denominator = quotient := by
      rw [Nat.div_eq_iff hpos, Nat.mul_comm quotient]
      omega
    rw [hleft, hright]
  · -- The double stands strictly above the quotient and not above its successor.
    have hquotient : (denominator * quotient + remainder) * scale / denominator =
        quotient * scale + remainder * scale / denominator := by
      rw [Nat.add_mul, Nat.mul_assoc, Nat.mul_add_div hpos]
    have hfraction : 1 ≤ remainder * scale / denominator := by
      rw [Nat.one_le_div_iff hpos]
      exact Nat.le_trans hscale (Nat.le_mul_of_pos_left scale hremainder)
    have hbelow : remainder * scale / denominator < scale := by
      rw [Nat.div_lt_iff_lt_mul hpos, Nat.mul_comm scale]
      exact Nat.mul_lt_mul_of_pos_right hmod hscalePos
    obtain ⟨hlower, hupper⟩ := @round_half_even_bounds ((denominator * quotient + remainder) * scale) denominator
    rw [hquotient] at hlower hupper
    generalize round_half_even ((denominator * quotient + remainder) * scale) denominator = rounded
      at hlower hupper
    have hleft : (rounded + scale - 1) / scale = quotient + 1 := by
      rw [Nat.div_eq_iff hscalePos, Nat.succ_mul]
      omega
    have hright : (denominator * quotient + remainder + denominator - 1) / denominator = quotient + 1 := by
      rw [Nat.div_eq_iff hpos, Nat.succ_mul, Nat.mul_comm quotient]
      omega
    rw [hleft, hright]

end Ceiling

/-- As many sources download a part as its gap has room for. -/
def OverAssigned (gap_size parts_downloading : Int) : Prop :=
  ⌈(3 * gap_size : ℚ) / PART_SIZE⌉ ≤ parts_downloading

theorem overAssigned_iff {gap_size parts_downloading : Int} :
    OverAssigned gap_size parts_downloading ↔ 3 * gap_size ≤ parts_downloading * PART_SIZE := by
  have hpos : (0 : ℚ) < (PART_SIZE : ℤ) := by norm_num [PART_SIZE]
  rw [OverAssigned, Int.ceil_le, div_le_iff₀ hpos]
  exact_mod_cast Iff.rfl

instance (gap_size parts_downloading : Int) : Decidable (OverAssigned gap_size parts_downloading) :=
  decidable_of_iff _ overAssigned_iff.symm

/-- The field of the transfer size that the spread and the share mode pack. -/
def size2transfer_shifted (size2transfer parts_downloading : Int) : Int :=
  min 0xFFFF ((size2transfer + PART_SIZE * parts_downloading / CM_MAX_SRC_CHUNK) >>> 8)

theorem shiftRight_eight (x : Int) : x >>> (8 : Int) = x / 256 :=
  (Int.shiftRight_natCast_right x 8).trans (Int.shiftRight_eq_div_pow x 8)

/-- The preference before the penalty. -/
def unpenalized (mode : ChunkMode) (size2transfer parts_downloading : Int) : Int :=
  match mode with
  | .release => size2transfer
  | .spread => size2transfer_shifted size2transfer parts_downloading * 2 ^ 16
  | .share => size2transfer_shifted size2transfer parts_downloading * 2 ^ 16

section Preference

variable {gap_size parts_downloading : Int}

/-- The penalty's threshold is the exact one, for all the doubles on its way. -/
theorem threshold_le_iff (hpos : 0 < gap_size) (hsize : gap_size ≤ PART_SIZE) :
    parts_downloading ≥ math_ceil_div (gap_size * 3).toNat PART_SIZE.toNat ↔
      OverAssigned gap_size parts_downloading := by
  have hquotient : (gap_size * 3).toNat / PART_SIZE.toNat < 2 ^ 2 := by
    rw [Nat.div_lt_iff_lt_mul (by decide)]
    simp only [PART_SIZE] at *
    omega
  have hlog : ((gap_size * 3).toNat / PART_SIZE.toNat).log2 ≤ 1 := by
    by_cases hzero : (gap_size * 3).toNat / PART_SIZE.toNat = 0
    · rw [hzero]
      decide
    · exact Nat.le_of_lt_succ ((Nat.log2_lt hzero).mpr hquotient)
  have hscale : PART_SIZE.toNat ≤ 2 ^ (52 - ((gap_size * 3).toNat / PART_SIZE.toNat).log2) :=
    Nat.le_trans (show PART_SIZE.toNat ≤ 2 ^ 51 by decide)
      (Nat.pow_le_pow_right (by decide) (by omega))
  rw [math_ceil_div_eq (by decide) (by omega) hscale, overAssigned_iff,
    show PART_SIZE.toNat = 9728000 from rfl]
  simp only [PART_SIZE]
  omega

theorem c_pref_eq (mode : ChunkMode) (size2transfer : Int) (hpos : 0 < gap_size)
    (hsize : gap_size ≤ PART_SIZE) :
    c_pref mode size2transfer parts_downloading gap_size =
      if OverAssigned gap_size parts_downloading then
        Int.lor (unpenalized mode size2transfer parts_downloading) 0xFF000000
      else unpenalized mode size2transfer parts_downloading := by
  have hiff : (gap_size > 0 ∧ parts_downloading ≥ math_ceil_div (gap_size * 3).toNat PART_SIZE.toNat) ↔
      OverAssigned gap_size parts_downloading := by
    rw [threshold_le_iff hpos hsize]
    exact and_iff_right hpos
  simp only [c_pref, hiff]
  cases mode <;> rfl

/-- Where a part has room for a source, the transfer size is far from the value it
saturates at, and stays below the penalty in every mode. -/
theorem unpenalized_lt (mode : ChunkMode) (hpos : 0 < gap_size)
    (hroom : ¬ OverAssigned gap_size parts_downloading) :
    unpenalized mode (PART_SIZE - gap_size) parts_downloading < 0xFF000000 := by
  rw [overAssigned_iff] at hroom
  have hshifted : size2transfer_shifted (PART_SIZE - gap_size) parts_downloading ≤ 38000 := by
    rw [size2transfer_shifted, shiftRight_eight]
    simp only [PART_SIZE, CM_MAX_SRC_CHUNK] at *
    omega
  cases mode with
  | release =>
    simp only [unpenalized, PART_SIZE]
    omega
  | spread =>
    simp only [unpenalized]
    omega
  | share =>
    simp only [unpenalized]
    omega

/-- The fields of an over-assigned part fit the word of 32 bits. -/
theorem unpenalized_word (mode : ChunkMode) (hpos : 0 < gap_size) (hsize : gap_size ≤ PART_SIZE)
    (hover : OverAssigned gap_size parts_downloading) :
    0 ≤ unpenalized mode (PART_SIZE - gap_size) parts_downloading ∧
      unpenalized mode (PART_SIZE - gap_size) parts_downloading < 2 ^ 32 := by
  rw [overAssigned_iff] at hover
  have hshifted : 0 ≤ size2transfer_shifted (PART_SIZE - gap_size) parts_downloading ∧
      size2transfer_shifted (PART_SIZE - gap_size) parts_downloading ≤ 0xFFFF := by
    rw [size2transfer_shifted, shiftRight_eight]
    simp only [PART_SIZE, CM_MAX_SRC_CHUNK] at *
    omega
  cases mode with
  | release =>
    simp only [unpenalized, PART_SIZE] at *
    omega
  | spread =>
    simp only [unpenalized]
    omega
  | share =>
    simp only [unpenalized]
    omega

/-- The penalty is the largest byte, so it lifts every word to its top. -/
theorem penalty_bounds {word : Int} (hnonneg : 0 ≤ word) (hword : word < 2 ^ 32) :
    0xFF000000 ≤ Int.lor word 0xFF000000 ∧ Int.lor word 0xFF000000 < 2 ^ 32 := by
  lift word to Nat using hnonneg
  have hlor : Int.lor word 0xFF000000 = ((word ||| 0xFF000000 : Nat) : Int) := rfl
  have hbelow : word ||| 0xFF000000 < 2 ^ 32 :=
    Nat.or_lt_two_pow (by exact_mod_cast hword) (by decide)
  have habove : 0xFF000000 ≤ word ||| 0xFF000000 := Nat.right_le_or
  rw [hlor]
  exact ⟨by exact_mod_cast habove, by exact_mod_cast hbelow⟩

theorem c_pref_lt (mode : ChunkMode) (hpos : 0 < gap_size) (hsize : gap_size ≤ PART_SIZE)
    (hroom : ¬ OverAssigned gap_size parts_downloading) :
    c_pref mode (PART_SIZE - gap_size) parts_downloading gap_size < 0xFF000000 := by
  rw [c_pref_eq mode _ hpos hsize, if_neg hroom]
  exact unpenalized_lt mode hpos hroom

theorem c_pref_over (mode : ChunkMode) (hpos : 0 < gap_size) (hsize : gap_size ≤ PART_SIZE)
    (hover : OverAssigned gap_size parts_downloading) :
    0xFF000000 ≤ c_pref mode (PART_SIZE - gap_size) parts_downloading gap_size ∧
      c_pref mode (PART_SIZE - gap_size) parts_downloading gap_size < 2 ^ 32 := by
  rw [c_pref_eq mode _ hpos hsize, if_pos hover]
  obtain ⟨hnonneg, hword⟩ := unpenalized_word mode hpos hsize hover
  exact penalty_bounds hnonneg hword

end Preference

section ChoosePart

variable {available gap_parts : List Nat} {frequencies : List Int}
  {gap_sizes downloading_counts : Dict Nat Int} {last_part : Option Nat} {tie p : Nat}

/-- A part that is not kept from the last round has the least preference. -/
theorem choose_part_minimal (hchosen : choose_part available frequencies gap_parts gap_sizes
    downloading_counts last_part tie = some p) (hfresh : last_part ≠ some p) :
    ∃ pref, (p, pref) ∈ candidates available frequencies gap_parts gap_sizes downloading_counts ∧
      ∀ candidate ∈ candidates available frequencies gap_parts gap_sizes downloading_counts,
        pref ≤ candidate.2 := by
  rw [choose_part] at hchosen
  simp only at hchosen
  split at hchosen
  · rename_i q pref hfind
    obtain rfl := Option.some.inj hchosen
    have hlast := List.find?_some hfind
    exact absurd (of_decide_eq_true hlast) hfresh
  · split at hchosen
    · cases hchosen
    · rename_i min_pref hmin
      obtain ⟨candidate, hfilter, rfl⟩ := List.mem_map.mp (List.mem_of_getElem? hchosen)
      obtain ⟨hmem, hpref⟩ := List.mem_filter.mp hfilter
      refine ⟨candidate.2, hmem, fun other hother => ?_⟩
      rw [of_decide_eq_true hpref]
      exact (List.min?_eq_some_iff.mp hmin).2 other.2 (List.mem_map_of_mem hother)

theorem candidate_gap {candidate : Nat × Int}
    (hsizes : ∀ part gap_size, gap_sizes.get part = some gap_size →
      0 < gap_size ∧ gap_size ≤ PART_SIZE)
    (hmem : candidate ∈ candidates available frequencies gap_parts gap_sizes downloading_counts) :
    ∃ gap_size, 0 < gap_size ∧ gap_size ≤ PART_SIZE ∧
      (gap_sizes.get candidate.1).getD 0 = gap_size ∧
      candidate.2 = c_pref (ics_mode frequencies gap_parts) (PART_SIZE - gap_size)
        ((downloading_counts.get candidate.1).getD 0) gap_size := by
  obtain ⟨q, _, hsome⟩ := List.mem_filterMap.mp hmem
  simp only at hsome
  split at hsome
  · rename_i hboth
    obtain rfl := Option.some.inj hsome
    cases hfound : gap_sizes.get q with
    | none => simp [hfound] at hboth
    | some gap_size =>
      obtain ⟨hpos, hsize⟩ := hsizes q gap_size hfound
      exact ⟨gap_size, hpos, hsize, rfl, by simp only [Option.getD_some]⟩
  · cases hsome

/-- No part without room for another source is chosen before one that has room,
unless it is kept from the last round: the preferences of the two kinds lie on the
two sides of the penalty, whose byte no transfer size reaches by itself. -/
theorem choose_part_over_assigned
    (hsizes : ∀ part gap_size, gap_sizes.get part = some gap_size →
      0 < gap_size ∧ gap_size ≤ PART_SIZE) :
    (choose_part available frequencies gap_parts gap_sizes downloading_counts last_part tie = some p →
        last_part ≠ some p →
        OverAssigned ((gap_sizes.get p).getD 0) ((downloading_counts.get p).getD 0) →
        ∀ candidate ∈ candidates available frequencies gap_parts gap_sizes downloading_counts,
          OverAssigned ((gap_sizes.get candidate.1).getD 0)
            ((downloading_counts.get candidate.1).getD 0)) ∧
      ∀ mode : ChunkMode, ∀ gap_size parts_downloading : Int,
        0 < gap_size → gap_size ≤ PART_SIZE →
        let pref := c_pref mode (PART_SIZE - gap_size) parts_downloading gap_size
        (OverAssigned gap_size parts_downloading → 0xFF000000 ≤ pref ∧ pref < 2 ^ 32) ∧
          (¬ OverAssigned gap_size parts_downloading → pref < 0xFF000000 ∧
            size2transfer_shifted (PART_SIZE - gap_size) parts_downloading * 2 ^ 16 < 0xFF000000) := by
  refine ⟨fun hchosen hfresh hover candidate hcandidate => ?_,
    fun mode gap_size parts_downloading hpos hsize => ?_⟩
  · obtain ⟨pref, hmem, hleast⟩ := choose_part_minimal hchosen hfresh
    obtain ⟨gap_size, hpos, hsize, hget, hpref⟩ := candidate_gap hsizes hmem
    obtain ⟨otherSize, hotherPos, hotherSize, hotherGet, hotherPref⟩ := candidate_gap hsizes hcandidate
    simp only at hget hpref
    rw [hget] at hover
    rw [hotherGet]
    by_contra hroom
    have hbelow := c_pref_lt (ics_mode frequencies gap_parts) hotherPos hotherSize hroom
    have habove := (c_pref_over (ics_mode frequencies gap_parts) hpos hsize hover).1
    have hle := hleast candidate hcandidate
    rw [hpref, hotherPref] at hle
    omega
  · exact ⟨c_pref_over mode hpos hsize, fun hroom =>
      ⟨c_pref_lt mode hpos hsize hroom, unpenalized_lt .share hpos hroom⟩⟩

/-- Four sources hold part 0, which has room for three, and none holds part 1. -/
theorem choose_part_over_assigned_sample :
    let sizes : Dict Nat Int := Dict.ofList [(0, PART_SIZE), (1, 1)]
    let counts : Dict Nat Int := Dict.ofList [(0, 4)]
    choose_part [0, 1] [30, 30] [0, 1] sizes counts none 0 = some 1 ∧
      (OverAssigned ((sizes.get 1).getD 0) ((counts.get 1).getD 0) →
        ∀ candidate ∈ candidates [0, 1] [30, 30] [0, 1] sizes counts,
          OverAssigned ((sizes.get candidate.1).getD 0) ((counts.get candidate.1).getD 0)) := by
  intro sizes counts
  have hchosen : choose_part [0, 1] [30, 30] [0, 1] sizes counts none 0 = some 1 := by decide +kernel
  have hsizes : ∀ part gap_size, sizes.get part = some gap_size → 0 < gap_size ∧ gap_size ≤ PART_SIZE := by
    intro part gap_size hget
    have hmem := Dict.mem_items_iff.mpr hget
    rw [show sizes.items = [(1, 1), (0, PART_SIZE)] from rfl] at hmem
    simp only [List.mem_cons, Prod.mk.injEq, List.not_mem_nil, or_false] at hmem
    simp only [PART_SIZE] at *
    omega
  exact ⟨hchosen, (choose_part_over_assigned hsizes).1 hchosen (by decide)⟩

end ChoosePart

end amuled.download.ics
