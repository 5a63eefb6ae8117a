import AmuleD.Download.PartFile
import AmuleD.Intervals.HalfOpen
import Mathlib.Algebra.Order.Floor.Ring
import Mathlib.Data.Int.ConditionallyCompleteOrder
import Mathlib.Data.Rat.Floor
import Mathlib.Tactic.Linarith

open halfopen

namespace amuled.download

/-- A range of bytes that one peer is to fetch. -/
abbrev Region := Span Int

/-- The step to the next gap at the end of one; the gaps are those from `idx` on. -/
def next_gap (gap : Gap) (later : List Gap) (pos : Int) : List Gap × Int :=
  match later with
  | [] => ([gap], pos)
  | next :: _ => if pos ≥ gap.stop then (later, next.start) else (gap :: later, pos)

/-- The `while` loop of `_regions_from_gaps`: where it leaves `idx` and `pos`. -/
def fill_budget (gaps : List Gap) (pos budget : Int) : List Gap × Int :=
  match gaps with
  | [] => ([], pos)
  | gap :: later =>
    if budget > 0 then
      let take := min (gap.stop - pos) budget
      if take ≤ 0 then
        match later with
        | [] => ([gap], pos)
        | next :: rest => fill_budget (next :: rest) next.start budget
      else fill_budget (next_gap gap later (pos + take)).1 (next_gap gap later (pos + take)).2 (budget - take)
    else (gap :: later, pos)
termination_by (budget.toNat, gaps.length)
decreasing_by
  · exact Prod.Lex.right _ (by simp)
  · exact Prod.Lex.left _ _ (by omega)

/-- The `for` loop, with the peers that have no region yet. -/
def fill_regions (per : Int) : Nat → List Gap → Int → List Region
  | 0, _, _ => []
  | peers + 1, gaps, start =>
    if gaps = [] then [] else
      let (rest, pos) := fill_budget gaps start per
      if pos > start then ⟨start, pos⟩ :: fill_regions per peers rest pos else []

/-- `_regions_from_gaps`. -/
def regions_from_gaps (gaps : List Gap) (peers : Int) : List Region :=
  match gaps with
  | [] => []
  | first :: _ =>
    if peers ≤ 0 then []
    else
      let total := (gaps.map Gap.length).sum
      fill_regions ((total + peers - 1) / peers) peers.toNat gaps first.start

/-- Where the loops stand: in the first gap that is left, or at the end of the last one. -/
structure Cursor (gaps : List Gap) (pos : Int) : Prop where
  spaced : Spaced gaps
  placed : ∃ gap later, gaps = gap :: later ∧ gap.start ≤ pos ∧
    (pos < gap.stop ∨ later = [] ∧ pos = gap.stop)

/-- The bytes of the gaps that the loops have not passed. -/
def gap_bytes_left (gaps : List Gap) (pos : Int) : Int :=
  match gaps with
  | [] => 0
  | gap :: later => gap.stop - pos + (later.map Gap.length).sum

/-- What moving on by some bytes of budget does. -/
structure Move (gaps : List Gap) (pos budget : Int) (moved : List Gap × Int) : Prop where
  cursor : Cursor moved.1 moved.2
  le : pos ≤ moved.2
  lt : 0 < budget → 0 < gap_bytes_left gaps pos → pos < moved.2
  covers : ∀ x, moved.2 ≤ x → (Covers moved.1 x ↔ Covers gaps x)
  held_le : (held gaps pos moved.2 : Int) ≤ budget
  left : gap_bytes_left moved.1 moved.2 = max 0 (gap_bytes_left gaps pos - budget)

section Budget

variable {gap : Gap} {gaps later : List Gap} {pos budget : Int}

theorem sum_length_nonneg (hspaced : Spaced gaps) : 0 ≤ (gaps.map Gap.length).sum := by
  induction gaps with
  | nil => exact le_refl 0
  | cons gap later ih =>
    have hgap := hspaced.nonempty gap List.mem_cons_self
    have hlater := ih hspaced.tail
    rw [List.map_cons, List.sum_cons, Gap.length]
    omega

theorem Cursor.left_nonneg (hcursor : Cursor gaps pos) : 0 ≤ gap_bytes_left gaps pos := by
  obtain ⟨gap, later, rfl, hstart, hplace⟩ := hcursor.placed
  have hlater := sum_length_nonneg hcursor.spaced.tail
  simp only [gap_bytes_left]
  omega

/-- Where no byte is left, the gaps end before the cursor. -/
theorem Cursor.not_covers (hcursor : Cursor gaps pos) (hleft : gap_bytes_left gaps pos ≤ 0) {x : Int}
    (hx : pos ≤ x) : ¬ Covers gaps x := by
  obtain ⟨gap, later, rfl, hstart, hplace⟩ := hcursor.placed
  have hlater := sum_length_nonneg hcursor.spaced.tail
  simp only [gap_bytes_left] at hleft
  obtain ⟨rfl, rfl⟩ : later = [] ∧ pos = gap.stop := hplace.resolve_left (by omega)
  intro hcovers
  rcases covers_cons.mp hcovers with hholds | hrest
  · exact absurd hholds.2 (not_lt.mpr hx)
  · exact not_covers_nil x hrest

theorem Move.stay (hcursor : Cursor gaps pos) (hbudget : 0 ≤ budget)
    (hspent : budget = 0 ∨ gap_bytes_left gaps pos = 0) : Move gaps pos budget (gaps, pos) where
  cursor := hcursor
  le := le_refl pos
  lt := by omega
  covers := fun _ _ => Iff.rfl
  held_le := by
    rw [held_eq_zero (fun x hstart hstop => absurd hstop (not_lt.mpr hstart))]
    exact hbudget
  left := by
    have hleft := hcursor.left_nonneg
    simp only
    omega

theorem Move.trans {first second : Int} {middle moved : List Gap × Int} (hpos : 0 < first)
    (hnonneg : 0 ≤ second) (hfirst : Move gaps pos first middle)
    (hsecond : Move middle.1 middle.2 second moved) : Move gaps pos (first + second) moved where
  cursor := hsecond.cursor
  le := le_trans hfirst.le hsecond.le
  lt := fun _ hleft => lt_of_lt_of_le (hfirst.lt hpos hleft) hsecond.le
  covers := by
    intro x hx
    rw [hsecond.covers x hx, hfirst.covers x (le_trans hsecond.le hx)]
  held_le := by
    have hsame : held gaps middle.2 moved.2 = held middle.1 middle.2 moved.2 :=
      held_congr fun x hstart _ => (hfirst.covers x hstart).symm
    have hadd : held gaps pos moved.2 ≤ held gaps pos middle.2 + held gaps middle.2 moved.2 := held_le_add
    have hone := hfirst.held_le
    have htwo := hsecond.held_le
    omega
  left := by
    rw [hsecond.left, hfirst.left]
    omega

/-- Taking bytes of the first gap, and the jump to the next gap where it ends. -/
theorem move_next_gap {take : Int} (hspaced : Spaced (gap :: later)) (hstart : gap.start ≤ pos)
    (htake : 0 < take) (hinside : pos + take ≤ gap.stop) :
    Move (gap :: later) pos take (next_gap gap later (pos + take)) := by
  have hlater := sum_length_nonneg hspaced.tail
  have hlength : (held (gap :: later) pos (pos + take) : Int) ≤ pos + take - pos := held_le_length (by omega)
  have hstay (hcursor : Cursor (gap :: later) (pos + take)) :
      Move (gap :: later) pos take (gap :: later, pos + take) :=
    { cursor := hcursor
      le := by simp only; omega
      lt := by simp only; omega
      covers := fun _ _ => Iff.rfl
      held_le := by simp only; omega
      left := by simp only [gap_bytes_left]; omega }
  cases later with
  | nil =>
    apply hstay
    exact ⟨hspaced, gap, [], rfl, by omega, (lt_or_eq_of_le hinside).imp_right fun hend => ⟨rfl, hend⟩⟩
  | cons next rest =>
    rw [next_gap]
    by_cases hend : pos + take ≥ gap.stop
    · rw [if_pos hend]
      have hnext := (List.pairwise_cons.mp hspaced.apart).1 next List.mem_cons_self
      have hnonempty := hspaced.tail.nonempty next List.mem_cons_self
      have hbehind : ∀ x, next.start ≤ x → (Covers (next :: rest) x ↔ Covers (gap :: next :: rest) x) := by
        intro x hx
        rw [@covers_cons _ _ gap]
        refine ⟨Or.inr, fun hcovers => hcovers.resolve_left fun hholds => ?_⟩
        exact absurd hholds.2 (by omega)
      have hbetween : held (gap :: next :: rest) (pos + take) next.start = 0 := by
        apply held_eq_zero
        intro x hfrom hto hcovers
        rcases covers_cons.mp hcovers with hholds | hrest
        · exact absurd hholds.2 (by omega)
        · exact absurd (hspaced.tail.start_le hrest) (by omega)
      have hadd : held (gap :: next :: rest) pos next.start ≤
          held (gap :: next :: rest) pos (pos + take) + held (gap :: next :: rest) (pos + take) next.start :=
        held_le_add
      refine ⟨⟨hspaced.tail, next, rest, rfl, le_refl _, .inl hnonempty⟩, ?_, ?_, hbehind, ?_, ?_⟩
      · simp only
        omega
      · simp only
        omega
      · simp only
        omega
      · simp only [gap_bytes_left, List.map_cons, List.sum_cons, Gap.length] at hlater ⊢
        omega
    · rw [if_neg hend]
      apply hstay
      exact ⟨hspaced, gap, next :: rest, rfl, by omega, .inl (by omega)⟩

/-- The inner loop passes exactly its budget of gap bytes, or all that are left. -/
theorem move_fill_budget (hcursor : Cursor gaps pos) (hbudget : 0 ≤ budget) :
    Move gaps pos budget (fill_budget gaps pos budget) := by
  induction gaps, pos, budget using fill_budget.induct with
  | case1 pos budget =>
    obtain ⟨gap, later, hnil, _⟩ := hcursor.placed
    cases hnil
  | case2 pos budget gap hpositive take hdone =>
    obtain ⟨_, _, hcons, hstart, hplace⟩ := hcursor.placed
    cases hcons
    rw [fill_budget.eq_def]
    simp only
    rw [if_pos hpositive, if_pos hdone]
    refine Move.stay hcursor hbudget (.inr ?_)
    simp only [gap_bytes_left, List.map_nil, List.sum_nil]
    omega
  | case3 pos budget gap hpositive take hdone next rest ih =>
    -- Away from the last gap the cursor stands before the end of its gap.
    obtain ⟨_, _, hcons, hstart, hplace⟩ := hcursor.placed
    cases hcons
    have hinside : pos < gap.stop := hplace.resolve_right (by simp)
    omega
  | case4 pos budget gap later hpositive take hmore ih =>
    obtain ⟨_, _, hcons, hstart, hplace⟩ := hcursor.placed
    cases hcons
    have hfirst : Move (gap :: later) pos take _ := move_next_gap hcursor.spaced hstart (by omega) (by omega)
    have hsecond := ih hfirst.cursor (by omega)
    rw [fill_budget.eq_def]
    simp only
    rw [if_pos hpositive, if_neg hmore]
    have hmove := hfirst.trans (by omega) (by omega) hsecond
    rw [add_sub_cancel] at hmove
    exact hmove
  | case5 pos budget gap later hspent =>
    rw [fill_budget.eq_def]
    simp only
    rw [if_neg hspent]
    exact Move.stay hcursor hbudget (.inl (by omega))

end Budget

/-- What the regions from a position on are to be. -/
structure Cut (gaps : List Gap) (pos per : Int) (peers : Nat) (regions : List Region) : Prop where
  length_le : regions.length ≤ peers
  spaced : Spaced regions
  behind : ∀ region ∈ regions, pos ≤ region.start
  held_le : ∀ region ∈ regions, (held gaps region.start region.stop : Int) ≤ per
  covers : ∀ x, pos ≤ x → Covers gaps x → Covers regions x

section Regions

variable {gaps : List Gap} {pos per : Int}

theorem cut_nil (peers : Nat) (hfree : ∀ x, pos ≤ x → ¬ Covers gaps x) : Cut gaps pos per peers [] where
  length_le := Nat.zero_le peers
  spaced := ⟨by simp, List.Pairwise.nil⟩
  behind := by simp
  held_le := by simp
  covers := fun x hx hcovers => absurd hcovers (hfree x hx)

/-- One more peer with a full budget, in front of a cut of the rest. -/
theorem Cut.cons {peers : Nat} {moved : List Gap × Int} {regions : List Region}
    (hmove : Move gaps pos per moved) (hlt : pos < moved.2)
    (hcut : Cut moved.1 moved.2 per peers regions) :
    Cut gaps pos per (peers + 1) (⟨pos, moved.2⟩ :: regions) where
  length_le := by
    rw [List.length_cons]
    exact Nat.succ_le_succ hcut.length_le
  spaced := by
    refine ⟨?_, List.pairwise_cons.mpr ⟨hcut.behind, hcut.spaced.apart⟩⟩
    rw [List.forall_mem_cons]
    exact ⟨hlt, hcut.spaced.nonempty⟩
  behind := by
    rw [List.forall_mem_cons]
    exact ⟨le_refl pos, fun region hregion => le_trans hmove.le (hcut.behind region hregion)⟩
  held_le := by
    rw [List.forall_mem_cons]
    refine ⟨hmove.held_le, fun region hregion => ?_⟩
    have hsame : held gaps region.start region.stop = held moved.1 region.start region.stop :=
      held_congr fun x hx _ => (hmove.covers x (le_trans (hcut.behind region hregion) hx)).symm
    rw [hsame]
    exact hcut.held_le region hregion
  covers := by
    intro x hx hcovers
    rw [covers_cons]
    cases lt_or_ge x moved.2 with
    | inl hbefore => exact .inl ⟨hx, hbefore⟩
    | inr hafter => exact .inr (hcut.covers x hafter ((hmove.covers x hafter).mpr hcovers))

/-- With budgets for all the bytes that are left, the peers get all of them. -/
theorem cut_fill_regions (hper : 0 < per) (peers : Nat) (hcursor : Cursor gaps pos)
    (hfits : gap_bytes_left gaps pos ≤ peers * per) :
    Cut gaps pos per peers (fill_regions per peers gaps pos) := by
  induction peers generalizing gaps pos with
  | zero =>
    rw [fill_regions]
    exact cut_nil 0 fun x hx => hcursor.not_covers (by simpa using hfits) hx
  | succ peers ih =>
    have hmove := move_fill_budget hcursor (le_of_lt hper)
    have hgaps : gaps ≠ [] := by
      obtain ⟨gap, later, rfl, _⟩ := hcursor.placed
      exact List.cons_ne_nil gap later
    rw [fill_regions]
    simp only
    rw [if_neg hgaps]
    by_cases hlt : (fill_budget gaps pos per).2 > pos
    · rw [if_pos hlt]
      refine Cut.cons hmove hlt (ih hmove.cursor ?_)
      rw [hmove.left]
      have hpeers : ((peers + 1 : Nat) : Int) * per = peers * per + per := by
        rw [Nat.cast_add, Nat.cast_one, add_mul, one_mul]
      have hnonneg : 0 ≤ (peers : Int) * per := Int.mul_nonneg (Int.natCast_nonneg peers) (le_of_lt hper)
      omega
    · -- A peer is left without a region only when no byte is left.
      rw [if_neg hlt]
      have hempty : gap_bytes_left gaps pos ≤ 0 := by
        by_contra hsome
        exact hlt (hmove.lt hper (not_le.mp hsome))
      exact cut_nil (peers + 1) fun x hx => hcursor.not_covers hempty hx

end Regions

theorem ceil_div_eq {total peers : Int} (hpeers : 0 < peers) :
    ⌈(total : ℚ) / peers⌉ = (total + peers - 1) / peers := by
  have hcast : (0 : ℚ) < peers := by exact_mod_cast hpeers
  apply le_antisymm
  · rw [Int.ceil_le, div_le_iff₀ hcast]
    have hmul := Int.lt_mul_ediv_self_add (x := total + peers - 1) hpeers
    rw [mul_comm] at hmul
    exact_mod_cast (show total ≤ (total + peers - 1) / peers * peers by omega)
  · rw [Int.ediv_le_iff_le_mul hpeers]
    have hle := Int.le_ceil ((total : ℚ) / peers)
    rw [div_le_iff₀ hcast] at hle
    have hint : total ≤ ⌈(total : ℚ) / peers⌉ * peers := by exact_mod_cast hle
    omega

/-- The regions share out the bytes of the gaps: every such byte lies in exactly one
of them, and no peer is given more of them than its share rounded up. -/
theorem regions_from_gaps_partition {gaps : List Gap} {peers : Int} (hgaps : Spaced gaps)
    (hpeers : 1 ≤ peers) :
    ((regions_from_gaps gaps peers).length : Int) ≤ peers ∧
      (∀ region ∈ regions_from_gaps gaps peers, region.start < region.stop) ∧
      (regions_from_gaps gaps peers).Pairwise (fun a b => a.stop ≤ b.start) ∧
      (∀ x, Covers gaps x → ∃! region, region ∈ regions_from_gaps gaps peers ∧ region.Holds x) ∧
      ∀ region ∈ regions_from_gaps gaps peers,
        (((Finset.Ico region.start region.stop).filter (Covers gaps)).card : Int) ≤
          ⌈((gaps.map Gap.length).sum : ℚ) / peers⌉ := by
  cases gaps with
  | nil =>
    simp only [regions_from_gaps]
    exact ⟨by simp only [List.length_nil]; omega, by simp, List.Pairwise.nil, by simp, by simp⟩
  | cons gap later =>
    have hnonempty := hgaps.nonempty gap List.mem_cons_self
    have hlater := sum_length_nonneg hgaps.tail
    have htotal : 0 < ((gap :: later).map Gap.length).sum := by
      rw [List.map_cons, List.sum_cons, Gap.length]
      omega
    rw [ceil_div_eq (by omega)]
    simp only [regions_from_gaps]
    rw [if_neg (by omega)]
    generalize hsum : ((gap :: later).map Gap.length).sum = total at htotal
    have hper : 0 < (total + peers - 1) / peers := (Int.le_ediv_iff_mul_le (by omega)).mpr (by omega)
    have hcursor : Cursor (gap :: later) gap.start := ⟨hgaps, gap, later, rfl, le_refl _, .inl hnonempty⟩
    have hfits : gap_bytes_left (gap :: later) gap.start ≤ peers.toNat * ((total + peers - 1) / peers) := by
      have hleft : gap_bytes_left (gap :: later) gap.start = total := hsum
      rw [hleft, Int.toNat_of_nonneg (by omega)]
      have hmul := Int.lt_mul_ediv_self_add (x := total + peers - 1) (show 0 < peers by omega)
      omega
    have hcut := cut_fill_regions hper peers.toNat hcursor hfits
    refine ⟨?_, hcut.spaced.nonempty, hcut.spaced.apart, fun x hx => ?_, hcut.held_le⟩
    · have hlength := hcut.length_le
      omega
    · obtain ⟨region, hregion, hholds⟩ := hcut.covers x (hgaps.start_le hx) hx
      refine ⟨region, ⟨hregion, hholds⟩, ?_⟩
      rintro other ⟨hother, hotherHolds⟩
      exact hcut.spaced.unique hother hregion hotherHolds hholds

/-- Two touching gaps of three bytes and one of one byte: the budget of the first peer
ends with the first gap, and the third peer gets the byte of the last. -/
theorem regions_from_gaps_partition_sample :
    regions_from_gaps [⟨0, 3⟩, ⟨3, 6⟩, ⟨9, 10⟩] 3 = [⟨0, 3⟩, ⟨3, 9⟩, ⟨9, 10⟩] ∧
      (∀ x, Covers [⟨0, 3⟩, ⟨3, 6⟩, ⟨9, 10⟩] x →
        ∃! region, region ∈ regions_from_gaps [⟨0, 3⟩, ⟨3, 6⟩, ⟨9, 10⟩] 3 ∧ region.Holds x) := by
  refine ⟨?_, (regions_from_gaps_partition ⟨?_, ?_⟩ ?_).2.2.2.1⟩
  · simp [regions_from_gaps, fill_regions, fill_budget.eq_def, next_gap, Gap.length]
  · simp
  · simp
  · decide

end amuled.download
