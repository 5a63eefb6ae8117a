import AmuleD.Download.Ics.Shrink
import Mathlib.Data.List.Pairwise

open intervals

namespace amuled.download.ics

def PART_SIZE : Int := 9728000

def EMBLOCK_SIZE : Int := 184320

/-- Inclusive bounds of a part. -/
def part_bounds (part : Nat) (total_size : Int) : Int × Int :=
  let part_start := part * PART_SIZE
  (part_start, min (part_start + PART_SIZE) total_size - 1)

/-- The inner `while` loop of `next_block_in_part`. -/
def next_in_gap (part_start gap_limit : Int) (req_list : List Range) (start : Int) : Option Range :=
  if start ≤ gap_limit then
    let block_end := part_start + ((start - part_start) / EMBLOCK_SIZE + 1) * EMBLOCK_SIZE - 1
    let stop := min gap_limit block_end
    match shrink_to_avoid start stop req_list with
    | some shrunk => some shrunk
    | none => next_in_gap part_start gap_limit req_list (stop + 1)
  else none
termination_by (gap_limit + 1 - start).toNat
decreasing_by
  simp only [EMBLOCK_SIZE] at *
  omega

def next_block_in_part (part : Nat) (total_size : Int) (gaps requested : List Range) : Option Range :=
  let (part_start, part_end) := part_bounds part total_size
  gaps.findSome? fun (g_start, g_end) =>
    if g_end < part_start ∨ g_start > part_end then none
    else next_in_gap part_start (min g_end part_end) requested (max g_start part_start)

/-- The windows the inner loop tries, in order. -/
def gapWindows (part_start gap_limit start : Int) : List Range :=
  if start ≤ gap_limit then
    let block_end := part_start + ((start - part_start) / EMBLOCK_SIZE + 1) * EMBLOCK_SIZE - 1
    let stop := min gap_limit block_end
    (start, stop) :: gapWindows part_start gap_limit (stop + 1)
  else []
termination_by (gap_limit + 1 - start).toNat
decreasing_by
  simp only [EMBLOCK_SIZE] at *
  omega

/-- The windows of a part, in the order in which they are tried. -/
def partWindows (part : Nat) (total_size : Int) (gaps : List Range) : List Range :=
  gaps.flatMap fun (g_start, g_end) =>
    let (part_start, part_end) := part_bounds part total_size
    if g_end < part_start ∨ g_start > part_end then []
    else gapWindows part_start (min g_end part_end) (max g_start part_start)

/-- A window of a part: the bytes of one of its gaps in one of its blocks of
`EMBLOCK_SIZE`. -/
def IsWindow (total_size : Int) (gaps : List Range) (part : Nat) (window : Range) : Prop :=
  ∃ gap ∈ gaps, ∃ index : Nat,
    window = (max gap.1 ((part_bounds part total_size).1 + index * EMBLOCK_SIZE),
      min gap.2 (min (part_bounds part total_size).2
        ((part_bounds part total_size).1 + (index + 1) * EMBLOCK_SIZE - 1))) ∧
    window.1 ≤ window.2

section Windows

variable {total_size : Int} {gaps requested : List Range} {part : Nat}

theorem next_in_gap_eq (part_start gap_limit start : Int) (req_list : List Range) :
    next_in_gap part_start gap_limit req_list start =
      (gapWindows part_start gap_limit start).findSome? fun window =>
        shrink_to_avoid window.1 window.2 req_list := by
  induction start using gapWindows.induct part_start gap_limit with
  | case1 start hmore block_end stop ih =>
    rw [next_in_gap, gapWindows, if_pos hmore, if_pos hmore]
    simp only [List.findSome?_cons]
    cases shrink_to_avoid start stop req_list with
    | none => exact ih
    | some shrunk => rfl
  | case2 start hdone =>
    rw [next_in_gap, gapWindows, if_neg hdone, if_neg hdone]
    rfl

/-- A part's next block is what is left of the first window with a free byte. -/
theorem next_block_in_part_eq (part : Nat) (total_size : Int) (gaps requested : List Range) :
    next_block_in_part part total_size gaps requested =
      (partWindows part total_size gaps).findSome? fun window =>
        shrink_to_avoid window.1 window.2 requested := by
  rw [next_block_in_part, partWindows]
  simp only
  induction gaps with
  | nil => rfl
  | cons gap gaps ih =>
    rw [List.findSome?_cons, List.flatMap_cons, List.findSome?_append, ih]
    by_cases houtside : gap.2 < (part_bounds part total_size).1 ∨ gap.1 > (part_bounds part total_size).2
    · simp only [houtside, if_true, List.findSome?_nil, Option.none_or]
    · simp only [houtside, if_false, next_in_gap_eq]
      cases (gapWindows _ _ _).findSome? _ <;> rfl

/-- The inner loop tries exactly the non-empty windows from its start on. -/
theorem mem_gapWindows {part_start gap_limit start : Int} (hstart : part_start ≤ start)
    (window : Range) :
    window ∈ gapWindows part_start gap_limit start ↔
      ∃ index : Nat, window = (max start (part_start + index * EMBLOCK_SIZE),
        min gap_limit (part_start + (index + 1) * EMBLOCK_SIZE - 1)) ∧ window.1 ≤ window.2 := by
  induction start using gapWindows.induct part_start gap_limit with
  | case1 start hmore block_end stop ih =>
    have hstop : start ≤ stop ∧ stop = min gap_limit block_end := by
      refine ⟨?_, rfl⟩
      simp only [stop, block_end, EMBLOCK_SIZE]
      omega
    rw [gapWindows, if_pos hmore, List.mem_cons, ih (by omega)]
    constructor
    · rintro (rfl | ⟨index, rfl, hnonempty⟩)
      · refine ⟨((start - part_start) / EMBLOCK_SIZE).toNat, ?_, hstop.1⟩
        have hindex : (((start - part_start) / EMBLOCK_SIZE).toNat : Int) =
            (start - part_start) / EMBLOCK_SIZE := by
          simp only [EMBLOCK_SIZE]
          omega
        rw [hindex]
        refine Prod.ext ?_ rfl
        simp only [EMBLOCK_SIZE]
        omega
      · refine ⟨index, ?_, ?_⟩
        · refine Prod.ext ?_ rfl
          simp only [stop, block_end, EMBLOCK_SIZE] at *
          omega
        · simp only [stop, block_end, EMBLOCK_SIZE] at *
          omega
    · rintro ⟨index, rfl, hnonempty⟩
      by_cases hindex : (index : Int) = (start - part_start) / EMBLOCK_SIZE
      · left
        rw [hindex]
        refine Prod.ext ?_ rfl
        simp only [EMBLOCK_SIZE]
        omega
      · right
        refine ⟨index, ?_, ?_⟩
        · refine Prod.ext ?_ rfl
          simp only [stop, block_end, EMBLOCK_SIZE] at *
          omega
        · simp only [stop, block_end, EMBLOCK_SIZE] at *
          omega
  | case2 start hdone =>
    rw [gapWindows, if_neg hdone]
    simp only [List.not_mem_nil, false_iff, not_exists, not_and]
    rintro index rfl
    simp only [EMBLOCK_SIZE]
    omega

theorem mem_partWindows (window : Range) :
    window ∈ partWindows part total_size gaps ↔ IsWindow total_size gaps part window := by
  simp only [partWindows, List.mem_flatMap, IsWindow]
  apply exists_congr
  intro gap
  apply and_congr_right
  intro _
  split
  · rename_i houtside
    simp only [List.not_mem_nil, false_iff, not_exists, not_and]
    rintro index rfl
    simp only [EMBLOCK_SIZE]
    omega
  · rename_i hinside
    rw [mem_gapWindows (Int.le_max_right _ _)]
    apply exists_congr
    intro index
    have hwindow : (max (max gap.1 (part_bounds part total_size).1)
          ((part_bounds part total_size).1 + index * EMBLOCK_SIZE),
        min (min gap.2 (part_bounds part total_size).2)
          ((part_bounds part total_size).1 + (index + 1) * EMBLOCK_SIZE - 1)) =
        (max gap.1 ((part_bounds part total_size).1 + index * EMBLOCK_SIZE),
          min gap.2 (min (part_bounds part total_size).2
            ((part_bounds part total_size).1 + (index + 1) * EMBLOCK_SIZE - 1))) := by
      simp only [EMBLOCK_SIZE]
      refine Prod.ext ?_ ?_ <;> simp only <;> omega
    rw [hwindow]

theorem bounds_of_inRange {low high base last limit x : Int}
    (hx : InRange (max low base, min high (min limit last)) x) :
    (low ≤ x ∧ x ≤ high) ∧ (base ≤ x ∧ x ≤ last) ∧ x ≤ limit := by
  obtain ⟨hlow, hbase⟩ := Int.max_le.mp hx.1
  obtain ⟨hhigh, hrest⟩ := Int.le_min.mp hx.2
  obtain ⟨hlimit, hlast⟩ := Int.le_min.mp hrest
  exact ⟨⟨hlow, hhigh⟩, ⟨hbase, hlast⟩, hlimit⟩

/-- A byte of a window lies in one of the gaps and in the part. -/
theorem IsWindow.inRange {window : Range} (hwindow : IsWindow total_size gaps part window) {x : Int}
    (hx : InRange window x) :
    (∃ gap ∈ gaps, InRange gap x) ∧ InRange (part_bounds part total_size) x := by
  obtain ⟨gap, hgap, index, rfl, _⟩ := hwindow
  obtain ⟨hgapx, ⟨hlow, _⟩, hhigh⟩ := bounds_of_inRange hx
  have hindex : 0 ≤ (index : Int) * EMBLOCK_SIZE := Int.mul_nonneg (Int.natCast_nonneg _) (by decide)
  exact ⟨⟨gap, hgap, hgapx⟩, Int.le_trans (Int.le_add_of_nonneg_right hindex) hlow, hhigh⟩

theorem index_eq_of_inRange {base x : Int} {index other : Nat}
    (hx : base + index * EMBLOCK_SIZE ≤ x ∧ x ≤ base + (index + 1) * EMBLOCK_SIZE - 1)
    (hxother : base + other * EMBLOCK_SIZE ≤ x ∧ x ≤ base + (other + 1) * EMBLOCK_SIZE - 1) :
    index = other := by
  simp only [EMBLOCK_SIZE] at hx hxother
  omega

theorem part_eq_of_inRange {otherPart : Nat} {x : Int}
    (hpart : InRange (part_bounds part total_size) x)
    (hother : InRange (part_bounds otherPart total_size) x) : part = otherPart := by
  obtain ⟨hlow, hhigh⟩ := hpart
  obtain ⟨hlowOther, hhighOther⟩ := hother
  simp only [part_bounds, PART_SIZE] at *
  omega

theorem gap_eq_of_inRange (hgaps : gaps.Pairwise fun first second => first.2 < second.1)
    {gap other : Range} (hgap : gap ∈ gaps) (hother : other ∈ gaps) {x : Int} (hx : InRange gap x)
    (hxother : InRange other x) : gap = other := by
  by_contra hne
  have hapart : gaps.Pairwise fun first second => first.2 < second.1 ∨ second.2 < first.1 :=
    hgaps.imp Or.inl
  have : Std.Symm fun first second : Range => first.2 < second.1 ∨ second.2 < first.1 :=
    ⟨fun _ _ h => h.symm⟩
  have hcases := hapart.forall hgap hother hne
  obtain ⟨hlow, hhigh⟩ := hx
  obtain ⟨hlowOther, hhighOther⟩ := hxother
  omega

/-- A byte is in one window only. -/
theorem IsWindow.unique (hgaps : gaps.Pairwise fun first second => first.2 < second.1)
    {window other : Range} {otherPart : Nat} (hwindow : IsWindow total_size gaps part window)
    (hother : IsWindow total_size gaps otherPart other) {x : Int} (hx : InRange window x)
    (hxother : InRange other x) : window = other := by
  obtain rfl : part = otherPart := part_eq_of_inRange (hwindow.inRange hx).2 (hother.inRange hxother).2
  obtain ⟨gap, hgap, index, rfl, _⟩ := hwindow
  obtain ⟨otherGap, hotherGap, otherIndex, rfl, _⟩ := hother
  obtain ⟨hgapx, hblock, _⟩ := bounds_of_inRange hx
  obtain ⟨hotherx, hblockOther, _⟩ := bounds_of_inRange hxother
  rw [gap_eq_of_inRange hgaps hgap hotherGap hgapx hotherx, index_eq_of_inRange hblock hblockOther]

end Windows

end amuled.download.ics
