import AmuleD.Download.Ics.Block
import AmuleD.Download.Regions

open halfopen intervals

namespace amuled.download

/-- The chunk size of `partfile.py`, which is not the part size of the other modules. -/
def ED2K_CHUNK_SIZE : Int := 9728400

namespace PartFile

def chunk_count (part : PartFile) : Int :=
  let chunks := part.total_size / ED2K_CHUNK_SIZE
  let remainder := part.total_size % ED2K_CHUNK_SIZE
  chunks + if remainder ≠ 0 then 1 else 0

def chunk_bitmap (part : PartFile) : List Bool :=
  (List.range part.chunk_count.toNat).map fun (index : Nat) =>
    let chunk_start := (index : Int) * ED2K_CHUNK_SIZE
    let chunk_end := min (chunk_start + ED2K_CHUNK_SIZE) part.total_size
    !part.gaps.any fun gap => decide (gap.start < chunk_end ∧ gap.stop > chunk_start)

end PartFile

/-- Some byte of a range is missing. -/
def Touched (gaps : List Gap) (start stop : Int) : Prop := ∃ x, start ≤ x ∧ x < stop ∧ Covers gaps x

section Touched

variable {gaps : List Gap} {start middle stop : Int}

/-- The comparison of ends that the source makes, for gaps that are not empty. -/
theorem touched_iff (hnonempty : ∀ gap ∈ gaps, gap.start < gap.stop) (hrange : start < stop) :
    Touched gaps start stop ↔ ∃ gap ∈ gaps, gap.start < stop ∧ gap.stop > start := by
  constructor
  · rintro ⟨x, hstart, hstop, gap, hgap, hfrom, hto⟩
    exact ⟨gap, hgap, lt_of_le_of_lt hfrom hstop, lt_of_le_of_lt hstart hto⟩
  · rintro ⟨gap, hgap, hbefore, hbehind⟩
    have hlength := hnonempty gap hgap
    exact ⟨max start gap.start, le_max_left _ _, max_lt hrange hbefore, gap, hgap, le_max_right _ _,
      max_lt hbehind hlength⟩

theorem touched_split (hfirst : start ≤ middle) (hsecond : middle ≤ stop) :
    Touched gaps start stop ↔ Touched gaps start middle ∨ Touched gaps middle stop := by
  constructor
  · rintro ⟨x, hstart, hstop, hcovers⟩
    cases lt_or_ge x middle with
    | inl hbefore => exact .inl ⟨x, hstart, hbefore, hcovers⟩
    | inr hbehind => exact .inr ⟨x, hbehind, hstop, hcovers⟩
  · rintro (⟨x, hstart, hstop, hcovers⟩ | ⟨x, hstart, hstop, hcovers⟩)
    · exact ⟨x, hstart, lt_of_lt_of_le hstop hsecond, hcovers⟩
    · exact ⟨x, le_trans hfirst hstart, hstop, hcovers⟩

end Touched

namespace PartFile

variable {part : PartFile}

/-- The number of parts of the other modules. -/
def partTotal (part : PartFile) : Int := ⌈(part.total_size : ℚ) / ics.PART_SIZE⌉

/-- The bitmap is that of the parts: one entry for each, set where no byte of the part is missing. -/
structure ReportsParts (part : PartFile) : Prop where
  length : (part.chunk_bitmap.length : Int) = part.partTotal
  entry : ∀ (index : Nat) (hindex : index < part.chunk_bitmap.length), part.chunk_bitmap[index] = true ↔
    ∀ x, InRange (ics.part_bounds index part.total_size) x → ¬ Covers part.gaps x

/-- The two grids have the same number of cells, and for no index is a byte missing in just one of
the strips by which the cells differ, with none missing in what they share. -/
structure DriftHarmless (part : PartFile) : Prop where
  count : (part.partTotal - 1) * ED2K_CHUNK_SIZE < part.total_size
  strips : ∀ index : Nat, index < part.partTotal →
    Touched part.gaps (index * ED2K_CHUNK_SIZE) (min ((index + 1) * ics.PART_SIZE) part.total_size) ∨
      (Touched part.gaps (index * ics.PART_SIZE) (index * ED2K_CHUNK_SIZE) ↔
        Touched part.gaps ((index + 1) * ics.PART_SIZE) (min ((index + 1) * ED2K_CHUNK_SIZE) part.total_size))

theorem partTotal_eq (part : PartFile) : part.partTotal = (part.total_size + 9727999) / 9728000 := by
  have hceil : ⌈(part.total_size : ℚ) / ics.PART_SIZE⌉ = _ := ceil_div_eq (by decide)
  rw [partTotal, hceil]
  simp only [ics.PART_SIZE]
  omega

theorem chunk_count_eq (part : PartFile) : part.chunk_count = (part.total_size + 9728399) / 9728400 := by
  simp only [chunk_count]
  split
  · rename_i hremainder
    simp only [ED2K_CHUNK_SIZE] at hremainder ⊢
    omega
  · rename_i hexact
    simp only [ED2K_CHUNK_SIZE] at hexact ⊢
    omega

theorem length_chunk_bitmap (hpos : 0 < part.total_size) :
    (part.chunk_bitmap.length : Int) = part.chunk_count := by
  rw [chunk_bitmap, List.length_map, List.length_range, Int.toNat_of_nonneg]
  rw [chunk_count_eq]
  omega

theorem length_eq_partTotal_iff (hpos : 0 < part.total_size) :
    (part.chunk_bitmap.length : Int) = part.partTotal ↔
      (part.partTotal - 1) * ED2K_CHUNK_SIZE < part.total_size := by
  rw [length_chunk_bitmap hpos, chunk_count_eq, partTotal_eq]
  simp only [ED2K_CHUNK_SIZE]
  omega

/-- An entry says whether a byte of the chunk is missing. -/
theorem chunk_bitmap_entry (hnonempty : ∀ gap ∈ part.gaps, gap.start < gap.stop) {index : Nat}
    (hindex : index < part.chunk_bitmap.length) (hinside : index * ED2K_CHUNK_SIZE < part.total_size) :
    part.chunk_bitmap[index] = true ↔ ¬ Touched part.gaps (index * ED2K_CHUNK_SIZE)
      (min ((index + 1) * ED2K_CHUNK_SIZE) part.total_size) := by
  have hend : index * ED2K_CHUNK_SIZE + ED2K_CHUNK_SIZE = (index + 1) * ED2K_CHUNK_SIZE := by
    simp only [ED2K_CHUNK_SIZE]
    omega
  have hrange : index * ED2K_CHUNK_SIZE < min ((index + 1) * ED2K_CHUNK_SIZE) part.total_size := by
    simp only [ED2K_CHUNK_SIZE] at *
    omega
  rw [touched_iff hnonempty hrange]
  simp only [chunk_bitmap, List.getElem_map, List.getElem_range, hend, Bool.not_eq_true', List.any_eq_false,
    decide_eq_true_eq]
  push Not
  exact Iff.rfl

/-- A part as the range of its bytes. -/
theorem part_free_iff (index : Nat) :
    (∀ x, InRange (ics.part_bounds index part.total_size) x → ¬ Covers part.gaps x) ↔
      ¬ Touched part.gaps (index * ics.PART_SIZE) (min ((index + 1) * ics.PART_SIZE) part.total_size) := by
  have hbounds : ∀ x, InRange (ics.part_bounds index part.total_size) x ↔ index * ics.PART_SIZE ≤ x ∧
      x < min ((index + 1) * ics.PART_SIZE) part.total_size := by
    intro x
    simp only [InRange, ics.part_bounds, ics.PART_SIZE]
    omega
  simp only [hbounds, Touched, not_exists, not_and, and_imp]

/-- The cells of one index share what lies between the start of the chunk and the end of the part. -/
theorem cells_agree_iff {index : Nat} (hinside : index * ED2K_CHUNK_SIZE < part.total_size)
    (hdrift : (index : Int) * 400 < ics.PART_SIZE) :
    (Touched part.gaps (index * ED2K_CHUNK_SIZE) (min ((index + 1) * ED2K_CHUNK_SIZE) part.total_size) ↔
      Touched part.gaps (index * ics.PART_SIZE) (min ((index + 1) * ics.PART_SIZE) part.total_size)) ↔
    (Touched part.gaps (index * ED2K_CHUNK_SIZE) (min ((index + 1) * ics.PART_SIZE) part.total_size) ∨
      (Touched part.gaps (index * ics.PART_SIZE) (index * ED2K_CHUNK_SIZE) ↔
        Touched part.gaps ((index + 1) * ics.PART_SIZE)
          (min ((index + 1) * ED2K_CHUNK_SIZE) part.total_size))) := by
  have hshared : index * ED2K_CHUNK_SIZE ≤ min ((index + 1) * ics.PART_SIZE) part.total_size := by
    simp only [ED2K_CHUNK_SIZE, ics.PART_SIZE] at *
    omega
  have hwider : min ((index + 1) * ics.PART_SIZE) part.total_size ≤
      min (((index : Int) + 1) * ED2K_CHUNK_SIZE) part.total_size := by
    simp only [ED2K_CHUNK_SIZE, ics.PART_SIZE]
    omega
  have hlead : index * ics.PART_SIZE ≤ (index : Int) * ED2K_CHUNK_SIZE := by
    simp only [ED2K_CHUNK_SIZE, ics.PART_SIZE]
    omega
  have htrail : Touched part.gaps (min ((index + 1) * ics.PART_SIZE) part.total_size)
      (min ((index + 1) * ED2K_CHUNK_SIZE) part.total_size) ↔
      Touched part.gaps ((index + 1) * ics.PART_SIZE)
        (min ((index + 1) * ED2K_CHUNK_SIZE) part.total_size) := by
    refine exists_congr fun x => ⟨fun h => ?_, fun h => ?_⟩
    · exact ⟨by have := h.1; have := h.2.1; omega, h.2⟩
    · exact ⟨by have := h.1; omega, h.2⟩
  rw [touched_split hshared hwider, touched_split hlead hshared, htrail]
  by_cases hcommon : Touched part.gaps (index * ED2K_CHUNK_SIZE)
      (min ((index + 1) * ics.PART_SIZE) part.total_size)
  · simp [hcommon]
  · simp [hcommon, iff_comm]

/-- The chunks of `partfile.py` are 400 bytes longer than the parts, so the bitmap is that of the
parts exactly where this drift of the grid harms nothing. -/
theorem reportsParts_iff (hpos : 0 < part.total_size)
    (hnonempty : ∀ gap ∈ part.gaps, gap.start < gap.stop) : part.ReportsParts ↔ part.DriftHarmless := by
  have hentry : ∀ {index : Nat}, (index : Int) < part.partTotal →
      (part.partTotal - 1) * ED2K_CHUNK_SIZE < part.total_size →
      (index : Int) * ED2K_CHUNK_SIZE < part.total_size ∧ (index : Int) * 400 < ics.PART_SIZE := by
    intro index hindex hcount
    rw [partTotal_eq] at hindex hcount
    simp only [ED2K_CHUNK_SIZE, ics.PART_SIZE] at *
    omega
  constructor
  · intro hreports
    have hcount := (length_eq_partTotal_iff hpos).mp hreports.length
    refine ⟨hcount, fun index hindex => ?_⟩
    have hlength : index < part.chunk_bitmap.length := by
      have hall := hreports.length
      omega
    obtain ⟨hinside, hdrift⟩ := hentry hindex hcount
    have hsame := hreports.entry index hlength
    rw [chunk_bitmap_entry hnonempty hlength hinside, part_free_iff, not_iff_not] at hsame
    exact (cells_agree_iff hinside hdrift).mp hsame
  · intro hharmless
    have hlength := (length_eq_partTotal_iff hpos).mpr hharmless.count
    refine ⟨hlength, fun index hindex => ?_⟩
    have hpart : (index : Int) < part.partTotal := by omega
    obtain ⟨hinside, hdrift⟩ := hentry hpart hharmless.count
    rw [chunk_bitmap_entry hnonempty hindex hinside, part_free_iff, not_iff_not]
    exact (cells_agree_iff hinside hdrift).mpr (hharmless.strips index hpart)

/-- A file of 1000 bytes has one part. -/
theorem reportsParts_iff_one_part : (PartFile.mk "a.part" 1000 [⟨0, 10⟩]).ReportsParts := by
  have htotal : (PartFile.mk "a.part" 1000 [⟨0, 10⟩]).partTotal = 1 := partTotal_eq _
  refine (reportsParts_iff (by decide) (by decide)).mpr ⟨by rw [htotal]; decide, fun index hindex => ?_⟩
  rw [htotal] at hindex
  obtain rfl : index = 0 := by omega
  exact .inl ⟨0, by decide, by decide, ⟨0, 10⟩, List.mem_singleton.mpr rfl, by decide⟩

/-- Two whole parts, and the first byte of the second is missing: the bitmap says that it is the
first part that is not complete. -/
theorem chunk_bitmap_drifts :
    ¬ ∀ part : PartFile, 0 < part.total_size → Spaced part.gaps →
      (∀ gap ∈ part.gaps, 0 ≤ gap.start ∧ gap.stop ≤ part.total_size) → part.ReportsParts := by
  intro hall
  have hreports := hall ⟨"a.part", 19456000, [⟨9728000, 9728001⟩]⟩ (by decide)
    ⟨by decide, List.pairwise_singleton _ _⟩ (by decide)
  have hbitmap : (PartFile.mk "a.part" 19456000 [⟨9728000, 9728001⟩]).chunk_bitmap = [false, true] := by decide
  have hentry := hreports.entry 0 (by rw [hbitmap]; decide)
  have hfree := hentry.mpr fun x hx => by
    rintro ⟨gap, hgap, hholds⟩
    obtain rfl := List.mem_singleton.mp hgap
    obtain ⟨hlow, hhigh⟩ := hx
    simp only [ics.part_bounds, ics.PART_SIZE] at hlow hhigh
    have hfrom := hholds.1
    simp only at hfrom
    omega
  simp only [hbitmap] at hfree
  cases hfree

end PartFile

end amuled.download
