import AmuleD.Download.Ics.Preference
import AmuleD.Download.Ics.Sessions

open intervals

namespace amuled.download.ics

/-- The variable `gap_parts` of `_a4af_needed_parts`: for each gap the parts of its first and its
last byte. -/
def gate_gap_parts (gaps : List (Int × Int)) : List Int :=
  gaps.flatMap fun gap =>
    gap.1 / PART_SIZE :: if gap.2 > gap.1 then [(gap.2 - 1) / PART_SIZE] else []

/-- `_a4af_needed_parts`, on the gaps of the queue and what the peer has told about the file. -/
def a4af_needed_parts (gaps : List (Int × Int)) (client : Source) : Option Bool :=
  if gaps = [] then some true
  else if client.complete then some true
  else
    match client.part_status with
    | none => none
    | some available => some (available.any fun part => decide ((part : Int) ∈ gate_gap_parts gaps))

/-- A byte of the gap lies in the part. -/
def Meets (size : Int) (gap : Int × Int) (part : Nat) : Prop :=
  ∃ x, gap.1 ≤ x ∧ x < gap.2 ∧ InRange (part_bounds part size) x

/-- The part lies between those of the first and the last byte of the gap. -/
def Inside (gap : Int × Int) (part : Nat) : Prop :=
  gap.1 / PART_SIZE < part ∧ (part : Int) < (gap.2 - 1) / PART_SIZE

section Parts

variable {size : Int} {gap : Int × Int} {gaps : List (Int × Int)} {part : Nat}

/-- Inside the file a gap meets the parts from that of its first byte to that of its last. -/
theorem meets_iff (hstop : gap.2 ≤ size) :
    Meets size gap part ↔
      gap.1 < gap.2 ∧ gap.1 / PART_SIZE ≤ part ∧ (part : Int) ≤ (gap.2 - 1) / PART_SIZE := by
  simp only [Meets, InRange, part_bounds, PART_SIZE]
  constructor
  · rintro ⟨x, hfrom, hto, hlow, hhigh⟩
    omega
  · rintro ⟨hnonempty, hfirst, hlast⟩
    exact ⟨max gap.1 (part * 9728000), by omega, by omega, by omega, by omega⟩

theorem mem_gate_gap_parts {index : Int} :
    index ∈ gate_gap_parts gaps ↔
      ∃ gap ∈ gaps, index = gap.1 / PART_SIZE ∨ gap.1 < gap.2 ∧ index = (gap.2 - 1) / PART_SIZE := by
  rw [gate_gap_parts, List.mem_flatMap]
  refine exists_congr fun gap => and_congr_right fun _ => ?_
  by_cases hnonempty : gap.2 > gap.1
  · rw [if_pos hnonempty, List.mem_cons, List.mem_singleton]
    exact or_congr_right (and_iff_right hnonempty).symm
  · rw [if_neg hnonempty, List.mem_singleton]
    exact (or_iff_left fun hlast => hnonempty hlast.1).symm

/-- A part that meets a gap is one of the gate's, or lies inside the gap. -/
theorem Meets.gate_or_inside (hmeets : Meets size gap part) (hgap : gap ∈ gaps) (hstop : gap.2 ≤ size) :
    (part : Int) ∈ gate_gap_parts gaps ∨ Inside gap part := by
  obtain ⟨hnonempty, hfirst, hlast⟩ := (meets_iff hstop).mp hmeets
  rw [mem_gate_gap_parts]
  by_cases hends : (part : Int) = gap.1 / PART_SIZE ∨ (part : Int) = (gap.2 - 1) / PART_SIZE
  · exact .inl ⟨gap, hgap, hends.imp_right fun hpart => ⟨hnonempty, hpart⟩⟩
  · rw [not_or] at hends
    exact .inr ⟨by omega, by omega⟩

theorem Inside.meets (hinside : Inside gap part) (hstop : gap.2 ≤ size) :
    Meets size gap part := by
  obtain ⟨hfirst, hlast⟩ := hinside
  refine (meets_iff hstop).mpr ⟨?_, by omega, by omega⟩
  by_contra hempty
  have hmono := Int.ediv_le_ediv (show (0 : Int) < PART_SIZE by decide) (show gap.2 - 1 ≤ gap.1 by omega)
  omega

theorem exists_pos_of_sum_pos {α : Type} {f : α → Int} {items : List α} (hsum : 0 < (items.map f).sum) :
    ∃ item ∈ items, 0 < f item := by
  by_contra hnone
  have hle : (items.map f).sum ≤ 0 := by
    clear hsum
    induction items with
    | nil => exact le_refl 0
    | cons item rest ih =>
      have hitem : ¬ 0 < f item := fun hpos => hnone ⟨item, List.mem_cons_self, hpos⟩
      have hrest := ih fun ⟨other, hother, hpos⟩ => hnone ⟨other, List.mem_cons_of_mem item hother, hpos⟩
      rw [List.map_cons, List.sum_cons]
      omega
  omega

/-- A part that block selection counts gap bytes for meets a gap. -/
theorem meets_of_part_gap_pos (hpos : part_gap size (inclusive_gaps gaps) part > 0) :
    ∃ gap ∈ gaps, Meets size gap part := by
  rw [part_gap] at hpos
  simp only [Meets]
  generalize part_bounds part size = bounds at hpos
  obtain ⟨range, hrange, hoverlap⟩ := exists_pos_of_sum_pos hpos
  obtain ⟨gap, hgap, rfl⟩ := List.mem_map.mp hrange
  simp only at hoverlap
  split at hoverlap
  · rename_i hmeet
    have hlow : max gap.1 bounds.1 ≤ gap.2 - 1 := Int.le_trans hmeet (Int.min_le_left _ _)
    have hhigh : max gap.1 bounds.1 ≤ bounds.2 := Int.le_trans hmeet (Int.min_le_right _ _)
    exact ⟨gap, (List.mem_filter.mp hgap).1, max gap.1 bounds.1, Int.le_max_left _ _, by omega,
      Int.le_max_right _ _, hhigh⟩
  · cases hoverlap

end Parts

section Gate

variable {size : Int} {gaps : List (Int × Int)} {client : Source} {available : List Nat}

theorem a4af_needed_parts_eq_false_iff :
    a4af_needed_parts gaps client = some false ↔ gaps ≠ [] ∧ client.complete = false ∧
      ∃ available, client.part_status = some available ∧
        ∀ part ∈ available, (part : Int) ∉ gate_gap_parts gaps := by
  rw [a4af_needed_parts]
  by_cases hempty : gaps = []
  · simp [hempty]
  · rw [if_neg hempty]
    cases hcomplete : client.complete with
    | true => simp
    | false =>
      cases hstatus : client.part_status with
      | none => simp
      | some available => simp [hempty]

/-- The parts that `select_blocks` can choose from in its first round, for the same gaps. -/
def first_candidates (size : Int) (gaps : List (Int × Int)) (available : List Nat) (frequencies : List Int)
    (downloading_counts : Dict Nat Int) (ties : Nat → Nat) : List (Nat × Int) :=
  let catalog : Catalog := ⟨size, inclusive_gaps gaps, available, frequencies, downloading_counts, ties⟩
  let initial := catalog.initial none []
  candidates available frequencies initial.gap_parts initial.gap_sizes downloading_counts

/-- Where no known part of the peer meets a gap, there is nothing to choose from. -/
theorem first_candidates_eq_nil (hfree : ∀ part ∈ available, ∀ gap ∈ gaps, ¬ Meets size gap part)
    (frequencies : List Int) (downloading_counts : Dict Nat Int) (ties : Nat → Nat) :
    first_candidates size gaps available frequencies downloading_counts ties = [] := by
  rw [List.eq_nil_iff_forall_not_mem]
  intro candidate hcandidate
  obtain ⟨hpart, havailable⟩ := mem_candidates hcandidate
  obtain ⟨_, _, hpos⟩ := mem_initial_gap_parts.mp hpart
  obtain ⟨gap, hgap, hmeets⟩ := meets_of_part_gap_pos hpos
  exact hfree candidate.1 havailable gap hgap hmeets

/-- Below `2 ^ 52` bytes the double that `part_count` rounds up does not disturb it. -/
theorem part_count_eq (hsize : size < 2 ^ 52) (hpos : 0 < size) :
    part_count size = max 1 ((size.toNat + 9728000 - 1) / 9728000) := by
  have hquotient : size.toNat / PART_SIZE.toNat < 2 ^ 29 := by
    rw [Nat.div_lt_iff_lt_mul (by decide), show PART_SIZE.toNat = 9728000 from rfl]
    omega
  have hlog : (size.toNat / PART_SIZE.toNat).log2 ≤ 28 := by
    by_cases hzero : size.toNat / PART_SIZE.toNat = 0
    · rw [hzero]
      decide
    · exact Nat.le_of_lt_succ ((Nat.log2_lt hzero).mpr hquotient)
  have hscale : PART_SIZE.toNat ≤ 2 ^ (52 - (size.toNat / PART_SIZE.toNat).log2) :=
    Nat.le_trans (show PART_SIZE.toNat ≤ 2 ^ 24 by decide)
      (Nat.pow_le_pow_right (by decide) (by omega))
  rw [part_count, if_neg (by omega), math_ceil_div_eq (by decide) (by omega) hscale,
    show PART_SIZE.toNat = 9728000 from rfl]

/-- The double hides no part. -/
theorem lt_part_count {part : Nat} (hsize : size < 2 ^ 52) (hpart : part * PART_SIZE < size) :
    part < part_count size := by
  simp only [PART_SIZE] at hpart
  rw [part_count_eq hsize (by omega)]
  omega

/-- A part that meets a gap has gap bytes for block selection. -/
theorem mem_gap_parts_of_meets {part : Nat} {gap : Int × Int} (hsize : size < 2 ^ 52) (hgap : gap ∈ gaps)
    (hmeets : Meets size gap part) (frequencies : List Int) (downloading_counts : Dict Nat Int)
    (ties : Nat → Nat) : part ∈ Catalog.initial_gap_parts
      ⟨size, inclusive_gaps gaps, available, frequencies, downloading_counts, ties⟩ := by
  obtain ⟨x, hfrom, hto, hinside⟩ := hmeets
  have hbounds : (part_bounds part size).1 ≤ (part_bounds part size).2 := Int.le_trans hinside.1 hinside.2
  have hbefore : part * PART_SIZE < size := by
    have hlow := hinside.1
    have hhigh := hinside.2
    simp only [part_bounds] at hlow hhigh
    omega
  refine mem_initial_gap_parts.mpr ⟨lt_part_count hsize hbefore, Int.not_lt.mpr hbounds, ?_⟩
  have hrange : (gap.1, gap.2 - 1) ∈ inclusive_gaps gaps :=
    List.mem_map.mpr ⟨gap, List.mem_filter.mpr ⟨hgap, by simp only [gt_iff_lt, decide_eq_true_eq]; omega⟩, rfl⟩
  exact part_gap_pos_of_inRange hrange ⟨hfrom, by simp only; omega⟩ hinside

/-- Having nothing to choose from is the same as having no part that meets a gap. -/
theorem first_candidates_eq_nil_iff (hsize : size < 2 ^ 52) (frequencies : List Int)
    (downloading_counts : Dict Nat Int) (ties : Nat → Nat) :
    first_candidates size gaps available frequencies downloading_counts ties = [] ↔
      ∀ part ∈ available, ∀ gap ∈ gaps, ¬ Meets size gap part := by
  constructor
  · intro hnil part hpart gap hgap hmeets
    have hmem : part ∈ Catalog.initial_gap_parts
        ⟨size, inclusive_gaps gaps, available, frequencies, downloading_counts, ties⟩ :=
      mem_gap_parts_of_meets hsize hgap hmeets frequencies downloading_counts ties
    have hpos := (mem_initial_gap_parts.mp hmem).2.2
    have hget : (Catalog.initial ⟨size, inclusive_gaps gaps, available, frequencies, downloading_counts, ties⟩
        none []).gap_sizes.get part = some (part_gap size (inclusive_gaps gaps) part) := by
      apply Dict.get_ofList_of_mem
      · rw [List.map_map]
        exact (List.nodup_range.filter _).map fun _ _ heq => heq
      · exact List.mem_map.mpr ⟨part, hmem, rfl⟩
    have hnone := List.filterMap_eq_nil_iff.mp hnil part hmem
    simp only [hget, Option.getD_some] at hnone
    rw [if_pos ⟨hpart, hpos⟩] at hnone
    cases hnone
  · exact fun hfree => first_candidates_eq_nil hfree frequencies downloading_counts ties

/-- The gate rejects a peer only where nothing it has is needed. -/
def RejectsOnlyUseless (size : Int) (gaps : List (Int × Int)) (client : Source) : Prop :=
  a4af_needed_parts gaps client = some false → ∀ available, client.part_status = some available →
    (∀ part ∈ available, ∀ gap ∈ gaps, ¬ Meets size gap part) ∧
      ∀ frequencies downloading_counts ties,
        first_candidates size gaps available frequencies downloading_counts ties = []

/-- A peer with a part inside a gap has the part of an end of some gap, too. -/
def EndsToo (gaps : List (Int × Int)) (client : Source) : Prop :=
  client.complete = true ∨ ∀ available, client.part_status = some available →
    ∀ part ∈ available, (∃ gap ∈ gaps, Inside gap part) →
      ∃ other ∈ available, (other : Int) ∈ gate_gap_parts gaps

/-- The gate looks at the two ends of every gap alone, so it is right about a peer exactly where
the peer's parts inside of gaps do not stand alone. -/
theorem a4af_needed_parts_meets_iff (hgaps : ∀ gap ∈ gaps, gap.2 ≤ size) :
    RejectsOnlyUseless size gaps client ↔ EndsToo gaps client := by
  constructor
  · intro hright
    cases hcomplete : client.complete with
    | true => exact .inl hcomplete
    | false =>
      right
      rintro available hstatus part hpart ⟨gap, hgap, hinside⟩
      by_contra hnone
      have hfalse : a4af_needed_parts gaps client = some false :=
        a4af_needed_parts_eq_false_iff.mpr ⟨List.ne_nil_of_mem hgap, hcomplete, available, hstatus,
          fun other hother hend => hnone ⟨other, hother, hend⟩⟩
      exact (hright hfalse available hstatus).1 part hpart gap hgap
        (hinside.meets (hgaps gap hgap))
  · intro hends hfalse available hstatus
    obtain ⟨_, hcomplete, known, hknown, hnone⟩ := a4af_needed_parts_eq_false_iff.mp hfalse
    obtain rfl : known = available := Option.some.inj (hknown.symm.trans hstatus)
    have hfree : ∀ part ∈ known, ∀ gap ∈ gaps, ¬ Meets size gap part := by
      intro part hpart gap hgap hmeets
      obtain hend | hinside := hmeets.gate_or_inside hgap (hgaps gap hgap)
      · exact hnone part hpart hend
      · obtain ⟨other, hother, hend⟩ := hends.resolve_left (by simp [hcomplete]) known hstatus part hpart
          ⟨gap, hgap, hinside⟩
        exact hnone other hother hend
    exact ⟨hfree, first_candidates_eq_nil hfree⟩

/-- A gap in the first part, and a peer that has the third. -/
theorem a4af_needed_parts_meets_iff_third_part :
    a4af_needed_parts [(0, 100)] ⟨false, some [2]⟩ = some false ∧
      RejectsOnlyUseless 29184000 [(0, 100)] ⟨false, some [2]⟩ := by
  refine ⟨by decide, (a4af_needed_parts_meets_iff (by decide)).mpr (.inr ?_)⟩
  rintro available hstatus part hpart ⟨gap, hgap, hinside⟩
  obtain rfl := List.mem_singleton.mp hgap
  obtain ⟨hfirst, hlast⟩ := hinside
  simp only [PART_SIZE] at hfirst hlast
  omega

/-- Three parts are missing, and the peer has the middle one. -/
theorem a4af_needed_parts_rejects_middle :
    ¬ ∀ (size : Int) (gaps : List (Int × Int)) (client : Source),
      (∀ gap ∈ gaps, 0 ≤ gap.1 ∧ gap.1 < gap.2 ∧ gap.2 ≤ size) →
      gaps.Pairwise (fun first second => first.2 ≤ second.1) → RejectsOnlyUseless size gaps client := by
  intro hall
  have hright := hall 29184000 [(0, 29184000)] ⟨false, some [1]⟩ (by decide) (List.pairwise_singleton _ _)
  have hfalse : a4af_needed_parts [(0, 29184000)] ⟨false, some [1]⟩ = some false := by decide
  refine (hright hfalse [1] rfl).1 1 (List.mem_singleton.mpr rfl) (0, 29184000) (List.mem_singleton.mpr rfl) ?_
  exact ⟨9728000, by decide, by decide, by decide, by decide⟩

end Gate

end amuled.download.ics
