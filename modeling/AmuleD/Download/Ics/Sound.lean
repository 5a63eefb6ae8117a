import AmuleD.Download.Ics.Select

open intervals

namespace amuled.download.ics

section ChoosePart

variable {available gap_parts : List Nat} {frequencies : List Int}
  {gap_sizes downloading_counts : Dict Nat Int} {last_part : Option Nat} {tie p : Nat}

theorem mem_candidates {candidate : Nat × Int}
    (hmem : candidate ∈ candidates available frequencies gap_parts gap_sizes downloading_counts) :
    candidate.1 ∈ gap_parts ∧ candidate.1 ∈ available := by
  obtain ⟨q, hq, hsome⟩ := List.mem_filterMap.mp hmem
  simp only at hsome
  split at hsome
  · rename_i hboth
    obtain rfl := Option.some.inj hsome
    exact ⟨hq, hboth.1⟩
  · cases hsome

/-- Whatever the preferences say, the chosen part is available and has a gap. -/
theorem choose_part_mem (hchosen : choose_part available frequencies gap_parts gap_sizes
    downloading_counts last_part tie = some p) : p ∈ gap_parts ∧ p ∈ available := by
  rw [choose_part] at hchosen
  simp only at hchosen
  split at hchosen
  · rename_i q pref hfind
    obtain rfl := Option.some.inj hchosen
    exact mem_candidates (List.mem_of_find?_eq_some hfind)
  · split at hchosen
    · cases hchosen
    · obtain ⟨candidate, hfilter, rfl⟩ := List.mem_map.mp (List.mem_of_getElem? hchosen)
      exact mem_candidates (List.mem_filter.mp hfilter).1

/-- The last part is kept while it has a gap. -/
theorem choose_part_sticky (frequencies : List Int) (downloading_counts : Dict Nat Int) (tie : Nat)
    (hpart : p ∈ gap_parts) (havailable : p ∈ available)
    (hgap : (gap_sizes.get p).getD 0 > 0) :
    choose_part available frequencies gap_parts gap_sizes downloading_counts (some p) tie = some p := by
  have hmem : (p, c_pref (ics_mode frequencies gap_parts) (PART_SIZE - (gap_sizes.get p).getD 0)
      ((downloading_counts.get p).getD 0) ((gap_sizes.get p).getD 0)) ∈
      candidates available frequencies gap_parts gap_sizes downloading_counts := by
    refine List.mem_filterMap.mpr ⟨p, hpart, ?_⟩
    simp only
    rw [if_pos ⟨havailable, hgap⟩]
  rw [choose_part]
  simp only
  cases hfind : (candidates available frequencies gap_parts gap_sizes downloading_counts).find?
      fun candidate => some p = some candidate.1 with
  | none =>
    rw [List.find?_eq_none] at hfind
    exact absurd (by simp) (hfind _ hmem)
  | some candidate =>
    have heq := List.find?_some hfind
    simp only [Option.some.injEq, decide_eq_true_eq] at heq
    simp only [heq]

end ChoosePart

/-- A block is placed well: it is not empty, and lies in one gap, in one available
part and in one block of `EMBLOCK_SIZE` of that part. -/
def Placed (total_size : Int) (gaps : List Range) (available : List Nat) (block : Range) : Prop :=
  block.1 ≤ block.2 ∧ (∃ gap ∈ gaps, gap.1 ≤ block.1 ∧ block.2 ≤ gap.2) ∧
    ∃ part ∈ available, (part_bounds part total_size).1 ≤ block.1 ∧
      block.2 ≤ (part_bounds part total_size).2 ∧
      ∃ index : Nat, (part_bounds part total_size).1 + index * EMBLOCK_SIZE ≤ block.1 ∧
        block.2 ≤ (part_bounds part total_size).1 + (index + 1) * EMBLOCK_SIZE - 1

/-- What a selection promises about the blocks it returns. -/
structure SoundSelection (total_size : Int) (gaps : List Range) (available : List Nat)
    (requested : List Range) (max_blocks : Nat) (blocks : List Range) : Prop where
  length_le : blocks.length ≤ max_blocks
  placed : ∀ block ∈ blocks, Placed total_size gaps available block
  apart : blocks.Pairwise Apart
  fresh : ∀ block ∈ blocks, ∀ range ∈ requested, Apart block range

/-- In every window of an available part the bytes that nobody has requested yet
are contiguous. -/
def FreeWindowsContiguous (total_size : Int) (gaps : List Range) (available : List Nat)
    (requested : List Range) : Prop :=
  ∀ part ∈ available, part < part_count total_size → ∀ window,
    IsWindow total_size gaps part window → FreeContiguous requested window

section Run

variable {catalog : Catalog} {requested : List Range}

/-- What is left of a window is placed well. -/
theorem placed_of_trimmed {part : Nat} (havailable : part ∈ catalog.available) {window block : Range}
    (hwindow : IsWindow catalog.total_size catalog.gaps part window) {req : List Range}
    (htrimmed : Trimmed req window block) :
    Placed catalog.total_size catalog.gaps catalog.available block := by
  have hstart : InRange window block.1 :=
    htrimmed.inWindow ⟨Int.le_refl _, htrimmed.nonempty⟩
  have hend : InRange window block.2 :=
    htrimmed.inWindow ⟨htrimmed.nonempty, Int.le_refl _⟩
  obtain ⟨gap, hgap, index, rfl, _⟩ := hwindow
  obtain ⟨hgapStart, hblockStart, _⟩ := bounds_of_inRange hstart
  obtain ⟨hgapEnd, hblockEnd, hlimit⟩ := bounds_of_inRange hend
  have hindex : 0 ≤ (index : Int) * EMBLOCK_SIZE := Int.mul_nonneg (Int.natCast_nonneg _) (by decide)
  exact ⟨htrimmed.nonempty, ⟨gap, hgap, hgapStart.1, hgapEnd.2⟩, part, havailable,
    Int.le_trans (Int.le_add_of_nonneg_right hindex) hblockStart.1, hlimit, index, hblockStart.1,
    hblockEnd.2⟩

/-- The state of the loop after some iterations, if the free bytes were
contiguous in every window: they still are, now against everything requested or
issued, and the issued blocks keep the promises. -/
structure SelectionInv (catalog : Catalog) (requested : List Range) (sel : Selection) : Prop where
  gap_parts : ∀ part ∈ sel.gap_parts, part < part_count catalog.total_size
  req : sel.req = requested ++ sel.issued
  contiguous : FreeWindowsContiguous catalog.total_size catalog.gaps catalog.available sel.req
  placed : ∀ block ∈ sel.issued, Placed catalog.total_size catalog.gaps catalog.available block
  apart : sel.issued.Pairwise Apart
  fresh : ∀ block ∈ sel.issued, ∀ range ∈ requested, Apart block range

theorem select_step_eq_some {turn : Nat} {sel next : Selection}
    (hstep : catalog.select_step turn sel = some next) :
    ∃ chosen ∈ sel.gap_parts, chosen ∈ catalog.available ∧
      (next_block_in_part chosen catalog.total_size catalog.gaps sel.req = none ∧
          next = { sel with
            gap_sizes := sel.gap_sizes.erase chosen
            gap_parts := sel.gap_parts.erase chosen
            last := some chosen } ∨
        ∃ block, next_block_in_part chosen catalog.total_size catalog.gaps sel.req = some block ∧
          next = { sel with
            issued := sel.issued ++ [block]
            req := sel.req ++ [block]
            last := some chosen }) := by
  rw [Catalog.select_step] at hstep
  split at hstep
  · cases hstep
  · rename_i chosen hchosen
    obtain ⟨hpart, havailable⟩ := choose_part_mem hchosen
    refine ⟨chosen, hpart, havailable, ?_⟩
    split at hstep
    · rename_i hnone
      exact .inl ⟨hnone, (Option.some.inj hstep).symm⟩
    · rename_i block hsome
      exact .inr ⟨block, hsome, (Option.some.inj hstep).symm⟩

/-- A block that a part yields is what is left of one of its windows. -/
theorem next_block_in_part_some {part : Nat} {total_size : Int} {gaps req : List Range} {block : Range}
    (hblock : next_block_in_part part total_size gaps req = some block) :
    ∃ window, IsWindow total_size gaps part window ∧ Trimmed req window block := by
  rw [next_block_in_part_eq] at hblock
  obtain ⟨window, hwindow, hshrunk⟩ := List.exists_of_findSome?_eq_some hblock
  exact ⟨window, (mem_partWindows window).mp hwindow, shrink_to_avoid_some hshrunk⟩

theorem SelectionInv.step (hgaps : catalog.gaps.Pairwise fun first second => first.2 < second.1)
    {turn : Nat} {sel next : Selection} (hinv : SelectionInv catalog requested sel)
    (hstep : catalog.select_step turn sel = some next) : SelectionInv catalog requested next := by
  obtain ⟨chosen, hpart, havailable, hnone | hsome⟩ := select_step_eq_some hstep
  · obtain ⟨_, rfl⟩ := hnone
    exact ⟨fun part hmem => hinv.gap_parts part (List.mem_of_mem_erase hmem), hinv.req,
      hinv.contiguous, hinv.placed, hinv.apart, hinv.fresh⟩
  · obtain ⟨block, hblock, rfl⟩ := hsome
    obtain ⟨window, hwindow, htrimmed⟩ := next_block_in_part_some hblock
    have hcontiguous := hinv.contiguous chosen havailable (hinv.gap_parts chosen hpart) window hwindow
    have hfree : ∀ range ∈ sel.req, Apart block range := by
      rintro range hrange x ⟨hx, hin⟩
      exact htrimmed.free hcontiguous hx ⟨range, hrange, hin⟩
    refine ⟨hinv.gap_parts, ?_, ?_, ?_, ?_, ?_⟩
    · simp only [hinv.req, List.append_assoc]
    · intro part havailablePart hcount other hother
      by_cases hsame : other = window
      · -- The block took every free byte of its window.
        rw [hsame]
        intro x y z hx hxy hyz hz hxfree
        rw [covered_append, covered_singleton, not_or] at hxfree
        exact absurd (htrimmed.inRange ⟨hx, by omega⟩ hxfree.1) hxfree.2
      · refine (freeContiguous_append_of_apart ?_).mpr
          (hinv.contiguous part havailablePart hcount other hother)
        rintro x ⟨hxother, hxblock⟩
        exact hsame (hother.unique hgaps hwindow hxother (htrimmed.inWindow hxblock))
    · intro other hother
      rcases List.mem_append.mp hother with hother | hother
      · exact hinv.placed other hother
      · obtain rfl := List.mem_singleton.mp hother
        exact placed_of_trimmed havailable hwindow htrimmed
    · rw [List.pairwise_append]
      refine ⟨hinv.apart, List.pairwise_singleton _ _, ?_⟩
      intro other hother last hlast
      obtain rfl := List.mem_singleton.mp hlast
      refine (hfree other ?_).symm
      rw [hinv.req]
      exact List.mem_append_right _ hother
    · intro other hother range hrange
      rcases List.mem_append.mp hother with hother | hother
      · exact hinv.fresh other hother range hrange
      · obtain rfl := List.mem_singleton.mp hother
        refine hfree range ?_
        rw [hinv.req]
        exact List.mem_append_left _ hrange

theorem SelectionInv.loop (hgaps : catalog.gaps.Pairwise fun first second => first.2 < second.1)
    (rounds turn : Nat) {sel : Selection} (hinv : SelectionInv catalog requested sel) :
    SelectionInv catalog requested (catalog.select_loop rounds turn sel) := by
  induction rounds generalizing turn sel with
  | zero => exact hinv
  | succ rounds ih =>
    rw [Catalog.select_loop]
    split
    · exact hinv
    · rename_i next hstep
      exact ih (turn + 1) (hinv.step hgaps hstep)

theorem length_issued_select_loop (catalog : Catalog) (rounds turn : Nat) (sel : Selection) :
    (catalog.select_loop rounds turn sel).issued.length ≤ sel.issued.length + rounds := by
  induction rounds generalizing turn sel with
  | zero => exact Nat.le_refl _
  | succ rounds ih =>
    rw [Catalog.select_loop]
    split
    · omega
    · rename_i next hstep
      have hrest := ih (turn + 1) next
      obtain ⟨chosen, _, _, hnone | hsome⟩ := select_step_eq_some hstep
      · obtain ⟨_, rfl⟩ := hnone
        simp only at hrest
        omega
      · obtain ⟨block, _, rfl⟩ := hsome
        simp only [List.length_append, List.length_singleton] at hrest
        omega

theorem fst_select_blocks (last_part : Option Nat) (requested : List Range) (max_blocks : Nat) :
    (catalog.select_blocks last_part requested max_blocks).1 =
      (catalog.select_loop max_blocks 0 (catalog.initial last_part requested)).issued := by
  rw [Catalog.select_blocks]
  split
  · rename_i hempty
    exact hempty.symm
  · rfl

theorem mem_initial_gap_parts {part : Nat} :
    part ∈ catalog.initial_gap_parts ↔ part < part_count catalog.total_size ∧
      (¬ (part_bounds part catalog.total_size).2 < (part_bounds part catalog.total_size).1 ∧
        part_gap catalog.total_size catalog.gaps part > 0) := by
  simp only [Catalog.initial_gap_parts, List.mem_filter, List.mem_range, decide_eq_true_eq]

theorem selectionInv_initial (last_part : Option Nat)
    (hcontiguous : FreeWindowsContiguous catalog.total_size catalog.gaps catalog.available requested) :
    SelectionInv catalog requested (catalog.initial last_part requested) :=
  ⟨fun _ hpart => (mem_initial_gap_parts.mp hpart).1, (List.append_nil _).symm, hcontiguous,
    List.forall_mem_nil _, List.Pairwise.nil, List.forall_mem_nil _⟩

end Run

section Sticky

variable {catalog : Catalog} {requested : List Range} {part : Nat} {window : Range}

/-- A part that the selection sticks to: it was chosen last and still has gaps. -/
structure StuckTo (catalog : Catalog) (part : Nat) (sel : Selection) : Prop where
  available : part ∈ catalog.available
  last : sel.last = some part
  gap_part : part ∈ sel.gap_parts
  gap_size : (sel.gap_sizes.get part).getD 0 > 0

theorem StuckTo.select_step {sel : Selection} (hstuck : StuckTo catalog part sel) {block : Range}
    (hblock : next_block_in_part part catalog.total_size catalog.gaps sel.req = some block)
    (turn : Nat) :
    catalog.select_step turn sel = some { sel with
      issued := sel.issued ++ [block]
      req := sel.req ++ [block]
      last := some part } := by
  have hchosen := choose_part_sticky catalog.frequencies catalog.downloading_counts
    (catalog.ties turn) hstuck.gap_part hstuck.available hstuck.gap_size
  rw [Catalog.select_step, hstuck.last, hchosen]
  simp only
  rw [hblock]

theorem select_loop_one {turn : Nat} {sel next : Selection}
    (hstep : catalog.select_step turn sel = some next) (rounds : Nat) :
    catalog.select_loop (rounds + 1) turn sel = catalog.select_loop rounds (turn + 1) next := by
  rw [Catalog.select_loop, hstep]

/-- Sticking to a part, the selection reaches each of its windows in turn. If
the free bytes of one are not contiguous, the block issued there runs over a
requested byte. The windows in `done` have no free byte left. -/
theorem StuckTo.issues_requested_byte
    (hgaps : catalog.gaps.Pairwise fun first second => first.2 < second.1)
    {done todo : List Range} (hwindows : partWindows part catalog.total_size catalog.gaps = done ++ todo)
    (hwindow : window ∈ todo) (hbad : ¬ FreeContiguous requested window)
    {sel : Selection} (hstuck : StuckTo catalog part sel)
    (hdone : ∀ other ∈ done, ∀ x, InRange other x → Covered sel.req x)
    (hsame : ∀ x, InRange window x → (Covered sel.req x ↔ Covered requested x)) (turn : Nat) :
    ∃ rounds, ∃ block ∈ (catalog.select_loop rounds turn sel).issued, ∃ x,
      InRange block x ∧ Covered requested x := by
  induction todo generalizing done sel turn with
  | nil => cases hwindow
  | cons first rest ih =>
    have hnotFree : ¬ FreeContiguous sel.req window := by
      intro hfree
      apply hbad
      intro x y z hx hxy hyz hz
      rw [← hsame x ⟨hx, by omega⟩, ← hsame z ⟨by omega, hz⟩, ← hsame y ⟨by omega, by omega⟩]
      exact hfree x y z hx hxy hyz hz
    have hassoc : partWindows part catalog.total_size catalog.gaps = (done ++ [first]) ++ rest := by
      rw [hwindows, List.append_assoc]
      rfl
    cases hshrunk : shrink_to_avoid first.1 first.2 sel.req with
    | none =>
      have hcovered : ∀ x, InRange first x → Covered sel.req x := shrink_to_avoid_none hshrunk
      have hne : window ≠ first := by
        rintro rfl
        apply hnotFree
        intro x y z hx hxy hyz hz hxfree
        exact absurd (hcovered x ⟨hx, by omega⟩) hxfree
      refine ih hassoc ((List.mem_cons.mp hwindow).resolve_left hne) hstuck ?_ hsame turn
      intro other hother
      rcases List.mem_append.mp hother with hother | hother
      · exact hdone other hother
      · rw [List.mem_singleton.mp hother]
        exact hcovered
    | some block =>
      have htrimmed : Trimmed sel.req first block := shrink_to_avoid_some hshrunk
      have hnext : next_block_in_part part catalog.total_size catalog.gaps sel.req = some block := by
        rw [next_block_in_part_eq, hwindows, List.findSome?_eq_some_iff]
        refine ⟨done, first, rest, rfl, hshrunk, ?_⟩
        intro other hother
        cases hkept : shrink_to_avoid other.1 other.2 sel.req with
        | none => rfl
        | some kept =>
          have hkeptTrimmed : Trimmed sel.req other kept := shrink_to_avoid_some hkept
          have hstart := hkeptTrimmed.inWindow ⟨Int.le_refl _, hkeptTrimmed.nonempty⟩
          exact absurd (hdone other hother _ hstart) hkeptTrimmed.start_free
      have hstep := hstuck.select_step hnext turn
      by_cases hreached : window = first
      · rw [← hreached] at htrimmed
        obtain ⟨x, hx, hcovered⟩ := htrimmed.covers_of_not_contiguous hnotFree
        refine ⟨1, block, ?_, x, hx, (hsame x (htrimmed.inWindow hx)).mp hcovered⟩
        rw [select_loop_one hstep, Catalog.select_loop]
        exact List.mem_append_right _ (List.mem_singleton_self block)
      · have hfirst : IsWindow catalog.total_size catalog.gaps part first := by
          rw [← mem_partWindows, hwindows]
          exact List.mem_append_right _ List.mem_cons_self
        have hlater : IsWindow catalog.total_size catalog.gaps part window := by
          rw [← mem_partWindows, hwindows]
          exact List.mem_append_right _ hwindow
        have hstuckNext : StuckTo catalog part { sel with
            issued := sel.issued ++ [block]
            req := sel.req ++ [block]
            last := some part } := ⟨hstuck.available, rfl, hstuck.gap_part, hstuck.gap_size⟩
        have hdoneNext : ∀ other ∈ done ++ [first], ∀ x, InRange other x →
            Covered (sel.req ++ [block]) x := by
          intro other hother x hx
          rw [covered_append, covered_singleton]
          rcases List.mem_append.mp hother with hother | hother
          · exact .inl (hdone other hother x hx)
          · rw [List.mem_singleton.mp hother] at hx
            by_cases hcovered : Covered sel.req x
            · exact .inl hcovered
            · exact .inr (htrimmed.inRange hx hcovered)
        have hsameNext : ∀ x, InRange window x →
            (Covered (sel.req ++ [block]) x ↔ Covered requested x) := by
          intro x hx
          rw [covered_append, covered_singleton, ← hsame x hx]
          apply or_iff_left
          intro hblock
          exact hreached (hlater.unique hgaps hfirst hx (htrimmed.inWindow hblock))
        obtain ⟨rounds, hrounds⟩ := ih hassoc ((List.mem_cons.mp hwindow).resolve_left hreached)
          hstuckNext hdoneNext hsameNext (turn + 1)
        refine ⟨rounds + 1, ?_⟩
        rw [select_loop_one hstep]
        exact hrounds

theorem sum_map_pos {α : Type} {items : List α} {term : α → Int} (hnonneg : ∀ item, 0 ≤ term item)
    {item : α} (hitem : item ∈ items) (hpos : 0 < term item) : 0 < (items.map term).sum := by
  have hsum : ∀ items : List α, 0 ≤ (items.map term).sum := by
    intro items
    induction items with
    | nil => exact Int.le_refl _
    | cons first rest ih =>
      have hfirst := hnonneg first
      rw [List.map_cons, List.sum_cons]
      omega
  induction items with
  | nil => cases hitem
  | cons first rest ih =>
    have hfirst := hnonneg first
    have hrest := hsum rest
    rw [List.map_cons, List.sum_cons]
    rcases List.mem_cons.mp hitem with rfl | hitem
    · omega
    · have := ih hitem
      omega

/-- A part that shares a byte with a gap has gap bytes. -/
theorem part_gap_pos_of_inRange {total_size : Int} {gaps : List Range} {gap : Range} {x : Int}
    (hgap : gap ∈ gaps) (hgapx : InRange gap x) (hpartx : InRange (part_bounds part total_size) x) :
    part_gap total_size gaps part > 0 := by
  rw [part_gap]
  refine sum_map_pos ?_ hgap ?_
  · intro other
    simp only
    split <;> omega
  · obtain ⟨hgapLow, hgapHigh⟩ := hgapx
    obtain ⟨hpartLow, hpartHigh⟩ := hpartx
    have hstart := Int.max_le.mpr ⟨hgapLow, hpartLow⟩
    have hend := Int.le_min.mpr ⟨hgapHigh, hpartHigh⟩
    have hmeet := Int.le_trans hstart hend
    simp only [part_bounds] at hmeet ⊢
    rw [if_pos hmeet]
    omega

/-- A part with a window has gap bytes. -/
theorem part_gap_pos (hwindow : IsWindow catalog.total_size catalog.gaps part window) :
    part_gap catalog.total_size catalog.gaps part > 0 ∧
      ¬ (part_bounds part catalog.total_size).2 < (part_bounds part catalog.total_size).1 := by
  have hin : InRange window window.1 := by
    obtain ⟨_, _, _, _, hnonempty⟩ := hwindow
    exact ⟨Int.le_refl _, hnonempty⟩
  obtain ⟨⟨gap, hgap, hgapx⟩, hpartx⟩ := hwindow.inRange hin
  exact ⟨part_gap_pos_of_inRange hgap hgapx hpartx, Int.not_lt.mpr (Int.le_trans hpartx.1 hpartx.2)⟩

theorem get_initial_gap_sizes {last_part : Option Nat} (hpart : part ∈ catalog.initial_gap_parts) :
    (catalog.initial last_part requested).gap_sizes.get part =
      some (part_gap catalog.total_size catalog.gaps part) := by
  apply Dict.get_ofList_of_mem
  · rw [List.map_map]
    exact (List.nodup_range.filter _).map fun _ _ heq => heq
  · exact List.mem_map.mpr ⟨part, hpart, rfl⟩

theorem stuckTo_initial (havailable : part ∈ catalog.available)
    (hcount : part < part_count catalog.total_size)
    (hwindow : IsWindow catalog.total_size catalog.gaps part window) :
    StuckTo catalog part (catalog.initial (some part) requested) := by
  obtain ⟨hgap, hbounds⟩ := part_gap_pos hwindow
  have hmem : part ∈ catalog.initial_gap_parts :=
    mem_initial_gap_parts.mpr ⟨hcount, hbounds, hgap⟩
  refine ⟨havailable, rfl, hmem, ?_⟩
  rw [get_initial_gap_sizes hmem]
  exact hgap

end Sticky

/-- Where the free bytes of every window are contiguous, every run is sound. -/
theorem select_blocks_sound (catalog : Catalog)
    (hgaps : catalog.gaps.Pairwise fun first second => first.2 < second.1) {requested : List Range}
    (hcontiguous : FreeWindowsContiguous catalog.total_size catalog.gaps catalog.available requested)
    (last_part : Option Nat) (max_blocks : Nat) :
    SoundSelection catalog.total_size catalog.gaps catalog.available requested max_blocks
      (catalog.select_blocks last_part requested max_blocks).1 := by
  have hinv := (selectionInv_initial last_part hcontiguous).loop hgaps max_blocks 0
  have hlength := length_issued_select_loop catalog max_blocks 0 (catalog.initial last_part requested)
  rw [fst_select_blocks]
  refine ⟨?_, hinv.placed, hinv.apart, hinv.fresh⟩
  simpa [Catalog.initial] using hlength

/-- `select_blocks` keeps its promises for all preferences, random choices and
limits exactly if the bytes nobody has requested yet are contiguous in every
window of an available part. `shrink_to_avoid` clips a window only at its ends:
a requested range strictly inside is left in the block. -/
theorem select_blocks_sound_iff (total_size : Int) {gaps : List Range}
    (hgaps : gaps.Pairwise fun first second => first.2 < second.1) (available : List Nat)
    (requested : List Range) :
    (∀ frequencies downloading_counts ties last_part max_blocks,
      SoundSelection total_size gaps available requested max_blocks
        ((Catalog.mk total_size gaps available frequencies downloading_counts ties).select_blocks
          last_part requested max_blocks).1) ↔
      FreeWindowsContiguous total_size gaps available requested := by
  constructor
  · intro hsound part havailable hcount window hwindow
    by_contra hbad
    let catalog := Catalog.mk total_size gaps available [] Dict.empty fun _ => 0
    have hstuck : StuckTo catalog part (catalog.initial (some part) requested) :=
      stuckTo_initial havailable hcount hwindow
    obtain ⟨rounds, block, hblock, x, hx, range, hrange, hin⟩ :=
      hstuck.issues_requested_byte hgaps (List.nil_append _).symm ((mem_partWindows window).mpr hwindow)
        hbad (List.forall_mem_nil _) (fun _ _ => Iff.rfl) 0
    have hrun := hsound [] Dict.empty (fun _ => 0) (some part) rounds
    rw [fst_select_blocks] at hrun
    exact hrun.fresh block hblock range hrange x ⟨hx, hin⟩
  · intro hcontiguous frequencies downloading_counts ties last_part max_blocks
    exact select_blocks_sound ⟨total_size, gaps, available, frequencies, downloading_counts, ties⟩ hgaps
      hcontiguous last_part max_blocks

/-- A file of ten bytes with nothing received and nothing requested. -/
theorem select_blocks_sound_iff_ten_bytes :
    (∀ frequencies downloading_counts ties last_part max_blocks,
      SoundSelection 10 [(0, 9)] [0] [] max_blocks
        ((Catalog.mk 10 [(0, 9)] [0] frequencies downloading_counts ties).select_blocks
          last_part [] max_blocks).1) ↔
      FreeWindowsContiguous 10 [(0, 9)] [0] [] :=
  select_blocks_sound_iff 10 (List.pairwise_singleton _ _) [0] []

/-- Bytes 3 to 5 of ten are requested already; the block that is issued covers
them again. -/
theorem select_blocks_nested_request :
    (Catalog.mk 10 [(0, 9)] [0] [] (Dict.ofList []) fun _ => 0).select_blocks none [(3, 5)] 3 =
        ([(0, 9)], some 0) ∧
      ¬ SoundSelection 10 [(0, 9)] [0] [(3, 5)] 3
        ((Catalog.mk 10 [(0, 9)] [0] [] (Dict.ofList []) fun _ => 0).select_blocks none [(3, 5)] 3).1 := by
  have hrun : (Catalog.mk 10 [(0, 9)] [0] [] (Dict.ofList []) fun _ => 0).select_blocks none [(3, 5)] 3 =
      ([(0, 9)], some 0) := by
    decide +kernel
  refine ⟨hrun, ?_⟩
  intro hsound
  rw [hrun] at hsound
  exact hsound.fresh (0, 9) (List.mem_singleton_self _) (3, 5) (List.mem_singleton_self _) 4
    ⟨⟨by decide, by decide⟩, by decide, by decide⟩

end amuled.download.ics
