import AmuleD.Download.Ics.Progress
import Mathlib.Algebra.Order.BigOperators.Group.List

open intervals

namespace amuled.download.ics

/-- A gap byte of an available part of the file. -/
def Wanted (size : Int) (available : List Nat) (gaps : List Range) (x : Int) : Prop :=
  ∃ part ∈ available, part < part_count size ∧ InRange (part_bounds part size) x ∧ Covered gaps x

theorem Wanted.bounds {size x : Int} {available : List Nat} {gaps : List Range} (hx : Wanted size available gaps x) :
    0 ≤ x ∧ x < size := by
  obtain ⟨part, _, _, ⟨hlow, hhigh⟩, _⟩ := hx
  simp only [part_bounds, PART_SIZE] at hlow hhigh
  omega

section Issued

variable {catalog : Catalog} {requested : List Range}

/-- Every issued block is what is left of a window of a part with gaps. -/
theorem exists_part_of_issued (rounds turn : Nat) {sel : Selection} {block : Range}
    (hblock : block ∈ (catalog.select_loop rounds turn sel).issued) :
    block ∈ sel.issued ∨ ∃ part ∈ sel.gap_parts, part ∈ catalog.available ∧
      ∃ window req, IsWindow catalog.total_size catalog.gaps part window ∧ Trimmed req window block := by
  induction rounds generalizing turn sel with
  | zero => exact .inl hblock
  | succ rounds ih =>
    rw [Catalog.select_loop] at hblock
    split at hblock
    · exact .inl hblock
    · rename_i next hstep
      obtain ⟨chosen, hpart, havailable, ⟨_, rfl⟩ | ⟨issued, hissued, rfl⟩⟩ := select_step_eq_some hstep
      · refine (ih (turn + 1) hblock).imp id ?_
        rintro ⟨part, hmem, hrest⟩
        exact ⟨part, List.mem_of_mem_erase hmem, hrest⟩
      · rcases ih (turn + 1) hblock with hin | hlater
        · refine (List.mem_append.mp hin).imp id fun hlast => ?_
          obtain rfl := List.mem_singleton.mp hlast
          obtain ⟨window, hwindow, htrimmed⟩ := next_block_in_part_some hissued
          exact ⟨chosen, hpart, havailable, window, sel.req, hwindow, htrimmed⟩
        · exact .inr hlater

/-- The selection asks for gap bytes of available parts only. -/
theorem wanted_of_issued {last_part : Option Nat} {max_blocks : Nat} {x : Int}
    (hx : Covered (catalog.select_blocks last_part requested max_blocks).1 x) :
    Wanted catalog.total_size catalog.available catalog.gaps x := by
  obtain ⟨block, hblock, hin⟩ := hx
  rw [fst_select_blocks] at hblock
  obtain hnone | ⟨part, hpart, havailable, window, req, hwindow, htrimmed⟩ := exists_part_of_issued max_blocks 0 hblock
  · cases hnone
  · obtain ⟨hgap, hbounds⟩ := hwindow.inRange (htrimmed.inWindow hin)
    exact ⟨part, havailable, (mem_initial_gap_parts.mp hpart).1, hbounds, hgap⟩

theorem length_le_length_issued (catalog : Catalog) (rounds turn : Nat) (sel : Selection) :
    sel.issued.length ≤ (catalog.select_loop rounds turn sel).issued.length := by
  induction rounds generalizing turn sel with
  | zero => exact Nat.le_refl _
  | succ rounds ih =>
    rw [Catalog.select_loop]
    split
    · exact Nat.le_refl _
    · rename_i next hstep
      have hrest := ih (turn + 1) next
      obtain ⟨chosen, _, _, ⟨_, rfl⟩ | ⟨block, _, rfl⟩⟩ := select_step_eq_some hstep
      · exact hrest
      · simp only [List.length_append, List.length_singleton] at hrest
        omega

end Issued

section Exhausted

variable {catalog : Catalog} {requested : List Range} {last_part : Option Nat} {max_blocks : Nat}

/-- The loop issues nothing exactly if the parts that it has the iterations to visit have nothing left. -/
theorem length_issued_eq_iff {sel : Selection} (hopen : OpenSelection catalog requested sel) (turn rounds : Nat) :
    (catalog.select_loop rounds turn sel).issued.length = sel.issued.length ↔
      ∀ part ∈ (catalog.order turn sel).take rounds, catalog.left sel.req part = 0 := by
  induction rounds generalizing turn sel with
  | zero => simp [Catalog.select_loop]
  | succ rounds ih =>
    cases hpick : catalog.pick turn sel with
    | none =>
      rw [Catalog.select_loop, select_step_of_none hpick, order_of_none hpick]
      simp
    | some p =>
      cases hblock : next_block_in_part p catalog.total_size catalog.gaps sel.req with
      | none =>
        have hleft := next_block_in_part_eq_none_iff.mp hblock
        have hrest := ih (hopen.exhaust hleft) (turn + 1)
        rw [select_loop_one (select_step_of_exhausted hpick hleft), order_exhaust hpick hleft, List.take_succ_cons,
          List.forall_mem_cons]
        exact hrest.trans (and_iff_right hleft).symm
      | some block =>
        have hopened := (left_append_block hblock).1
        have hlength := length_le_length_issued catalog rounds (turn + 1) (sel.issue p block)
        have hissued : (sel.issue p block).issued.length = sel.issued.length + 1 := List.length_append
        rw [select_loop_one (select_step_of_block hpick hblock), order_of_pick hpick, List.take_succ_cons,
          List.forall_mem_cons]
        exact iff_of_false (by omega) fun hall => by omega

theorem select_blocks_eq_nil_iff :
    (catalog.select_blocks last_part requested max_blocks).1 = [] ↔
      ∀ part ∈ (catalog.order 0 (catalog.initial last_part requested)).take max_blocks, catalog.left requested part = 0 := by
  rw [fst_select_blocks, ← List.length_eq_zero_iff]
  exact length_issued_eq_iff (openSelection_initial catalog last_part requested) 0 max_blocks

variable (last_part requested) in
/-- The parts that the selection visits hold all gap bytes of available parts. -/
theorem mem_order_iff {part : Nat} :
    part ∈ catalog.order 0 (catalog.initial last_part requested) ↔
      part ∈ catalog.initial_gap_parts ∧ part ∈ catalog.available := by
  have hopen := openSelection_initial catalog last_part requested
  exact mem_visits rfl hopen.nodup hopen.gap_size

/-- A part with gap bytes shares a byte with a gap. -/
theorem exists_byte_of_part_gap_pos {total_size : Int} {gaps : List Range} {part : Nat}
    (hgap : part_gap total_size gaps part > 0) : ∃ x, InRange (part_bounds part total_size) x ∧ Covered gaps x := by
  have hzero : (gaps.map fun _ => (0 : Int)).sum < part_gap total_size gaps part := by
    simpa using hgap
  obtain ⟨gap, hmem, hterm⟩ := List.exists_lt_of_sum_lt _ _ hzero
  simp only at hterm
  split_ifs at hterm with hmeet
  · refine ⟨max gap.1 (part_bounds part total_size).1, ⟨le_max_right _ _, ?_⟩, gap, hmem, le_max_left _ _, ?_⟩
    · exact le_trans hmeet (min_le_right _ _)
    · exact le_trans hmeet (min_le_left _ _)
  · exact absurd hterm (lt_irrefl 0)

/-- Bytes can be asked for, and the parts that the selection has the iterations to visit have none of them. -/
def Catalog.Starved (catalog : Catalog) (last_part : Option Nat) (requested : List Range) (max_blocks : Nat) : Prop :=
  (∃ x, Wanted catalog.total_size catalog.available catalog.gaps x ∧ ¬ Covered requested x) ∧
    ∀ part ∈ (catalog.order 0 (catalog.initial last_part requested)).take max_blocks, catalog.left requested part = 0

/-- A selection that is not starved finds nothing only if everything is requested. -/
theorem covered_of_not_starved (hstarved : ¬ catalog.Starved last_part requested max_blocks)
    (hnil : (catalog.select_blocks last_part requested max_blocks).1 = []) {x : Int}
    (hx : Wanted catalog.total_size catalog.available catalog.gaps x) : Covered requested x := by
  by_contra hfree
  exact hstarved ⟨⟨x, hx, hfree⟩, select_blocks_eq_nil_iff.mp hnil⟩

/-- A selection from gaps of which nothing is requested is not starved. -/
theorem not_starved_of_free (hpos : 0 < max_blocks)
    (hfree : ∀ x, Covered catalog.gaps x → ¬ Covered requested x) :
    ¬ catalog.Starved last_part requested max_blocks := by
  rintro ⟨⟨x, ⟨part, havailable, hcount, hbounds, gap, hgap, hin⟩, _⟩, hexhausted⟩
  have hinitial : part ∈ catalog.initial_gap_parts := by
    refine mem_initial_gap_parts.mpr ⟨hcount, ?_, part_gap_pos_of_inRange hgap hin hbounds⟩
    exact Int.not_lt.mpr (le_trans hbounds.1 hbounds.2)
  have hvisited := (mem_order_iff requested last_part).mpr ⟨hinitial, havailable⟩
  cases horder : catalog.order 0 (catalog.initial last_part requested) with
  | nil =>
    rw [horder] at hvisited
    cases hvisited
  | cons first rest =>
    have hfirst : first ∈ (catalog.order 0 (catalog.initial last_part requested)).take max_blocks := by
      obtain ⟨rounds, rfl⟩ := Nat.exists_eq_succ_of_ne_zero (Nat.ne_of_gt hpos)
      rw [horder, List.take_succ_cons]
      exact List.mem_cons_self
    have hopen := (mem_order_iff requested last_part).mp (List.mem_of_mem_take hfirst)
    obtain ⟨y, hy, hmissing⟩ := exists_byte_of_part_gap_pos (mem_initial_gap_parts.mp hopen.1).2.2
    exact hfree y hmissing (left_eq_zero_iff.mp (hexhausted first hfirst) y hy hmissing)

end Exhausted

end amuled.download.ics
