import Mathlib.Data.List.Basic
import Mathlib.Data.List.Count
import Mathlib.Order.Lattice
import Mathlib.Algebra.BigOperators.Group.List.Basic
import Mathlib.Algebra.Order.Ring.Int
import Mathlib.Data.Int.Interval

namespace intervals

section Order

variable {α : Type} [LinearOrder α]

/-- A point lies in an inclusive range. -/
def InRange (range : α × α) (x : α) : Prop := range.1 ≤ x ∧ x ≤ range.2

/-- A point lies in one of the ranges. -/
def Covered (ranges : List (α × α)) (x : α) : Prop := ∃ range ∈ ranges, InRange range x

/-- Two ranges share no point. -/
def Apart (first second : α × α) : Prop := ∀ x, ¬ (InRange first x ∧ InRange second x)

theorem Apart.symm {first second : α × α} (h : Apart first second) : Apart second first :=
  fun x hx => h x hx.symm

/-- The points of a window that the ranges leave free have none of the ranges'
points between them. -/
def FreeContiguous (ranges : List (α × α)) (window : α × α) : Prop :=
  ∀ x y z, window.1 ≤ x → x < y → y < z → z ≤ window.2 →
    ¬ Covered ranges x → ¬ Covered ranges z → ¬ Covered ranges y

@[simp] theorem not_covered_nil (x : α) : ¬ Covered [] x := by simp [Covered]

theorem covered_append (first second : List (α × α)) (x : α) :
    Covered (first ++ second) x ↔ Covered first x ∨ Covered second x := by
  simp only [Covered, List.mem_append, or_and_right, exists_or]

theorem covered_singleton (range : α × α) (x : α) : Covered [range] x ↔ InRange range x := by
  simp [Covered]

/-- What is left of a window once everything in front of it and behind it was
found covered: the window's free points lie in the kept range, whose ends are
free. -/
structure Trimmed (ranges : List (α × α)) (window kept : α × α) : Prop where
  nonempty : kept.1 ≤ kept.2
  start_le : window.1 ≤ kept.1
  le_end : kept.2 ≤ window.2
  before : ∀ x, window.1 ≤ x → x < kept.1 → Covered ranges x
  after : ∀ x, kept.2 < x → x ≤ window.2 → Covered ranges x
  start_free : ¬ Covered ranges kept.1
  end_free : ¬ Covered ranges kept.2

/-- Every free point of the window is kept. -/
theorem Trimmed.inRange {ranges : List (α × α)} {window kept : α × α}
    (h : Trimmed ranges window kept) {x : α} (hx : InRange window x) (hfree : ¬ Covered ranges x) :
    InRange kept x := by
  constructor
  · by_contra hbefore
    exact hfree (h.before x hx.1 (not_le.mp hbefore))
  · by_contra hafter
    exact hfree (h.after x (not_le.mp hafter) hx.2)

theorem Trimmed.inWindow {ranges : List (α × α)} {window kept : α × α}
    (h : Trimmed ranges window kept) {x : α} (hx : InRange kept x) : InRange window x :=
  ⟨le_trans h.start_le hx.1, le_trans hx.2 h.le_end⟩

/-- Where the free points of the window are contiguous, the kept range is
exactly the free points. -/
theorem Trimmed.free {ranges : List (α × α)} {window kept : α × α} (h : Trimmed ranges window kept)
    (hcontiguous : FreeContiguous ranges window) {x : α} (hx : InRange kept x) :
    ¬ Covered ranges x := by
  rcases eq_or_lt_of_le hx.1 with heq | hlow
  · rw [← heq]
    exact h.start_free
  · rcases eq_or_lt_of_le hx.2 with heq | hhigh
    · rw [heq]
      exact h.end_free
    · exact hcontiguous _ x _ h.start_le hlow hhigh h.le_end h.start_free h.end_free

/-- Otherwise the kept range runs over a covered point. -/
theorem Trimmed.covers_of_not_contiguous {ranges : List (α × α)} {window kept : α × α}
    (h : Trimmed ranges window kept) (hnot : ¬ FreeContiguous ranges window) :
    ∃ x, InRange kept x ∧ Covered ranges x := by
  simp only [FreeContiguous, not_forall] at hnot
  obtain ⟨x, y, z, hx, hxy, hyz, hz, hxfree, hzfree, hycovered⟩ := hnot
  have hxkept := h.inRange ⟨hx, le_trans (le_of_lt (lt_trans hxy hyz)) hz⟩ hxfree
  have hzkept := h.inRange ⟨le_trans hx (le_of_lt (lt_trans hxy hyz)), hz⟩ hzfree
  exact ⟨y, ⟨le_trans hxkept.1 (le_of_lt hxy), le_trans (le_of_lt hyz) hzkept.2⟩,
    not_not.mp hycovered⟩

/-- Ranges that miss a window do not matter to it. -/
theorem freeContiguous_append_of_apart {ranges : List (α × α)} {window other : α × α}
    (hapart : Apart window other) :
    FreeContiguous (ranges ++ [other]) window ↔ FreeContiguous ranges window := by
  have hsame : ∀ x, InRange window x → (Covered (ranges ++ [other]) x ↔ Covered ranges x) := by
    intro x hx
    rw [covered_append, covered_singleton]
    exact or_iff_left fun hother => hapart x ⟨hx, hother⟩
  constructor <;> intro h x y z hx hxy hyz hz
  · have hlow := le_of_lt (lt_trans hxy hyz)
    rw [← hsame x ⟨hx, le_trans hlow hz⟩, ← hsame z ⟨le_trans hx hlow, hz⟩,
      ← hsame y ⟨le_trans hx (le_of_lt hxy), le_trans (le_of_lt hyz) hz⟩]
    exact h x y z hx hxy hyz hz
  · have hlow := le_of_lt (lt_trans hxy hyz)
    rw [hsame x ⟨hx, le_trans hlow hz⟩, hsame z ⟨le_trans hx hlow, hz⟩,
      hsame y ⟨le_trans hx (le_of_lt hxy), le_trans (le_of_lt hyz) hz⟩]
    exact h x y z hx hxy hyz hz

/-- Two ranges meet, as the bounds tell it. -/
def meets (first second : α × α) : Bool :=
  decide (first.1 ≤ second.2) && decide (second.1 ≤ first.2)

/-- The number of ranges that meet a window. -/
def meeting (ranges : List (α × α)) (window : α × α) : Nat := ranges.countP (meets window)

/-- A narrower window meets no more ranges, and fewer if one of them is left. -/
theorem meeting_mono {ranges : List (α × α)} {window narrower : α × α}
    (hstart : window.1 ≤ narrower.1) (hend : narrower.2 ≤ window.2) :
    meeting ranges narrower ≤ meeting ranges window := by
  apply List.countP_mono_left
  intro range _ hmeets
  simp only [meets, Bool.and_eq_true, decide_eq_true_eq] at hmeets ⊢
  exact ⟨le_trans hstart hmeets.1, le_trans hmeets.2 hend⟩

theorem meeting_lt {ranges : List (α × α)} {window narrower range : α × α}
    (hstart : window.1 ≤ narrower.1) (hend : narrower.2 ≤ window.2) (hrange : range ∈ ranges)
    (hmeets : meets window range = true) (hleft : meets narrower range = false) :
    meeting ranges narrower < meeting ranges window := by
  obtain ⟨front, back, rfl⟩ := List.append_of_mem hrange
  have hfront : meeting front narrower ≤ meeting front window := meeting_mono hstart hend
  have hback : meeting back narrower ≤ meeting back window := meeting_mono hstart hend
  simp only [meeting, List.countP_append, List.countP_cons, hmeets, hleft] at hfront hback ⊢
  simp only [if_true, Bool.false_eq_true, if_false]
  omega

end Order

/-- The sum of the lengths of inclusive ranges. -/
def total (ranges : List (Int × Int)) : Int := (ranges.map fun range => range.2 + 1 - range.1).sum

variable {ranges other : List (Int × Int)}

@[simp] theorem total_nil : total [] = 0 := rfl

@[simp] theorem total_cons (range : Int × Int) (ranges : List (Int × Int)) :
    total (range :: ranges) = range.2 + 1 - range.1 + total ranges := by
  rw [total, List.map_cons, List.sum_cons, total]

theorem total_append (first second : List (Int × Int)) : total (first ++ second) = total first + total second := by
  rw [total, List.map_append, List.sum_append, total, total]

theorem total_nonneg (hnonempty : ∀ range ∈ ranges, range.1 ≤ range.2) : 0 ≤ total ranges := by
  induction ranges with
  | nil => exact le_refl 0
  | cons range rest ih =>
    rw [List.forall_mem_cons] at hnonempty
    have hrest := ih hnonempty.2
    rw [total_cons]
    omega

theorem total_pos (hnonempty : ∀ range ∈ ranges, range.1 ≤ range.2) (hsome : ranges ≠ []) : 0 < total ranges := by
  obtain ⟨range, rest, rfl⟩ := List.exists_cons_of_ne_nil hsome
  rw [List.forall_mem_cons] at hnonempty
  have hrest := total_nonneg hnonempty.2
  rw [total_cons]
  omega

theorem covered_cons {range : Int × Int} {x : Int} : Covered (range :: ranges) x ↔ InRange range x ∨ Covered ranges x := by
  rw [← List.singleton_append, covered_append, covered_singleton]

/-- Ranges that share no point hold as many points as their lengths add up to. -/
theorem exists_points (hnonempty : ∀ range ∈ ranges, range.1 ≤ range.2) (hapart : ranges.Pairwise Apart) :
    ∃ points : Finset Int, (∀ x, x ∈ points ↔ Covered ranges x) ∧ (points.card : Int) = total ranges := by
  induction ranges with
  | nil => exact ⟨∅, fun x => iff_of_false (Finset.notMem_empty x) (not_covered_nil x), rfl⟩
  | cons range rest ih =>
    rw [List.forall_mem_cons] at hnonempty
    rw [List.pairwise_cons] at hapart
    obtain ⟨points, hpoints, hcard⟩ := ih hnonempty.2 hapart.2
    have hdisjoint : Disjoint (Finset.Icc range.1 range.2) points := by
      rw [Finset.disjoint_left]
      intro x hx hrest
      obtain ⟨taken, htaken, hin⟩ := (hpoints x).mp hrest
      exact hapart.1 taken htaken x ⟨Finset.mem_Icc.mp hx, hin⟩
    refine ⟨Finset.Icc range.1 range.2 ∪ points, fun x => ?_, ?_⟩
    · rw [covered_cons, Finset.mem_union, hpoints, Finset.mem_Icc]
      rfl
    · rw [Finset.card_union_of_disjoint hdisjoint, Nat.cast_add, hcard, Int.card_Icc, total_cons,
        Int.toNat_of_nonneg (by omega)]

/-- Ranges apart from each other that lie in others are no longer than these. -/
theorem total_le_total (hnonempty : ∀ range ∈ ranges, range.1 ≤ range.2) (hapart : ranges.Pairwise Apart)
    (hother : ∀ range ∈ other, range.1 ≤ range.2) (hotherApart : other.Pairwise Apart)
    (hinside : ∀ x, Covered ranges x → Covered other x) : total ranges ≤ total other := by
  obtain ⟨points, hpoints, hcard⟩ := exists_points hnonempty hapart
  obtain ⟨around, haround, hmore⟩ := exists_points hother hotherApart
  rw [← hcard, ← hmore, Nat.cast_le]
  apply Finset.card_le_card
  intro x hx
  exact (haround x).mpr (hinside x ((hpoints x).mp hx))

/-- Where they are as long they leave no point out. -/
theorem covered_of_total_le (hnonempty : ∀ range ∈ ranges, range.1 ≤ range.2) (hapart : ranges.Pairwise Apart)
    (hother : ∀ range ∈ other, range.1 ≤ range.2) (hotherApart : other.Pairwise Apart)
    (hinside : ∀ x, Covered ranges x → Covered other x) (hlong : total other ≤ total ranges) {x : Int}
    (hx : Covered other x) : Covered ranges x := by
  obtain ⟨points, hpoints, hcard⟩ := exists_points hnonempty hapart
  obtain ⟨around, haround, hmore⟩ := exists_points hother hotherApart
  rw [← hcard, ← hmore, Nat.cast_le] at hlong
  have hsubset : points ⊆ around := by
    intro y hy
    exact (haround y).mpr (hinside y ((hpoints y).mp hy))
  have hsame := Finset.eq_of_subset_of_card_le hsubset hlong
  rw [← hpoints, hsame, haround]
  exact hx

end intervals
