import Mathlib.Data.List.Basic
import Mathlib.Data.Int.Interval
import Mathlib.Order.Interval.Finset.Nat
import Mathlib.Order.Lattice

namespace halfopen

/-- A range without its end. -/
structure Span (α : Type) where
  start : α
  stop : α
  deriving DecidableEq

variable {α : Type} [LinearOrder α]

def Span.Holds (span : Span α) (x : α) : Prop := span.start ≤ x ∧ x < span.stop

instance (span : Span α) (x : α) : Decidable (span.Holds x) := inferInstanceAs (Decidable (_ ∧ _))

def Covers (spans : List (Span α)) (x : α) : Prop := ∃ span ∈ spans, span.Holds x

instance (spans : List (Span α)) (x : α) : Decidable (Covers spans x) :=
  inferInstanceAs (Decidable (∃ span ∈ spans, span.Holds x))

@[simp] theorem not_covers_nil (x : α) : ¬ Covers [] x := by simp [Covers]

@[simp] theorem covers_cons {span : Span α} {spans : List (Span α)} {x : α} :
    Covers (span :: spans) x ↔ span.Holds x ∨ Covers spans x := by simp [Covers]

@[simp] theorem covers_append {front back : List (Span α)} {x : α} :
    Covers (front ++ back) x ↔ Covers front x ∨ Covers back x := by
  simp only [Covers, List.mem_append, or_and_right, exists_or]

theorem covers_of_perm {spans spans' : List (Span α)} (hperm : spans.Perm spans') {x : α} :
    Covers spans x ↔ Covers spans' x := by simp only [Covers, hperm.mem_iff]

/-- Non-empty spans in order that neither meet nor touch. -/
structure Canonical (spans : List (Span α)) : Prop where
  nonempty : ∀ span ∈ spans, span.start < span.stop
  apart : spans.Pairwise fun a b => a.stop < b.start

theorem canonical_nil : Canonical ([] : List (Span α)) :=
  ⟨by simp, List.Pairwise.nil⟩

section Canonical

variable {span other : Span α} {spans others : List (Span α)}

theorem Canonical.tail (h : Canonical (span :: spans)) : Canonical spans :=
  ⟨fun _ hmem => h.nonempty _ (List.mem_cons_of_mem _ hmem), h.apart.tail⟩

theorem Canonical.head_covers (h : Canonical (span :: spans)) : Covers (span :: spans) span.start :=
  covers_cons.mpr (.inl ⟨le_rfl, h.nonempty span List.mem_cons_self⟩)

/-- The points of the later spans lie behind the first. -/
theorem Canonical.stop_lt (h : Canonical (span :: spans)) {x : α} (hx : Covers spans x) :
    span.stop < x := by
  obtain ⟨later, hlater, hholds⟩ := hx
  exact lt_of_lt_of_le ((List.pairwise_cons.mp h.apart).1 later hlater) hholds.1

theorem Canonical.start_le (h : Canonical (span :: spans)) {x : α} (hx : Covers (span :: spans) x) :
    span.start ≤ x := by
  cases covers_cons.mp hx with
  | inl hholds => exact hholds.1
  | inr hrest => exact le_of_lt ((h.nonempty span List.mem_cons_self).trans (h.stop_lt hrest))

theorem Canonical.covers_tail (h : Canonical (span :: spans)) (x : α) :
    Covers spans x ↔ Covers (span :: spans) x ∧ ¬ span.Holds x := by
  constructor
  · intro hx
    exact ⟨covers_cons.mpr (.inr hx), fun hholds => lt_asymm hholds.2 (h.stop_lt hx)⟩
  · rintro ⟨hx, hnot⟩
    exact (covers_cons.mp hx).resolve_left hnot

theorem Canonical.stop_le (h : Canonical (span :: spans)) (hstart : span.start = other.start)
    (hcover : ∀ x, Covers (other :: others) x → Covers (span :: spans) x) :
    other.stop ≤ span.stop := by
  by_contra hlonger
  have hinside : other.Holds span.stop :=
    ⟨hstart ▸ le_of_lt (h.nonempty span List.mem_cons_self), not_le.mp hlonger⟩
  cases covers_cons.mp (hcover _ (covers_cons.mpr (.inl hinside))) with
  | inl hholds => exact lt_irrefl _ hholds.2
  | inr hrest => exact lt_irrefl _ (h.stop_lt hrest)

/-- Canonical lists are determined by the points that they cover. -/
theorem Canonical.ext (h : Canonical spans) (h' : Canonical others)
    (hcover : ∀ x, Covers spans x ↔ Covers others x) : spans = others := by
  induction spans generalizing others with
  | nil =>
    cases others with
    | nil => rfl
    | cons other rest => exact absurd ((hcover _).mpr h'.head_covers) (not_covers_nil _)
  | cons span rest ih =>
    cases others with
    | nil => exact absurd ((hcover _).mp h.head_covers) (not_covers_nil _)
    | cons other rest' =>
      have hstart : span.start = other.start := le_antisymm
        (h.start_le ((hcover _).mpr h'.head_covers)) (h'.start_le ((hcover _).mp h.head_covers))
      have hstop : span.stop = other.stop := le_antisymm
        (h'.stop_le hstart.symm fun x hx => (hcover x).mp hx)
        (h.stop_le hstart fun x hx => (hcover x).mpr hx)
      have hspan : span = other := by
        cases span
        cases other
        cases hstart
        cases hstop
        rfl
      subst hspan
      have hrest : ∀ x, Covers rest x ↔ Covers rest' x := by
        intro x
        rw [h.covers_tail, h'.covers_tail, hcover]
      rw [ih h.tail h'.tail hrest]

/-- A span whose points canonical spans cover lies inside one of them. -/
theorem Canonical.outer (h : Canonical spans) (hspan : span.start < span.stop)
    (hcover : ∀ x, span.Holds x → Covers spans x) :
    ∃ outer ∈ spans, outer.start ≤ span.start ∧ span.stop ≤ outer.stop := by
  obtain ⟨outer, houter, hholds⟩ := hcover span.start ⟨le_rfl, hspan⟩
  refine ⟨outer, houter, hholds.1, ?_⟩
  by_contra hlonger
  obtain ⟨next, hnext, hinside⟩ := hcover outer.stop ⟨le_of_lt hholds.2, not_le.mp hlonger⟩
  -- The end of the outer span would lie in another span, and canonical spans do not touch.
  have hne : outer ≠ next := by
    rintro rfl
    exact lt_irrefl _ hinside.2
  have : Std.Symm fun a b : Span α => a.stop < b.start ∨ b.stop < a.start := ⟨fun _ _ hor => hor.symm⟩
  have heither : spans.Pairwise fun a b => a.stop < b.start ∨ b.stop < a.start := h.apart.imp Or.inl
  have hapart := heither.forall houter hnext hne
  rcases hapart with hbefore | hafter
  · exact absurd hinside.1 (not_le.mpr hbefore)
  · exact absurd (hafter.trans (h.nonempty outer houter)) (not_lt.mpr (le_of_lt hinside.2))

end Canonical

section Merge

/-- The merged spans, the last one first, with one more behind them. -/
def absorb (merged : List (Span α)) (span : Span α) : List (Span α) :=
  match merged with
  | [] => [span]
  | last :: rest =>
    if span.start ≤ last.stop then ⟨last.start, max last.stop span.stop⟩ :: rest
    else span :: last :: rest

/-- The union of spans that are sorted by their starts. -/
def merge (spans : List (Span α)) : List (Span α) := (spans.foldl absorb []).reverse

/-- Spans that were merged up to a start. -/
structure Stacked (merged : List (Span α)) (bound : α) : Prop where
  nonempty : ∀ span ∈ merged, span.start < span.stop
  apart : merged.Pairwise fun a b => b.stop < a.start
  bounded : ∀ span ∈ merged, span.start ≤ bound

variable {merged : List (Span α)} {span : Span α}

theorem Stacked.absorb (h : Stacked merged span.start) (hspan : span.start < span.stop) :
    Stacked (absorb merged span) span.start := by
  cases merged with
  | nil => exact ⟨by simpa [halfopen.absorb] using hspan, List.pairwise_singleton _ _, by simp [halfopen.absorb]⟩
  | cons last rest =>
    obtain ⟨hnonempty, hapart, hbounded⟩ := h
    rw [List.forall_mem_cons] at hnonempty hbounded
    rw [halfopen.absorb]
    split
    · refine ⟨?_, ?_, ?_⟩
      · rw [List.forall_mem_cons]
        exact ⟨lt_max_of_lt_left hnonempty.1, hnonempty.2⟩
      · rw [List.pairwise_cons] at hapart ⊢
        exact hapart
      · rw [List.forall_mem_cons]
        exact hbounded
    · rename_i hgap
      refine ⟨?_, ?_, ?_⟩
      · rw [List.forall_mem_cons, List.forall_mem_cons]
        exact ⟨hspan, hnonempty⟩
      · refine List.pairwise_cons.mpr ⟨?_, hapart⟩
        intro earlier hearlier
        cases List.mem_cons.mp hearlier with
        | inl hlast => exact hlast ▸ not_le.mp hgap
        | inr hrest =>
          have hbefore := (List.pairwise_cons.mp hapart).1 earlier hrest
          exact hbefore.trans (hnonempty.1.trans (not_le.mp hgap))
      · rw [List.forall_mem_cons, List.forall_mem_cons]
        exact ⟨le_rfl, hbounded⟩

theorem Stacked.covers_absorb (h : Stacked merged span.start) (x : α) :
    Covers (halfopen.absorb merged span) x ↔ Covers merged x ∨ span.Holds x := by
  cases merged with
  | nil => simp [halfopen.absorb]
  | cons last rest =>
    have hbound := h.bounded last List.mem_cons_self
    rw [halfopen.absorb]
    split
    · rename_i htouch
      have hunion : Span.Holds ⟨last.start, max last.stop span.stop⟩ x ↔ last.Holds x ∨ span.Holds x := by
        simp only [Span.Holds, lt_max_iff]
        constructor
        · rintro ⟨hstart, hlast | hspan⟩
          · exact .inl ⟨hstart, hlast⟩
          · by_cases hinside : x < last.stop
            · exact .inl ⟨hstart, hinside⟩
            · exact .inr ⟨htouch.trans (not_lt.mp hinside), hspan⟩
        · rintro (hlast | hspan)
          · exact ⟨hlast.1, .inl hlast.2⟩
          · exact ⟨hbound.trans hspan.1, .inr hspan.2⟩
      rw [covers_cons, hunion, covers_cons, or_right_comm]
    · rw [covers_cons, or_comm]

theorem foldl_absorb {spans : List (Span α)} {bound : α} (h : Stacked merged bound)
    (hnonempty : ∀ span ∈ spans, span.start < span.stop)
    (hsorted : spans.Pairwise fun a b => a.start ≤ b.start) (hbound : ∀ span ∈ spans, bound ≤ span.start) :
    (∃ bound', Stacked (spans.foldl absorb merged) bound') ∧
      ∀ x, Covers (spans.foldl absorb merged) x ↔ Covers merged x ∨ Covers spans x := by
  induction spans generalizing merged bound with
  | nil => exact ⟨⟨bound, h⟩, by simp⟩
  | cons span rest ih =>
    rw [List.forall_mem_cons] at hnonempty hbound
    have hnext : Stacked merged span.start :=
      ⟨h.nonempty, h.apart, fun other hother => (h.bounded other hother).trans hbound.1⟩
    obtain ⟨hstacked, hcovers⟩ := ih (hnext.absorb hnonempty.1) hnonempty.2 hsorted.tail
      (List.pairwise_cons.mp hsorted).1
    refine ⟨hstacked, fun x => ?_⟩
    rw [List.foldl_cons, hcovers, hnext.covers_absorb, covers_cons, or_assoc]

/-- The loop of a merge, whose first span is never behind another. -/
theorem foldl_absorb_cons {rest : List (Span α)}
    (hnonempty : ∀ other ∈ span :: rest, other.start < other.stop)
    (hsorted : (span :: rest).Pairwise fun a b => a.start ≤ b.start) :
    (∃ bound, Stacked ((span :: rest).foldl absorb []) bound) ∧
      ∀ x, Covers ((span :: rest).foldl absorb []) x ↔ Covers (span :: rest) x := by
  have hempty : Stacked ([] : List (Span α)) span.start := ⟨by simp, List.Pairwise.nil, by simp⟩
  have hbound : ∀ other ∈ span :: rest, span.start ≤ other.start := by
    rw [List.forall_mem_cons]
    exact ⟨le_rfl, (List.pairwise_cons.mp hsorted).1⟩
  obtain ⟨hstacked, hcovers⟩ := foldl_absorb hempty hnonempty hsorted hbound
  refine ⟨hstacked, fun x => ?_⟩
  rw [hcovers]
  exact or_iff_right (not_covers_nil x)

theorem canonical_merge {spans : List (Span α)} (hnonempty : ∀ span ∈ spans, span.start < span.stop)
    (hsorted : spans.Pairwise fun a b => a.start ≤ b.start) : Canonical (merge spans) := by
  cases spans with
  | nil => exact canonical_nil
  | cons span rest =>
    obtain ⟨⟨bound, hstacked⟩, _⟩ := foldl_absorb_cons hnonempty hsorted
    constructor
    · intro other hother
      exact hstacked.nonempty other (List.mem_reverse.mp hother)
    · rw [merge, List.pairwise_reverse]
      exact hstacked.apart

theorem covers_merge {spans : List (Span α)} (hnonempty : ∀ span ∈ spans, span.start < span.stop)
    (hsorted : spans.Pairwise fun a b => a.start ≤ b.start) (x : α) :
    Covers (merge spans) x ↔ Covers spans x := by
  cases spans with
  | nil => rfl
  | cons span rest =>
    rw [merge, covers_of_perm (List.reverse_perm _), (foldl_absorb_cons hnonempty hsorted).2 x]

end Merge

/-- The lengths of canonical spans of integers add up to the number of their points. -/
theorem Canonical.sum_length {spans : List (Span Int)} (h : Canonical spans) {points : Finset Int}
    (hpoints : ∀ x, x ∈ points ↔ Covers spans x) :
    (spans.map fun span => span.stop - span.start).sum = points.card := by
  induction spans generalizing points with
  | nil =>
    have hempty : points = ∅ := by
      rw [Finset.eq_empty_iff_forall_notMem]
      intro x hx
      exact not_covers_nil x ((hpoints x).mp hx)
    rw [hempty]
    rfl
  | cons span rest ih =>
    have hlt := h.nonempty span List.mem_cons_self
    have hsubset : Finset.Ico span.start span.stop ⊆ points := by
      intro x hx
      exact (hpoints x).mpr (covers_cons.mpr (.inl (Finset.mem_Ico.mp hx)))
    have hrest : ∀ x, x ∈ points \ Finset.Ico span.start span.stop ↔ Covers rest x := by
      intro x
      rw [Finset.mem_sdiff, hpoints, Finset.mem_Ico, h.covers_tail]
      rfl
    have hcard := Finset.card_sdiff_add_card_eq_card hsubset
    rw [Int.card_Ico] at hcard
    rw [List.map_cons, List.sum_cons, ih h.tail hrest, ← hcard, Nat.cast_add]
    omega

section Counting

variable {spans : List (Span Nat)} {outer : Span Nat}

/-- The points of a range that spans cover are as many as the spans are long together, where no
two spans share a point. -/
theorem card_covered (hinside : ∀ span ∈ spans, outer.start ≤ span.start ∧ span.stop ≤ outer.stop)
    (hapart : spans.Pairwise fun a b => ∀ x, a.Holds x → ¬ b.Holds x) :
    ((Finset.Ico outer.start outer.stop).filter (Covers spans)).card =
      (spans.map fun span => span.stop - span.start).sum := by
  induction spans with
  | nil => simp
  | cons span rest ih =>
    rw [List.forall_mem_cons] at hinside
    rw [List.pairwise_cons] at hapart
    have hsplit : (Finset.Ico outer.start outer.stop).filter (Covers (span :: rest)) =
        Finset.Ico span.start span.stop ∪ (Finset.Ico outer.start outer.stop).filter (Covers rest) := by
      ext x
      simp only [Finset.mem_union, Finset.mem_filter, Finset.mem_Ico, covers_cons, Span.Holds]
      constructor
      · rintro ⟨hrange, hspan | hrest⟩
        · exact .inl hspan
        · exact .inr ⟨hrange, hrest⟩
      · rintro (hspan | ⟨hrange, hrest⟩)
        · exact ⟨⟨hinside.1.1.trans hspan.1, lt_of_lt_of_le hspan.2 hinside.1.2⟩, .inl hspan⟩
        · exact ⟨hrange, .inr hrest⟩
    have hdisjoint : Disjoint (Finset.Ico span.start span.stop)
        ((Finset.Ico outer.start outer.stop).filter (Covers rest)) := by
      rw [Finset.disjoint_left]
      intro x hspan hrest
      obtain ⟨other, hother, hholds⟩ := (Finset.mem_filter.mp hrest).2
      exact hapart.1 other hother x (Finset.mem_Ico.mp hspan) hholds
    rw [hsplit, Finset.card_union_of_disjoint hdisjoint, Nat.card_Ico, ih hinside.2 hapart.2,
      List.map_cons, List.sum_cons]

/-- Spans inside a range of which no two share a point cover it where they are as long together
as it is. -/
theorem covers_of_sum_length (hinside : ∀ span ∈ spans, outer.start ≤ span.start ∧ span.stop ≤ outer.stop)
    (hapart : spans.Pairwise fun a b => ∀ x, a.Holds x → ¬ b.Holds x)
    (hlength : outer.stop - outer.start ≤ (spans.map fun span => span.stop - span.start).sum)
    {x : Nat} (hx : outer.Holds x) : Covers spans x := by
  have hcard := card_covered hinside hapart
  have hall : (Finset.Ico outer.start outer.stop).filter (Covers spans) = Finset.Ico outer.start outer.stop := by
    refine Finset.eq_of_subset_of_card_le (Finset.filter_subset _ _) ?_
    rw [hcard, Nat.card_Ico]
    exact hlength
  have hmem : x ∈ (Finset.Ico outer.start outer.stop).filter (Covers spans) := by
    rw [hall]
    exact Finset.mem_Ico.mpr hx
  exact (Finset.mem_filter.mp hmem).2

end Counting


/-- Non-empty spans in order that do not meet; they may touch. -/
structure Spaced {α : Type} [LinearOrder α] (spans : List (Span α)) : Prop where
  nonempty : ∀ span ∈ spans, span.start < span.stop
  apart : spans.Pairwise fun a b => a.stop ≤ b.start

section Spaced

variable {α : Type} [LinearOrder α] {span : Span α} {spans : List (Span α)} {x : α}

theorem Spaced.tail (h : Spaced (span :: spans)) : Spaced spans :=
  ⟨fun _ hmem => h.nonempty _ (List.mem_cons_of_mem _ hmem), h.apart.tail⟩

/-- The points of the later spans lie behind the first. -/
theorem Spaced.stop_le (h : Spaced (span :: spans)) (hx : Covers spans x) : span.stop ≤ x := by
  obtain ⟨later, hlater, hholds⟩ := hx
  exact le_trans ((List.pairwise_cons.mp h.apart).1 later hlater) hholds.1

theorem Spaced.start_le (h : Spaced (span :: spans)) (hx : Covers (span :: spans) x) :
    span.start ≤ x := by
  cases covers_cons.mp hx with
  | inl hholds => exact hholds.1
  | inr hrest => exact le_trans (le_of_lt (h.nonempty span List.mem_cons_self)) (h.stop_le hrest)

/-- No point lies in two spans. -/
theorem Spaced.unique (h : Spaced spans) {first second : Span α} (hfirst : first ∈ spans)
    (hsecond : second ∈ spans) (hholdsFirst : first.Holds x) (hholdsSecond : second.Holds x) :
    first = second := by
  induction spans with
  | nil => cases hfirst
  | cons head rest ih =>
    have hbehind : ∀ {span : Span α}, span ∈ rest → head.Holds x → ¬ span.Holds x :=
      fun hmem hhead hholds => not_lt.mpr (h.stop_le ⟨_, hmem, hholds⟩) hhead.2
    rcases List.mem_cons.mp hfirst with rfl | hlater
    · rcases List.mem_cons.mp hsecond with rfl | hother
      · rfl
      · exact absurd hholdsSecond (hbehind hother hholdsFirst)
    · rcases List.mem_cons.mp hsecond with rfl | hother
      · exact absurd hholdsFirst (hbehind hlater hholdsSecond)
      · exact ih h.tail hlater hother

end Spaced

section Held

variable {α : Type} [LinearOrder α] [LocallyFiniteOrder α]
variable {spans others : List (Span α)} {start middle stop : α}

/-- How many points of a range the spans cover. -/
def held (spans : List (Span α)) (start stop : α) : Nat :=
  ((Finset.Ico start stop).filter (Covers spans)).card

theorem held_congr (hsame : ∀ x, start ≤ x → x < stop → (Covers spans x ↔ Covers others x)) :
    held spans start stop = held others start stop := by
  rw [held, held]
  congr 1
  apply Finset.filter_congr
  intro x hx
  rw [Finset.mem_Ico] at hx
  exact hsame x hx.1 hx.2

theorem held_eq_zero (hfree : ∀ x, start ≤ x → x < stop → ¬ Covers spans x) :
    held spans start stop = 0 := by
  rw [held, Finset.card_eq_zero, Finset.filter_eq_empty_iff]
  intro x hx
  rw [Finset.mem_Ico] at hx
  exact hfree x hx.1 hx.2

theorem held_le_add : held spans start stop ≤ held spans start middle + held spans middle stop := by
  refine Nat.le_trans (Finset.card_le_card ?_) (Finset.card_union_le _ _)
  intro x hx
  simp only [Finset.mem_union, Finset.mem_filter, Finset.mem_Ico] at hx ⊢
  obtain ⟨⟨hstart, hstop⟩, hcovers⟩ := hx
  cases lt_or_ge x middle with
  | inl hbefore => exact .inl ⟨⟨hstart, hbefore⟩, hcovers⟩
  | inr hafter => exact .inr ⟨⟨hafter, hstop⟩, hcovers⟩

end Held

theorem held_le_length {spans : List (Span Int)} {start stop : Int} (hle : start ≤ stop) :
    (held spans start stop : Int) ≤ stop - start := by
  have hcard := Finset.card_filter_le (Finset.Ico start stop) (Covers spans)
  rw [Int.card_Ico] at hcard
  rw [held]
  omega

end halfopen
