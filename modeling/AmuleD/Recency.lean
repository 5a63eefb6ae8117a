import Mathlib.Data.List.Basic
import Mathlib.Data.List.Nodup

namespace recency

variable {α : Type}

/-- The items come from the longest untouched to the last touched, by a log of touches
that has its latest entry first. -/
def Ordered [BEq α] (log items : List α) : Prop :=
  items.Pairwise fun older newer => log.idxOf newer < log.idxOf older

section Ordered

variable [BEq α] {log items items' : List α} {x y : α}

theorem ordered_nil (log : List α) : Ordered log [] := List.Pairwise.nil

theorem Ordered.sublist (h : Ordered log items) (hsublist : items'.Sublist items) : Ordered log items' :=
  List.Pairwise.sublist hsublist h

theorem ordered_pair : Ordered log [x, y] ↔ log.idxOf y < log.idxOf x := List.pairwise_pair

/-- Two items cannot stand in both orders. -/
theorem Ordered.not_swapped (h : Ordered log items) (hitems : [x, y].Sublist items)
    (hitems' : [y, x].Sublist items') : ¬ Ordered log items' := by
  intro h'
  have hxy := ordered_pair.mp (h.sublist hitems)
  have hyx := ordered_pair.mp (h'.sublist hitems')
  omega

variable [LawfulBEq α]

/-- A touch of something else moves all items of a list down alike. -/
theorem ordered_touch_iff (hx : x ∉ items) : Ordered (x :: log) items ↔ Ordered log items := by
  have hindex : ∀ item ∈ items, (x :: log).idxOf item = log.idxOf item + 1 := by
    intro item hitem
    apply List.idxOf_cons_ne
    rintro rfl
    exact hx hitem
  apply List.Pairwise.iff_of_mem
  intro older newer holder hnewer
  rw [hindex older holder, hindex newer hnewer, Nat.add_lt_add_iff_right]

/-- An item that is touched belongs behind all others. -/
theorem Ordered.touch (h : Ordered log items) (hx : x ∉ items) : Ordered (x :: log) (items ++ [x]) := by
  refine List.pairwise_append.mpr ⟨(ordered_touch_iff hx).mpr h, List.pairwise_singleton _ _, ?_⟩
  intro older holder newer hnewer
  rw [List.mem_singleton.mp hnewer, List.idxOf_cons_self, List.idxOf_cons_ne]
  · exact Nat.succ_pos _
  · rintro rfl
    exact hx holder

end Ordered

section Touch

variable {items items' : List α} {x : α}

/-- What a list becomes when something is touched: items may go, and what is touched may
come in at the end. -/
def Touch (touched : Option α) (items items' : List α) : Prop :=
  ∃ kept : List α, kept.Sublist items ∧ (∀ item ∈ touched, item ∉ kept) ∧
    (items' = kept ∨ items' = kept ++ touched.toList)

theorem touch_none (hsublist : items'.Sublist items) : Touch none items items' :=
  ⟨items', hsublist, by simp, .inl rfl⟩

theorem touch_of_not_mem {touched : Option α} (hsublist : items'.Sublist items)
    (hnot : ∀ item ∈ touched, item ∉ items') : Touch touched items items' :=
  ⟨items', hsublist, hnot, .inl rfl⟩

theorem touch_last (hsublist : items'.Sublist items) (hx : x ∉ items') :
    Touch (some x) items (items' ++ [x]) :=
  ⟨items', hsublist, by simpa using hx, .inr rfl⟩

theorem Ordered.of_touch [BEq α] [LawfulBEq α] {touched : Option α} {log : List α} (h : Ordered log items)
    (htouch : Touch touched items items') :
    Ordered (touched.toList ++ log) items' := by
  obtain ⟨kept, hsublist, hnot, rfl | rfl⟩ := htouch
  · cases touched with
    | none => exact h.sublist hsublist
    | some item => exact (ordered_touch_iff (hnot item rfl)).mpr (h.sublist hsublist)
  · cases touched with
    | none =>
      rw [Option.toList_none, List.append_nil]
      exact h.sublist hsublist
    | some item => exact (h.sublist hsublist).touch (hnot item rfl)

end Touch

end recency
