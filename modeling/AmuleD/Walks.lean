import Mathlib.Algebra.BigOperators.Group.List.Basic
import Mathlib.Algebra.Order.Group.MinMax
import Mathlib.Algebra.Order.Ring.Int
import Mathlib.Data.List.Infix
import Mathlib.Order.Bounds.Basic

/-! Walks on the line that nothing takes below zero. -/

namespace walks

variable {α : Type} [AddCommGroup α] [LinearOrder α]

/-- Where a walk from zero ends, each step of which stops at zero on its way down. -/
def level (steps : List α) : α := steps.foldl (fun height step => max 0 (height + step)) 0

variable {steps : List α} {step : α}

@[simp] theorem level_nil : level ([] : List α) = 0 := rfl

theorem level_concat (steps : List α) (step : α) : level (steps ++ [step]) = max 0 (level steps + step) := by
  rw [level, List.foldl_concat]
  rfl

variable [IsOrderedAddMonoid α]

theorem sum_le_level {later : List α} (hlater : later <:+ steps) : later.sum ≤ level steps := by
  induction steps using List.reverseRecOn generalizing later with
  | nil =>
    rw [List.suffix_nil.mp hlater]
    exact le_rfl
  | append_singleton steps step ih =>
    rw [level_concat]
    rcases List.suffix_concat_iff.mp hlater with rfl | ⟨before, rfl, hbefore⟩
    · exact le_max_left _ _
    · rw [List.sum_append, List.sum_singleton]
      exact le_max_of_le_right (add_le_add_left (ih hbefore) step)

/-- A walk ends as high as its last steps ever add up to. -/
theorem isGreatest_level (steps : List α) :
    IsGreatest {height | ∃ later, later <:+ steps ∧ later.sum = height} (level steps) := by
  constructor
  · induction steps using List.reverseRecOn with
    | nil => exact ⟨[], List.suffix_rfl, rfl⟩
    | append_singleton steps step ih =>
      obtain ⟨later, hlater, hsum⟩ := ih
      rw [level_concat]
      rcases le_total (level steps + step) 0 with hdown | hup
      · rw [max_eq_left hdown]
        exact ⟨[], List.nil_suffix, rfl⟩
      · rw [max_eq_right hup]
        refine ⟨later ++ [step], List.suffix_concat_iff.mpr (.inr ⟨later, rfl, hlater⟩), ?_⟩
        rw [List.sum_append, List.sum_singleton, hsum]
  · rintro height ⟨later, hlater, rfl⟩
    exact sum_le_level hlater

end walks
