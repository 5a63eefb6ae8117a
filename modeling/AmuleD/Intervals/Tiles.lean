import Mathlib.Algebra.Order.Ring.Int
import Mathlib.Data.List.Basic

namespace tiling

variable {α : Type}

/-- The pieces cover a range of the data in order: each starts where the one before it
ends, none is empty, and each is the slice of the data that it stands for. -/
inductive Tiles (data : List α) : Nat → Nat → List (Nat × List α) → Prop where
  | nil (start : Nat) : Tiles data start start []
  | cons {start middle stop : Nat} {rest : List (Nat × List α)} (hstart : start < middle)
      (hinside : middle ≤ data.length) (htail : Tiles data middle stop rest) :
      Tiles data start stop ((start, data.extract start middle) :: rest)

variable {data : List α} {start middle stop : Nat} {front back pieces : List (Nat × List α)}

namespace Tiles

theorem single (hstart : start < stop) (hinside : stop ≤ data.length) :
    Tiles data start stop [(start, data.extract start stop)] := .cons hstart hinside (.nil stop)

theorem append (hfront : Tiles data start middle front) (hback : Tiles data middle stop back) :
    Tiles data start stop (front ++ back) := by
  induction hfront with
  | nil start => exact hback
  | cons hstart hinside _ ih => exact .cons hstart hinside (ih hback)

theorem start_le (htiles : Tiles data start stop pieces) : start ≤ stop := by
  induction htiles with
  | nil start => exact Nat.le_refl start
  | cons hstart _ _ ih => omega

theorem eq_nil (htiles : Tiles data start start pieces) : pieces = [] := by
  cases htiles with
  | nil => rfl
  | cons hstart _ htail =>
    have hle := htail.start_le
    omega

theorem length_extract (hinside : middle ≤ data.length) : (data.extract start middle).length = middle - start := by
  simp only [List.extract_eq_take_drop, List.length_take, List.length_drop]
  omega

theorem length_pos (htiles : Tiles data start stop pieces) : ∀ piece ∈ pieces, 0 < piece.2.length := by
  induction htiles with
  | nil start => exact fun _ hpiece => absurd hpiece List.not_mem_nil
  | cons hstart hinside _ ih =>
    rw [List.forall_mem_cons, length_extract hinside]
    exact ⟨Nat.sub_pos_of_lt hstart, ih⟩

/-- The lengths of the pieces add up to the length of the range. -/
theorem sum_length (htiles : Tiles data start stop pieces) :
    (pieces.map fun piece => piece.2.length).sum = stop - start := by
  induction htiles with
  | nil start => simp
  | cons hstart hinside htail ih =>
    have hle := htail.start_le
    rw [List.map_cons, List.sum_cons, ih, length_extract hinside]
    omega

/-- A byte lies in one of the pieces where it lies in the range. -/
theorem mem_piece_iff (htiles : Tiles data start stop pieces) (x : Nat) :
    (∃ piece ∈ pieces, piece.1 ≤ x ∧ x < piece.1 + piece.2.length) ↔ start ≤ x ∧ x < stop := by
  induction htiles with
  | nil start =>
    simp only [List.not_mem_nil, false_and, exists_false, false_iff]
    omega
  | @cons start middle stop rest hstart hinside htail ih =>
    have hle := htail.start_le
    simp only [List.exists_mem_cons_iff, length_extract hinside, ih]
    omega

end Tiles

/-- A piece that is the slice of the data that it stands for. -/
def Slice (data : List α) (piece : Nat × List α) : Prop :=
  piece.1 + piece.2.length ≤ data.length ∧ piece.2 = data.extract piece.1 (piece.1 + piece.2.length)

theorem Tiles.slice (htiles : Tiles data start stop pieces) : ∀ piece ∈ pieces, Slice data piece := by
  induction htiles with
  | nil start => exact fun _ hpiece => absurd hpiece List.not_mem_nil
  | @cons start middle stop rest hstart hinside htail ih =>
    have hend : start + (data.extract start middle).length = middle := by
      rw [Tiles.length_extract hinside]
      omega
    rw [List.forall_mem_cons]
    refine ⟨⟨?_, ?_⟩, ih⟩
    · rw [hend]
      exact hinside
    · rw [hend]

end tiling
