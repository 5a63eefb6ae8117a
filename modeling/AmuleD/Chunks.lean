import Mathlib.Data.List.Basic

namespace chunking

variable {α : Type} {size : Nat}

/-- The consecutive pieces of a list, `size` long each; the last one may be
shorter. -/
def chunks (size : Nat) (data : List α) : List (List α) :=
  (List.range ((data.length + size - 1) / size)).map fun index =>
    data.extract (index * size) (min ((index + 1) * size) data.length)

/-- The pieces that are complete. -/
def whole (size : Nat) (data : List α) : List (List α) :=
  (List.range (data.length / size)).map fun index => data.extract (index * size) ((index + 1) * size)

/-- What is left behind the complete pieces. -/
def rest (size : Nat) (data : List α) : List α := data.drop (data.length / size * size)

@[simp] theorem whole_nil : whole size ([] : List α) = [] := by simp [whole]

@[simp] theorem rest_nil : rest size ([] : List α) = [] := by simp [rest]

theorem length_rest (data : List α) : (rest size data).length = data.length % size := by
  rw [rest, List.length_drop, Nat.mod_eq_sub_div_mul]

theorem extract_append_of_le {data piece : List α} {first last : Nat} (hinside : last ≤ data.length) :
    (data ++ piece).extract first last = data.extract first last := by
  simp only [List.extract_eq_take_drop]
  rw [← List.drop_take, ← List.drop_take, List.take_append_of_le_length hinside]

/-- A piece that ends inside the open chunk. -/
theorem append_of_lt {data piece : List α} (hopen : data.length % size + piece.length < size) :
    whole size (data ++ piece) = whole size data ∧ rest size (data ++ piece) = rest size data ++ piece := by
  have hdiv : (data ++ piece).length / size = data.length / size := by
    have hlength := Nat.div_add_mod data.length size
    rw [List.length_append, ← hlength, Nat.add_assoc, Nat.mul_add_div (by omega),
      Nat.div_eq_of_lt hopen, hlength, Nat.add_zero]
  have hinside : data.length / size * size ≤ data.length := Nat.div_mul_le_self _ _
  constructor
  · rw [whole, whole, hdiv]
    apply List.map_congr_left
    intro index hindex
    have hend : (index + 1) * size ≤ data.length :=
      Nat.le_trans (Nat.mul_le_mul_right size (List.mem_range.mp hindex)) hinside
    exact extract_append_of_le hend
  · rw [rest, rest, hdiv, List.drop_append_of_le_length hinside]

/-- A piece that completes the open chunk. -/
theorem append_of_eq {data piece : List α} (hpos : 0 < size)
    (hclosed : data.length % size + piece.length = size) :
    whole size (data ++ piece) = whole size data ++ [rest size data ++ piece] ∧
      rest size (data ++ piece) = [] := by
  have hlength := Nat.div_add_mod data.length size
  have htotal : (data ++ piece).length = (data.length / size + 1) * size := by
    rw [List.length_append, Nat.succ_mul, Nat.mul_comm]
    omega
  have hdiv : (data ++ piece).length / size = data.length / size + 1 := by
    rw [htotal, Nat.mul_div_cancel _ hpos]
  have hinside : data.length / size * size ≤ data.length := Nat.div_mul_le_self _ _
  constructor
  · rw [whole, whole, rest, hdiv, List.range_succ, List.map_append, List.map_singleton]
    congr 1
    · apply List.map_congr_left
      intro index hindex
      have hend : (index + 1) * size ≤ data.length :=
        Nat.le_trans (Nat.mul_le_mul_right size (List.mem_range.mp hindex)) hinside
      exact extract_append_of_le hend
    · rw [← htotal, List.extract_eq_take_drop, List.drop_append_of_le_length hinside,
        List.take_of_length_le (by simp only [List.length_append, List.length_drop]; omega)]
  · rw [rest, hdiv, List.drop_eq_nil_of_le (Nat.le_of_eq htotal)]

/-- The pieces are the complete ones and, if the list does not end with one, the
rest. -/
theorem chunks_eq (hpos : 0 < size) (data : List α) :
    chunks size data = whole size data ++ if data.length % size = 0 then [] else [rest size data] := by
  have hlength := Nat.div_add_mod data.length size
  have hmod := Nat.mod_lt data.length hpos
  have hwhole : ∀ index ∈ List.range (data.length / size),
      data.extract (index * size) (min ((index + 1) * size) data.length) =
        data.extract (index * size) ((index + 1) * size) := by
    intro index hindex
    have hend : (index + 1) * size ≤ data.length :=
      Nat.le_trans (Nat.mul_le_mul_right size (List.mem_range.mp hindex)) (Nat.div_mul_le_self _ _)
    rw [Nat.min_eq_left hend]
  by_cases hzero : data.length % size = 0
  · have hcount : (data.length + size - 1) / size = data.length / size := by
      have hsum : data.length + size - 1 = size * (data.length / size) + (size - 1) := by omega
      rw [hsum, Nat.mul_add_div hpos, Nat.div_eq_of_lt (Nat.sub_lt hpos Nat.one_pos), Nat.add_zero]
    rw [if_pos hzero, List.append_nil, chunks, hcount]
    exact List.map_congr_left hwhole
  · have hcount : (data.length + size - 1) / size = data.length / size + 1 := by
      have hmul : size * (data.length / size + 1) = size * (data.length / size) + size :=
        Nat.mul_succ _ _
      have hsum : data.length + size - 1 =
          size * (data.length / size + 1) + (data.length % size - 1) := by omega
      have hsmall : (data.length % size - 1) / size = 0 := Nat.div_eq_of_lt (by omega)
      rw [hsum, Nat.mul_add_div hpos, hsmall, Nat.add_zero]
    have hend : min ((data.length / size + 1) * size) data.length = data.length := by
      apply Nat.min_eq_right
      rw [Nat.succ_mul, Nat.mul_comm]
      omega
    rw [if_neg hzero, chunks, hcount, List.range_succ, List.map_append, List.map_singleton, hend,
      whole, List.map_congr_left hwhole, rest, List.extract_eq_take_drop,
      List.take_of_length_le (Nat.le_of_eq List.length_drop)]

/-- The complete pieces and the rest make up the list. -/
theorem flatten_whole_append_rest (size : Nat) (data : List α) :
    (whole size data).flatten ++ rest size data = data := by
  have hprefix : ∀ count, count * size ≤ data.length →
      ((List.range count).map fun index =>
        data.extract (index * size) ((index + 1) * size)).flatten = data.take (count * size) := by
    intro count hcount
    induction count with
    | zero => simp
    | succ count ih =>
      have hstep : (count + 1) * size = count * size + size := Nat.succ_mul _ _
      rw [List.range_succ, List.map_append, List.flatten_append, ih (by omega), List.map_singleton,
        List.flatten_singleton, List.extract_eq_take_drop, hstep, Nat.add_sub_cancel_left, List.take_add]
  rw [whole, hprefix _ (Nat.div_mul_le_self _ _), rest, List.take_append_drop]

theorem flatten_chunks (hpos : 0 < size) (data : List α) : (chunks size data).flatten = data := by
  have hall := flatten_whole_append_rest size data
  by_cases hzero : data.length % size = 0
  · have hrest : rest size data = [] := List.length_eq_zero_iff.mp ((length_rest data).trans hzero)
    rw [hrest, List.append_nil] at hall
    simpa [chunks_eq hpos, hzero] using hall
  · simpa [chunks_eq hpos, hzero] using hall

end chunking
