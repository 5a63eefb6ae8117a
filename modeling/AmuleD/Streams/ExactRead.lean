import Mathlib.Data.List.Basic

namespace exactread

variable {β α : Type}

/-- A computation that reads exact counts of items from a stream. -/
inductive Reader (β α : Type) where
  | done (result : α)
  | take (count : Nat) (next : List β → Reader β α)

/-- A second computation reads on where the first one is done. -/
def Reader.andThen {γ : Type} : Reader β α → (α → Reader β γ) → Reader β γ
  | .done result, second => second result
  | .take count next, second => .take count fun items => (next items).andThen second

/-- A computation goes on as far as the buffered items allow, and leaves the others. -/
def resume : Reader β α → List β → Reader β α × List β
  | .done result, buffer => (.done result, buffer)
  | .take count next, buffer =>
    if count ≤ buffer.length then resume (next (buffer.take count)) (buffer.drop count)
    else (.take count next, buffer)

@[simp] theorem resume_done (result : α) (buffer : List β) :
    resume (.done result) buffer = (.done result, buffer) := rfl

theorem resume_take {count : Nat} {next : List β → Reader β α} {front : List β}
    (hcount : front.length = count) (back : List β) :
    resume (.take count next) (front ++ back) = resume (next front) back := by
  rw [resume, List.length_append, if_pos (by omega), List.take_left' hcount, List.drop_left' hcount]

/-- Items that come later are read as if they had come at once. -/
theorem resume_append (reader : Reader β α) (buffer more : List β) :
    resume reader (buffer ++ more) =
      resume (resume reader buffer).1 ((resume reader buffer).2 ++ more) := by
  induction reader generalizing buffer with
  | done result => rfl
  | take count next ih =>
    by_cases henough : count ≤ buffer.length
    · have hmore : count ≤ (buffer ++ more).length := by
        rw [List.length_append]
        omega
      rw [resume, if_pos hmore, resume, if_pos henough, List.take_append_of_le_length henough,
        List.drop_append_of_le_length henough, ih]
    · have hwait : resume (.take count next) buffer = (.take count next, buffer) := by
        rw [resume, if_neg henough]
      rw [hwait]

/-- What is read in full from a stream is not done at a shorter front of it. -/
theorem not_done_of_front {reader : Reader β α} {front back : List β} {result : α}
    (hfull : resume reader (front ++ back) = (.done result, [])) (hback : back ≠ []) (early : α) :
    (resume reader front).1 ≠ .done early := by
  intro hdone
  rw [resume_append, hdone, resume_done] at hfull
  have hrest := congrArg Prod.snd hfull
  exact hback (List.append_eq_nil_iff.mp hrest).2

end exactread
