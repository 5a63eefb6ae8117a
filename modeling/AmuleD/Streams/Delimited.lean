import AmuleD.Streams.Cursor

namespace cursor

variable {α β γ ε : Type}

/-- A reader that is followed by another one has read before it. -/
theorem of_bind_ok {read : Reading α ε β} {next : β → Reading α ε γ} {cursor : Cursor α} {result : γ × Cursor α}
    (hboth : (read >>= next) cursor = .ok result) :
    ∃ value between, read cursor = .ok (value, between) ∧ next value between = .ok result := by
  cases hfirst : read cursor with
  | error e =>
    rw [bind_error hfirst] at hboth
    cases hboth
  | ok made =>
    obtain ⟨value, between⟩ := made
    rw [bind_ok hfirst] at hboth
    exact ⟨value, between, rfl, hboth⟩

theorem of_map_ok {read : Reading α ε β} {f : β → γ} {cursor after : Cursor α} {made : γ}
    (hmap : (f <$> read) cursor = .ok (made, after)) : ∃ value, read cursor = .ok (value, after) ∧ made = f value := by
  have hbind : (f <$> read) = read >>= fun value => Pure.pure (f value) := by
    rfl
  rw [hbind] at hmap
  obtain ⟨value, between, hread, hpair⟩ := of_bind_ok hmap
  cases hpair
  exact ⟨value, hread, rfl⟩

/-- What was taken off a buffer stood at its front. -/
theorem of_takeN_ok {short : Nat → Cursor α → ε} {n : Nat} {front : List α} {after : Cursor α} (before tail : List α)
    (htake : takeN short n ⟨before ++ tail, before.length⟩ = .ok (front, after)) :
    ∃ rest, tail = front ++ rest ∧ front.length = n ∧ after = ⟨before ++ tail, (before ++ front).length⟩ := by
  rw [takeN] at htake
  split at htake
  · cases htake
  · rename_i hfits
    dsimp only at hfits
    cases htake
    rw [List.length_append] at hfits
    have hextract : (before ++ tail).extract before.length (before.length + n) = tail.take n := by
      rw [List.extract_eq_take_drop, List.drop_left, Nat.add_sub_cancel_left]
    have hlength : (tail.take n).length = n := List.length_take_of_le (by omega)
    rw [hextract]
    exact ⟨tail.drop n, (List.take_append_drop n tail).symm, hlength, by rw [List.length_append, hlength]⟩

/-- What `read` takes off a buffer tells by itself where it ends: it is read the same wherever it stands. -/
def Delimited (read : Reading α ε β) : Prop :=
  ∀ before tail value after, read ⟨before ++ tail, before.length⟩ = .ok (value, after) →
    ∃ front rest, tail = front ++ rest ∧ after = ⟨before ++ tail, (before ++ front).length⟩ ∧ Reads read front value

namespace Delimited

theorem pure (value : β) : Delimited (Pure.pure value : Reading α ε β) := by
  intro before tail made after hread
  cases hread
  exact ⟨[], tail, rfl, by rw [List.append_nil], Reads.pure value⟩

theorem throw (e : ε) : Delimited (throw e : Reading α ε β) := by
  intro before tail value after hread
  cases hread

theorem bind {read : Reading α ε β} {next : β → Reading α ε γ} (hread : Delimited read)
    (hnext : ∀ value, Delimited (next value)) : Delimited (read >>= next) := by
  intro before tail result after hboth
  obtain ⟨value, between, hfirst, hlater⟩ := of_bind_ok hboth
  obtain ⟨front, rest, rfl, rfl, hreads⟩ := hread before tail value between hfirst
  rw [← List.append_assoc before front rest] at hlater
  obtain ⟨back, others, rfl, rfl, hlast⟩ := hnext value (before ++ front) rest result after hlater
  refine ⟨front ++ back, others, (List.append_assoc front back others).symm, ?_, hreads.bind hlast⟩
  rw [List.append_assoc before front back, ← List.append_assoc before front (back ++ others)]

theorem map {read : Reading α ε β} {f : β → γ} (hread : Delimited read) : Delimited (f <$> read) := by
  have hbind : (f <$> read) = read >>= fun value => Pure.pure (f value) := by
    rfl
  rw [hbind]
  exact bind hread fun value => pure (f value)

theorem ite {condition : Prop} [Decidable condition] {yes no : Reading α ε β} (hyes : Delimited yes)
    (hno : Delimited no) : Delimited (if condition then yes else no) := by
  by_cases hcondition : condition
  · rw [if_pos hcondition]
    exact hyes
  · rw [if_neg hcondition]
    exact hno

theorem takeN (short : Nat → Cursor α → ε) (n : Nat) : Delimited (takeN short n) := by
  intro before tail value after htake
  obtain ⟨rest, htail, hlength, hafter⟩ := of_takeN_ok before tail htake
  exact ⟨value, rest, htail, hafter, hlength ▸ Reads.takeN short value⟩

theorem repeatN {read : Reading α ε β} (hread : Delimited read) (count : Nat) : Delimited (repeatN read count) := by
  induction count with
  | zero => exact pure []
  | succ count ih => exact hread.bind fun value => ih.bind fun values => pure (value :: values)

/-- A reader that fails in another way is delimited as this one. -/
theorem of_ok {ε' : Type} {read : Reading α ε β} {other : Reading α ε' β} (hread : Delimited read)
    (hsame : ∀ cursor result, other cursor = .ok result ↔ read cursor = .ok result) : Delimited other := by
  intro before tail value after hother
  obtain ⟨front, rest, htail, hafter, hreads⟩ := hread before tail value after ((hsame _ _).mp hother)
  exact ⟨front, rest, htail, hafter, fun before rest => (hsame _ _).mpr (hreads before rest)⟩

/-- A longer buffer than one that is read to its end is read as far as that one. -/
theorem longer {read : Reading α ε β} (hread : Delimited read) {data more : List α} {value : β} {after : Cursor α}
    (hwhole : read ⟨data, 0⟩ = .ok (value, after)) (hend : after.remaining = 0) :
    read ⟨data ++ more, 0⟩ = .ok (value, ⟨data ++ more, data.length⟩) := by
  obtain ⟨front, rest, htail, hafter, hreads⟩ := hread [] data value after hwhole
  have hnone : rest = [] := by
    apply List.length_eq_zero_iff.mp
    rw [hafter, Cursor.remaining, htail] at hend
    simp only [List.nil_append, List.length_append] at hend
    omega
  rw [hnone, List.append_nil] at htail
  rw [htail]
  exact hreads.run more

end Delimited

/-- No buffer that is parsed is continued by another one that is parsed. -/
def PrefixFree (parse : List α → Except ε β) : Prop :=
  ∀ data more value, parse data = .ok value → more ≠ [] → ∃ e, parse (data ++ more) = .error e

/-- A parser that only accepts what a delimited reader has read to its end. -/
theorem prefixFree_of_delimited {ε' : Type} {read : Reading α ε' β} {parse : List α → Except ε γ}
    (hread : Delimited read) (hwhole : ∀ data value, parse data = .ok value →
      ∃ made after, read ⟨data, 0⟩ = .ok (made, after) ∧ after.remaining = 0) : PrefixFree parse := by
  intro data more value hparse hmore
  obtain ⟨made, after, hok, hend⟩ := hwhole data value hparse
  cases hlonger : parse (data ++ more) with
  | error e => exact ⟨e, rfl⟩
  | ok other =>
    exfalso
    obtain ⟨_, last, hlast, hnone⟩ := hwhole _ other hlonger
    rw [hread.longer hok hend] at hlast
    cases hlast
    have hlength : 0 < more.length := List.length_pos_of_ne_nil hmore
    rw [Cursor.remaining, List.length_append, Nat.add_sub_cancel_left] at hnone
    omega

end cursor
