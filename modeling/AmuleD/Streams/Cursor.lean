import Mathlib.Data.List.Basic

namespace cursor

/-- A buffer and the position that is read next. -/
structure Cursor (α : Type) where
  data : List α
  pos : Nat

/-- What a cursor has not read yet. -/
def Cursor.remaining {α : Type} (cursor : Cursor α) : Nat := cursor.data.length - cursor.pos

/-- A reader, which advances the cursor or fails. -/
abbrev Reading (α ε : Type) := StateT (Cursor α) (Except ε)

section Take

variable {α ε : Type}

/-- The next `n` elements, or the failure of a buffer that is too short. -/
def takeN (short : Nat → Cursor α → ε) (n : Nat) : Reading α ε (List α) := fun cursor =>
  if cursor.pos + n > cursor.data.length then .error (short n cursor)
  else .ok (cursor.data.extract cursor.pos (cursor.pos + n), ⟨cursor.data, cursor.pos + n⟩)

/-- Up to `n` elements: as many as are left. -/
def sliceN (n : Nat) : Reading α ε (List α) := fun cursor =>
  .ok (cursor.data.extract cursor.pos (cursor.pos + n), ⟨cursor.data, cursor.pos + n⟩)

/-- The next element, or the failure of a buffer that has none. -/
def index (short : Cursor α → ε) : Reading α ε α := fun cursor =>
  match cursor.data[cursor.pos]? with
  | none => .error (short cursor)
  | some element => .ok (element, ⟨cursor.data, cursor.pos + 1⟩)

theorem takeN_ok {short : Nat → Cursor α → ε} {n : Nat} {cursor : Cursor α}
    (hfits : cursor.pos + n ≤ cursor.data.length) :
    takeN short n cursor = .ok (cursor.data.extract cursor.pos (cursor.pos + n), ⟨cursor.data, cursor.pos + n⟩) :=
  if_neg (Nat.not_lt.mpr hfits)

theorem index_ok {short : Cursor α → ε} {cursor : Cursor α} (hfits : cursor.pos < cursor.data.length) :
    index short cursor = .ok (cursor.data[cursor.pos], ⟨cursor.data, cursor.pos + 1⟩) := by
  rw [index, List.getElem?_eq_getElem hfits]

end Take

variable {α β γ ε : Type}

/-- `read` takes `front` off the buffer wherever it stands, and makes `value` of it. -/
def Reads (read : Reading α ε β) (front : List α) (value : β) : Prop :=
  ∀ before rest, read ⟨before ++ (front ++ rest), before.length⟩ =
    .ok (value, ⟨before ++ (front ++ rest), (before ++ front).length⟩)

/-- `read` takes all that is left of the buffer, `back`, and makes `value` of it. -/
def ReadsAll (read : Reading α ε β) (back : List α) (value : β) : Prop :=
  ∀ before, read ⟨before ++ back, before.length⟩ = .ok (value, ⟨before ++ back, (before ++ back).length⟩)

/-- Every failure of `read` is one that `allowed` lets through. -/
def Raises (read : Reading α ε β) (allowed : ε → Prop) : Prop :=
  ∀ cursor e, read cursor = .error e → allowed e

theorem bind_ok {read : Reading α ε β} {next : β → Reading α ε γ} {cursor after : Cursor α} {value : β}
    (hread : read cursor = .ok (value, after)) : (read >>= next) cursor = next value after := by
  simp only [bind, StateT.bind, hread, Except.bind]

theorem bind_error {read : Reading α ε β} {next : β → Reading α ε γ} {cursor : Cursor α} {e : ε}
    (hread : read cursor = .error e) : (read >>= next) cursor = .error e := by
  simp only [bind, StateT.bind, hread, Except.bind]

/-- The piece of a buffer that stands behind another. -/
theorem extract_piece (before front rest : List α) :
    (before ++ (front ++ rest)).extract before.length (before.length + front.length) = front := by
  rw [List.extract_eq_take_drop, List.drop_left, Nat.add_sub_cancel_left, List.take_left]

namespace Reads

theorem pure (value : β) : Reads (pure value : Reading α ε β) [] value := by
  intro before rest
  rw [List.append_nil]
  rfl

theorem bind {read : Reading α ε β} {next : β → Reading α ε γ} {front back : List α} {value : β}
    {result : γ} (hread : Reads read front value) (hnext : Reads (next value) back result) :
    Reads (read >>= next) (front ++ back) result := by
  intro before rest
  have hfirst := hread before (back ++ rest)
  have hlast := hnext (before ++ front) rest
  rw [List.append_assoc before front, ← List.append_assoc front] at hlast
  rw [← List.append_assoc front] at hfirst
  rw [bind_ok hfirst, hlast, List.append_assoc before front back]

theorem map {read : Reading α ε β} {f : β → γ} {front : List α} {value : β}
    (hread : Reads read front value) : Reads (f <$> read) front (f value) := by
  intro before rest
  have hfirst := hread before rest
  simp only [Functor.map, StateT.map, hfirst]
  rfl

theorem bind_last {read : Reading α ε β} {next : β → Reading α ε γ} {front : List α} {value : β}
    {result : γ} (hread : Reads read front value) (hnext : Reads (next value) [] result) :
    Reads (read >>= next) front result := by
  have hlast := hread.bind hnext
  rw [List.append_nil] at hlast
  exact hlast

theorem bind_pure {read : Reading α ε β} {f : β → γ} {front : List α} {value : β}
    (hread : Reads read front value) : Reads (read >>= fun value => Pure.pure (f value)) front (f value) :=
  hread.bind_last (pure (f value))

theorem lift_bind {made : Except ε β} {next : β → Reading α ε γ} {front : List α} {value : β} {result : γ}
    (hmade : made = .ok value) (hnext : Reads (next value) front result) :
    Reads ((StateT.lift made : Reading α ε β) >>= next) front result := by
  subst hmade
  exact hnext

theorem takeN (short : Nat → Cursor α → ε) (front : List α) :
    Reads (takeN short front.length) front front := by
  intro before rest
  have hfits : ¬ before.length + front.length > (before ++ (front ++ rest)).length := by
    simp only [List.length_append]
    omega
  rw [cursor.takeN, if_neg hfits, extract_piece before front rest, List.length_append]

theorem sliceN (front : List α) : Reads (sliceN front.length : Reading α ε (List α)) front front := by
  intro before rest
  rw [cursor.sliceN, extract_piece before front rest, List.length_append]

theorem index (short : Cursor α → ε) (element : α) : Reads (index short) [element] element := by
  intro before rest
  have helement : (before ++ ([element] ++ rest))[before.length]? = some element := by
    rw [List.getElem?_append_right (Nat.le_refl _), Nat.sub_self]
    rfl
  rw [cursor.index, helement, List.length_append]
  rfl

/-- A whole buffer is read from its start. -/
theorem run {read : Reading α ε β} {front : List α} {value : β} (hread : Reads read front value)
    (rest : List α) : read ⟨front ++ rest, 0⟩ = .ok (value, ⟨front ++ rest, front.length⟩) :=
  hread [] rest

theorem bind_all {read : Reading α ε β} {next : β → Reading α ε γ} {front back : List α} {value : β}
    {result : γ} (hread : Reads read front value) (hnext : ReadsAll (next value) back result) :
    ReadsAll (read >>= next) (front ++ back) result := by
  intro before
  have hlast := hnext (before ++ front)
  rw [List.append_assoc before front] at hlast
  rw [bind_ok (hread before back), hlast]

end Reads

theorem ReadsAll.bind_pure {read : Reading α ε β} {f : β → γ} {back : List α} {value : β}
    (hread : ReadsAll read back value) : ReadsAll (read >>= fun value => Pure.pure (f value)) back (f value) := by
  intro before
  rw [bind_ok (hread before)]
  rfl

/-- A whole buffer is read from its start to its end. -/
theorem ReadsAll.run {read : Reading α ε β} {back : List α} {value : β} (hread : ReadsAll read back value) :
    read ⟨back, 0⟩ = .ok (value, ⟨back, back.length⟩) := hread []

namespace Raises

variable {allowed : ε → Prop}

theorem pure (value : β) : Raises (pure value : Reading α ε β) allowed := by
  intro cursor e herror
  cases herror

theorem throw {e : ε} (he : allowed e) : Raises (throw e : Reading α ε β) allowed := by
  intro cursor other herror
  cases herror
  exact he

theorem bind {read : Reading α ε β} {next : β → Reading α ε γ} (hread : Raises read allowed)
    (hnext : ∀ value, Raises (next value) allowed) : Raises (read >>= next) allowed := by
  intro cursor e herror
  cases hfirst : read cursor with
  | error first =>
    rw [bind_error hfirst] at herror
    cases herror
    exact hread cursor _ hfirst
  | ok result =>
    obtain ⟨value, after⟩ := result
    rw [bind_ok hfirst] at herror
    exact hnext value after e herror

theorem map {read : Reading α ε β} {f : β → γ} (hread : Raises read allowed) :
    Raises (f <$> read) allowed := by
  have hbind : (f <$> read) = read >>= fun value => Pure.pure (f value) := by
    rfl
  rw [hbind]
  exact bind hread fun value => pure (f value)

theorem mono {read : Reading α ε β} {allowed other : ε → Prop} (hread : Raises read allowed)
    (himp : ∀ e, allowed e → other e) : Raises read other :=
  fun cursor e herror => himp e (hread cursor e herror)

theorem ite {condition : Prop} [Decidable condition] {yes no : Reading α ε β} (hyes : Raises yes allowed)
    (hno : Raises no allowed) : Raises (if condition then yes else no) allowed := by
  by_cases hcondition : condition
  · rw [if_pos hcondition]
    exact hyes
  · rw [if_neg hcondition]
    exact hno

theorem takeN {short : Nat → Cursor α → ε} (hshort : ∀ n cursor, allowed (short n cursor)) (n : Nat) :
    Raises (takeN short n) allowed := by
  intro cursor e herror
  rw [cursor.takeN] at herror
  split at herror
  · cases herror
    exact hshort n cursor
  · cases herror

theorem sliceN (n : Nat) : Raises (sliceN n : Reading α ε (List α)) allowed := by
  intro cursor e herror
  cases herror

theorem index {short : Cursor α → ε} (hshort : ∀ cursor, allowed (short cursor)) : Raises (index short) allowed := by
  intro cursor e herror
  rw [cursor.index] at herror
  split at herror
  · cases herror
    exact hshort cursor
  · cases herror

end Raises

section Repeat

/-- The results of reading `count` times. -/
def repeatN (read : Reading α ε β) : Nat → Reading α ε (List β)
  | 0 => Pure.pure []
  | count + 1 => do
    let value ← read
    let values ← repeatN read count
    Pure.pure (value :: values)

theorem Raises.repeatN {read : Reading α ε β} {allowed : ε → Prop} (hread : Raises read allowed)
    (count : Nat) : Raises (repeatN read count) allowed := by
  induction count with
  | zero => exact Raises.pure []
  | succ count ih => exact hread.bind fun value => ih.bind fun values => Raises.pure (value :: values)

theorem Reads.repeatN_cons {read : Reading α ε β} {count : Nat} {front back : List α} {value : β}
    {values : List β} (hread : Reads read front value) (hrest : Reads (repeatN read count) back values) :
    Reads (repeatN read (count + 1)) (front ++ back) (value :: values) :=
  hread.bind hrest.bind_pure

/-- Pieces one behind the other are read as what each of them is read as. -/
theorem Reads.repeatN_map {ι : Type} {read : Reading α ε β} {piece : ι → List α} {value : ι → β} {items : List ι}
    (hread : ∀ item ∈ items, Reads read (piece item) (value item)) :
    Reads (repeatN read items.length) (items.map piece).flatten (items.map value) := by
  induction items with
  | nil => exact Reads.pure []
  | cons item rest ih =>
    rw [List.forall_mem_cons] at hread
    exact hread.1.repeatN_cons (ih hread.2)

end Repeat

end cursor
