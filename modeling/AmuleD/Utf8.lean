import Mathlib.Data.List.Basic

namespace utf8

/-- Where a decoder stands between bytes: at the start of a character, or inside one with
the range of its next byte, how many bytes it still owes after that and its bits so far. -/
inductive State where
  | start
  | inside (low high owed bits : Nat)

/-- The character that stands for malformed bytes. -/
def replacement : Nat := 0xFFFD

/-- The first byte of a character: the code points that it gives and the state after it. -/
def first (byte : Nat) : List Nat × State :=
  if byte < 0x80 then ([byte], .start)
  else if 0xC2 ≤ byte ∧ byte ≤ 0xDF then ([], .inside 0x80 0xBF 0 (byte % 0x20))
  else if byte = 0xE0 then ([], .inside 0xA0 0xBF 1 0)
  else if byte = 0xED then ([], .inside 0x80 0x9F 1 0xD)
  else if 0xE1 ≤ byte ∧ byte ≤ 0xEF then ([], .inside 0x80 0xBF 1 (byte % 0x10))
  else if byte = 0xF0 then ([], .inside 0x90 0xBF 2 0)
  else if 0xF1 ≤ byte ∧ byte ≤ 0xF3 then ([], .inside 0x80 0xBF 2 (byte % 8))
  else if byte = 0xF4 then ([], .inside 0x80 0x8F 2 4)
  else ([replacement], .start)

/-- One byte; where it does not belong to the character, what there was of that is replaced. -/
def step (byte : Nat) : State → List Nat × State
  | .start => first byte
  | .inside low high owed bits =>
    if low ≤ byte ∧ byte ≤ high then
      match owed with
      | 0 => ([bits * 0x40 + byte % 0x40], .start)
      | owed + 1 => ([], .inside 0x80 0xBF owed (bits * 0x40 + byte % 0x40))
    else (replacement :: (first byte).1, (first byte).2)

/-- What is left at the end of the bytes. -/
def finish : State → List Nat
  | .start => []
  | .inside _ _ _ _ => [replacement]

/-- The code points of some bytes from a state on. -/
def decode_from : State → List UInt8 → List Nat
  | state, [] => finish state
  | state, byte :: rest => (step byte.toNat state).1 ++ decode_from (step byte.toNat state).2 rest

/-- UTF-8 decoding that replaces what is malformed. -/
def decode_replace (raw : List UInt8) : List Nat := decode_from .start raw

/-- The bytes of a code point; a surrogate has none. -/
def encode_point (point : Nat) : Option (List UInt8) :=
  if point < 0x80 then some [UInt8.ofNat point]
  else if point < 0x800 then some [UInt8.ofNat (0xC0 + point / 0x40), UInt8.ofNat (0x80 + point % 0x40)]
  else if 0xD800 ≤ point ∧ point < 0xE000 then none
  else if point < 0x10000 then
    some [UInt8.ofNat (0xE0 + point / 0x1000), UInt8.ofNat (0x80 + point / 0x40 % 0x40),
      UInt8.ofNat (0x80 + point % 0x40)]
  else if point < 0x110000 then
    some [UInt8.ofNat (0xF0 + point / 0x40000), UInt8.ofNat (0x80 + point / 0x1000 % 0x40),
      UInt8.ofNat (0x80 + point / 0x40 % 0x40), UInt8.ofNat (0x80 + point % 0x40)]
  else none

def encode (points : List Nat) : Option (List UInt8) := (points.mapM encode_point).map List.flatten

section Length

/-- How many code points a state owes. -/
def State.owes : State → Nat
  | .start => 0
  | .inside _ _ _ _ => 1

theorem length_first_le (byte : Nat) : (first byte).1.length + (first byte).2.owes ≤ 1 := by
  unfold first
  split_ifs <;> simp [State.owes]

theorem length_step_le (byte : Nat) (state : State) :
    (step byte state).1.length + (step byte state).2.owes ≤ 1 + state.owes := by
  cases state with
  | start => exact Nat.le_trans (length_first_le byte) (Nat.le_add_right 1 _)
  | inside low high owed bits =>
    simp only [step]
    split_ifs
    · cases owed with
      | zero => simp [State.owes]
      | succ owed => simp [State.owes]
    · have hfirst := length_first_le byte
      calc (replacement :: (first byte).1).length + (first byte).2.owes
          = (first byte).1.length + (first byte).2.owes + 1 := by rw [List.length_cons, Nat.add_right_comm]
        _ ≤ 1 + 1 := Nat.add_le_add_right hfirst 1

theorem length_decode_from_le (state : State) (raw : List UInt8) :
    (decode_from state raw).length ≤ raw.length + state.owes := by
  induction raw generalizing state with
  | nil => cases state <;> simp [decode_from, finish, State.owes]
  | cons byte rest ih =>
    have hstep := length_step_le byte.toNat state
    have hrest := ih (step byte.toNat state).2
    rw [decode_from, List.length_append, List.length_cons]
    omega

/-- Decoding makes at most one code point of a byte. -/
theorem length_decode_replace_le (raw : List UInt8) : (decode_replace raw).length ≤ raw.length :=
  length_decode_from_le .start raw

end Length

/-- ASCII bytes stand for themselves. -/
theorem decode_replace_ascii {points : List Nat} (hascii : ∀ point ∈ points, point < 0x80) :
    decode_replace (points.map UInt8.ofNat) = points := by
  rw [decode_replace]
  induction points with
  | nil => rfl
  | cons point rest ih =>
    rw [List.forall_mem_cons] at hascii
    have hbyte : (UInt8.ofNat point).toNat = point := by
      rw [UInt8.toNat_ofNat']
      exact Nat.mod_eq_of_lt (by omega)
    rw [List.map_cons, decode_from, hbyte, step, first, if_pos hascii.1, ih hascii.2]
    rfl

section RoundTrip

variable {point : Nat}

theorem toNat_ofNat {byte : Nat} (hbyte : byte < 0x100) : (UInt8.ofNat byte).toNat = byte := by
  rw [UInt8.toNat_ofNat']
  exact Nat.mod_eq_of_lt hbyte

theorem decode_from_byte {byte : Nat} (hbyte : byte < 0x100) (state : State) (rest : List UInt8) :
    decode_from state (UInt8.ofNat byte :: rest) = (step byte state).1 ++ decode_from (step byte state).2 rest := by
  rw [decode_from, toNat_ofNat hbyte]

/-- A byte in its range that is the last one owed. -/
theorem step_last {low high bits more : Nat} (hmore : more < 0x40) (hrange : low ≤ 0x80 + more ∧ 0x80 + more ≤ high) :
    step (0x80 + more) (.inside low high 0 bits) = ([bits * 0x40 + more], .start) := by
  have hbits : (0x80 + more) % 0x40 = more := by omega
  rw [step, if_pos hrange, hbits]

theorem step_more {low high owed bits more : Nat} (hmore : more < 0x40)
    (hrange : low ≤ 0x80 + more ∧ 0x80 + more ≤ high) :
    step (0x80 + more) (.inside low high (owed + 1) bits) = ([], .inside 0x80 0xBF owed (bits * 0x40 + more)) := by
  have hbits : (0x80 + more) % 0x40 = more := by omega
  rw [step, if_pos hrange, hbits]

theorem first_of_two (hpoint : ¬point < 0x80) (hsmall : point < 0x800) :
    first (0xC0 + point / 0x40) = ([], .inside 0x80 0xBF 0 (point / 0x40)) := by
  have hascii : ¬0xC0 + point / 0x40 < 0x80 := by omega
  have hlead : 0xC2 ≤ 0xC0 + point / 0x40 ∧ 0xC0 + point / 0x40 ≤ 0xDF := by omega
  have hbits : (0xC0 + point / 0x40) % 0x20 = point / 0x40 := by omega
  rw [first, if_neg hascii, if_pos hlead, hbits]

/-- The range of the second of three bytes leaves out overlong forms and surrogates. -/
theorem first_of_three (hpoint : ¬point < 0x800) (hsurrogate : ¬(0xD800 ≤ point ∧ point < 0xE000))
    (hsmall : point < 0x10000) :
    ∃ low high, first (0xE0 + point / 0x1000) = ([], .inside low high 1 (point / 0x1000)) ∧
      low ≤ 0x80 + point / 0x40 % 0x40 ∧ 0x80 + point / 0x40 % 0x40 ≤ high := by
  have hascii : ¬0xE0 + point / 0x1000 < 0x80 := by omega
  have htwo : ¬(0xC2 ≤ 0xE0 + point / 0x1000 ∧ 0xE0 + point / 0x1000 ≤ 0xDF) := by omega
  rw [first, if_neg hascii, if_neg htwo]
  by_cases hlow : 0xE0 + point / 0x1000 = 0xE0
  · have hbits : point / 0x1000 = 0 := by omega
    rw [if_pos hlow, hbits]
    exact ⟨0xA0, 0xBF, rfl, by omega, by omega⟩
  rw [if_neg hlow]
  by_cases hhigh : 0xE0 + point / 0x1000 = 0xED
  · have hbits : point / 0x1000 = 0xD := by omega
    rw [if_pos hhigh, hbits]
    exact ⟨0x80, 0x9F, rfl, by omega, by omega⟩
  · have hlead : 0xE1 ≤ 0xE0 + point / 0x1000 ∧ 0xE0 + point / 0x1000 ≤ 0xEF := by omega
    have hbits : (0xE0 + point / 0x1000) % 0x10 = point / 0x1000 := by omega
    rw [if_neg hhigh, if_pos hlead, hbits]
    exact ⟨0x80, 0xBF, rfl, by omega, by omega⟩

/-- The range of the second of four bytes leaves out overlong forms and what is beyond Unicode. -/
theorem first_of_four (hpoint : ¬point < 0x10000) (hsmall : point < 0x110000) :
    ∃ low high, first (0xF0 + point / 0x40000) = ([], .inside low high 2 (point / 0x40000)) ∧
      low ≤ 0x80 + point / 0x1000 % 0x40 ∧ 0x80 + point / 0x1000 % 0x40 ≤ high := by
  have hascii : ¬0xF0 + point / 0x40000 < 0x80 := by omega
  have htwo : ¬(0xC2 ≤ 0xF0 + point / 0x40000 ∧ 0xF0 + point / 0x40000 ≤ 0xDF) := by omega
  have hthree : ¬(0xE1 ≤ 0xF0 + point / 0x40000 ∧ 0xF0 + point / 0x40000 ≤ 0xEF) := by omega
  rw [first, if_neg hascii, if_neg htwo, if_neg (by omega), if_neg (by omega), if_neg hthree]
  by_cases hlow : 0xF0 + point / 0x40000 = 0xF0
  · have hbits : point / 0x40000 = 0 := by omega
    rw [if_pos hlow, hbits]
    exact ⟨0x90, 0xBF, rfl, by omega, by omega⟩
  rw [if_neg hlow]
  by_cases hmiddle : 0xF1 ≤ 0xF0 + point / 0x40000 ∧ 0xF0 + point / 0x40000 ≤ 0xF3
  · have hbits : (0xF0 + point / 0x40000) % 8 = point / 0x40000 := by omega
    rw [if_pos hmiddle, hbits]
    exact ⟨0x80, 0xBF, rfl, by omega, by omega⟩
  · have hlast : 0xF0 + point / 0x40000 = 0xF4 := by omega
    have hbits : point / 0x40000 = 4 := by omega
    rw [if_neg hmiddle, if_pos hlast, hbits]
    exact ⟨0x80, 0x8F, rfl, by omega, by omega⟩

/-- The bytes of a code point are decoded into it in front of anything. -/
theorem decode_encode_point {raw : List UInt8} (hraw : encode_point point = some raw) (rest : List UInt8) :
    decode_from .start (raw ++ rest) = point :: decode_from .start rest := by
  have hrest : point % 0x40 < 0x40 := Nat.mod_lt _ (by decide)
  have hlow : 0x80 ≤ 0x80 + point % 0x40 ∧ 0x80 + point % 0x40 ≤ 0xBF := by omega
  have hmiddle : point / 0x40 % 0x40 < 0x40 := Nat.mod_lt _ (by decide)
  have hhigh : point / 0x1000 % 0x40 < 0x40 := Nat.mod_lt _ (by decide)
  rw [encode_point] at hraw
  split_ifs at hraw with hone htwo hsurrogate hthree hfour
  · rw [Option.some.injEq] at hraw
    rw [← hraw, List.singleton_append, decode_from_byte (by omega), step, first, if_pos hone]
    rfl
  · rw [Option.some.injEq] at hraw
    have hvalue : point / 0x40 * 0x40 + point % 0x40 = point := Nat.div_add_mod' _ _
    rw [← hraw, List.cons_append, List.singleton_append, decode_from_byte (by omega), step, first_of_two hone htwo,
      decode_from_byte (by omega), step_last hrest hlow, hvalue]
    rfl
  · rw [Option.some.injEq] at hraw
    obtain ⟨low, high, hfirst, hrange⟩ := first_of_three htwo hsurrogate hthree
    have hvalue : (point / 0x1000 * 0x40 + point / 0x40 % 0x40) * 0x40 + point % 0x40 = point := by omega
    rw [← hraw, List.cons_append, List.cons_append, List.singleton_append, decode_from_byte (by omega), step, hfirst,
      decode_from_byte (by omega), step_more hmiddle hrange, decode_from_byte (by omega), step_last hrest hlow, hvalue]
    rfl
  · rw [Option.some.injEq] at hraw
    obtain ⟨low, high, hfirst, hrange⟩ := first_of_four hthree hfour
    have hmiddle_range : 0x80 ≤ 0x80 + point / 0x40 % 0x40 ∧ 0x80 + point / 0x40 % 0x40 ≤ 0xBF := by omega
    have hvalue : ((point / 0x40000 * 0x40 + point / 0x1000 % 0x40) * 0x40 + point / 0x40 % 0x40) * 0x40 +
        point % 0x40 = point := by omega
    rw [← hraw, List.cons_append, List.cons_append, List.cons_append, List.singleton_append,
      decode_from_byte (by omega), step, hfirst, decode_from_byte (by omega), step_more hhigh hrange,
      decode_from_byte (by omega), step_more hmiddle hmiddle_range, decode_from_byte (by omega),
      step_last hrest hlow, hvalue]
    rfl

/-- A text that can be encoded is decoded again. -/
theorem decode_replace_encode {points : List Nat} {raw : List UInt8} (hraw : encode points = some raw) :
    decode_replace raw = points := by
  rw [encode, Option.map_eq_some_iff] at hraw
  obtain ⟨pieces, hpieces, rfl⟩ := hraw
  rw [decode_replace]
  induction points generalizing pieces with
  | nil =>
    rw [List.mapM_nil, Option.pure_def, Option.some.injEq] at hpieces
    rw [← hpieces]
    rfl
  | cons point rest ih =>
    rw [List.mapM_cons] at hpieces
    simp only [Option.bind_eq_bind, Option.bind_eq_some_iff, Option.pure_def, Option.some.injEq] at hpieces
    obtain ⟨first, hfirst, others, hothers, rfl⟩ := hpieces
    rw [List.flatten_cons, decode_encode_point hfirst, ih others hothers]

end RoundTrip

end utf8
