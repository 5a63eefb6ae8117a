import Mathlib.Data.List.Basic

namespace keystream

variable {stream : Nat → UInt8}

/-- The bytes of a text combined with the keystream from a position on. -/
def crypt (stream : Nat → UInt8) (position : Nat) : List UInt8 → List UInt8
  | [] => []
  | byte :: rest => (byte ^^^ stream position) :: crypt stream (position + 1) rest

@[simp] theorem length_crypt (stream : Nat → UInt8) (position : Nat) (text : List UInt8) :
    (crypt stream position text).length = text.length := by
  induction text generalizing position with
  | nil => rfl
  | cons byte rest ih => simp [crypt, ih]

theorem crypt_append (position : Nat) (front back : List UInt8) :
    crypt stream position (front ++ back) =
      crypt stream position front ++ crypt stream (position + front.length) back := by
  induction front generalizing position with
  | nil => rfl
  | cons byte rest ih =>
    have hnext : position + 1 + rest.length = position + (byte :: rest).length := by
      rw [List.length_cons]
      omega
    rw [List.cons_append, crypt, ih, hnext]
    rfl

/-- Decryption is encryption at the same position. -/
@[simp] theorem crypt_crypt (position : Nat) (text : List UInt8) :
    crypt stream position (crypt stream position text) = text := by
  induction text generalizing position with
  | nil => rfl
  | cons byte rest ih => rw [crypt, crypt, ih, UInt8.xor_assoc, UInt8.xor_self, UInt8.xor_zero]

/-- A piece of a text behind a head that is not encrypted, decrypted where it was encrypted. -/
theorem decrypt_piece {head front piece rest text : List UInt8} {start stop position : Nat}
    (htext : text = front ++ (piece ++ rest)) (hposition : front.length = position)
    (hstart : head.length + position = start) (hstop : start + piece.length = stop) :
    crypt stream position ((head ++ crypt stream 0 text).extract start stop) = piece := by
  subst htext hposition hstart hstop
  have hfront : (head ++ crypt stream 0 front).length = head.length + front.length := by simp
  rw [crypt_append, crypt_append, Nat.zero_add, ← List.append_assoc, List.extract_eq_take_drop, ← hfront,
    List.drop_left, Nat.add_sub_cancel_left, List.take_left' (length_crypt stream _ piece), crypt_crypt]

/-- The last piece of such a text. -/
theorem decrypt_last {head front piece text : List UInt8} {start position : Nat} (htext : text = front ++ piece)
    (hposition : front.length = position) (hstart : head.length + position = start) :
    crypt stream position ((head ++ crypt stream 0 text).drop start) = piece := by
  subst htext hposition hstart
  have hfront : (head ++ crypt stream 0 front).length = head.length + front.length := by simp
  rw [crypt_append, Nat.zero_add, ← List.append_assoc, ← hfront, List.drop_left, crypt_crypt]

/-- The wire holds the text that the receiver has not yet seen, encrypted from the
receiver's position up to the sender's. -/
structure InFlight (stream : Nat → UInt8) (sender receiver : Nat) (wire text : List UInt8) : Prop where
  wire_eq : wire = crypt stream receiver text
  sender_eq : sender = receiver + text.length

namespace InFlight

variable {sender receiver : Nat} {wire text : List UInt8}

theorem empty (position : Nat) : InFlight stream position position [] [] := ⟨rfl, rfl⟩

theorem send (h : InFlight stream sender receiver wire text) (more : List UInt8) :
    InFlight stream (sender + more.length) receiver (wire ++ crypt stream sender more)
      (text ++ more) := by
  constructor
  · rw [crypt_append, ← h.sender_eq, ← h.wire_eq]
  · rw [List.length_append, h.sender_eq]
    omega

theorem length_eq (h : InFlight stream sender receiver wire text) : wire.length = text.length := by
  rw [h.wire_eq, length_crypt]

/-- The first bytes off the wire decrypt to the first bytes of the text. -/
theorem decrypt {front back : List UInt8} (h : InFlight stream sender receiver (front ++ back) text) :
    crypt stream receiver front = text.take front.length := by
  have htext := congrArg (crypt stream receiver) h.wire_eq
  rw [crypt_crypt, crypt_append] at htext
  rw [← htext, List.take_left' (length_crypt stream receiver front)]

theorem receive {front back : List UInt8} (h : InFlight stream sender receiver (front ++ back) text) :
    InFlight stream sender (receiver + front.length) back (text.drop front.length) := by
  have hlength := h.length_eq
  rw [List.length_append] at hlength
  constructor
  · have hwire := h.wire_eq
    have hfront : (text.take front.length).length = front.length := by
      rw [List.length_take]
      omega
    rw [← List.take_append_drop front.length text, crypt_append, hfront] at hwire
    exact (List.append_inj hwire (by rw [length_crypt, hfront])).2
  · rw [h.sender_eq, List.length_drop]
    omega

theorem text_eq_nil (h : InFlight stream sender receiver [] text) : text = [] :=
  List.eq_nil_of_length_eq_zero h.length_eq.symm

end InFlight

end keystream
