import Mathlib.Data.Nat.Bitwise

namespace bitmap

/-- Whether a bit is set; the bits of a byte are counted from its lowest. -/
def bit (bytes : List UInt8) (i : Nat) : Bool := (bytes.getD (i / 8) 0).toNat.testBit (i % 8)

/-- `bytes[i // 8] |= 1 << (i % 8)`. -/
def setBit (bytes : List UInt8) (i : Nat) : List UInt8 := bytes.modify (i / 8) (· ||| UInt8.ofNat (1 <<< (i % 8)))

variable {bytes others : List UInt8} {i j : Nat}

@[simp] theorem length_setBit (bytes : List UInt8) (i : Nat) : (setBit bytes i).length = bytes.length :=
  List.length_modify _ _ _

@[simp] theorem length_foldl_setBit (bytes : List UInt8) (indices : List Nat) :
    (indices.foldl setBit bytes).length = bytes.length := by
  induction indices generalizing bytes with
  | nil => rfl
  | cons index rest ih => rw [List.foldl_cons, ih, length_setBit]

theorem bit_replicate (count i : Nat) : bit (List.replicate count 0) i = false := by
  have hzero : (List.replicate count (0 : UInt8)).getD (i / 8) 0 = 0 := by
    rw [List.getD_eq_getElem?_getD, List.getElem?_replicate]
    split <;> rfl
  rw [bit, hzero]
  exact Nat.zero_testBit _

theorem bit_of_le (hend : 8 * bytes.length ≤ i) : bit bytes i = false := by
  rw [bit, List.getD_eq_getElem?_getD, List.getElem?_eq_none (by omega), Option.getD_none]
  exact Nat.zero_testBit _

/-- Setting a bit sets that one only. -/
theorem bit_setBit (hbound : i < 8 * bytes.length) (j : Nat) :
    bit (setBit bytes i) j = (decide (i = j) || bit bytes j) := by
  have hshift : (UInt8.ofNat (1 <<< (i % 8))).toNat = 2 ^ (i % 8) := by
    have hsmall : 2 ^ (i % 8) ≤ 2 ^ 7 := Nat.pow_le_pow_right (by decide) (by omega)
    rw [UInt8.toNat_ofNat', Nat.one_shiftLeft, Nat.mod_eq_of_lt (by omega)]
  have hplace : i / 8 < bytes.length := by omega
  rw [bit, bit, setBit, List.getD_eq_getElem?_getD, List.getElem?_modify, List.getD_eq_getElem?_getD]
  by_cases hbyte : i / 8 = j / 8
  · rw [hbyte] at hplace
    rw [List.getElem?_eq_getElem hplace, Option.map_eq_map, Option.map_some, Option.getD_some, Option.getD_some,
      if_pos hbyte, UInt8.toNat_or, hshift, Nat.testBit_or, Nat.testBit_two_pow, Bool.or_comm]
    have hsame : i % 8 = j % 8 ↔ i = j := by omega
    rw [decide_eq_decide.mpr hsame]
  · have hother : i ≠ j := by
      rintro rfl
      exact hbyte rfl
    have hkept : (fun byte : UInt8 => if i / 8 = j / 8 then byte ||| UInt8.ofNat (1 <<< (i % 8)) else byte) = id := by
      funext byte
      exact if_neg hbyte
    rw [hkept, id_map, decide_eq_false hother, Bool.false_or]

theorem bit_foldl_setBit {indices : List Nat} (hindices : ∀ index ∈ indices, index < 8 * bytes.length) (j : Nat) :
    bit (indices.foldl setBit bytes) j = (decide (j ∈ indices) || bit bytes j) := by
  induction indices generalizing bytes with
  | nil => rfl
  | cons index rest ih =>
    rw [List.forall_mem_cons] at hindices
    rw [List.foldl_cons, ih (by simpa using hindices.2), bit_setBit hindices.1, ← Bool.or_assoc]
    congr 1
    rw [← Bool.decide_or, decide_eq_decide, List.mem_cons, or_comm, eq_comm]

/-- Bytes of one length with the same bits are the same. -/
theorem ext_bit (hlength : bytes.length = others.length) (hbits : ∀ i, bit bytes i = bit others i) :
    bytes = others := by
  apply List.ext_getElem hlength
  intro place hplace hother
  apply UInt8.toNat.inj
  apply Nat.eq_of_testBit_eq
  intro k
  by_cases hk : k < 8
  · have hbit := hbits (8 * place + k)
    have hplace_eq : (8 * place + k) / 8 = place := by omega
    have hk_eq : (8 * place + k) % 8 = k := by omega
    rw [bit, bit, hplace_eq, hk_eq, List.getD_eq_getElem _ _ hplace, List.getD_eq_getElem _ _ hother] at hbit
    exact hbit
  · have hpow : 2 ^ 8 ≤ 2 ^ k := Nat.pow_le_pow_right (by decide) (by omega)
    rw [Nat.testBit_lt_two_pow (Nat.lt_of_lt_of_le (UInt8.toNat_lt _) hpow),
      Nat.testBit_lt_two_pow (Nat.lt_of_lt_of_le (UInt8.toNat_lt _) hpow)]

end bitmap
