import Mathlib.Algebra.Order.Ring.Int
import Mathlib.Data.List.Basic

namespace littleendian

/-- The number a little-endian byte string stands for. -/
def decode : List UInt8 → Nat
  | [] => 0
  | byte :: rest => byte.toNat + 256 * decode rest

/-- The little-endian string of a fixed width, with the value taken modulo
`256 ^ width`. -/
def encode : Nat → Nat → List UInt8
  | 0, _ => []
  | width + 1, value => UInt8.ofNat value :: encode width (value / 256)

@[simp] theorem length_encode (width value : Nat) : (encode width value).length = width := by
  induction width generalizing value with
  | zero => rfl
  | succ width ih => simp [encode, ih]

theorem decode_append (low high : List UInt8) :
    decode (low ++ high) = decode low + 256 ^ low.length * decode high := by
  induction low with
  | nil => simp [decode]
  | cons byte rest ih =>
    rw [List.cons_append, decode, decode, ih, List.length_cons, Nat.pow_succ, Nat.mul_add, Nat.add_assoc,
      Nat.mul_comm (256 ^ rest.length) 256, Nat.mul_assoc]

theorem decode_lt (data : List UInt8) : decode data < 256 ^ data.length := by
  induction data with
  | nil => simp [decode]
  | cons byte rest ih =>
    have hbyte := byte.toNat_lt
    rw [decode, List.length_cons, Nat.pow_succ]
    omega

theorem decode_encode {width value : Nat} (hfits : value < 256 ^ width) :
    decode (encode width value) = value := by
  induction width generalizing value with
  | zero =>
    rw [Nat.pow_zero] at hfits
    rw [encode, decode]
    omega
  | succ width ih =>
    rw [Nat.pow_succ] at hfits
    have hbyte : (UInt8.ofNat value).toNat = value % 256 := by simp
    rw [encode, decode, ih (by omega), hbyte]
    omega

theorem encode_decode (data : List UInt8) : encode data.length (decode data) = data := by
  induction data with
  | nil => rfl
  | cons byte rest ih =>
    have hbyte := byte.toNat_lt
    have hlow : UInt8.ofNat (byte.toNat + 256 * decode rest) = byte := by
      apply UInt8.toNat.inj
      rw [UInt8.toNat_ofNat']
      omega
    have hhigh : (byte.toNat + 256 * decode rest) / 256 = decode rest := by omega
    rw [List.length_cons, decode, encode, hlow, hhigh, ih]

theorem decode_inj {data data' : List UInt8} (hlength : data.length = data'.length)
    (hdecode : decode data = decode data') : data = data' := by
  rw [← encode_decode data, ← encode_decode data', hlength, hdecode]

end littleendian
