import Mathlib.Data.Nat.Bitwise
import AmuleD.Basic
import AmuleD.Bytes.LittleEndian

open littleendian

namespace amuled.kad

/-- A 128-bit Kad identifier. -/
structure KadUInt128 where
  value : Nat
  inRange : value < 2 ^ 128

/-- `KadUInt128._words_to_int`. -/
def words_to_int (w0 w1 w2 w3 : Nat) : Nat := w0 <<< 96 ||| w1 <<< 64 ||| w2 <<< 32 ||| w3

theorem words_to_int_eq {w1 w2 w3 : Nat} (w0 : Nat) (h1 : w1 < 2 ^ 32) (h2 : w2 < 2 ^ 32)
    (h3 : w3 < 2 ^ 32) :
    words_to_int w0 w1 w2 w3 = ((w0 * 2 ^ 32 + w1) * 2 ^ 32 + w2) * 2 ^ 32 + w3 := by
  have hshift : words_to_int w0 w1 w2 w3 = ((w0 <<< 32 ||| w1) <<< 32 ||| w2) <<< 32 ||| w3 := by
    simp only [words_to_int, Nat.shiftLeft_or_distrib, ← Nat.shiftLeft_add]
  rw [hshift, ← Nat.shiftLeft_add_eq_or_of_lt h3, ← Nat.shiftLeft_add_eq_or_of_lt h2,
    ← Nat.shiftLeft_add_eq_or_of_lt h1]
  simp only [Nat.shiftLeft_eq]

/-- The words that `struct.unpack_from("<4I", raw, 0)` reads. -/
def word (raw : Bytes) (index : Nat) : Nat := decode (raw.extract (4 * index) (4 * index + 4))

theorem word_lt {raw : Bytes} (hraw : raw.length = 16) {index : Nat} (hindex : index < 4) :
    word raw index < 2 ^ 32 := by
  have hlt := decode_lt (raw.extract (4 * index) (4 * index + 4))
  rw [length_extract_of_le (by omega)] at hlt
  have hwidth : 4 * index + 4 - 4 * index = 4 := by omega
  rwa [hwidth] at hlt

/-- The bytes of a word can be read back from it. -/
theorem encode_word {raw : Bytes} (hraw : raw.length = 16) {index : Nat} (hindex : index < 4) :
    encode 4 (word raw index) = raw.extract (4 * index) (4 * index + 4) := by
  have hencode := encode_decode (raw.extract (4 * index) (4 * index + 4))
  rw [length_extract_of_le (by omega)] at hencode
  have hwidth : 4 * index + 4 - 4 * index = 4 := by omega
  rwa [hwidth] at hencode

/-- Sixteen bytes are their four words. -/
theorem words_join {raw : Bytes} (hraw : raw.length = 16) :
    raw = raw.extract 0 4 ++ (raw.extract 4 8 ++ (raw.extract 8 12 ++ raw.extract 12 16)) := by
  rw [extract_append_extract raw (by omega) (by omega), extract_append_extract raw (by omega) (by omega),
    extract_append_extract raw (by omega) (by omega)]
  simp [List.extract_eq_take_drop, ← hraw]

/-- `KadUInt128(value)` of sixteen bytes. -/
def to_kad_uint128 (raw : Bytes) (hraw : raw.length = 16) : KadUInt128 where
  value := words_to_int (word raw 0) (word raw 1) (word raw 2) (word raw 3)
  inRange := by
    have h0 : word raw 0 < 2 ^ 32 := word_lt hraw (by omega)
    have h1 : word raw 1 < 2 ^ 32 := word_lt hraw (by omega)
    have h2 : word raw 2 < 2 ^ 32 := word_lt hraw (by omega)
    have h3 : word raw 3 < 2 ^ 32 := word_lt hraw (by omega)
    rw [words_to_int_eq _ h1 h2 h3]
    omega

/-- Different identifiers are different numbers. -/
theorem to_kad_uint128_inj {raw raw' : Bytes} (hraw : raw.length = 16) (hraw' : raw'.length = 16)
    (hvalue : (to_kad_uint128 raw hraw).value = (to_kad_uint128 raw' hraw').value) : raw = raw' := by
  simp only [to_kad_uint128] at hvalue
  have hleft1 : word raw 1 < 2 ^ 32 := word_lt hraw (by omega)
  have hleft2 : word raw 2 < 2 ^ 32 := word_lt hraw (by omega)
  have hleft3 : word raw 3 < 2 ^ 32 := word_lt hraw (by omega)
  have hright1 : word raw' 1 < 2 ^ 32 := word_lt hraw' (by omega)
  have hright2 : word raw' 2 < 2 ^ 32 := word_lt hraw' (by omega)
  have hright3 : word raw' 3 < 2 ^ 32 := word_lt hraw' (by omega)
  rw [words_to_int_eq _ hleft1 hleft2 hleft3, words_to_int_eq _ hright1 hright2 hright3] at hvalue
  have hwords : ∀ index < 4, word raw index = word raw' index := by
    intro index hindex
    match index, hindex with
    | 0, _ => omega
    | 1, _ => omega
    | 2, _ => omega
    | 3, _ => omega
  have hslices : ∀ index < 4, raw.extract (4 * index) (4 * index + 4)
      = raw'.extract (4 * index) (4 * index + 4) := by
    intro index hindex
    rw [← encode_word hraw hindex, ← encode_word hraw' hindex, hwords index hindex]
  rw [words_join hraw, words_join hraw']
  have h0 := hslices 0 (by omega)
  have h1 := hslices 1 (by omega)
  have h2 := hslices 2 (by omega)
  have h3 := hslices 3 (by omega)
  simp only [Nat.mul_zero, Nat.zero_add, Nat.reduceMul, Nat.reduceAdd] at h0 h1 h2 h3
  rw [h0, h1, h2, h3]

/-- `KadUInt128.xor`. -/
def KadUInt128.xor (self other : KadUInt128) : KadUInt128 :=
  ⟨self.value ^^^ other.value, Nat.xor_lt_two_pow self.inRange other.inRange⟩

/-- `_bit_at_level`: level 0 is the most significant bit. -/
def bit_at_level (value : KadUInt128) (level : Nat) : Nat :=
  if level ≥ 128 then 0 else (value.value >>> (127 - level)) &&& 1

theorem bit_at_level_eq {value : KadUInt128} {level : Nat} (hlevel : level < 128) :
    bit_at_level value level = (value.value.testBit (127 - level)).toNat := by
  rw [bit_at_level, if_neg (by omega), Nat.and_one_is_mod, Nat.toNat_testBit,
    Nat.shiftRight_eq_div_pow]

end amuled.kad
