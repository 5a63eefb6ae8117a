import Mathlib.Data.Nat.Size
import AmuleD.Bytes.Der
import AmuleD.Kad.Tags
import AmuleD.Security.SecureIdent

open amuled.kad (one_byte)
open der littleendian

namespace amuled.security

/-- `value.to_bytes((value.bit_length() + 7) // 8, "big")`. -/
def to_bytes_big (value : Nat) : Bytes := (encode ((value.size + 7) / 8) value).reverse

def _der_len (n : Nat) : Except Exc Bytes :=
  if n < 0x80 then one_byte n
  else do
    let first ← one_byte (0x80 ||| (to_bytes_big n).length)
    pure (first ++ to_bytes_big n)

/-- The content of an integer, with a zero before a first byte that would make it negative. -/
def _der_int_body (value : Nat) : Bytes :=
  if value = 0 then [0x00]
  else if (to_bytes_big value).headD 0 &&& 0x80 ≠ 0 then 0x00 :: to_bytes_big value
  else to_bytes_big value

def _der_int (value : Nat) : Except Exc Bytes := do
  let length ← _der_len (_der_int_body value).length
  pure ([0x02] ++ length ++ _der_int_body value)

def _der_seq (parts : List Bytes) : Except Exc Bytes := do
  let length ← _der_len parts.flatten.length
  pure ([0x30] ++ length ++ parts.flatten)

/-- `_public_blob` of a key with a modulus and an exponent. -/
def _public_blob (n e : Nat) : Except Exc Bytes := do
  let modulus ← _der_int n
  let exponent ← _der_int e
  _der_seq [modulus, exponent]

/-- The check of the blob at the end of `ensure_keys`. -/
def checked_blob (n e : Nat) : Except Exc Bytes := do
  let blob ← _public_blob n e
  if blob.length > MAX_PUBKEY_SIZE then
    throw (.SecureIdentError s!"public key blob exceeds {MAX_PUBKEY_SIZE} bytes: {blob.length}")
  pure blob

theorem size_le_width (value : Nat) : value.size ≤ 8 * ((value.size + 7) / 8) := by omega

theorem lt_width (value : Nat) : value < 256 ^ ((value.size + 7) / 8) := by
  have hbits : value < 2 ^ (8 * ((value.size + 7) / 8)) := Nat.size_le.mp (size_le_width value)
  rwa [Nat.pow_mul] at hbits

@[simp] theorem length_to_bytes_big (value : Nat) : (to_bytes_big value).length = (value.size + 7) / 8 := by
  rw [to_bytes_big, List.length_reverse, length_encode]

theorem number_to_bytes_big (value : Nat) : number (to_bytes_big value) = value :=
  number_reverse_encode (lt_width value)

theorem one_byte_eq_ok_iff {value : Nat} {raw : Bytes} :
    one_byte value = .ok raw ↔ value < 256 ∧ raw = [UInt8.ofNat value] := by
  unfold one_byte
  split
  · rename_i hfits
    simp [hfits, eq_comm]
  · rename_i hlarge
    simp [hlarge]

/-- A length that is written announces what follows it, as long as there can be so much. -/
theorem announces_der_len {content length : Bytes} (hlength : _der_len content.length = .ok length)
    (hfits : content.length < 2 ^ 64) : Announces length content := by
  intro rest
  unfold _der_len at hlength
  split at hlength
  · rename_i hshort
    obtain ⟨-, rfl⟩ := one_byte_eq_ok_iff.mp hlength
    exact read_length_short hshort rest
  · obtain ⟨first, hfirst, hlength⟩ := bind_eq_ok_iff.mp hlength
    obtain ⟨-, rfl⟩ := one_byte_eq_ok_iff.mp hfirst
    cases hlength
    have hwidth : (to_bytes_big content.length).length < 0x80 := by
      have hsize : content.length.size ≤ 64 := Nat.size_le.mpr hfits
      rw [length_to_bytes_big]
      omega
    have hor : 0x80 ||| (to_bytes_big content.length).length = 0x80 + (to_bytes_big content.length).length :=
      (Nat.two_pow_add_eq_or_of_lt (i := 7) hwidth 1).symm
    have hread := read_length_long hwidth rest
    rw [number_to_bytes_big] at hread
    rw [hor]
    exact hread

theorem toNat_lt_of_and_eq_zero {byte : UInt8} (hclear : byte &&& 0x80 = 0) : byte.toNat < 0x80 := by
  have hbits := congrArg UInt8.toNat hclear
  rw [UInt8.toNat_and] at hbits
  have htop : (byte.toNat &&& 2 ^ 7).testBit 7 = false := by
    rw [show byte.toNat &&& 2 ^ 7 = 0 from hbits, Nat.zero_testBit]
  rw [Nat.testBit_and, Nat.testBit_two_pow_self, Bool.and_true] at htop
  have hdigit := Nat.toNat_testBit byte.toNat 7
  rw [htop] at hdigit
  have hbyte := byte.toNat_lt
  simp only [Bool.toNat_false] at hdigit
  omega

/-- The content of an integer is that of one that is not negative. -/
theorem headD_der_int_body (value : Nat) : ((_der_int_body value).headD 0x80).toNat < 0x80 := by
  unfold _der_int_body
  split
  · exact Nat.zero_lt_succ _
  · rename_i hvalue
    split
    · exact Nat.zero_lt_succ _
    · rename_i hclear
      have hpositive : 0 < (to_bytes_big value).length := by
        have hsize := Nat.size_pos.mpr (Nat.pos_of_ne_zero hvalue)
        rw [length_to_bytes_big]
        omega
      cases hbytes : to_bytes_big value with
      | nil =>
        rw [hbytes] at hpositive
        cases hpositive
      | cons first rest =>
        rw [hbytes, List.headD_cons] at hclear
        rw [List.headD_cons]
        exact toNat_lt_of_and_eq_zero (not_not.mp hclear)

theorem number_der_int_body (value : Nat) : number (_der_int_body value) = value := by
  unfold _der_int_body
  split
  · rename_i hzero
    rw [hzero]
    rfl
  · split
    · rw [number_cons_zero, number_to_bytes_big]
    · exact number_to_bytes_big value

theorem unsigned_der_int {value : Nat} {raw : Bytes} (hraw : _der_int value = .ok raw)
    (hfits : (_der_int_body value).length < 2 ^ 64) : Unsigned raw value := by
  obtain ⟨length, hlength, hraw⟩ := bind_eq_ok_iff.mp hraw
  cases hraw
  intro rest
  have hread := read_unsigned_of (announces_der_len hlength hfits) (headD_der_int_body value) rest
  rw [number_der_int_body] at hread
  rw [List.singleton_append, List.cons_append, List.cons_append, List.append_assoc]
  exact hread

theorem length_body_le_of_der_int {value : Nat} {raw : Bytes} (hraw : _der_int value = .ok raw) :
    (_der_int_body value).length ≤ raw.length := by
  obtain ⟨length, -, hraw⟩ := bind_eq_ok_iff.mp hraw
  cases hraw
  simp only [List.length_append]
  omega

/-- The public key can be read back from its blob, whatever follows the blob. -/
theorem read_public_blob {n e : Nat} {blob : Bytes} (hblob : _public_blob n e = .ok blob) (hfits : blob.length < 2 ^ 64)
    (rest : Bytes) : read_pair (blob ++ rest) = some ((n, e), rest) := by
  obtain ⟨modulus, hmodulus, hblob⟩ := bind_eq_ok_iff.mp hblob
  obtain ⟨exponent, hexponent, hblob⟩ := bind_eq_ok_iff.mp hblob
  obtain ⟨length, hlength, hblob⟩ := bind_eq_ok_iff.mp hblob
  cases hblob
  have hparts : [modulus, exponent].flatten = modulus ++ exponent := by simp
  rw [hparts] at hlength hfits ⊢
  simp only [List.length_append, List.length_singleton] at hfits
  have hfirst := length_body_le_of_der_int hmodulus
  have hsecond := length_body_le_of_der_int hexponent
  have hread := read_pair_of (unsigned_der_int hmodulus (by omega)) (unsigned_der_int hexponent (by omega))
    (announces_der_len hlength (by rw [List.length_append]; omega)) rest
  rw [List.singleton_append, List.cons_append, List.cons_append, List.append_assoc]
  exact hread

theorem checked_blob_eq_ok {n e : Nat} {blob : Bytes} (hblob : checked_blob n e = .ok blob) :
    _public_blob n e = .ok blob ∧ blob.length ≤ MAX_PUBKEY_SIZE := by
  obtain ⟨made, hmade, hblob⟩ := bind_eq_ok_iff.mp hblob
  by_cases hlong : made.length > MAX_PUBKEY_SIZE
  · rw [if_pos hlong] at hblob
    cases hblob
  · rw [if_neg hlong] at hblob
    cases hblob
    exact ⟨hmade, Nat.le_of_not_lt hlong⟩

/-- The public key can be read back from a blob that is used, whatever follows it: no two keys have one blob, and
none is the beginning of another one. -/
theorem read_checked_blob {n e : Nat} {blob : Bytes} (hblob : checked_blob n e = .ok blob) (rest : Bytes) :
    read_pair (blob ++ rest) = some ((n, e), rest) := by
  obtain ⟨hmade, hsize⟩ := checked_blob_eq_ok hblob
  exact read_public_blob hmade (hsize.trans_lt (by decide)) rest

/-- A key with a modulus that needs a leading zero. -/
def sampleBlob187 : Bytes := [0x30, 9, 0x02, 2, 0, 187, 0x02, 3, 1, 0, 1]

theorem checked_blob_187 : checked_blob 187 65537 = .ok sampleBlob187 := rfl

theorem read_checked_blob_187 : read_pair (sampleBlob187 ++ [7]) = some ((187, 65537), [7]) :=
  read_checked_blob checked_blob_187 [7]

/-- What is signed tells whose key it is for, the challenge, and the address block or that there is none. -/
theorem challenge_data_binds {n e n' e' challenge challenge' ip_kind ip_kind' : Nat}
    {blob blob' ip_bytes ip_bytes' : Bytes} (hblob : checked_blob n e = .ok blob)
    (hblob' : checked_blob n' e' = .ok blob') (hkind : ip_kind < 256) (hkind' : ip_kind' < 256) :
    build_challenge_data blob challenge ip_kind ip_bytes = build_challenge_data blob' challenge' ip_kind' ip_bytes' ↔
      n = n' ∧ e = e' ∧ challenge % 2 ^ 32 = challenge' % 2 ^ 32 ∧ ip_kind = ip_kind' ∧
        (ip_kind ≠ 0 → ip_bytes = ip_bytes') := by
  constructor
  · intro hdata
    obtain ⟨hmade, hsize⟩ := checked_blob_eq_ok hblob
    obtain ⟨hmade', hsize'⟩ := checked_blob_eq_ok hblob'
    have hread := read_public_blob hmade (hsize.trans_lt (by decide)) (encode 4 (challenge % 2 ^ 32) ++
      if ip_kind = 0 then [] else ip_bytes ++ [UInt8.ofNat ip_kind])
    have hread' := read_public_blob hmade' (hsize'.trans_lt (by decide)) (encode 4 (challenge' % 2 ^ 32) ++
      if ip_kind' = 0 then [] else ip_bytes' ++ [UInt8.ofNat ip_kind'])
    rw [build_challenge_data, build_challenge_data, List.append_assoc, List.append_assoc] at hdata
    rw [hdata, hread'] at hread
    obtain ⟨hkeys, hrest⟩ := Prod.mk.inj (Option.some.inj hread)
    obtain ⟨rfl, rfl⟩ := Prod.mk.inj hkeys
    obtain ⟨hchallenge, hblock⟩ := List.append_inj hrest (by simp)
    have hword : challenge' % 2 ^ 32 = challenge % 2 ^ 32 := by
      have hnumber := congrArg decode hchallenge
      have hfits : ∀ value, value % 2 ^ 32 < 256 ^ 4 := fun value => Nat.mod_lt value (by decide)
      rwa [decode_encode (hfits _), decode_encode (hfits _)] at hnumber
    refine ⟨rfl, rfl, hword.symm, ?_⟩
    by_cases hzero : ip_kind = 0
    · by_cases hzero' : ip_kind' = 0
      · exact ⟨hzero.trans hzero'.symm, fun hkind => absurd hzero hkind⟩
      · rw [if_pos hzero, if_neg hzero'] at hblock
        exact absurd hblock (List.concat_ne_nil _ _)
    · by_cases hzero' : ip_kind' = 0
      · rw [if_neg hzero, if_pos hzero'] at hblock
        exact absurd hblock.symm (List.concat_ne_nil _ _)
      · rw [if_neg hzero, if_neg hzero'] at hblock
        obtain ⟨hbytes, hlast⟩ := List.append_inj' hblock rfl
        have hnumber := congrArg UInt8.toNat (List.singleton_inj.mp hlast)
        rw [UInt8.toNat_ofNat', UInt8.toNat_ofNat'] at hnumber
        exact ⟨by omega, fun _ => hbytes.symm⟩
  · rintro ⟨rfl, rfl, hchallenge, rfl, hblock⟩
    cases hblob.symm.trans hblob'
    rw [build_challenge_data, build_challenge_data, hchallenge]
    by_cases hzero : ip_kind = 0
    · rw [if_pos hzero, if_pos hzero]
    · rw [if_neg hzero, if_neg hzero, hblock hzero]

theorem challenge_data_binds_187 :
    build_challenge_data sampleBlob187 5 10 [1, 2, 3, 4] = build_challenge_data sampleBlob187 5 20 [1, 2, 3, 4] ↔
      187 = 187 ∧ 65537 = 65537 ∧ 5 % 2 ^ 32 = 5 % 2 ^ 32 ∧ 10 = 20 ∧
        (10 ≠ 0 → [(1 : UInt8), 2, 3, 4] = [1, 2, 3, 4]) :=
  challenge_data_binds checked_blob_187 checked_blob_187 (by decide) (by decide)

end amuled.security
