import AmuleD.Basic
import AmuleD.Bytes.LittleEndian
import AmuleD.Streams.Cursor

open littleendian cursor

namespace amuled

/-- `text.encode("utf-8")` of a string without lone surrogates, which Python refuses to encode. -/
def utf8_encode (text : String) : Bytes := text.toByteArray.data.toList

/-- `raw.decode("utf-8")`, or `none` where Python raises `UnicodeDecodeError`. -/
def utf8_decode (raw : Bytes) : Option String := String.fromUTF8? ⟨raw.toArray⟩

/-- `raw.decode("latin-1")`, which never fails. -/
def latin1_decode (raw : Bytes) : String := String.ofList (raw.map fun byte => Char.ofNat byte.toNat)

theorem utf8_decode_encode (text : String) : utf8_decode (utf8_encode text) = some text := by
  have hbytes : (⟨text.toByteArray.data.toList.toArray⟩ : ByteArray) = text.toByteArray := by
    rw [Array.toArray_toList]
  rw [utf8_decode, utf8_encode, hbytes, String.fromUTF8?, dif_pos text.isValidUTF8]
  rfl

/-- Bytes that are decoded are those of their text. -/
theorem utf8_encode_of_decode {raw : Bytes} {text : String} (htext : utf8_decode raw = some text) :
    utf8_encode text = raw := by
  rw [utf8_decode, String.fromUTF8?] at htext
  split at htext
  · rw [Option.some.injEq] at htext
    rw [← htext]
    rfl
  · cases htext

/-- `struct.pack` with one little-endian unsigned format: `<H` is width 2, `<I`
width 4 and `<Q` width 8. -/
def struct_pack (width value : Nat) : Except Exc Bytes :=
  if value < 256 ^ width then .ok (encode width value) else .error .StructError

/-- `struct.unpack` with one such format: the buffer must have its width. -/
def struct_unpack (width : Nat) (buffer : Bytes) : Except Exc Nat :=
  if buffer.length = width then .ok (decode buffer) else .error .StructError

/-- `struct.unpack` with a big-endian format. -/
def struct_unpack_be (width : Nat) (buffer : Bytes) : Except Exc Nat :=
  struct_unpack width buffer.reverse

theorem struct_pack_eq_ok_iff {width value : Nat} {packed : Bytes} :
    struct_pack width value = .ok packed ↔ value < 256 ^ width ∧ packed = encode width value := by
  unfold struct_pack
  split
  · rename_i hfits
    simp only [Except.ok.injEq, hfits, true_and]
    exact eq_comm
  · rename_i hfits
    simp [hfits]

/-- Unpacking the front of a buffer returns what was packed there. -/
theorem struct_unpack_encode {width value : Nat} (hfits : value < 256 ^ width) (rest : Bytes) :
    struct_unpack width ((encode width value ++ rest).take width) = .ok value := by
  rw [List.take_left' (length_encode width value), struct_unpack, if_pos (length_encode width value),
    decode_encode hfits]

/-- A buffer of the right width is read as the number it stands for. -/
theorem struct_unpack_of_length {width : Nat} {buffer : Bytes} (hwidth : buffer.length = width) :
    struct_unpack width buffer = .ok (decode buffer) := if_pos hwidth

theorem struct_unpack_of_ne {width : Nat} {buffer : Bytes} (hwidth : buffer.length ≠ width) :
    struct_unpack width buffer = .error .StructError := if_neg hwidth

/-- A slice is unpacked where it lies inside the data. -/
theorem struct_unpack_slice (data : Bytes) (start width : Nat) (hinside : start + width ≤ data.length) :
    struct_unpack width ((data.drop start).take width) = .ok (decode ((data.drop start).take width)) := by
  apply struct_unpack_of_length
  rw [List.length_take, List.length_drop]
  omega

theorem struct_unpack_slice_short (data : Bytes) (start width : Nat) (hcut : data.length < start + width)
    (hwidth : 0 < width) : struct_unpack width ((data.drop start).take width) = .error .StructError := by
  apply struct_unpack_of_ne
  rw [List.length_take, List.length_drop]
  omega

@[simp] theorem drop_encode_append (width value : Nat) (rest : Bytes) :
    (encode width value ++ rest).drop width = rest :=
  List.drop_left' (length_encode width value)

section UnpackFrom

variable {ε : Type}

/-- What `struct.unpack_from` says of a buffer that is too short. -/
def unpack_message (n : Nat) (cursor : Cursor UInt8) : String :=
  s!"unpack_from requires a buffer of at least {cursor.pos + n} bytes for unpacking {n} bytes at offset {cursor.pos} " ++
    s!"(actual buffer size is {cursor.data.length})"

/-- `struct.unpack_from` with a little-endian unsigned format, at a position that it moves behind the number. -/
def struct_unpack_from (error : String → ε) (width : Nat) : Reading UInt8 ε Nat :=
  decode <$> takeN (fun n cursor => error (unpack_message n cursor)) width

theorem reads_struct_unpack_from (error : String → ε) {width value : Nat} (hfits : value < 256 ^ width) :
    Reads (struct_unpack_from error width) (encode width value) value := by
  have hread := Reads.takeN (fun n cursor => error (unpack_message n cursor)) (encode width value)
  rw [length_encode] at hread
  have hvalue := hread.map (f := decode)
  rwa [decode_encode hfits] at hvalue

theorem struct_unpack_from_ok (error : String → ε) {width : Nat} {cursor : Cursor UInt8}
    (hfits : cursor.pos + width ≤ cursor.data.length) :
    struct_unpack_from error width cursor =
      .ok (decode (cursor.data.extract cursor.pos (cursor.pos + width)), ⟨cursor.data, cursor.pos + width⟩) := by
  simp only [struct_unpack_from, Functor.map, StateT.map, takeN_ok hfits]
  rfl

theorem struct_unpack_from_error (error : String → ε) {width : Nat} {cursor : Cursor UInt8}
    (hshort : cursor.data.length < cursor.pos + width) :
    struct_unpack_from error width cursor = .error (error (unpack_message width cursor)) := by
  have htake : takeN (fun n cursor => error (unpack_message n cursor)) width cursor =
      .error (error (unpack_message width cursor)) := if_pos hshort
  simp only [struct_unpack_from, Functor.map, StateT.map, htake]
  rfl

end UnpackFrom

end amuled
