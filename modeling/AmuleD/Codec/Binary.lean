import AmuleD.Basic
import AmuleD.Bytes.LittleEndian
import AmuleD.Streams.Cursor

open littleendian cursor

namespace amuled

/-- The integer writers of `BinaryWriter`, which check the range themselves. -/
def write_uint (bits value : Nat) : Except Exc Bytes :=
  if value < 2 ^ bits then pure (encode (bits / 8) value)
  else throw (.ValueError s!"u{bits} out of range: {value}")

def write_u16 (value : Nat) : Except Exc Bytes := write_uint 16 value

def write_u32 (value : Nat) : Except Exc Bytes := write_uint 32 value

def write_u64 (value : Nat) : Except Exc Bytes := write_uint 64 value

theorem write_uint_eq_ok_iff {bits value : Nat} {out : Bytes} :
    write_uint bits value = .ok out ↔ value < 2 ^ bits ∧ out = encode (bits / 8) value := by
  unfold write_uint
  split
  · rename_i hfits
    simp only [pure_eq_ok, Except.ok.injEq, hfits, true_and]
    exact eq_comm
  · rename_i hfits
    simp [hfits]

/-- A writer applied to a Python integer, of which only the negative ones differ. -/
def write_int (bits : Nat) (value : Int) : Except Exc Bytes :=
  if 0 ≤ value then write_uint bits value.toNat else throw (.ValueError s!"u{bits} out of range: {value}")

theorem write_int_eq_ok {bits : Nat} {value : Int} {out : Bytes} (hwrite : write_int bits value = .ok out) :
    ∃ n : Nat, value = n ∧ n < 2 ^ bits ∧ out = encode (bits / 8) n := by
  rw [write_int] at hwrite
  split at hwrite
  · rename_i hnonneg
    obtain ⟨hfits, hout⟩ := write_uint_eq_ok_iff.mp hwrite
    exact ⟨value.toNat, by omega, hfits, hout⟩
  · cases hwrite

def write_hash16 (digest : Bytes) : Except Exc Bytes :=
  if digest.length = 16 then pure digest
  else throw (.ValueError s!"hash16 must be 16 bytes, got {digest.length}")

abbrev BinaryReader := Cursor UInt8

/-- What a method of `BinaryReader` does to the reader. -/
abbrev BinaryRead (α : Type) := StateT BinaryReader (Except Exc) α

/-- The exception of `_require`. -/
def unexpected_end (n : Nat) (reader : BinaryReader) : Exc :=
  .CodecError (s!"unexpected end of data: need {n} bytes at pos {reader.pos}, " ++
    s!"only {reader.remaining} remaining")

def read_bytes (n : Nat) : BinaryRead Bytes := takeN unexpected_end n

/-- The integer readers of `BinaryReader`. -/
def read_uint (width : Nat) : BinaryRead Nat := decode <$> read_bytes width

def read_u8 : BinaryRead Nat := read_uint 1

def read_u16 : BinaryRead Nat := read_uint 2

def read_u32 : BinaryRead Nat := read_uint 4

def read_u64 : BinaryRead Nat := read_uint 8

def read_hash16 : BinaryRead Bytes := read_bytes 16

def read_bytes_remaining : BinaryRead Bytes := fun reader =>
  .ok (reader.data.drop reader.pos, ⟨reader.data, reader.data.length⟩)

/-- The exceptions of a reader. -/
inductive Exc.IsCodecError : Exc → Prop where
  | intro (message : String) : IsCodecError (.CodecError message)

theorem reads_bytes (raw : Bytes) : Reads (read_bytes raw.length) raw raw := Reads.takeN _ raw

theorem reads_bytes_of_length {raw : Bytes} {n : Nat} (hlength : raw.length = n) :
    Reads (read_bytes n) raw raw := hlength ▸ reads_bytes raw

theorem reads_uint {width value : Nat} (hfits : value < 256 ^ width) :
    Reads (read_uint width) (encode width value) value := by
  have hread := (reads_bytes_of_length (length_encode width value)).map (f := decode)
  rw [decode_encode hfits] at hread
  exact hread

theorem readsAll_bytes_remaining (raw : Bytes) : ReadsAll read_bytes_remaining raw raw := by
  intro before
  rw [read_bytes_remaining, List.drop_left]

theorem raises_bytes (n : Nat) : Raises (read_bytes n) Exc.IsCodecError :=
  Raises.takeN (fun _ _ => ⟨_⟩) n

theorem raises_uint (width : Nat) : Raises (read_uint width) Exc.IsCodecError :=
  (raises_bytes width).map

end amuled
