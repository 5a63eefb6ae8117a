import AmuleD.Codec.Binary
import AmuleD.Codec.Struct

open littleendian cursor

namespace amuled

def HASH16 : Nat := 0x01

def STRING : Nat := 0x02

def UINT32 : Nat := 0x03

def FLOAT32 : Nat := 0x04

def BOOL : Nat := 0x05

def BOOLARRAY : Nat := 0x06

def BLOB : Nat := 0x07

def UINT16 : Nat := 0x08

def UINT8 : Nat := 0x09

def BSOB : Nat := 0x0A

def UINT64 : Nat := 0x0B

def STR1 : Nat := 0x11

def STR16 : Nat := 0x20

/-- The identifier of a tag: its `name` or its `name_id`, exactly one of them. -/
inductive TagIdentifier where
  | name (name : String)
  | name_id (name_id : UInt8)
  deriving DecidableEq

/-- The value of a tag. A `FLOAT32` keeps the four bytes that the float stands for, and
a `BOOLARRAY` is skipped. -/
inductive TagValue where
  | str (text : String)
  | bytes (raw : Bytes)
  | int (value : Int)
  | bool (value : Bool)
  | float32 (raw : Bytes)
  | none
  deriving DecidableEq

structure Ed2kTag where
  identifier : TagIdentifier
  type : Nat
  value : TagValue
  deriving DecidableEq

def read_identifier (type_byte : Nat) : BinaryRead TagIdentifier :=
  if type_byte &&& 0x80 ≠ 0 then (fun id => .name_id (UInt8.ofNat id)) <$> read_u8
  else do
    let name_length ← read_u16
    if name_length = 1 then (fun id => .name_id (UInt8.ofNat id)) <$> read_u8
    else do
      let raw ← read_bytes name_length
      match utf8_decode raw with
      | some name => pure (.name name)
      | none => throw (.TagError "tag name is not valid UTF-8")

/-- Whether a type is one of `STR1` to `STR16`. -/
def is_short_string (tag_type : Nat) : Prop := STR1 ≤ tag_type ∧ tag_type ≤ STR16

instance (tag_type : Nat) : Decidable (is_short_string tag_type) :=
  inferInstanceAs (Decidable (_ ∧ _))

/-- The text of a string value: UTF-8, else Latin-1. -/
def decode_text (raw : Bytes) : String :=
  match utf8_decode raw with
  | some text => text
  | none => latin1_decode raw

def read_string_value (tag_type : Nat) : BinaryRead String :=
  if is_short_string tag_type then decode_text <$> read_bytes (tag_type - STR1 + 1)
  else do
    let length ← read_u16
    decode_text <$> read_bytes length

def read_value (tag_type : Nat) : BinaryRead TagValue :=
  if tag_type = STRING ∨ is_short_string tag_type then .str <$> read_string_value tag_type
  else if tag_type = HASH16 then .bytes <$> read_hash16
  else if tag_type = FLOAT32 then .float32 <$> read_bytes 4
  else if tag_type = BOOL then (fun value => .bool (value ≠ 0)) <$> read_u8
  else if tag_type = UINT8 then (fun value : Nat => .int value) <$> read_u8
  else if tag_type = UINT16 then (fun value : Nat => .int value) <$> read_u16
  else if tag_type = UINT32 then (fun value : Nat => .int value) <$> read_u32
  else if tag_type = UINT64 then (fun value : Nat => .int value) <$> read_u64
  else if tag_type = BLOB then do
    let length ← read_u32
    .bytes <$> read_bytes length
  else if tag_type = BSOB then do
    let length ← read_u8
    .bytes <$> read_bytes length
  else if tag_type = BOOLARRAY then do
    let bool_count ← read_u16
    (fun _ => .none) <$> read_bytes (bool_count / 8 + 1)
  else throw (.TagError s!"unsupported tag type: {hex_upper 2 tag_type}")

/-- The type under which a tag that was read is kept. -/
def normalized_type (tag_type : Nat) : Nat :=
  if is_short_string tag_type then STRING
  else if tag_type = UINT8 ∨ tag_type = UINT16 then UINT32
  else tag_type

def read_new_tag : BinaryRead Ed2kTag := do
  let type_byte ← read_u8
  let tag_type := if type_byte &&& 0x80 ≠ 0 then type_byte &&& 0x7F else type_byte
  let identifier ← read_identifier type_byte
  let value ← read_value tag_type
  pure ⟨identifier, normalized_type tag_type, value⟩

/-- The exceptions of `read_new_tag`. -/
inductive Exc.IsTagReadError : Exc → Prop where
  | codec (message : String) : IsTagReadError (.CodecError message)
  | tag (message : String) : IsTagReadError (.TagError message)

/-- The exceptions of `read_new_tag`, with their messages. -/
inductive Exc.TagFailure : Exc → Prop where
  | short (n : Nat) (reader : BinaryReader) : TagFailure (unexpected_end n reader)
  | name : TagFailure (.TagError "tag name is not valid UTF-8")
  | type (tag_type : Nat) : TagFailure (.TagError s!"unsupported tag type: {hex_upper 2 tag_type}")

theorem Exc.TagFailure.isTagReadError {e : Exc} (he : e.TagFailure) : e.IsTagReadError := by
  cases he with
  | short n reader => exact .codec _
  | name => exact .tag _
  | type tag_type => exact .tag _

theorem fails_bytes (n : Nat) : Raises (read_bytes n) Exc.TagFailure := Raises.takeN .short n

theorem fails_uint (width : Nat) : Raises (read_uint width) Exc.TagFailure := (fails_bytes width).map

theorem fails_identifier (type_byte : Nat) : Raises (read_identifier type_byte) Exc.TagFailure := by
  have hid := (fails_uint 1).map (f := fun id => TagIdentifier.name_id (UInt8.ofNat id))
  refine Raises.ite hid ((fails_uint 2).bind fun name_length => ?_)
  refine Raises.ite hid ((fails_bytes name_length).bind fun raw => ?_)
  cases utf8_decode raw with
  | some name => exact Raises.pure _
  | none => exact Raises.throw .name

theorem fails_string_value (tag_type : Nat) : Raises (read_string_value tag_type) Exc.TagFailure :=
  Raises.ite (fails_bytes _).map ((fails_uint 2).bind fun length => (fails_bytes length).map)

/-- A value is read, or the buffer ends, or the type is not one that is known. -/
theorem fails_value (tag_type : Nat) : Raises (read_value tag_type) Exc.TagFailure := by
  have hsized : ∀ (read : BinaryRead Nat) (make : Bytes → TagValue), Raises read Exc.TagFailure →
      Raises (read >>= fun length => make <$> read_bytes length) Exc.TagFailure :=
    fun read make hread => hread.bind fun length => (fails_bytes length).map
  refine Raises.ite (fails_string_value tag_type).map ?_
  refine Raises.ite (fails_bytes 16).map ?_
  refine Raises.ite (fails_bytes 4).map ?_
  refine Raises.ite (fails_uint 1).map ?_
  refine Raises.ite (fails_uint 1).map ?_
  refine Raises.ite (fails_uint 2).map ?_
  refine Raises.ite (fails_uint 4).map ?_
  refine Raises.ite (fails_uint 8).map ?_
  refine Raises.ite (hsized read_u32 TagValue.bytes (fails_uint 4)) ?_
  refine Raises.ite (hsized read_u8 TagValue.bytes (fails_uint 1)) ?_
  refine Raises.ite ?_ (Raises.throw (.type tag_type))
  exact (fails_uint 2).bind fun bool_count => (fails_bytes _).map

theorem fails_new_tag : Raises read_new_tag Exc.TagFailure :=
  (fails_uint 1).bind fun type_byte =>
    (fails_identifier type_byte).bind fun _ => (fails_value _).bind fun _ => Raises.pure _

theorem raises_new_tag : Raises read_new_tag Exc.IsTagReadError :=
  fails_new_tag.mono fun _ => Exc.TagFailure.isTagReadError

theorem reads_id (id : UInt8) :
    Reads ((fun id => TagIdentifier.name_id (UInt8.ofNat id)) <$> read_u8) [id] (.name_id id) := by
  have hbyte : Reads read_u8 (encode 1 id.toNat) id.toNat := reads_uint (by have := id.toNat_lt; omega)
  have hread := hbyte.map (f := fun id => TagIdentifier.name_id (UInt8.ofNat id))
  rw [encode, encode, UInt8.ofNat_toNat] at hread
  exact hread

/-- A name of one byte is a `name_id`, whatever the type. -/
theorem reads_name_id {type_byte : Nat} (hplain : type_byte &&& 0x80 = 0) (id : UInt8) :
    Reads (read_identifier type_byte) (encode 2 1 ++ [id]) (.name_id id) := by
  have hlength : Reads read_u16 (encode 2 1) 1 := reads_uint (by omega)
  rw [read_identifier, if_neg (not_not.mpr hplain)]
  exact hlength.bind (by rw [if_pos rfl]; exact reads_id id)

/-- A tag in the old format is read: its type, a name of one byte and its value. -/
theorem reads_old_tag {type_byte : Nat} (hbyte : type_byte < 256) (hplain : type_byte &&& 0x80 = 0)
    (id : UInt8) {raw : Bytes} {value : TagValue} (hvalue : Reads (read_value type_byte) raw value) :
    Reads read_new_tag (encode 1 type_byte ++ (encode 2 1 ++ [id] ++ raw))
      ⟨.name_id id, normalized_type type_byte, value⟩ := by
  have htype : Reads read_u8 (encode 1 type_byte) type_byte := reads_uint hbyte
  have htail : Reads (read_identifier type_byte >>= fun identifier => read_value type_byte >>= fun value =>
      pure (⟨identifier, normalized_type type_byte, value⟩ : Ed2kTag)) (encode 2 1 ++ [id] ++ raw)
      ⟨.name_id id, normalized_type type_byte, value⟩ := (reads_name_id hplain id).bind hvalue.bind_pure
  refine htype.bind ?_
  simp only [hplain, ne_eq, not_true_eq_false, if_false]
  exact htail

theorem reads_string_value {text : String} (hfits : (utf8_encode text).length < 2 ^ 16) :
    Reads (read_value STRING) (encode 2 (utf8_encode text).length ++ utf8_encode text) (.str text) := by
  have hlength : Reads read_u16 (encode 2 (utf8_encode text).length) (utf8_encode text).length :=
    reads_uint hfits
  have htext := (reads_bytes (utf8_encode text)).map (f := decode_text)
  rw [decode_text, utf8_decode_encode] at htext
  rw [read_value, if_pos (Or.inl rfl), read_string_value, if_neg (by decide)]
  exact (hlength.bind htext).map

theorem reads_hash_value {raw : Bytes} (hlength : raw.length = 16) :
    Reads (read_value HASH16) raw (.bytes raw) := by
  rw [read_value, if_neg (by decide), if_pos rfl]
  exact (reads_bytes_of_length hlength).map

theorem reads_uint32_value {value : Nat} (hfits : value < 2 ^ 32) :
    Reads (read_value UINT32) (encode 4 value) (.int value) := by
  have hread : Reads read_u32 (encode 4 value) value := reads_uint hfits
  rw [read_value]
  repeat rw [if_neg (by decide)]
  rw [if_pos rfl]
  exact hread.map

end amuled
