import AmuleD.Codec.Tags

open littleendian cursor

namespace amuled

def encoded_string : TagValue → Except Exc Bytes
  | .str text => .ok (utf8_encode text)
  | .bytes raw => .ok raw
  | _ => .error (.TagError "string tag value must be str or bytes")

/-- `_narrow_int`, which leaves a negative value to the writer. -/
def narrow_int : TagValue → Except Exc Nat
  | .int value =>
    if 0 ≤ value ∧ value ≤ 0xFF then .ok UINT8
    else if value ≤ 0xFFFF then .ok UINT16
    else if value ≤ 0xFFFFFFFF then .ok UINT32
    else if value ≤ 0xFFFFFFFFFFFFFFFF then .ok UINT64
    else .error (.TagError "integer tag value exceeds UINT64")
  | _ => .error (.TagError "integer tag value must be int")

def string_wire_type (raw_value : Bytes) : Nat :=
  if 1 ≤ raw_value.length ∧ raw_value.length ≤ 16 then STR1 + raw_value.length - 1 else STRING

/-- `UINT8`, `UINT16`, `UINT32` or `UINT64`. -/
def is_uint (tag_type : Nat) : Prop :=
  tag_type = UINT8 ∨ tag_type = UINT16 ∨ tag_type = UINT32 ∨ tag_type = UINT64

instance (tag_type : Nat) : Decidable (is_uint tag_type) := inferInstanceAs (Decidable (_ ∨ _))

/-- The type under which a tag is written. -/
def wire_type (tag : Ed2kTag) : Except Exc Nat :=
  if tag.type = STRING ∨ is_short_string tag.type then do
    let raw_value ← encoded_string tag.value
    .ok (string_wire_type raw_value)
  else if is_uint tag.type then
    if tag.type = UINT32 then narrow_int tag.value
    else do
      let _ ← narrow_int tag.value
      .ok tag.type
  else .ok tag.type

/-- The type byte and the identifier, of one byte or a name with its length. -/
def write_identifier (wire_type : Nat) : TagIdentifier → Except Exc Bytes
  | .name_id id => do
    let type_byte ← write_uint 8 (wire_type ||| 0x80)
    .ok (type_byte ++ [id])
  | .name name => do
    let encoded_name := utf8_encode name
    if encoded_name.length > 0xFFFF then .error (.TagError "tag name exceeds UINT16 length")
    else do
      let type_byte ← write_uint 8 wire_type
      let length ← write_u16 encoded_name.length
      .ok (type_byte ++ (length ++ encoded_name))

def write_string_value (raw_value : Bytes) (wire_type : Nat) : Except Exc Bytes :=
  if is_short_string wire_type then .ok raw_value
  else do
    let length ← write_u16 raw_value.length
    .ok (length ++ raw_value)

/-- The bits of an integer type. -/
def uint_bits (tag_type : Nat) : Nat :=
  if tag_type = UINT8 then 8 else if tag_type = UINT16 then 16 else if tag_type = UINT32 then 32 else 64

/-- Python's `bytes(value)`. -/
def bytes_of : TagValue → Except Exc Bytes
  | .bytes raw => .ok raw
  | .int value =>
    if 0 ≤ value then .ok (List.replicate value.toNat 0) else .error (.ValueError "negative count")
  | .bool value => .ok (List.replicate value.toNat 0)
  | .str _ => .error .TypeError
  | .float32 _ => .error .TypeError
  | .none => .error .TypeError

/-- A value of bytes behind its size. -/
def write_sized (bits : Nat) (type_name : String) (value : TagValue) : Except Exc Bytes :=
  match value with
  | .bytes raw =>
    if raw.length ≥ 2 ^ bits then .error (.TagError s!"{type_name} tag value exceeds UINT{bits} size")
    else do
      let size ← write_uint bits raw.length
      .ok (size ++ raw)
  | _ => .error (.TagError s!"{type_name} tag value must be bytes")

section Writer

variable (pack_float : TagValue → Except Exc Bytes)

/-- `_write_value`, where `struct.pack("<f", float(value))` is given. -/
def write_value (value : TagValue) (wire_type : Nat) : Except Exc Bytes :=
  if is_uint wire_type then
    match value with
    | .int value => write_int (uint_bits wire_type) value
    | _ => .error (.TagError "unsigned integer tag value must be int")
  else if wire_type = STRING ∨ is_short_string wire_type then do
    let raw_value ← encoded_string value
    write_string_value raw_value wire_type
  else if wire_type = FLOAT32 then pack_float value
  else if wire_type = HASH16 then do
    let raw ← bytes_of value
    write_hash16 raw
  else if wire_type = BOOL then
    match value with
    | .bool value => write_uint 8 value.toNat
    | _ => .error (.TagError "BOOL tag value must be bool")
  else if wire_type = BLOB then write_sized 32 "BLOB" value
  else if wire_type = BSOB then write_sized 8 "BSOB" value
  else .error (.TagError s!"unsupported tag type: {hex_upper 2 wire_type}")

def write_new_tag (tag : Ed2kTag) : Except Exc Bytes := do
  let wire_type ← wire_type tag
  let identifier ← write_identifier wire_type tag.identifier
  let value ← write_value pack_float tag.value wire_type
  .ok (identifier ++ value)

end Writer

/-- The identifier that comes back: a name of one byte is read as a `name_id`. -/
def TagIdentifier.back : TagIdentifier → TagIdentifier
  | .name_id byte => .name_id byte
  | .name text =>
    match utf8_encode text with
    | [id] => .name_id id
    | _ => .name text

/-- The value that comes back: strings as text and hashes as bytes. -/
def TagValue.back (tag_type : Nat) : TagValue → TagValue
  | .bytes raw => if tag_type = STRING ∨ is_short_string tag_type then .str (decode_text raw) else .bytes raw
  | .int value => if tag_type = HASH16 then .bytes (List.replicate value.toNat 0) else .int value
  | value => value

/-- The type that comes back: integers of `UINT32` that do not fit it are written as `UINT64`. -/
def back_type (tag_type : Nat) (value : TagValue) : Nat :=
  if tag_type = STRING ∨ is_short_string tag_type then STRING
  else if tag_type = UINT8 ∨ tag_type = UINT16 then UINT32
  else if tag_type = UINT32 then
    match value with
    | .int value => if value ≤ 0xFFFFFFFF then UINT32 else UINT64
    | _ => UINT32
  else tag_type

/-- The tag that is read where a tag was written. -/
def Ed2kTag.back (tag : Ed2kTag) : Ed2kTag :=
  ⟨tag.identifier.back, back_type tag.type tag.value, tag.value.back tag.type⟩

section Values

variable {raw : Bytes} {tag_type : Nat}

theorem reads_text {raw : Bytes} (hfits : raw.length < 2 ^ 16) :
    Reads (read_value STRING) (encode 2 raw.length ++ raw) (.str (decode_text raw)) := by
  have hlength : Reads read_u16 (encode 2 raw.length) raw.length := reads_uint hfits
  have htext := (reads_bytes raw).map (f := decode_text)
  rw [read_value, if_pos (Or.inl rfl), read_string_value, if_neg (by decide)]
  exact (hlength.bind htext).map

theorem reads_short_text {raw : Bytes} (hpos : 1 ≤ raw.length) (hshort : raw.length ≤ 16) :
    Reads (read_value (STR1 + raw.length - 1)) raw (.str (decode_text raw)) := by
  have htype : is_short_string (STR1 + raw.length - 1) := by
    simp only [is_short_string, STR1, STR16]
    omega
  have hlength : STR1 + raw.length - 1 - STR1 + 1 = raw.length := by
    simp only [STR1]
    omega
  rw [read_value, if_pos (Or.inr htype), read_string_value, if_pos htype, hlength]
  exact ((reads_bytes raw).map (f := decode_text)).map

/-- An integer that was written is read. -/
theorem reads_written_int {bits : Nat} (width : Nat) {value : Int} (hwidth : bits = 8 * width)
    (hwritten : write_int bits value = .ok raw) :
    Reads ((fun value : Nat => TagValue.int value) <$> read_uint width) raw (.int value) := by
  obtain ⟨number, rfl, hfits, rfl⟩ := write_int_eq_ok hwritten
  subst hwidth
  have hbytes : 8 * width / 8 = width := by omega
  have hpower : (2 : Nat) ^ (8 * width) = 256 ^ width := by rw [Nat.pow_mul]
  rw [hpower] at hfits
  rw [hbytes]
  exact (reads_uint hfits).map (f := fun value : Nat => TagValue.int value)

/-- Bytes behind their size are read. -/
theorem reads_written_sized {bits : Nat} (width : Nat) {type_name : String} {value : TagValue}
    (hwidth : bits = 8 * width) (hwritten : write_sized bits type_name value = .ok raw) :
    Reads (read_uint width >>= fun length => TagValue.bytes <$> read_bytes length) raw value := by
  cases value with
  | bytes data =>
    simp only [write_sized] at hwritten
    split at hwritten
    · cases hwritten
    · obtain ⟨size, hsize, hraw⟩ := bind_eq_ok_iff.mp hwritten
      obtain ⟨hfits, rfl⟩ := write_uint_eq_ok_iff.mp hsize
      cases hraw
      subst hwidth
      have hbytes : 8 * width / 8 = width := by omega
      have hpower : (2 : Nat) ^ (8 * width) = 256 ^ width := by rw [Nat.pow_mul]
      rw [hpower] at hfits
      rw [hbytes]
      exact (reads_uint hfits).bind (reads_bytes data).map
  | str text => cases hwritten
  | int number => cases hwritten
  | bool flag => cases hwritten
  | float32 data => cases hwritten
  | none => cases hwritten

theorem back_text {value : TagValue} (htype : tag_type = STRING ∨ is_short_string tag_type)
    (hencoded : encoded_string value = .ok raw) : value.back tag_type = .str (decode_text raw) := by
  cases value with
  | str text =>
    cases hencoded
    rw [decode_text, utf8_decode_encode]
    rfl
  | bytes data =>
    cases hencoded
    rw [TagValue.back, if_pos htype]
  | int number => cases hencoded
  | bool flag => cases hencoded
  | float32 data => cases hencoded
  | none => cases hencoded

/-- A string value that was written is read. -/
theorem reads_written_string {out : Bytes} (hwritten : write_string_value raw (string_wire_type raw) = .ok out) :
    Reads (read_value (string_wire_type raw)) out (.str (decode_text raw)) := by
  unfold string_wire_type at hwritten ⊢
  by_cases hshort : 1 ≤ raw.length ∧ raw.length ≤ 16
  · have htype : is_short_string (STR1 + raw.length - 1) := by
      simp only [is_short_string, STR1, STR16]
      omega
    rw [if_pos hshort, write_string_value, if_pos htype] at hwritten
    cases hwritten
    rw [if_pos hshort]
    exact reads_short_text hshort.1 hshort.2
  · have htype : ¬ is_short_string STRING := by decide
    rw [if_neg hshort, write_string_value, if_neg htype] at hwritten
    obtain ⟨length, hlength, hout⟩ := bind_eq_ok_iff.mp hwritten
    obtain ⟨hfits, rfl⟩ := write_uint_eq_ok_iff.mp hlength
    cases hout
    rw [if_neg hshort]
    exact reads_text hfits

theorem reads_written_hash {value : TagValue} {digest : Bytes} (hdigest : bytes_of value = .ok digest)
    (hwritten : write_hash16 digest = .ok raw) : Reads (read_value HASH16) raw (value.back HASH16) := by
  unfold write_hash16 at hwritten
  split at hwritten
  · rename_i hlength
    cases hwritten
    have hread := (reads_bytes_of_length hlength).map (f := TagValue.bytes)
    cases value with
    | bytes data =>
      cases hdigest
      exact hread
    | int number =>
      simp only [bytes_of] at hdigest
      split at hdigest
      · cases hdigest
        exact hread
      · cases hdigest
    | bool flag =>
      cases hdigest
      rw [List.length_replicate] at hlength
      cases flag <;> cases hlength
    | str text => cases hdigest
    | float32 data => cases hdigest
    | none => cases hdigest
  · cases hwritten

theorem back_eq_self {value : TagValue} (htext : ¬ (tag_type = STRING ∨ is_short_string tag_type))
    (hhash : tag_type ≠ HASH16) : value.back tag_type = value := by
  cases value with
  | bytes data => rw [TagValue.back, if_neg htext]
  | int number => rw [TagValue.back, if_neg hhash]
  | str text => rfl
  | bool flag => rfl
  | float32 data => rfl
  | none => rfl

/-- A value that was written is read, under its type on the wire. -/
theorem reads_written_value {pack_float : TagValue → Except Exc Bytes} {value : TagValue}
    (hfloat : tag_type ≠ FLOAT32) (hstring : tag_type = STRING ∨ is_short_string tag_type →
      ∃ text, encoded_string value = .ok text ∧ tag_type = string_wire_type text)
    (hwritten : write_value pack_float value tag_type = .ok raw) :
    Reads (read_value tag_type) raw (value.back tag_type) ∧ tag_type < 0x80 := by
  unfold write_value at hwritten
  by_cases huint : is_uint tag_type
  · rw [if_pos huint] at hwritten
    cases value with
    | int number =>
      rcases huint with rfl | rfl | rfl | rfl
      · exact ⟨reads_written_int 1 rfl hwritten, by decide⟩
      · exact ⟨reads_written_int 2 rfl hwritten, by decide⟩
      · exact ⟨reads_written_int 4 rfl hwritten, by decide⟩
      · exact ⟨reads_written_int 8 rfl hwritten, by decide⟩
    | str text => cases hwritten
    | bytes data => cases hwritten
    | bool flag => cases hwritten
    | float32 data => cases hwritten
    | none => cases hwritten
  rw [if_neg huint] at hwritten
  by_cases htext : tag_type = STRING ∨ is_short_string tag_type
  · obtain ⟨text, hencoded, htype⟩ := hstring htext
    rw [if_pos htext, hencoded, ok_bind, htype] at hwritten
    have hsmall : tag_type < 0x80 := by
      simp only [is_short_string, STRING, STR1, STR16] at htext
      omega
    rw [back_text htext hencoded]
    refine ⟨?_, hsmall⟩
    rw [htype]
    exact reads_written_string hwritten
  rw [if_neg htext, if_neg hfloat] at hwritten
  by_cases hhash : tag_type = HASH16
  · subst hhash
    rw [if_pos rfl] at hwritten
    obtain ⟨digest, hdigest, hout⟩ := bind_eq_ok_iff.mp hwritten
    exact ⟨reads_written_hash hdigest hout, by decide⟩
  rw [if_neg hhash] at hwritten
  by_cases hbool : tag_type = BOOL
  · subst hbool
    rw [if_pos rfl] at hwritten
    cases value with
    | bool flag =>
      obtain ⟨hfits, rfl⟩ := write_uint_eq_ok_iff.mp hwritten
      have hbyte : flag.toNat < 256 ^ 1 := hfits
      have hread := (reads_uint hbyte).map (f := fun value => TagValue.bool (value ≠ 0))
      have hback : decide (flag.toNat ≠ 0) = flag := by cases flag <;> rfl
      rw [hback] at hread
      exact ⟨hread, by decide⟩
    | str text => cases hwritten
    | bytes data => cases hwritten
    | int number => cases hwritten
    | float32 data => cases hwritten
    | none => cases hwritten
  rw [if_neg hbool] at hwritten
  by_cases hblob : tag_type = BLOB
  · subst hblob
    rw [if_pos rfl] at hwritten
    rw [back_eq_self (by decide) (by decide)]
    exact ⟨reads_written_sized 4 rfl hwritten, by decide⟩
  rw [if_neg hblob] at hwritten
  by_cases hbsob : tag_type = BSOB
  · subst hbsob
    rw [if_pos rfl] at hwritten
    rw [back_eq_self (by decide) (by decide)]
    exact ⟨reads_written_sized 1 rfl hwritten, by decide⟩
  · rw [if_neg hbsob] at hwritten
    cases hwritten

end Values

section Identifiers

variable {tag_type : Nat}

theorem high_bit (tag_type : Nat) (hsmall : tag_type < 0x80) :
    tag_type &&& 0x80 = 0 ∧ (tag_type ||| 0x80) &&& 0x80 ≠ 0 ∧ (tag_type ||| 0x80) &&& 0x7F = tag_type := by
  have hall : ∀ low : Fin 0x80, low.val &&& 0x80 = 0 ∧ (low.val ||| 0x80) &&& 0x80 ≠ 0 ∧
      (low.val ||| 0x80) &&& 0x7F = low.val := by decide +kernel
  exact hall ⟨tag_type, hsmall⟩

/-- A name that was written is read, one of a single byte as a `name_id`. -/
theorem reads_written_name {name : String} (hplain : tag_type &&& 0x80 = 0)
    (hfits : (utf8_encode name).length < 2 ^ 16) :
    Reads (read_identifier tag_type) (encode 2 (utf8_encode name).length ++ utf8_encode name)
      (TagIdentifier.name name).back := by
  have hlength : Reads read_u16 (encode 2 (utf8_encode name).length) (utf8_encode name).length :=
    reads_uint hfits
  rw [read_identifier, if_neg (not_not.mpr hplain)]
  refine hlength.bind ?_
  by_cases hone : (utf8_encode name).length = 1
  · obtain ⟨id, hid⟩ := List.length_eq_one_iff.mp hone
    rw [if_pos hone, TagIdentifier.back, hid]
    exact reads_id id
  · have hback : (TagIdentifier.name name).back = .name name := by
      simp only [TagIdentifier.back]
      split
      · rename_i id hid
        rw [hid] at hone
        exact absurd rfl hone
      · rfl
    rw [if_neg hone, hback]
    refine (reads_bytes (utf8_encode name)).bind_last ?_
    rw [utf8_decode_encode]
    exact Reads.pure _

/-- A type and an identifier that were written are read. -/
theorem reads_written_identifier {identifier : TagIdentifier} {raw : Bytes} (hsmall : tag_type < 0x80)
    (hwritten : write_identifier tag_type identifier = .ok raw) :
    ∃ type_byte back, raw = encode 1 type_byte ++ back ∧ type_byte < 256 ∧
      (if type_byte &&& 0x80 ≠ 0 then type_byte &&& 0x7F else type_byte) = tag_type ∧
      Reads (read_identifier type_byte) back identifier.back := by
  obtain ⟨hplain, hflag, hlow⟩ := high_bit tag_type hsmall
  cases identifier with
  | name_id id =>
    obtain ⟨head, hhead, hraw⟩ := bind_eq_ok_iff.mp hwritten
    obtain ⟨hfits, rfl⟩ := write_uint_eq_ok_iff.mp hhead
    cases hraw
    refine ⟨tag_type ||| 0x80, [id], rfl, hfits, by rw [if_pos hflag, hlow], ?_⟩
    rw [read_identifier, if_pos hflag]
    exact reads_id id
  | name name =>
    simp only [write_identifier] at hwritten
    split at hwritten
    · cases hwritten
    · obtain ⟨head, hhead, hrest⟩ := bind_eq_ok_iff.mp hwritten
      obtain ⟨length, hlength, hraw⟩ := bind_eq_ok_iff.mp hrest
      obtain ⟨hfits, rfl⟩ := write_uint_eq_ok_iff.mp hhead
      obtain ⟨hname, rfl⟩ := write_uint_eq_ok_iff.mp hlength
      cases hraw
      exact ⟨tag_type, encode 2 (utf8_encode name).length ++ utf8_encode name, rfl, hfits,
        by rw [if_neg (not_not.mpr hplain)], reads_written_name hplain hname⟩

end Identifiers

section Tags

variable {tag : Ed2kTag} {written : Nat}

theorem string_wire_type_text (raw : Bytes) :
    string_wire_type raw = STRING ∨ is_short_string (string_wire_type raw) := by
  unfold string_wire_type
  split
  · right
    simp only [is_short_string, STR1, STR16]
    omega
  · left
    rfl

theorem normalized_text {tag_type : Nat} (htype : tag_type = STRING ∨ is_short_string tag_type) :
    normalized_type tag_type = STRING := by
  unfold normalized_type
  rcases htype with rfl | hshort
  · rfl
  · rw [if_pos hshort]

theorem not_text_of_uint {tag_type : Nat} (huint : is_uint tag_type) :
    ¬ (tag_type = STRING ∨ is_short_string tag_type) := by
  rcases huint with rfl | rfl | rfl | rfl <;> decide

/-- An integer is written under a type that it comes back from. -/
theorem narrow_int_spec {value : TagValue} (hnarrow : narrow_int value = .ok written) :
    is_uint written ∧ normalized_type written = back_type UINT32 value := by
  cases value with
  | int number =>
    simp only [narrow_int] at hnarrow
    have hback : back_type UINT32 (.int number) = if number ≤ 0xFFFFFFFF then UINT32 else UINT64 := rfl
    rw [hback]
    by_cases hbyte : 0 ≤ number ∧ number ≤ 0xFF
    · rw [if_pos hbyte] at hnarrow
      cases hnarrow
      rw [if_pos (by omega)]
      exact ⟨.inl rfl, rfl⟩
    rw [if_neg hbyte] at hnarrow
    by_cases hshort : number ≤ 0xFFFF
    · rw [if_pos hshort] at hnarrow
      cases hnarrow
      rw [if_pos (by omega)]
      exact ⟨.inr (.inl rfl), rfl⟩
    rw [if_neg hshort] at hnarrow
    by_cases hword : number ≤ 0xFFFFFFFF
    · rw [if_pos hword] at hnarrow
      cases hnarrow
      rw [if_pos hword]
      exact ⟨.inr (.inr (.inl rfl)), rfl⟩
    rw [if_neg hword] at hnarrow
    rw [if_neg hword]
    split at hnarrow
    · cases hnarrow
      exact ⟨.inr (.inr (.inr rfl)), rfl⟩
    · cases hnarrow
  | str text => cases hnarrow
  | bytes raw => cases hnarrow
  | bool flag => cases hnarrow
  | float32 raw => cases hnarrow
  | none => cases hnarrow

/-- The type on the wire gives back the value and the type. -/
theorem wire_type_spec (hwire : wire_type tag = .ok written) :
    tag.value.back written = tag.value.back tag.type ∧
      normalized_type written = back_type tag.type tag.value ∧
      (tag.type ≠ FLOAT32 → written ≠ FLOAT32) ∧
      (written = STRING ∨ is_short_string written →
        ∃ text, encoded_string tag.value = .ok text ∧ written = string_wire_type text) := by
  unfold wire_type at hwire
  by_cases htext : tag.type = STRING ∨ is_short_string tag.type
  · rw [if_pos htext] at hwire
    obtain ⟨text, hencoded, hwritten⟩ := bind_eq_ok_iff.mp hwire
    cases hwritten
    have hwritten := string_wire_type_text text
    refine ⟨?_, ?_, ?_, fun _ => ⟨text, hencoded, rfl⟩⟩
    · rw [back_text hwritten hencoded, back_text htext hencoded]
    · unfold back_type
      rw [normalized_text hwritten, if_pos htext]
    · rintro - hfloat
      rw [hfloat] at hwritten
      revert hwritten
      decide
  rw [if_neg htext] at hwire
  by_cases huint : is_uint tag.type
  · rw [if_pos huint] at hwire
    by_cases hword : tag.type = UINT32
    · rw [if_pos hword] at hwire
      obtain ⟨hwritten, hnormal⟩ := narrow_int_spec hwire
      have hplain := not_text_of_uint hwritten
      have hhash : written ≠ HASH16 := by
        rintro rfl
        exact absurd hwritten (by decide)
      refine ⟨?_, ?_, ?_, fun hstring => absurd hstring hplain⟩
      · rw [back_eq_self hplain hhash, back_eq_self htext (by rw [hword]; decide)]
      · rw [hnormal, hword]
      · rintro - rfl
        exact absurd hwritten (by decide)
    · rw [if_neg hword] at hwire
      obtain ⟨narrow, -, hwritten⟩ := bind_eq_ok_iff.mp hwire
      cases hwritten
      refine ⟨rfl, ?_, fun hfloat => hfloat, fun hstring => absurd hstring htext⟩
      unfold back_type
      rw [if_neg htext, normalized_type, if_neg (not_or.mp htext).2, if_neg hword]
  · rw [if_neg huint] at hwire
    cases hwire
    refine ⟨rfl, ?_, fun hfloat => hfloat, fun hstring => absurd hstring htext⟩
    simp only [is_uint, not_or] at huint
    unfold back_type
    rw [if_neg htext, normalized_type, if_neg (not_or.mp htext).2, if_neg huint.2.2.1]

/-- A tag that was written is read, with any bytes after it. -/
theorem reads_written_tag {pack_float : TagValue → Except Exc Bytes} {raw : Bytes}
    (hfloat : tag.type ≠ FLOAT32) (hwritten : write_new_tag pack_float tag = .ok raw) :
    Reads read_new_tag raw tag.back := by
  obtain ⟨written, hwire, hrest⟩ := bind_eq_ok_iff.mp hwritten
  obtain ⟨head, hidentifier, hlast⟩ := bind_eq_ok_iff.mp hrest
  obtain ⟨value, hvalue, hraw⟩ := bind_eq_ok_iff.mp hlast
  cases hraw
  obtain ⟨hback, hnormal, hkind, hstring⟩ := wire_type_spec hwire
  obtain ⟨hread, hsmall⟩ := reads_written_value (hkind hfloat) hstring hvalue
  obtain ⟨type_byte, name, rfl, hbyte, htype, hname⟩ := reads_written_identifier hsmall hidentifier
  have hhead : Reads read_u8 (encode 1 type_byte) type_byte := reads_uint hbyte
  rw [List.append_assoc, Ed2kTag.back, ← hback, ← hnormal, ← htype]
  rw [← htype] at hread
  exact hhead.bind (hname.bind hread.bind_pure)

/-- The tag with its type as a reader keeps it. -/
def Ed2kTag.normalized (tag : Ed2kTag) : Ed2kTag :=
  ⟨tag.identifier, normalized_type tag.type, tag.value⟩

/-- A tag without a name of one byte, a text or a hash given in another form, or a `UINT32` that
does not fit its type. -/
structure Ed2kTag.Plain (tag : Ed2kTag) : Prop where
  name : ∀ text, tag.identifier = .name text → (utf8_encode text).length ≠ 1
  text : tag.type = STRING ∨ is_short_string tag.type → ∀ raw, tag.value ≠ .bytes raw
  hash : tag.type = HASH16 → ∀ value, tag.value ≠ .int value
  word : tag.type = UINT32 → ∀ value, tag.value = .int value → value ≤ 0xFFFFFFFF

theorem back_identifier_eq_iff (identifier : TagIdentifier) :
    identifier.back = identifier ↔ ∀ text, identifier = .name text → (utf8_encode text).length ≠ 1 := by
  cases identifier with
  | name_id id => simp [TagIdentifier.back]
  | name name =>
    have hone : (∀ text, TagIdentifier.name name = .name text → (utf8_encode text).length ≠ 1) ↔
        (utf8_encode name).length ≠ 1 := by simp
    rw [hone]
    simp only [TagIdentifier.back]
    split
    · rename_i id hid
      simp [hid]
    · rename_i hmany
      refine ⟨fun _ hlength => ?_, fun _ => rfl⟩
      obtain ⟨id, hid⟩ := List.length_eq_one_iff.mp hlength
      exact hmany id hid

theorem back_value_eq_iff (tag_type : Nat) (value : TagValue) :
    value.back tag_type = value ↔
      (tag_type = STRING ∨ is_short_string tag_type → ∀ raw, value ≠ .bytes raw) ∧
        (tag_type = HASH16 → ∀ number, value ≠ .int number) := by
  cases value with
  | bytes data => simp [TagValue.back]
  | int number => simp [TagValue.back]
  | str text => simp [TagValue.back]
  | bool flag => simp [TagValue.back]
  | float32 data => simp [TagValue.back]
  | none => simp [TagValue.back]

theorem back_type_eq_iff (tag_type : Nat) (value : TagValue) :
    back_type tag_type value = normalized_type tag_type ↔
      (tag_type = UINT32 → ∀ number, value = .int number → number ≤ 0xFFFFFFFF) := by
  by_cases htext : tag_type = STRING ∨ is_short_string tag_type
  · have hword : tag_type ≠ UINT32 := by
      rintro rfl
      exact absurd htext (by decide)
    unfold back_type
    rw [if_pos htext, normalized_text htext]
    exact ⟨fun _ h => absurd h hword, fun _ => rfl⟩
  unfold back_type
  rw [if_neg htext]
  by_cases hword : tag_type = UINT32
  · subst hword
    have hnormal : normalized_type UINT32 = UINT32 := rfl
    have hkinds : ¬ (UINT32 = UINT8 ∨ UINT32 = UINT16) := by decide
    have hlong : UINT64 ≠ UINT32 := by decide
    rw [hnormal, if_neg hkinds, if_pos rfl]
    cases value with
    | int number =>
      by_cases hfits : number ≤ 0xFFFFFFFF
      · simp [hfits]
      · simp [hfits, hlong]
    | str text => simp
    | bytes data => simp
    | bool flag => simp
    | float32 data => simp
    | none => simp
  · rw [normalized_type, if_neg (not_or.mp htext).2, if_neg hword]
    exact ⟨fun _ h => absurd h hword, fun _ => rfl⟩

theorem back_eq_normalized_iff (tag : Ed2kTag) : tag.back = tag.normalized ↔ tag.Plain := by
  have hparts : tag.back = tag.normalized ↔ tag.identifier.back = tag.identifier ∧
      back_type tag.type tag.value = normalized_type tag.type ∧ tag.value.back tag.type = tag.value := by
    rw [Ed2kTag.back, Ed2kTag.normalized, Ed2kTag.mk.injEq]
  rw [hparts, back_identifier_eq_iff, back_value_eq_iff, back_type_eq_iff]
  constructor
  · rintro ⟨hname, hword, htext, hhash⟩
    exact ⟨hname, htext, hhash, hword⟩
  · rintro ⟨hname, htext, hhash, hword⟩
    exact ⟨hname, hword, htext, hhash⟩

/-- Tags that were written one after the other are read as they come back, and those that are
plain as they are but for the normalised type. -/
theorem written_tags_read_back (pack_float : TagValue → Except Exc Bytes) {tags : List Ed2kTag}
    {raws : List Bytes} (hkinds : ∀ tag ∈ tags, tag.type ≠ FLOAT32)
    (hwritten : tags.mapM (write_new_tag pack_float) = .ok raws) :
    List.Forall₂ (fun tag raw => Reads read_new_tag raw tag.back) tags raws ∧
      Reads (repeatN read_new_tag tags.length) raws.flatten (tags.map Ed2kTag.back) ∧
      ∀ tag ∈ tags, tag.back = tag.normalized ↔ tag.Plain := by
  have heach : List.Forall₂ (fun tag raw => Reads read_new_tag raw tag.back) tags raws := by
    have hraws := mapM_eq_ok_iff.mp hwritten
    clear hwritten
    induction hraws with
    | nil => exact .nil
    | cons hraw _ ih =>
      rw [List.forall_mem_cons] at hkinds
      exact .cons (reads_written_tag hkinds.1 hraw) (ih hkinds.2)
  refine ⟨heach, ?_, fun tag _ => back_eq_normalized_iff tag⟩
  clear hwritten hkinds
  induction heach with
  | nil => exact Reads.pure []
  | cons hread _ ih => exact hread.repeatN_cons ih

/-- A named integer, a short text under a `name_id` and a hash. -/
theorem written_tags_read_back_sample :
    ([⟨.name "size", UINT32, .int 300⟩, ⟨.name_id 1, STRING, .str "ab"⟩,
        ⟨.name_id 2, HASH16, .bytes (List.replicate 16 7)⟩] : List Ed2kTag).mapM
      (write_new_tag fun _ => .error .TypeError) =
        .ok [[0x08, 4, 0, 0x73, 0x69, 0x7A, 0x65, 0x2C, 1], [0x92, 1, 0x61, 0x62],
          0x81 :: 2 :: List.replicate 16 7] ∧
    Reads (repeatN read_new_tag 3)
      [0x08, 4, 0, 0x73, 0x69, 0x7A, 0x65, 0x2C, 1, 0x92, 1, 0x61, 0x62, 0x81, 2, 7, 7, 7, 7, 7, 7, 7, 7,
        7, 7, 7, 7, 7, 7, 7, 7]
      [⟨.name "size", UINT32, .int 300⟩, ⟨.name_id 1, STRING, .str "ab"⟩,
        ⟨.name_id 2, HASH16, .bytes (List.replicate 16 7)⟩] := by
  have hwritten : ([⟨.name "size", UINT32, .int 300⟩, ⟨.name_id 1, STRING, .str "ab"⟩,
      ⟨.name_id 2, HASH16, .bytes (List.replicate 16 7)⟩] : List Ed2kTag).mapM
        (write_new_tag fun _ => .error .TypeError) = .ok [[0x08, 4, 0, 0x73, 0x69, 0x7A, 0x65, 0x2C, 1],
          [0x92, 1, 0x61, 0x62], 0x81 :: 2 :: List.replicate 16 7] := by decide
  refine ⟨hwritten, ?_⟩
  exact (written_tags_read_back _ (by decide) hwritten).2.1

/-- A name of one byte does not come back as a name. -/
theorem one_byte_name_read_as_name_id :
    ¬ ∀ (pack_float : TagValue → Except Exc Bytes) (tag : Ed2kTag) (raw : Bytes), tag.type ≠ FLOAT32 →
      tag.identifier ≠ .name "" → write_new_tag pack_float tag = .ok raw →
        Reads read_new_tag raw tag.normalized := by
  intro hclaim
  have hwritten : write_new_tag (fun _ => .error .TypeError) ⟨.name "a", UINT32, .int 5⟩ =
      .ok [0x09, 1, 0, 0x61, 5] := by decide
  have hnamed := hclaim _ _ _ (by decide) (by decide) hwritten [] []
  have hback := reads_written_tag (by decide) hwritten [] []
  rw [hback] at hnamed
  have hsame := (Prod.mk.inj (Except.ok.inj hnamed)).1
  exact absurd hsame (by decide)

end Tags

end amuled
