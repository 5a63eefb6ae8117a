import Mathlib.Data.Int.Bitwise
import AmuleD.Codec.TagWriter
import AmuleD.PyStr
import AmuleD.Streams.Appending

open littleendian pystr appending

namespace amuled.atomicity

/-- The exceptions of `write_new_tag`; `raised` is one that the value itself raises. -/
inductive WriteError where
  | TagError (message : String)
  | ValueError (message : String)
  | UnicodeEncodeError
  | OverflowError
  | TypeError
  | raised (name : String)
  deriving DecidableEq

def WriteError.is_tag_error : WriteError → Prop
  | .TagError _ => True
  | _ => False

/-- A value as a tag of any type may hold it. -/
inductive PyValue (Text Object : Type) where
  | str (text : Text)
  | bytes (raw : Bytes)
  | int (value : Int)
  | bool (value : Bool)
  | object (object : Object)

/-- The `name` or the `name_id` of a tag, of which `__post_init__` lets exactly one pass. -/
inductive Identifier (Text : Type) where
  | name (name : Text)
  | name_id (name_id : UInt8)

structure Ed2kTag (Text Object : Type) where
  identifier : Identifier Text
  type : Int
  value : PyValue Text Object

/-- What Python makes of texts and values: `text.encode("utf-8")`, of which there is none where it
raises `UnicodeEncodeError`; `bytes(object)`; `struct.pack("<f", float(value))`. -/
structure Conversions (Text Object : Type) where
  encode : Text → Option Bytes
  object_bytes : Object → Except WriteError Bytes
  pack_float : PyValue Text Object → Except WriteError Bytes

variable {Text Object : Type} (python : Conversions Text Object)

abbrev TagWrite (α : Type) := Appending UInt8 WriteError α

/-- `write_u8`, `write_u16`, `write_u32` and `write_u64`. -/
def write_u (bits : Nat) (value : Int) : TagWrite Unit :=
  if 0 ≤ value ∧ value < 2 ^ bits then append (encode (bits / 8) value.toNat)
  else throw (.ValueError s!"u{bits} out of range: {value}")

def write_hash16 (digest : Bytes) : TagWrite Unit :=
  if digest.length = 16 then append digest
  else throw (.ValueError s!"hash16 must be 16 bytes, got {digest.length}")

def is_short_string (tag_type : Int) : Prop := STR1 ≤ tag_type ∧ tag_type ≤ STR16

instance (tag_type : Int) : Decidable (is_short_string tag_type) := inferInstanceAs (Decidable (_ ∧ _))

def is_string (tag_type : Int) : Prop := tag_type = STRING ∨ is_short_string tag_type

instance (tag_type : Int) : Decidable (is_string tag_type) := inferInstanceAs (Decidable (_ ∨ _))

def is_uint (tag_type : Int) : Prop :=
  tag_type = UINT8 ∨ tag_type = UINT16 ∨ tag_type = UINT32 ∨ tag_type = UINT64

instance (tag_type : Int) : Decidable (is_uint tag_type) := inferInstanceAs (Decidable (_ ∨ _))

def encoded_string : PyValue Text Object → Except WriteError Bytes
  | .str text =>
    match python.encode text with
    | some raw => .ok raw
    | none => .error (.TagError "string value is not valid Unicode")
  | .bytes raw => .ok raw
  | _ => .error (.TagError "string tag value must be str or bytes")

def narrow_int : PyValue Text Object → Except WriteError Int
  | .int value =>
    if 0 ≤ value ∧ value ≤ 0xFF then .ok UINT8
    else if value ≤ 0xFFFF then .ok UINT16
    else if value ≤ 0xFFFFFFFF then .ok UINT32
    else if value ≤ 0xFFFFFFFFFFFFFFFF then .ok UINT64
    else .error (.TagError "integer tag value exceeds UINT64")
  | _ => .error (.TagError "integer tag value must be int")

def wire_type (tag : Ed2kTag Text Object) : Except WriteError Int :=
  if is_string tag.type then
    match encoded_string python tag.value with
    | .ok raw_value => .ok (string_wire_type raw_value)
    | .error error => .error error
  else if is_uint tag.type then
    if tag.type = UINT32 then narrow_int tag.value
    else
      match narrow_int tag.value with
      | .ok _ => .ok tag.type
      | .error error => .error error
  else .ok tag.type

def write_string_value (raw_value : Bytes) (wire_type : Int) : TagWrite Unit :=
  if is_short_string wire_type then append raw_value
  else do
    write_u 16 raw_value.length
    append raw_value

def uint_bits (tag_type : Int) : Nat :=
  if tag_type = UINT8 then 8 else if tag_type = UINT16 then 16 else if tag_type = UINT32 then 32 else 64

/-- `bytes(value)`; a count that is no index of the machine overflows. -/
def bytes_of : PyValue Text Object → Except WriteError Bytes
  | .bytes raw => .ok raw
  | .int value =>
    if value < 0 then .error (.ValueError "negative count")
    else if value < 2 ^ 63 then .ok (List.replicate value.toNat 0)
    else .error .OverflowError
  | .bool value => .ok (List.replicate value.toNat 0)
  | .str _ => .error .TypeError
  | .object object => python.object_bytes object

/-- `struct.pack("<f", float(value))` where `_write_value` catches the errors of a bad value. -/
def float_bytes (value : PyValue Text Object) : Except WriteError Bytes :=
  match python.pack_float value with
  | .error .TypeError => .error (.TagError "invalid FLOAT32 tag value")
  | .error (.ValueError _) => .error (.TagError "invalid FLOAT32 tag value")
  | .error .UnicodeEncodeError => .error (.TagError "invalid FLOAT32 tag value")
  | .error .OverflowError => .error (.TagError "invalid FLOAT32 tag value")
  | .error (.TagError _) => .error (.TagError "invalid FLOAT32 tag value")
  | .error (.raised name) => .error (.raised name)
  | .ok raw => .ok raw

/-- The bytes of a `BLOB` or a `BSOB` behind their size. -/
def write_sized (bits : Nat) (type_name : String) : PyValue Text Object → TagWrite Unit
  | .bytes raw =>
    if raw.length ≥ 2 ^ bits then throw (.TagError s!"{type_name} tag value exceeds UINT{bits} size")
    else do
      write_u bits raw.length
      append raw
  | _ => throw (.TagError s!"{type_name} tag value must be bytes")

def write_value (value : PyValue Text Object) (wire_type : Int) : TagWrite Unit :=
  if is_uint wire_type then
    match value with
    | .int value => write_u (uint_bits wire_type) value
    | _ => throw (.TagError "unsigned integer tag value must be int")
  else if is_string wire_type then do
    let raw_value ← made (encoded_string python value)
    write_string_value raw_value wire_type
  else if wire_type = FLOAT32 then do
    let raw ← made (float_bytes python value)
    append raw
  else if wire_type = HASH16 then do
    let raw ← made (bytes_of python value)
    write_hash16 raw
  else if wire_type = BOOL then
    match value with
    | .bool value => write_u 8 value.toNat
    | _ => throw (.TagError "BOOL tag value must be bool")
  else if wire_type = BLOB then write_sized 32 "BLOB" value
  else if wire_type = BSOB then write_sized 8 "BSOB" value
  else throw (.TagError s!"unsupported tag type: {hex_upper 2 wire_type.toNat}")

/-- The type byte and the identifier. -/
def write_identifier (wire_type : Int) : Identifier Text → TagWrite Unit
  | .name_id id => do
    write_u 8 (wire_type.lor 0x80)
    write_u 8 id.toNat
  | .name name => do
    let encoded_name ← made <| match python.encode name with
      | some encoded_name => .ok encoded_name
      | none => .error .UnicodeEncodeError
    if encoded_name.length > 0xFFFF then throw (.TagError "tag name exceeds UINT16 length")
    else do
      write_u 8 wire_type
      write_u 16 encoded_name.length
      append encoded_name

def write_new_tag (tag : Ed2kTag Text Object) : TagWrite Unit := do
  let wire_type ← made (wire_type python tag)
  write_identifier python wire_type tag.identifier
  write_value python tag.value wire_type

section Fits

/-- How many bits the integers of a type have; the wider ones are narrowed by their value. -/
def capacity (tag_type : Int) : Nat := if tag_type = UINT8 then 8 else if tag_type = UINT16 then 16 else 64

/-- Whether the field of a type has room for a value. -/
def ValueFits (tag_type : Int) (value : PyValue Text Object) : Prop :=
  if is_uint tag_type then ∃ number, value = .int number ∧ 0 ≤ number ∧ number < 2 ^ capacity tag_type
  else if is_string tag_type then ∃ raw, encoded_string python value = .ok raw ∧ raw.length < 2 ^ 16
  else if tag_type = FLOAT32 then ∃ raw, float_bytes python value = .ok raw
  else if tag_type = HASH16 then ∃ raw, bytes_of python value = .ok raw ∧ raw.length = 16
  else if tag_type = BOOL then ∃ flag, value = .bool flag
  else if tag_type = BLOB then ∃ raw, value = .bytes raw ∧ raw.length < 2 ^ 32
  else if tag_type = BSOB then ∃ raw, value = .bytes raw ∧ raw.length < 2 ^ 8
  else False

def NameFits : Identifier Text → Prop
  | .name_id _ => True
  | .name name => ∃ encoded, python.encode name = some encoded ∧ encoded.length ≤ 0xFFFF

/-- What is refused before anything is written: a string type whose value is no text, an integer type
whose value is no integer of 64 bits, and a name that is too long. -/
def Refused (tag : Ed2kTag Text Object) : Prop :=
  (is_string tag.type ∧ ¬∃ raw, encoded_string python tag.value = .ok raw) ∨
    (is_uint tag.type ∧ ¬∃ number, tag.value = .int number ∧ number ≤ 0xFFFFFFFFFFFFFFFF) ∨
    ∃ name encoded, tag.identifier = .name name ∧ python.encode name = some encoded ∧ 0xFFFF < encoded.length

/-- The room for a value under the type on the wire. -/
def WireFits (wire_type : Int) (value : PyValue Text Object) : Prop :=
  if is_uint wire_type then ∃ number, value = .int number ∧ 0 ≤ number ∧ number < 2 ^ uint_bits wire_type
  else if is_string wire_type then
    ∃ raw, encoded_string python value = .ok raw ∧ (is_short_string wire_type ∨ raw.length < 2 ^ 16)
  else ValueFits python wire_type value

end Fits

section Outcomes

variable {python} {value : PyValue Text Object} {tag : Ed2kTag Text Object} {tag_type : Int}

theorem settles_write_u (bits : Nat) (value : Int) : Settles (write_u bits value) (0 ≤ value ∧ value < 2 ^ bits) :=
  (settles_ite (fun _ => settles_append _) fun _ => settles_throw _).congr (by
    by_cases hfits : 0 ≤ value ∧ value < 2 ^ bits <;> simp [hfits])

theorem settles_write_u_length (bits : Nat) (raw : Bytes) :
    Settles (write_u bits raw.length) (raw.length < 2 ^ bits) :=
  (settles_write_u bits raw.length).congr (by
    have hcast : (raw.length : Int) < 2 ^ bits ↔ raw.length < 2 ^ bits := by exact_mod_cast Iff.rfl
    rw [hcast]
    exact and_iff_right (Int.natCast_nonneg _))

theorem settles_write_sized (bits : Nat) (type_name : String) (value : PyValue Text Object) :
    Settles (write_sized bits type_name value) (∃ raw, value = .bytes raw ∧ raw.length < 2 ^ bits) := by
  cases value with
  | bytes raw =>
    have hwrite : Settles (do write_u bits raw.length; append raw) (raw.length < 2 ^ bits ∧ True) :=
      (settles_write_u_length bits raw).then (settles_append raw)
    refine (settles_ite (fun _ => settles_throw _) fun _ => hwrite).congr ?_
    by_cases hlong : raw.length ≥ 2 ^ bits
    · simp [hlong]
    · simp [hlong, Nat.not_le.mp hlong]
  | str text => exact (settles_throw _).congr (by simp)
  | int number => exact (settles_throw _).congr (by simp)
  | bool flag => exact (settles_throw _).congr (by simp)
  | object object => exact (settles_throw _).congr (by simp)

theorem settles_write_string_value (raw : Bytes) (wire_type : Int) :
    Settles (write_string_value raw wire_type) (is_short_string wire_type ∨ raw.length < 2 ^ 16) := by
  have hwrite : Settles (do write_u 16 raw.length; append raw) (raw.length < 2 ^ 16 ∧ True) :=
    (settles_write_u_length 16 raw).then (settles_append raw)
  refine (settles_ite (fun _ => settles_append raw) fun _ => hwrite).congr ?_
  by_cases hshort : is_short_string wire_type <;> simp [hshort]

theorem settles_write_hash16 (raw : Bytes) : Settles (write_hash16 raw) (raw.length = 16) :=
  (settles_ite (fun _ => settles_append raw) fun _ => settles_throw _).congr (by
    by_cases hlength : raw.length = 16 <;> simp [hlength])

theorem settles_write_uint_value (wire_type : Int) (value : PyValue Text Object) :
    Settles (match value with
      | .int value => write_u (uint_bits wire_type) value
      | _ => throw (.TagError "unsigned integer tag value must be int"))
      (∃ number, value = .int number ∧ 0 ≤ number ∧ number < 2 ^ uint_bits wire_type) := by
  cases value with
  | int number => exact (settles_write_u _ number).congr (by simp)
  | str text => exact (settles_throw _).congr (by simp)
  | bytes raw => exact (settles_throw _).congr (by simp)
  | bool flag => exact (settles_throw _).congr (by simp)
  | object object => exact (settles_throw _).congr (by simp)

theorem settles_write_bool_value (value : PyValue Text Object) :
    Settles (match value with
      | .bool value => write_u 8 value.toNat
      | _ => throw (.TagError "BOOL tag value must be bool")) (∃ flag, value = .bool flag) := by
  cases value with
  | bool flag => exact (settles_write_u 8 flag.toNat).congr (by cases flag <;> simp)
  | str text => exact (settles_throw _).congr (by simp)
  | bytes raw => exact (settles_throw _).congr (by simp)
  | int number => exact (settles_throw _).congr (by simp)
  | object object => exact (settles_throw _).congr (by simp)

variable (python) in
theorem settles_write_value (wire_type : Int) (value : PyValue Text Object) :
    Settles (write_value python value wire_type) (WireFits python wire_type value) := by
  unfold write_value WireFits
  refine settles_ite (fun _ => settles_write_uint_value wire_type value) fun huint => ?_
  refine settles_ite (fun _ => settles_made_bind fun raw => settles_write_string_value raw wire_type) fun htext => ?_
  unfold ValueFits
  rw [if_neg huint, if_neg htext]
  have hfloat : Settles (made (float_bytes python value) >>= append) (∃ raw, float_bytes python value = .ok raw ∧ True) :=
    settles_made_bind settles_append
  refine settles_ite (fun _ => hfloat.congr (by simp)) fun _ => ?_
  refine settles_ite (fun _ => settles_made_bind settles_write_hash16) fun _ => ?_
  refine settles_ite (fun _ => settles_write_bool_value value) fun _ => ?_
  refine settles_ite (fun _ => settles_write_sized 32 "BLOB" value) fun _ => ?_
  exact settles_ite (fun _ => settles_write_sized 8 "BSOB" value) fun _ => settles_throw _

variable (python) in
theorem encoded_string_cases (value : PyValue Text Object) :
    (∃ raw, encoded_string python value = .ok raw) ∨
      ∃ message, encoded_string python value = .error (.TagError message) := by
  cases value with
  | str text =>
    cases hencoded : python.encode text with
    | some raw => exact Or.inl ⟨raw, by rw [encoded_string, hencoded]⟩
    | none => exact Or.inr ⟨_, by rw [encoded_string, hencoded]⟩
  | bytes raw => exact Or.inl ⟨raw, rfl⟩
  | int number => exact Or.inr ⟨_, rfl⟩
  | bool flag => exact Or.inr ⟨_, rfl⟩
  | object object => exact Or.inr ⟨_, rfl⟩

variable (Text Object) in
/-- The narrow type of an integer has room for it unless the integer is negative. -/
theorem narrow_int_of_le {number : Int} (hfits : number ≤ 0xFFFFFFFFFFFFFFFF) :
    ∃ narrow, narrow_int (.int number : PyValue Text Object) = .ok narrow ∧ is_uint narrow ∧
      number < 2 ^ uint_bits narrow := by
  simp only [narrow_int]
  split_ifs with hbyte hword hdouble
  · exact ⟨UINT8, rfl, by decide, by change number < 2 ^ 8; omega⟩
  · exact ⟨UINT16, rfl, by decide, by change number < 2 ^ 16; omega⟩
  · exact ⟨UINT32, rfl, by decide, by change number < 2 ^ 32; omega⟩
  · exact ⟨UINT64, rfl, by decide, by change number < 2 ^ 64; omega⟩

theorem narrow_int_cases (value : PyValue Text Object) :
    (∃ number, value = .int number ∧ number ≤ 0xFFFFFFFFFFFFFFFF) ∨
      (¬∃ number, value = .int number ∧ number ≤ 0xFFFFFFFFFFFFFFFF) ∧
        ∃ message, narrow_int value = .error (.TagError message) := by
  cases value with
  | int number =>
    by_cases hfits : number ≤ 0xFFFFFFFFFFFFFFFF
    · exact Or.inl ⟨number, rfl, hfits⟩
    · have hbyte : ¬(0 ≤ number ∧ number ≤ 0xFF) := by omega
      have hword : ¬number ≤ 0xFFFF := by omega
      have hdouble : ¬number ≤ 0xFFFFFFFF := by omega
      refine Or.inr ⟨?_, "integer tag value exceeds UINT64", ?_⟩
      · rintro ⟨other, hother, hle⟩
        cases hother
        exact hfits hle
      · rw [narrow_int, if_neg hbyte, if_neg hword, if_neg hdouble, if_neg hfits]
  | str text => exact Or.inr ⟨by simp, _, rfl⟩
  | bytes raw => exact Or.inr ⟨by simp, _, rfl⟩
  | bool flag => exact Or.inr ⟨by simp, _, rfl⟩
  | object object => exact Or.inr ⟨by simp, _, rfl⟩

theorem not_uint_of_string (hstring : is_string tag_type) : ¬is_uint tag_type := by
  simp only [is_string, is_short_string, is_uint, STRING, STR1, STR16, UINT8, UINT16, UINT32, UINT64] at *
  omega

theorem string_wire_type_is_string (raw : Bytes) : is_string (string_wire_type raw) := by
  unfold string_wire_type
  split_ifs with hshort
  · simp only [is_string, is_short_string, STRING, STR1, STR16]
    omega
  · exact Or.inl rfl

theorem string_wire_fits_iff (raw : Bytes) :
    is_short_string (string_wire_type raw) ∨ raw.length < 2 ^ 16 ↔ raw.length < 2 ^ 16 := by
  unfold string_wire_type
  split_ifs with hshort
  · constructor
    · intro _
      omega
    · exact Or.inr
  · have hlong : ¬is_short_string (STRING : Nat) := by decide
    simp only [hlong, false_or]

theorem string_fits_iff {raw : Bytes} (hstring : is_string tag_type) (hraw : encoded_string python value = .ok raw) :
    WireFits python (string_wire_type raw) value ↔ ValueFits python tag_type value := by
  have hwire := string_wire_type_is_string raw
  rw [WireFits, if_neg (not_uint_of_string hwire), if_pos hwire, ValueFits, if_neg (not_uint_of_string hstring),
    if_pos hstring, hraw]
  simp only [Except.ok.injEq, exists_eq_left', string_wire_fits_iff]

theorem uint_fits_iff {number : Int} {wire : Int} (huint : is_uint tag_type) (hwire : is_uint wire)
    (hroom : 0 ≤ number → (number < 2 ^ uint_bits wire ↔ number < 2 ^ capacity tag_type)) :
    WireFits python wire (.int number) ↔ ValueFits python tag_type (.int number) := by
  rw [WireFits, if_pos hwire, ValueFits, if_pos huint]
  simp only [PyValue.int.injEq, exists_eq_left']
  exact and_congr_right hroom

variable (python) in
/-- The type on the wire is found, or the value is refused with a `TagError`. -/
theorem wire_type_cases (tag : Ed2kTag Text Object) :
    (∃ message, wire_type python tag = .error (.TagError message) ∧
      ((is_string tag.type ∧ ¬∃ raw, encoded_string python tag.value = .ok raw) ∨
        is_uint tag.type ∧ ¬∃ number, tag.value = .int number ∧ number ≤ 0xFFFFFFFFFFFFFFFF)) ∨
      (∃ wire, wire_type python tag = .ok wire ∧
        (WireFits python wire tag.value ↔ ValueFits python tag.type tag.value)) ∧
      (is_string tag.type → ∃ raw, encoded_string python tag.value = .ok raw) ∧
      (is_uint tag.type → ∃ number, tag.value = .int number ∧ number ≤ 0xFFFFFFFFFFFFFFFF) := by
  unfold wire_type
  by_cases hstring : is_string tag.type
  · have huint := not_uint_of_string hstring
    rcases encoded_string_cases python tag.value with ⟨raw, hraw⟩ | ⟨message, hraw⟩
    · exact Or.inr ⟨⟨string_wire_type raw, by simp only [if_pos hstring, hraw], string_fits_iff hstring hraw⟩,
        fun _ => ⟨raw, hraw⟩, fun h => absurd h huint⟩
    · refine Or.inl ⟨message, by simp only [if_pos hstring, hraw], Or.inl ⟨hstring, ?_⟩⟩
      rintro ⟨raw, hok⟩
      rw [hraw] at hok
      cases hok
  by_cases huint : is_uint tag.type
  · rcases narrow_int_cases tag.value with ⟨number, hvalue, hfits⟩ | ⟨hnot, message, hmessage⟩
    · obtain ⟨narrow, hnarrow, hnarrow_uint, hroom⟩ := narrow_int_of_le Text Object hfits
      refine Or.inr ⟨?_, fun h => absurd h hstring, fun _ => ⟨number, hvalue, hfits⟩⟩
      rw [if_neg hstring, if_pos huint, hvalue]
      by_cases hword : tag.type = UINT32
      · refine ⟨narrow, by rw [if_pos hword, hnarrow], uint_fits_iff huint hnarrow_uint fun _ => ?_⟩
        have hcapacity : capacity tag.type = 64 := by rw [hword]; rfl
        rw [hcapacity]
        constructor
        · intro _
          omega
        · exact fun _ => hroom
      · refine ⟨tag.type, by simp only [if_neg hword, hnarrow], uint_fits_iff huint huint fun _ => ?_⟩
        rw [uint_bits, if_neg hword, capacity]
    · refine Or.inl ⟨message, ?_, Or.inr ⟨huint, hnot⟩⟩
      simp only [if_neg hstring, if_pos huint, hmessage, ite_self]
  · refine Or.inr ⟨⟨tag.type, by simp only [if_neg hstring, if_neg huint], ?_⟩, fun h => absurd h hstring,
      fun h => absurd h huint⟩
    rw [WireFits, if_neg huint, if_neg hstring]

/-- A type whose field has room for a value fits the type byte, with and without its high bit. -/
theorem type_byte_of_fits (hfits : WireFits python tag_type value) :
    (0 ≤ tag_type ∧ tag_type < 2 ^ 8) ∧ 0 ≤ tag_type.lor 0x80 ∧ tag_type.lor 0x80 < 2 ^ 8 := by
  have hrange : 0 ≤ tag_type ∧ tag_type < 2 ^ 8 := by
    unfold WireFits ValueFits at hfits
    split_ifs at hfits <;>
      simp only [is_uint, is_string, is_short_string, STRING, STR1, STR16, UINT8, UINT16, UINT32, UINT64, FLOAT32,
        HASH16, BOOL, BLOB, BSOB] at * <;> omega
  obtain ⟨byte, rfl⟩ := Int.eq_ofNat_of_zero_le hrange.1
  have hbyte : byte < 2 ^ 8 := by omega
  have hor : byte ||| 0x80 < 2 ^ 8 := Nat.or_lt_two_pow hbyte (by decide)
  refine ⟨hrange, Int.natCast_nonneg (byte ||| 0x80), ?_⟩
  change ((byte ||| 0x80 : Nat) : Int) < 2 ^ 8
  exact_mod_cast hor

theorem appends_write_u {bits : Nat} {number : Int} (hfits : 0 ≤ number ∧ number < 2 ^ bits) :
    Appends (write_u bits number) (encode (bits / 8) number.toNat) := by
  rw [write_u, if_pos hfits]
  exact appends_append _

theorem stops_write_u {bits : Nat} {number : Int} (hfits : ¬(0 ≤ number ∧ number < 2 ^ bits)) :
    Stops (write_u bits number) (.ValueError s!"u{bits} out of range: {number}") [] := by
  rw [write_u, if_neg hfits]
  exact stops_throw _

/-- What an identifier does once its name has been encoded: it is written, or the type does not fit its byte. -/
def HeadWritten (code : TagWrite Unit) (byte : Int) : Prop :=
  (0 ≤ byte ∧ byte < 2 ^ 8 ∧ ∃ head, head ≠ [] ∧ Appends code head) ∨
    ¬(0 ≤ byte ∧ byte < 2 ^ 8) ∧ ∃ message, Stops code (.ValueError message) []

theorem head_written {code : TagWrite Unit} {rest : Bytes} {byte : Int} (hcode : Appends code rest) :
    HeadWritten (do write_u 8 byte; code) byte := by
  by_cases hbyte : 0 ≤ byte ∧ byte < 2 ^ 8
  · refine Or.inl ⟨hbyte.1, hbyte.2, _, ?_, (appends_write_u hbyte).then hcode⟩
    exact List.append_ne_nil_of_left_ne_nil (List.cons_ne_nil _ _) rest
  · exact Or.inr ⟨hbyte, _, (stops_write_u hbyte).then⟩

/-- Behind an identifier, which has left something in the buffer, only a value that fits is atomic. -/
theorem atomic_behind_head {code : TagWrite Unit} {byte wire : Int} (hhead : HeadWritten code byte)
    (hbyte : WireFits python wire value → 0 ≤ byte ∧ byte < 2 ^ 8) :
    Atomic WriteError.is_tag_error (do code; write_value python value wire) ↔ WireFits python wire value := by
  have hvalue := settles_write_value python wire value
  rcases hhead with ⟨_, _, head, hne, happends⟩ | ⟨hwide, message, hstops⟩
  · constructor
    · intro hatomic
      by_contra hnot
      obtain ⟨error, piece, hpiece⟩ := hvalue.stops hnot
      have hempty := ((happends.then_stops hpiece).atomic_iff.mp hatomic).1
      exact hne (List.append_eq_nil_iff.mp hempty).1
    · intro hfits
      obtain ⟨piece, hpiece⟩ := hvalue.appends hfits
      exact (happends.then hpiece).atomic
  · constructor
    · intro hatomic
      exact absurd (hstops.then.atomic_iff.mp hatomic).2 id
    · intro hfits
      exact absurd (hbyte hfits) hwide

theorem appends_write_u_length {raw : Bytes} (hfits : raw.length ≤ 0xFFFF) :
    Appends (write_u 16 raw.length) (encode 2 raw.length) := by
  have hrange : (0 : Int) ≤ raw.length ∧ (raw.length : Int) < 2 ^ 16 := by omega
  exact appends_write_u hrange

theorem write_new_tag_of_wire_type (wire : Int) (hwire : wire_type python tag = .ok wire) :
    write_new_tag python tag =
      (do write_identifier python wire tag.identifier; write_value python tag.value wire) := by
  rw [write_new_tag, hwire, made_ok_bind]

end Outcomes

theorem atomic_iff (python : Conversions Text Object) (tag : Ed2kTag Text Object) :
    Atomic WriteError.is_tag_error (write_new_tag python tag) ↔
      Refused python tag ∨ (NameFits python tag.identifier ∧ ValueFits python tag.type tag.value) := by
  rcases wire_type_cases python tag with ⟨message, herror, hrefused⟩ | ⟨⟨wire, hwire, hfits⟩, htext, hnumber⟩
  · have hstops : Stops (write_new_tag python tag) (.TagError message) [] := by
      rw [write_new_tag, herror]
      exact stops_made_error_bind _ _
    refine iff_of_true (hstops.atomic_iff.mpr ⟨rfl, trivial⟩) (Or.inl ?_)
    exact hrefused.imp_right Or.inl
  have hlate : Refused python tag ↔
      ∃ name encoded, tag.identifier = .name name ∧ python.encode name = some encoded ∧ 0xFFFF < encoded.length := by
    constructor
    · rintro (⟨hstring, hnot⟩ | ⟨huint, hnot⟩ | hname)
      · exact absurd (htext hstring) hnot
      · exact absurd (hnumber huint) hnot
      · exact hname
    · exact fun hname => Or.inr (Or.inr hname)
  rw [hlate, ← hfits, write_new_tag_of_wire_type wire hwire]
  cases hidentifier : tag.identifier with
  | name_id id =>
    have hid : (0 : Int) ≤ id.toNat ∧ (id.toNat : Int) < 2 ^ 8 := ⟨by omega, by have := id.toNat_lt; omega⟩
    have hhead : HeadWritten (write_identifier python wire (.name_id id)) (wire.lor 0x80) :=
      head_written (appends_write_u hid)
    rw [atomic_behind_head hhead fun h => (type_byte_of_fits h).2]
    simp [NameFits]
  | name name =>
    cases hencoded : python.encode name with
    | none =>
      have hstops : Stops (write_identifier python wire (.name name)) .UnicodeEncodeError [] := by
        simp only [write_identifier, hencoded]
        exact stops_made_error_bind _ _
      rw [hstops.then.atomic_iff]
      simp [WriteError.is_tag_error, NameFits, hencoded]
    | some encoded =>
      by_cases hlong : 0xFFFF < encoded.length
      · have hstops : Stops (write_identifier python wire (.name name)) (.TagError "tag name exceeds UINT16 length") [] := by
          simp only [write_identifier, hencoded, made_ok_bind, if_pos hlong]
          exact stops_throw _
        rw [hstops.then.atomic_iff]
        simp [WriteError.is_tag_error, hencoded, hlong]
      · have hhead : HeadWritten (write_identifier python wire (.name name)) wire := by
          simp only [write_identifier, hencoded, made_ok_bind, if_neg hlong]
          exact head_written ((appends_write_u_length (Nat.not_lt.mp hlong)).then (appends_append encoded))
        rw [atomic_behind_head hhead fun h => (type_byte_of_fits h).1]
        simp [NameFits, hencoded, hlong, Nat.not_lt.mp hlong]

section Mirror

/-- The code appends what a writer without a buffer returns, and raises where that one does. -/
structure Mirrors (code : TagWrite Unit) (written : Except Exc Bytes) : Prop where
  appends : ∀ piece, written = .ok piece → Appends code piece
  stops : ∀ exc, written = .error exc → ∃ error piece, Stops code error piece

theorem Mirrors.appends_iff {code : TagWrite Unit} {written : Except Exc Bytes} (hcode : Mirrors code written)
    (piece : Bytes) : Appends code piece ↔ written = .ok piece := by
  constructor
  · intro happends
    cases hwritten : written with
    | ok piece' =>
      have hsame := (hcode.appends piece' hwritten []).symm.trans (happends [])
      rw [Prod.mk.injEq, List.nil_append, List.nil_append] at hsame
      rw [hsame.2]
    | error exc =>
      obtain ⟨error, front, hstops⟩ := hcode.stops exc hwritten
      have hsame := (hstops []).symm.trans (happends [])
      exact absurd (Prod.mk.inj hsame).1 (by simp)
  · exact hcode.appends piece

theorem mirrors_append (piece : Bytes) : Mirrors (append piece) (.ok piece) where
  appends _ hpiece := Except.ok.inj hpiece ▸ appends_append piece
  stops _ hexc := absurd hexc (by simp)

theorem mirrors_of_stops {code : TagWrite Unit} {error : WriteError} {piece : Bytes} (hstops : Stops code error piece)
    (exc : Exc) : Mirrors code (.error exc) where
  appends _ hpiece := absurd hpiece (by simp)
  stops _ _ := ⟨error, piece, hstops⟩

theorem mirrors_throw (error : WriteError) (exc : Exc) : Mirrors (throw error) (.error exc) :=
  mirrors_of_stops (stops_throw error) exc

theorem Mirrors.then {code next : TagWrite Unit} {first second : Except Exc Bytes}
    (hcode : Mirrors code first) (hnext : Mirrors next second) :
    Mirrors (code >>= fun _ => next) (do let front ← first; let back ← second; .ok (front ++ back)) := by
  cases first with
  | error exc =>
    obtain ⟨error, piece, hstops⟩ := hcode.stops exc rfl
    exact mirrors_of_stops hstops.then exc
  | ok front =>
    have hfront := hcode.appends front rfl
    cases second with
    | error exc =>
      obtain ⟨error, piece, hstops⟩ := hnext.stops exc rfl
      exact mirrors_of_stops (hfront.then_stops hstops) exc
    | ok back =>
      refine ⟨fun piece hpiece => ?_, fun _ hexc => absurd hexc (by simp)⟩
      rw [ok_bind, ok_bind, Except.ok.injEq] at hpiece
      exact hpiece ▸ hfront.then (hnext.appends back rfl)

theorem mirrors_ite {condition condition' : Prop} [Decidable condition] [Decidable condition']
    {code code' : TagWrite Unit} {first second : Except Exc Bytes} (hiff : condition ↔ condition')
    (hcode : condition → Mirrors code first) (hcode' : ¬condition → Mirrors code' second) :
    Mirrors (if condition then code else code') (if condition' then first else second) := by
  by_cases hcondition : condition
  · rw [if_pos hcondition, if_pos (hiff.mp hcondition)]
    exact hcode hcondition
  · rw [if_neg hcondition, if_neg fun h => hcondition (hiff.mpr h)]
    exact hcode' hcondition

/-- Values that are made alike: the same one, or an error on both sides. -/
def SameMade {β : Type} (value : Except WriteError β) (value' : Except Exc β) : Prop :=
  (∃ b, value = .ok b ∧ value' = .ok b) ∨ ∃ error exc, value = .error error ∧ value' = .error exc

theorem SameMade.mirrors {β : Type} {value : Except WriteError β} {value' : Except Exc β} {next : β → TagWrite Unit}
    {next' : β → Except Exc Bytes} (hmade : SameMade value value') (hnext : ∀ b, Mirrors (next b) (next' b)) :
    Mirrors (made value >>= next) (value' >>= next') := by
  rcases hmade with ⟨b, rfl, rfl⟩ | ⟨error, exc, rfl, rfl⟩
  · exact hnext b
  · exact mirrors_of_stops (stops_made_error_bind error next) exc

theorem mirrors_write_u (bits : Nat) (number : Int) : Mirrors (write_u bits number) (write_int bits number) := by
  rw [write_u, write_int]
  by_cases hnonneg : 0 ≤ number
  · obtain ⟨n, rfl⟩ := Int.eq_ofNat_of_zero_le hnonneg
    have hcast : (n : Int) < 2 ^ bits ↔ n < 2 ^ bits := by exact_mod_cast Iff.rfl
    rw [if_pos hnonneg, write_uint, Int.toNat_natCast]
    exact mirrors_ite (by simp [hcast]) (fun _ => mirrors_append _) fun _ => mirrors_throw _ _
  · rw [if_neg hnonneg, if_neg fun h => hnonneg h.1]
    exact mirrors_throw _ _

theorem mirrors_write_u_nat (bits number : Nat) : Mirrors (write_u bits number) (write_uint bits number) := by
  have hmirror := mirrors_write_u bits number
  rwa [write_int, if_pos (Int.natCast_nonneg number), Int.toNat_natCast] at hmirror

/-- The text, bytes and numbers of a tag that was modelled without a buffer. -/
def of_value : TagValue → PyValue String TagValue
  | .str text => .str text
  | .bytes raw => .bytes raw
  | .int value => .int value
  | .bool value => .bool value
  | value => .object value

def to_value : PyValue String TagValue → TagValue
  | .str text => .str text
  | .bytes raw => .bytes raw
  | .int value => .int value
  | .bool value => .bool value
  | .object value => value

@[simp] theorem to_of_value (value : TagValue) : to_value (of_value value) = value := by
  cases value <;> rfl

def of_identifier : TagIdentifier → Identifier String
  | .name name => .name name
  | .name_id id => .name_id id

def of_tag (tag : amuled.Ed2kTag) : Ed2kTag String TagValue :=
  ⟨of_identifier tag.identifier, tag.type, of_value tag.value⟩

def of_texts (pack_float : TagValue → Except Exc Bytes) : Conversions String TagValue where
  encode text := some (utf8_encode text)
  object_bytes _ := .error .TypeError
  pack_float value :=
    match pack_float (to_value value) with
    | .ok raw => .ok raw
    | .error _ => .error .TypeError

theorem mirrors_behind_length (bits : Nat) (raw : Bytes) :
    Mirrors (do write_u bits raw.length; append raw)
      (do let length ← write_uint bits raw.length; .ok (length ++ raw)) := by
  have hmirror : Mirrors (do write_u bits raw.length; append raw)
      (do let length ← write_uint bits raw.length; let back ← (.ok raw : Except Exc Bytes); .ok (length ++ back)) :=
    (mirrors_write_u_nat bits raw.length).then (mirrors_append raw)
  exact hmirror

theorem is_short_string_cast {tag_type : Nat} : is_short_string (tag_type : Int) ↔ amuled.is_short_string tag_type := by
  simp only [is_short_string, amuled.is_short_string, Nat.cast_le]

theorem is_string_cast {tag_type : Nat} :
    is_string (tag_type : Int) ↔ tag_type = STRING ∨ amuled.is_short_string tag_type := by
  rw [is_string, Nat.cast_inj, is_short_string_cast]

theorem is_uint_cast {tag_type : Nat} : is_uint (tag_type : Int) ↔ amuled.is_uint tag_type := by
  simp only [is_uint, amuled.is_uint, Nat.cast_inj]

theorem uint_bits_cast (tag_type : Nat) : uint_bits (tag_type : Int) = amuled.uint_bits tag_type := by
  simp only [uint_bits, amuled.uint_bits, Nat.cast_inj]

variable {pack_float : TagValue → Except Exc Bytes}

variable (pack_float) in
theorem encoded_string_made (value : TagValue) :
    SameMade (encoded_string (of_texts pack_float) (of_value value)) (amuled.encoded_string value) := by
  cases value with
  | str text => exact Or.inl ⟨utf8_encode text, rfl, rfl⟩
  | bytes raw => exact Or.inl ⟨raw, rfl, rfl⟩
  | int number => exact Or.inr ⟨_, _, rfl, rfl⟩
  | bool flag => exact Or.inr ⟨_, _, rfl, rfl⟩
  | float32 raw => exact Or.inr ⟨_, _, rfl, rfl⟩
  | none => exact Or.inr ⟨_, _, rfl, rfl⟩

theorem mirrors_string_value (raw : Bytes) (tag_type : Nat) :
    Mirrors (write_string_value raw tag_type) (amuled.write_string_value raw tag_type) :=
  mirrors_ite is_short_string_cast (fun _ => mirrors_append raw) fun _ => mirrors_behind_length 16 raw

theorem mirrors_sized (bits : Nat) (type_name : String) (value : TagValue) :
    Mirrors (write_sized bits type_name (of_value value)) (amuled.write_sized bits type_name value) := by
  cases value with
  | bytes raw => exact mirrors_ite Iff.rfl (fun _ => mirrors_throw _ _) fun _ => mirrors_behind_length bits raw
  | str text => exact mirrors_throw _ _
  | int number => exact mirrors_throw _ _
  | bool flag => exact mirrors_throw _ _
  | float32 raw => exact mirrors_throw _ _
  | none => exact mirrors_throw _ _

theorem mirrors_hash (raw : Bytes) : Mirrors (write_hash16 raw) (amuled.write_hash16 raw) :=
  mirrors_ite Iff.rfl (fun _ => mirrors_append raw) fun _ => mirrors_throw _ _

/-- A count of zero bytes is no hash where it is made nor where it overflows. -/
theorem mirrors_hash_value (value : TagValue) :
    Mirrors (do let raw ← made (bytes_of (of_texts pack_float) (of_value value)); write_hash16 raw)
      (do let raw ← amuled.bytes_of value; amuled.write_hash16 raw) := by
  cases value with
  | int number =>
    by_cases hnegative : number < 0
    · have hmade : SameMade (bytes_of (of_texts pack_float) (of_value (.int number))) (amuled.bytes_of (.int number)) := by
        refine Or.inr ⟨.ValueError "negative count", .ValueError "negative count", ?_, ?_⟩
        · simp only [of_value, bytes_of, if_pos hnegative]
        · simp only [amuled.bytes_of, if_neg (Int.not_le.mpr hnegative)]
      exact hmade.mirrors mirrors_hash
    · have hold : amuled.bytes_of (.int number) = .ok (List.replicate number.toNat 0) := by
        simp only [amuled.bytes_of, if_pos (Int.not_lt.mp hnegative)]
      by_cases hindex : number < 2 ^ 63
      · have hmade : SameMade (bytes_of (of_texts pack_float) (of_value (.int number))) (amuled.bytes_of (.int number)) := by
          refine Or.inl ⟨List.replicate number.toNat 0, ?_, hold⟩
          simp only [of_value, bytes_of, if_neg hnegative, if_pos hindex]
        exact hmade.mirrors mirrors_hash
      · have hlength : (List.replicate number.toNat (0 : UInt8)).length ≠ 16 := by
          rw [List.length_replicate]
          omega
        rw [hold, ok_bind, amuled.write_hash16, if_neg hlength]
        simp only [of_value, bytes_of, if_neg hnegative, if_neg hindex]
        exact mirrors_of_stops (stops_made_error_bind _ _) _
  | bytes raw => exact SameMade.mirrors (Or.inl ⟨raw, rfl, rfl⟩) mirrors_hash
  | bool flag => exact SameMade.mirrors (Or.inl ⟨_, rfl, rfl⟩) mirrors_hash
  | str text => exact SameMade.mirrors (Or.inr ⟨_, _, rfl, rfl⟩) mirrors_hash
  | float32 raw => exact SameMade.mirrors (Or.inr ⟨_, _, rfl, rfl⟩) mirrors_hash
  | none => exact SameMade.mirrors (Or.inr ⟨_, _, rfl, rfl⟩) mirrors_hash

theorem mirrors_float_value (value : TagValue) :
    Mirrors (do let raw ← made (float_bytes (of_texts pack_float) (of_value value)); append raw) (pack_float value) := by
  cases hpacked : pack_float value with
  | ok raw =>
    have hfloat : float_bytes (of_texts pack_float) (of_value value) = .ok raw := by
      simp only [float_bytes, of_texts, to_of_value, hpacked]
    rw [hfloat]
    exact mirrors_append raw
  | error exc =>
    have hfloat : float_bytes (of_texts pack_float) (of_value value) = .error (.TagError "invalid FLOAT32 tag value") := by
      simp only [float_bytes, of_texts, to_of_value, hpacked]
    rw [hfloat]
    exact mirrors_of_stops (stops_made_error_bind _ _) _

theorem mirrors_value (value : TagValue) (tag_type : Nat) :
    Mirrors (write_value (of_texts pack_float) (of_value value) tag_type)
      (amuled.write_value pack_float value tag_type) := by
  unfold write_value amuled.write_value
  refine mirrors_ite is_uint_cast (fun _ => ?_) fun _ => ?_
  · cases value with
    | int number =>
      rw [uint_bits_cast]
      exact mirrors_write_u _ number
    | str _ | bytes _ | bool _ | float32 _ | none => exact mirrors_throw _ _
  refine mirrors_ite is_string_cast (fun _ => (encoded_string_made pack_float value).mirrors fun raw =>
    mirrors_string_value raw tag_type) fun _ => ?_
  refine mirrors_ite Nat.cast_inj (fun _ => mirrors_float_value value) fun _ => ?_
  refine mirrors_ite Nat.cast_inj (fun _ => mirrors_hash_value value) fun _ => ?_
  refine mirrors_ite Nat.cast_inj (fun _ => ?_) fun _ => ?_
  · cases value with
    | bool flag => exact mirrors_write_u_nat 8 flag.toNat
    | str _ | bytes _ | int _ | float32 _ | none => exact mirrors_throw _ _
  refine mirrors_ite Nat.cast_inj (fun _ => mirrors_sized 32 "BLOB" value) fun _ => ?_
  exact mirrors_ite Nat.cast_inj (fun _ => mirrors_sized 8 "BSOB" value) fun _ => mirrors_throw _ _

theorem mirrors_identifier (tag_type : Nat) (identifier : TagIdentifier) :
    Mirrors (write_identifier (of_texts pack_float) tag_type (of_identifier identifier))
      (amuled.write_identifier tag_type identifier) := by
  cases identifier with
  | name_id id =>
    have hid : Mirrors (write_u 8 (id.toNat : Int)) (.ok [id]) := by
      have hmirror := mirrors_write_u_nat 8 id.toNat
      have hbyte : write_uint 8 id.toNat = .ok [id] := by
        rw [write_uint, if_pos id.toNat_lt]
        simp [encode]
      rwa [hbyte] at hmirror
    have hflag : (tag_type : Int).lor 0x80 = ((tag_type ||| 0x80 : Nat) : Int) := rfl
    simp only [of_identifier, write_identifier, hflag]
    exact (mirrors_write_u_nat 8 (tag_type ||| 0x80)).then hid
  | name name =>
    refine mirrors_ite Iff.rfl (fun _ => mirrors_throw _ _) fun _ => ?_
    have hmirror := (mirrors_write_u_nat 8 tag_type).then (mirrors_behind_length 16 (utf8_encode name))
    simpa only [bind_assoc, ok_bind, write_u16] using hmirror

/-- Types on the wire that agree, or an error on both sides. -/
def SameType (wire : Except WriteError Int) (wire' : Except Exc Nat) : Prop :=
  (∃ type : Nat, wire = .ok type ∧ wire' = .ok type) ∨ ∃ error exc, wire = .error error ∧ wire' = .error exc

theorem narrow_int_same (value : TagValue) : SameType (narrow_int (of_value value)) (amuled.narrow_int value) := by
  cases value with
  | int number =>
    simp only [of_value, narrow_int, amuled.narrow_int]
    split_ifs
    · exact Or.inl ⟨UINT8, rfl, rfl⟩
    · exact Or.inl ⟨UINT16, rfl, rfl⟩
    · exact Or.inl ⟨UINT32, rfl, rfl⟩
    · exact Or.inl ⟨UINT64, rfl, rfl⟩
    · exact Or.inr ⟨_, _, rfl, rfl⟩
  | str _ | bytes _ | bool _ | float32 _ | none => exact Or.inr ⟨_, _, rfl, rfl⟩

variable (pack_float) in
theorem wire_type_same (tag : amuled.Ed2kTag) :
    SameType (wire_type (of_texts pack_float) (of_tag tag)) (amuled.wire_type tag) := by
  simp only [wire_type, amuled.wire_type, of_tag, is_string_cast, is_uint_cast, Nat.cast_inj]
  by_cases hstring : tag.type = STRING ∨ amuled.is_short_string tag.type
  · simp only [if_pos hstring]
    rcases encoded_string_made pack_float tag.value with ⟨raw, hnew, hold⟩ | ⟨error, exc, hnew, hold⟩
    · exact Or.inl ⟨string_wire_type raw, by simp only [hnew], by rw [hold, ok_bind]⟩
    · exact Or.inr ⟨error, exc, by simp only [hnew], by rw [hold, error_bind]⟩
  simp only [if_neg hstring]
  by_cases huint : amuled.is_uint tag.type
  · simp only [if_pos huint]
    by_cases hword : tag.type = UINT32
    · simp only [if_pos hword]
      exact narrow_int_same tag.value
    · simp only [if_neg hword]
      rcases narrow_int_same tag.value with ⟨narrow, hnew, hold⟩ | ⟨error, exc, hnew, hold⟩
      · exact Or.inl ⟨tag.type, by simp only [hnew], by rw [hold, ok_bind]⟩
      · exact Or.inr ⟨error, exc, by simp only [hnew], by rw [hold, error_bind]⟩
  · simp only [if_neg huint]
    exact Or.inl ⟨tag.type, rfl, rfl⟩

/-- What is appended for a tag is what the writer without a buffer makes of it. -/
theorem appends_iff_written (pack_float : TagValue → Except Exc Bytes) (tag : amuled.Ed2kTag) (piece : Bytes) :
    Appends (write_new_tag (of_texts pack_float) (of_tag tag)) piece ↔
      amuled.write_new_tag pack_float tag = .ok piece := by
  apply Mirrors.appends_iff
  rcases wire_type_same pack_float tag with ⟨type, hnew, hold⟩ | ⟨error, exc, hnew, hold⟩
  · rw [write_new_tag_of_wire_type type hnew, amuled.write_new_tag, hold, ok_bind]
    exact (mirrors_identifier type tag.identifier).then (mirrors_value tag.value type)
  · rw [write_new_tag, hnew, amuled.write_new_tag, hold, error_bind]
    exact mirrors_of_stops (stops_made_error_bind error _) exc

end Mirror

/-- Strings with their surrogates, which UTF-8 does not encode. -/
def of_strings (object_bytes : Object → Except WriteError Bytes)
    (pack_float : PyValue PyStr Object → Except WriteError Bytes) : Conversions PyStr Object :=
  ⟨utf8.encode, object_bytes, pack_float⟩

/-- A tag is written in full or not at all exactly where it is refused at once or where its name and
its value have their room. -/
theorem write_new_tag_atomic_iff (object_bytes : Object → Except WriteError Bytes)
    (pack_float : PyValue PyStr Object → Except WriteError Bytes) (tag : Ed2kTag PyStr Object) :
    Atomic WriteError.is_tag_error (write_new_tag (of_strings object_bytes pack_float) tag) ↔
      Refused (of_strings object_bytes pack_float) tag ∨
        (NameFits (of_strings object_bytes pack_float) tag.identifier ∧
          ValueFits (of_strings object_bytes pack_float) tag.type tag.value) :=
  atomic_iff _ tag

/-- Strings without other objects. -/
def plain : Conversions PyStr Empty := of_strings Empty.elim fun _ => .error .TypeError

/-- An integer beyond its type, a type without a writer and a name with a surrogate. -/
theorem write_new_tag_not_atomic :
    (¬∀ tag : Ed2kTag PyStr Empty, Atomic WriteError.is_tag_error (write_new_tag plain tag)) ∧
      (∃ message, Stops (write_new_tag plain ⟨.name_id 1, UINT8, .int 300⟩) (.ValueError message) ([0x89] ++ [1])) ∧
      (∃ message, Stops (write_new_tag plain ⟨.name_id 1, BOOLARRAY, .int 0⟩) (.TagError message) ([0x86] ++ [1])) ∧
      Stops (write_new_tag plain ⟨.name [0xD800], UINT8, .int 0⟩) .UnicodeEncodeError [] := by
  have hid : Appends (write_u 8 ((1 : UInt8).toNat : Int)) [1] := appends_write_u (by decide)
  have hwide : ∃ message,
      Stops (write_new_tag plain ⟨.name_id 1, UINT8, .int 300⟩) (.ValueError message) ([0x89] ++ [1]) := by
    have hbyte : Appends (write_u 8 ((UINT8 : Int).lor 0x80)) [0x89] := appends_write_u (by decide)
    have hhead : Appends (write_identifier plain UINT8 (.name_id 1)) ([0x89] ++ [1]) := hbyte.then hid
    have hrange : ¬((0 : Int) ≤ 300 ∧ (300 : Int) < 2 ^ 8) := by decide
    have hvalue : Stops (write_value plain (.int 300) UINT8) (.ValueError s!"u{8} out of range: {(300 : Int)}") [] :=
      stops_write_u hrange
    refine ⟨s!"u{8} out of range: {(300 : Int)}", ?_⟩
    rw [write_new_tag_of_wire_type UINT8 rfl]
    exact hhead.then_stops hvalue
  have hunknown : ∃ message,
      Stops (write_new_tag plain ⟨.name_id 1, BOOLARRAY, .int 0⟩) (.TagError message) ([0x86] ++ [1]) := by
    have hbyte : Appends (write_u 8 ((BOOLARRAY : Int).lor 0x80)) [0x86] := appends_write_u (by decide)
    have hhead : Appends (write_identifier plain BOOLARRAY (.name_id 1)) ([0x86] ++ [1]) := hbyte.then hid
    refine ⟨s!"unsupported tag type: {hex_upper 2 (BOOLARRAY : Int).toNat}", ?_⟩
    rw [write_new_tag_of_wire_type BOOLARRAY rfl]
    exact hhead.then_stops (stops_throw _)
  have hname : Stops (write_new_tag plain ⟨.name [0xD800], UINT8, .int 0⟩) .UnicodeEncodeError [] := by
    rw [write_new_tag_of_wire_type UINT8 rfl]
    exact (stops_made_error_bind WriteError.UnicodeEncodeError _).then
  refine ⟨?_, hwide, hunknown, hname⟩
  intro hclaim
  obtain ⟨message, hstops⟩ := hwide
  have hempty := (hstops.atomic_iff.mp (hclaim _)).1
  cases hempty
end amuled.atomicity
