import AmuleD.Codec.Struct
import AmuleD.Streams.Cursor

open littleendian cursor

namespace amuled.kad

def TAGTYPE_HASH : UInt8 := 0x01

def TAGTYPE_STRING : UInt8 := 0x02

def TAGTYPE_UINT32 : UInt8 := 0x03

def TAGTYPE_FLOAT32 : UInt8 := 0x04

def TAGTYPE_BOOL : UInt8 := 0x05

def TAGTYPE_UINT16 : UInt8 := 0x08

def TAGTYPE_UINT8 : UInt8 := 0x09

def TAGTYPE_BSOB : UInt8 := 0x0A

def TAGTYPE_UINT64 : UInt8 := 0x0B

def TAGNAME_FILENAME : Bytes := [0x01]

def TAGNAME_FILESIZE : Bytes := [0x02]

def TAGNAME_SOURCES : Bytes := [0x15]

/-- The value of a Kad tag with its type. A float keeps the bytes that it stands for. -/
inductive KadValue where
  | hash (raw : Bytes)
  | string (text : String)
  | uint64 (value : Nat)
  | uint32 (value : Nat)
  | uint16 (value : Nat)
  | uint8 (value : Nat)
  | float32 (raw : Bytes)
  | bsob (raw : Bytes)
  | bool (raw : Bytes)
  deriving DecidableEq

def KadValue.type : KadValue → UInt8
  | .hash _ => TAGTYPE_HASH
  | .string _ => TAGTYPE_STRING
  | .uint64 _ => TAGTYPE_UINT64
  | .uint32 _ => TAGTYPE_UINT32
  | .uint16 _ => TAGTYPE_UINT16
  | .uint8 _ => TAGTYPE_UINT8
  | .float32 _ => TAGTYPE_FLOAT32
  | .bsob _ => TAGTYPE_BSOB
  | .bool _ => TAGTYPE_BOOL

/-- `bytes((value,))`. -/
def one_byte (value : Nat) : Except Exc Bytes :=
  if value < 256 then .ok [UInt8.ofNat value] else .error (.ValueError "bytes must be in range(0, 256)")

/-- The bytes of a value, where the two encoders differ in those of a `BOOL`. -/
def encode_value (encode_bool : Bytes → Bytes) : KadValue → Except Exc Bytes
  | .hash raw => .ok raw
  | .string text => do
    let enc := utf8_encode text
    let length ← struct_pack 2 enc.length
    .ok (length ++ enc)
  | .uint64 value => struct_pack 8 value
  | .uint32 value => struct_pack 4 value
  | .uint16 value => struct_pack 2 value
  | .uint8 value => one_byte value
  | .float32 raw => .ok raw
  | .bsob raw => do
    let size ← one_byte raw.length
    .ok (size ++ raw)
  | .bool raw => .ok (encode_bool raw)

/-- A tag: its type, its name behind the length and its value. -/
def encode_named (encode_bool : Bytes → Bytes) (name : Bytes) (value : KadValue) : Except Exc Bytes := do
  let length ← struct_pack 2 name.length
  let raw ← encode_value encode_bool value
  .ok ([value.type] ++ length ++ name ++ raw)

/-- `_encode_tag` of the publisher. -/
def encode_tag : Bytes → KadValue → Except Exc Bytes := encode_named fun raw => [if raw ≠ [] then 1 else 0]

/-- `_encode_tag_for_raw` of the search. -/
def encode_tag_for_raw : Bytes → KadValue → Except Exc Bytes := encode_named fun raw => raw

/-- A byte in Python's `repr` of bytes. -/
def repr_byte (byte : UInt8) : String :=
  if byte = 0x5C then "\\\\"
  else if byte = 0x09 then "\\t"
  else if byte = 0x0A then "\\n"
  else if byte = 0x0D then "\\r"
  else if 0x20 ≤ byte ∧ byte < 0x7F then String.singleton (Char.ofNat byte.toNat)
  else "\\x" ++ hex_lower [byte]

/-- Python's `repr` of bytes, which are quoted by `"` where only `'` is among them. -/
def repr_bytes (raw : Bytes) : String :=
  let quote := if 0x27 ∈ raw ∧ 0x22 ∉ raw then "\"" else "'"
  let body := raw.map fun byte => if byte = 0x27 ∧ quote = "'" then "\\'" else repr_byte byte
  "b" ++ quote ++ String.join body ++ quote

/-- The exception of `_TagReader._read`. -/
def tags_truncated (n : Nat) (reader : Cursor UInt8) : Exc :=
  .KadSearchError s!"tag stream truncated: need {n} bytes at offset {reader.pos}, have {reader.remaining}"

abbrev TagRead (α : Type) := Reading UInt8 Exc α

def read_tag_bytes (n : Nat) : TagRead Bytes := takeN tags_truncated n

section Decoder

variable (replace : Bytes → String)

/-- `raw.decode("utf-8", errors="replace")`, where what it makes of other bytes is given. -/
def decode_replace (raw : Bytes) : String := (utf8_decode raw).getD (replace raw)

def decode_value (by_type : UInt8) (name : Bytes) : TagRead KadValue :=
  if by_type = TAGTYPE_HASH then .hash <$> read_tag_bytes 16
  else if by_type = TAGTYPE_STRING then do
    let length ← decode <$> read_tag_bytes 2
    (fun raw => .string (decode_replace replace raw)) <$> read_tag_bytes length
  else if by_type = TAGTYPE_UINT64 then (fun raw => .uint64 (decode raw)) <$> read_tag_bytes 8
  else if by_type = TAGTYPE_UINT32 then (fun raw => .uint32 (decode raw)) <$> read_tag_bytes 4
  else if by_type = TAGTYPE_UINT16 then (fun raw => .uint16 (decode raw)) <$> read_tag_bytes 2
  else if by_type = TAGTYPE_UINT8 then (fun raw => .uint8 (decode raw)) <$> read_tag_bytes 1
  else if by_type = TAGTYPE_FLOAT32 then .float32 <$> read_tag_bytes 4
  else if by_type = TAGTYPE_BSOB then do
    let size ← decode <$> read_tag_bytes 1
    .bsob <$> read_tag_bytes size
  else if by_type = TAGTYPE_BOOL then .bool <$> read_tag_bytes 1
  else throw (.KadSearchError s!"unknown Kad tag type: 0x{hex_lower [by_type]} name={repr_bytes name}")

/-- `_TagReader.decode_tag`: the name and the value of a tag. -/
def decode_tag : TagRead (Bytes × KadValue) := do
  let by_type ← read_tag_bytes 1
  let name_length ← decode <$> read_tag_bytes 2
  let name ← read_tag_bytes name_length
  let value ← decode_value replace (by_type.headD 0) name
  pure (name, value)

/-- A tag that is expected, where `at_end` says that there is none. -/
def next_tag : TagRead (Bytes × KadValue) := fun reader =>
  if reader.pos ≥ reader.data.length then .error (.KadSearchError "tag list count exceeds available bytes")
  else decode_tag replace reader

/-- `_read_tag_list`: the tags behind their count. -/
def read_tag_list : TagRead (List (Bytes × KadValue)) := do
  let count ← decode <$> takeN (fun _ _ => .KadSearchError "truncated tag list: missing count byte") 1
  repeatN (next_tag replace) count

variable {replace}

theorem reads_tag_bytes (raw : Bytes) : Reads (read_tag_bytes raw.length) raw raw :=
  Reads.takeN tags_truncated raw

theorem reads_tag_bytes_of_length {raw : Bytes} {n : Nat} (hlength : raw.length = n) :
    Reads (read_tag_bytes n) raw raw := hlength ▸ reads_tag_bytes raw

/-- The value that `encode_value` wrote is read under its type. -/
theorem reads_encoded_value (replace : Bytes → String) {encode_bool : Bytes → Bytes} {value : KadValue} {raw : Bytes} (name : Bytes)
    (hhash : ∀ digest, value = .hash digest → digest.length = 16)
    (hfloat : ∀ data, value = .float32 data → data.length = 4)
    (hbool : ∀ data, value = .bool data → encode_bool data = data ∧ data.length = 1)
    (hencoded : encode_value encode_bool value = .ok raw) :
    Reads (decode_value replace value.type name) raw value := by
  have huint : ∀ {width number : Nat} {raw : Bytes}, struct_pack width number = .ok raw →
      Reads (read_tag_bytes width) raw raw ∧ decode raw = number := by
    intro width number raw hpacked
    obtain ⟨hfits, rfl⟩ := struct_pack_eq_ok_iff.mp hpacked
    exact ⟨reads_tag_bytes_of_length (length_encode width number), decode_encode hfits⟩
  have hbyte : ∀ {number : Nat} {raw : Bytes}, one_byte number = .ok raw →
      Reads (read_tag_bytes 1) raw raw ∧ decode raw = number := by
    intro number raw hbyte
    unfold one_byte at hbyte
    split at hbyte
    · rename_i hfits
      cases hbyte
      refine ⟨reads_tag_bytes_of_length rfl, ?_⟩
      simp only [decode, UInt8.toNat_ofNat']
      omega
    · cases hbyte
  cases value with
  | hash digest =>
    cases hencoded
    exact (reads_tag_bytes_of_length (hhash raw rfl)).map
  | string text =>
    obtain ⟨length, hlength, hraw⟩ := bind_eq_ok_iff.mp hencoded
    cases hraw
    obtain ⟨hread, hvalue⟩ := huint hlength
    have htext := (reads_tag_bytes (utf8_encode text)).map (f := fun raw => KadValue.string (decode_replace replace raw))
    rw [decode_replace, utf8_decode_encode] at htext
    have hcount := hread.map (f := decode)
    rw [hvalue] at hcount
    exact hcount.bind htext
  | uint64 number =>
    obtain ⟨hread, hvalue⟩ := huint hencoded
    exact hvalue ▸ hread.map (f := fun raw => KadValue.uint64 (decode raw))
  | uint32 number =>
    obtain ⟨hread, hvalue⟩ := huint hencoded
    exact hvalue ▸ hread.map (f := fun raw => KadValue.uint32 (decode raw))
  | uint16 number =>
    obtain ⟨hread, hvalue⟩ := huint hencoded
    exact hvalue ▸ hread.map (f := fun raw => KadValue.uint16 (decode raw))
  | uint8 number =>
    obtain ⟨hread, hvalue⟩ := hbyte hencoded
    exact hvalue ▸ hread.map (f := fun raw => KadValue.uint8 (decode raw))
  | float32 data =>
    cases hencoded
    exact (reads_tag_bytes_of_length (hfloat raw rfl)).map
  | bsob data =>
    obtain ⟨size, hsize, hraw⟩ := bind_eq_ok_iff.mp hencoded
    cases hraw
    obtain ⟨hread, hvalue⟩ := hbyte hsize
    have hcount := hread.map (f := decode)
    rw [hvalue] at hcount
    exact hcount.bind (reads_tag_bytes data).map
  | bool data =>
    obtain ⟨hsame, hlength⟩ := hbool data rfl
    cases hencoded
    rw [hsame]
    exact (reads_tag_bytes_of_length hlength).map

theorem reads_next_tag {raw : Bytes} {tag : Bytes × KadValue} (hread : Reads (decode_tag replace) raw tag)
    (hraw : raw ≠ []) : Reads (next_tag replace) raw tag := by
  intro before rest
  have hpositive := List.length_pos_of_ne_nil hraw
  have hinside : ¬ before.length ≥ (before ++ (raw ++ rest)).length := by
    simp only [List.length_append]
    omega
  rw [next_tag, if_neg hinside]
  exact hread before rest

/-- A tag that was written is read. -/
theorem reads_encoded_tag {encode_bool : Bytes → Bytes} {name raw : Bytes} {value : KadValue}
    (hhash : ∀ digest, value = .hash digest → digest.length = 16)
    (hfloat : ∀ data, value = .float32 data → data.length = 4)
    (hbool : ∀ data, value = .bool data → encode_bool data = data ∧ data.length = 1)
    (hencoded : encode_named encode_bool name value = .ok raw) : Reads (next_tag replace) raw (name, value) := by
  obtain ⟨length, hlength, hrest⟩ := bind_eq_ok_iff.mp hencoded
  obtain ⟨body, hbody, hraw⟩ := bind_eq_ok_iff.mp hrest
  obtain ⟨hfits, rfl⟩ := struct_pack_eq_ok_iff.mp hlength
  cases hraw
  have hcount := (reads_tag_bytes_of_length (length_encode 2 name.length)).map (f := decode)
  rw [decode_encode hfits] at hcount
  have hvalue := reads_encoded_value replace name hhash hfloat hbool hbody
  have htype : Reads (read_tag_bytes 1) [value.type] [value.type] := reads_tag_bytes [value.type]
  apply reads_next_tag
  · simp only [List.append_assoc]
    exact htype.bind (hcount.bind ((reads_tag_bytes name).bind hvalue.bind_pure))
  · simp

/-- Tags that were written one after the other are read behind their count. -/
theorem reads_tag_list {tags : List (Bytes × KadValue)} {raws : List Bytes}
    (hread : List.Forall₂ (fun tag raw => Reads (next_tag replace) raw tag) tags raws) (hcount : tags.length < 256) :
    Reads (read_tag_list replace) ([UInt8.ofNat tags.length] ++ raws.flatten) tags := by
  have hlength : Reads (takeN (fun _ _ => Exc.KadSearchError "truncated tag list: missing count byte") 1)
      [UInt8.ofNat tags.length] [UInt8.ofNat tags.length] := Reads.takeN _ [UInt8.ofNat tags.length]
  have hdecoded := hlength.map (f := decode)
  have hvalue : decode [UInt8.ofNat tags.length] = tags.length := by
    simp only [decode, UInt8.toNat_ofNat']
    omega
  rw [hvalue] at hdecoded
  refine hdecoded.bind ?_
  clear hlength hdecoded hvalue hcount
  induction hread with
  | nil => exact Reads.pure []
  | cons hfirst _ ih => exact hfirst.repeatN_cons ih

end Decoder


structure KadSearchResultItem where
  file_hash : Bytes
  name : String
  size : Nat
  sources : Nat
  raw_tags : Bytes
  deriving DecidableEq

/-- The number of a value that is an `int` in Python. -/
def KadValue.int? : KadValue → Option Nat
  | .uint64 value => some value
  | .uint32 value => some value
  | .uint16 value => some value
  | .uint8 value => some value
  | _ => none

/-- A tag that is looked at: it is taken as the name, the size or the number of sources. -/
def KadSearchResultItem.take_tag (item : KadSearchResultItem) (tag : Bytes × KadValue) : KadSearchResultItem :=
  match tag.2 with
  | .string text => if tag.1 = TAGNAME_FILENAME then { item with name := text } else item
  | value =>
    match value.int? with
    | some number =>
      if tag.1 = TAGNAME_FILESIZE then { item with size := number }
      else if tag.1 = TAGNAME_SOURCES then { item with sources := number }
      else item
    | none => item

/-- The item of an answer with its tags. -/
def answer_item (file_hash : Bytes) (tags : List (Bytes × KadValue)) : Except Exc KadSearchResultItem := do
  let raw_tags ← tags.mapM fun tag => encode_tag_for_raw tag.1 tag.2
  .ok { tags.foldl KadSearchResultItem.take_tag ⟨file_hash, "", 0, 0, []⟩ with raw_tags := raw_tags.flatten }

section Parser

variable (replace : Bytes → String)

/-- The exception of an answer without a hash. -/
def answer_truncated (i : Nat) (_ : Nat) (reader : Cursor UInt8) : Exc :=
  .KadSearchError (s!"SEARCH_RES answer {i} truncated: need 16-byte hash at offset {reader.pos}, " ++
    s!"have {reader.remaining}")

/-- The answers from number `i` on. -/
def read_answers (i : Nat) : Nat → TagRead (List KadSearchResultItem)
  | 0 => pure []
  | count + 1 => do
    let file_hash ← takeN (answer_truncated i) 16
    let tags ← read_tag_list replace
    let item ← StateT.lift (answer_item file_hash tags)
    let items ← read_answers (i + 1) count
    pure (item :: items)

/-- The exception of a payload without its header. -/
def search_res_truncated (_ : Nat) (reader : Cursor UInt8) : Exc :=
  .KadSearchError s!"SEARCH_RES payload too short: {reader.data.length} bytes, need >= 34"

/-- The answers behind the header. -/
def read_search_res : TagRead (List KadSearchResultItem) := do
  let _ ← takeN search_res_truncated 16
  let _ ← takeN search_res_truncated 16
  let count ← decode <$> takeN search_res_truncated 2
  read_answers replace 0 count

def parse_search_res_answers (payload : Bytes) : Except Exc (List KadSearchResultItem) :=
  Prod.fst <$> read_search_res replace ⟨payload, 0⟩

end Parser

end amuled.kad
