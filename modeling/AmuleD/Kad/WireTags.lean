import AmuleD.Kad.Tags
import AmuleD.Streams.Scanning

open littleendian cursor

namespace amuled.kad

/-- A tag as it stands on the wire, with the bytes of its value but without their length. -/
structure WireTag where
  by_type : UInt8
  name : Bytes
  raw : Bytes

/-- The widths of the values that have no length of their own. -/
def fixed_width (by_type : UInt8) : Option Nat :=
  if by_type = TAGTYPE_HASH then some 16
  else if by_type = TAGTYPE_UINT64 then some 8
  else if by_type = TAGTYPE_UINT32 ∨ by_type = TAGTYPE_FLOAT32 then some 4
  else if by_type = TAGTYPE_UINT16 then some 2
  else if by_type = TAGTYPE_UINT8 ∨ by_type = TAGTYPE_BOOL then some 1
  else none

/-- The bytes of a value. -/
def read_raw (by_type : UInt8) (name : Bytes) : TagRead Bytes :=
  if by_type = TAGTYPE_STRING then do
    let length ← decode <$> read_tag_bytes 2
    read_tag_bytes length
  else if by_type = TAGTYPE_BSOB then do
    let size ← decode <$> read_tag_bytes 1
    read_tag_bytes size
  else
    match fixed_width by_type with
    | some width => read_tag_bytes width
    | none => throw (.KadSearchError s!"unknown Kad tag type: 0x{hex_lower [by_type]} name={repr_bytes name}")

def wire_tag : TagRead WireTag := do
  let by_type ← read_tag_bytes 1
  let name_length ← decode <$> read_tag_bytes 2
  let name ← read_tag_bytes name_length
  let raw ← read_raw (by_type.headD 0) name
  pure ⟨by_type.headD 0, name, raw⟩

def next_wire_tag : TagRead WireTag := fun reader =>
  if reader.pos ≥ reader.data.length then .error (.KadSearchError "tag list count exceeds available bytes")
  else wire_tag reader

def read_tag_count : TagRead Nat :=
  decode <$> takeN (fun _ _ => .KadSearchError "truncated tag list: missing count byte") 1

def wire_tag_list : TagRead (List WireTag) := do
  let count ← read_tag_count
  repeatN next_wire_tag count

namespace WireTag

variable (replace : Bytes → String)

/-- What is made of a tag. -/
def value (tag : WireTag) : KadValue :=
  if tag.by_type = TAGTYPE_HASH then .hash tag.raw
  else if tag.by_type = TAGTYPE_STRING then .string (decode_replace replace tag.raw)
  else if tag.by_type = TAGTYPE_UINT64 then .uint64 (decode tag.raw)
  else if tag.by_type = TAGTYPE_UINT32 then .uint32 (decode tag.raw)
  else if tag.by_type = TAGTYPE_UINT16 then .uint16 (decode tag.raw)
  else if tag.by_type = TAGTYPE_UINT8 then .uint8 (decode tag.raw)
  else if tag.by_type = TAGTYPE_FLOAT32 then .float32 tag.raw
  else if tag.by_type = TAGTYPE_BSOB then .bsob tag.raw
  else .bool tag.raw

def tag (tag : WireTag) : Bytes × KadValue := (tag.name, tag.value replace)

/-- The value with its length, if that is on the wire. -/
def value_bytes (tag : WireTag) : Bytes :=
  if tag.by_type = TAGTYPE_STRING then encode 2 tag.raw.length ++ tag.raw
  else if tag.by_type = TAGTYPE_BSOB then encode 1 tag.raw.length ++ tag.raw
  else tag.raw

def bytes (tag : WireTag) : Bytes := [tag.by_type] ++ (encode 2 tag.name.length ++ (tag.name ++ tag.value_bytes))

/-- The lengths of a tag that was read. -/
structure Sound (tag : WireTag) : Prop where
  name : tag.name.length < 256 ^ 2
  string : tag.by_type = TAGTYPE_STRING → tag.raw.length < 256 ^ 2
  bsob : tag.by_type = TAGTYPE_BSOB → tag.raw.length < 256 ^ 1
  fixed : tag.by_type ≠ TAGTYPE_STRING → tag.by_type ≠ TAGTYPE_BSOB → fixed_width tag.by_type = some tag.raw.length

end WireTag

section Decoding

variable (replace : Bytes → String)

theorem decode_value_eq (by_type : UInt8) (name : Bytes) :
    decode_value replace by_type name =
      (fun raw => WireTag.value replace ⟨by_type, name, raw⟩) <$> read_raw by_type name := by
  by_cases hstring : by_type = TAGTYPE_STRING
  · subst hstring
    rw [read_raw, if_pos rfl, map_bind]
    rfl
  by_cases hbsob : by_type = TAGTYPE_BSOB
  · subst hbsob
    rw [read_raw, if_neg hstring, if_pos rfl, map_bind]
    rfl
  rw [read_raw, if_neg hstring, if_neg hbsob]
  by_cases hhash : by_type = TAGTYPE_HASH
  · subst hhash
    rfl
  by_cases hu64 : by_type = TAGTYPE_UINT64
  · subst hu64
    rfl
  by_cases hu32 : by_type = TAGTYPE_UINT32
  · subst hu32
    rfl
  by_cases hu16 : by_type = TAGTYPE_UINT16
  · subst hu16
    rfl
  by_cases hu8 : by_type = TAGTYPE_UINT8
  · subst hu8
    rfl
  by_cases hfloat : by_type = TAGTYPE_FLOAT32
  · subst hfloat
    rfl
  by_cases hbool : by_type = TAGTYPE_BOOL
  · subst hbool
    rfl
  have hwidth : fixed_width by_type = none := by
    simp only [fixed_width, hhash, hu64, hu32, hu16, hu8, hfloat, hbool, or_self, if_false]
  rw [hwidth, decode_value, if_neg hhash, if_neg hstring, if_neg hu64, if_neg hu32, if_neg hu16, if_neg hu8,
    if_neg hfloat, if_neg hbsob, if_neg hbool]
  rfl

theorem decode_tag_eq : decode_tag replace = WireTag.tag replace <$> wire_tag := by
  simp only [decode_tag, wire_tag, decode_value_eq, map_bind, map_pure, bind_map_left]
  rfl

theorem next_tag_eq : next_tag replace = WireTag.tag replace <$> next_wire_tag := by
  funext reader
  rw [next_tag]
  by_cases hend : reader.pos ≥ reader.data.length
  · have hnext : next_wire_tag reader = .error (.KadSearchError "tag list count exceeds available bytes") := if_pos hend
    rw [if_pos hend, map_error hnext]
  · have hnext : next_wire_tag reader = wire_tag reader := if_neg hend
    rw [if_neg hend, decode_tag_eq]
    simp only [Functor.map, StateT.map, hnext]

theorem read_tag_list_eq : read_tag_list replace = List.map (WireTag.tag replace) <$> wire_tag_list := by
  rw [read_tag_list, wire_tag_list, map_bind, next_tag_eq]
  simp only [repeatN_map]
  rfl

end Decoding

section Taking

variable {reader after : Cursor UInt8}

/-- A number that was read in some bytes. -/
theorem took_of_read_number {short : Nat → Cursor UInt8 → Exc} {width number : Nat}
    (hread : (decode <$> takeN short width : TagRead Nat) reader = .ok (number, after)) :
    Took reader (encode width number) after ∧ number < 256 ^ width := by
  obtain ⟨raw, htake, rfl⟩ := map_eq_ok_iff.mp hread
  obtain ⟨htook, hlength⟩ := took_of_takeN htake
  have hraw : encode width (decode raw) = raw := by
    rw [← hlength]
    exact encode_decode raw
  rw [hraw, ← hlength]
  exact ⟨htook, decode_lt raw⟩

/-- A value is taken with its length. -/
theorem took_of_read_raw {by_type : UInt8} {name raw : Bytes}
    (hread : read_raw by_type name reader = .ok (raw, after)) (hname : name.length < 256 ^ 2) :
    Took reader (WireTag.value_bytes ⟨by_type, name, raw⟩) after ∧ WireTag.Sound ⟨by_type, name, raw⟩ := by
  rw [read_raw] at hread
  rw [WireTag.value_bytes]
  dsimp only
  by_cases hstring : by_type = TAGTYPE_STRING
  · rw [if_pos hstring] at hread ⊢
    obtain ⟨length, middle, hlength, hraw⟩ := cursor.bind_eq_ok_iff.mp hread
    obtain ⟨hfirst, hfits⟩ := took_of_read_number hlength
    obtain ⟨hlast, rfl⟩ := took_of_takeN hraw
    have hother : TAGTYPE_STRING ≠ TAGTYPE_BSOB := by decide
    exact ⟨hfirst.trans hlast, hname, fun _ => hfits, fun hbsob => absurd (hstring.symm.trans hbsob) hother,
      fun hother => absurd hstring hother⟩
  rw [if_neg hstring] at hread ⊢
  by_cases hbsob : by_type = TAGTYPE_BSOB
  · rw [if_pos hbsob] at hread ⊢
    obtain ⟨size, middle, hsize, hraw⟩ := cursor.bind_eq_ok_iff.mp hread
    obtain ⟨hfirst, hfits⟩ := took_of_read_number hsize
    obtain ⟨hlast, rfl⟩ := took_of_takeN hraw
    exact ⟨hfirst.trans hlast, hname, fun hother => absurd hother hstring, fun _ => hfits,
      fun _ hother => absurd hbsob hother⟩
  rw [if_neg hbsob] at hread ⊢
  cases hwidth : fixed_width by_type with
  | none =>
    rw [hwidth] at hread
    cases hread
  | some width =>
    rw [hwidth] at hread
    obtain ⟨htook, hlength⟩ := took_of_takeN hread
    rw [← hlength] at hwidth
    exact ⟨htook, hname, fun hother => absurd hother hstring, fun hother => absurd hother hbsob, fun _ _ => hwidth⟩

/-- A tag is taken as it stands on the wire. -/
theorem took_of_wire_tag {tag : WireTag} (hread : wire_tag reader = .ok (tag, after)) :
    Took reader tag.bytes after ∧ tag.Sound := by
  obtain ⟨by_type, first, htype, hread⟩ := cursor.bind_eq_ok_iff.mp hread
  obtain ⟨length, second, hlength, hread⟩ := cursor.bind_eq_ok_iff.mp hread
  obtain ⟨name, third, hname, hread⟩ := cursor.bind_eq_ok_iff.mp hread
  obtain ⟨raw, last, hraw, hread⟩ := cursor.bind_eq_ok_iff.mp hread
  cases hread
  obtain ⟨htook_type, hone⟩ := took_of_takeN htype
  obtain ⟨htook_length, hfits⟩ := took_of_read_number hlength
  obtain ⟨htook_name, rfl⟩ := took_of_takeN hname
  obtain ⟨htook_raw, hsound⟩ := took_of_read_raw hraw hfits
  obtain ⟨byte, rfl⟩ := List.length_eq_one_iff.mp hone
  exact ⟨htook_type.trans (htook_length.trans (htook_name.trans htook_raw)), hsound⟩

theorem took_of_next_wire_tag {tag : WireTag} (hread : next_wire_tag reader = .ok (tag, after)) :
    Took reader tag.bytes after ∧ tag.Sound := by
  rw [next_wire_tag] at hread
  split at hread
  · cases hread
  · exact took_of_wire_tag hread

/-- The bytes of the tags behind their count. -/
def tag_block : TagRead Bytes := do
  let count ← read_tag_count
  piece (repeatN next_wire_tag count)

theorem tag_block_eq : tag_block = (fun tags => (tags.map WireTag.bytes).flatten) <$> wire_tag_list := by
  rw [tag_block, wire_tag_list, map_bind]
  congr 1
  funext count
  exact piece_eq_map fun cursor tags after hread =>
    took_of_repeatN (fun _ _ _ htag => (took_of_next_wire_tag htag).1) hread

theorem sound_of_wire_tag_list {tags : List WireTag} (hread : wire_tag_list reader = .ok (tags, after)) :
    ∀ tag ∈ tags, tag.Sound := by
  obtain ⟨count, middle, _, hread⟩ := cursor.bind_eq_ok_iff.mp hread
  exact forall_of_repeatN (fun _ _ _ htag => (took_of_next_wire_tag htag).2) hread

end Taking

/-- `struct.pack("<f", struct.unpack("<f", raw))`, of which nothing but the length is known: a signaling NaN may come
back as a quiet one. -/
structure FloatRepack where
  repack : Bytes → Bytes
  length_repack : ∀ raw, (repack raw).length = raw.length

section Rewriting

variable (replace : Bytes → String) (float : FloatRepack)

/-- A value as it is written again. -/
def KadValue.repacked : KadValue → KadValue
  | .float32 raw => .float32 (float.repack raw)
  | value => value

namespace WireTag

/-- A tag that was decoded and encoded again. -/
def rewritten (tag : WireTag) : WireTag :=
  if tag.by_type = TAGTYPE_STRING then { tag with raw := utf8_encode (decode_replace replace tag.raw) }
  else if tag.by_type = TAGTYPE_FLOAT32 then { tag with raw := float.repack tag.raw }
  else tag

/-- A text that is too long to be encoded again. -/
def Overlong (tag : WireTag) : Prop :=
  tag.by_type = TAGTYPE_STRING ∧ 256 ^ 2 ≤ (utf8_encode (decode_replace replace tag.raw)).length

instance (tag : WireTag) : Decidable (tag.Overlong replace) :=
  inferInstanceAs
    (Decidable (tag.by_type = TAGTYPE_STRING ∧ 256 ^ 2 ≤ (utf8_encode (decode_replace replace tag.raw)).length))

variable {tag : WireTag}

theorem encode_named_ok {encode_bool : Bytes → Bytes} {name raw : Bytes} {value : KadValue}
    (hname : name.length < 256 ^ 2) (hraw : encode_value encode_bool value = .ok raw) :
    encode_named encode_bool name value = .ok ([value.type] ++ (encode 2 name.length ++ (name ++ raw))) := by
  have hlength : struct_pack 2 name.length = .ok (encode 2 name.length) := if_pos hname
  rw [encode_named, hlength, ok_bind, hraw, ok_bind]
  simp only [List.append_assoc]

/-- A tag with a value that is written as it was read. -/
theorem encode_same (tag : WireTag) (hname : tag.name.length < 256 ^ 2) {value : KadValue}
    (htype : value.type = tag.by_type) (hraw : encode_value (fun raw => raw) value = .ok tag.value_bytes) :
    encode_tag_for_raw tag.name value = .ok tag.bytes := by
  rw [encode_tag_for_raw, encode_named_ok hname hraw, htype]
  rfl

theorem encode_number {width : Nat} {raw : Bytes} (hlength : raw.length = width) :
    struct_pack width (decode raw) = .ok raw := by
  have hfits : decode raw < 256 ^ width := hlength ▸ decode_lt raw
  have hsame : encode width (decode raw) = raw := by
    rw [← hlength]
    exact encode_decode raw
  rw [struct_pack, if_pos hfits, hsame]

theorem encode_byte {raw : Bytes} (hlength : raw.length = 1) : one_byte (decode raw) = .ok raw := by
  obtain ⟨byte, rfl⟩ := List.length_eq_one_iff.mp hlength
  have hvalue : decode [byte] = byte.toNat := by simp [decode]
  rw [hvalue, one_byte, if_pos byte.toNat_lt, UInt8.ofNat_toNat]

theorem one_byte_eq {number : Nat} (hnumber : number < 256 ^ 1) : one_byte number = .ok (encode 1 number) := by
  rw [one_byte, if_pos (by omega)]
  rfl

/-- The text of a tag is encoded again, unless it has become too long. -/
theorem encode_string (hsound : tag.Sound) (hstring : tag.by_type = TAGTYPE_STRING) :
    encode_tag_for_raw tag.name (.string (decode_replace replace tag.raw)) =
      if tag.Overlong replace then .error .StructError else .ok (tag.rewritten replace float).bytes := by
  have hrewritten : tag.rewritten replace float = { tag with raw := utf8_encode (decode_replace replace tag.raw) } :=
    if_pos hstring
  by_cases hlong : 256 ^ 2 ≤ (utf8_encode (decode_replace replace tag.raw)).length
  · have hpack : struct_pack 2 (utf8_encode (decode_replace replace tag.raw)).length = .error .StructError :=
      if_neg (Nat.not_lt.mpr hlong)
    have hlength : struct_pack 2 tag.name.length = .ok (encode 2 tag.name.length) := if_pos hsound.name
    rw [if_pos ⟨hstring, hlong⟩, encode_tag_for_raw, encode_named, hlength, ok_bind, encode_value, hpack]
    rfl
  · have hpack : struct_pack 2 (utf8_encode (decode_replace replace tag.raw)).length =
        .ok (encode 2 (utf8_encode (decode_replace replace tag.raw)).length) := if_pos (Nat.not_le.mp hlong)
    have hvalue : encode_value (fun raw => raw) (.string (decode_replace replace tag.raw)) =
        .ok (WireTag.value_bytes { tag with raw := utf8_encode (decode_replace replace tag.raw) }) := by
      rw [encode_value, hpack, ok_bind, value_bytes, if_pos hstring]
    have hencoded : encode_tag_for_raw tag.name (.string (decode_replace replace tag.raw)) =
        .ok (WireTag.bytes { tag with raw := utf8_encode (decode_replace replace tag.raw) }) :=
      encode_same { tag with raw := utf8_encode (decode_replace replace tag.raw) } hsound.name hstring.symm hvalue
    rw [if_neg fun hover => hlong hover.2, hrewritten, hencoded]

theorem not_overlong (hstring : tag.by_type ≠ TAGTYPE_STRING) : ¬tag.Overlong replace := fun hover => hstring hover.1

/-- A tag that was read is encoded again, unless it is a text that has become too long. -/
theorem encode_repacked (hsound : tag.Sound) :
    encode_tag_for_raw tag.name ((tag.value replace).repacked float) =
      if tag.Overlong replace then .error .StructError else .ok (tag.rewritten replace float).bytes := by
  obtain ⟨by_type, name, raw⟩ := tag
  by_cases hstring : by_type = TAGTYPE_STRING
  · subst hstring
    exact encode_string replace float hsound rfl
  rw [if_neg (not_overlong replace hstring), rewritten, if_neg hstring]
  by_cases hbsob : by_type = TAGTYPE_BSOB
  · subst hbsob
    have hraw : encode_value (fun raw => raw) (.bsob raw) = .ok (encode 1 raw.length ++ raw) := by
      rw [encode_value, one_byte_eq (hsound.bsob rfl), ok_bind]
    exact encode_same ⟨TAGTYPE_BSOB, name, raw⟩ hsound.name rfl hraw
  by_cases hfloat : by_type = TAGTYPE_FLOAT32
  · subst hfloat
    exact encode_same ⟨TAGTYPE_FLOAT32, name, float.repack raw⟩ hsound.name rfl rfl
  rw [if_neg hfloat]
  have hfixed : fixed_width by_type = some raw.length := hsound.fixed hstring hbsob
  by_cases hhash : by_type = TAGTYPE_HASH
  · subst hhash
    exact encode_same ⟨TAGTYPE_HASH, name, raw⟩ hsound.name rfl rfl
  by_cases hu64 : by_type = TAGTYPE_UINT64
  · subst hu64
    exact encode_same ⟨TAGTYPE_UINT64, name, raw⟩ hsound.name rfl (encode_number (Option.some.inj hfixed).symm)
  by_cases hu32 : by_type = TAGTYPE_UINT32
  · subst hu32
    exact encode_same ⟨TAGTYPE_UINT32, name, raw⟩ hsound.name rfl (encode_number (Option.some.inj hfixed).symm)
  by_cases hu16 : by_type = TAGTYPE_UINT16
  · subst hu16
    exact encode_same ⟨TAGTYPE_UINT16, name, raw⟩ hsound.name rfl (encode_number (Option.some.inj hfixed).symm)
  by_cases hu8 : by_type = TAGTYPE_UINT8
  · subst hu8
    exact encode_same ⟨TAGTYPE_UINT8, name, raw⟩ hsound.name rfl (encode_byte (Option.some.inj hfixed).symm)
  by_cases hbool : by_type = TAGTYPE_BOOL
  · subst hbool
    exact encode_same ⟨TAGTYPE_BOOL, name, raw⟩ hsound.name rfl rfl
  -- no other type has a width
  simp only [fixed_width, hhash, hu64, hu32, hu16, hu8, hfloat, hbool, or_self, if_false] at hfixed
  cases hfixed

/-- The tags that are written as they were read. -/
def Kept (tag : WireTag) : Prop :=
  (tag.by_type = TAGTYPE_STRING → (utf8_decode tag.raw).isSome) ∧
    (tag.by_type = TAGTYPE_FLOAT32 → float.repack tag.raw = tag.raw)

theorem encode_decode_replace_iff (raw : Bytes) :
    utf8_encode (decode_replace replace raw) = raw ↔ (utf8_decode raw).isSome := by
  constructor
  · intro hsame
    rw [← hsame, utf8_decode_encode]
    rfl
  · intro hvalid
    obtain ⟨text, htext⟩ := Option.isSome_iff_exists.mp hvalid
    rw [decode_replace, htext, Option.getD_some, utf8_encode_of_decode htext]

theorem rewritten_eq_iff (tag : WireTag) : (tag.rewritten replace float).raw = tag.raw ↔ tag.Kept float := by
  rw [rewritten]
  by_cases hstring : tag.by_type = TAGTYPE_STRING
  · have hfloat : tag.by_type ≠ TAGTYPE_FLOAT32 := by
      rw [hstring]
      decide
    rw [if_pos hstring, Kept, encode_decode_replace_iff]
    exact ⟨fun hvalid => ⟨fun _ => hvalid, fun hother => absurd hother hfloat⟩, fun hkept => hkept.1 hstring⟩
  rw [if_neg hstring, Kept]
  by_cases hfloat : tag.by_type = TAGTYPE_FLOAT32
  · rw [if_pos hfloat]
    exact ⟨fun hsame => ⟨fun hother => absurd hother hstring, fun _ => hsame⟩, fun hkept => hkept.2 hfloat⟩
  · rw [if_neg hfloat]
    exact iff_of_true rfl ⟨fun hother => absurd hother hstring, fun hother => absurd hother hfloat⟩

/-- A tag ends by itself, whatever it was read or written as. -/
theorem rewritten_bytes_append {rest other : Bytes} (hsound : tag.Sound) (hshort : ¬tag.Overlong replace)
    (hsame : (tag.rewritten replace float).bytes ++ rest = tag.bytes ++ other) :
    (tag.rewritten replace float).raw = tag.raw := by
  rw [rewritten] at hsame ⊢
  by_cases hstring : tag.by_type = TAGTYPE_STRING
  · rw [if_pos hstring] at hsame ⊢
    have hfits : (utf8_encode (decode_replace replace tag.raw)).length < 256 ^ 2 :=
      Nat.not_le.mp fun hlong => hshort ⟨hstring, hlong⟩
    simp only [bytes, value_bytes, if_pos hstring, List.append_assoc, List.append_cancel_left_eq] at hsame
    obtain ⟨hlengths, hrest⟩ := List.append_inj hsame (by rw [length_encode, length_encode])
    have hlength := congrArg decode hlengths
    rw [decode_encode hfits, decode_encode (hsound.string hstring)] at hlength
    exact (List.append_inj hrest hlength).1
  rw [if_neg hstring] at hsame ⊢
  by_cases hfloat : tag.by_type = TAGTYPE_FLOAT32
  · rw [if_pos hfloat] at hsame ⊢
    have hbsob : tag.by_type ≠ TAGTYPE_BSOB := by
      rw [hfloat]
      decide
    simp only [bytes, value_bytes, if_neg hstring, if_neg hbsob, List.append_assoc, List.append_cancel_left_eq] at hsame
    exact (List.append_inj hsame (float.length_repack tag.raw)).1
  · rw [if_neg hfloat]

/-- The tags of an answer are written as they were read exactly where each of them is kept. -/
theorem flatten_rewritten_iff {tags : List WireTag} (hsound : ∀ tag ∈ tags, tag.Sound)
    (hshort : ∀ tag ∈ tags, ¬tag.Overlong replace) :
    (tags.map fun tag => (tag.rewritten replace float).bytes).flatten = (tags.map bytes).flatten ↔
      ∀ tag ∈ tags, tag.Kept float := by
  have hbytes : ∀ tag : WireTag, (tag.rewritten replace float).raw = tag.raw →
      (tag.rewritten replace float).bytes = tag.bytes := by
    intro tag hraw
    have hsame : tag.rewritten replace float = tag := by
      obtain ⟨by_type, name, raw⟩ := tag
      rw [rewritten] at hraw ⊢
      split_ifs at hraw ⊢ <;> simp_all
    rw [hsame]
  rw [flatten_map_eq_iff fun tag hmem rest other hsame =>
    hbytes tag (rewritten_bytes_append replace float (hsound tag hmem) (hshort tag hmem) hsame)]
  refine forall₂_congr fun tag hmem => ?_
  rw [← rewritten_eq_iff replace float]
  constructor
  · intro hsame
    exact rewritten_bytes_append replace float (hsound tag hmem) (hshort tag hmem) (congrArg (· ++ []) hsame)
  · exact hbytes tag

end WireTag

end Rewriting

end amuled.kad
