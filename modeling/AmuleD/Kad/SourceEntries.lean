import AmuleD.Kad.WireTags
import AmuleD.PyStr

open littleendian cursor pystr

namespace amuled.kad

def TAGNAME_SOURCETYPE : Bytes := [0xFF]

def TAGNAME_SOURCEIP : Bytes := [0xFE]

def TAGNAME_SOURCEPORT : Bytes := [0xFD]

def TAGNAME_SOURCEUPORT : Bytes := [0xFC]

def TAGNAME_SERVERIP : Bytes := [0xFB]

def TAGNAME_SERVERPORT : Bytes := [0xFA]

def TAGNAME_BUDDYHASH : Bytes := [0xF8]

def TAGNAME_ENCRYPTION : Bytes := [0xF3]

/-- `b"ip6"`. -/
def TAGNAME_IPV6 : Bytes := [0x69, 0x70, 0x36]

/-- `b"bi6"`. -/
def TAGNAME_BUDDYIPV6 : Bytes := [0x62, 0x69, 0x36]

/-- What the tags of a source say of it. -/
structure SourceFields where
  source_type : Nat := 0
  ip : Option String := none
  tcp_port : Nat := 0
  udp_port : Nat := 0
  buddy_ip : Option String := none
  buddy_port : Nat := 0
  buddy_hash : Option String := none
  crypt_options : Nat := 0
  ipv6 : Option String := none
  buddy_ipv6 : Option String := none
  deriving DecidableEq

/-- `str(ipaddress.IPv4Address(packed))` of four bytes. -/
def ipv4_text (packed : Bytes) : String := ".".intercalate (packed.map fun octet => toString octet.toNat)

/-- The first octets of addresses that are neither of a network 0 nor multicast or reserved. -/
def is_good_octet (octet : UInt8) : Bool := 0 < octet && octet < 224

def is_port (number : Nat) : Bool := 0 < number && number ≤ 0xFFFF

section Sources

variable (ipv6_text : Bytes → String)

/-- `_parse_ipv6_hex`, where the text of an address, which differs between versions of Python, is given. -/
def parse_ipv6_hex (hex_val : String) : Option String :=
  if hex_val.length ≠ 32 then none
  else
    match fromhex (lit hex_val) with
    | none => none
    | some raw => if raw.length ≠ 16 then none else some (ipv6_text raw)

/-- A tag with a number. -/
def SourceFields.take_number (fields : SourceFields) (name : Bytes) (number : Nat) : Except Exc SourceFields :=
  if name = TAGNAME_SOURCETYPE then .ok { fields with source_type := number }
  else if name = TAGNAME_SOURCEIP then
    if number ≠ 0 then do
      let packed ← struct_pack 4 number
      .ok (if is_good_octet (packed.headD 0) then { fields with ip := some (ipv4_text packed) } else fields)
    else .ok fields
  else if name = TAGNAME_SOURCEPORT then .ok (if is_port number then { fields with tcp_port := number } else fields)
  else if name = TAGNAME_SOURCEUPORT then .ok (if is_port number then { fields with udp_port := number } else fields)
  else if name = TAGNAME_SERVERIP then
    if number ≠ 0 then do
      let packed ← struct_pack 4 number
      .ok { fields with buddy_ip := some (ipv4_text packed) }
    else .ok fields
  else if name = TAGNAME_SERVERPORT then .ok (if is_port number then { fields with buddy_port := number } else fields)
  else if name = TAGNAME_ENCRYPTION then .ok { fields with crypt_options := number }
  else .ok fields

/-- A tag with a text. -/
def SourceFields.take_text (fields : SourceFields) (name : Bytes) (text : String) : SourceFields :=
  if name = TAGNAME_BUDDYHASH then { fields with buddy_hash := some text }
  else if name = TAGNAME_IPV6 then { fields with ipv6 := parse_ipv6_hex ipv6_text text }
  else if name = TAGNAME_BUDDYIPV6 then { fields with buddy_ipv6 := parse_ipv6_hex ipv6_text text }
  else fields

def SourceFields.take_tag (fields : SourceFields) (tag : Bytes × KadValue) : Except Exc SourceFields :=
  match tag.2 with
  | .string text => .ok (fields.take_text ipv6_text tag.1 text)
  | value =>
    match value.int? with
    | some number => fields.take_number tag.1 number
    | none => .ok fields

/-- The fields of a source from its tags. -/
def source_entry (entry : Bytes × List (Bytes × KadValue)) : Except Exc (Bytes × SourceFields) := do
  let fields ← entry.2.foldlM (SourceFields.take_tag ipv6_text) {}
  .ok (entry.1, fields)

end Sources

section Parser

variable (replace : Bytes → String)

/-- The hash of an entry and its tags. -/
def read_entry (truncated : Nat → Nat → Cursor UInt8 → Exc) (i : Nat) : TagRead (Bytes × List (Bytes × KadValue)) := do
  let hash ← takeN (truncated i) 16
  let tags ← read_tag_list replace
  pure (hash, tags)

/-- The entries behind the header, which both parsers of the payload read in the same way. -/
def read_search_entries {α : Type} (short : Nat → Cursor UInt8 → Exc) (truncated : Nat → Nat → Cursor UInt8 → Exc)
    (build : Bytes × List (Bytes × KadValue) → Except Exc α) : TagRead (List α) := do
  let _ ← takeN short 16
  let _ ← takeN short 16
  let count ← decode <$> takeN short 2
  buildN (read_entry replace truncated) build 0 count

def source_res_truncated (_ : Nat) (reader : Cursor UInt8) : Exc :=
  .KadSearchError s!"SEARCH_RES source payload too short: {reader.data.length} bytes, need >= 34"

def source_entry_truncated (i : Nat) (_ : Nat) (reader : Cursor UInt8) : Exc :=
  .KadSearchError (s!"SEARCH_RES source entry {i} truncated: need 16-byte source hash at offset {reader.pos}, " ++
    s!"have {reader.remaining}")

def parse_search_res_source_entries (ipv6_text : Bytes → String) (payload : Bytes) :
    Except Exc (List (Bytes × SourceFields)) :=
  Prod.fst <$>
    read_search_entries replace source_res_truncated source_entry_truncated (source_entry ipv6_text) ⟨payload, 0⟩

/-- The item of an answer, with floats that are unpacked and packed again for the raw tags. -/
def repacked_item (float : FloatRepack) (entry : Bytes × List (Bytes × KadValue)) : Except Exc KadSearchResultItem :=
  answer_item entry.1 (entry.2.map fun tag => (tag.1, tag.2.repacked float))

/-- `_parse_search_res_answers` with these floats. -/
def search_res_answers (float : FloatRepack) (payload : Bytes) : Except Exc (List KadSearchResultItem) :=
  Prod.fst <$> read_search_entries replace search_res_truncated answer_truncated (repacked_item float) ⟨payload, 0⟩

theorem read_answers_eq (i count : Nat) :
    read_answers replace i count =
      buildN (read_entry replace answer_truncated) (fun entry => answer_item entry.1 entry.2) i count := by
  induction count generalizing i with
  | zero => rfl
  | succ count ih => simp only [read_answers, buildN, read_entry, ih, bind_assoc, pure_bind]

/-- Where floats come back as they are, the answers are those of the model without them. -/
theorem parse_search_res_answers_eq (payload : Bytes) :
    parse_search_res_answers replace payload = search_res_answers replace ⟨fun raw => raw, fun _ => rfl⟩ payload := by
  have hsame : ∀ value : KadValue, value.repacked ⟨fun raw => raw, fun _ => rfl⟩ = value := by
    intro value
    cases value <;> rfl
  have hitem : repacked_item ⟨fun raw => raw, fun _ => rfl⟩ = fun entry => answer_item entry.1 entry.2 := by
    funext entry
    simp only [repacked_item, hsame, Prod.mk.eta, List.map_id']
  rw [parse_search_res_answers, search_res_answers, hitem, read_search_res, read_search_entries]
  simp only [read_answers_eq]

end Parser

/-- The errors that the callers catch. -/
def IsKadSearchError (e : Exc) : Prop := ∃ message, e = .KadSearchError message

/-- A parser that returned, or raised what its callers catch. -/
def Handled {α : Type} (result : Except Exc α) : Prop :=
  (∃ value, result = .ok value) ∨ ∃ e, result = .error e ∧ IsKadSearchError e

/-- The number of answers that the header of a payload announces. -/
def announced_answers (payload : Bytes) : Nat := decode (payload.extract 32 34)

section Reading

variable (truncated : Nat → Nat → Cursor UInt8 → Exc)

/-- An entry as it stands on the wire. -/
def wire_entry (i : Nat) : TagRead (Bytes × List WireTag) := do
  let hash ← takeN (truncated i) 16
  let tags ← wire_tag_list
  pure (hash, tags)

/-- The bytes of the tags of an entry. -/
def block_entry (i : Nat) : TagRead Bytes := do
  let _ ← takeN (truncated i) 16
  tag_block

/-- The answers of a payload that can be read, up to the first that cannot. -/
def readable (payload : Bytes) : List (Bytes × List WireTag) × Option Exc :=
  scan (wire_entry answer_truncated) 0 (announced_answers payload) ⟨payload, 34⟩

/-- Every announced answer can be read. -/
def Whole (payload : Bytes) : Prop := (readable payload).2 = none

/-- A tag of an answer that can be read. -/
def Readable (payload : Bytes) (tag : WireTag) : Prop := ∃ entry ∈ (readable payload).1, tag ∈ entry.2

/-- The tag bytes of the answers on the wire. -/
def answer_blocks (payload : Bytes) : List Bytes :=
  (scan (block_entry answer_truncated) 0 (announced_answers payload) ⟨payload, 34⟩).1

theorem block_entry_eq (i : Nat) :
    block_entry truncated i = (fun entry => (entry.2.map WireTag.bytes).flatten) <$> wire_entry truncated i := by
  simp only [block_entry, wire_entry, tag_block_eq, map_bind, bind_pure_comp, Functor.map_map]

theorem answer_blocks_eq (payload : Bytes) :
    answer_blocks payload = (readable payload).1.map fun entry => (entry.2.map WireTag.bytes).flatten := by
  have hread : block_entry answer_truncated =
      fun i => (fun entry => (entry.2.map WireTag.bytes).flatten) <$> wire_entry answer_truncated i :=
    funext fun i => block_entry_eq answer_truncated i
  rw [answer_blocks, hread, scan_map, readable]

theorem read_entry_eq (replace : Bytes → String) (i : Nat) :
    read_entry replace truncated i =
      (fun entry => (entry.1, entry.2.map (WireTag.tag replace))) <$> wire_entry truncated i := by
  simp only [read_entry, wire_entry, read_tag_list_eq, map_bind, map_pure, bind_map_left]

theorem sound_of_wire_entry {i : Nat} {reader after : Cursor UInt8} {entry : Bytes × List WireTag}
    (hread : wire_entry truncated i reader = .ok (entry, after)) : ∀ tag ∈ entry.2, tag.Sound := by
  obtain ⟨hash, middle, _, hread⟩ := cursor.bind_eq_ok_iff.mp hread
  obtain ⟨tags, last, htags, hread⟩ := cursor.bind_eq_ok_iff.mp hread
  cases hread
  exact sound_of_wire_tag_list htags

theorem sound_of_readable {payload : Bytes} : ∀ entry ∈ (readable payload).1, ∀ tag ∈ entry.2, tag.Sound :=
  forall_of_scan (fun _ _ _ _ hread => sound_of_wire_entry answer_truncated hread) _ _ _

theorem raises_read_tag_bytes : ∀ n, Raises (read_tag_bytes n) IsKadSearchError := Raises.takeN fun _ _ => ⟨_, rfl⟩

theorem raises_read_raw (by_type : UInt8) (name : Bytes) : Raises (read_raw by_type name) IsKadSearchError := by
  rw [read_raw]
  apply Raises.ite
  · exact (raises_read_tag_bytes 2).map.bind raises_read_tag_bytes
  apply Raises.ite
  · exact (raises_read_tag_bytes 1).map.bind raises_read_tag_bytes
  · cases fixed_width by_type with
    | none => exact Raises.throw ⟨_, rfl⟩
    | some width => exact raises_read_tag_bytes width

theorem raises_next_wire_tag : Raises next_wire_tag IsKadSearchError := by
  have htag : Raises wire_tag IsKadSearchError :=
    (raises_read_tag_bytes 1).bind fun by_type => (raises_read_tag_bytes 2).map.bind fun length =>
      (raises_read_tag_bytes length).bind fun name => (raises_read_raw (by_type.headD 0) name).bind fun raw => Raises.pure _
  intro reader e herror
  rw [next_wire_tag] at herror
  split at herror
  · cases herror
    exact ⟨_, rfl⟩
  · exact htag reader e herror

theorem raises_wire_entry (htruncated : ∀ i n reader, IsKadSearchError (truncated i n reader)) (i : Nat) :
    Raises (wire_entry truncated i) IsKadSearchError := by
  have hcount : Raises read_tag_count IsKadSearchError := (Raises.takeN (fun _ _ => ⟨_, rfl⟩) 1).map
  exact (Raises.takeN (htruncated i) 16).bind fun hash =>
    (hcount.bind fun count => raises_next_wire_tag.repeatN count).bind fun tags => Raises.pure (hash, tags)

/-- Which entries can be read does not depend on the parser. -/
theorem wire_entry_congr (other : Nat → Nat → Cursor UInt8 → Exc) (i : Nat) (reader : Cursor UInt8)
    (result : (Bytes × List WireTag) × Cursor UInt8) :
    wire_entry truncated i reader = .ok result ↔ wire_entry other i reader = .ok result := by
  obtain ⟨entry, after⟩ := result
  have hhash : ∀ hash middle, takeN (truncated i) 16 reader = .ok (hash, middle) ↔
      takeN (other i) 16 reader = .ok (hash, middle) := by
    intro hash middle
    rw [takeN, takeN]
    split
    · exact iff_of_false (fun hread => by cases hread) (fun hread => by cases hread)
    · rfl
  rw [wire_entry, wire_entry, cursor.bind_eq_ok_iff, cursor.bind_eq_ok_iff]
  simp only [hhash]

theorem scan_wire_entry (payload : Bytes) :
    (scan (wire_entry truncated) 0 (announced_answers payload) ⟨payload, 34⟩).1 = (readable payload).1 :=
  scan_congr (wire_entry_congr truncated answer_truncated) _ _ _

variable {short : Nat → Cursor UInt8 → Exc} {α : Type}

/-- The entries are read behind the header. -/
theorem read_search_entries_eq (replace : Bytes → String) (build : Bytes × List (Bytes × KadValue) → Except Exc α)
    {payload : Bytes} (hlength : 34 ≤ payload.length) :
    read_search_entries replace short truncated build ⟨payload, 0⟩ =
      buildN (wire_entry truncated) (fun entry => build (entry.1, entry.2.map (WireTag.tag replace))) 0
        (announced_answers payload) ⟨payload, 34⟩ := by
  have hids : 16 ≤ payload.length ∧ 32 ≤ payload.length := by omega
  have hfirst : takeN short 16 ⟨payload, 0⟩ = .ok (payload.extract 0 16, ⟨payload, 16⟩) := takeN_ok hids.1
  have hsecond : takeN short 16 ⟨payload, 16⟩ = .ok (payload.extract 16 32, ⟨payload, 32⟩) := takeN_ok hids.2
  have hcount : takeN short 2 ⟨payload, 32⟩ = .ok (payload.extract 32 34, ⟨payload, 34⟩) := takeN_ok hlength
  have hread : read_entry replace truncated =
      fun i => (fun entry => (entry.1, entry.2.map (WireTag.tag replace))) <$> wire_entry truncated i :=
    funext fun i => read_entry_eq truncated replace i
  rw [read_search_entries, bind_ok hfirst, bind_ok hsecond, bind_ok (map_ok hcount), hread, buildN_map]
  rfl

end Reading

section Answers

variable (replace : Bytes → String) (float : FloatRepack)

/-- The tags of an answer are encoded again where none of them has become too long. -/
theorem encode_tags_cases {tags : List WireTag} (hsound : ∀ tag ∈ tags, tag.Sound) :
    (∀ tag ∈ tags, ¬tag.Overlong replace) ∧
        ((tags.map (WireTag.tag replace)).map fun tag => (tag.1, tag.2.repacked float)).mapM
          (fun tag => encode_tag_for_raw tag.1 tag.2) = .ok (tags.map fun tag => (tag.rewritten replace float).bytes) ∨
      (∃ tag ∈ tags, tag.Overlong replace) ∧
        ((tags.map (WireTag.tag replace)).map fun tag => (tag.1, tag.2.repacked float)).mapM
          (fun tag => encode_tag_for_raw tag.1 tag.2) = .error .StructError := by
  induction tags with
  | nil => exact .inl ⟨fun tag hmem => absurd hmem List.not_mem_nil, rfl⟩
  | cons tag rest ih =>
    rw [List.forall_mem_cons] at hsound
    have hencode : encode_tag_for_raw (tag.tag replace).1 ((tag.tag replace).2.repacked float) = _ :=
      WireTag.encode_repacked replace float hsound.1
    rw [List.map_cons, List.map_cons, List.mapM_cons]
    dsimp only
    rw [hencode]
    by_cases hlong : tag.Overlong replace
    · rw [if_pos hlong]
      exact .inr ⟨⟨tag, List.mem_cons_self, hlong⟩, rfl⟩
    rw [if_neg hlong, ok_bind]
    rcases ih hsound.2 with ⟨hall, hmapped⟩ | ⟨⟨other, hmem, hother⟩, hmapped⟩
    · rw [hmapped]
      exact .inl ⟨List.forall_mem_cons.mpr ⟨hlong, hall⟩, rfl⟩
    · rw [hmapped]
      exact .inr ⟨⟨other, List.mem_cons_of_mem tag hmem, hother⟩, rfl⟩

/-- The raw tags of an item are its tags as they are written again. -/
theorem repacked_item_cases (hash : Bytes) {tags : List WireTag} (hsound : ∀ tag ∈ tags, tag.Sound) :
    (∀ tag ∈ tags, ¬tag.Overlong replace) ∧
        (∃ item, repacked_item float (hash, tags.map (WireTag.tag replace)) = .ok item ∧
          item.raw_tags = (tags.map fun tag => (tag.rewritten replace float).bytes).flatten) ∨
      (∃ tag ∈ tags, tag.Overlong replace) ∧
        repacked_item float (hash, tags.map (WireTag.tag replace)) = .error .StructError := by
  rw [repacked_item, answer_item]
  rcases encode_tags_cases replace float hsound with ⟨hall, hmapped⟩ | ⟨hlong, hmapped⟩
  · rw [hmapped]
    exact .inl ⟨hall, _, rfl, rfl⟩
  · rw [hmapped]
    exact .inr ⟨hlong, rfl⟩

end Answers

/-- An address of more than four bytes, which `struct.pack("<I", …)` refuses. -/
def WireTag.WideAddress (tag : WireTag) : Prop :=
  tag.by_type = TAGTYPE_UINT64 ∧ (tag.name = TAGNAME_SOURCEIP ∨ tag.name = TAGNAME_SERVERIP) ∧ 2 ^ 32 ≤ decode tag.raw

theorem WireTag.Sound.length_eq {tag : WireTag} (hsound : tag.Sound) {by_type : UInt8} {width : Nat}
    (htype : tag.by_type = by_type) (hstring : by_type ≠ TAGTYPE_STRING) (hbsob : by_type ≠ TAGTYPE_BSOB)
    (hwidth : fixed_width by_type = some width) : tag.raw.length = width := by
  subst htype
  exact Option.some.inj ((hsound.fixed hstring hbsob).symm.trans hwidth)

theorem WireTag.Sound.length_le_four {tag : WireTag} (hsound : tag.Sound)
    (hnumber : tag.by_type ∈ [TAGTYPE_UINT64, TAGTYPE_UINT32, TAGTYPE_UINT16, TAGTYPE_UINT8])
    (hu64 : tag.by_type ≠ TAGTYPE_UINT64) : tag.raw.length ≤ 4 := by
  have hcases : tag.by_type = TAGTYPE_UINT32 ∨ tag.by_type = TAGTYPE_UINT16 ∨ tag.by_type = TAGTYPE_UINT8 := by
    simpa only [List.mem_cons, List.not_mem_nil, or_false] using List.mem_of_ne_of_mem hu64 hnumber
  rcases hcases with hu32 | hu16 | hu8
  · have hlength : tag.raw.length = 4 := hsound.length_eq hu32 (by decide) (by decide) rfl
    exact hlength.le
  · have hlength : tag.raw.length = 2 := hsound.length_eq hu16 (by decide) (by decide) rfl
    exact hlength.trans_le (by decide)
  · have hlength : tag.raw.length = 1 := hsound.length_eq hu8 (by decide) (by decide) rfl
    exact hlength.trans_le (by decide)

section Fields

variable (replace : Bytes → String) (ipv6_text : Bytes → String) (fields : SourceFields)

theorem take_number_ok {name : Bytes} {number : Nat}
    (hfits : name = TAGNAME_SOURCEIP ∨ name = TAGNAME_SERVERIP → number < 256 ^ 4) :
    ∃ next, fields.take_number name number = .ok next := by
  by_cases haddress : name = TAGNAME_SOURCEIP ∨ name = TAGNAME_SERVERIP
  · have hpack : struct_pack 4 number = .ok (encode 4 number) := if_pos (hfits haddress)
    rw [SourceFields.take_number, hpack]
    split_ifs <;> exact ⟨_, rfl⟩
  · rw [not_or] at haddress
    rw [SourceFields.take_number, if_neg haddress.1, if_neg haddress.2]
    split_ifs <;> exact ⟨_, rfl⟩

theorem take_number_error {name : Bytes} {number : Nat} (haddress : name = TAGNAME_SOURCEIP ∨ name = TAGNAME_SERVERIP)
    (hwide : 256 ^ 4 ≤ number) : fields.take_number name number = .error .StructError := by
  have hpack : struct_pack 4 number = .error .StructError := if_neg (Nat.not_lt.mpr hwide)
  have hnumber : number ≠ 0 := by omega
  rcases haddress with rfl | rfl
  · rw [SourceFields.take_number, if_neg (by decide), if_pos rfl, if_pos hnumber, hpack]
    rfl
  · rw [SourceFields.take_number, if_neg (by decide), if_neg (by decide), if_neg (by decide), if_neg (by decide),
      if_pos rfl, if_pos hnumber, hpack]
    rfl

/-- What a tag does to the fields, by the type on the wire. -/
theorem take_tag_eq (tag : WireTag) :
    fields.take_tag ipv6_text (tag.tag replace) =
      if tag.by_type = TAGTYPE_STRING then .ok (fields.take_text ipv6_text tag.name (decode_replace replace tag.raw))
      else if tag.by_type ∈ [TAGTYPE_UINT64, TAGTYPE_UINT32, TAGTYPE_UINT16, TAGTYPE_UINT8] then
        fields.take_number tag.name (decode tag.raw)
      else .ok fields := by
  obtain ⟨by_type, name, raw⟩ := tag
  simp only [SourceFields.take_tag, WireTag.tag, WireTag.value]
  split_ifs <;>
    simp_all [KadValue.int?, TAGTYPE_HASH, TAGTYPE_STRING, TAGTYPE_UINT64, TAGTYPE_UINT32, TAGTYPE_UINT16, TAGTYPE_UINT8]

/-- Of the tags that can be read, only those with a wide address are refused. -/
theorem take_tag_cases {tag : WireTag} (hsound : tag.Sound) :
    ¬tag.WideAddress ∧ (∀ fields : SourceFields, ∃ next, fields.take_tag ipv6_text (tag.tag replace) = .ok next) ∨
      ¬¬tag.WideAddress ∧
        ∀ fields : SourceFields, fields.take_tag ipv6_text (tag.tag replace) = .error .StructError := by
  by_cases hwide : tag.WideAddress
  · refine .inr ⟨not_not_intro hwide, fun fields => ?_⟩
    obtain ⟨htype, haddress, hlarge⟩ := hwide
    rw [take_tag_eq, htype, if_neg (by decide), if_pos (by decide)]
    exact take_number_error fields haddress hlarge
  refine .inl ⟨hwide, fun fields => ?_⟩
  rw [take_tag_eq]
  by_cases hstring : tag.by_type = TAGTYPE_STRING
  · rw [if_pos hstring]
    exact ⟨_, rfl⟩
  rw [if_neg hstring]
  by_cases hnumber : tag.by_type ∈ [TAGTYPE_UINT64, TAGTYPE_UINT32, TAGTYPE_UINT16, TAGTYPE_UINT8]
  · rw [if_pos hnumber]
    refine take_number_ok fields fun haddress => ?_
    by_cases hu64 : tag.by_type = TAGTYPE_UINT64
    · exact Nat.not_le.mp fun hlarge => hwide ⟨hu64, haddress, hlarge⟩
    · -- the other types have at most four bytes
      have hwidth : tag.raw.length ≤ 4 := hsound.length_le_four hnumber hu64
      exact Nat.lt_of_lt_of_le (decode_lt tag.raw) (Nat.pow_le_pow_right (by decide) hwidth)
  · rw [if_neg hnumber]
    exact ⟨_, rfl⟩

/-- The fields of a source are found where none of its tags has a wide address. -/
theorem source_entry_cases (hash : Bytes) {tags : List WireTag} (hsound : ∀ tag ∈ tags, tag.Sound) :
    (∀ tag ∈ tags, ¬tag.WideAddress) ∧
        (∃ entry, source_entry ipv6_text (hash, tags.map (WireTag.tag replace)) = .ok entry) ∨
      (∃ tag ∈ tags, tag.WideAddress) ∧
        source_entry ipv6_text (hash, tags.map (WireTag.tag replace)) = .error .StructError := by
  rw [source_entry, List.foldlM_map]
  rcases foldlM_cases (fun tag hmem => take_tag_cases replace ipv6_text (hsound tag hmem)) {} with
    ⟨hall, fields, hfold⟩ | ⟨⟨tag, hmem, hwide⟩, hfold⟩
  · rw [hfold]
    exact .inl ⟨hall, _, rfl⟩
  · rw [hfold]
    exact .inr ⟨⟨tag, hmem, not_not.mp hwide⟩, rfl⟩

end Fields

section Parsing

variable {α : Type} {short : Nat → Cursor UInt8 → Exc} {truncated : Nat → Nat → Cursor UInt8 → Exc}
  {replace : Bytes → String} {build : Bytes × List (Bytes × KadValue) → Except Exc α} {payload : Bytes}

/-- A payload without a whole header has no answers. -/
theorem readable_of_short (hlength : payload.length < 34) : (readable payload).1 = [] := by
  have hentry : wire_entry answer_truncated 0 ⟨payload, 34⟩ = .error (answer_truncated 0 16 ⟨payload, 34⟩) := by
    have htake : takeN (answer_truncated 0) 16 ⟨payload, 34⟩ = .error (answer_truncated 0 16 ⟨payload, 34⟩) :=
      if_pos (by dsimp only; omega)
    rw [wire_entry, bind_error htake]
  rw [readable]
  cases announced_answers payload with
  | zero => rfl
  | succ count => rw [scan, hentry]

theorem read_search_entries_of_short (hshort : ∀ n reader, IsKadSearchError (short n reader))
    (hlength : payload.length < 34) :
    ∃ e, read_search_entries replace short truncated build ⟨payload, 0⟩ = .error e ∧ IsKadSearchError e := by
  have herror : ∀ n pos, payload.length < pos + n →
      takeN short n ⟨payload, pos⟩ = .error (short n ⟨payload, pos⟩) := fun n pos hcut => if_pos hcut
  rw [read_search_entries]
  by_cases hfirst : payload.length < 16
  · rw [bind_error (herror 16 0 (by omega))]
    exact ⟨_, rfl, hshort _ _⟩
  rw [bind_ok (takeN_ok (by dsimp only; omega))]
  by_cases hsecond : payload.length < 32
  · rw [bind_error (herror 16 16 (by omega))]
    exact ⟨_, rfl, hshort _ _⟩
  rw [bind_ok (takeN_ok (by dsimp only; omega)), bind_error (map_error (herror 2 32 (by omega)))]
  exact ⟨_, rfl, hshort _ _⟩

theorem not_kad_search_error : ¬IsKadSearchError .StructError := by
  rintro ⟨message, hmessage⟩
  cases hmessage

/-- A parser that only `struct.error` can stop is handled where no tag that can be read raises it. -/
theorem handled_iff {bad : WireTag → Prop} (hshort : ∀ n reader, IsKadSearchError (short n reader))
    (htruncated : ∀ i n reader, IsKadSearchError (truncated i n reader))
    (hbuild : ∀ entry ∈ (readable payload).1,
      (∀ tag ∈ entry.2, ¬bad tag) ∧ (∃ made, build (entry.1, entry.2.map (WireTag.tag replace)) = .ok made) ∨
        (∃ tag ∈ entry.2, bad tag) ∧ build (entry.1, entry.2.map (WireTag.tag replace)) = .error .StructError) :
    Handled (Prod.fst <$> read_search_entries replace short truncated build ⟨payload, 0⟩) ↔
      ∀ tag, Readable payload tag → ¬bad tag := by
  by_cases hlength : payload.length < 34
  · obtain ⟨e, herror, hallowed⟩ := read_search_entries_of_short hshort hlength
    rw [herror]
    refine iff_of_true (.inr ⟨e, rfl, hallowed⟩) ?_
    rintro tag ⟨entry, hmem, htag⟩
    rw [readable_of_short hlength] at hmem
    cases hmem
  have hraised : ∀ entry ∈ (readable payload).1, ∀ e,
      build (entry.1, entry.2.map (WireTag.tag replace)) = .error e → ¬IsKadSearchError e := by
    intro entry hmem e herror
    rcases hbuild entry hmem with ⟨_, made, hmade⟩ | ⟨_, hraised⟩
    · rw [hmade] at herror
      cases herror
    · rw [hraised] at herror
      cases herror
      exact not_kad_search_error
  rw [← scan_wire_entry truncated payload] at hraised
  rw [read_search_entries_eq truncated replace build (Nat.not_lt.mp hlength), Handled,
    buildN_returns_or_iff (fun i => raises_wire_entry truncated htruncated i) hraised, scan_wire_entry]
  constructor
  · rintro hall tag ⟨entry, hmem, htag⟩
    rcases hbuild entry hmem with ⟨hgood, _⟩ | ⟨_, hraised⟩
    · exact hgood tag htag
    · obtain ⟨made, hmade⟩ := hall entry hmem
      rw [hraised] at hmade
      cases hmade
  · intro hgood entry hmem
    rcases hbuild entry hmem with ⟨_, hmade⟩ | ⟨⟨tag, htag, hbad⟩, _⟩
    · exact hmade
    · exact absurd hbad (hgood tag ⟨entry, hmem, htag⟩)

/-- The answers are built from all that is announced. -/
theorem read_search_entries_ok_iff (hlength : 34 ≤ payload.length) {made : List α} :
    Prod.fst <$> read_search_entries replace short answer_truncated build ⟨payload, 0⟩ = .ok made ↔
      Whole payload ∧
        (readable payload).1.mapM (fun entry => build (entry.1, entry.2.map (WireTag.tag replace))) = .ok made := by
  rw [read_search_entries_eq answer_truncated replace build hlength, buildN_eq_ok_iff]
  rfl

end Parsing

section Search

variable (replace : Bytes → String) (float : FloatRepack) (ipv6_text : Bytes → String) (payload : Bytes)

theorem handled_answers_iff :
    Handled (search_res_answers replace float payload) ↔ ∀ tag, Readable payload tag → ¬tag.Overlong replace := by
  refine handled_iff (fun _ _ => ⟨_, rfl⟩) (fun _ _ _ => ⟨_, rfl⟩) fun entry hmem => ?_
  rcases repacked_item_cases replace float entry.1 (sound_of_readable entry hmem) with ⟨hall, item, hitem, _⟩ | hlong
  · exact .inl ⟨hall, item, hitem⟩
  · exact .inr hlong

theorem handled_sources_iff :
    Handled (parse_search_res_source_entries replace ipv6_text payload) ↔
      ∀ tag, Readable payload tag → ¬tag.WideAddress :=
  handled_iff (fun _ _ => ⟨_, rfl⟩) (fun _ _ _ => ⟨_, rfl⟩) fun entry hmem =>
    source_entry_cases replace ipv6_text entry.1 (sound_of_readable entry hmem)

variable {replace float payload}

/-- The raw tags of the items are the tags of the answers as they are written again. -/
theorem raw_tags_of_answers {items : List KadSearchResultItem}
    (hitems : search_res_answers replace float payload = .ok items) :
    Whole payload ∧ items.map (·.raw_tags) =
      (readable payload).1.map fun entry => (entry.2.map fun tag => (tag.rewritten replace float).bytes).flatten := by
  have hlength : 34 ≤ payload.length := by
    by_contra hshort
    have hstopped : ∃ e,
        read_search_entries replace search_res_truncated answer_truncated (repacked_item float) ⟨payload, 0⟩ = .error e ∧
          IsKadSearchError e :=
      read_search_entries_of_short (fun _ _ => ⟨_, rfl⟩) (Nat.not_le.mp hshort)
    obtain ⟨e, herror, _⟩ := hstopped
    rw [search_res_answers, herror] at hitems
    cases hitems
  obtain ⟨hwhole, hmapped⟩ := (read_search_entries_ok_iff hlength).mp hitems
  refine ⟨hwhole, map_of_mapM (fun entry hmem item hitem => ?_) hmapped⟩
  rcases repacked_item_cases replace float entry.1 (sound_of_readable entry hmem) with
    ⟨_, made, hmade, hraw⟩ | ⟨_, herror⟩
  · rw [hmade] at hitem
    cases hitem
    exact hraw
  · rw [herror] at hitem
    cases hitem

/-- A whole payload whose tags can be encoded again has answers. -/
theorem answers_of_whole (hwhole : Whole payload) (hlength : 34 ≤ payload.length)
    (hshort : ∀ tag, Readable payload tag → ¬tag.Overlong replace) :
    ∃ items, search_res_answers replace float payload = .ok items := by
  have hitems : ∀ entry ∈ (readable payload).1,
      ∃ item, repacked_item float (entry.1, entry.2.map (WireTag.tag replace)) = .ok item := by
    intro entry hmem
    rcases repacked_item_cases replace float entry.1 (sound_of_readable entry hmem) with
      ⟨_, item, hitem, _⟩ | ⟨⟨tag, htag, hlong⟩, _⟩
    · exact ⟨item, hitem⟩
    · exact absurd hlong (hshort tag ⟨entry, hmem, htag⟩)
  obtain ⟨items, hmapped⟩ := exists_mapM_iff.mpr hitems
  exact ⟨items, (read_search_entries_ok_iff hlength).mpr ⟨hwhole, hmapped⟩⟩

/-- The raw tags are those on the wire where each of them is written as it was read. -/
theorem raw_tags_eq_iff (hshort : ∀ tag, Readable payload tag → ¬tag.Overlong replace) :
    ((readable payload).1.map fun entry => (entry.2.map fun tag => (tag.rewritten replace float).bytes).flatten) =
        answer_blocks payload ↔ ∀ tag, Readable payload tag → tag.Kept float := by
  rw [answer_blocks_eq, List.map_inj_left]
  have hentry : ∀ entry ∈ (readable payload).1, ((entry.2.map fun tag => (tag.rewritten replace float).bytes).flatten =
      (entry.2.map WireTag.bytes).flatten ↔ ∀ tag ∈ entry.2, tag.Kept float) := fun entry hmem =>
    WireTag.flatten_rewritten_iff replace float (sound_of_readable entry hmem) fun tag htag =>
      hshort tag ⟨entry, hmem, htag⟩
  constructor
  · rintro hsame tag ⟨entry, hmem, htag⟩
    exact (hentry entry hmem).mp (hsame entry hmem) tag htag
  · intro hkept entry hmem
    exact (hentry entry hmem).mpr fun tag htag => hkept tag ⟨entry, hmem, htag⟩

variable (replace float payload)

/-- Both parsers of a `KADEMLIA2_SEARCH_RES` raise nothing but what their callers catch, and the answers carry the tags
of the wire, exactly where no text has become too long, no address is wider than four bytes and, if all that is announced
can be read, every text is UTF-8 and every float is packed as it was. -/
theorem search_res_handled_iff :
    (Handled (search_res_answers replace float payload) ∧
        Handled (parse_search_res_source_entries replace ipv6_text payload) ∧
        ∀ items, search_res_answers replace float payload = .ok items →
          items.length = announced_answers payload ∧ items.map (·.raw_tags) = answer_blocks payload) ↔
      (∀ tag, Readable payload tag → ¬tag.Overlong replace ∧ ¬tag.WideAddress) ∧
        (Whole payload → ∀ tag, Readable payload tag → tag.Kept float) := by
  rw [handled_answers_iff, handled_sources_iff]
  constructor
  · rintro ⟨hshort, hnarrow, hexact⟩
    refine ⟨fun tag hread => ⟨hshort tag hread, hnarrow tag hread⟩, fun hwhole tag hread => ?_⟩
    have hlength : 34 ≤ payload.length := by
      by_contra hcut
      obtain ⟨entry, hmem, _⟩ := hread
      rw [readable_of_short (Nat.not_le.mp hcut)] at hmem
      cases hmem
    have hanswers : ∃ items, search_res_answers replace float payload = .ok items :=
      answers_of_whole hwhole hlength hshort
    obtain ⟨items, hitems⟩ := hanswers
    have hsame := (hexact items hitems).2
    rw [(raw_tags_of_answers hitems).2, raw_tags_eq_iff hshort] at hsame
    exact hsame tag hread
  · rintro ⟨hgood, hkept⟩
    have hshort : ∀ tag, Readable payload tag → ¬tag.Overlong replace := fun tag hread => (hgood tag hread).1
    refine ⟨hshort, fun tag hread => (hgood tag hread).2, fun items hitems => ?_⟩
    obtain ⟨hwhole, hraw⟩ := raw_tags_of_answers hitems
    have hcount := congrArg List.length hraw
    rw [List.length_map, List.length_map, readable, length_scan hwhole] at hcount
    rw [hraw]
    exact ⟨hcount, (raw_tags_eq_iff hshort).mpr (hkept hwhole)⟩

end Search

/-- An answer with a name that is not UTF-8 and a source address of five bytes. -/
def hostile_payload : Bytes :=
  List.replicate 32 0 ++ [1, 0] ++ List.replicate 16 7 ++ [2] ++ [0x02, 1, 0, 0x01, 1, 0, 0xFF] ++
    [0x0B, 1, 0, 0xFE, 0, 0, 0, 0, 1, 0, 0, 0]

/-- Its sources raise `struct.error`, and its answer carries other tags than the wire. -/
theorem hostile_search_res :
    ¬Handled (parse_search_res_source_entries (fun _ => "\uFFFD") (fun _ => "::") hostile_payload) ∧
      ∃ items, search_res_answers (fun _ => "\uFFFD") ⟨fun raw => raw, fun _ => rfl⟩ hostile_payload = .ok items ∧
        items.map (·.raw_tags) ≠ answer_blocks hostile_payload := by
  have hsources : parse_search_res_source_entries (fun _ => "\uFFFD") (fun _ => "::") hostile_payload =
      .error .StructError := by
    rfl
  have hblocks : answer_blocks hostile_payload =
      [[0x02, 1, 0, 0x01, 1, 0, 0xFF, 0x0B, 1, 0, 0xFE, 0, 0, 0, 0, 1, 0, 0, 0]] := by
    rfl
  have hitems : search_res_answers (fun _ => "\uFFFD") ⟨fun raw => raw, fun _ => rfl⟩ hostile_payload =
      .ok [⟨List.replicate 16 7, "\uFFFD", 0, 0,
        [0x02, 1, 0, 0x01, 3, 0, 0xEF, 0xBF, 0xBD, 0x0B, 1, 0, 0xFE, 0, 0, 0, 0, 1, 0, 0, 0]⟩] := by
    rfl
  refine ⟨?_, _, hitems, ?_⟩
  · rw [hsources]
    rintro (⟨_, hvalue⟩ | ⟨e, herror, hallowed⟩)
    · cases hvalue
    · cases herror
      exact not_kad_search_error hallowed
  · rw [hblocks]
    decide

end amuled.kad
