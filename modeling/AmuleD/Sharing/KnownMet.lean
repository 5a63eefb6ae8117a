import AmuleD.Codec.Struct
import AmuleD.Dict
import AmuleD.PyStr

open littleendian cursor pystr

namespace amuled.sharing

/-- The exceptions of the reader of `known.met` files. -/
inductive KnownMetFailure where
  | KnownMetError (message : String)
  | StructError (message : String)
  | IndexError
  deriving DecidableEq

structure KnownMetEntry where
  file_hash : PyStr
  name : PyStr
  size : Int
  last_modified : Int := 0
  part_hashes : List PyStr := []
  deriving DecidableEq

def FT_FILENAME : UInt8 := 0x01
def FT_FILESIZE : UInt8 := 0x02
def _TAG_STRING : UInt8 := 0x02
def _TAG_UINT32 : UInt8 := 0x03

section Reader

abbrev KnownRead (α : Type) := StateT (Cursor UInt8) (Except KnownMetFailure) α

/-- The value of a tag; a float is kept as its four bytes. -/
inductive KnownValue where
  | raw (data : Bytes)
  | text (points : PyStr)
  | int (value : Nat)
  | float (data : Bytes)

def known_unpack (width : Nat) : KnownRead Nat := struct_unpack_from .StructError width

def known_byte : KnownRead UInt8 := index fun _ => .IndexError

/-- Up to `length` bytes, decoded with replacements. -/
def known_text (length : Nat) : KnownRead PyStr := utf8.decode_replace <$> sliceN length

/-- Compact names have a single byte, and the others their length before them. -/
def known_tag_name (tag_type : UInt8) : KnownRead PyStr :=
  if tag_type &&& 0x80 ≠ 0 then do
    let name_id ← known_byte
    pure (0x23 :: lower_hex2 name_id)
  else do
    let name_len ← known_unpack 2
    known_text name_len

def known_tag_value (tag_type : UInt8) : KnownRead KnownValue :=
  if tag_type = 0x01 ∨ tag_type = 0x81 then .raw <$> sliceN 16
  else if tag_type = 0x02 ∨ tag_type = 0x82 then do
    let ln ← known_unpack 2
    .text <$> known_text ln
  else if 0x11 ≤ tag_type &&& 0x7F ∧ tag_type &&& 0x7F ≤ 0x30 then
    .text <$> known_text ((tag_type &&& 0x7F).toNat - 0x10)
  else if tag_type = 0x08 ∨ tag_type = 0x88 then .int <$> known_unpack 2
  else if tag_type = 0x09 ∨ tag_type = 0x89 then (fun byte => .int byte.toNat) <$> known_byte
  else if tag_type = 0x0A ∨ tag_type = 0x8A then do
    let ln ← known_unpack 2
    .raw <$> sliceN ln
  else if tag_type = 0x0B ∨ tag_type = 0x8B then .int <$> known_unpack 8
  else if tag_type = 0x03 ∨ tag_type = 0x83 then .int <$> known_unpack 4
  else if tag_type = 0x04 ∨ tag_type = 0x84 then
    .float <$> takeN (fun n cursor => .StructError (unpack_message n cursor)) 4
  else if tag_type = 0x07 ∨ tag_type = 0x87 then do
    let ln ← known_unpack 4
    .raw <$> sliceN ln
  else fun cursor => .error (.KnownMetError s!"unknown tag type 0x{hex_lower [tag_type]} at offset {cursor.pos - 1}")

def known_tag : KnownRead (PyStr × KnownValue) := do
  let tag_type ← known_byte
  let name ← known_tag_name tag_type
  let value ← known_tag_value tag_type
  pure (name, value)

def _read_tags (tag_count : Nat) : KnownRead (Dict PyStr KnownValue) := Dict.ofList <$> repeatN known_tag tag_count

/-- `bool(value)`: a float is false where only its sign may be set. -/
def KnownValue.truthy : KnownValue → Bool
  | .raw data => !data.isEmpty
  | .text points => !points.isEmpty
  | .int value => value != 0
  | .float data => decode data % 2 ^ 31 != 0

variable (str_of_float : Bytes → PyStr)

/-- `str(value)`, where that of a float is given. -/
def KnownValue.str : KnownValue → PyStr
  | .raw data => str_of_bytes data
  | .text points => points
  | .int value => decimal_text value
  | .float data => str_of_float data

/-- `tags.get("\x01") or tags.get("#01") or ""`, as text. -/
def known_name (tags : Dict PyStr KnownValue) : PyStr :=
  match (tags.get [0x01]).filter KnownValue.truthy with
  | some value => value.str str_of_float
  | none =>
    match (tags.get (lit "#01")).filter KnownValue.truthy with
    | some value => value.str str_of_float
    | none => []

/-- `tags.get("\x02", tags.get("#02", -1))`, unless that is no number. -/
def known_size (tags : Dict PyStr KnownValue) : Int :=
  match (tags.get [0x02]).or (tags.get (lit "#02")) with
  | some (.int value) => value
  | _ => -1

def known_record : KnownRead KnownMetEntry := do
  let date ← known_unpack 4
  let file_hash ← sliceN 16
  let part_count ← known_unpack 2
  let part_hashes ← repeatN (upper_hex <$> sliceN 16) part_count
  let tag_count ← known_unpack 4
  let tags ← _read_tags tag_count
  pure {
    file_hash := upper_hex file_hash
    name := known_name str_of_float tags
    size := known_size tags
    last_modified := date
    part_hashes := part_hashes }

def known_records : KnownRead (List KnownMetEntry) := do
  let count ← known_unpack 4
  repeatN (known_record str_of_float) count

/-- `parse_known_met`, of the bytes of the file. -/
def parse_known_met (data : Bytes) : Except KnownMetFailure (List KnownMetEntry) :=
  match data.head? with
  | none => .error (.KnownMetError "empty file")
  | some header =>
    if header ≠ 0x0E ∧ header ≠ 0x0F then .error (.KnownMetError s!"bad known.met header: 0x{hex_lower [header]}")
    else
      match known_records str_of_float ⟨data, 1⟩ with
      | .ok (entries, _) => .ok entries
      | .error e => .error e

end Reader

section Writer

/-- `bytes.fromhex`. -/
def hash_bytes (text : PyStr) : Except Exc Bytes :=
  match fromhex text with
  | some raw => .ok raw
  | none => .error (.ValueError "non-hexadecimal number found in fromhex() arg")

/-- `name.encode("utf-8")`; a `UnicodeEncodeError` is a `ValueError`. -/
def name_bytes (name : PyStr) : Except Exc Bytes :=
  match utf8.encode name with
  | some raw => .ok raw
  | none => .error (.ValueError "'utf-8' codec can't encode characters: surrogates not allowed")

/-- `struct.pack("<I", number)`. -/
def pack_uint32 (number : Int) : Except Exc Bytes :=
  if number < 0 then .error .StructError else struct_pack 4 number.toNat

/-- The name and the size, in tags whose names are a single byte. -/
def write_tags (entry : KnownMetEntry) : Except Exc Bytes := do
  let name ← name_bytes entry.name
  let name_length ← struct_pack 2 name.length
  let size ← pack_uint32 (entry.size % 2 ^ 32)
  pure ([_TAG_STRING] ++ (encode 2 1 ++ ([FT_FILENAME] ++ (name_length ++ name))) ++
    ([_TAG_UINT32] ++ (encode 2 1 ++ ([FT_FILESIZE] ++ size))))

/-- A record; an entry without a date gets the given one. -/
def write_record (last_modified : Int) (entry : KnownMetEntry) : Except Exc Bytes := do
  let date ← pack_uint32 (if entry.last_modified ≠ 0 then entry.last_modified else last_modified)
  let file_hash ← hash_bytes entry.file_hash
  let part_count ← struct_pack 2 entry.part_hashes.length
  let part_hashes ← entry.part_hashes.mapM hash_bytes
  let tags ← write_tags entry
  pure (date ++ (file_hash ++ (part_count ++ (part_hashes.flatten ++ (encode 4 2 ++ tags)))))

/-- `write_known_met` at a time: the bytes of the file, and the number of its records. -/
def write_known_met (now : Nat) (entries : List KnownMetEntry) (last_modified : Option Int) :
    Except Exc (Bytes × Nat) := do
  let count ← struct_pack 4 entries.length
  let records ← entries.mapM (write_record (last_modified.getD now))
  pure (0x0F :: (count ++ records.flatten), entries.length)

end Writer

/-- A hash as the rest of the program writes it. -/
def is_hash (text : PyStr) : Prop := text.length = 32 ∧ ∀ point ∈ text, is_upper_hex point = true

instance (text : PyStr) : Decidable (is_hash text) :=
  inferInstanceAs (Decidable (text.length = 32 ∧ ∀ point ∈ text, is_upper_hex point = true))

/-- The entries that a file is made of. -/
structure KnownMetEntry.Storable (entry : KnownMetEntry) : Prop where
  file_hash : is_hash entry.file_hash
  name : ∃ raw, utf8.encode entry.name = some raw ∧ raw.length ≤ 65535
  size : 0 ≤ entry.size ∧ entry.size < 2 ^ 64
  last_modified : 0 < entry.last_modified ∧ entry.last_modified < 2 ^ 32
  part_hashes : ∀ part ∈ entry.part_hashes, is_hash part
  part_count : entry.part_hashes.length < 65536

/-- An entry with what a 32-bit tag keeps of its size. -/
def KnownMetEntry.stored (entry : KnownMetEntry) : KnownMetEntry := { entry with size := entry.size % 2 ^ 32 }

section Pieces

variable {ι β ε : Type} {read : Reading UInt8 ε β} {write : ι → Except Exc Bytes} {value : ι → β}

/-- What is written piece by piece is read piece by piece. -/
theorem written_pieces {items : List ι}
    (hpieces : ∀ item ∈ items, ∃ piece, write item = .ok piece ∧ Reads read piece (value item)) :
    ∃ pieces, items.mapM write = .ok pieces ∧ Reads (repeatN read items.length) pieces.flatten (items.map value) := by
  induction items with
  | nil => exact ⟨[], rfl, Reads.pure []⟩
  | cons item rest ih =>
    rw [List.forall_mem_cons] at hpieces
    obtain ⟨piece, hwritten, hread⟩ := hpieces.1
    obtain ⟨pieces, hrest, hreads⟩ := ih hpieces.2
    refine ⟨piece :: pieces, ?_, hread.repeatN_cons hreads⟩
    rw [List.mapM_cons, hwritten, ok_bind, hrest, ok_bind]
    rfl

theorem hash_written {text : PyStr} (htext : is_hash text) :
    ∃ raw, hash_bytes text = .ok raw ∧ raw.length = 16 ∧ upper_hex raw = text := by
  have hdigits : text.length = 2 * 16 := htext.1
  obtain ⟨raw, hlength, rfl⟩ := exists_upper_hex hdigits htext.2
  exact ⟨raw, by rw [hash_bytes, fromhex_upper_hex], hlength, rfl⟩

theorem reads_slice {raw : Bytes} {count : Nat} (hlength : raw.length = count) :
    Reads (sliceN count : KnownRead Bytes) raw raw := by
  subst hlength
  exact Reads.sliceN raw

theorem parts_written {parts : List PyStr} (hparts : ∀ part ∈ parts, is_hash part) :
    ∃ raws, parts.mapM hash_bytes = .ok raws ∧
      Reads (repeatN (upper_hex <$> sliceN 16 : KnownRead PyStr) parts.length) raws.flatten parts := by
  have hpieces : ∀ part ∈ parts, ∃ piece, hash_bytes part = .ok piece ∧
      Reads (upper_hex <$> sliceN 16 : KnownRead PyStr) piece (id part) := by
    intro part hpart
    obtain ⟨raw, hwritten, hlength, htext⟩ := hash_written (hparts part hpart)
    have hread := (reads_slice hlength).map (f := upper_hex)
    rw [htext] at hread
    exact ⟨raw, hwritten, hread⟩
  obtain ⟨raws, hwritten, hreads⟩ := written_pieces hpieces
  rw [List.map_id] at hreads
  exact ⟨raws, hwritten, hreads⟩

theorem pack_uint32_ok {number : Int} (hlow : 0 ≤ number) (hhigh : number < 2 ^ 32) :
    pack_uint32 number = .ok (encode 4 number.toNat) := by
  have hfits : number.toNat < 256 ^ 4 := by omega
  rw [pack_uint32, if_neg (Int.not_lt.mpr hlow), struct_pack, if_pos hfits]

end Pieces

section Tags

theorem reads_known_unpack {width value : Nat} (hfits : value < 256 ^ width) :
    Reads (known_unpack width) (encode width value) value := reads_struct_unpack_from _ hfits

/-- A tag whose name is a byte is read as what its value is read as. -/
theorem reads_known_tag {tag_type name_id : UInt8} {value : KnownValue} {front : Bytes} (htype : tag_type &&& 0x80 = 0)
    (hname : utf8.decode_replace [name_id] = [name_id.toNat]) (hvalue : Reads (known_tag_value tag_type) front value) :
    Reads known_tag ([tag_type] ++ (encode 2 1 ++ ([name_id] ++ front))) ([name_id.toNat], value) := by
  have hone : (1 : Nat) < 256 ^ 2 := by decide
  have htext : Reads (known_text 1) [name_id] [name_id.toNat] := by
    have hslice : Reads (sliceN 1 : KnownRead Bytes) [name_id] [name_id] := reads_slice rfl
    have hread := hslice.map (f := utf8.decode_replace)
    rwa [hname] at hread
  have hread : Reads (known_tag_name tag_type) (encode 2 1 ++ [name_id]) [name_id.toNat] := by
    rw [known_tag_name, if_neg (not_not.mpr htype)]
    exact (reads_known_unpack hone).bind htext
  have hrest : Reads (known_tag_name tag_type >>= fun name => known_tag_value tag_type >>= fun value => pure (name, value))
      (encode 2 1 ++ ([name_id] ++ front)) ([name_id.toNat], value) := by
    rw [← List.append_assoc]
    exact hread.bind hvalue.bind_pure
  exact (Reads.index (fun _ => KnownMetFailure.IndexError) tag_type).bind hrest

theorem reads_text_value {name : PyStr} {raw : Bytes} (hname : utf8.encode name = some raw) (hlength : raw.length ≤ 65535) :
    Reads (known_tag_value _TAG_STRING) (encode 2 raw.length ++ raw) (.text name) := by
  have hfits : raw.length < 256 ^ 2 := by omega
  have hread := ((reads_slice rfl).map (f := utf8.decode_replace) : Reads (known_text raw.length) raw _)
  rw [utf8.decode_replace_encode hname] at hread
  exact (reads_known_unpack hfits).bind (hread.map (f := KnownValue.text))

theorem reads_uint32_value {size : Nat} (hfits : size < 256 ^ 4) :
    Reads (known_tag_value _TAG_UINT32) (encode 4 size) (.int size) :=
  (reads_known_unpack hfits).map (f := KnownValue.int)

/-- The two tags of an entry, of which the size is cut to 32 bits. -/
theorem tags_written {entry : KnownMetEntry} (hentry : entry.Storable) :
    ∃ tags, write_tags entry = .ok tags ∧
      Reads (repeatN known_tag 2) tags [([0x01], .text entry.name), ([0x02], .int (entry.size % 2 ^ 32).toNat)] := by
  obtain ⟨raw, hname, hlength⟩ := hentry.name
  have hraw : name_bytes entry.name = .ok raw := by rw [name_bytes, hname]
  have hlow : 0 ≤ entry.size % 2 ^ 32 := Int.emod_nonneg _ (by decide)
  have hhigh : entry.size % 2 ^ 32 < 2 ^ 32 := Int.emod_lt_of_pos _ (by decide)
  have hpack : struct_pack 2 raw.length = .ok (encode 2 raw.length) := if_pos (by omega)
  have hsize : (entry.size % 2 ^ 32).toNat < 256 ^ 4 := by omega
  have hfirst_name : utf8.decode_replace [FT_FILENAME] = [FT_FILENAME.toNat] := rfl
  have hsecond_name : utf8.decode_replace [FT_FILESIZE] = [FT_FILESIZE.toNat] := rfl
  have hfirst := reads_known_tag (by decide) hfirst_name (reads_text_value hname hlength)
  have hsecond := reads_known_tag (by decide) hsecond_name (reads_uint32_value hsize)
  refine ⟨_, ?_, hfirst.repeatN_cons (hsecond.repeatN_cons (Reads.pure []))⟩
  rw [write_tags, hraw, ok_bind, hpack, ok_bind, pack_uint32_ok hlow hhigh, ok_bind, List.append_nil]
  rfl

end Tags

variable (str_of_float : Bytes → PyStr)

/-- What the tags of a record make of its entry. -/
def written_tags (entry : KnownMetEntry) : Dict PyStr KnownValue :=
  Dict.ofList [([0x01], .text entry.name), ([0x02], .int (entry.size % 2 ^ 32).toNat)]

theorem known_size_written (entry : KnownMetEntry) : known_size (written_tags entry) = entry.size % 2 ^ 32 := by
  have hget : (written_tags entry).get [0x02] = some (.int (entry.size % 2 ^ 32).toNat) :=
    Dict.get_ofList_of_mem (by simp) (by simp)
  have hlow : 0 ≤ entry.size % 2 ^ 32 := Int.emod_nonneg _ (by decide)
  rw [known_size, hget, Option.some_or]
  exact Int.toNat_of_nonneg hlow

theorem known_name_written (entry : KnownMetEntry) : known_name str_of_float (written_tags entry) = entry.name := by
  have hget : (written_tags entry).get [0x01] = some (.text entry.name) :=
    Dict.get_ofList_of_mem (by simp) (by simp)
  have hcompact : (written_tags entry).get (lit "#01") = none := Dict.get_ofList_of_not_mem (by simp [lit])
  rw [known_name, hget, hcompact]
  cases hname : entry.name with
  | nil => rfl
  | cons point rest => rfl

/-- A record is read as its entry, with its size cut to 32 bits. -/
theorem record_written (last_modified : Int) {entry : KnownMetEntry} (hentry : entry.Storable) :
    ∃ record, write_record last_modified entry = .ok record ∧
      Reads (known_record str_of_float) record entry.stored := by
  obtain ⟨raw, hhash, hlength, htext⟩ := hash_written hentry.file_hash
  obtain ⟨raws, hparts, hreads_parts⟩ := parts_written hentry.part_hashes
  obtain ⟨tags, htags, hreads_tags⟩ := tags_written hentry
  obtain ⟨hpositive, hdate_lt⟩ := hentry.last_modified
  have hdate : (if entry.last_modified ≠ 0 then entry.last_modified else last_modified) = entry.last_modified :=
    if_pos (by omega)
  have hcount := hentry.part_count
  have hpack : struct_pack 2 entry.part_hashes.length = .ok (encode 2 entry.part_hashes.length) := if_pos (by omega)
  refine ⟨encode 4 entry.last_modified.toNat ++ (raw ++ (encode 2 entry.part_hashes.length ++ (raws.flatten ++
    (encode 4 2 ++ tags)))), ?_, ?_⟩
  · rw [write_record, hdate, pack_uint32_ok hpositive.le hdate_lt, ok_bind, hhash, ok_bind, hpack, ok_bind, hparts,
      ok_bind, htags, ok_bind]
    rfl
  · have hdate_fits : entry.last_modified.toNat < 256 ^ 4 := by omega
    have hcount_fits : entry.part_hashes.length < 256 ^ 2 := by omega
    have htwo : 2 < 256 ^ 4 := by decide
    refine (reads_known_unpack hdate_fits).bind ((reads_slice hlength).bind ((reads_known_unpack hcount_fits).bind
      (hreads_parts.bind ((reads_known_unpack htwo).bind (hreads_tags.map.bind_last ?_)))))
    have hdate_nat : (entry.last_modified.toNat : Int) = entry.last_modified := Int.toNat_of_nonneg hpositive.le
    have hsize := known_size_written entry
    have hname := known_name_written str_of_float entry
    rw [htext, ← written_tags, hsize, hname, hdate_nat]
    exact Reads.pure entry.stored

/-- A file that was written is read as its entries, with their sizes cut to 32 bits. -/
theorem parse_written (now : Nat) {entries : List KnownMetEntry} (last_modified : Option Int)
    (hentries : ∀ entry ∈ entries, entry.Storable) (hcount : entries.length < 2 ^ 32) :
    ∃ data, write_known_met now entries last_modified = .ok (data, entries.length) ∧
      parse_known_met str_of_float data = .ok (entries.map KnownMetEntry.stored) := by
  have hpieces : ∀ entry ∈ entries, ∃ record, write_record (last_modified.getD now) entry = .ok record ∧
      Reads (known_record str_of_float) record entry.stored :=
    fun entry hentry => record_written str_of_float _ (hentries entry hentry)
  obtain ⟨records, hwritten, hreads⟩ := written_pieces hpieces
  have hfits : entries.length < 256 ^ 4 := by omega
  have hpack : struct_pack 4 entries.length = .ok (encode 4 entries.length) := if_pos hfits
  refine ⟨0x0F :: (encode 4 entries.length ++ records.flatten), ?_, ?_⟩
  · rw [write_known_met, hpack, ok_bind, hwritten, ok_bind]
    rfl
  · have hall := (reads_known_unpack hfits).bind hreads [0x0F] []
    rw [List.append_nil] at hall
    have hrecords : known_records str_of_float ⟨0x0F :: (encode 4 entries.length ++ records.flatten), 1⟩ = _ := hall
    have hheader : ¬((0x0F : UInt8) ≠ 0x0E ∧ (0x0F : UInt8) ≠ 0x0F) := by decide
    rw [parse_known_met, List.head?_cons]
    dsimp only
    rw [if_neg hheader, hrecords]

/-- The entries that are kept are those whose sizes do not need more than 32 bits. -/
theorem map_stored_eq_iff {entries : List KnownMetEntry} (hentries : ∀ entry ∈ entries, entry.Storable) :
    entries.map KnownMetEntry.stored = entries ↔ ∀ entry ∈ entries, entry.size < 2 ^ 32 := by
  have hkept : ∀ entry ∈ entries, (entry.stored = id entry ↔ entry.size < 2 ^ 32) := by
    intro entry hentry
    have hlow := (hentries entry hentry).size.1
    constructor
    · intro hsame
      have hsize : entry.size % 2 ^ 32 = entry.size := congrArg KnownMetEntry.size hsame
      rw [← hsize]
      exact Int.emod_lt_of_pos _ (by decide)
    · intro hsmall
      rw [KnownMetEntry.stored, Int.emod_eq_of_lt hlow hsmall, id]
  have hid : entries.map KnownMetEntry.stored = entries ↔ entries.map KnownMetEntry.stored = entries.map id := by
    rw [List.map_id]
  rw [hid, List.map_inj_left]
  exact forall₂_congr hkept

/-- A list of entries comes back where a file can count it and no size needs more than 32 bits. -/
theorem known_met_round_trip_iff (now : Nat) (last_modified : Option Int) {entries : List KnownMetEntry}
    (hentries : ∀ entry ∈ entries, entry.Storable) :
    (∃ data count, write_known_met now entries last_modified = .ok (data, count) ∧
        parse_known_met str_of_float data = .ok entries) ↔
      entries.length < 2 ^ 32 ∧ ∀ entry ∈ entries, entry.size < 2 ^ 32 := by
  constructor
  · rintro ⟨data, count, hwritten, hparsed⟩
    have hcount : entries.length < 2 ^ 32 := by
      obtain ⟨packed, hpacked, _⟩ := bind_eq_ok_iff.mp hwritten
      exact (struct_pack_eq_ok_iff.mp hpacked).1
    obtain ⟨data', hwritten', hparsed'⟩ := parse_written str_of_float now last_modified hentries hcount
    rw [hwritten', Except.ok.injEq, Prod.mk.injEq] at hwritten
    rw [← hwritten.1, hparsed', Except.ok.injEq] at hparsed
    exact ⟨hcount, (map_stored_eq_iff hentries).mp hparsed⟩
  · rintro ⟨hcount, hsizes⟩
    obtain ⟨data, hwritten, hparsed⟩ := parse_written str_of_float now last_modified hentries hcount
    rw [(map_stored_eq_iff hentries).mpr hsizes] at hparsed
    exact ⟨data, _, hwritten, hparsed⟩

def sampleEntry (size : Int) : KnownMetEntry where
  file_hash := List.replicate 32 0x41
  name := lit "a.bin"
  size := size
  last_modified := 1700000000
  part_hashes := [List.replicate 32 0x42]

theorem sampleEntry_storable {size : Int} (hlow : 0 ≤ size) (hhigh : size < 2 ^ 64) : (sampleEntry size).Storable where
  file_hash := (by decide : is_hash (List.replicate 32 0x41))
  name := ⟨_, rfl, by decide⟩
  size := ⟨hlow, hhigh⟩
  last_modified := (by decide : (0 : Int) < 1700000000 ∧ (1700000000 : Int) < 2 ^ 32)
  part_hashes := (by decide : ∀ part ∈ [List.replicate 32 0x42], is_hash part)
  part_count := (by decide : [List.replicate 32 0x42].length < 65536)

theorem known_met_round_trip_iff_sample :
    (∃ data count, write_known_met 0 [sampleEntry 7] none = .ok (data, count) ∧
        parse_known_met (fun _ => []) data = .ok [sampleEntry 7]) ↔
      [sampleEntry 7].length < 2 ^ 32 ∧ ∀ entry ∈ [sampleEntry 7], entry.size < 2 ^ 32 :=
  known_met_round_trip_iff (fun _ => []) 0 none fun entry hentry => by
    rw [List.mem_singleton.mp hentry]
    exact sampleEntry_storable (by decide) (by decide)

/-- A file of 4 GiB and 7 bytes comes back as one of 7 bytes. -/
theorem large_size_lost :
    ∃ data, write_known_met 0 [sampleEntry (2 ^ 32 + 7)] none = .ok (data, 1) ∧
      parse_known_met (fun _ => []) data = .ok [sampleEntry 7] ∧ (sampleEntry (2 ^ 32 + 7)).Storable ∧
      [sampleEntry 7] ≠ [sampleEntry (2 ^ 32 + 7)] := by
  have hentry : (sampleEntry (2 ^ 32 + 7)).Storable := sampleEntry_storable (by decide) (by decide)
  have hentries : ∀ entry ∈ [sampleEntry (2 ^ 32 + 7)], entry.Storable := fun entry hmem => by
    rwa [List.mem_singleton.mp hmem]
  obtain ⟨data, hwritten, hparsed⟩ := parse_written (fun _ => []) 0 none hentries (by decide)
  exact ⟨data, hwritten, hparsed, hentry, by decide⟩

end amuled.sharing
