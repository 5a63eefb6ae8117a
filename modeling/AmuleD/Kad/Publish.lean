import AmuleD.Kad.Packets
import AmuleD.Kad.SourceEntries
import AmuleD.Kad.Tags

open littleendian cursor

namespace amuled.kad

/-- `_build_tag_list_raw`: the tags without their count. -/
def build_tag_list_raw (tags : List (Bytes × KadValue)) : Except Exc Bytes := do
  let parts ← tags.mapM fun tag => encode_tag tag.1 tag.2
  if parts.flatten.length > 255 then .error (.PublishError "tag list exceeds 255 bytes")
  else .ok parts.flatten

/-- The tag of a size, in eight bytes where it does not fit four. -/
def size_value (size : Nat) : Except Exc KadValue :=
  if size ≤ 0xFFFFFFFF then .ok (.uint32 size)
  else do
    let packed ← struct_pack 8 size
    .ok (.bsob packed)

/-- `_keyword_file_tags`: the tags of a file and their number. -/
def keyword_file_tags (name : String) (size : Nat) : Except Exc (Bytes × Nat) := do
  let size ← size_value size
  let tags := [(TAGNAME_FILENAME, .string name), (TAGNAME_FILESIZE, size)]
  let body ← build_tag_list_raw tags
  .ok (body, tags.length)

/-- `_build_tag_list`: the tags behind their count. -/
def build_tag_list (tags : Bytes) (count : Nat) : Except Exc Bytes :=
  if tags = [] then .ok [0]
  else if tags.length > 255 then .error (.KadPacketError "tag list exceeds 255 bytes")
  else if count > 0xFF then .error (.KadPacketError s!"tag count exceeds UInt8: {count}")
  else .ok ([UInt8.ofNat count] ++ tags)

def build_publish_key_req (keyword_target : KadUInt128) (file_entries : List (KadUInt128 × Bytes × Nat)) :
    Except Exc Bytes :=
  if file_entries.length > 0xFFFF then
    .error (.KadPacketError
      s!"KADEMLIA2_PUBLISH_KEY_REQ file count exceeds UInt16: {file_entries.length}")
  else do
    let count ← struct_pack 2 file_entries.length
    let entries ← file_entries.mapM fun entry => do
      let tags ← build_tag_list entry.2.1 entry.2.2
      .ok (entry.1.to_bytes ++ tags)
    .ok (keyword_target.to_bytes ++ count ++ entries.flatten)

/-- A file that is shared: its hash, name and size. -/
structure SharedFile where
  file_hash : Bytes
  name : String
  size : Nat
  length_file_hash : file_hash.length = 16

/-- The entry of a file, as `publish_file` makes it. -/
def file_entry (file : SharedFile) : Except Exc (KadUInt128 × Bytes × Nat) := do
  let (file_tags, file_tag_count) ← keyword_file_tags file.name file.size
  .ok (to_kad_uint128 file.file_hash file.length_file_hash, file_tags, file_tag_count)

/-- The payload that publishes files under a keyword. -/
def publish_files (keyword_target : KadUInt128) (files : List SharedFile) : Except Exc Bytes := do
  let file_entries ← files.mapM file_entry
  build_publish_key_req keyword_target file_entries

/-- The length of the tags of a file. -/
def SharedFile.tags_length (file : SharedFile) : Nat :=
  (utf8_encode file.name).length + if file.size ≤ 0xFFFFFFFF then 14 else 19

section Tags

variable {name : String} {size : Nat}

theorem encode_name_tag (hname : (utf8_encode name).length < 2 ^ 16) :
    ∃ raw, encode_tag TAGNAME_FILENAME (.string name) = .ok raw ∧ raw.length = 6 + (utf8_encode name).length := by
  have hfits : struct_pack 2 (utf8_encode name).length = .ok (encode 2 (utf8_encode name).length) :=
    struct_pack_eq_ok_iff.mpr ⟨hname, rfl⟩
  refine ⟨[TAGTYPE_STRING] ++ encode 2 1 ++ TAGNAME_FILENAME ++ (encode 2 (utf8_encode name).length ++ utf8_encode name),
    ?_, ?_⟩
  · simp only [encode_tag, encode_named, encode_value, hfits, ok_bind]
    rfl
  · simp only [List.length_append, length_encode, List.length_singleton, TAGNAME_FILENAME]
    omega

theorem encode_size_tag (hsize : size < 2 ^ 64) :
    ∃ value raw, size_value size = .ok value ∧ encode_tag TAGNAME_FILESIZE value = .ok raw ∧
      raw.length = (if size ≤ 0xFFFFFFFF then 8 else 13) ∧ (value = .uint32 size ∨ value = .bsob (encode 8 size)) := by
  by_cases hword : size ≤ 0xFFFFFFFF
  · have hfits : struct_pack 4 size = .ok (encode 4 size) := struct_pack_eq_ok_iff.mpr ⟨by omega, rfl⟩
    refine ⟨.uint32 size, [TAGTYPE_UINT32] ++ encode 2 1 ++ TAGNAME_FILESIZE ++ encode 4 size, if_pos hword, ?_, ?_,
      .inl rfl⟩
    · simp only [encode_tag, encode_named, encode_value, hfits]
      rfl
    · rw [if_pos hword]
      simp [TAGNAME_FILESIZE]
  · have hfits : struct_pack 8 size = .ok (encode 8 size) := struct_pack_eq_ok_iff.mpr ⟨hsize, rfl⟩
    have hbyte : one_byte (encode 8 size).length = .ok [8] := by
      rw [length_encode]
      rfl
    refine ⟨.bsob (encode 8 size), [TAGTYPE_BSOB] ++ encode 2 1 ++ TAGNAME_FILESIZE ++ ([8] ++ encode 8 size), ?_, ?_,
      ?_, .inr rfl⟩
    · rw [size_value, if_neg hword, hfits, ok_bind]
    · simp only [encode_tag, encode_named, encode_value, hbyte, ok_bind]
      rfl
    · rw [if_neg hword]
      simp [TAGNAME_FILESIZE]

/-- The tags of a file fit their list exactly where they are at most 255 bytes. -/
theorem keyword_file_tags_eq (hname : (utf8_encode name).length < 2 ^ 16) (hsize : size < 2 ^ 64) :
    ∃ value raws, List.Forall₂ (fun tag raw => encode_tag tag.1 tag.2 = .ok raw)
        [(TAGNAME_FILENAME, .string name), (TAGNAME_FILESIZE, value)] raws ∧
      (value = .uint32 size ∨ value = .bsob (encode 8 size)) ∧ (size ≤ 0xFFFFFFFF → value = .uint32 size) ∧
      raws.flatten.length = (utf8_encode name).length + (if size ≤ 0xFFFFFFFF then 14 else 19) ∧
      keyword_file_tags name size =
        if raws.flatten.length > 255 then .error (.PublishError "tag list exceeds 255 bytes")
        else .ok (raws.flatten, 2) := by
  obtain ⟨first, hfirst, hfirstLength⟩ := encode_name_tag hname
  obtain ⟨value, last, hvalue, hlast, hlastLength, hkind⟩ := encode_size_tag hsize
  have htags : List.Forall₂ (fun (tag : Bytes × KadValue) raw => encode_tag tag.1 tag.2 = .ok raw)
      [(TAGNAME_FILENAME, .string name), (TAGNAME_FILESIZE, value)] [first, last] :=
    .cons hfirst (.cons hlast .nil)
  refine ⟨value, [first, last], htags, hkind, ?_, ?_, ?_⟩
  · intro hword
    rw [size_value, if_pos hword] at hvalue
    exact (Except.ok.inj hvalue).symm
  · simp only [List.flatten_cons, List.flatten_nil, List.append_nil, List.length_append, hfirstLength, hlastLength]
    split <;> omega
  · rw [keyword_file_tags, hvalue, ok_bind]
    simp only [build_tag_list_raw, mapM_eq_ok_iff.mpr htags, ok_bind]
    split <;> rfl

/-- The entry of a file is built exactly where its tags are at most 255 bytes. -/
theorem file_entry_built {file : SharedFile} (hname : (utf8_encode file.name).length < 2 ^ 16)
    (hsize : file.size < 2 ^ 64) :
    (255 < file.tags_length → file_entry file = .error (.PublishError "tag list exceeds 255 bytes")) ∧
    (file.tags_length ≤ 255 → ∃ value raws, List.Forall₂ (fun tag raw => encode_tag tag.1 tag.2 = .ok raw)
        [(TAGNAME_FILENAME, .string file.name), (TAGNAME_FILESIZE, value)] raws ∧
      (value = .uint32 file.size ∨ value = .bsob (encode 8 file.size)) ∧
      (file.size ≤ 0xFFFFFFFF → value = .uint32 file.size) ∧
      file_entry file = .ok (to_kad_uint128 file.file_hash file.length_file_hash, raws.flatten, 2) ∧
      build_tag_list raws.flatten 2 = .ok ([2] ++ raws.flatten)) := by
  obtain ⟨value, raws, htags, hkind, hword, hlength, hfile⟩ := keyword_file_tags_eq hname hsize
  rw [← SharedFile.tags_length] at hlength
  constructor
  · intro hlong
    rw [file_entry, hfile, if_pos (by omega)]
    rfl
  · intro hfits
    refine ⟨value, raws, htags, hkind, hword, ?_, ?_⟩
    · rw [file_entry, hfile, if_neg (by omega)]
      rfl
    · have hnonempty : raws.flatten ≠ [] := by
        intro hnil
        rw [hnil, SharedFile.tags_length] at hlength
        split at hlength <;> simp at hlength
      rw [build_tag_list, if_neg hnonempty, if_neg (by omega), if_neg (by omega)]
      rfl

theorem exists_file_entry_iff {file : SharedFile} (hname : (utf8_encode file.name).length < 2 ^ 16)
    (hsize : file.size < 2 ^ 64) : (∃ entry, file_entry file = .ok entry) ↔ file.tags_length ≤ 255 := by
  obtain ⟨hlong, hshort⟩ := file_entry_built hname hsize
  constructor
  · rintro ⟨entry, hentry⟩
    by_contra hnot
    rw [hlong (by omega)] at hentry
    cases hentry
  · intro hfits
    obtain ⟨value, raws, -, -, -, hentry, -⟩ := hshort hfits
    exact ⟨_, hentry⟩

/-- Every entry of a file can be written. -/
theorem build_tag_list_entries {files : List SharedFile} {entries : List (KadUInt128 × Bytes × Nat)}
    (hnames : ∀ file ∈ files, (utf8_encode file.name).length < 2 ^ 16) (hsizes : ∀ file ∈ files, file.size < 2 ^ 64)
    (hentries : List.Forall₂ (fun file entry => file_entry file = .ok entry) files entries) :
    ∀ entry ∈ entries, ∃ raw, (do
      let tags ← build_tag_list entry.2.1 entry.2.2
      .ok (entry.1.to_bytes ++ tags)) = .ok raw := by
  induction hentries with
  | nil => exact fun _ hmem => absurd hmem List.not_mem_nil
  | @cons file entry files entries hentry _ ih =>
    rw [List.forall_mem_cons] at hnames hsizes ⊢
    refine ⟨?_, ih hnames.2 hsizes.2⟩
    have hfits := (exists_file_entry_iff hnames.1 hsizes.1).mp ⟨entry, hentry⟩
    obtain ⟨value, raws, -, -, -, hbuilt, hlist⟩ := (file_entry_built hnames.1 hsizes.1).2 hfits
    rw [hbuilt] at hentry
    cases hentry
    rw [hlist, ok_bind]
    exact ⟨_, rfl⟩

end Tags

section Answers

variable (replace : Bytes → String)

/-- An answer shows a file: its hash, its name and, where it fits four bytes, its size. -/
structure Answers (item : KadSearchResultItem) (file : SharedFile) : Prop where
  file_hash : item.file_hash = file.file_hash
  name : item.name = file.name
  size : file.size ≤ 0xFFFFFFFF → item.size = file.size

/-- The tags of a file are taken as its name and its size. -/
theorem answer_item_eq {file : SharedFile} {value : KadValue} {raws : List Bytes}
    (htags : List.Forall₂ (fun tag raw => encode_tag tag.1 tag.2 = .ok raw)
      [(TAGNAME_FILENAME, .string file.name), (TAGNAME_FILESIZE, value)] raws)
    (hkind : value = .uint32 file.size ∨ value = .bsob (encode 8 file.size))
    (hword : file.size ≤ 0xFFFFFFFF → value = .uint32 file.size) :
    ∃ item, answer_item file.file_hash [(TAGNAME_FILENAME, .string file.name), (TAGNAME_FILESIZE, value)] = .ok item ∧
      Answers item file := by
  have hraw : ∀ (name : Bytes) (value : KadValue), (∀ raw, value ≠ .bool raw) →
      encode_tag_for_raw name value = encode_tag name value := by
    intro name value hbool
    cases value with
    | bool raw => exact absurd rfl (hbool raw)
    | hash raw => rfl
    | string text => rfl
    | uint64 number => rfl
    | uint32 number => rfl
    | uint16 number => rfl
    | uint8 number => rfl
    | float32 raw => rfl
    | bsob raw => rfl
  have hvalue : ∀ raw, value ≠ .bool raw := by
    rcases hkind with rfl | rfl <;> simp
  have hraws : List.mapM (fun (tag : Bytes × KadValue) => encode_tag_for_raw tag.1 tag.2)
      [(TAGNAME_FILENAME, .string file.name), (TAGNAME_FILESIZE, value)] = .ok raws := by
    rcases htags with _ | ⟨hfirst, _ | ⟨hlast, htail⟩⟩
    cases htail
    rw [← hraw _ _ (by simp)] at hfirst
    rw [← hraw _ _ hvalue] at hlast
    exact mapM_eq_ok_iff.mpr (.cons hfirst (.cons hlast .nil))
  rw [answer_item, hraws, ok_bind]
  refine ⟨_, rfl, ?_⟩
  simp only [List.foldl_cons, List.foldl_nil, KadSearchResultItem.take_tag, if_true]
  rcases hkind with rfl | rfl
  · simp only [KadValue.int?]
    constructor <;> simp
  · simp only [KadValue.int?]
    constructor
    · rfl
    · rfl
    · intro hsmall
      cases hword hsmall

/-- The tags of a file are read behind their count. -/
theorem reads_file_tags {name : String} {size : Nat} {value : KadValue} {raws : List Bytes}
    (htags : List.Forall₂ (fun tag raw => encode_tag tag.1 tag.2 = .ok raw)
      [(TAGNAME_FILENAME, .string name), (TAGNAME_FILESIZE, value)] raws)
    (hkind : value = .uint32 size ∨ value = .bsob (encode 8 size)) :
    Reads (read_tag_list replace) ([2] ++ raws.flatten)
      [(TAGNAME_FILENAME, .string name), (TAGNAME_FILESIZE, value)] := by
  have hread : List.Forall₂ (fun tag raw => Reads (next_tag replace) raw tag)
      [(TAGNAME_FILENAME, .string name), (TAGNAME_FILESIZE, value)] raws := by
    rcases htags with _ | ⟨hfirst, _ | ⟨hlast, htail⟩⟩
    cases htail
    refine .cons ?_ (.cons ?_ .nil)
    · exact reads_encoded_tag (by simp) (by simp) (by simp) hfirst
    · refine reads_encoded_tag ?_ ?_ ?_ hlast <;> rcases hkind with rfl | rfl <;> simp
  have hcount : [(TAGNAME_FILENAME, KadValue.string name), (TAGNAME_FILESIZE, value)].length = 2 := rfl
  have hlist := reads_tag_list hread (by rw [hcount]; decide)
  rw [hcount] at hlist
  exact hlist

/-- The entries of files are read as answers that show them, in order. -/
theorem reads_file_entries {files : List SharedFile} {entries : List (KadUInt128 × Bytes × Nat)} {raws : List Bytes}
    (hnames : ∀ file ∈ files, (utf8_encode file.name).length < 2 ^ 16) (hsizes : ∀ file ∈ files, file.size < 2 ^ 64)
    (hentries : List.Forall₂ (fun file entry => file_entry file = .ok entry) files entries)
    (hraws : List.Forall₂ (fun entry raw => (do
      let tags ← build_tag_list entry.2.1 entry.2.2
      .ok (entry.1.to_bytes ++ tags)) = .ok raw) entries raws) (i : Nat) :
    ∃ items, List.Forall₂ Answers items files ∧
      Reads (read_answers replace i files.length) raws.flatten items := by
  induction hentries generalizing raws i with
  | nil =>
    cases hraws
    exact ⟨[], .nil, Reads.pure []⟩
  | @cons file entry files entries hentry _ ih =>
    rcases hraws with _ | ⟨hraw, hrest⟩
    rw [List.forall_mem_cons] at hnames hsizes
    obtain ⟨items, hitems, hread⟩ := ih hnames.2 hsizes.2 hrest (i + 1)
    have hfits := (exists_file_entry_iff hnames.1 hsizes.1).mp ⟨entry, hentry⟩
    obtain ⟨value, parts, hparts, hkind, hword, hfile, hlist⟩ := (file_entry_built hnames.1 hsizes.1).2 hfits
    obtain ⟨item, hitem, hanswers⟩ := answer_item_eq hparts hkind hword
    have htags := reads_file_tags replace hparts hkind
    rw [hfile] at hentry
    cases hentry
    simp only [hlist, ok_bind, to_bytes_to_kad_uint128] at hraw
    cases hraw
    refine ⟨item :: items, .cons hanswers hitems, ?_⟩
    have hhash := Reads.takeN (answer_truncated i) file.file_hash
    rw [file.length_file_hash] at hhash
    rw [List.flatten_cons, List.append_assoc]
    refine hhash.bind (htags.bind ?_)
    exact Reads.lift_bind hitem hread.bind_pure

/-- What stands behind the two identifiers and the count of a search response is read as the count tells. -/
theorem reads_behind_header {α : Type} (short : Nat → Cursor UInt8 → Exc) {body : Nat → TagRead α} {header raw : Bytes}
    {count : Nat} {value : α} (hheader : header.length = 32) (hcount : count < 2 ^ 16)
    (hread : Reads (body count) raw value) :
    Reads (do
      let _ ← takeN short 16
      let _ ← takeN short 16
      let count ← decode <$> takeN short 2
      body count) (header ++ (encode 2 count ++ raw)) value := by
  have htakeSource := Reads.takeN short (header.take 16)
  have htakeTarget := Reads.takeN short (header.drop 16)
  have htakeCount := (Reads.takeN short (encode 2 count)).map (f := decode)
  rw [List.length_take, hheader] at htakeSource
  rw [List.length_drop, hheader] at htakeTarget
  rw [length_encode, decode_encode hcount] at htakeCount
  rw [← List.take_append_drop 16 header, List.append_assoc]
  exact htakeSource.bind (htakeTarget.bind (htakeCount.bind hread))

/-- A search response that carries the published entries is parsed into answers that show the files. -/
theorem parse_published {keyword_target : KadUInt128} {files : List SharedFile} {payload header : Bytes}
    (hnames : ∀ file ∈ files, (utf8_encode file.name).length < 2 ^ 16) (hsizes : ∀ file ∈ files, file.size < 2 ^ 64)
    (hpublished : publish_files keyword_target files = .ok payload) (hheader : header.length = 32) :
    ∃ items, parse_search_res_answers replace (header ++ payload.drop 16) = .ok items ∧
      List.Forall₂ Answers items files := by
  obtain ⟨entries, hentries, hbuilt⟩ := bind_eq_ok_iff.mp hpublished
  have heach := mapM_eq_ok_iff.mp hentries
  unfold build_publish_key_req at hbuilt
  split at hbuilt
  · cases hbuilt
  obtain ⟨count, hcount, hrest⟩ := bind_eq_ok_iff.mp hbuilt
  obtain ⟨raws, hraws, hpayload⟩ := bind_eq_ok_iff.mp hrest
  cases hpayload
  obtain ⟨hfits, rfl⟩ := struct_pack_eq_ok_iff.mp hcount
  rw [← heach.length_eq] at hfits ⊢
  obtain ⟨items, hitems, hread⟩ := reads_file_entries replace hnames hsizes heach (mapM_eq_ok_iff.mp hraws) 0
  refine ⟨items, ?_, hitems⟩
  have hsearch : Reads (read_search_res replace) (header ++ (encode 2 files.length ++ raws.flatten)) items :=
    reads_behind_header search_res_truncated hheader hfits hread
  have hrun := hsearch.run []
  have hdrop : (keyword_target.to_bytes ++ encode 2 files.length ++ raws.flatten).drop 16 =
      encode 2 files.length ++ raws.flatten := by
    rw [List.append_assoc]
    exact List.drop_left' keyword_target.length_to_bytes
  rw [List.append_nil] at hrun
  rw [hdrop, parse_search_res_answers, hrun]
  rfl

/-- Files are published exactly where they are at most 65535 and the tags of each are at most 255 bytes,
and what was published is found: a search response with the entries shows the files in order. -/
theorem published_files_found {keyword_target : KadUInt128} {files : List SharedFile}
    (hnames : ∀ file ∈ files, (utf8_encode file.name).length < 2 ^ 16)
    (hsizes : ∀ file ∈ files, file.size < 2 ^ 64) :
    ((∃ payload, publish_files keyword_target files = .ok payload) ↔
      files.length ≤ 0xFFFF ∧ ∀ file ∈ files, file.tags_length ≤ 255) ∧
    ∀ payload header, publish_files keyword_target files = .ok payload → header.length = 32 →
      ∃ items, parse_search_res_answers replace (header ++ payload.drop 16) = .ok items ∧
        List.Forall₂ Answers items files := by
  refine ⟨?_, fun payload header hpublished hheader => parse_published replace hnames hsizes hpublished hheader⟩
  have hentry : ∀ file ∈ files, (∃ entry, file_entry file = .ok entry) ↔ file.tags_length ≤ 255 :=
    fun file hfile => exists_file_entry_iff (hnames file hfile) (hsizes file hfile)
  constructor
  · rintro ⟨payload, hpublished⟩
    obtain ⟨entries, hentries, hbuilt⟩ := bind_eq_ok_iff.mp hpublished
    have heach := exists_mapM_iff.mp ⟨entries, hentries⟩
    refine ⟨?_, fun file hfile => (hentry file hfile).mp (heach file hfile)⟩
    rw [(mapM_eq_ok_iff.mp hentries).length_eq]
    unfold build_publish_key_req at hbuilt
    split at hbuilt
    · cases hbuilt
    · omega
  · rintro ⟨hfew, hshort⟩
    obtain ⟨entries, hentries⟩ := exists_mapM_iff.mpr fun file hfile => (hentry file hfile).mpr (hshort file hfile)
    have heach := mapM_eq_ok_iff.mp hentries
    have hcount : struct_pack 2 entries.length = .ok (encode 2 entries.length) :=
      struct_pack_eq_ok_iff.mpr ⟨by rw [← heach.length_eq]; omega, rfl⟩
    obtain ⟨raws, hraws⟩ := exists_mapM_iff.mpr (build_tag_list_entries hnames hsizes heach)
    rw [publish_files, hentries, ok_bind, build_publish_key_req, if_neg (by rw [← heach.length_eq]; omega), hcount,
      ok_bind, hraws, ok_bind]
    exact ⟨_, rfl⟩

end Answers

/-- One file with a short name. -/
theorem published_files_found_one :
    ∃ payload, publish_files ⟨7, by decide⟩ [⟨List.replicate 16 1, "song", 5, rfl⟩] = .ok payload ∧
      ∃ items, parse_search_res_answers (fun _ => "") (List.replicate 32 0 ++ payload.drop 16) = .ok items ∧
        List.Forall₂ Answers items [⟨List.replicate 16 1, "song", 5, rfl⟩] := by
  obtain ⟨hiff, hfound⟩ := @published_files_found (fun _ => "") ⟨7, by decide⟩
    [⟨List.replicate 16 1, "song", 5, rfl⟩] (by decide) (by decide)
  obtain ⟨payload, hpayload⟩ := hiff.mpr ⟨by decide, by decide⟩
  exact ⟨payload, hpayload, hfound payload _ hpayload (List.length_replicate ..)⟩

/-- A file whose name has 242 bytes is refused. -/
theorem long_name_not_published :
    ¬ ∀ (replace : Bytes → String) (keyword_target : KadUInt128) (files : List SharedFile),
      (∀ file ∈ files, (utf8_encode file.name).length < 2 ^ 16) → (∀ file ∈ files, file.size < 2 ^ 64) →
        ∃ payload, publish_files keyword_target files = .ok payload ∧ ∀ header, header.length = 32 →
          ∃ items, parse_search_res_answers replace (header ++ payload.drop 16) = .ok items ∧
            List.Forall₂ (fun item file => item.file_hash = file.file_hash ∧ item.name = file.name ∧
              item.size = file.size) items files := by
  intro hclaim
  obtain ⟨name, hlength⟩ : ∃ name : String, (utf8_encode name).length = 242 :=
    ⟨String.ofList (List.replicate 242 'a'), by decide +kernel⟩
  have hshort : (utf8_encode name).length < 2 ^ 16 := by omega
  have hsmall : 5 < 2 ^ 64 := by decide
  have hword : 5 ≤ 0xFFFFFFFF := by decide
  obtain ⟨payload, hpayload, -⟩ := hclaim (fun _ => "") ⟨7, by decide⟩ [⟨List.replicate 16 1, name, 5, rfl⟩]
    (List.forall_mem_singleton.mpr hshort) (List.forall_mem_singleton.mpr hsmall)
  obtain ⟨entries, hentries, -⟩ := bind_eq_ok_iff.mp hpayload
  have hentry := exists_mapM_iff.mp ⟨entries, hentries⟩ _ List.mem_cons_self
  have hfits := (exists_file_entry_iff hshort hsmall).mp hentry
  have htags : (⟨List.replicate 16 1, name, 5, rfl⟩ : SharedFile).tags_length = 242 + 14 := by
    rw [SharedFile.tags_length, hlength, if_pos hword]
  rw [htags] at hfits
  omega

/-- What a publisher says of itself as a source of a file. -/
structure OwnSource where
  user_hash : Bytes
  tcp_port : Nat
  udp_port : Option Nat
  file_size : Nat
  encryption : Nat
  source_type : Nat
  length_user_hash : user_hash.length = 16

def size_tags (file_size : Nat) : Except Exc (List (Bytes × KadValue)) :=
  if 0 < file_size then do
    let size ← size_value file_size
    .ok [(TAGNAME_FILESIZE, size)]
  else .ok []

def udp_tags : Option Nat → List (Bytes × KadValue)
  | none => []
  | some udp_port => if 0 < udp_port then [(TAGNAME_SOURCEUPORT, .uint16 udp_port)] else []

/-- The tags of a source, in their order. -/
def OwnSource.tags (source : OwnSource) (size : List (Bytes × KadValue)) : List (Bytes × KadValue) :=
  [(TAGNAME_SOURCETYPE, .uint8 source.source_type), (TAGNAME_SOURCEPORT, .uint32 source.tcp_port)] ++
    udp_tags source.udp_port ++ size ++
    if source.encryption ≠ 0 then [(TAGNAME_ENCRYPTION, .uint8 source.encryption)] else []

/-- `_source_tags`: the tags and their number. -/
def source_tags (source : OwnSource) : Except Exc (Bytes × Nat) := do
  let size ← size_tags source.file_size
  let body ← build_tag_list_raw (source.tags size)
  .ok (body, (source.tags size).length)

def build_publish_source_req (file_hash publisher_id : KadUInt128) (tags : Bytes) (tag_count : Nat) :
    Except Exc Bytes := do
  let list ← build_tag_list tags tag_count
  .ok (file_hash.to_bytes ++ publisher_id.to_bytes ++ list)

/-- The payload that publishes a source of a file. -/
def publish_source (file_hash : KadUInt128) (source : OwnSource) : Except Exc Bytes := do
  let (tags, tag_count) ← source_tags source
  build_publish_source_req file_hash (to_kad_uint128 source.user_hash source.length_user_hash) tags tag_count

/-- The tag of an address, which the node that keeps a source adds to its tags. -/
def address_tag (ip : Nat) : Bytes × KadValue := (TAGNAME_SOURCEIP, .uint32 ip)

def address_bytes (ip : Nat) : Bytes := [TAGTYPE_UINT32] ++ encode 2 1 ++ TAGNAME_SOURCEIP ++ encode 4 ip

/-- A published source in an answer: its hash and its tags with the address that it was published from. -/
def answered_source (payload address : Bytes) : Bytes :=
  payload.extract 16 32 ++ [payload.getD 32 0 + 1] ++ payload.drop 33 ++ address

/-- What is found of a source that was published from an address. -/
def OwnSource.fields (source : OwnSource) (ip : Nat) : SourceFields where
  source_type := source.source_type
  ip := if ip ≠ 0 ∧ is_good_octet ((encode 4 ip).headD 0) then some (ipv4_text (encode 4 ip)) else none
  tcp_port := if is_port source.tcp_port then source.tcp_port else 0
  udp_port := source.udp_port.getD 0
  crypt_options := source.encryption

section Sources

variable {source : OwnSource} {size : List (Bytes × KadValue)} {ip : Nat} {raws : List Bytes}

/-- A value that is read as it was written. -/
def KadValue.Plain (value : KadValue) : Prop :=
  ∀ raw, value ≠ .hash raw ∧ value ≠ .float32 raw ∧ value ≠ .bool raw

theorem size_value_cases {file_size : Nat} {value : KadValue} (hvalue : size_value file_size = .ok value) :
    value = .uint32 file_size ∨ ∃ raw, value = .bsob raw := by
  rw [size_value] at hvalue
  split at hvalue
  · cases hvalue
    exact .inl rfl
  · obtain ⟨raw, -, hraw⟩ := bind_eq_ok_iff.mp hvalue
    cases hraw
    exact .inr ⟨raw, rfl⟩

theorem size_tags_cases {file_size : Nat} (hsize : size_tags file_size = .ok size) :
    size = [] ∨ ∃ value, size = [(TAGNAME_FILESIZE, value)] ∧
      (value = .uint32 file_size ∨ ∃ raw, value = .bsob raw) := by
  rw [size_tags] at hsize
  split at hsize
  · obtain ⟨value, hvalue, hcons⟩ := bind_eq_ok_iff.mp hsize
    cases hcons
    exact .inr ⟨value, rfl, size_value_cases hvalue⟩
  · cases hsize
    exact .inl rfl

/-- The tags of a source, in any order. -/
theorem mem_tags {tag : Bytes × KadValue} (htag : tag ∈ source.tags size) :
    tag = (TAGNAME_SOURCETYPE, .uint8 source.source_type) ∨ tag = (TAGNAME_SOURCEPORT, .uint32 source.tcp_port) ∨
      (∃ udp_port, source.udp_port = some udp_port ∧ tag = (TAGNAME_SOURCEUPORT, .uint16 udp_port)) ∨ tag ∈ size ∨
        tag = (TAGNAME_ENCRYPTION, .uint8 source.encryption) := by
  simp only [OwnSource.tags, List.mem_append, List.mem_cons, List.not_mem_nil, or_false] at htag
  rcases htag with (((rfl | rfl) | hudp) | hmem) | hencryption
  · exact .inl rfl
  · exact .inr (.inl rfl)
  · cases hport : source.udp_port with
    | none =>
      rw [hport] at hudp
      exact absurd hudp List.not_mem_nil
    | some udp_port =>
      rw [hport, udp_tags] at hudp
      split at hudp
      · exact .inr (.inr (.inl ⟨udp_port, rfl, List.mem_singleton.mp hudp⟩))
      · exact absurd hudp List.not_mem_nil
  · exact .inr (.inr (.inr (.inl hmem)))
  · split at hencryption
    · exact .inr (.inr (.inr (.inr (List.mem_singleton.mp hencryption))))
    · exact absurd hencryption List.not_mem_nil

theorem plain_tags (hsize : size_tags source.file_size = .ok size) : ∀ tag ∈ source.tags size, tag.2.Plain := by
  intro tag htag
  rcases mem_tags htag with rfl | rfl | ⟨udp_port, -, rfl⟩ | hmem | rfl
  · simp [KadValue.Plain]
  · simp [KadValue.Plain]
  · simp [KadValue.Plain]
  · rcases size_tags_cases hsize with rfl | ⟨value, rfl, rfl | ⟨raw, rfl⟩⟩
    · exact absurd hmem List.not_mem_nil
    · rw [List.mem_singleton.mp hmem]
      simp [KadValue.Plain]
    · rw [List.mem_singleton.mp hmem]
      simp [KadValue.Plain]
  · simp [KadValue.Plain]

theorem length_tags_le (hsize : size_tags source.file_size = .ok size) : (source.tags size).length ≤ 5 := by
  have hone : size.length ≤ 1 := by
    rcases size_tags_cases hsize with rfl | ⟨value, rfl, -⟩
    · exact Nat.zero_le 1
    · exact Nat.le_refl 1
  have hudp : (udp_tags source.udp_port).length ≤ 1 := by
    cases source.udp_port with
    | none => exact Nat.zero_le 1
    | some udp_port =>
      rw [udp_tags]
      split <;> simp
  simp only [OwnSource.tags, List.length_append, List.length_cons, List.length_nil]
  split
  · rw [List.length_singleton]
    omega
  · rw [List.length_nil]
    omega

section Taken

variable (ipv6_text : Bytes → String) (fields : SourceFields)

theorem take_type (number : Nat) : fields.take_tag ipv6_text (TAGNAME_SOURCETYPE, .uint8 number) =
    .ok { fields with source_type := number } := rfl

theorem take_port (number : Nat) : fields.take_tag ipv6_text (TAGNAME_SOURCEPORT, .uint32 number) =
    .ok (if is_port number then { fields with tcp_port := number } else fields) := rfl

theorem take_udp_port {number : Nat} (hpos : 0 < number) (hport : number < 2 ^ 16) :
    fields.take_tag ipv6_text (TAGNAME_SOURCEUPORT, .uint16 number) = .ok { fields with udp_port := number } := by
  have hvalid : is_port number = true := by
    rw [is_port, decide_eq_true hpos, Bool.true_and, decide_eq_true_iff]
    omega
  exact congrArg Except.ok (if_pos hvalid)

theorem take_size (value : KadValue) (hkind : (∃ number, value = .uint32 number) ∨ ∃ raw, value = .bsob raw) :
    fields.take_tag ipv6_text (TAGNAME_FILESIZE, value) = .ok fields := by
  rcases hkind with ⟨number, rfl⟩ | ⟨raw, rfl⟩
  · rfl
  · rfl

theorem take_encryption (number : Nat) : fields.take_tag ipv6_text (TAGNAME_ENCRYPTION, .uint8 number) =
    .ok { fields with crypt_options := number } := rfl

theorem take_address (hip : ip < 2 ^ 32) : fields.take_tag ipv6_text (address_tag ip) =
    .ok (if ip ≠ 0 ∧ is_good_octet ((encode 4 ip).headD 0) then { fields with ip := some (ipv4_text (encode 4 ip)) }
      else fields) := by
  have hpack : struct_pack 4 ip = .ok (encode 4 ip) := struct_pack_eq_ok_iff.mpr ⟨hip, rfl⟩
  change (if ip ≠ 0 then do
    let packed ← struct_pack 4 ip
    .ok (if is_good_octet (packed.headD 0) then { fields with ip := some (ipv4_text packed) } else fields)
    else .ok fields) = _
  by_cases hzero : ip = 0
  · rw [if_neg (not_not.mpr hzero), if_neg fun hboth => hboth.1 hzero]
  · rw [if_pos hzero, hpack, ok_bind]
    simp only [ne_eq, hzero, not_false_eq_true, true_and]

theorem take_udp_tags {udp_port : Option Nat} (hnone : fields.udp_port = 0)
    (hudp : ∀ number, udp_port = some number → number < 2 ^ 16) :
    (udp_tags udp_port).foldlM (SourceFields.take_tag ipv6_text) fields =
      .ok { fields with udp_port := udp_port.getD 0 } := by
  cases udp_port with
  | none =>
    obtain ⟨⟩ := fields
    exact congrArg Except.ok (by rw [← hnone]; rfl)
  | some number =>
    rw [udp_tags]
    split
    · rename_i hpos
      rw [List.foldlM_cons, take_udp_port ipv6_text fields hpos (hudp _ rfl)]
      rfl
    · rename_i hzero
      obtain rfl : number = 0 := by omega
      exact congrArg Except.ok (by rw [← hnone]; rfl)

theorem take_size_tags {file_size : Nat} (hsize : size_tags file_size = .ok size) :
    size.foldlM (SourceFields.take_tag ipv6_text) fields = .ok fields := by
  rcases size_tags_cases hsize with rfl | ⟨value, rfl, hkind⟩
  · rfl
  · rw [List.foldlM_cons, take_size ipv6_text fields value (hkind.imp_left fun hnumber => ⟨_, hnumber⟩)]
    rfl

theorem take_encryption_tags {encryption : Nat} (hnone : fields.crypt_options = 0) :
    (if encryption ≠ 0 then [(TAGNAME_ENCRYPTION, KadValue.uint8 encryption)] else []).foldlM
      (SourceFields.take_tag ipv6_text) fields = .ok { fields with crypt_options := encryption } := by
  by_cases hzero : encryption = 0
  · rw [if_neg (not_not.mpr hzero), hzero, ← hnone]
    rfl
  · rw [if_pos hzero, List.foldlM_cons, take_encryption]
    rfl

end Taken

/-- The tags of a source and its address are taken as its fields. -/
theorem take_tags (ipv6_text : Bytes → String) (hsize : size_tags source.file_size = .ok size)
    (hudp : ∀ udp_port, source.udp_port = some udp_port → udp_port < 2 ^ 16) (hip : ip < 2 ^ 32) :
    (source.tags size ++ [address_tag ip]).foldlM (SourceFields.take_tag ipv6_text) {} = .ok (source.fields ip) := by
  obtain ⟨ported, hported⟩ : ∃ ported : SourceFields, ported = if is_port source.tcp_port then
      { ({} : SourceFields) with source_type := source.source_type, tcp_port := source.tcp_port }
    else { ({} : SourceFields) with source_type := source.source_type } := ⟨_, rfl⟩
  have hudp_none : ported.udp_port = 0 := by
    rw [hported]
    split <;> rfl
  have hcrypt_none : ported.crypt_options = 0 := by
    rw [hported]
    split <;> rfl
  have hfirst : ([(TAGNAME_SOURCETYPE, .uint8 source.source_type), (TAGNAME_SOURCEPORT, .uint32 source.tcp_port)] :
      List (Bytes × KadValue)).foldlM (SourceFields.take_tag ipv6_text) {} = .ok ported := by
    rw [List.foldlM_cons, take_type, ok_bind, List.foldlM_cons, take_port, ok_bind, hported]
    rfl
  rw [OwnSource.tags, List.foldlM_append, List.foldlM_append, List.foldlM_append, List.foldlM_append, hfirst]
  simp only [ok_bind, take_udp_tags ipv6_text ported hudp_none hudp, take_size_tags ipv6_text _ hsize]
  rw [take_encryption_tags ipv6_text { ported with udp_port := source.udp_port.getD 0 } hcrypt_none, ok_bind,
    List.foldlM_cons, take_address ipv6_text _ hip, ok_bind, List.foldlM_nil]
  refine congrArg Except.ok ?_
  rw [hported, OwnSource.fields]
  split_ifs <;> rfl

theorem encode_tag_ne_nil {name raw : Bytes} {value : KadValue} (hencoded : encode_tag name value = .ok raw) :
    raw ≠ [] := by
  obtain ⟨length, -, hrest⟩ := bind_eq_ok_iff.mp hencoded
  obtain ⟨body, -, hraw⟩ := bind_eq_ok_iff.mp hrest
  cases hraw
  simp

/-- A source that was published: its hash behind that of the file, and its tags behind their number. -/
theorem publish_source_ok {file_hash : KadUInt128} {payload : Bytes}
    (hpublished : publish_source file_hash source = .ok payload) :
    ∃ size raws, size_tags source.file_size = .ok size ∧
      List.Forall₂ (fun tag raw => encode_tag tag.1 tag.2 = .ok raw) (source.tags size) raws ∧
        payload = file_hash.to_bytes ++ source.user_hash ++
          ([UInt8.ofNat (source.tags size).length] ++ raws.flatten) := by
  obtain ⟨⟨tags, tag_count⟩, htags, hbuilt⟩ := bind_eq_ok_iff.mp hpublished
  obtain ⟨size, hsize, hrest⟩ := bind_eq_ok_iff.mp htags
  obtain ⟨body, hbody, hpair⟩ := bind_eq_ok_iff.mp hrest
  obtain ⟨raws, hraws, hlength⟩ := bind_eq_ok_iff.mp hbody
  have heach := mapM_eq_ok_iff.mp hraws
  obtain ⟨list, hlist, hpayload⟩ := bind_eq_ok_iff.mp hbuilt
  obtain ⟨rfl, rfl⟩ := Prod.mk.inj (Except.ok.inj hpair)
  split at hlength
  · cases hlength
  · cases hlength
    have hnonempty : raws.flatten ≠ [] := by
      rw [OwnSource.tags] at heach
      rcases heach with _ | ⟨hfirst, _⟩
      rw [List.flatten_cons]
      exact List.append_ne_nil_of_left_ne_nil (encode_tag_ne_nil hfirst) _
    have hfew := length_tags_le hsize
    rw [build_tag_list, if_neg hnonempty, if_neg (by omega), if_neg (by omega)] at hlist
    cases hlist
    cases hpayload
    exact ⟨size, raws, hsize, heach, by rw [to_bytes_to_kad_uint128]⟩

theorem encoded_value {tags : List (Bytes × KadValue)} {tag : Bytes × KadValue}
    (heach : List.Forall₂ (fun tag raw => encode_tag tag.1 tag.2 = .ok raw) tags raws) (hmem : tag ∈ tags) :
    ∃ body, encode_value (fun raw => [if raw ≠ [] then 1 else 0]) tag.2 = .ok body := by
  obtain ⟨raw, hencoded⟩ := exists_mapM_iff.mp ⟨raws, mapM_eq_ok_iff.mpr heach⟩ _ hmem
  obtain ⟨length, -, hrest⟩ := bind_eq_ok_iff.mp hencoded
  obtain ⟨body, hbody, -⟩ := bind_eq_ok_iff.mp hrest
  exact ⟨body, hbody⟩

theorem udp_port_lt (heach : List.Forall₂ (fun (tag : Bytes × KadValue) raw => encode_tag tag.1 tag.2 = .ok raw)
    (source.tags size) raws) : ∀ udp_port, source.udp_port = some udp_port → udp_port < 2 ^ 16 := by
  intro udp_port hport
  by_cases hpos : 0 < udp_port
  · have hmem : (TAGNAME_SOURCEUPORT, KadValue.uint16 udp_port) ∈ source.tags size := by
      rw [OwnSource.tags, hport, udp_tags, if_pos hpos]
      simp
    obtain ⟨body, hbody⟩ := encoded_value heach hmem
    exact (struct_pack_eq_ok_iff.mp hbody).1
  · omega

theorem one_byte_lt {number : Nat} {body : Bytes} (hbody : one_byte number = .ok body) : number < 2 ^ 8 := by
  rw [one_byte] at hbody
  split at hbody
  · assumption
  · cases hbody

theorem file_size_lt {file_size : Nat} (hsize : size_tags file_size = .ok size) : file_size < 2 ^ 64 := by
  by_cases hpos : 0 < file_size
  · rw [size_tags, if_pos hpos] at hsize
    obtain ⟨value, hvalue, -⟩ := bind_eq_ok_iff.mp hsize
    by_cases hword : file_size ≤ 0xFFFFFFFF
    · omega
    · rw [size_value, if_neg hword] at hvalue
      obtain ⟨packed, hpacked, -⟩ := bind_eq_ok_iff.mp hvalue
      exact (struct_pack_eq_ok_iff.mp hpacked).1
  · omega

/-- A source whose fields fit the tags that they are written to. -/
structure OwnSource.Fits (source : OwnSource) : Prop where
  source_type : source.source_type < 2 ^ 8
  tcp_port : source.tcp_port < 2 ^ 32
  udp_port : ∀ udp_port, source.udp_port = some udp_port → udp_port < 2 ^ 16
  file_size : source.file_size < 2 ^ 64
  encryption : source.encryption < 2 ^ 8

theorem fits_of_published {file_hash : KadUInt128} {payload : Bytes}
    (hpublished : publish_source file_hash source = .ok payload) : source.Fits := by
  obtain ⟨size, raws, hsize, heach, -⟩ := publish_source_ok hpublished
  refine ⟨?_, ?_, udp_port_lt heach, file_size_lt hsize, ?_⟩
  · have hmem : (TAGNAME_SOURCETYPE, KadValue.uint8 source.source_type) ∈ source.tags size := by simp [OwnSource.tags]
    obtain ⟨body, hbody⟩ := encoded_value heach hmem
    exact one_byte_lt hbody
  · have hmem : (TAGNAME_SOURCEPORT, KadValue.uint32 source.tcp_port) ∈ source.tags size := by simp [OwnSource.tags]
    obtain ⟨body, hbody⟩ := encoded_value heach hmem
    exact (struct_pack_eq_ok_iff.mp hbody).1
  · by_cases hzero : source.encryption = 0
    · omega
    · have hmem : (TAGNAME_ENCRYPTION, KadValue.uint8 source.encryption) ∈ source.tags size := by
        simp [OwnSource.tags, hzero]
      obtain ⟨body, hbody⟩ := encoded_value heach hmem
      exact one_byte_lt hbody

/-- A value of at most nine bytes. -/
def KadValue.Short : KadValue → Prop
  | .uint32 number => number < 2 ^ 32
  | .uint16 number => number < 2 ^ 16
  | .uint8 number => number < 2 ^ 8
  | .bsob raw => raw.length = 8
  | _ => False

theorem encode_short_tag {tag : Bytes × KadValue} (hname : tag.1.length = 1) (hshort : tag.2.Short) :
    ∃ raw, encode_tag tag.1 tag.2 = .ok raw ∧ raw.length ≤ 13 := by
  obtain ⟨name, value⟩ := tag
  obtain ⟨body, hbody, hlength⟩ : ∃ body, encode_value (fun raw => [if raw ≠ [] then 1 else 0]) value = .ok body ∧
      body.length ≤ 9 := by
    cases value with
    | uint32 number => exact ⟨encode 4 number, struct_pack_eq_ok_iff.mpr ⟨hshort, rfl⟩, by simp⟩
    | uint16 number => exact ⟨encode 2 number, struct_pack_eq_ok_iff.mpr ⟨hshort, rfl⟩, by simp⟩
    | uint8 number => exact ⟨[UInt8.ofNat number], if_pos hshort, by simp⟩
    | bsob raw =>
      have hsize : one_byte raw.length = .ok [UInt8.ofNat raw.length] := if_pos (by rw [hshort]; decide)
      refine ⟨[UInt8.ofNat raw.length] ++ raw, ?_, by rw [List.length_append, hshort]; decide⟩
      rw [encode_value, hsize, ok_bind]
    | _ => exact absurd hshort id
  have hcount : struct_pack 2 name.length = .ok (encode 2 name.length) :=
    struct_pack_eq_ok_iff.mpr ⟨by rw [hname]; decide, rfl⟩
  refine ⟨[value.type] ++ encode 2 name.length ++ name ++ body, ?_, ?_⟩
  · rw [encode_tag, encode_named, hcount, ok_bind, hbody, ok_bind]
  · simp only [List.length_append, List.length_singleton, length_encode, hname]
    omega

theorem exists_size_tags {file_size : Nat} (hsize : file_size < 2 ^ 64) :
    ∃ size, size_tags file_size = .ok size ∧ ∀ tag ∈ size, tag.1.length = 1 ∧ tag.2.Short := by
  by_cases hpos : 0 < file_size
  · obtain ⟨value, hvalue, hshort⟩ : ∃ value, size_value file_size = .ok value ∧ value.Short := by
      by_cases hword : file_size ≤ 0xFFFFFFFF
      · exact ⟨.uint32 file_size, if_pos hword, by rw [KadValue.Short]; omega⟩
      · have hpack : struct_pack 8 file_size = .ok (encode 8 file_size) := struct_pack_eq_ok_iff.mpr ⟨hsize, rfl⟩
        refine ⟨.bsob (encode 8 file_size), ?_, length_encode 8 file_size⟩
        rw [size_value, if_neg hword, hpack, ok_bind]
    refine ⟨[(TAGNAME_FILESIZE, value)], ?_, ?_⟩
    · rw [size_tags, if_pos hpos, hvalue, ok_bind]
    · rw [List.forall_mem_singleton]
      exact ⟨rfl, hshort⟩
  · exact ⟨[], if_neg hpos, fun tag hmem => absurd hmem List.not_mem_nil⟩

theorem length_short_tags {tags : List (Bytes × KadValue)}
    (heach : List.Forall₂ (fun tag raw => encode_tag tag.1 tag.2 = .ok raw) tags raws)
    (hshort : ∀ tag ∈ tags, tag.1.length = 1 ∧ tag.2.Short) : raws.flatten.length ≤ 13 * tags.length := by
  induction heach with
  | nil => exact Nat.zero_le _
  | cons hencoded _ ih =>
    rw [List.forall_mem_cons] at hshort
    obtain ⟨raw, hraw, hlength⟩ := encode_short_tag hshort.1.1 hshort.1.2
    cases hencoded.symm.trans hraw
    have hrest := ih hshort.2
    rw [List.flatten_cons, List.length_append, List.length_cons]
    omega

theorem exists_published (file_hash : KadUInt128) (hfits : source.Fits) :
    ∃ payload, publish_source file_hash source = .ok payload := by
  obtain ⟨size, hsize, hsizes⟩ := exists_size_tags hfits.file_size
  have hshort : ∀ tag ∈ source.tags size, tag.1.length = 1 ∧ tag.2.Short := by
    intro tag htag
    rcases mem_tags htag with rfl | rfl | ⟨udp_port, hport, rfl⟩ | hmem | rfl
    · exact ⟨rfl, hfits.source_type⟩
    · exact ⟨rfl, hfits.tcp_port⟩
    · exact ⟨rfl, hfits.udp_port udp_port hport⟩
    · exact hsizes tag hmem
    · exact ⟨rfl, hfits.encryption⟩
  obtain ⟨raws, hraws⟩ := exists_mapM_iff.mpr fun tag htag =>
    (encode_short_tag (hshort tag htag).1 (hshort tag htag).2).imp fun raw hraw => hraw.1
  have hlength := length_short_tags (mapM_eq_ok_iff.mp hraws) hshort
  have hfew := length_tags_le hsize
  have htags : source_tags source = .ok (raws.flatten, (source.tags size).length) := by
    rw [source_tags, hsize, ok_bind, build_tag_list_raw, hraws, ok_bind, if_neg (by omega), ok_bind]
  obtain ⟨list, hlist⟩ : ∃ list, build_tag_list raws.flatten (source.tags size).length = .ok list := by
    by_cases hnone : raws.flatten = []
    · exact ⟨_, if_pos hnone⟩
    · rw [build_tag_list, if_neg hnone, if_neg (by omega), if_neg (by omega)]
      exact ⟨_, rfl⟩
  rw [publish_source, htags, ok_bind]
  dsimp only
  rw [build_publish_source_req, hlist, ok_bind]
  exact ⟨_, rfl⟩

theorem encode_address_tag (hip : ip < 2 ^ 32) :
    encode_tag (address_tag ip).1 (address_tag ip).2 = .ok (address_bytes ip) := by
  have hfits : struct_pack 4 ip = .ok (encode 4 ip) := struct_pack_eq_ok_iff.mpr ⟨hip, rfl⟩
  simp only [address_tag, encode_tag, encode_named, encode_value, hfits]
  rfl

/-- What is answered of a source is its hash and its tags, with one more. -/
theorem answered_source_eq {file_hash : KadUInt128} (count : Nat) (address : Bytes) :
    answered_source (file_hash.to_bytes ++ source.user_hash ++ ([UInt8.ofNat count] ++ raws.flatten)) address =
      source.user_hash ++ ([UInt8.ofNat (count + 1)] ++ (raws ++ [address]).flatten) := by
  have hids : (file_hash.to_bytes ++ source.user_hash).length = 32 := by
    rw [List.length_append, file_hash.length_to_bytes, source.length_user_hash]
  have hcount : UInt8.ofNat count + 1 = UInt8.ofNat (count + 1) := by
    rw [UInt8.ofNat_add]
    rfl
  have hhash : (file_hash.to_bytes ++ source.user_hash ++ ([UInt8.ofNat count] ++ raws.flatten)).extract 16 32 =
      source.user_hash := by
    rw [List.append_assoc]
    exact extract_piece file_hash.length_to_bytes (by rw [source.length_user_hash])
  have hbyte : (file_hash.to_bytes ++ source.user_hash ++ ([UInt8.ofNat count] ++ raws.flatten)).getD 32 0 =
      UInt8.ofNat count := by
    rw [List.getD_append_right _ _ _ _ hids.le, hids]
    rfl
  have hrest : (file_hash.to_bytes ++ source.user_hash ++ ([UInt8.ofNat count] ++ raws.flatten)).drop 33 =
      raws.flatten := by
    rw [← List.append_assoc]
    exact List.drop_left' (by rw [List.length_append, hids, List.length_singleton])
  rw [answered_source, hhash, hbyte, hrest, hcount, List.flatten_append, List.flatten_singleton]
  simp only [List.append_assoc]

theorem reads_plain_tags (replace : Bytes → String) {tags : List (Bytes × KadValue)}
    (heach : List.Forall₂ (fun tag raw => encode_tag tag.1 tag.2 = .ok raw) tags raws)
    (hplain : ∀ tag ∈ tags, tag.2.Plain) :
    List.Forall₂ (fun tag raw => Reads (next_tag replace) raw tag) tags raws := by
  induction heach with
  | nil => exact .nil
  | cons hencoded _ ih =>
    rw [List.forall_mem_cons] at hplain
    refine .cons ?_ (ih hplain.2)
    exact reads_encoded_tag (fun raw hraw => absurd hraw (hplain.1 raw).1)
      (fun raw hraw => absurd hraw (hplain.1 raw).2.1) (fun raw hraw => absurd hraw (hplain.1 raw).2.2) hencoded

/-- An answer is read as the hash of the source and its tags, which are taken as its fields. -/
theorem reads_answered_source (replace ipv6_text : Bytes → String) {file_hash : KadUInt128} {payload : Bytes}
    (hpublished : publish_source file_hash source = .ok payload) (hip : ip < 2 ^ 32) (i : Nat) :
    ∃ tags, Reads (read_entry replace source_entry_truncated i) (answered_source payload (address_bytes ip))
        (source.user_hash, tags) ∧
      source_entry ipv6_text (source.user_hash, tags) = .ok (source.user_hash, source.fields ip) := by
  obtain ⟨size, raws, hsize, heach, rfl⟩ := publish_source_ok hpublished
  have hfew := length_tags_le hsize
  refine ⟨source.tags size ++ [address_tag ip], ?_, ?_⟩
  · rw [answered_source_eq]
    have hplain : ∀ tag ∈ source.tags size ++ [address_tag ip], tag.2.Plain := by
      intro tag htag
      rcases List.mem_append.mp htag with hmem | hmem
      · exact plain_tags hsize tag hmem
      · rw [List.mem_singleton.mp hmem]
        simp [KadValue.Plain, address_tag]
    have hread := reads_plain_tags replace (List.rel_append heach (.cons (encode_address_tag hip) .nil)) hplain
    have hlist := reads_tag_list hread (by rw [List.length_append, List.length_singleton]; omega)
    rw [List.length_append, List.length_singleton] at hlist
    have hhash := Reads.takeN (source_entry_truncated i) source.user_hash
    rw [source.length_user_hash] at hhash
    exact hhash.bind hlist.bind_pure
  · rw [source_entry, take_tags ipv6_text hsize (udp_port_lt heach) hip]
    rfl

/-- A source that was published, and the address that it was published from. -/
structure Publication (file_hash : KadUInt128) where
  source : OwnSource
  ip : Nat
  payload : Bytes
  published : publish_source file_hash source = .ok payload
  ip_range : ip < 2 ^ 32

namespace Publication

variable {file_hash : KadUInt128}

def answer (publication : Publication file_hash) : Bytes :=
  answered_source publication.payload (address_bytes publication.ip)

def found (publication : Publication file_hash) : Bytes × SourceFields :=
  (publication.source.user_hash, publication.source.fields publication.ip)

end Publication

theorem reads_publications (replace ipv6_text : Bytes → String) {file_hash : KadUInt128}
    (publications : List (Publication file_hash)) (i : Nat) :
    Reads (buildN (read_entry replace source_entry_truncated) (source_entry ipv6_text) i publications.length)
      (publications.map Publication.answer).flatten (publications.map Publication.found) := by
  induction publications generalizing i with
  | nil => exact Reads.pure []
  | cons publication publications ih =>
    obtain ⟨tags, hread, hentry⟩ :=
      reads_answered_source replace ipv6_text publication.published publication.ip_range i
    exact hread.bind (Reads.lift_bind hentry (ih (i + 1)).bind_pure)

/-- A source is published exactly where its fields fit their tags, and sources that were published are found: an answer
that carries them with their addresses is parsed into their hashes and fields, in order. -/
theorem published_sources_found (replace ipv6_text : Bytes → String) {file_hash : KadUInt128} {header : Bytes}
    {publications : List (Publication file_hash)} (hheader : header.length = 32)
    (hfew : publications.length < 2 ^ 16) :
    (∀ source, (∃ payload, publish_source file_hash source = .ok payload) ↔ source.Fits) ∧
      parse_search_res_source_entries replace ipv6_text
          (header ++ (encode 2 publications.length ++ (publications.map Publication.answer).flatten)) =
        .ok (publications.map Publication.found) := by
  refine ⟨fun source => ⟨fun ⟨payload, hpublished⟩ => fits_of_published hpublished, exists_published file_hash⟩, ?_⟩
  have hsearch : Reads
      (read_search_entries replace source_res_truncated source_entry_truncated (source_entry ipv6_text))
      (header ++ (encode 2 publications.length ++ (publications.map Publication.answer).flatten))
      (publications.map Publication.found) :=
    reads_behind_header source_res_truncated hheader hfew (reads_publications replace ipv6_text publications 0)
  have hrun := hsearch.run []
  rw [List.append_nil] at hrun
  rw [parse_search_res_source_entries, hrun]
  rfl

end Sources

theorem length_sampleOwn : (List.replicate 16 (1 : UInt8)).length = 16 := rfl

/-- A source with a port for datagrams. -/
def sampleOwn : OwnSource := ⟨List.replicate 16 1, 4662, some 4672, 5, 3, 1, length_sampleOwn⟩

/-- It is published from 10.0.0.7. -/
theorem published_sources_found_one :
    ∃ publication : Publication ⟨7, by decide⟩, publication.source = sampleOwn ∧
      parse_search_res_source_entries (fun _ => "") (fun _ => "") (List.replicate 32 0 ++
          (encode 2 1 ++ ([publication].map Publication.answer).flatten)) =
        .ok [(sampleOwn.user_hash, sampleOwn.fields 0x0700000A)] := by
  obtain ⟨payload, hpayload⟩ : ∃ payload, publish_source ⟨7, by decide⟩ sampleOwn = .ok payload := ⟨_, rfl⟩
  have hfew : [(⟨sampleOwn, 0x0700000A, payload, hpayload, by decide⟩ : Publication _)].length < 2 ^ 16 :=
    Nat.one_lt_two_pow (by decide)
  exact ⟨_, rfl, (published_sources_found _ _ (List.length_replicate ..) hfew).2⟩

end amuled.kad
