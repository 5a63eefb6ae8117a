import Mathlib.Data.List.Induction
import AmuleD.Codec.TagWriter
import AmuleD.OrderedDict
import AmuleD.Streams.Delimited

open littleendian cursor

namespace amuled.server_met

def SERVER_MET_VERSION : Nat := 0xE0

/-- The exceptions of `parse_server_met`: its own, and one that it would let through. -/
inductive MetError where
  | ServerMetError (message : String)
  | raised (e : Exc)
  deriving DecidableEq, Repr

/-- One parsed ED2K server record. -/
structure ServerRecord where
  ip : Nat
  port : Nat
  tags : List Ed2kTag
  static : Bool
  ip_range : ip ≤ 0xFFFFFFFF
  port_range : port ≤ 0xFFFF

abbrev MetRead (α : Type) := Reading UInt8 MetError α

/-- The `except (CodecError, TagError)` around the reader. -/
def malformed : Exc → MetError
  | .CodecError e => .ServerMetError s!"malformed server.met: {e}"
  | .TagError e => .ServerMetError s!"malformed server.met: {e}"
  | e => .raised e

def reading {α : Type} (read : BinaryRead α) : MetRead α := fun reader => (read reader).mapError malformed

/-- `ServerRecord(...)`, with the checks of `__post_init__`. -/
def ServerRecord.checked (ip port : Nat) (tags : List Ed2kTag) : MetRead ServerRecord :=
  if hip : ip ≤ 0xFFFFFFFF then
    if hport : port ≤ 0xFFFF then pure ⟨ip, port, tags, false, hip, hport⟩
    else throw (.ServerMetError s!"server port out of UInt16 range: {port}")
  else throw (.ServerMetError s!"server IP out of UInt32 range: {ip}")

def read_server_record : MetRead ServerRecord := do
  let ip ← reading read_u32
  let port ← reading read_u16
  let tag_count ← reading read_u32
  let tags ← repeatN (reading read_new_tag) tag_count
  ServerRecord.checked ip port tags

def read_server_met : MetRead (List ServerRecord) := do
  let version ← reading read_u8
  if version ≠ SERVER_MET_VERSION then
    throw (.ServerMetError s!"unsupported server.met version: {hex_upper 2 version}")
  else
    let count ← reading read_u32
    repeatN read_server_record count

def parse_server_met (data : Bytes) : Except MetError (List ServerRecord) :=
  match read_server_met ⟨data, 0⟩ with
  | .error e => .error e
  | .ok (records, reader) =>
    if reader.remaining ≠ 0 then .error (.ServerMetError s!"{reader.remaining} unexpected trailing bytes")
    else .ok records

section Layout

/-- A record as the format has it, with its tags as they are written. -/
def record_bytes (pack_float : TagValue → Except Exc Bytes) (record : ServerRecord) : Except Exc Bytes := do
  let raws ← record.tags.mapM (write_new_tag pack_float)
  pure (encode 4 record.ip ++ (encode 2 record.port ++ (encode 4 record.tags.length ++ raws.flatten)))

/-- A `server.met` of some records. -/
def server_met_bytes (pack_float : TagValue → Except Exc Bytes) (records : List ServerRecord) : Except Exc Bytes := do
  let raws ← records.mapM (record_bytes pack_float)
  pure (encode 1 SERVER_MET_VERSION ++ (encode 4 records.length ++ raws.flatten))

/-- A record as it comes back: every server of the file is no static one. -/
def ServerRecord.back (record : ServerRecord) : ServerRecord :=
  { record with tags := record.tags.map Ed2kTag.back, static := false }

/-- The counts of a record fit, and its tags are of a type that is written as it is read. -/
structure ServerRecord.Writable (record : ServerRecord) : Prop where
  few : record.tags.length < 2 ^ 32
  kinds : ∀ tag ∈ record.tags, tag.type ≠ FLOAT32

variable {pack_float : TagValue → Except Exc Bytes} {record : ServerRecord} {records : List ServerRecord}

theorem reads_reading {α : Type} {read : BinaryRead α} {front : Bytes} {value : α} (hread : Reads read front value) :
    Reads (reading read) front value := by
  intro before rest
  rw [reading, hread before rest]
  rfl

theorem reads_tags {tags : List Ed2kTag} {raws : List Bytes} (hkinds : ∀ tag ∈ tags, tag.type ≠ FLOAT32)
    (hwritten : tags.mapM (write_new_tag pack_float) = .ok raws) :
    Reads (repeatN (reading read_new_tag) tags.length) raws.flatten (tags.map Ed2kTag.back) := by
  have hraws := mapM_eq_ok_iff.mp hwritten
  clear hwritten
  induction hraws with
  | nil => exact Reads.pure []
  | cons hraw _ ih =>
    rw [List.forall_mem_cons] at hkinds
    exact (reads_reading (reads_written_tag hkinds.1 hraw)).repeatN_cons (ih hkinds.2)

theorem reads_record {raw : Bytes} (hwritable : record.Writable) (hwritten : record_bytes pack_float record = .ok raw) :
    Reads read_server_record raw record.back := by
  obtain ⟨raws, hraws, hraw⟩ := bind_eq_ok_iff.mp hwritten
  cases hraw
  have hip : Reads (reading read_u32) (encode 4 record.ip) record.ip :=
    reads_reading (reads_uint (Nat.lt_of_le_of_lt record.ip_range (by decide)))
  have hport : Reads (reading read_u16) (encode 2 record.port) record.port :=
    reads_reading (reads_uint (Nat.lt_of_le_of_lt record.port_range (by decide)))
  have hcount : Reads (reading read_u32) (encode 4 record.tags.length) record.tags.length :=
    reads_reading (reads_uint hwritable.few)
  have htags := reads_tags hwritable.kinds hraws
  have hchecked : Reads (ServerRecord.checked record.ip record.port (record.tags.map Ed2kTag.back)) [] record.back := by
    rw [ServerRecord.checked, dif_pos record.ip_range, dif_pos record.port_range]
    exact Reads.pure record.back
  exact hip.bind (hport.bind (hcount.bind (htags.bind_last hchecked)))

theorem reads_records {raws : List Bytes} (hwritable : ∀ record ∈ records, record.Writable)
    (hwritten : records.mapM (record_bytes pack_float) = .ok raws) :
    Reads (repeatN read_server_record records.length) raws.flatten (records.map ServerRecord.back) := by
  have hraws := mapM_eq_ok_iff.mp hwritten
  clear hwritten
  induction hraws with
  | nil => exact Reads.pure []
  | cons hraw _ ih =>
    rw [List.forall_mem_cons] at hwritable
    exact (reads_record hwritable.1 hraw).repeatN_cons (ih hwritable.2)

theorem reads_server_met {data : Bytes} (hfew : records.length < 2 ^ 32)
    (hwritable : ∀ record ∈ records, record.Writable) (hwritten : server_met_bytes pack_float records = .ok data) :
    Reads read_server_met data (records.map ServerRecord.back) := by
  obtain ⟨raws, hraws, hdata⟩ := bind_eq_ok_iff.mp hwritten
  cases hdata
  have hversion : Reads (reading read_u8) (encode 1 SERVER_MET_VERSION) SERVER_MET_VERSION :=
    reads_reading (reads_uint (by decide))
  have hcount : Reads (reading read_u32) (encode 4 records.length) records.length := reads_reading (reads_uint hfew)
  refine hversion.bind ?_
  rw [if_neg (not_not.mpr rfl)]
  exact hcount.bind (reads_records hwritable hraws)

end Layout

section Merging

/-- The `key` of a record: its address and its port. -/
def ServerRecord.key (record : ServerRecord) : Nat × Nat := (record.ip, record.port)

/-- The records of a list are entered where nothing is under their keys yet. -/
def entered (merged : OrderedDict (Nat × Nat) ServerRecord) (records : List ServerRecord) :
    OrderedDict (Nat × Nat) ServerRecord :=
  records.foldl (fun merged record => merged.setDefault record.key record) merged

def merge_server_lists (primary secondary : List ServerRecord) : List ServerRecord :=
  (entered (entered .empty primary) secondary).values

variable {merged : OrderedDict (Nat × Nat) ServerRecord}

/-- Every record stands under its own key. -/
def Keyed (merged : OrderedDict (Nat × Nat) ServerRecord) : Prop := ∀ entry ∈ merged.entries, entry.1 = entry.2.key

theorem Keyed.entered (hkeyed : Keyed merged) (records : List ServerRecord) : Keyed (entered merged records) := by
  induction records generalizing merged with
  | nil => exact hkeyed
  | cons record rest ih =>
    apply ih
    intro entry hentry
    rcases OrderedDict.mem_of_mem_setDefault hentry with rfl | hold
    · rfl
    · exact hkeyed entry hold

theorem Keyed.map_key (hkeyed : Keyed merged) : merged.values.map ServerRecord.key = merged.keys := by
  rw [OrderedDict.values, OrderedDict.keys, List.map_map]
  exact List.map_congr_left fun entry hentry => (hkeyed entry hentry).symm

theorem Keyed.find (hkeyed : Keyed merged) (key : Nat × Nat) :
    merged.values.find? (fun record => decide (record.key = key)) = merged.get key := by
  have hsame : ∀ entries : List ((Nat × Nat) × ServerRecord), (∀ entry ∈ entries, entry.1 = entry.2.key) →
      (entries.map Prod.snd).find? (fun record => decide (record.key = key)) =
        (entries.find? fun entry => entry.1 = key).map Prod.snd := by
    intro entries hentries
    induction entries with
    | nil => rfl
    | cons entry rest ih =>
      rw [List.forall_mem_cons] at hentries
      rw [List.map_cons]
      by_cases hkey : entry.1 = key
      · rw [List.find?_cons_of_pos (by simp [← hentries.1, hkey]), List.find?_cons_of_pos (by simp [hkey]),
          Option.map_some]
      · rw [List.find?_cons_of_neg (by simp [← hentries.1, hkey]), List.find?_cons_of_neg (by simp [hkey]),
          ih hentries.2]
  exact hsame merged.entries hkeyed

theorem keyed_merge (primary secondary : List ServerRecord) : Keyed (entered (entered .empty primary) secondary) := by
  have hempty : Keyed .empty := by
    intro entry hentry
    cases hentry
  exact (hempty.entered primary).entered secondary

theorem nodup_merge_server_lists (primary secondary : List ServerRecord) :
    ((merge_server_lists primary secondary).map ServerRecord.key).Nodup := by
  rw [merge_server_lists, (keyed_merge primary secondary).map_key]
  exact OrderedDict.nodup_keys _

/-- An endpoint is read from the first list that has it. -/
theorem find_merge_server_lists (primary secondary : List ServerRecord) (key : Nat × Nat) :
    (merge_server_lists primary secondary).find? (fun record => decide (record.key = key)) =
      (primary ++ secondary).find? (fun record => decide (record.key = key)) := by
  rw [merge_server_lists, (keyed_merge primary secondary).find, entered, OrderedDict.get_setDefaults, entered,
    OrderedDict.get_setDefaults, OrderedDict.get_empty, Option.none_or, List.find?_append]

theorem nodup_merges (lists : List (List ServerRecord)) :
    ((lists.foldl merge_server_lists []).map ServerRecord.key).Nodup := by
  induction lists using List.reverseRecOn with
  | nil => exact List.nodup_nil
  | append_singleton lists last _ =>
    rw [List.foldl_concat]
    exact nodup_merge_server_lists _ last

theorem find_merges (lists : List (List ServerRecord)) (key : Nat × Nat) :
    (lists.foldl merge_server_lists []).find? (fun record => decide (record.key = key)) =
      lists.flatten.find? (fun record => decide (record.key = key)) := by
  induction lists using List.reverseRecOn with
  | nil => rfl
  | append_singleton lists last ih =>
    rw [List.foldl_concat, find_merge_server_lists, List.find?_append, ih, List.flatten_append, List.find?_append,
      List.flatten_singleton]

end Merging

section Imports

variable {pack_float : TagValue → Except Exc Bytes} {records : List ServerRecord} {lists : List (List ServerRecord)}
variable {datas : List Bytes}

theorem parse_server_met_of_bytes {data : Bytes} (hfew : records.length < 2 ^ 32)
    (hwritable : ∀ record ∈ records, record.Writable) (hwritten : server_met_bytes pack_float records = .ok data) :
    parse_server_met data = .ok (records.map ServerRecord.back) := by
  have hread := (reads_server_met hfew hwritable hwritten).run []
  rw [List.append_nil] at hread
  rw [parse_server_met, hread]
  exact if_neg (not_not.mpr (Nat.sub_self data.length))

/-- A server without tags, and one with a name. -/
def sampleRecords : List ServerRecord :=
  [⟨1, 4661, [], false, by decide, by decide⟩, ⟨2, 4661, [⟨.name_id 1, STRING, .str "s"⟩], true, by decide, by decide⟩]

end Imports

end amuled.server_met
