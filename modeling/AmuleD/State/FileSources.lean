import AmuleD.Basic
import AmuleD.Dict

namespace amuled.state

/-- One source endpoint of a file. `kad_type` is `none` for the sources of an ED2K server. -/
structure FoundSource where
  client_id : Nat
  client_port : Nat
  user_hash : Option Bytes
  kad_type : Option Nat
  kad_udp_port : Option Nat
  buddy_id : Option Bytes
  buddy_ip : Option String
  buddy_port : Option Nat
  ipv6 : Option String
  buddy_ipv6 : Option String

structure FoundSources where
  file_hash : Bytes
  sources : List FoundSource

/-- The primary key of the table `file_sources`. -/
structure SourceKey where
  file_hash : String
  client_id : Nat
  client_port : Nat
  source_type : String
  deriving DecidableEq

/-- The other columns of a row, without the times. -/
structure FileSource where
  server_ip : String
  server_port : Nat
  user_hash : Option String
  kad_udp_port : Option Nat
  buddy_id : Option String
  ipv6 : Option String
  buddy_ipv6 : Option String
  deriving DecidableEq

/-- The upper case hexadecimal of an optional hash. An empty one counts as none. -/
def hash_column (hash : Option Bytes) : Option String :=
  (hash.filter fun raw => raw ≠ []).map fun raw => (hex_lower raw).toUpper

namespace FoundSource

variable (source : FoundSource) (server_ip : String) (server_port : Nat) (source_type : String)

def row_type : String :=
  match source.kad_type with
  | some kad_type => if "kad".toList.isPrefixOf source_type.toList then s!"kad{kad_type}" else source_type
  | none => source_type

def key (file_hash : Bytes) : SourceKey :=
  ⟨(hex_lower file_hash).toUpper, source.client_id, source.client_port, source.row_type source_type⟩

/-- The row of a source. Only the firewalled types of KAD have a buddy endpoint of their own, which an empty
address and the port 0 do not count as. -/
def row : FileSource where
  server_ip :=
    if source.row_type source_type = "kad3" ∨ source.row_type source_type = "kad5" then
      (source.buddy_ip.filter fun ip => ip ≠ "").getD server_ip
    else server_ip
  server_port :=
    if source.row_type source_type = "kad3" ∨ source.row_type source_type = "kad5" then
      (source.buddy_port.filter fun port => port ≠ 0).getD server_port
    else server_port
  user_hash := hash_column source.user_hash
  kad_udp_port := source.kad_udp_port
  buddy_id := hash_column source.buddy_id
  ipv6 := source.ipv6
  buddy_ipv6 := source.buddy_ipv6

end FoundSource

/-- `save_found_sources`: the table afterwards, and the number of rows written. -/
def save_found_sources (table : Dict SourceKey FileSource) (record : FoundSources) (server_ip : String)
    (server_port : Nat) (source_type : String) : Dict SourceKey FileSource × Nat :=
  (table.assign (record.sources.map fun source =>
      (source.key source_type record.file_hash, source.row server_ip server_port source_type)),
    record.sources.length)

variable {table : Dict SourceKey FileSource} {record : FoundSources} {server_ip : String} {server_port : Nat}
  {source_type : String}

/-- A source can be read back where no two of the record have one key. -/
theorem get_save_found_sources {source : FoundSource} (hsource : source ∈ record.sources)
    (hkeys : (record.sources.map fun source => source.key source_type record.file_hash).Nodup) :
    (save_found_sources table record server_ip server_port source_type).1.get
      (source.key source_type record.file_hash) = some (source.row server_ip server_port source_type) := by
  apply Dict.get_assign_of_mem
  · rw [List.map_map]
    exact hkeys
  · exact List.mem_map_of_mem hsource

/-- The rows of the other files stay as they are. -/
theorem get_save_found_sources_of_ne {key : SourceKey} (hother : key.file_hash ≠ (hex_lower record.file_hash).toUpper) :
    (save_found_sources table record server_ip server_port source_type).1.get key = table.get key := by
  apply Dict.get_assign_of_not_mem
  rw [List.map_map]
  intro hmem
  obtain ⟨source, _, hkey⟩ := List.mem_map.mp hmem
  apply hother
  rw [← hkey]
  rfl

theorem FoundSource.row_type_kad {source : FoundSource} {kad_type : Nat} (htype : source.kad_type = some kad_type) :
    source.row_type "kad" = s!"kad{kad_type}" := by
  have hstarts : "kad".toList.isPrefixOf "kad".toList = true := by decide
  rw [FoundSource.row_type, htype]
  simp only [hstarts, if_true]

/-- The row of a firewalled KAD source has the endpoint of the source's own buddy. -/
theorem FoundSource.row_of_buddy {source : FoundSource} {kad_type port : Nat} {ip : String}
    (htype : source.kad_type = some kad_type) (hbuddy : kad_type = 3 ∨ kad_type = 5)
    (hip : source.buddy_ip = some ip) (hport : source.buddy_port = some port) (hnonempty : ip ≠ "")
    (hpositive : port ≠ 0) :
    (source.row server_ip server_port "kad").server_ip = ip ∧
      (source.row server_ip server_port "kad").server_port = port := by
  have hrow : source.row_type "kad" = "kad3" ∨ source.row_type "kad" = "kad5" := by
    rw [FoundSource.row_type_kad htype]
    rcases hbuddy with rfl | rfl
    · exact Or.inl rfl
    · exact Or.inr rfl
  rw [FoundSource.row, if_pos hrow, if_pos hrow, hip, hport, Option.filter_some_pos (by simpa using hnonempty),
    Option.filter_some_pos (by simpa using hpositive)]
  exact ⟨rfl, rfl⟩

end amuled.state
