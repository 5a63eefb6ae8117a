import AmuleD.Basic
import AmuleD.Dict

namespace amuled.sharing

/-- Metadata of a shared file. Its hash has sixteen bytes. -/
structure SharedFile where
  file_hash : Bytes
  name : String
  size : Nat
  path : Option String
  priority : Int
  imported : Bool
  length_file_hash : file_hash.length = 16

def SharedFile.hash_hex (record : SharedFile) : String := (hex_lower record.file_hash).toUpper

/-- A row of `shared_files` under its hash. -/
structure SharedRow where
  name : String
  size : Nat
  path : Option String
  priority : Int
  imported : Bool
  deriving DecidableEq

/-- The tables of shared files and of shared directories. -/
structure SharedTables where
  shared_files : Dict String SharedRow
  shared_directories : List String

/-- The operating system's paths, Python's `lower` and the database's. -/
structure Platform where
  windows : Bool
  normalize_path : String → String
  lower : String → String
  sql_lower : String → String
  normalize_idem : ∀ path, normalize_path (normalize_path path) = normalize_path path

/-- A list can be gone through twice, a generator yields nothing the second time. -/
structure Records where
  records : List SharedFile
  one_shot : Bool

/-- Where the database, the iteration or a path may raise. -/
inductive Point where
  | resolve_root
  | begin_transaction
  | save_directory
  | iterate (index : Nat)
  | normalize (index : Nat)
  | save_file (index : Nat)
  | select_existing
  | iterate_again (index : Nat)
  | normalize_again (index : Nat)
  | delete_file (index : Nat)
  | count_files
  | delete_files
  | select_directory
  | delete_directory
  | commit

structure ScanResult where
  directory : String
  saved_files : Nat
  removed_files : Nat

structure RemovalResult where
  directory : String
  directory_removed : Bool
  files_removed : Bool
  removed_files : Nat

/-- SQL's `starts_with`. -/
def starts_with (text front : String) : Bool := front.toList.isPrefixOf text.toList

/-- Python's `text.rstrip("\\/")`. -/
def rstrip_separators (text : String) : String :=
  String.ofList (text.toList.reverse.dropWhile fun c => c = '\\' || c = '/').reverse

/-- `INSERT OR REPLACE INTO shared_directories`. -/
def save_directory (tables : SharedTables) (path : String) : SharedTables :=
  if path ∈ tables.shared_directories then tables
  else { tables with shared_directories := tables.shared_directories ++ [path] }

/-- A record fits in the columns `BIGINT` and `INTEGER`. -/
def SharedFile.Storable (record : SharedFile) : Prop :=
  record.size < 2 ^ 63 ∧ -2 ^ 31 ≤ record.priority ∧ record.priority < 2 ^ 31

instance (record : SharedFile) : Decidable record.Storable := inferInstanceAs (Decidable (_ ∧ _ ∧ _))

section Statements

variable (platform : Platform) (strikes : Point → Option Exc)

def strike (point : Point) : Except Exc Unit :=
  match strikes point with
  | none => .ok ()
  | some e => .error e

/-- `self._normalize_path(record.path) if record.path else None`. -/
def stored_path (index : Nat) (path : Option String) : Except Exc (Option String) :=
  match path with
  | none => .ok none
  | some path =>
    if path = "" then .ok none
    else do
      strike strikes (.normalize index)
      .ok (some (platform.normalize_path path))

/-- `INSERT OR REPLACE INTO shared_files`. -/
def save_file (tables : SharedTables) (record : SharedFile) (path : Option String) : Except Exc SharedTables :=
  if record.Storable then
    let row : SharedRow := ⟨record.name, record.size, path, record.priority, record.imported⟩
    .ok { tables with shared_files := tables.shared_files.set record.hash_hex row }
  else .error .DatabaseError

def shared_prefix (root_text : String) : String := rstrip_separators root_text ++ "\\"

/-- `WHERE starts_with(lower(path), lower(?))`. A row without a path is not selected. -/
def Platform.selected (root_text : String) (row : SharedRow) : Bool :=
  match row.path with
  | none => false
  | some path => starts_with (platform.sql_lower path) (platform.sql_lower ( shared_prefix root_text))

/-- One turn of the first loop over the records. -/
def save_turn (tables : SharedTables) (entry : SharedFile × Nat) : Except Exc SharedTables := do
  strike strikes (.iterate entry.2)
  let path ← stored_path platform strikes entry.2 entry.1.path
  strike strikes (.save_file entry.2)
  save_file tables entry.1 path

/-- One turn of the set comprehension over the records. -/
def scan_turn (scanned : List String) (entry : SharedFile × Nat) : Except Exc (List String) := do
  strike strikes (.iterate_again entry.2)
  match entry.1.path with
  | none => .ok scanned
  | some path => do
    strike strikes (.normalize_again entry.2)
    .ok (platform.lower (platform.normalize_path path) :: scanned)

/-- A selected row is stale if its path was not scanned. -/
def Platform.stale (root_text : String) (scanned : List String) (row : SharedRow) : Bool :=
  platform.selected root_text row && decide (platform.lower (row.path.getD "") ∉ scanned)

/-- One turn of the loop that deletes. -/
def delete_turn (tables : SharedTables) (entry : String × Nat) : Except Exc SharedTables := do
  strike strikes (.delete_file entry.2)
  .ok { tables with shared_files := tables.shared_files.erase entry.1 }

/-- The statements between `BEGIN` and `COMMIT`. -/
def rescan (root_text : String) (records : Records) (tables : SharedTables) :
    Except Exc (ScanResult × SharedTables) := do
  strike strikes .save_directory
  let tables ← records.records.zipIdx.foldlM (save_turn platform strikes) (save_directory tables root_text)
  strike strikes (.iterate records.records.length)
  strike strikes .select_existing
  let again := if records.one_shot then [] else records.records
  let scanned ← again.zipIdx.foldlM (scan_turn platform strikes) []
  strike strikes (.iterate_again again.length)
  let stale := tables.shared_files.keysWhere (platform.stale root_text scanned)
  let tables ← stale.zipIdx.foldlM (delete_turn strikes) tables
  strike strikes .commit
  .ok (⟨root_text, records.records.length, stale.length⟩, tables)

/-- What raises inside a transaction is raised again after `ROLLBACK`. -/
def transaction {α : Type} (statements : SharedTables → Except Exc (α × SharedTables)) (tables : SharedTables) :
    Except Exc α × SharedTables :=
  match statements tables with
  | .error e => (.error e, tables)
  | .ok (result, changed) => (.ok result, changed)

/-- `replace_shared_directory_scan`. -/
def replace_shared_directory_scan (directory : String) (records : Records) (tables : SharedTables) :
    Except Exc ScanResult × SharedTables :=
  match (do strike strikes .resolve_root; strike strikes .begin_transaction) with
  | .error e => (.error e, tables)
  | .ok _ =>
    let root_text := platform.normalize_path (platform.normalize_path directory)
    transaction (rescan platform strikes root_text records) tables

/-- `DELETE FROM shared_files`, with the number of rows that it removes. -/
def remove_files_under (root_text : String) (remove_files : Bool) (files : Dict String SharedRow) :
    Except Exc (Nat × Dict String SharedRow) :=
  if remove_files then do
    let under := files.keysWhere (platform.selected root_text)
    strike strikes .count_files
    strike strikes .delete_files
    .ok (under.length, files.eraseAll under)
  else .ok (0, files)

/-- The statements of `remove_shared_directory`. -/
def remove_rows (root_text : String) (remove_files : Bool) (tables : SharedTables) :
    Except Exc (RemovalResult × SharedTables) := do
  let (removed_files, files) ← remove_files_under platform strikes root_text remove_files tables.shared_files
  strike strikes .select_directory
  let same (path : String) : Bool := platform.sql_lower path = platform.sql_lower root_text
  strike strikes .delete_directory
  strike strikes .commit
  .ok (⟨root_text, tables.shared_directories.any same, remove_files, removed_files⟩,
    ⟨files, tables.shared_directories.filter fun path => !same path⟩)

/-- `remove_shared_directory`. -/
def remove_shared_directory (directory : String) (remove_files : Bool) (tables : SharedTables) :
    Except Exc RemovalResult × SharedTables :=
  match (do strike strikes .resolve_root; strike strikes .begin_transaction) with
  | .error e => (.error e, tables)
  | .ok _ => transaction (remove_rows platform strikes (platform.normalize_path directory) remove_files) tables

end Statements

end amuled.sharing
