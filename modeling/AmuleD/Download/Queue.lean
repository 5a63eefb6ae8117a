import AmuleD.Dict
import AmuleD.Download.PartFile
import AmuleD.Hashes.Ed2k
import AmuleD.Upload.Queue

open amuled.upload (strip isHexDigit)

namespace amuled.download

open ed2k

/-- An absolute path as its components. -/
abbrev Path := List String

/-- The text of a path. -/
def Path.text (path : Path) : String := String.join (path.map fun component => "/" ++ component)

/-- The components of a name: `Path` drops empty ones and `.`. -/
def components (name : String) : List String :=
  ((name.toList.splitOn '/').map String.ofList).filter fun component => component ≠ "" ∧ component ≠ "."

def is_absolute (name : String) : Bool := name.toList.head? = some '/'

inductive DownloadStatus where
  | QUEUED
  | DOWNLOADING
  | PAUSED
  | COMPLETE
  | ERROR
  deriving DecidableEq

/-- The value that is stored for a status. -/
def DownloadStatus.text : DownloadStatus → String
  | .QUEUED => "queued"
  | .DOWNLOADING => "downloading"
  | .PAUSED => "paused"
  | .COMPLETE => "complete"
  | .ERROR => "error"

/-- A row of the `downloads` table, under its hash in lower case. -/
structure Download where
  name : String
  size : Int
  part_path : Path
  status : DownloadStatus
  downloaded : Int

/-- A file that `finalize` has moved. -/
structure Moved where
  hash : String
  name : String
  target : Path
  content : Bytes

/-- The settings of a queue and what it is given of the host: the MD4 and the directories, with the one that
`finalize` makes. -/
structure QueueConfig where
  md4 : Md4
  temp_dir : Path
  incoming_dir : Path
  sparse_part_files : Bool
  is_dir : Path → Bool
  incoming_is_dir : is_dir incoming_dir = true

/-- The downloads of the state backend, the data files and the sidecars on disk, and the files that
`finalize` has moved so far. -/
structure DownloadQueue where
  rows : Dict String Download
  files : Dict Path Bytes
  sidecars : Dict Path Sidecar
  moved : List Moved

/-- The white space that `bytes.fromhex` skips. -/
def is_ascii_space (c : Char) : Bool := (0x09 ≤ c.toNat && c.toNat ≤ 0x0D) || c.toNat = 0x20

/-- `bytes.fromhex` accepts a text. -/
def fromhex_ok : List Char → Bool
  | [] => true
  | [c] => is_ascii_space c
  | c :: d :: rest =>
    if is_ascii_space c then fromhex_ok (d :: rest) else isHexDigit c && isHexDigit d && fromhex_ok rest

def hex_value (c : Char) : Nat := if c.isDigit then c.toNat - 0x30 else c.toLower.toNat - 0x57

/-- `bytes.fromhex`, or `none` where it raises `ValueError`. -/
def fromhex : List Char → Option Bytes
  | [] => some []
  | [c] => if is_ascii_space c then some [] else none
  | c :: d :: rest =>
    if is_ascii_space c then fromhex (d :: rest)
    else if isHexDigit c && isHexDigit d then (fromhex rest).map (UInt8.ofNat (16 * hex_value c + hex_value d) :: ·)
    else none

theorem isSome_fromhex (text : List Char) : (fromhex text).isSome = fromhex_ok text := by
  induction text using fromhex.induct with
  | case1 => rfl
  | case2 c hspace => simp [fromhex, fromhex_ok, hspace]
  | case3 c hspace => simp [fromhex, fromhex_ok, hspace]
  | case4 c d rest hspace ih => simp [fromhex, fromhex_ok, hspace, ih]
  | case5 c d rest hspace hdigits ih =>
    rw [fromhex, fromhex_ok, if_neg hspace, if_neg hspace, if_pos hdigits, hdigits, Bool.true_and, Option.isSome_map, ih]
  | case6 c d rest hspace hdigits =>
    rw [fromhex, fromhex_ok, if_neg hspace, if_neg hspace, if_neg hdigits, Bool.eq_false_of_not_eq_true hdigits,
      Bool.false_and]
    rfl

/-- `_normalize_hash`. -/
def normalize_hash (file_hash : String) : Except Exc String :=
  let normalized := (strip file_hash.toList).map Char.toLower
  if normalized.length ≠ 32 then
    .error (.DownloadQueueError "file hash must contain 32 hexadecimal digits")
  else if fromhex_ok normalized then .ok (String.ofList normalized)
  else .error (.ValueError "non-hexadecimal number found in fromhex() arg")

namespace DownloadQueue

variable (config : QueueConfig) (queue : DownloadQueue)

/-- The file of a download that is not complete yet. -/
def part_path (hash : String) : Path := config.temp_dir ++ [hash ++ ".part"]

/-- `PartFile.open_new`, with the free space on the volume. -/
def open_new (path : Path) (part : PartFile) (free : Nat) : Except Exc DownloadQueue :=
  let saved := { queue with sidecars := queue.sidecars.set path ⟨part.total_size, part.gaps⟩ }
  if (queue.files.get path).map (fun file => (file.length : Int)) = some part.total_size then .ok saved
  else if config.sparse_part_files then
    if free < min ((1 <<< 20 : Nat) : Int) part.total_size then
      .error (.PartFileError (s!"insufficient disk space for sparse part file ({part.total_size} bytes expected) " ++
        s!"in {config.temp_dir.text}"))
    else .ok { saved with files := queue.files.set path [] }
  else if free < part.total_size then
    .error (.PartFileError s!"insufficient disk space for {part.total_size} bytes in {config.temp_dir.text}")
  else .ok { saved with files := queue.files.set path (List.replicate part.total_size.toNat 0) }

/-- `PartFile.resume`, which opens the data file too. -/
def resume_part (path : Path) : Except Exc (PartFile × Disk) := do
  let sidecar := queue.sidecars.get path
  let part ← PartFile.resume path.text ⟨[], sidecar⟩
  match queue.files.get path with
  | none => .error .OSError
  | some file => .ok (part, ⟨file, sidecar⟩)

/-- The row of a download. -/
def find (hash : String) : Except Exc Download :=
  match queue.rows.get hash with
  | none => .error (.DownloadQueueError s!"download not found: {hash}")
  | some row => .ok row

def add (file_hash name : String) (size : Int) (free : Nat) : Except Exc DownloadQueue := do
  let normalized ← normalize_hash file_hash
  match queue.rows.get normalized with
  | some _ => .ok queue
  | none =>
    let path := part_path config normalized
    let part ← PartFile.new path.text size
    let opened ← queue.open_new config path part free
    .ok { opened with rows := opened.rows.set normalized ⟨name, size, path, .QUEUED, 0⟩ }

def set_status (file_hash : String) (status : DownloadStatus) : Except Exc DownloadQueue := do
  let normalized ← normalize_hash file_hash
  let row ← queue.find normalized
  .ok { queue with rows := queue.rows.set normalized { row with status := status } }

def start (file_hash : String) : Except Exc DownloadQueue := queue.set_status file_hash .DOWNLOADING

def pause (file_hash : String) : Except Exc DownloadQueue := queue.set_status file_hash .PAUSED

def resume (file_hash : String) : Except Exc DownloadQueue := do
  let normalized ← normalize_hash file_hash
  match queue.rows.get normalized with
  | none => .error (.DownloadQueueError s!"download not found: {file_hash}")
  | some row =>
    if row.status ≠ .PAUSED then
      .error (.DownloadQueueError s!"only paused downloads can be resumed: {row.status.text}")
    else queue.set_status file_hash .DOWNLOADING

/-- The queue after a part file was changed and saved. -/
def save_part (hash : String) (row : Download) (part : PartFile) (file : Bytes) (status : DownloadStatus) :
    DownloadQueue :=
  { queue with
    files := queue.files.set row.part_path file
    sidecars := queue.sidecars.set row.part_path ⟨part.total_size, part.gaps⟩
    rows := queue.rows.set hash
      { row with downloaded := part.total_size - part.remaining_bytes, status := status } }

def record_block (file_hash : String) (start : Int) (data : Bytes) : Except Exc DownloadQueue := do
  let normalized ← normalize_hash file_hash
  let row ← queue.find normalized
  let (part, disk) ← queue.resume_part row.part_path
  let (_, part, disk) ← part.write_block disk start data
  .ok (queue.save_part normalized row part disk.file (if part.is_complete then .COMPLETE else .DOWNLOADING))

def gap_ranges (file_hash : String) : Except Exc (List (Int × Int)) := do
  let normalized ← normalize_hash file_hash
  let row ← queue.find normalized
  let (part, _) ← queue.resume_part row.part_path
  .ok (part.gaps.map fun gap => (gap.start, gap.stop))

def punch_gaps (file_hash : String) (ranges : List (Int × Int)) : Except Exc DownloadQueue := do
  let normalized ← normalize_hash file_hash
  let row ← queue.find normalized
  let (part, disk) ← queue.resume_part row.part_path
  let punched := ranges.foldl (fun part range => part.punch range.1 range.2) part
  .ok (queue.save_part normalized row punched disk.file .DOWNLOADING)

/-- Where the operating system finds the components of a path below a directory. -/
def lookup (directory : Path) : List String → Option Path
  | [] => some directory
  | component :: rest =>
    if component = ".." then lookup directory.dropLast rest
    else if rest = [] then some (directory ++ [component])
    else if config.is_dir (directory ++ [component]) then lookup (directory ++ [component]) rest
    else none

/-- The path that `incoming_dir / name` leads to: an absolute name takes the place of the directory. -/
def target_of (name : String) : Option Path :=
  lookup config (if is_absolute name then [] else config.incoming_dir) (components name)

/-- The text of `incoming_dir / name`. -/
def target_text (name : String) : String :=
  if is_absolute name then Path.text (components name) else Path.text (config.incoming_dir ++ components name)

/-- `shutil.move`: into a directory under the own name, else over whatever is there. -/
def move (source : Path) (content : Bytes) (target : Path) : Except Exc (Path × DownloadQueue) :=
  let into := target ++ [source.getLastD ""]
  if config.is_dir target then
    if queue.files.get into ≠ none ∨ config.is_dir into then .error .OSError
    else .ok (into, { queue with files := (queue.files.erase source).set into content })
  else .ok (target, { queue with files := (queue.files.erase source).set target content })

/-- `_file_hash`, in lower case. -/
def file_hash (content : Bytes) : String :=
  hex_lower (ed2k_hash_file config.md4 content PARTSIZE partSize_pos).file_hash

/-- The checks of a file that `finalize` is told to verify. -/
def verify_file (hash : String) (path : Path) (content : Bytes) : Except Exc Unit := do
  let (part, _) ← queue.resume_part path
  if part.is_complete = false then .error (.DownloadQueueError "part file still has gaps")
  else if file_hash config content ≠ hash then
    .error (.DownloadQueueError (s!"hash mismatch after download: expected={hash}, " ++
      s!"got={(file_hash config content).toUpper}"))
  else .ok ()

/-- The file of a download is moved to its name. -/
def move_named (hash : String) (row : Download) (content : Bytes) : Except Exc DownloadQueue :=
  if '\x00' ∈ row.name.toList then .error (.ValueError "embedded null byte")
  else
    match target_of config row.name with
    | none => .error .OSError
    | some target => do
      let (placed, queue) ← queue.move config row.part_path content target
      .ok { queue with
        rows := queue.rows.set hash { row with status := .COMPLETE }
        moved := queue.moved ++ [⟨hash, row.name, placed, content⟩] }

def finalize (file_hash : String) (verify : Bool) (free : Nat) : Except Exc DownloadQueue := do
  let normalized ← normalize_hash file_hash
  let row ← queue.find normalized
  if row.status ≠ .COMPLETE then
    .error (.DownloadQueueError s!"download is not complete: status={row.status.text}")
  else
    match queue.files.get row.part_path with
    | none => .error .OSError
    | some content =>
      if free ≤ content.length then
        .error (.DownloadQueueError (s!"insufficient disk space for finalize: need={content.length}, free={free}, " ++
          s!"target={target_text config row.name}"))
      else do
        if verify then queue.verify_file config normalized row.part_path content
        queue.move_named config normalized row content

end DownloadQueue

/-- A call on the queue, with the free space that it finds. -/
inductive QueueCall where
  | add (file_hash name : String) (size : Int) (free : Nat)
  | start (file_hash : String)
  | pause (file_hash : String)
  | resume (file_hash : String)
  | record_block (file_hash : String) (start : Int) (data : Bytes)
  | punch_gaps (file_hash : String) (ranges : List (Int × Int))
  | finalize (file_hash : String) (verify : Bool) (free : Nat)

namespace DownloadQueue

variable (config : QueueConfig)

def call (queue : DownloadQueue) : QueueCall → Except Exc DownloadQueue
  | .add file_hash name size free => queue.add config file_hash name size free
  | .start file_hash => queue.start file_hash
  | .pause file_hash => queue.pause file_hash
  | .resume file_hash => queue.resume file_hash
  | .record_block file_hash start data => queue.record_block file_hash start data
  | .punch_gaps file_hash ranges => queue.punch_gaps file_hash ranges
  | .finalize file_hash verify free => queue.finalize config file_hash verify free

/-- The queue after a call; one that raises changes nothing. -/
def after (queue : DownloadQueue) (call : QueueCall) : DownloadQueue :=
  match queue.call config call with
  | .error _ => queue
  | .ok next => next

def run (queue : DownloadQueue) (calls : List QueueCall) : DownloadQueue := calls.foldl (after config) queue

end DownloadQueue

end amuled.download
