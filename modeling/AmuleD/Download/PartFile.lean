import Mathlib.Data.Prod.Lex
import AmuleD.Basic
import AmuleD.Intervals.HalfOpen
import AmuleD.Sorting.Stable

open halfopen sorting

namespace amuled.download

/-- `Gap`: a range of bytes that are still missing. -/
abbrev Gap := Span Int

def Gap.length (gap : Gap) : Int := gap.stop - gap.start

def PART_SIDECAR_SUFFIX : String := ".amuled.json"

/-- A gap cut to the file, unless nothing is left of it. -/
def clip (total_size : Int) (gap : Gap) : Option Gap :=
  let start := max 0 (min gap.start total_size)
  let stop := max 0 (min gap.stop total_size)
  if stop > start then some ⟨start, stop⟩ else none

/-- `_normalize_gaps`. -/
def normalize_gaps (gaps : List Gap) (total_size : Int) : List Gap :=
  merge (sorted (fun gap => toLex (gap.start, gap.stop)) (gaps.filterMap (clip total_size)))

structure PartFile where
  path : String
  total_size : Int
  gaps : List Gap

/-- What `save` writes and `resume` reads. -/
structure Sidecar where
  total_size : Int
  gaps : List Gap

/-- The data file and the sidecar of a path. -/
structure Disk where
  file : Bytes
  sidecar : Option Sidecar

namespace PartFile

/-- `__init__`. -/
def new (path : String) (total_size : Int) : Except Exc PartFile :=
  if total_size ≤ 0 then
    .error (.PartFileError s!"download size must be positive: {total_size}")
  else .ok ⟨path, total_size, [⟨0, total_size⟩]⟩

def sidecar_path (path : String) : String := path ++ PART_SIDECAR_SUFFIX

def remaining_bytes (part : PartFile) : Int := (part.gaps.map Gap.length).sum

def is_complete (part : PartFile) : Bool := part.gaps.isEmpty

/-- What a filled range leaves of a gap. -/
def fill (start stop : Int) (gap : Gap) : List Gap :=
  if stop ≤ gap.start ∨ start ≥ gap.stop then [gap]
  else (if start > gap.start then [⟨gap.start, start⟩] else []) ++
    (if stop < gap.stop then [⟨stop, gap.stop⟩] else [])

/-- `_apply_gap_fill`. -/
def apply_gap_fill (part : PartFile) (start stop : Int) : PartFile :=
  { part with gaps := normalize_gaps (part.gaps.flatMap (fill start stop)) part.total_size }

/-- The data file after a write at a position, where a hole reads as zeros. -/
def write_at (file : Bytes) (start : Nat) (data : Bytes) : Bytes :=
  if data = [] then file
  else (file ++ List.replicate (start - file.length) 0).take start ++ data ++
    file.drop (start + data.length)

def write_block (part : PartFile) (disk : Disk) (start : Int) (data : Bytes) :
    Except Exc (Int × PartFile × Disk) :=
  if start < 0 ∨ start + data.length > part.total_size then
    .error (.PartFileError s!"block outside file bounds: start={start}, bytes={data.length}")
  else
    let filled := part.apply_gap_fill start (start + data.length)
    .ok (filled.remaining_bytes, filled, { disk with file := write_at disk.file start.toNat data })

def punch (part : PartFile) (start stop : Int) : PartFile :=
  let start := max 0 start
  let stop := min part.total_size stop
  if stop ≤ start then part
  else { part with gaps := normalize_gaps (part.gaps ++ [⟨start, stop⟩]) part.total_size }

def save (part : PartFile) (disk : Disk) : Disk :=
  { disk with sidecar := some ⟨part.total_size, part.gaps⟩ }

def resume (path : String) (disk : Disk) : Except Exc PartFile :=
  match disk.sidecar with
  | none => .error (.PartFileError s!"part sidecar is missing: {sidecar_path path}")
  | some data => do
    let part ← new path data.total_size
    .ok { part with gaps := normalize_gaps data.gaps part.total_size }

end PartFile

inductive Operation where
  | write_block (start : Int) (data : Bytes)
  | punch (start stop : Int)
  | save
  | resume

/-- A part file and its disk after an operation. One that raises changes neither. -/
def Operation.apply (state : PartFile × Disk) : Operation → PartFile × Disk
  | .write_block start data =>
    match state.1.write_block state.2 start data with
    | .error _ => state
    | .ok (_, part, disk) => (part, disk)
  | .punch start stop => (state.1.punch start stop, state.2)
  | .save => (state.1, state.1.save state.2)
  | .resume =>
    match PartFile.resume state.1.path state.2 with
    | .error _ => state
    | .ok part => (part, state.2)

/-- The operations on a part file that was constructed and opened, which saves it. -/
def run (part : PartFile) (file : Bytes) (operations : List Operation) : PartFile × Disk :=
  operations.foldl Operation.apply (part, part.save ⟨file, none⟩)

end amuled.download
