import AmuleD.Intervals.Tiles
import AmuleD.Peer.Reassembly
import AmuleD.Upload.BlockSource

open littleendian tiling

namespace amuled.upload

open amuled.peer

def EMBLOCKSIZE : Nat := 184320

def MAX_REQUEST_BLOCKS : Nat := 3

def SPLIT_THRESHOLD : Nat := 13000

def SPLIT_CHUNK_SIZE : Nat := 10240

/-- What the engine has sent, and the exception that stopped it, if one did. -/
structure Sending where
  packets : List (UInt8 × Bytes)
  raised : Option Exc

namespace Sending

def nothing : Sending := ⟨[], none⟩

def raise (e : Exc) : Sending := ⟨[], some e⟩

/-- One `_send`, of a payload whose builder may raise. -/
def packet (opcode : UInt8) (payload : Except Exc Bytes) : Sending :=
  match payload with
  | .ok payload => ⟨[(opcode, payload)], none⟩
  | .error e => raise e

def andThen (first next : Sending) : Sending :=
  match first.raised with
  | some _ => first
  | none => ⟨first.packets ++ next.packets, next.raised⟩

theorem andThen_of_none {packets : List (UInt8 × Bytes)} (next : Sending) :
    andThen ⟨packets, none⟩ next = ⟨packets ++ next.packets, next.raised⟩ := rfl

end Sending

/-- `BlockSource.read_block` of an open source. -/
def read_block (shared_file : SharedFile) (start length : Nat) : Except Exc Bytes :=
  let stop := start + length
  if stop > shared_file.size then
    .error (.UploadEngineError (s!"block read exceeds file size: start={start}, length={length}, " ++
      s!"end={stop}, file_size={shared_file.size}"))
  else
    let data := shared_file.content.extract start stop
    if data.length < length then
      .error (.UploadEngineError s!"short read: requested={length}, got={data.length}, start={start}")
    else .ok data

def build_sending_part_payload (file_hash : Bytes) (start stop : Nat) (data : Bytes) : Except Exc Bytes :=
  .ok (data_payload 4 4 (file_hash.take 16) (start % 2 ^ 32) (stop % 2 ^ 32) data)

def build_sending_part_i64_payload (file_hash : Bytes) (start stop : Nat) (data : Bytes) :
    Except Exc Bytes :=
  if file_hash.length ≠ 16 then .error (.PeerCodecError "file hash must contain exactly 16 bytes")
  else if start ≥ 2 ^ 64 then .error (.PeerCodecError s!"start out of UInt64 range: {start}")
  else if stop ≥ 2 ^ 64 then .error (.PeerCodecError s!"end out of UInt64 range: {stop}")
  else if start ≥ stop then .error (.PeerCodecError s!"start {start} must be less than end {stop}")
  else if data.length ≠ stop - start then
    .error (.PeerCodecError
      s!"OP_SENDINGPART_I64 data length {data.length} != end-start {stop - start}")
  else .ok (data_payload 8 8 file_hash start stop data)

def build_compressed_part_payload (file_hash : Bytes) (start compressed_size : Nat) (compressed_data : Bytes) :
    Except Exc Bytes := do
  let size ← write_u32 compressed_size
  .ok (file_hash.take 16 ++ (encode 4 (start % 2 ^ 32) ++ (size ++ compressed_data)))

def build_compressed_part_i64_u64_payload (file_hash : Bytes) (start compressed_size : Nat)
    (compressed_data : Bytes) : Except Exc Bytes := do
  let offset ← write_u64 start
  let size ← write_u32 compressed_size
  .ok (file_hash.take 16 ++ (offset ++ (size ++ compressed_data)))

/-- The size of the next sub-packet. -/
def chunk_len (togo : Nat) : Nat := if togo ≤ SPLIT_THRESHOLD then togo else SPLIT_CHUNK_SIZE

theorem chunk_len_pos {togo : Nat} (htogo : togo ≠ 0) : 0 < chunk_len togo := by
  rw [chunk_len, SPLIT_CHUNK_SIZE]
  split <;> omega

theorem chunk_len_le (togo : Nat) : chunk_len togo ≤ togo := by
  rw [chunk_len, SPLIT_THRESHOLD, SPLIT_CHUNK_SIZE]
  split <;> omega

/-- One COMPRESSEDPART, whose opcode follows the end of the block. -/
def send_compressed_chunk (file_hash : Bytes) (start stop total_comp_size : Nat) (chunk : Bytes) : Sending :=
  if stop > 0xFFFFFFFF then
    .packet COMPRESSEDPART_I64 (build_compressed_part_i64_u64_payload file_hash start total_comp_size chunk)
  else .packet COMPRESSEDPART (build_compressed_part_payload file_hash start total_comp_size chunk)

/-- The loop over a compressed block. -/
def send_compressed (file_hash : Bytes) (start stop : Nat) (compressed_data : Bytes) (togo : Nat) : Sending :=
  if _htogo : togo = 0 then .nothing
  else
    let left := togo - chunk_len togo
    let offset := compressed_data.length - left - chunk_len togo
    let chunk := compressed_data.extract offset (offset + chunk_len togo)
    (send_compressed_chunk file_hash start stop compressed_data.length chunk).andThen
      (send_compressed file_hash start stop compressed_data left)
termination_by togo
decreasing_by
  have hpos := chunk_len_pos _htogo
  omega

/-- One SENDINGPART, whose opcode follows its own end. -/
def send_plain_chunk (file_hash : Bytes) (chunk_start chunk_end : Nat) (chunk : Bytes) : Sending :=
  if chunk_end > 0xFFFFFFFF then
    .packet SENDINGPART_I64 (build_sending_part_i64_payload file_hash chunk_start chunk_end chunk)
  else .packet SENDINGPART (build_sending_part_payload file_hash chunk_start chunk_end chunk)

/-- The loop over a block that is sent as it is. -/
def send_plain (file_hash : Bytes) (start stop : Nat) (data : Bytes) (togo : Nat) : Sending :=
  if _htogo : togo = 0 then .nothing
  else
    let left := togo - chunk_len togo
    let chunk_end := stop - left
    let chunk_start := chunk_end - chunk_len togo
    let chunk := data.extract (chunk_start - start) (chunk_end - start)
    (send_plain_chunk file_hash chunk_start chunk_end chunk).andThen
      (send_plain file_hash start stop data left)
termination_by togo
decreasing_by
  have hpos := chunk_len_pos _htogo
  omega

section Engine

variable (zlib : Zlib) (allow_compression : Bool) (shared_file : SharedFile)

def send_block (start stop length : Nat) : Sending :=
  match read_block shared_file start length with
  | .error e => .raise e
  | .ok data =>
    let compressed_data := zlib.compress data
    if allow_compression = true ∧ 0 < data.length ∧ compressed_data.length < data.length then
      send_compressed shared_file.file_hash start stop compressed_data compressed_data.length
    else send_plain shared_file.file_hash start stop data length

/-- The end of the block that a requested range makes, or none where nothing is sent. -/
def block_end (file_size start stop : Nat) : Option Nat :=
  if start ≥ stop then none
  else
    let stop := if stop > file_size then file_size else stop
    if start ≥ stop then none
    else if stop - start > EMBLOCKSIZE * MAX_REQUEST_BLOCKS then
      some (start + EMBLOCKSIZE * MAX_REQUEST_BLOCKS)
    else some stop

/-- The loop over the ranges of a request. -/
def send_ranges : List (Nat × Nat) → Sending
  | [] => .nothing
  | (start, stop) :: ranges =>
    match block_end shared_file.size start stop with
    | none => send_ranges ranges
    | some stop =>
      (send_block zlib allow_compression shared_file start stop (stop - start)).andThen (send_ranges ranges)

/-- The ranges of a request that are not the padding `(0, 0)`. -/
def used_ranges (slots : List (Nat × Nat)) : List (Nat × Nat) := slots.filter fun slot => slot ≠ (0, 0)

/-- The parser of the engine itself, for payloads that the codec refuses. -/
def fallback_request_parts (width : Nat) (payload : Bytes) : Except Exc (Bytes × List (Nat × Nat)) := do
  let expected := 16 + 6 * width
  if payload.length < expected then
    .error (.PeerCodecError s!"malformed request payload: need {expected} bytes, got {payload.length}")
  else do
    let value := fun index => decode (payload.extract (16 + index * width) (16 + (index + 1) * width))
    let ranges := used_ranges [(value 0, value 3), (value 1, value 4), (value 2, value 5)]
    check_slots ranges
    .ok (payload.take 16, ranges)

def parse_request_parts_internal (payload : Bytes) (is_i64 : Bool) :
    Except Exc (Bytes × List (Nat × Nat)) :=
  let parsed := if is_i64 then parse_request_parts_i64 payload else parse_request_parts payload
  match parsed with
  | .ok request => .ok (request.file_hash, used_ranges request.slots)
  | .error _ => fallback_request_parts (offset_width is_i64) payload

/-- `_handle_request_parts`, which logs the errors of the parser. -/
def handle_request_parts (payload : Bytes) (is_i64 : Bool) : Sending :=
  match parse_request_parts_internal payload is_i64 with
  | .error _ => .nothing
  | .ok (_, ranges) => send_ranges zlib allow_compression shared_file ranges

end Engine

end amuled.upload
