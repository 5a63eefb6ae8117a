import AmuleD.Codec.Binary
import AmuleD.Codec.Packet

open littleendian cursor

namespace amuled.peer

def SENDINGPART : UInt8 := 0x46

def SENDINGPART_I64 : UInt8 := 0xA2

def COMPRESSEDPART : UInt8 := 0x40

def COMPRESSEDPART_I64 : UInt8 := 0xA1

def REQUESTPARTS : UInt8 := 0x47

def REQUESTPARTS_I64 : UInt8 := 0xA3

def END_OF_DOWNLOAD : UInt8 := 0x49

/-- A part of a file, which covers the range from `start` up to `stop`. -/
structure SendingPart where
  file_hash : Bytes
  start : Nat
  stop : Nat
  data : Bytes

/-- What `write_block` is given of a part. -/
def written (part : SendingPart) : Nat × Bytes := (part.start, part.data)

/-- The `except CodecError` of a parser. -/
def malformed {α : Type} (label : String) (parsed : Except Exc (α × BinaryReader)) :
    Except Exc (α × BinaryReader) :=
  match parsed with
  | .error (.CodecError e) => .error (.PeerCodecError s!"malformed {label}: {e}")
  | other => other

/-- The fields of a data packet: a hash, two integers and all the bytes that follow. -/
def read_data_packet (first second : Nat) : BinaryRead (Bytes × Nat × Nat × Bytes) := do
  let file_hash ← read_hash16
  let start ← read_uint first
  let second ← read_uint second
  let data ← read_bytes_remaining
  pure (file_hash, start, second, data)

/-- A plain part, with offsets of some width. -/
def parse_sending (opcode_name : String) (width : Nat) (payload : Bytes) : Except Exc SendingPart := do
  let ((file_hash, start, stop, data), _) ←
    malformed opcode_name (read_data_packet width width ⟨payload, 0⟩)
  if (data.length : Int) ≠ stop - start then
    .error (.PeerCodecError
      s!"{opcode_name} data length {data.length} != end-start {(stop : Int) - start}")
  else .ok ⟨file_hash, start, stop, data⟩

def parse_sending_part (payload : Bytes) : Except Exc SendingPart :=
  parse_sending "OP_SENDINGPART" 4 payload

def parse_sending_part_i64 (payload : Bytes) : Except Exc SendingPart :=
  parse_sending "OP_SENDINGPART_I64" 8 payload

/-- One chunk of a compressed part: the hash, the start of the block, the compressed size of
the whole block, and the chunk. -/
def parse_chunk (opcode_name : String) (width : Nat) (payload : Bytes) :
    Except Exc (Bytes × Nat × Nat × Bytes) := do
  let ((file_hash, start, total_size, chunk), _) ←
    malformed s!"{opcode_name} chunk" (read_data_packet width 4 ⟨payload, 0⟩)
  if chunk = [] then .error (.PeerCodecError s!"{opcode_name} chunk is empty")
  else .ok (file_hash, start, total_size, chunk)

def parse_compressed_part_chunk (payload : Bytes) : Except Exc (Bytes × Nat × Nat × Bytes) :=
  parse_chunk "OP_COMPRESSEDPART" 4 payload

def parse_compressed_part_chunk_i64 (payload : Bytes) : Except Exc (Bytes × Nat × Nat × Bytes) :=
  parse_chunk "OP_COMPRESSEDPART_I64" 8 payload

/-- The payload of a data packet with fields that fit. -/
def data_payload (first second : Nat) (file_hash : Bytes) (start field : Nat) (data : Bytes) : Bytes :=
  file_hash ++ (encode first start ++ (encode second field ++ data))

theorem read_data_packet_payload {first second : Nat} {file_hash : Bytes} {start field : Nat}
    (hhash : file_hash.length = 16) (hstart : start < 256 ^ first) (hfield : field < 256 ^ second)
    (data : Bytes) : ∃ reader, read_data_packet first second
      ⟨data_payload first second file_hash start field data, 0⟩ = .ok ((file_hash, start, field, data), reader) := by
  have hfirst : Reads read_hash16 file_hash file_hash := reads_bytes_of_length hhash
  have hsecond : Reads (read_uint first) (encode first start) start := reads_uint hstart
  have hthird : Reads (read_uint second) (encode second field) field := reads_uint hfield
  have hall : ReadsAll (read_data_packet first second) (data_payload first second file_hash start field data)
      (file_hash, start, field, data) :=
    hfirst.bind_all (hsecond.bind_all (hthird.bind_all (readsAll_bytes_remaining data).bind_pure))
  exact ⟨_, hall.run⟩

/-- The payload of a plain part is read back. -/
theorem parse_sending_payload {width : Nat} {file_hash : Bytes} {start : Nat} {data : Bytes}
    (hhash : file_hash.length = 16) (hstop : start + data.length < 256 ^ width) (opcode_name : String) :
    parse_sending opcode_name width (data_payload width width file_hash start (start + data.length) data) =
      .ok ⟨file_hash, start, start + data.length, data⟩ := by
  obtain ⟨reader, hread⟩ := read_data_packet_payload hhash (by omega : start < 256 ^ width) hstop data
  simp only [parse_sending, hread, malformed, ok_bind]
  rw [if_neg (by push_cast; omega)]

/-- The payload of a chunk is read back. -/
theorem parse_chunk_payload {width : Nat} {file_hash : Bytes} {start total_size : Nat} {chunk : Bytes}
    (hhash : file_hash.length = 16) (hstart : start < 256 ^ width) (htotal : total_size < 256 ^ 4)
    (hchunk : chunk ≠ []) (opcode_name : String) :
    parse_chunk opcode_name width (data_payload width 4 file_hash start total_size chunk) =
      .ok (file_hash, start, total_size, chunk) := by
  obtain ⟨reader, hread⟩ := read_data_packet_payload hhash hstart htotal chunk
  simp only [parse_chunk, hread, malformed, ok_bind, if_neg hchunk]

/-- The three ranges of a request, where unused ones are `(0, 0)`. -/
structure RequestParts where
  file_hash : Bytes
  starts : Nat × Nat × Nat
  ends : Nat × Nat × Nat

namespace RequestParts

/-- `zip(starts, ends)`. -/
def slots (request : RequestParts) : List (Nat × Nat) :=
  [(request.starts.1, request.ends.1), (request.starts.2.1, request.ends.2.1),
    (request.starts.2.2, request.ends.2.2)]

def values (offsets : Nat × Nat × Nat) : List Nat := [offsets.1, offsets.2.1, offsets.2.2]

end RequestParts

/-- The check of each range that the builders and the parsers share. -/
def check_slots (slots : List (Nat × Nat)) : Except Exc Unit :=
  match slots.find? fun slot => slot.1 > slot.2 with
  | some slot => .error (.PeerCodecError s!"start {slot.1} must not exceed end {slot.2}")
  | none => .ok ()

def check_offsets (name : String) (width : Nat) (offsets : Nat × Nat × Nat) : Except Exc Unit :=
  match (RequestParts.values offsets).find? fun value => value ≥ 256 ^ width with
  | some value => .error (.PeerCodecError s!"{name} offset out of UInt{8 * width} range: {value}")
  | none => .ok ()

/-- The three offsets one after the other. -/
def offset_bytes (width : Nat) (offsets : Nat × Nat × Nat) : Bytes :=
  encode width offsets.1 ++ (encode width offsets.2.1 ++ encode width offsets.2.2)

/-- The payload of a request with offsets that fit. -/
def request_payload (width : Nat) (request : RequestParts) : Bytes :=
  request.file_hash ++ (offset_bytes width request.starts ++ offset_bytes width request.ends)

def build_request (width : Nat) (request : RequestParts) : Except Exc Bytes := do
  if request.file_hash.length ≠ 16 then
    .error (.PeerCodecError "file hash must contain exactly 16 bytes")
  else do
    check_slots request.slots
    check_offsets "start" width request.starts
    check_offsets "end" width request.ends
    .ok (request_payload width request)

def build_request_parts_payload (request : RequestParts) : Except Exc Bytes := build_request 4 request

def build_request_parts_i64_payload (request : RequestParts) : Except Exc Bytes := build_request 8 request

def read_offsets (width : Nat) : BinaryRead (Nat × Nat × Nat) := do
  let first ← read_uint width
  let second ← read_uint width
  let third ← read_uint width
  pure (first, second, third)

def read_request (width : Nat) : BinaryRead RequestParts := do
  let file_hash ← read_hash16
  let starts ← read_offsets width
  let ends ← read_offsets width
  pure ⟨file_hash, starts, ends⟩

def parse_request (opcode_name : String) (width : Nat) (payload : Bytes) : Except Exc RequestParts := do
  let (request, reader) ← malformed opcode_name (read_request width ⟨payload, 0⟩)
  if reader.remaining ≠ 0 then
    .error (.PeerCodecError s!"{opcode_name} has {reader.remaining} trailing bytes")
  else do
    check_slots request.slots
    .ok request

def parse_request_parts (payload : Bytes) : Except Exc RequestParts :=
  parse_request "OP_REQUESTPARTS" 4 payload

def parse_request_parts_i64 (payload : Bytes) : Except Exc RequestParts :=
  parse_request "OP_REQUESTPARTS_I64" 8 payload

theorem reads_offsets {width : Nat} {offsets : Nat × Nat × Nat}
    (hfits : ∀ value ∈ RequestParts.values offsets, value < 256 ^ width) :
    Reads (read_offsets width) (offset_bytes width offsets) offsets := by
  have hread : ∀ value ∈ RequestParts.values offsets, Reads (read_uint width) (encode width value) value :=
    fun value hvalue => reads_uint (hfits value hvalue)
  have hfirst := hread offsets.1 (by simp [RequestParts.values])
  have hsecond := hread offsets.2.1 (by simp [RequestParts.values])
  have hthird := hread offsets.2.2 (by simp [RequestParts.values])
  exact hfirst.bind (hsecond.bind hthird.bind_pure)

theorem check_slots_ok {slots : List (Nat × Nat)} (hslots : ∀ slot ∈ slots, slot.1 ≤ slot.2) :
    check_slots slots = .ok () := by
  have hnone : (slots.find? fun slot => slot.1 > slot.2) = none := by
    rw [List.find?_eq_none]
    intro slot hslot
    have hle := hslots slot hslot
    simp only [decide_eq_true_eq]
    omega
  rw [check_slots, hnone]

theorem check_offsets_ok {width : Nat} {offsets : Nat × Nat × Nat} (name : String)
    (hfits : ∀ value ∈ RequestParts.values offsets, value < 256 ^ width) :
    check_offsets name width offsets = .ok () := by
  have hnone : ((RequestParts.values offsets).find? fun value => value ≥ 256 ^ width) = none := by
    rw [List.find?_eq_none]
    intro value hvalue
    have hlt := hfits value hvalue
    simp only [decide_eq_true_eq]
    omega
  rw [check_offsets, hnone]

/-- A request whose ranges are in order and fit their width. -/
structure RequestParts.Fits (request : RequestParts) (width : Nat) : Prop where
  hash : request.file_hash.length = 16
  ordered : ∀ slot ∈ request.slots, slot.1 ≤ slot.2
  ends : ∀ slot ∈ request.slots, slot.2 < 256 ^ width

theorem RequestParts.Fits.offsets {request : RequestParts} {width : Nat} (hfits : request.Fits width) :
    (∀ value ∈ RequestParts.values request.starts, value < 256 ^ width) ∧
      ∀ value ∈ RequestParts.values request.ends, value < 256 ^ width := by
  have hordered := hfits.ordered
  have hends := hfits.ends
  simp only [RequestParts.slots, RequestParts.values, List.mem_cons, List.not_mem_nil, or_false,
    forall_eq_or_imp, forall_eq] at hordered hends ⊢
  obtain ⟨h1, h2, h3⟩ := hordered
  obtain ⟨e1, e2, e3⟩ := hends
  exact ⟨⟨Nat.lt_of_le_of_lt h1 e1, Nat.lt_of_le_of_lt h2 e2, Nat.lt_of_le_of_lt h3 e3⟩, e1, e2, e3⟩

/-- A request that fits is built, and parsed to itself. -/
theorem parse_request_built {request : RequestParts} {width : Nat} (hfits : request.Fits width)
    (opcode_name : String) : build_request width request = .ok (request_payload width request) ∧
      parse_request opcode_name width (request_payload width request) = .ok request := by
  obtain ⟨hstarts, hends⟩ := hfits.offsets
  have hhash : Reads read_hash16 request.file_hash request.file_hash := reads_bytes_of_length hfits.hash
  have hread : Reads (read_request width) (request_payload width request) request :=
    hhash.bind ((reads_offsets hstarts).bind (reads_offsets hends).bind_pure)
  have hrun := hread.run []
  rw [List.append_nil] at hrun
  refine ⟨?_, ?_⟩
  · rw [build_request, if_neg (not_not.mpr hfits.hash), check_slots_ok hfits.ordered, ok_bind,
      check_offsets_ok "start" hstarts, ok_bind, check_offsets_ok "end" hends, ok_bind]
  · simp only [parse_request, hrun, malformed, ok_bind]
    rw [if_neg (by simp [Cursor.remaining]), check_slots_ok hfits.ordered, ok_bind]

end amuled.peer
