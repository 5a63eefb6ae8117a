import AmuleD.Peer.Reassembly
import AmuleD.Peer.SourceExchange

namespace amuled.peer

def OUTOFPARTREQS : UInt8 := 0x57

def QUEUERANK : UInt8 := 0x5C

def ANSWERSOURCES : UInt8 := 0x82

def ANSWERSOURCES2 : UInt8 := 0x84

def EMBLOCK_SIZE : Nat := 184320

def OUTOFPART_MAX_RETRIES : Nat := 5

def parse_queue_rank (payload : Bytes) : Except Exc Nat := do
  let (rank, reader) ← malformed "OP_QUEUERANK" (read_u32 ⟨payload, 0⟩)
  if reader.remaining ≠ 0 then
    .error (.PeerCodecError s!"OP_QUEUERANK has {reader.remaining} trailing bytes")
  else .ok rank

/-- `_collect_answer_sources`: the sources of an answer, if the packet is one. The parser of
the older answers is called without the version that it needs. -/
def collect_answer_sources (packet : Packet) : Except Exc (List SXSource) :=
  if packet.protocol ≠ EMULE then .ok []
  else if packet.opcode = ANSWERSOURCES2 then do
    let (_, _, entries) ← parse_answer_sources2 packet.payload
    .ok entries
  else if packet.opcode = ANSWERSOURCES then .error .TypeError
  else .ok []

/-- The arguments of `PeerClient.transfer` without a block selector. -/
structure TransferArgs where
  file_hash : Bytes
  total_size : Nat
  max_blocks : Nat := 100000
  start_offset : Nat := 0
  end_offset : Option Nat := none

def TransferArgs.bound (args : TransferArgs) : Nat := args.end_offset.getD args.total_size

structure DownloadOutcome where
  file_hash : String
  bytes_received : Nat
  blocks_received : Nat
  complete : Bool
  detail : String

/-- The variables of a transfer, the requests that it sent and the parts whose data it passed
to `write_block`. -/
structure Transfer where
  received : Nat
  blocks : Nat
  pending_compressed : Pending
  outofpart_retries : Nat
  expected_bytes : Int
  requests : List (UInt8 × Bytes)
  parts : List SendingPart

/-- A transfer waits for a packet, has returned, or was left by an exception. -/
inductive Progress where
  | waiting (transfer : Transfer)
  | finished (outcome : DownloadOutcome) (transfer : Transfer)
  | raised (e : Exc) (transfer : Transfer)

def Progress.transfer : Progress → Transfer
  | waiting transfer => transfer
  | finished _ transfer => transfer
  | raised _ transfer => transfer

/-- What `_receive` makes of the connection: a packet, nothing before the timeout, or an
exception. -/
inductive Arrival where
  | packet (packet : Packet)
  | idle
  | failed (e : Exc)

/-- The ranges of the linear fallback, before the padding. -/
def linear_ranges (first bound : Nat) : List (Nat × Nat) :=
  ([first, first + EMBLOCK_SIZE, first + 2 * EMBLOCK_SIZE].takeWhile fun offset => offset < bound).map
    fun offset => (offset, min (offset + EMBLOCK_SIZE) bound)

/-- A request for up to three ranges. -/
def padded_request (file_hash : Bytes) (ranges : List (Nat × Nat)) : RequestParts :=
  let slot := fun index => ranges.getD index (0, 0)
  ⟨file_hash, ((slot 0).1, (slot 1).1, (slot 2).1), ((slot 0).2, (slot 1).2, (slot 2).2)⟩

/-- The packet of a request, wide where one of its values needs it. -/
def request_packet (request : RequestParts) : Except Exc (UInt8 × Bytes) :=
  if (RequestParts.values request.starts ++ RequestParts.values request.ends).any fun value => value > 0xFFFFFFFF
  then do
    let payload ← build_request_parts_i64_payload request
    .ok (REQUESTPARTS_I64, payload)
  else do
    let payload ← build_request_parts_payload request
    .ok (REQUESTPARTS, payload)

/-- The bytes that a request asks for. -/
def requested_bytes (request : RequestParts) : Nat :=
  (request.slots.map fun slot => if slot.1 < slot.2 then slot.2 - slot.1 else 0).sum

section Transfer

variable (decompress : Bytes → Except String Bytes) (args : TransferArgs)

/-- The outcome of each return. -/
def download_outcome (transfer : Transfer) (detail : String) : DownloadOutcome where
  file_hash := (hex_lower args.file_hash).toUpper
  bytes_received := transfer.received
  blocks_received := transfer.blocks
  complete := args.start_offset + transfer.received ≥ args.bound
  detail := detail

/-- The head of the outer loop, up to the request of the round. -/
def begin_round (transfer : Transfer) : Progress :=
  let first := args.start_offset + transfer.received
  if transfer.blocks < args.max_blocks ∧ first < args.bound then
    let request := padded_request args.file_hash (linear_ranges first args.bound)
    match request_packet request with
    | .error e => .raised e transfer
    | .ok packet =>
      .waiting { transfer with
        expected_bytes := requested_bytes request
        requests := transfer.requests ++ [packet] }
  else .finished (download_outcome args transfer "transfer finished") transfer

/-- The transfer up to its first request. -/
def begin_transfer : Progress := begin_round args ⟨0, 0, .empty, 0, 0, [], []⟩

/-- `write_block` and the counters. The round ends where every requested byte has arrived. -/
def write_part (transfer : Transfer) (part : SendingPart) : Progress :=
  let transfer := { transfer with
    received := transfer.received + part.data.length
    blocks := transfer.blocks + 1
    expected_bytes := transfer.expected_bytes - part.data.length
    parts := transfer.parts ++ [part] }
  if transfer.expected_bytes > 0 then .waiting transfer else begin_round args transfer

/-- A data packet, which makes a part or adds to one. -/
def on_data (transfer : Transfer) (packet : Packet) : Progress :=
  match read_part decompress transfer.pending_compressed packet.opcode packet.payload with
  | .error e => .raised e transfer
  | .ok (none, pending) => .waiting { transfer with pending_compressed := pending }
  | .ok (some part, pending) => write_part args { transfer with pending_compressed := pending } part

/-- The packet that starts the round again, a number of times. -/
def on_out_of_part_reqs (transfer : Transfer) : Progress :=
  let transfer := { transfer with outofpart_retries := transfer.outofpart_retries + 1 }
  if transfer.outofpart_retries > OUTOFPART_MAX_RETRIES then
    .finished (download_outcome args transfer "peer has no more parts") transfer
  else begin_round args { transfer with expected_bytes := 0 }

def on_queue_rank (transfer : Transfer) (payload : Bytes) : Progress :=
  match parse_queue_rank payload with
  | .error e => .raised e transfer
  | .ok _ => .finished (download_outcome args transfer "moved back to queue") transfer

def on_other (transfer : Transfer) (packet : Packet) : Progress :=
  match collect_answer_sources packet with
  | .error e => .raised e transfer
  | .ok _ => .waiting transfer

/-- The body of the receive loop. -/
def on_packet (transfer : Transfer) (packet : Packet) : Progress :=
  if packet.protocol ≠ EDONKEY ∧ packet.protocol ≠ EMULE then .waiting transfer
  else if IsData packet.opcode then on_data decompress args transfer packet
  else if packet.opcode = END_OF_DOWNLOAD then begin_round args { transfer with expected_bytes := 0 }
  else if packet.opcode = OUTOFPARTREQS then on_out_of_part_reqs args transfer
  else if packet.opcode = QUEUERANK then on_queue_rank args transfer packet.payload
  else on_other transfer packet

/-- One receive of a transfer that still waits. -/
def on_arrival (progress : Progress) (arrival : Arrival) : Progress :=
  match progress, arrival with
  | .waiting transfer, .packet packet => on_packet decompress args transfer packet
  | .waiting transfer, .idle =>
    .finished (download_outcome args transfer "idle timeout while transferring") transfer
  | .waiting transfer, .failed e => .raised e transfer
  | done, _ => done

/-- A transfer after some receives. -/
def transfer_run (progress : Progress) (arrivals : List Arrival) : Progress :=
  arrivals.foldl (on_arrival decompress args) progress

theorem transfer_run_append (progress : Progress) (front back : List Arrival) :
    transfer_run decompress args progress (front ++ back) =
      transfer_run decompress args (transfer_run decompress args progress front) back := List.foldl_append

end Transfer

end amuled.peer
