import AmuleD.Download.Ics.Select
import AmuleD.Download.Queue
import AmuleD.Leases

open intervals

namespace amuled.download.ics

/-- The order in which a set of ranges is iterated, which the language leaves open. -/
structure SetOrder where
  list : Finset Range → List Range
  mem_list : ∀ ranges range, range ∈ list ranges ↔ range ∈ ranges
  nodup : ∀ ranges, (list ranges).Nodup

/-- What a connected peer has told about the file: whether it is in its `complete_sources`, and its
`part_status`. -/
structure Source where
  complete : Bool
  part_status : Option (List Nat)

/-- What a call of the selector finds besides the registry: all connected peers, its own one, the order of the
registered set and the random choices. -/
structure Peers where
  clients : List Source
  client : Source
  order : SetOrder
  ties : Nat → Nat

/-- The download that the sessions share. -/
structure Target where
  file_hash : String
  file_hash_bytes : Bytes
  size : Int
  download_bytes_per_sec : Int

/-- A peer session: the variables of its selector, and those of `PeerClient.transfer` that decide when it calls
the selector and what it gives back. -/
structure Session where
  last_part_box : Option Nat
  own_issued : Finset Range
  issued_ranges : List Range
  received : Nat
  blocks : Nat
  outofpart_retries : Nat
  expected_bytes : Int

def Session.new : Session := ⟨none, ∅, [], 0, 0, 0, 0⟩

/-- The queue, the field `_requested_ranges` of `DownloadRunner` and the live sessions of one download. -/
structure Swarm where
  queue : DownloadQueue
  requested_ranges : Dict Bytes (Finset Range)
  sessions : Dict Nat Session

/-- A packet in the receive loop of `transfer`, with the block of a completed part. -/
inductive Packet where
  | part (start : Int) (data : Bytes)
  | end_of_download
  | out_of_part_reqs
  | other

/-- `max_blocks`. -/
def MAX_BLOCKS : Nat := 100000

def _OUTOFPART_MAX_RETRIES : Nat := 5

/-- `_register_ranges`. -/
def register_ranges (requested_ranges : Dict Bytes (Finset Range)) (file_hash : Bytes) (ranges : List Range) :
    Dict Bytes (Finset Range) :=
  let bucket := (requested_ranges.get file_hash).getD ∅
  requested_ranges.set file_hash (ranges.foldl (fun bucket range => insert range bucket) bucket)

/-- `_release_ranges`. -/
def release_ranges (requested_ranges : Dict Bytes (Finset Range)) (file_hash : Bytes) (ranges : List Range) :
    Dict Bytes (Finset Range) :=
  match requested_ranges.get file_hash with
  | none => requested_ranges
  | some bucket =>
    let bucket := ranges.foldl Finset.erase bucket
    if bucket = ∅ then requested_ranges.erase file_hash else requested_ranges.set file_hash bucket

/-- The parts that a peer is counted for in `_part_frequencies`. -/
def Source.parts (source : Source) (n : Nat) : List Nat :=
  if source.complete then List.range n else source.part_status.getD (List.range n)

/-- `_part_frequencies`. -/
def part_frequencies (clients : List Source) (total_size : Int) : List Int :=
  let n := part_count total_size
  (List.range n).map fun i => ((clients.filter fun client => i ∈ client.parts n).length : Int)

/-- The variable `available` of the selector. -/
def Source.available (source : Source) (size : Int) : List Nat :=
  let all := List.range (part_count size)
  if source.complete then all
  else if source.part_status.getD [] = [] then all else source.part_status.getD []

/-- The variable `downloading` of the selector: for each part the ranges of other sessions that reach into it. -/
def downloading_counts (requested : List Range) (own_issued : Finset Range) : Dict Nat Int :=
  (requested.filter fun range => range ∉ own_issued).foldl (fun downloading range =>
    let p_lo := range.1 / PART_SIZE
    let p_hi := range.2 / PART_SIZE
    (List.range' p_lo.toNat (p_hi + 1 - p_lo).toNat).foldl (fun downloading p =>
      downloading.set p ((downloading.get p).getD 0 + 1)) downloading) Dict.empty

/-- The gaps of the queue with inclusive ends. -/
def inclusive_gaps (raw_gaps : List (Int × Int)) : List Range :=
  (raw_gaps.filter fun gap => gap.2 > gap.1).map fun gap => (gap.1, gap.2 - 1)

namespace Swarm

variable (target : Target) (swarm : Swarm)

/-- The bucket of the file, empty where it has none. -/
def bucket : Finset Range := (swarm.requested_ranges.get target.file_hash_bytes).getD ∅

/-- `_selector`. -/
def selector (session : Session) (peers : Peers) (n : Nat) :
    Except Exc (List Range × Dict Bytes (Finset Range) × Session) := do
  let raw_gaps ← swarm.queue.gap_ranges target.file_hash
  let requested := peers.order.list (swarm.bucket target)
  let catalog : Catalog := ⟨target.size, inclusive_gaps raw_gaps, peers.client.available target.size,
    part_frequencies peers.clients target.size, downloading_counts requested session.own_issued, peers.ties⟩
  let (ranges, last_new) := catalog.select_blocks session.last_part_box requested n
  if ranges = [] then .ok ([], swarm.requested_ranges, session)
  else .ok (ranges, register_ranges swarm.requested_ranges target.file_hash_bytes ranges,
    { session with
      own_issued := ranges.foldl (fun own_issued range => insert range own_issued) session.own_issued
      last_part_box := last_new })

/-- What a call of the selector hands to `select_blocks`. -/
def catalog (session : Session) (peers : Peers) (raw_gaps : List (Int × Int)) : Catalog where
  total_size := target.size
  gaps := inclusive_gaps raw_gaps
  available := peers.client.available target.size
  frequencies := part_frequencies peers.clients target.size
  downloading_counts := downloading_counts (peers.order.list (swarm.bucket target)) session.own_issued
  ties := peers.ties

/-- The ranges that a call of the selector finds. -/
def selected (session : Session) (peers : Peers) (raw_gaps : List (Int × Int)) (n : Nat) : List Range :=
  ((swarm.catalog target session peers raw_gaps).select_blocks session.last_part_box
    (peers.order.list (swarm.bucket target)) n).1

/-- The `finally` of `transfer`, on every way out of it: the ranges the session issued are released, and the
session is gone. -/
def close (id : Nat) : Swarm :=
  match swarm.sessions.get id with
  | none => swarm
  | some session =>
    { swarm with
      requested_ranges :=
        if session.issued_ranges = [] then swarm.requested_ranges
        else release_ranges swarm.requested_ranges target.file_hash_bytes session.issued_ranges
      sessions := swarm.sessions.erase id }

/-- The bytes that a round asks for, with its ranges cut to the file. -/
def round_bytes (ranges : List Range) : Int :=
  (ranges.map fun (rstart, rend) => max 0 (min rend (target.size - 1) + 1 - max rstart 0)).sum

/-- The head of the outer loop of `transfer`: it ends, or selects the ranges of the next round. -/
def begin_round (id : Nat) (session : Session) (peers : Peers) : Swarm :=
  if session.blocks ≥ MAX_BLOCKS ∨ session.received ≥ target.size then swarm.close target id
  else
    match swarm.selector target session peers 3 with
    | .error _ => swarm.close target id
    | .ok ([], _, _) => swarm.close target id
    | .ok (raw_ranges, requested_ranges, session) =>
      { swarm with
        requested_ranges := requested_ranges
        sessions := swarm.sessions.set id { session with
          issued_ranges := session.issued_ranges ++ raw_ranges.take 3
          expected_bytes := round_bytes target (raw_ranges.take 3) } }

/-- The round that a session begins which has bytes and blocks left. -/
def select_round (id : Nat) (session : Session) (peers : Peers) : Swarm :=
  match swarm.selector target session peers 3 with
  | .error _ => swarm.close target id
  | .ok ([], _, _) => swarm.close target id
  | .ok (raw_ranges, requested_ranges, session) =>
    { swarm with
      requested_ranges := requested_ranges
      sessions := swarm.sessions.set id { session with
        issued_ranges := session.issued_ranges ++ raw_ranges.take 3
        expected_bytes := round_bytes target (raw_ranges.take 3) } }

/-- The head of the outer loop for any `max_blocks`. -/
def begin_round_within (max_blocks id : Nat) (session : Session) (peers : Peers) : Swarm :=
  if session.blocks ≥ max_blocks ∨ session.received ≥ target.size then swarm.close target id
  else swarm.select_round target id session peers

theorem begin_round_eq (id : Nat) (session : Session) (peers : Peers) :
    swarm.begin_round target id session peers = swarm.begin_round_within target MAX_BLOCKS id session peers := rfl

/-- The body of the receive loop. With a rate limit the block is left to a detached write. -/
def on_packet (id : Nat) (session : Session) : Packet → Swarm
  | .part start data =>
    let next := { swarm with sessions := swarm.sessions.set id { session with
      received := session.received + data.length
      blocks := session.blocks + 1
      expected_bytes := session.expected_bytes - data.length } }
    if target.download_bytes_per_sec > 0 then next
    else
      match swarm.queue.record_block target.file_hash start data with
      | .error _ => swarm.close target id
      | .ok queue => { next with queue := queue }
  | .end_of_download => { swarm with sessions := swarm.sessions.set id { session with expected_bytes := 0 } }
  | .out_of_part_reqs =>
    if session.outofpart_retries + 1 > _OUTOFPART_MAX_RETRIES then swarm.close target id
    else
      { swarm with sessions := swarm.sessions.set id { session with
        outofpart_retries := session.outofpart_retries + 1
        expected_bytes := 0 } }
  | .other => swarm

end Swarm

/-- What can happen next: a peer joins, a session comes to the head of its loop or receives a packet, it ends for
another reason (a timeout, a rank, a lost connection, a cancellation), or a block of the file is written that no
session waits for: a detached write, or the block of a session without selector. -/
inductive Event where
  | join (id : Nat)
  | round (id : Nat) (peers : Peers)
  | packet (id : Nat) (packet : Packet)
  | stop (id : Nat)
  | write (start : Int) (data : Bytes)

namespace Swarm

variable (target : Target)

def step (swarm : Swarm) : Event → Swarm
  | .join id =>
    match swarm.sessions.get id with
    | some _ => swarm
    | none => { swarm with sessions := swarm.sessions.set id .new }
  | .round id peers =>
    match swarm.sessions.get id with
    | none => swarm
    | some session => if session.expected_bytes > 0 then swarm else swarm.begin_round target id session peers
  | .packet id packet =>
    match swarm.sessions.get id with
    | none => swarm
    | some session => if session.expected_bytes > 0 then swarm.on_packet target id session packet else swarm
  | .stop id => swarm.close target id
  | .write start data =>
    match swarm.queue.record_block target.file_hash start data with
    | .error _ => swarm
    | .ok queue => { swarm with queue := queue }

def run (swarm : Swarm) (events : List Event) : Swarm := events.foldl (step target) swarm

/-- Before any session of the file: whatever the queue is and other files have in flight. -/
def idle (queue : DownloadQueue) (others : Dict Bytes (Finset Range)) : Swarm :=
  ⟨queue, others.erase target.file_hash_bytes, Dict.empty⟩

end Swarm

end amuled.download.ics
