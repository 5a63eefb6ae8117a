import AmuleD.Download.Queue
import AmuleD.Download.VerifyParts
import AmuleD.Peer.LinearRequests

namespace amuled.download

open peer (HashSetAnswer requested_bytes padded_request linear_ranges round_size requested_bytes_linear)

/-- The variables of `PeerClient.transfer` that steer it. What the choice of ranges keeps between two rounds is
left open. -/
structure Loop (σ : Type) where
  chosen : σ
  received : Nat
  blocks : Nat
  outofpart_retries : Nat
  expected_bytes : Int

/-- What an attempt is given. `select` chooses the ranges of a round, from the queue, the first byte that was not
received and what it has kept, and says how many bytes they have: the linear fallback, which asks for the same
ranges whatever the queue holds, or the selector of the runner. `narrow` stands for `_aich_narrow_corrupt`, which
reads the part file. -/
structure AttemptConfig (σ : Type) where
  queue_config : QueueConfig
  file_hash : String
  size : Nat
  start_offset : Nat
  end_offset : Option Nat
  download_bytes_per_sec : Int
  hashset : Option HashSetAnswer
  select : DownloadQueue → Nat → σ → Except Exc (Option (σ × { expected : Int // 0 < expected }))
  narrow : Option Bytes → List (Nat × Nat) → List (Nat × Nat)

/-- Where an attempt is: in its transfer, waiting for the narrowed ranges of corrupt parts, or at its end. -/
inductive Stage (σ : Type) where
  | transferring (loop : Loop σ)
  | narrowing (corrupt : List (Nat × Nat))
  | over

/-- An attempt at a peer, with the queue, the detached writes that wait at the gate, and what has become of the
blocks: those passed to `write_block`, those recorded, those whose write failed and those that were recorded
after the entry was finalized. -/
structure Attempt (σ : Type) where
  queue : DownloadQueue
  waiting : List (Int × Bytes)
  stage : Stage σ
  verdict : Option (List (Nat × Nat))
  punched : Option (List (Nat × Nat))
  finalized : Bool
  passed : List (Int × Bytes)
  recorded : List (Int × Bytes)
  reported : List (Int × Bytes)
  late : List (Int × Bytes)

/-- What the receive loop of `transfer` hears: the block of a completed part, the packets that end a round or the
transfer, one that it skips, nothing before the timeout, or an exception. -/
inductive Heard where
  | part (start : Int) (data : Bytes)
  | end_of_download
  | out_of_part_reqs
  | queue_rank
  | skipped
  | idle
  | failed

/-- What a packet makes of the transfer: it waits on, comes to the head of a round, returns or is left by an
exception. -/
inductive Taken (σ : Type) where
  | waits (loop : Loop σ)
  | turns (loop : Loop σ)
  | returns (loop : Loop σ)
  | raises

/-- What happens next: the peer is heard, the first waiting write gets through the gate, the answers for the
narrowing are there, or `run` finalizes the entry. -/
inductive AttemptEvent where
  | heard (heard : Heard)
  | detached
  | narrowed
  | finalize (verify : Bool) (free : Nat)

/-- `max_blocks`. -/
def MAX_BLOCKS : Nat := 100000

def OUTOFPART_MAX_RETRIES : Nat := 5

/-- The data file of an entry, if it can be opened. -/
def DownloadQueue.part_file (queue : DownloadQueue) (file_hash : String) : Option Bytes :=
  match normalize_hash file_hash with
  | .error _ => none
  | .ok hash => (queue.rows.get hash).bind fun row => queue.files.get row.part_path

namespace AttemptConfig

variable {σ : Type} (config : AttemptConfig σ)

def bound : Nat := config.end_offset.getD config.size

/-- The attempt without a rate limit. -/
def unlimited : AttemptConfig σ := { config with download_bytes_per_sec := 0 }

/-- `_persist_block`. -/
def persist_block (attempt : Attempt σ) (start : Int) (data : Bytes) : Except Exc (Attempt σ) :=
  if config.download_bytes_per_sec ≤ 0 then do
    let queue ← attempt.queue.record_block config.file_hash start data
    .ok { attempt with
      queue := queue
      passed := attempt.passed ++ [(start, data)]
      recorded := attempt.recorded ++ [(start, data)] }
  else
    .ok { attempt with
      waiting := attempt.waiting ++ [(start, data)]
      passed := attempt.passed ++ [(start, data)] }

/-- The body of the receive loop, up to the end of its round. -/
def take (attempt : Attempt σ) (loop : Loop σ) : Heard → Attempt σ × Taken σ
  | .part start data =>
    match config.persist_block attempt start data with
    | .error _ => (attempt, .raises)
    | .ok attempt =>
      let loop := { loop with
        received := loop.received + data.length
        blocks := loop.blocks + 1
        expected_bytes := loop.expected_bytes - data.length }
      (attempt, if loop.expected_bytes > 0 then .waits loop else .turns loop)
  | .end_of_download => (attempt, .turns { loop with expected_bytes := 0 })
  | .out_of_part_reqs =>
    let loop := { loop with outofpart_retries := loop.outofpart_retries + 1 }
    (attempt, if loop.outofpart_retries > OUTOFPART_MAX_RETRIES then .returns loop
      else .turns { loop with expected_bytes := 0 })
  | .queue_rank => (attempt, .returns loop)
  | .skipped => (attempt, .waits loop)
  | .idle => (attempt, .returns loop)
  | .failed => (attempt, .raises)

/-- The check of the parts is due: the transfer was complete, from the first byte to the last. -/
def checks_parts (loop : Loop σ) : Prop :=
  config.start_offset + loop.received ≥ config.bound ∧ config.start_offset = 0 ∧
    ∀ stop ∈ config.end_offset, stop ≥ config.size

instance (loop : Loop σ) : Decidable (config.checks_parts loop) := inferInstanceAs (Decidable (_ ∧ _ ∧ _))

/-- What `_attempt_peer` does when the transfer has returned, up to the narrowing. -/
def conclude (attempt : Attempt σ) (loop : Loop σ) : Attempt σ :=
  match config.hashset with
  | none => { attempt with stage := .over }
  | some hashset =>
    if config.checks_parts loop then
      let corrupt := verify_parts_against_hashset config.queue_config.md4.hash
        (attempt.queue.part_file config.file_hash) config.size hashset
      { attempt with
        verdict := some corrupt
        stage := if corrupt = [] then .over else .narrowing corrupt }
    else { attempt with stage := .over }

/-- The head of the outer loop of `transfer`. -/
def begin_round (attempt : Attempt σ) (loop : Loop σ) : Attempt σ :=
  let first := config.start_offset + loop.received
  if loop.blocks ≥ MAX_BLOCKS ∨ first ≥ config.bound then config.conclude attempt loop
  else
    match config.select attempt.queue first loop.chosen with
    | .error _ => { attempt with stage := .over }
    | .ok none => config.conclude attempt loop
    | .ok (some (chosen, expected)) =>
      { attempt with stage := .transferring { loop with chosen := chosen, expected_bytes := expected } }

/-- What follows a packet without a pause. -/
def proceed (attempt : Attempt σ) : Taken σ → Attempt σ
  | .waits loop => { attempt with stage := .transferring loop }
  | .turns loop => config.begin_round attempt loop
  | .returns loop => config.conclude attempt loop
  | .raises => { attempt with stage := .over }

/-- The rest of the first waiting `_write_block_throttled`. -/
def run_detached (attempt : Attempt σ) : Attempt σ :=
  match attempt.waiting with
  | [] => attempt
  | (start, data) :: rest =>
    match attempt.queue.record_block config.file_hash start data with
    | .error _ => { attempt with waiting := rest, reported := attempt.reported ++ [(start, data)] }
    | .ok queue =>
      { attempt with
        queue := queue
        waiting := rest
        recorded := attempt.recorded ++ [(start, data)]
        late := if attempt.finalized then attempt.late ++ [(start, data)] else attempt.late }

/-- The narrowed ranges are punched. -/
def punch (attempt : Attempt σ) (corrupt : List (Nat × Nat)) : Attempt σ :=
  let ranges := config.narrow (attempt.queue.part_file config.file_hash) corrupt
  match attempt.queue.punch_gaps config.file_hash (ranges.map fun range => (range.1, range.2)) with
  | .error _ => { attempt with stage := .over }
  | .ok queue => { attempt with queue := queue, punched := some ranges, stage := .over }

def finalize (attempt : Attempt σ) (verify : Bool) (free : Nat) : Attempt σ :=
  match attempt.queue.finalize config.queue_config config.file_hash verify free with
  | .error _ => attempt
  | .ok queue => { attempt with queue := queue, finalized := true }

def step (attempt : Attempt σ) (event : AttemptEvent) : Attempt σ :=
  match event, attempt.stage with
  | .heard heard, .transferring loop =>
    let (attempt, taken) := config.take attempt loop heard
    config.proceed attempt taken
  | .detached, _ => config.run_detached attempt
  | .narrowed, .narrowing corrupt => config.punch attempt corrupt
  | .finalize verify free, .over => config.finalize attempt verify free
  | _, _ => attempt

/-- An attempt whose transfer begins. -/
def start (queue : DownloadQueue) (chosen : σ) : Attempt σ :=
  config.begin_round ⟨queue, [], .over, none, none, false, [], [], [], []⟩ ⟨chosen, 0, 0, 0, 0⟩

def run (attempt : Attempt σ) (events : List AttemptEvent) : Attempt σ := events.foldl config.step attempt

end AttemptConfig

/-- The linear fallback, which keeps nothing between two rounds. -/
def linear_select (file_hash : Bytes) (bound : Nat) (_queue : DownloadQueue) (first : Nat) (chosen : Unit) :
    Except Exc (Option (Unit × { expected : Int // 0 < expected })) :=
  if hfirst : first < bound then
    .ok (some (chosen, ⟨requested_bytes (padded_request file_hash (linear_ranges first bound)), by
      have hround : 0 < round_size := by decide
      rw [requested_bytes_linear file_hash hfirst]
      omega⟩))
  else .ok none

end amuled.download
