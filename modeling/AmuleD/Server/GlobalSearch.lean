import Mathlib.Algebra.Order.Floor.Semiring
import Mathlib.Data.Rat.Floor
import AmuleD.Codec.Packet
import AmuleD.Dict
import AmuleD.Server.SearchResults
import AmuleD.Sorting.Selection
import AmuleD.Upload.Queue

open littleendian champions

namespace amuled.server

def GLOBSEARCHREQ3 : UInt8 := 0x90

def GLOBSEARCHREQ2 : UInt8 := 0x92

def GLOBSEARCHREQ : UInt8 := 0x98

def GLOBSEARCHRES : UInt8 := 0x99

def SERVER_UDPSEARCH_FLAGS : UInt8 := 0x0E

def SRVCAP_UDP_NEWTAGS_LARGEFILES : Nat := 0x01

/-- One listed server, under the address that its datagrams come from. -/
structure GlobalServerEndpoint where
  host : String
  port : Nat
  deriving DecidableEq

namespace GlobalServerEndpoint

def address (endpoint : GlobalServerEndpoint) : String × Nat := (endpoint.host, endpoint.port)

def key (endpoint : GlobalServerEndpoint) : String := s!"{endpoint.host}:{endpoint.port}"

end GlobalServerEndpoint

def build_udp_search_payload (query : String) : Except Exc Bytes :=
  if upload.strip query.toList = [] then .error (.GlobalUdpSearchError "search query cannot be empty")
  else do
    let encoded := utf8_encode (String.ofList (upload.strip query.toList))
    let size ← write_u16 encoded.length
    .ok ([1] ++ size ++ encoded)

def build_udp_search_req3_prefix : Bytes :=
  encode 4 1 ++ [0x03 ||| 0x80, SERVER_UDPSEARCH_FLAGS] ++ encode 4 SRVCAP_UDP_NEWTAGS_LARGEFILES

def encode_udp_packet (opcode : UInt8) (payload : Bytes) : Bytes :=
  [EDONKEY] ++ encode 4 (payload.length + 1) ++ [opcode] ++ payload

/-- `_ServerAttemptState`. -/
structure ServerAttemptState where
  dead_retries : Nat
  working_variant : Option UInt8
  answered_this_session : Bool

def variant_ladder (state : ServerAttemptState) : List UInt8 :=
  let ladder := [GLOBSEARCHREQ3, GLOBSEARCHREQ2, GLOBSEARCHREQ]
  match state.working_variant with
  | some variant => variant :: ladder.filter fun code => code ≠ variant
  | none => ladder

/-- A datagram, and the address it came from. -/
structure Datagram where
  addr : String × Nat
  data : Bytes

/-- One `asyncio.sleep(0.1)`: how long it lasted, and what arrived meanwhile. -/
structure Waking where
  elapsed : ℚ
  slept : 1 / 10 ≤ elapsed
  arrived : List Datagram

/-- What a search reads and changes: the clock and the number of sleeps so far, the buckets, the record of each
listed server, and what it has sent. -/
structure Searching where
  now : ℚ
  wakes : Nat
  pending : Dict (String × Nat) (List Packet)
  state : GlobalServerEndpoint → ServerAttemptState
  sent : List (GlobalServerEndpoint × Bytes)

/-- The settings of a `GlobalUdpSearch`. -/
structure GlobalUdpSearch where
  servers : List GlobalServerEndpoint
  response_window : ℚ
  dead_server_retries : Int

structure GlobalSearchAggregate where
  query : String
  results : List SearchResult
  per_server : OrderedDict String Nat
  dead_servers : List String

/-- The packets of one drained bucket. A malformed result is logged. -/
def collect_results : List Packet → Except Exc (List SearchResult)
  | [] => .ok []
  | packet :: packets =>
    if packet.opcode ≠ GLOBSEARCHRES then collect_results packets
    else
      match parse_global_search_result packet.payload with
      | .error (.GlobalUdpSearchError _) => collect_results packets
      | .error e => .error e
      | .ok results => do
        let others ← collect_results packets
        .ok (results ++ others)

section Search

variable (decompress : Bytes → Except String Bytes)

/-- `parse_udp_packet`, with `zlib.decompress`. -/
def parse_udp_packet : Bytes → Except Exc Packet
  | protocol :: a :: b :: c :: d :: opcode :: payload =>
    let packet_length := decode [a, b, c, d]
    if packet_length < 1 then
      .error (.GlobalUdpSearchError s!"UDP packet length is below one: {packet_length}")
    else if payload.length < packet_length - 1 then
      .error (.GlobalUdpSearchError
        s!"UDP datagram truncated: expected={packet_length - 1}, got={payload.length}")
    else if protocol = PACKED then
      match decompress (payload.take (packet_length - 1)) with
      | .error message => .error (.GlobalUdpSearchError s!"packed UDP payload failed to inflate: {message}")
      | .ok inflated => .ok ⟨EDONKEY, opcode, inflated⟩
    else .ok ⟨protocol, opcode, payload.take (packet_length - 1)⟩
  | datagram =>
    .error (.GlobalUdpSearchError s!"UDP datagram shorter than the ED2K header: {datagram.length}")

/-- `datagram_received`, which logs what it drops. -/
def datagram_received (pending : Dict (String × Nat) (List Packet)) (datagram : Datagram) :
    Dict (String × Nat) (List Packet) :=
  match parse_udp_packet decompress datagram.data with
  | .error _ => pending
  | .ok packet => pending.set datagram.addr ((pending.get datagram.addr).getD [] ++ [packet])

namespace Searching

def sleep (search : Searching) (waking : Waking) : Searching :=
  { search with
    now := search.now + waking.elapsed
    wakes := search.wakes + 1
    pending := waking.arrived.foldl (datagram_received decompress) search.pending }

/-- The bucket of a server. -/
def bucket (search : Searching) (endpoint : GlobalServerEndpoint) : List Packet :=
  (search.pending.get endpoint.address).getD []

/-- `_drain_responses` takes the bucket away. -/
def drained (search : Searching) (endpoint : GlobalServerEndpoint) : Searching :=
  { search with pending := search.pending.erase endpoint.address }

/-- One request of a search is sent to a server. -/
def request (search : Searching) (endpoint : GlobalServerEndpoint) (body : Bytes) (variant : UInt8) : Searching :=
  let wire_body := if variant = GLOBSEARCHREQ3 then build_udp_search_req3_prefix ++ body else body
  { search with sent := search.sent ++ [(endpoint, encode_udp_packet variant wire_body)] }

def record (search : Searching) (endpoint : GlobalServerEndpoint) (state : ServerAttemptState) : Searching :=
  { search with state := fun other => if other = endpoint then state else search.state other }

end Searching

variable (wakings : Nat → Waking)

theorem ceil_sleep_lt {deadline now elapsed : ℚ} (hnow : now < deadline) (hslept : 1 / 10 ≤ elapsed) :
    ⌈(deadline - (now + elapsed)) * 10⌉₊ < ⌈(deadline - now) * 10⌉₊ := by
  rw [Nat.lt_ceil]
  by_cases hpassed : (deadline - (now + elapsed)) * 10 ≤ 0
  · rw [Nat.ceil_eq_zero.mpr hpassed, Nat.cast_zero]
    linarith
  · have hceil := Nat.ceil_lt_add_one (not_le.mp hpassed).le
    linarith

/-- The polls of one request, until the deadline or the first results. -/
def await_responses (endpoint : GlobalServerEndpoint) (deadline : ℚ) (search : Searching) :
    Except Exc (List SearchResult × Searching) :=
  if search.now < deadline then
    let awake := search.sleep decompress (wakings search.wakes)
    match collect_results (awake.bucket endpoint) with
    | .error e => .error e
    | .ok [] => await_responses endpoint deadline (awake.drained endpoint)
    | .ok collected => .ok (collected, awake.drained endpoint)
  else .ok ([], search)
termination_by ⌈(deadline - search.now) * 10⌉₊
decreasing_by exact ceil_sleep_lt ‹_› (wakings search.wakes).slept

variable (settings : GlobalUdpSearch)

/-- The ladder of `_collect_for_server`: one request after the other, until one is answered with results. -/
def try_variants (endpoint : GlobalServerEndpoint) (body : Bytes) :
    List UInt8 → Searching → Except Exc (List SearchResult × Searching)
  | [], search => .ok ([], search)
  | variant :: ladder, search => do
    let requested := search.request endpoint body variant
    let (collected, search) ← await_responses decompress wakings endpoint
      (requested.now + settings.response_window) requested
    if collected ≠ [] then .ok (collected, search.record endpoint ⟨0, some variant, true⟩)
    else try_variants endpoint body ladder search

def collect_for_server (endpoint : GlobalServerEndpoint) (body : Bytes) (search : Searching) :
    Except Exc (List SearchResult × Searching) := do
  let state := search.state endpoint
  let ladder := variant_ladder state
  let ladder := if state.working_variant = none then ladder.take 2 else ladder
  let (collected, search) ← try_variants decompress wakings settings endpoint body ladder search
  let state := search.state endpoint
  if collected ≠ [] ∨ state.answered_this_session then .ok (collected, search)
  else .ok ([], search.record endpoint { state with dead_retries := state.dead_retries + 1 })

/-- The results that a server's bucket holds. -/
def packet_results (packet : Packet) : List SearchResult :=
  if packet.opcode = GLOBSEARCHRES then (parse_global_search_result packet.payload).toOption.getD [] else []

/-- The turn of a live server: the sleeps between which it is collected, and the results that were in its bucket
when the turn began. -/
structure Turn where
  endpoint : GlobalServerEndpoint
  opened : Nat
  closed : Nat
  leftover : List SearchResult

/-- The loop of `search` over the servers, with a record of the turns. -/
structure Sweep where
  search : Searching
  results : OrderedDict Bytes SearchResult
  per_server : OrderedDict String Nat
  dead : List String
  turns : List Turn

def visit (body : Bytes) (sweep : Sweep) (endpoint : GlobalServerEndpoint) : Except Exc Sweep :=
  if settings.dead_server_retries ≤ (sweep.search.state endpoint).dead_retries then
    .ok { sweep with dead := sweep.dead ++ [endpoint.key] }
  else do
    let (found, search) ← collect_for_server decompress wakings settings endpoint body sweep.search
    let turn : Turn := ⟨endpoint, sweep.search.wakes, search.wakes,
      (sweep.search.bucket endpoint).flatMap packet_results⟩
    .ok {
      search := search
      results := found.foldl (keep SearchResult.file_hash SearchResult.sources) sweep.results
      per_server := sweep.per_server.set endpoint.key found.length
      dead := sweep.dead
      turns := sweep.turns ++ [turn] }

/-- `search`: the aggregate, and the turns of the live servers. -/
def GlobalUdpSearch.search (query : String) (start : Searching) :
    Except Exc (GlobalSearchAggregate × Searching × List Turn) := do
  let body ← build_udp_search_payload query
  let sweep ← settings.servers.foldlM (visit decompress wakings settings body)
    ⟨start, OrderedDict.empty, OrderedDict.empty, [], []⟩
  .ok (⟨query, sweep.results.values, sweep.per_server, sweep.dead⟩, sweep.search, sweep.turns)

end Search

end amuled.server
