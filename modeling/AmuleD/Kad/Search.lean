import AmuleD.Kad.Tags
import AmuleD.Kad.Spider
import AmuleD.OrderedDict
import AmuleD.Sorting.Stable
import AmuleD.Kad.RoutingBin
import AmuleD.Kad.RoutingZone
import AmuleD.Xor.Metric

open littleendian sorting

namespace amuled.kad

/-- A KadID as a routing hands it out: sixteen raw bytes or a `KadUInt128`. -/
inductive KadId where
  | raw (data : Bytes) (length_data : data.length = 16)
  | uint (id : KadUInt128)

/-- `_as_kad_id`. -/
def as_kad_id : KadId → KadUInt128
  | .raw data length_data => to_kad_uint128 data length_data
  | .uint id => id

/-- `_dist`: raw bytes are `int.from_bytes(kad_id, "big")`. -/
def dist (target : KadUInt128) : KadId → Nat
  | .raw data _ => decode data.reverse ^^^ target.value
  | .uint id => id.value ^^^ target.value

/-- The distance in the metric of the routing table. -/
def metric (target id : KadUInt128) : Nat := (id.xor target).value

/-- The bytes of every word read the same in both orders. -/
def Balanced : KadId → Prop
  | .raw data _ => ∀ index < 4,
      (data.extract (4 * index) (4 * index + 4)).reverse = data.extract (4 * index) (4 * index + 4)
  | .uint _ => True

/-- `RoutingZone.closest` orders its contacts by this metric. -/
theorem distance_eq_metric (target : KadUInt128) (node : KadNodeInfo) :
    (distance target node).value = metric target (to_kad_uint128 node.kad_id node.length_kad_id) :=
  Nat.xor_comm _ _

theorem decode_reverse_word {data : Bytes} (hdata : data.length = 16) {index : Nat} (hindex : index < 4) :
    decode (data.extract (4 * index) (4 * index + 4)).reverse < 2 ^ 32 := by
  have hlt := decode_lt (data.extract (4 * index) (4 * index + 4)).reverse
  rw [List.length_reverse, length_extract_of_le (by omega)] at hlt
  have hwidth : 4 * index + 4 - 4 * index = 4 := by omega
  rwa [hwidth] at hlt

/-- The big-endian number of sixteen bytes is made of the big-endian numbers of their words. -/
theorem decode_reverse {data : Bytes} (hdata : data.length = 16) :
    decode data.reverse = ((decode (data.extract 0 4).reverse * 2 ^ 32 + decode (data.extract 4 8).reverse) * 2 ^ 32 +
      decode (data.extract 8 12).reverse) * 2 ^ 32 + decode (data.extract 12 16).reverse := by
  have hlength : ∀ start stop, stop ≤ 16 → (data.extract start stop).length = stop - start := by
    intro start stop hstop
    exact length_extract_of_le (by omega)
  conv_lhs => rw [words_join hdata]
  simp only [List.reverse_append, decode_append, List.length_append, List.length_reverse,
    hlength 4 8 (by omega), hlength 8 12 (by omega), hlength 12 16 (by omega)]
  simp only [Nat.reduceSub, Nat.reduceAdd, Nat.reducePow]
  omega

theorem decode_reverse_eq_iff {data : Bytes} (hdata : data.length = 16) :
    decode data.reverse = (to_kad_uint128 data hdata).value ↔ Balanced (.raw data hdata) := by
  have hword : ∀ index < 4,
      (decode (data.extract (4 * index) (4 * index + 4)).reverse = word data index ↔
        (data.extract (4 * index) (4 * index + 4)).reverse = data.extract (4 * index) (4 * index + 4)) := by
    intro index _
    refine ⟨fun hsame => decode_inj List.length_reverse hsame, fun hsame => ?_⟩
    rw [hsame]
    rfl
  have hw1 : word data 1 < 2 ^ 32 := word_lt hdata (by omega)
  have hw2 : word data 2 < 2 ^ 32 := word_lt hdata (by omega)
  have hw3 : word data 3 < 2 ^ 32 := word_lt hdata (by omega)
  have hreversed : ∀ index, index < 4 → decode (data.extract (4 * index) (4 * index + 4)).reverse < 2 ^ 32 :=
    fun _ hindex => decode_reverse_word hdata hindex
  have hr1 : decode (data.extract 4 8).reverse < 2 ^ 32 := hreversed 1 (by omega)
  have hr2 : decode (data.extract 8 12).reverse < 2 ^ 32 := hreversed 2 (by omega)
  have hr3 : decode (data.extract 12 16).reverse < 2 ^ 32 := hreversed 3 (by omega)
  simp only [Balanced, to_kad_uint128]
  rw [decode_reverse hdata, words_to_int_eq _ hw1 hw2 hw3]
  constructor
  · intro hsame index hindex
    rw [← hword index hindex]
    obtain rfl | rfl | rfl | rfl : index = 0 ∨ index = 1 ∨ index = 2 ∨ index = 3 := by omega
    · change decode (data.extract 0 4).reverse = word data 0
      omega
    · change decode (data.extract 4 8).reverse = word data 1
      omega
    · change decode (data.extract 8 12).reverse = word data 2
      omega
    · change decode (data.extract 12 16).reverse = word data 3
      omega
  · intro hbalanced
    have h0 : decode (data.extract 0 4).reverse = word data 0 :=
      (hword 0 (by omega)).mpr (hbalanced 0 (by omega))
    have h1 : decode (data.extract 4 8).reverse = word data 1 :=
      (hword 1 (by omega)).mpr (hbalanced 1 (by omega))
    have h2 : decode (data.extract 8 12).reverse = word data 2 :=
      (hword 2 (by omega)).mpr (hbalanced 2 (by omega))
    have h3 : decode (data.extract 12 16).reverse = word data 3 :=
      (hword 3 (by omega)).mpr (hbalanced 3 (by omega))
    rw [h0, h1, h2, h3]

/-- The search measures a node as the routing table does exactly where its words are balanced. -/
theorem dist_eq_metric_iff (target : KadUInt128) (id : KadId) :
    dist target id = metric target (as_kad_id id) ↔ Balanced id := by
  cases id with
  | uint id => exact ⟨fun _ => trivial, fun _ => rfl⟩
  | raw data length_data =>
    refine Iff.trans ?_ (decode_reverse_eq_iff length_data)
    simp only [dist, metric, as_kad_id, KadUInt128.xor]
    generalize decode data.reverse = big
    generalize (to_kad_uint128 data length_data).value = little
    rw [Nat.xor_comm big, Nat.xor_comm little]
    exact xormetric.xor_left_inj


def KADEMLIA2_REQ : UInt8 := 0x21

def KADEMLIA2_RES : UInt8 := 0x29

def KADEMLIA2_SEARCH_KEY_REQ : UInt8 := 0x33

def KADEMLIA2_SEARCH_RES : UInt8 := 0x3B

def ALPHA : Nat := 3

def FIND_VALUE : Nat := 2

def FIND_VALUE_MORE : Nat := 11

/-- The contacts from number `i` on of a `KADEMLIA2_RES`. -/
def read_res_contacts (raw : Bytes) (i offset : Nat) : Nat → Except Exc (List KadNodeInfo)
  | 0 => .ok []
  | count + 1 =>
    if hroom : offset + 25 > raw.length then
      .error (.KadSearchError s!"KADEMLIA2_RES contact {i} truncated at offset {offset}")
    else do
      let node : KadNodeInfo := {
        kad_id := raw.extract offset (offset + 16)
        ip := ip_to_str (decode (raw.extract (offset + 16) (offset + 20)))
        udp_port := decode (raw.extract (offset + 20) (offset + 22))
        tcp_port := decode (raw.extract (offset + 22) (offset + 24))
        contact_version := (raw.getD (offset + 24) 0).toNat
        verified := false
        udp_key := 0
        length_kad_id := by
          rw [length_extract_of_le (by omega)]
          omega }
      let contacts ← read_res_contacts raw (i + 1) (offset + 25) count
      .ok (node :: contacts)

/-- `_parse_kad2_res`, with the contacts as `_node_from_contact` makes them. -/
def parse_kad2_res (payload : Bytes) : Except Exc (List KadNodeInfo) :=
  if payload.length < 17 then .error (.KadSearchError "KADEMLIA2_RES payload too short for header")
  else read_res_contacts payload 0 17 (payload.getD 16 0).toNat

/-- `_build_search_key_req`. -/
def build_search_key_req (target : KadUInt128) : Bytes := target.to_bytes ++ encode 2 0

/-- A contact as the routing hands it out. -/
structure SeedNode where
  kad_id : KadId
  ip : String
  udp_port : Nat
  tcp_port : Nat
  contact_version : Nat

/-- What `possible` holds under a distance. -/
structure Candidate where
  kad_id : KadUInt128
  ip : String
  udp : Nat
  tcp : Nat
  ver : Nat

def Candidate.addr (candidate : Candidate) : Addr := (candidate.ip, candidate.udp)

/-- The arguments of `kad_keyword_search` that the loop reads, with its `start`. -/
structure SearchOptions where
  start : ℚ
  timeout : ℚ
  idle_extend : ℚ
  max_results : Int

/-- The variables of the lookup; `seeds` is `seed_pool[seed_pos:]` and `sent` are the datagrams that
left the socket. -/
structure Lookup where
  tried : OrderedDict Nat Addr
  tried_entry : OrderedDict Nat (KadUInt128 × Addr)
  responded : OrderedDict Nat Bool
  possible : OrderedDict Nat Candidate
  asked_search : List Addr
  addr_to_dist : OrderedDict Addr Nat
  reasked : Bool
  results : OrderedDict Bytes KadSearchResultItem
  rewards : OrderedDict Addr ℚ
  last_progress : ℚ
  idle_strikes : Nat
  seeds : List SeedNode
  sent : List (Bytes × Addr)

/-- What one turn of the loop meets: the clock, the datagram of its window, and the clock again when the
datagram has been parsed and at the end. -/
structure SearchTurn where
  now : ℚ
  datagram : Option (Bytes × Addr)
  parsed_at : ℚ
  ended_at : ℚ

/-- How a turn ends. -/
inductive Next where
  | again
  | leave
  | raise (e : Exc)

section Search

variable (target : KadUInt128)

namespace Lookup

/-- `_send_find_value`. -/
def send_find_value (lookup : Lookup) (kad_id : KadUInt128) (addr : Addr) (count : Nat) : Lookup :=
  { lookup with
    sent := lookup.sent ++
      [([KAD_PROTOCOL, KADEMLIA2_REQ, UInt8.ofNat count] ++ target.to_bytes ++ kad_id.to_bytes, addr)] }

/-- A `KADEMLIA2_SEARCH_KEY_REQ` to an address. -/
def send_search_key (lookup : Lookup) (addr : Addr) : Lookup :=
  { lookup with
    sent := lookup.sent ++ [([KAD_PROTOCOL, KADEMLIA2_SEARCH_KEY_REQ] ++ build_search_key_req target, addr)]
    asked_search := lookup.asked_search ++ [addr] }

/-- The loop of `_seed_more`, which has added some contacts already. -/
def seed_loop (lookup : Lookup) (added count : Nat) : List SeedNode → Lookup × Nat
  | [] => ({ lookup with seeds := [] }, added)
  | node :: rest =>
    if added < count then
      let d := dist target node.kad_id
      if d ∈ lookup.tried.keys ∨ d ∈ lookup.possible.keys then seed_loop lookup added count rest
      else
        let candidate : Candidate :=
          ⟨as_kad_id node.kad_id, node.ip, node.udp_port, node.tcp_port, node.contact_version⟩
        seed_loop { lookup with possible := lookup.possible.set d candidate } (added + 1) count rest
    else ({ lookup with seeds := node :: rest }, added)

def seed_more (lookup : Lookup) (count : Nat) : Lookup × Nat := lookup.seed_loop target 0 count lookup.seeds

/-- The lookup before its first turn. -/
def init (start : ℚ) (seed_pool : List SeedNode) : Lookup :=
  (seed_more target ⟨.empty, .empty, .empty, .empty, [], .empty, false, .empty, .empty, start, 0, seed_pool, []⟩
    ALPHA).1

/-- The candidates that a turn asks, in this order. -/
def to_ask (lookup : Lookup) : List (Nat × Candidate) :=
  ((sorted Prod.fst lookup.possible.entries).filter fun entry => entry.1 ∉ lookup.tried.keys).take ALPHA

def ask (lookup : Lookup) (entry : Nat × Candidate) : Lookup :=
  let moved := { lookup with
    possible := lookup.possible.erase entry.1
    tried := lookup.tried.set entry.1 entry.2.addr
    tried_entry := lookup.tried_entry.set entry.1 (entry.2.kad_id, entry.2.addr)
    addr_to_dist := lookup.addr_to_dist.set entry.2.addr entry.1 }
  moved.send_find_value target entry.2.kad_id entry.2.addr FIND_VALUE

/-- The requests at the top of a turn. -/
def ask_round (lookup : Lookup) : Lookup := lookup.to_ask.foldl (ask target) lookup

/-- The nodes that responded and were not searched. -/
def pending_search (lookup : Lookup) : List Addr :=
  (lookup.responded.keys.filterMap lookup.tried.get).filter fun addr => addr ∉ lookup.asked_search

def push_search (lookup : Lookup) : Lookup :=
  (lookup.pending_search.take ALPHA).foldl (send_search_key target) lookup

/-- The nearest node that was tried is asked for more, once. -/
def reask (lookup : Lookup) : Lookup :=
  if lookup.reasked = false ∧ 3 * FIND_VALUE ≤ lookup.tried.entries.length then
    match (sorted Prod.fst lookup.tried_entry.entries).head? with
    | none => { lookup with reasked := true }
    | some (_, kad_id, addr) => { lookup with reasked := true }.send_find_value target kad_id addr FIND_VALUE_MORE
  else lookup

/-- A turn whose window stays quiet. -/
def quiet (lookup : Lookup) : Lookup × Next :=
  let pushed := (lookup.push_search target).reask target
  let idle := { pushed with idle_strikes := pushed.idle_strikes + 1 }
  if 2 ≤ idle.idle_strikes then
    let seeded := idle.seed_more target ALPHA
    if seeded.2 = 0 ∧ seeded.1.possible.entries = [] then (seeded.1, .leave)
    else ({ seeded.1 with idle_strikes := 0 }, .again)
  else (idle, .again)

def reward (lookup : Lookup) (addr : Addr) (value : ℚ) : Lookup :=
  { lookup with rewards := lookup.rewards.set addr ((lookup.rewards.get addr).getD 0 + value) }

/-- The results with the answers that are new, up to `max_results`. -/
def collect (max_results : Int) (results : OrderedDict Bytes KadSearchResultItem) :
    List KadSearchResultItem → OrderedDict Bytes KadSearchResultItem
  | [] => results
  | item :: rest =>
    if item.file_hash ∈ results.keys then collect max_results results rest
    else
      let grown := results.set item.file_hash item
      if max_results ≤ grown.entries.length then grown else collect max_results grown rest

/-- The contacts of a `KADEMLIA2_RES`: what is nearer than its sender becomes possible. -/
def take_contacts (rdist : Nat) (provided_closer : Bool) (seen_ips : List String) (lookup : Lookup) :
    List KadNodeInfo → Lookup × Bool
  | [] => (lookup, provided_closer)
  | node :: rest =>
    let d := dist target (.raw node.kad_id node.length_kad_id)
    let closer := provided_closer || decide (d < rdist)
    if d ∈ lookup.tried.keys ∨ d ∈ lookup.possible.keys then
      take_contacts rdist closer seen_ips lookup rest
    else if node.ip ∈ seen_ips then take_contacts rdist closer seen_ips lookup rest
    else if rdist ≤ d then take_contacts rdist closer (seen_ips ++ [node.ip]) lookup rest
    else
      let candidate : Candidate := ⟨to_kad_uint128 node.kad_id node.length_kad_id, node.ip, node.udp_port,
        node.tcp_port, node.contact_version⟩
      take_contacts rdist closer (seen_ips ++ [node.ip])
        { lookup with possible := lookup.possible.set d candidate } rest

/-- A `KADEMLIA2_RES` from a node that was asked. -/
def on_res (lookup : Lookup) (turn : SearchTurn) (addr : Addr) (rdist : Nat) (contacts : List KadNodeInfo) :
    Lookup :=
  let taken := take_contacts target rdist false [addr.1] { lookup with last_progress := turn.parsed_at } contacts
  let rewarded := taken.1.reward addr (if taken.2 then 1 else 1 / 5)
  let answered := { rewarded with responded := rewarded.responded.set rdist taken.2 }
  if addr ∈ answered.asked_search then answered else answered.send_search_key target addr

/-- A `KADEMLIA2_SEARCH_RES` from a node that was asked. -/
def on_search_res (lookup : Lookup) (max_results : Int) (turn : SearchTurn) (addr : Addr) (rdist : Nat)
    (answers : List KadSearchResultItem) : Lookup × Next :=
  let answered := { lookup with
    responded := lookup.responded.set rdist true
    last_progress := turn.parsed_at
    results := collect max_results lookup.results answers }
  (answered.reward addr 2, if max_results ≤ answered.results.entries.length then .leave else .again)

section Loop

variable (host : Host) (replace : Bytes → String) (options : SearchOptions)

/-- A datagram, after which the turn looks at the clock again. -/
def receive (lookup : Lookup) (turn : SearchTurn) (effective_deadline : ℚ) (data : Bytes) (addr : Addr) :
    Lookup × Next :=
  let heard := { lookup with idle_strikes := 0 }
  match heard.addr_to_dist.get addr, open_packet host data with
  | some rdist, some (_, opcode, payload) =>
    if opcode = KADEMLIA2_SEARCH_RES then
      match parse_search_res_answers replace payload with
      | .ok answers => heard.on_search_res options.max_results turn addr rdist answers
      | .error (.KadSearchError _) => (heard, .again)
      | .error e => (heard, .raise e)
    else if opcode = KADEMLIA2_RES then
      match parse_kad2_res payload with
      | .ok contacts =>
        (heard.on_res target turn addr rdist contacts, if effective_deadline ≤ turn.ended_at then .leave else .again)
      | .error _ => (heard, .again)
    else (heard, .again)
  | _, _ => (heard, .again)

/-- One turn of the loop. -/
def turn (lookup : Lookup) (turn : SearchTurn) : Lookup × Next :=
  let effective_deadline := min (options.start + options.timeout) (lookup.last_progress + options.idle_extend)
  if effective_deadline ≤ turn.now then (lookup, .leave)
  else
    match turn.datagram with
    | none => (lookup.ask_round target).quiet target
    | some (data, addr) => (lookup.ask_round target).receive target host replace options turn effective_deadline data addr

/-- The `while True` loop, as far as the turns go. -/
def turns (lookup : Lookup) : List SearchTurn → Lookup × Next
  | [] => (lookup, .again)
  | first :: rest =>
    match lookup.turn target host replace options first with
    | (next, .again) => turns next rest
    | left => left

end Loop

end Lookup

/-- The contacts of a turn whose datagram is a `KADEMLIA2_RES`. -/
def SearchTurn.contacts (host : Host) (turn : SearchTurn) : List KadNodeInfo :=
  match turn.datagram.bind fun datagram => open_packet host datagram.1 with
  | some (_, opcode, payload) =>
    if opcode = KADEMLIA2_RES then ((parse_kad2_res payload).toOption).getD [] else []
  | none => []

end Search

end amuled.kad
