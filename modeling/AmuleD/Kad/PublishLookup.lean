import AmuleD.Kad.SearchMetric
import AmuleD.Runs
import AmuleD.Sorting.Selection

open nearest sorting

namespace amuled.kad

/-- `_KAD2_MIN_VERSION`. -/
def KAD2_MIN_VERSION : Nat := 3

/-- A node that is published to. -/
structure PublishTarget where
  kad_id : KadUInt128
  ip : String
  udp_port : Nat
  tcp_port : Nat
  contact_version : Nat

/-- The variables of `_lookup_closest`; `seeds` is `seed_pool[seed_pos:]`, `sent` are the datagrams that left the
socket, and `alive` and `added` what the routing table was told. -/
structure PublishLookup where
  tried : OrderedDict Nat Candidate
  responded : OrderedDict Nat Bool
  possible : OrderedDict Nat Candidate
  addr_to_dist : OrderedDict Addr Nat
  reasked : Bool
  last_progress : ℚ
  idle_strikes : Nat
  seeds : List SeedNode
  sent : List (Bytes × Addr)
  alive : List Addr
  added : List KadNodeInfo

/-- What one turn of the loop meets: the clock, the datagram of its window, and the clock when it has been parsed. -/
structure LookupTurn where
  now : ℚ
  datagram : Option (Bytes × Addr)
  parsed_at : ℚ

/-- The lookup, and whether its loop has been left. -/
structure Walk where
  lookup : PublishLookup
  left : Bool

namespace PublishLookup

section Loop

variable (target : KadUInt128)

/-- `_send_find_value`. -/
def send_find_value (lookup : PublishLookup) (kad_id : KadUInt128) (addr : Addr) (count : Nat) : PublishLookup :=
  { lookup with
    sent := lookup.sent ++
      [([KAD_PROTOCOL, KADEMLIA2_REQ, UInt8.ofNat count] ++ target.to_bytes ++ kad_id.to_bytes, addr)] }

/-- The loop of `_seed_more`, which has added some contacts already. -/
def seed_loop (lookup : PublishLookup) (added count : Nat) : List SeedNode → PublishLookup × Nat
  | [] => ({ lookup with seeds := [] }, added)
  | node :: rest =>
    if added < count then
      let d := dist target node.kad_id
      if d ∈ lookup.tried.keys ∨ d ∈ lookup.possible.keys then seed_loop lookup added count rest
      else
        let candidate : Candidate :=
          ⟨as_kad_id node.kad_id, node.ip, node.udp_port, node.tcp_port, node.contact_version⟩
        seed_loop { lookup with possible := lookup.possible.set d candidate } (added + 1) count rest
    else ({ lookup with seeds := node :: rest }, added)

def seed_more (lookup : PublishLookup) (count : Nat) : PublishLookup × Nat :=
  lookup.seed_loop target 0 count lookup.seeds

/-- The lookup before its first turn, with what `routing.closest` gives. -/
def init (start : ℚ) (seed_pool : List SeedNode) : PublishLookup :=
  (seed_more target ⟨.empty, .empty, .empty, .empty, false, start, 0, seed_pool, [], [], []⟩ ALPHA).1

/-- The requests at the top of a turn. What is too old is dropped, and does not count. -/
def ask_loop (lookup : PublishLookup) (asked_this_round : Nat) : List (Nat × Candidate) → PublishLookup
  | [] => lookup
  | (d, candidate) :: ranked =>
    if ALPHA ≤ asked_this_round then lookup
    else if d ∈ lookup.tried.keys then ask_loop lookup asked_this_round ranked
    else
      let popped := { lookup with possible := lookup.possible.erase d }
      if candidate.ver < KAD2_MIN_VERSION then ask_loop popped asked_this_round ranked
      else
        let moved := { popped with
          tried := popped.tried.set d candidate
          addr_to_dist := popped.addr_to_dist.set candidate.addr d }
        ask_loop (moved.send_find_value target candidate.kad_id candidate.addr FIND_VALUE) (asked_this_round + 1)
          ranked

def ask_round (lookup : PublishLookup) : PublishLookup :=
  lookup.ask_loop target 0 (sorted Prod.fst lookup.possible.entries)

/-- The nearest node that was tried is asked for more, once. -/
def reask (lookup : PublishLookup) : PublishLookup :=
  if lookup.reasked = false ∧ 3 * FIND_VALUE ≤ lookup.tried.entries.length then
    match (sorted Prod.fst lookup.tried.entries).head? with
    | none => { lookup with reasked := true }
    | some (_, near) => { lookup with reasked := true }.send_find_value target near.kad_id near.addr FIND_VALUE_MORE
  else lookup

/-- A turn whose window stays quiet, and whether it leaves the loop. -/
def quiet (lookup : PublishLookup) : Walk :=
  let asked := lookup.reask target
  let idle := { asked with idle_strikes := asked.idle_strikes + 1 }
  if 2 ≤ idle.idle_strikes then
    let seeded := idle.seed_more target ALPHA
    if seeded.2 = 0 ∧ seeded.1.possible.entries = [] then ⟨seeded.1, true⟩
    else ⟨{ seeded.1 with idle_strikes := 0 }, false⟩
  else ⟨idle, false⟩

/-- A contact of a `KADEMLIA2_RES`: what is nearer than its sender becomes possible. -/
def take_contact (src_ip : String) (rdist : Nat) (lookup : PublishLookup) (node : KadNodeInfo) : PublishLookup :=
  let d := dist target (.raw node.kad_id node.length_kad_id)
  if d ∈ lookup.tried.keys ∨ d ∈ lookup.possible.keys then lookup
  else if node.ip = src_ip ∨ rdist ≤ d then lookup
  else
    let candidate : Candidate := ⟨to_kad_uint128 node.kad_id node.length_kad_id, node.ip, node.udp_port,
      node.tcp_port, node.contact_version⟩
    { lookup with possible := lookup.possible.set d candidate, added := lookup.added ++ [node] }

/-- A `KADEMLIA2_RES` from a node that was asked. -/
def on_res (lookup : PublishLookup) (parsed_at : ℚ) (addr : Addr) (rdist : Nat) (contacts : List KadNodeInfo) :
    PublishLookup :=
  let heard := { lookup with alive := lookup.alive ++ [addr], last_progress := parsed_at }
  let taken := contacts.foldl (take_contact target addr.1 rdist) heard
  { taken with responded := taken.responded.set rdist true }

variable (host : Host)

/-- The contacts of a datagram that is a valid `KADEMLIA2_RES`. -/
def res_contacts (data : Bytes) : Option (List KadNodeInfo) :=
  match open_packet host data with
  | none => none
  | some (_, opcode, payload) =>
    if opcode = KADEMLIA2_RES then (parse_kad2_res payload).toOption else none

def receive (lookup : PublishLookup) (parsed_at : ℚ) (data : Bytes) (addr : Addr) : PublishLookup :=
  let heard := { lookup with idle_strikes := 0 }
  match heard.addr_to_dist.get addr with
  | none => heard
  | some rdist =>
    match res_contacts host data with
    | none => heard
    | some contacts => heard.on_res target parsed_at addr rdist contacts

/-- One turn of the loop. -/
def turn (start timeout idle_extend : ℚ) (lookup : PublishLookup) (turn : LookupTurn) : Walk :=
  if min (start + timeout) (lookup.last_progress + idle_extend) ≤ turn.now then ⟨lookup, true⟩
  else
    match turn.datagram with
    | none => (lookup.ask_round target).quiet target
    | some (data, addr) => ⟨(lookup.ask_round target).receive target host turn.parsed_at data addr, false⟩

end Loop

/-- The nodes that responded, with what was tried under their distances. -/
def responded_nodes (lookup : PublishLookup) : List Candidate := lookup.responded.keys.filterMap lookup.tried.get

/-- The `responders` that `_lookup_closest` returns. -/
def responders (lookup : PublishLookup) : List PublishTarget :=
  lookup.responded_nodes.map fun node => ⟨node.kad_id, node.ip, node.udp, node.tcp, node.ver⟩

end PublishLookup

section Walk

variable (target : KadUInt128) (host : Host) (start timeout idle_extend : ℚ)

/-- A turn of a lookup whose loop has not been left. -/
def Walk.step (walk : Walk) (turn : LookupTurn) : Walk :=
  if walk.left then walk else walk.lookup.turn target host start timeout idle_extend turn

/-- `_lookup_closest`, as far as the turns go. -/
def lookup_closest (seed_pool : List SeedNode) (turns : List LookupTurn) : Walk :=
  turns.foldl (Walk.step target host start timeout idle_extend) ⟨.init target start seed_pool, false⟩

end Walk

/-- The `targets_info` of `publish_file`. -/
def KeywordPublisher.targets_info (responders : List PublishTarget) (node_count : Nat) : List PublishTarget :=
  responders.take node_count

/-- The requests of `publish_file`, with the nodes that they are sent to. -/
def KeywordPublisher.requests (publish_req : Bytes) (targets_info : List PublishTarget) :
    List (Bytes × PublishTarget) :=
  targets_info.map fun tgt => (publish_req, tgt)

/-- The `targets_info` of `publish_sources`. -/
def SourcePublisher.targets_info (responders : List PublishTarget) (node_count : Nat) : List PublishTarget :=
  responders.take node_count

/-- The requests of `publish_sources`: only the first entry is published. -/
def SourcePublisher.requests (publish_reqs : List Bytes) (targets_info : List PublishTarget) :
    List (Bytes × PublishTarget) :=
  match publish_reqs with
  | [] => []
  | req :: _ => targets_info.map fun tgt => (req, tgt)

theorem KadUInt128.value_eq_iff (one other : KadUInt128) : one.value = other.value ↔ one = other := by
  constructor
  · intro hvalue
    cases one
    cases other
    cases hvalue
    rfl
  · exact congrArg KadUInt128.value

instance : DecidableEq KadUInt128 := fun one other =>
  decidable_of_iff (one.value = other.value) (KadUInt128.value_eq_iff one other)

/-- The nodes that the requests are sent to are the nearest of those that responded, as many as `node_count` allows. -/
def PublishesNearest (target : KadUInt128) (node_count : Nat) (requests : List (Bytes × PublishTarget))
    (responders : List PublishTarget) : Prop :=
  NearestOf (metric target) node_count (requests.map fun request => request.2.kad_id).toFinset
    (responders.map PublishTarget.kad_id).toFinset

section Responders

variable (target : KadUInt128) {host : Host} {start timeout idle_extend : ℚ} {lookup : PublishLookup}

namespace PublishLookup

/-- The node, if any, that responds for the first time in a turn. -/
def newcomer (target : KadUInt128) (host : Host) (start timeout idle_extend : ℚ) (lookup : PublishLookup)
    (turn : LookupTurn) : Option Candidate :=
  if min (start + timeout) (lookup.last_progress + idle_extend) ≤ turn.now then none
  else
    match turn.datagram with
    | none => none
    | some (data, addr) =>
      match (lookup.ask_round target).addr_to_dist.get addr with
      | none => none
      | some rdist =>
        if rdist ∈ lookup.responded.keys ∨ (res_contacts host data).isNone then none
        else (lookup.ask_round target).tried.get rdist

/-- Distances under which addresses are known, or nodes responded, were tried. -/
structure Tracked (lookup : PublishLookup) : Prop where
  addr_to_dist : ∀ entry ∈ lookup.addr_to_dist.entries, entry.2 ∈ lookup.tried.keys
  responded : ∀ d ∈ lookup.responded.keys, d ∈ lookup.tried.keys

/-- What was tried stays, and who responded. -/
structure Keeps (before after : PublishLookup) : Prop where
  tracked : after.Tracked
  responded : after.responded = before.responded
  tried : ∀ d ∈ before.tried.keys, after.tried.get d = before.tried.get d

theorem Tracked.keeps_of_same {after : PublishLookup} (h : lookup.Tracked) (htried : after.tried = lookup.tried)
    (hresponded : after.responded = lookup.responded) (haddr : after.addr_to_dist = lookup.addr_to_dist) :
    lookup.Keeps after := by
  refine ⟨⟨?_, ?_⟩, hresponded, ?_⟩
  · rw [haddr, htried]
    exact h.addr_to_dist
  · rw [hresponded, htried]
    exact h.responded
  · intro d _
    rw [htried]

theorem Keeps.trans {before middle after : PublishLookup} (h : before.Keeps middle) (h' : middle.Keeps after) :
    before.Keeps after := by
  refine ⟨h'.tracked, h'.responded.trans h.responded, ?_⟩
  intro d hd
  have hmiddle : d ∈ middle.tried.keys := by
    obtain ⟨candidate, hcandidate⟩ := OrderedDict.mem_keys.mp hd
    have hget := h.tried d hd
    rw [OrderedDict.get_of_mem hcandidate] at hget
    exact OrderedDict.mem_keys.mpr ⟨candidate, OrderedDict.mem_of_get hget⟩
  rw [h'.tried d hmiddle, h.tried d hd]

/-- The nodes that responded stay the same. -/
theorem Keeps.responded_nodes {after : PublishLookup} (h : lookup.Keeps after) (htracked : lookup.Tracked) :
    after.responded_nodes = lookup.responded_nodes := by
  rw [PublishLookup.responded_nodes, PublishLookup.responded_nodes, h.responded]
  apply List.filterMap_congr
  intro d hd
  exact h.tried d (htracked.responded d hd)

/-- A node that is tried for the first time. -/
theorem Tracked.keeps_try {d : Nat} (h : lookup.Tracked) (hnew : d ∉ lookup.tried.keys) (candidate : Candidate)
    (possible : OrderedDict Nat Candidate) (sent : List (Bytes × Addr)) :
    lookup.Keeps { lookup with
      possible := possible
      tried := lookup.tried.set d candidate
      addr_to_dist := lookup.addr_to_dist.set candidate.addr d
      sent := sent } := by
  refine ⟨⟨?_, ?_⟩, rfl, ?_⟩
  · intro entry hentry
    apply OrderedDict.mem_keys_set.mpr
    rcases OrderedDict.mem_set.mp hentry with rfl | ⟨_, hold⟩
    · exact .inl rfl
    · exact .inr (h.addr_to_dist entry hold)
  · intro other hother
    exact OrderedDict.mem_keys_set.mpr (.inr (h.responded other hother))
  · intro other hother
    have hne : other ≠ d := by
      rintro rfl
      exact hnew hother
    exact (OrderedDict.get_set _ _ _ _).trans (if_neg hne)

theorem Tracked.ask_loop (h : lookup.Tracked) (asked_this_round : Nat) (ranked : List (Nat × Candidate)) :
    lookup.Keeps (lookup.ask_loop target asked_this_round ranked) := by
  induction ranked generalizing lookup asked_this_round with
  | nil => exact h.keeps_of_same rfl rfl rfl
  | cons entry ranked ih =>
    obtain ⟨d, candidate⟩ := entry
    rw [PublishLookup.ask_loop]
    by_cases hfull : ALPHA ≤ asked_this_round
    · rw [if_pos hfull]
      exact h.keeps_of_same rfl rfl rfl
    · rw [if_neg hfull]
      by_cases hd : d ∈ lookup.tried.keys
      · rw [if_pos hd]
        exact ih h asked_this_round
      · rw [if_neg hd]
        by_cases hold : candidate.ver < KAD2_MIN_VERSION
        · have hpopped : lookup.Keeps { lookup with possible := lookup.possible.erase d } :=
            h.keeps_of_same rfl rfl rfl
          simp only [if_pos hold]
          exact hpopped.trans (ih hpopped.tracked asked_this_round)
        · have hmoved := h.keeps_try hd candidate (lookup.possible.erase d) (lookup.sent ++
            [([KAD_PROTOCOL, KADEMLIA2_REQ, UInt8.ofNat FIND_VALUE] ++ target.to_bytes ++ candidate.kad_id.to_bytes,
              candidate.addr)])
          simp only [if_neg hold]
          exact hmoved.trans (ih hmoved.tracked (asked_this_round + 1))

theorem Tracked.seed_loop (h : lookup.Tracked) (added count : Nat) (seeds : List SeedNode) :
    lookup.Keeps (lookup.seed_loop target added count seeds).1 := by
  induction seeds generalizing lookup added with
  | nil => exact h.keeps_of_same rfl rfl rfl
  | cons node rest ih =>
    rw [PublishLookup.seed_loop]
    by_cases hroom : added < count
    · rw [if_pos hroom]
      by_cases hknown : dist target node.kad_id ∈ lookup.tried.keys ∨ dist target node.kad_id ∈ lookup.possible.keys
      · simp only [if_pos hknown]
        exact ih h added
      · simp only [if_neg hknown]
        have hseeded : ∀ candidate, lookup.Keeps
            { lookup with possible := lookup.possible.set (dist target node.kad_id) candidate } :=
          fun candidate => h.keeps_of_same rfl rfl rfl
        exact (hseeded _).trans (ih (hseeded _).tracked (added + 1))
    · rw [if_neg hroom]
      exact h.keeps_of_same rfl rfl rfl

theorem Tracked.quiet (h : lookup.Tracked) : lookup.Keeps (lookup.quiet target).lookup := by
  have hreask : lookup.Keeps (lookup.reask target) := by
    unfold PublishLookup.reask
    split
    · split
      · exact h.keeps_of_same rfl rfl rfl
      · exact h.keeps_of_same rfl rfl rfl
    · exact h.keeps_of_same rfl rfl rfl
  have hidle : lookup.Keeps { lookup.reask target with idle_strikes := (lookup.reask target).idle_strikes + 1 } :=
    hreask.trans (hreask.tracked.keeps_of_same rfl rfl rfl)
  have hseeded : lookup.Keeps ({ lookup.reask target with
      idle_strikes := (lookup.reask target).idle_strikes + 1 }.seed_more target ALPHA).1 :=
    hidle.trans (hidle.tracked.seed_loop target 0 ALPHA (lookup.reask target).seeds)
  simp only [PublishLookup.quiet]
  split
  · split
    · exact hseeded
    · exact hseeded.trans (hseeded.tracked.keeps_of_same rfl rfl rfl)
  · exact hidle

theorem Tracked.take_contacts (h : lookup.Tracked) (src_ip : String) (rdist : Nat) (contacts : List KadNodeInfo) :
    lookup.Keeps (contacts.foldl (take_contact target src_ip rdist) lookup) := by
  induction contacts generalizing lookup with
  | nil => exact h.keeps_of_same rfl rfl rfl
  | cons node rest ih =>
    have hnode : lookup.Keeps (lookup.take_contact target src_ip rdist node) := by
      simp only [PublishLookup.take_contact]
      split
      · exact h.keeps_of_same rfl rfl rfl
      · split
        · exact h.keeps_of_same rfl rfl rfl
        · exact h.keeps_of_same rfl rfl rfl
    rw [List.foldl_cons]
    exact hnode.trans (ih hnode.tracked)

/-- A node that responds is added behind the others, unless it responded before. -/
theorem Tracked.on_res (h : lookup.Tracked) (parsed_at : ℚ) (addr : Addr) {rdist : Nat}
    (hrdist : rdist ∈ lookup.tried.keys) (contacts : List KadNodeInfo) :
    (lookup.on_res target parsed_at addr rdist contacts).Tracked ∧
      (lookup.on_res target parsed_at addr rdist contacts).responded_nodes = lookup.responded_nodes ++
        (if rdist ∈ lookup.responded.keys then none else lookup.tried.get rdist).toList := by
  have hheard : lookup.Keeps { lookup with alive := lookup.alive ++ [addr], last_progress := parsed_at } :=
    h.keeps_of_same rfl rfl rfl
  have htaken := hheard.trans (hheard.tracked.take_contacts target addr.1 rdist contacts)
  have htracked : (lookup.on_res target parsed_at addr rdist contacts).Tracked := by
    refine ⟨htaken.tracked.addr_to_dist, ?_⟩
    intro d hd
    rcases OrderedDict.mem_keys_set.mp hd with rfl | hold
    · obtain ⟨candidate, hcandidate⟩ := OrderedDict.mem_keys.mp hrdist
      have hget := htaken.tried d hrdist
      rw [OrderedDict.get_of_mem hcandidate] at hget
      exact OrderedDict.mem_keys.mpr ⟨candidate, OrderedDict.mem_of_get hget⟩
    · exact htaken.tracked.responded d hold
  refine ⟨htracked, ?_⟩
  have hkeys : (lookup.on_res target parsed_at addr rdist contacts).responded.keys =
      if rdist ∈ lookup.responded.keys then lookup.responded.keys else lookup.responded.keys ++ [rdist] := by
    rw [PublishLookup.on_res, OrderedDict.keys_set, htaken.responded]
  have htried : ∀ d ∈ lookup.tried.keys,
      (lookup.on_res target parsed_at addr rdist contacts).tried.get d = lookup.tried.get d := htaken.tried
  have hold : lookup.responded.keys.filterMap (lookup.on_res target parsed_at addr rdist contacts).tried.get =
      lookup.responded_nodes := by
    apply List.filterMap_congr
    intro d hd
    exact htried d (h.responded d hd)
  rw [PublishLookup.responded_nodes, hkeys]
  by_cases hknown : rdist ∈ lookup.responded.keys
  · rw [if_pos hknown, if_pos hknown, hold, Option.toList_none, List.append_nil]
  · rw [if_neg hknown, if_neg hknown, List.filterMap_append, hold, List.filterMap_cons, htried rdist hrdist]
    cases lookup.tried.get rdist with
    | none => rfl
    | some candidate => rfl

theorem Tracked.ask_round (h : lookup.Tracked) : lookup.Keeps (lookup.ask_round target) :=
  h.ask_loop target 0 _

/-- A turn adds the node that responds for the first time in it. -/
theorem Tracked.turn (h : lookup.Tracked) (turn : LookupTurn) :
    (lookup.turn target host start timeout idle_extend turn).lookup.Tracked ∧
      (lookup.turn target host start timeout idle_extend turn).lookup.responded_nodes =
        lookup.responded_nodes ++ (lookup.newcomer target host start timeout idle_extend turn).toList := by
  rw [PublishLookup.turn, PublishLookup.newcomer]
  by_cases hlate : min (start + timeout) (lookup.last_progress + idle_extend) ≤ turn.now
  · rw [if_pos hlate, if_pos hlate, Option.toList_none, List.append_nil]
    exact ⟨h, rfl⟩
  · have hasked : lookup.Keeps (lookup.ask_round target) := h.ask_round target
    rw [if_neg hlate, if_neg hlate]
    cases turn.datagram with
    | none =>
      have hquiet := hasked.trans (hasked.tracked.quiet target)
      exact ⟨hquiet.tracked, by rw [hquiet.responded_nodes h, Option.toList_none, List.append_nil]⟩
    | some datagram =>
      obtain ⟨data, addr⟩ := datagram
      have hheard : lookup.Keeps { lookup.ask_round target with idle_strikes := 0 } :=
        hasked.trans (hasked.tracked.keeps_of_same rfl rfl rfl)
      have hnothing : ({ lookup.ask_round target with idle_strikes := 0 } : PublishLookup).Tracked ∧
          ({ lookup.ask_round target with idle_strikes := 0 } : PublishLookup).responded_nodes =
            lookup.responded_nodes ++ (none : Option Candidate).toList :=
        ⟨hheard.tracked, by rw [hheard.responded_nodes h, Option.toList_none, List.append_nil]⟩
      simp only [PublishLookup.receive]
      cases hrdist : (lookup.ask_round target).addr_to_dist.get addr with
      | none => exact hnothing
      | some rdist =>
        cases hcontacts : res_contacts host data with
        | none =>
          simpa only [Option.isNone_none, or_true, if_true] using hnothing
        | some contacts =>
          have htried : rdist ∈ (lookup.ask_round target).tried.keys :=
            hasked.tracked.addr_to_dist _ (OrderedDict.mem_of_get hrdist)
          obtain ⟨htracked, hnodes⟩ := hheard.tracked.on_res target turn.parsed_at addr htried contacts
          refine ⟨htracked, ?_⟩
          have hcond : rdist ∈ lookup.responded.keys ∨ (some contacts).isNone = true ↔
              rdist ∈ lookup.responded.keys := by simp
          rw [hnodes, hheard.responded_nodes h, hheard.responded]
          simp only [hcond]

theorem tracked_init (target : KadUInt128) (start : ℚ) (seed_pool : List SeedNode) :
    (PublishLookup.init target start seed_pool).Tracked ∧
      (PublishLookup.init target start seed_pool).responded_nodes = [] := by
  have hempty : (⟨.empty, .empty, .empty, .empty, false, start, 0, seed_pool, [], [], []⟩ :
      PublishLookup).Tracked := ⟨nofun, nofun⟩
  have hseeded : (⟨.empty, .empty, .empty, .empty, false, start, 0, seed_pool, [], [], []⟩ :
      PublishLookup).Keeps (PublishLookup.init target start seed_pool) := hempty.seed_loop target 0 ALPHA seed_pool
  exact ⟨hseeded.tracked, hseeded.responded_nodes hempty⟩

end PublishLookup

/-- Whoever responds for the first time after `node_count` others is farther than they are. -/
def Inward (target : KadUInt128) (host : Host) (start timeout idle_extend : ℚ) (node_count : Nat) (walk : Walk)
    (turn : LookupTurn) : Prop :=
  walk.left = false → ∀ node, walk.lookup.newcomer target host start timeout idle_extend turn = some node →
    Farther (metric target) node_count (walk.lookup.responded_nodes.map Candidate.kad_id) node.kad_id

/-- The first nodes that responded are the nearest of those that did. -/
def Walk.FirstNearest (target : KadUInt128) (node_count : Nat) (walk : Walk) : Prop :=
  NearestOf (metric target) node_count ((walk.lookup.responded_nodes.map Candidate.kad_id).take node_count).toFinset
    (walk.lookup.responded_nodes.map Candidate.kad_id).toFinset

def Walk.Tracked (walk : Walk) : Prop := walk.lookup.Tracked

theorem Walk.tracked_step (walk : Walk) (turn : LookupTurn) (htracked : walk.Tracked) :
    (Walk.step target host start timeout idle_extend walk turn).Tracked := by
  rw [Walk.step]
  split
  · exact htracked
  · exact (PublishLookup.Tracked.turn target htracked turn).1

/-- In a turn the first nodes stay the nearest exactly if it brings no nearer one. -/
theorem Walk.firstNearest_step_iff (node_count : Nat) (walk : Walk) (turn : LookupTurn)
    (htracked : walk.Tracked) :
    (Walk.step target host start timeout idle_extend walk turn).FirstNearest target node_count ↔
      walk.FirstNearest target node_count ∧ Inward target host start timeout idle_extend node_count walk turn := by
  by_cases hleft : walk.left = true
  · rw [Walk.step, if_pos hleft]
    refine (and_iff_left ?_).symm
    intro hnot
    rw [hleft] at hnot
    cases hnot
  · have hgoing : walk.left = false := Bool.eq_false_iff.mpr hleft
    rw [Walk.step, if_neg hleft]
    simp only [Walk.FirstNearest, (PublishLookup.Tracked.turn target htracked turn).2, List.map_append]
    cases hnew : walk.lookup.newcomer target host start timeout idle_extend turn with
    | none =>
      have hinward : Inward target host start timeout idle_extend node_count walk turn := by
        intro _ node hnode
        rw [hnew] at hnode
        cases hnode
      rw [Option.toList_none, List.map_nil, List.append_nil]
      exact (and_iff_left hinward).symm
    | some node =>
      rw [Option.toList_some, List.map_singleton, nearestOf_take_concat_iff]
      apply and_congr_right
      intro _
      constructor
      · intro hfarther _ other hother
        rw [hnew] at hother
        cases hother
        exact hfarther
      · intro hinward
        exact hinward hgoing node hnew

/-- One request to each of the first responders goes to the nearest nodes exactly if the first are the nearest. -/
theorem publishesNearest_take_iff (node_count : Nat) (request : Bytes) (walk : Walk) :
    PublishesNearest target node_count ((walk.lookup.responders.take node_count).map fun tgt => (request, tgt))
      walk.lookup.responders ↔ walk.FirstNearest target node_count := by
  have hids : walk.lookup.responders.map PublishTarget.kad_id =
      walk.lookup.responded_nodes.map Candidate.kad_id := by
    rw [PublishLookup.responders, List.map_map]
    rfl
  have hsent : ((walk.lookup.responders.take node_count).map fun tgt => (request, tgt)).map
      (fun sent => sent.2.kad_id) = (walk.lookup.responded_nodes.map Candidate.kad_id).take node_count := by
    rw [← hids, ← List.map_take, List.map_map]
    rfl
  rw [PublishesNearest, hids, hsent, Walk.FirstNearest]

/-- Both publishers send their requests to the nearest nodes that responded exactly if, in every turn, whoever responds
for the first time after `node_count` others is farther than they are. -/
theorem publishesNearest_iff (target : KadUInt128) (host : Host) (start timeout idle_extend : ℚ) (node_count : Nat)
    (publish_req req : Bytes) (publish_reqs : List Bytes) (seed_pool : List SeedNode) (turns : List LookupTurn) :
    let responders := (lookup_closest target host start timeout idle_extend seed_pool turns).lookup.responders
    (PublishesNearest target node_count
        (KeywordPublisher.requests publish_req (KeywordPublisher.targets_info responders node_count)) responders ∧
      PublishesNearest target node_count
        (SourcePublisher.requests (req :: publish_reqs) (SourcePublisher.targets_info responders node_count))
        responders) ↔
      runs.AllSteps (Walk.step target host start timeout idle_extend)
        ⟨PublishLookup.init target start seed_pool, false⟩
        (Inward target host start timeout idle_extend node_count) turns := by
  intro responders
  obtain ⟨hinit, hnone⟩ := PublishLookup.tracked_init target start seed_pool
  have hkeyword := publishesNearest_take_iff target node_count publish_req
    (lookup_closest target host start timeout idle_extend seed_pool turns)
  have hsource := publishesNearest_take_iff target node_count req
    (lookup_closest target host start timeout idle_extend seed_pool turns)
  have hstart : Walk.FirstNearest target node_count ⟨PublishLookup.init target start seed_pool, false⟩ := by
    rw [Walk.FirstNearest, hnone, List.map_nil, List.take_nil]
    exact nearestOf_self (Nat.zero_le _)
  have htracked : (Walk.mk (PublishLookup.init target start seed_pool) false).Tracked := hinit
  rw [KeywordPublisher.requests, KeywordPublisher.targets_info, SourcePublisher.requests, SourcePublisher.targets_info,
    hkeyword, hsource, and_self_iff]
  exact runs.final_iff htracked hstart (Walk.tracked_step target) (Walk.firstNearest_step_iff target node_count) turns

/-- Two seeds, of which the first has the farther identifier. -/
def sampleSeeds : List SeedNode := [sampleSeed (.uint ⟨2, by omega⟩) 4672, sampleSeed (.uint ⟨1, by omega⟩) 4673]

/-- An empty KADEMLIA2_RES from one of the addresses of the seeds. -/
def sampleResponse (udp_port : Nat) : LookupTurn :=
  ⟨0, some ([0xE4, 0x29] ++ List.replicate 17 0, ("10.0.0.1", udp_port)), 0⟩

/-- Where the farther seed answers first, it alone is published to. -/
theorem sampleSeeds_farther_published :
    ((KeywordPublisher.targets_info (lookup_closest sampleTarget sampleHost 0 30 10 sampleSeeds
        [sampleResponse 4672, sampleResponse 4673]).lookup.responders 1).map
          fun tgt => metric sampleTarget tgt.kad_id) = [2] ∧
      ¬ PublishesNearest sampleTarget 1 (KeywordPublisher.requests [] (KeywordPublisher.targets_info
        (lookup_closest sampleTarget sampleHost 0 30 10 sampleSeeds
          [sampleResponse 4672, sampleResponse 4673]).lookup.responders 1))
        (lookup_closest sampleTarget sampleHost 0 30 10 sampleSeeds
          [sampleResponse 4672, sampleResponse 4673]).lookup.responders := by
  have hids : (lookup_closest sampleTarget sampleHost 0 30 10 sampleSeeds
      [sampleResponse 4672, sampleResponse 4673]).lookup.responded_nodes.map Candidate.kad_id =
        [⟨2, by omega⟩, ⟨1, by omega⟩] := by
    decide +kernel
  refine ⟨by decide +kernel, ?_⟩
  rw [KeywordPublisher.requests, KeywordPublisher.targets_info, publishesNearest_take_iff, Walk.FirstNearest, hids]
  intro h
  have hlt := h.nearer ⟨2, by omega⟩ (by decide +kernel) ⟨1, by omega⟩ (by decide +kernel) (by decide +kernel)
  revert hlt
  decide +kernel

end Responders

end amuled.kad
