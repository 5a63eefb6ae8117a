import AmuleD.Dict
import AmuleD.Kad.BuddyRegistry
import AmuleD.Kad.Obfuscation

namespace amuled.kad

/-- An IP and a UDP port. -/
abbrev Addr := String × Nat

/-- A node of the pool. An `udp_key` of `""` is `none`. -/
structure NodeRecord where
  kad_id : String
  tcp : Nat
  ver : Nat
  hellos : Nat
  pings : Nat
  last_seen : ℚ
  udp_key : Option Nat
  fails : Option Nat
  rtt_ewma : Option ℚ
  deriving DecidableEq

/-- What the receiver is given: `zlib.decompress` and the estimate of the `RttTracker` among it. -/
structure Host where
  own : KadUInt128
  decompress : Bytes → Option Bytes
  md5 : HashFn 16
  arc4 : Bytes → Nat → UInt8
  ewma : List (Addr × ℚ) → ℚ

/-- The names of `receiver` that its own import statements bind and that it compares an opcode with. -/
structure Locals where
  KADEMLIA_CALLBACK_REQ : Option UInt8
  KADEMLIA_FINDSERVINGBUDDY_RES : Option UInt8

/-- What the receiver reads and changes. `rtt` are the round trips that were measured, `relayed`
the callbacks that were handed to the registry and `registrations` the tasks that were started. -/
structure Spider where
  nodes : Dict Addr NodeRecord
  weights : Dict Addr ℚ
  hello_sent : Dict Addr ℚ
  ping_sent : Dict Addr ℚ
  alive : Nat
  rtt : List (Addr × ℚ)
  buddy_customer : Option BuddyCustomer
  registrations : Nat
  relayed : List (CallbackReq × String)
  sent : List (Bytes × Addr)
  locals : Locals

/-- A datagram from the socket, with the time and what the buddy registry and the registration task
are like when it is handled. -/
structure Received where
  data : Bytes
  addr : Addr
  now : ℚ
  can_serve : Bool
  tcp_port : Nat
  registering : Bool

def is_routable_ipv4 (ip : String) : Bool :=
  match (ip.splitOn ".").head?.bind String.toInt? with
  | some first_octet => first_octet ≠ 0 ∧ first_octet < 224
  | none => false

/-- `KadabraState.reward`. -/
def Spider.reward (spider : Spider) (key : Addr) (value : ℚ) : Spider :=
  { spider with weights := spider.weights.set key (min ((spider.weights.get key).getD 0 + value) 1000) }

section Receiver

variable (host : Host)

/-- `parse_kad_packet` and `zlib.decompress`, inside the `try`. -/
def open_packet (data : Bytes) : Option (UInt8 × UInt8 × Bytes) :=
  match parse_kad_packet data with
  | .ok (proto, op, payload) =>
    if proto = KAD_PROTOCOL_PACKED then (host.decompress payload).map fun payload => (proto, op, payload)
    else some (proto, op, payload)
  | .error _ => none

/-- The opcode and the payload of a datagram, and the key of the sender of an obfuscated one. -/
def decode_datagram (received : Received) : Option (UInt8 × Bytes × Option Nat) :=
  match open_packet host received.data with
  | none => none
  | some (proto, op, payload) =>
    if proto = KAD_PROTOCOL ∨ proto = KAD_PROTOCOL_PACKED then some (op, payload, none)
    else
      match decode_obfuscated_kad host.md5 host.arc4 received.data host.own.to_bytes none received.addr.1
          received.addr.2 with
      | none => none
      | some (packet, _, send_key) =>
        match open_packet host packet with
        | none => none
        | some (_, op, payload) => some (op, payload, some send_key)

namespace Spider

/-- The key of the sender is kept for a node of the pool. -/
def learn_key (spider : Spider) (key : Addr) (send_key : Option Nat) : Spider :=
  match spider.nodes.get key, send_key with
  | some record, some send_key =>
    if send_key ≠ 0 then
      { spider with nodes := spider.nodes.set key { record with udp_key := some (send_key % 2 ^ 32) } }
    else spider
  | _, _ => spider

def on_find_serving_buddy_req (spider : Spider) (received : Received) (payload : Bytes) : Spider :=
  let imported := { spider with
    locals := { spider.locals with KADEMLIA_FINDSERVINGBUDDY_RES := some KADEMLIA_FINDSERVINGBUDDY_RES } }
  match parse_find_serving_buddy_req payload with
  | .error _ => imported
  | .ok request =>
    if received.can_serve then
      { imported with
        sent := imported.sent ++ [([KAD_PROTOCOL, KADEMLIA_FINDSERVINGBUDDY_RES] ++
          build_find_serving_buddy_res request.served_id host.own.to_bytes received.tcp_port (some 0x83),
          received.addr)] }
    else imported

def on_callback_req (spider : Spider) (received : Received) (payload : Bytes) : Spider :=
  let imported := { spider with
    locals := { spider.locals with KADEMLIA_CALLBACK_REQ := some KADEMLIA_CALLBACK_REQ } }
  match parse_callback_req payload with
  | .error _ => imported
  | .ok request => { imported with relayed := imported.relayed ++ [(request, received.addr.1)] }

def on_find_serving_buddy_res (spider : Spider) (received : Received) (payload : Bytes) : Spider :=
  match spider.buddy_customer with
  | none => spider
  | some customer =>
    match customer.on_res payload received.addr.1 with
    | (customer, false) => { spider with buddy_customer := some customer }
    | (customer, true) =>
      { spider with
        buddy_customer := some customer
        registrations := spider.registrations + if received.registering then 0 else 1 }

def on_hello_res (spider : Spider) (received : Received) (payload : Bytes) : Spider :=
  let rewarded := spider.reward received.addr (1 / 2)
  match parse_hello_res payload with
  | .error _ => rewarded
  | .ok hello =>
    let record := (rewarded.nodes.get received.addr).getD ⟨"", 0, 0, 0, 0, 0, none, none, none⟩
    { rewarded with
      nodes := rewarded.nodes.set received.addr { record with
        kad_id := hex_lower hello.contact_id.to_bytes
        tcp := hello.tcp_port
        ver := hello.version
        hellos := record.hellos + 1
        last_seen := received.now
        fails := some 0 }
      hello_sent := rewarded.hello_sent.erase received.addr
      alive := rewarded.alive + if record.hellos + 1 = 1 then 1 else 0 }

def on_pong (spider : Spider) (received : Received) : Spider :=
  let rewarded := spider.reward received.addr (1 / 5)
  match rewarded.nodes.get received.addr with
  | none => rewarded
  | some record =>
    let ponged := { record with pings := record.pings + 1, last_seen := received.now, fails := some 0 }
    let popped := { rewarded with ping_sent := rewarded.ping_sent.erase received.addr }
    let sent_at := (rewarded.ping_sent.get received.addr).getD 0
    if sent_at ≠ 0 then
      let rtt := popped.rtt ++ [(received.addr, (received.now - sent_at) * 1000)]
      { popped with
        rtt := rtt
        nodes := popped.nodes.set received.addr { ponged with rtt_ewma := some (host.ewma rtt) } }
    else { popped with nodes := popped.nodes.set received.addr ponged }

/-- A contact of a `KADEMLIA2_BOOTSTRAP_RES` in the pool. -/
def add_contact (nodes : Dict Addr NodeRecord) (contact : KadNodeInfo) : Dict Addr NodeRecord :=
  if is_routable_ipv4 contact.ip then
    let record := (nodes.get contact.key).getD ⟨"", 0, 0, 0, 0, 0, none, none, none⟩
    nodes.set contact.key { record with
      kad_id := hex_lower contact.kad_id
      tcp := contact.tcp_port
      ver := contact.contact_version }
  else nodes

def on_bootstrap_res (spider : Spider) (received : Received) (payload : Bytes) : Spider :=
  let rewarded := spider.reward received.addr 2
  match parse_bootstrap_res payload with
  | .error _ => rewarded
  | .ok (_, contacts) => { rewarded with nodes := contacts.foldl add_contact rewarded.nodes }

/-- The opcodes that need no name of the receiver. -/
def on_kad2 (spider : Spider) (received : Received) (op : UInt8) (payload : Bytes) : Spider :=
  if op = KADEMLIA2_HELLO_RES then spider.on_hello_res received payload
  else if op = KADEMLIA2_PONG then spider.on_pong host received
  else if op = KADEMLIA2_BOOTSTRAP_RES then spider.on_bootstrap_res received payload
  else spider

/-- The opcode branches, with the exception that leaves the loop. -/
def dispatch (spider : Spider) (received : Received) (op : UInt8) (payload : Bytes) : Spider × Option Exc :=
  if op = KADEMLIA_FINDSERVINGBUDDY_REQ then (spider.on_find_serving_buddy_req host received payload, none)
  else
    match spider.locals.KADEMLIA_CALLBACK_REQ with
    | none => (spider, some .UnboundLocalError)
    | some callback_req =>
      if op = callback_req then (spider.on_callback_req received payload, none)
      else
        match spider.locals.KADEMLIA_FINDSERVINGBUDDY_RES with
        | none => (spider, some .UnboundLocalError)
        | some find_serving_buddy_res =>
          if op = find_serving_buddy_res then (spider.on_find_serving_buddy_res received payload, none)
          else (spider.on_kad2 host received op payload, none)

/-- One datagram. -/
def receive (spider : Spider) (received : Received) : Spider × Option Exc :=
  match decode_datagram host received with
  | none => (spider, none)
  | some (op, payload, send_key) =>
    (spider.learn_key received.addr send_key).dispatch host received op payload

/-- `receiver`: the loop over the datagrams, with the exception that ends it. -/
def receiver (spider : Spider) : List Received → Spider × Option Exc
  | [] => (spider, none)
  | received :: rest =>
    match spider.receive host received with
    | (spider, none) => receiver spider rest
    | (spider, some e) => (spider, some e)

end Spider

/-- The node pool shows a contact as the peer told it. -/
def Shows (nodes : Dict Addr NodeRecord) (received : Received) (hello : KadHelloInfo) : Prop :=
  ∃ record, nodes.get received.addr = some record ∧ record.kad_id = hex_lower hello.contact_id.to_bytes ∧
    record.tcp = hello.tcp_port ∧ record.ver = hello.version ∧ 0 < record.hellos ∧
    record.last_seen = received.now ∧ record.fails = some 0

/-- A datagram was handled: one that does not decode changes nothing, and a message that its parser
accepts is applied to the node pool. -/
structure Applied (before after : Spider) (received : Received) : Prop where
  undecodable : decode_datagram host received = none → after = before
  hello_res : ∀ payload send_key hello,
    decode_datagram host received = some (KADEMLIA2_HELLO_RES, payload, send_key) →
      parse_hello_res payload = .ok hello → Shows after.nodes received hello
  pong : ∀ payload send_key record,
    decode_datagram host received = some (KADEMLIA2_PONG, payload, send_key) →
      before.nodes.get received.addr = some record →
        ∃ ponged, after.nodes.get received.addr = some ponged ∧ ponged.pings = record.pings + 1 ∧
          ponged.last_seen = received.now ∧ ponged.fails = some 0
  bootstrap_res : ∀ payload send_key sender contacts,
    decode_datagram host received = some (KADEMLIA2_BOOTSTRAP_RES, payload, send_key) →
      parse_bootstrap_res payload = .ok (sender, contacts) →
        ∀ contact ∈ contacts, is_routable_ipv4 contact.ip → after.nodes.get contact.key ≠ none

/-- The loop handles each of the datagrams. -/
structure Survives (spider : Spider) (datagrams : List Received) : Prop where
  running : (spider.receiver host datagrams).2 = none
  applied : ∀ before received after, datagrams = before ++ received :: after →
    Applied host (spider.receiver host before).1 (spider.receiver host (before ++ [received])).1 received

section Proofs

variable {host} {spider : Spider} {received : Received}

theorem callback_req_find_serving_buddy_req (payload : Bytes) :
    (spider.on_find_serving_buddy_req host received payload).locals.KADEMLIA_CALLBACK_REQ =
      spider.locals.KADEMLIA_CALLBACK_REQ := by
  unfold Spider.on_find_serving_buddy_req
  cases parse_find_serving_buddy_req payload with
  | error e => rfl
  | ok request => cases received.can_serve <;> rfl

theorem locals_learn_key (key : Addr) (send_key : Option Nat) :
    (spider.learn_key key send_key).locals = spider.locals := by
  unfold Spider.learn_key
  split
  · split <;> rfl
  · rfl

/-- Where `KADEMLIA_CALLBACK_REQ` is not bound, the loop goes on exactly after a datagram that does not
decode or asks for a serving buddy, and leaves it unbound. -/
theorem receive_unbound (received : Received) (hunbound : spider.locals.KADEMLIA_CALLBACK_REQ = none) :
    ((spider.receive host received).2 = none ↔ ∀ op payload send_key,
      decode_datagram host received = some (op, payload, send_key) → op = KADEMLIA_FINDSERVINGBUDDY_REQ) ∧
    (spider.receive host received).1.locals.KADEMLIA_CALLBACK_REQ = none := by
  unfold Spider.receive
  cases hdecode : decode_datagram host received with
  | none => simp [hunbound]
  | some decoded =>
    obtain ⟨op, payload, send_key⟩ := decoded
    have hlocals : (spider.learn_key received.addr send_key).locals.KADEMLIA_CALLBACK_REQ = none := by
      rw [locals_learn_key, hunbound]
    simp only [Spider.dispatch]
    by_cases hop : op = KADEMLIA_FINDSERVINGBUDDY_REQ
    · rw [if_pos hop]
      refine ⟨⟨?_, fun _ => rfl⟩, ?_⟩
      · rintro - _ _ _ hsame
        cases hsame
        exact hop
      · rw [callback_req_find_serving_buddy_req, hlocals]
    · rw [if_neg hop, hlocals]
      refine ⟨⟨nofun, ?_⟩, hlocals⟩
      intro hall
      exact absurd (hall op payload send_key rfl) hop

theorem receiver_append (spider : Spider) (before after : List Received)
    (hrunning : (spider.receiver host before).2 = none) :
    spider.receiver host (before ++ after) = (spider.receiver host before).1.receiver host after := by
  induction before generalizing spider with
  | nil => rfl
  | cons received before ih =>
    rw [List.cons_append, Spider.receiver, Spider.receiver]
    rw [Spider.receiver] at hrunning
    cases hreceived : spider.receive host received with
    | mk next left =>
      rw [hreceived] at hrunning
      cases left with
      | none => exact ih next hrunning
      | some e => cases hrunning

/-- A run of the loop from a state in which `KADEMLIA_CALLBACK_REQ` is not bound. -/
theorem receiver_unbound (spider : Spider) (datagrams : List Received)
    (hunbound : spider.locals.KADEMLIA_CALLBACK_REQ = none) :
    ((spider.receiver host datagrams).2 = none ↔ ∀ received ∈ datagrams, ∀ op payload send_key,
      decode_datagram host received = some (op, payload, send_key) → op = KADEMLIA_FINDSERVINGBUDDY_REQ) ∧
    (spider.receiver host datagrams).1.locals.KADEMLIA_CALLBACK_REQ = none := by
  induction datagrams generalizing spider with
  | nil => exact ⟨⟨fun _ _ hmem => absurd hmem List.not_mem_nil, fun _ => rfl⟩, hunbound⟩
  | cons received datagrams ih =>
    obtain ⟨hstep, hnext⟩ := receive_unbound received hunbound
    rw [Spider.receiver, List.forall_mem_cons, ← hstep]
    cases hreceived : spider.receive host received with
    | mk next left =>
      rw [hreceived] at hnext
      obtain ⟨hrest, hlast⟩ := ih next hnext
      cases left with
      | none => exact ⟨⟨fun h => ⟨rfl, hrest.mp h⟩, fun h => hrest.mpr h.2⟩, hlast⟩
      | some e => exact ⟨⟨nofun, fun h => absurd h.1 nofun⟩, hnext⟩

theorem get_learn_key {record : NodeRecord} {key : Addr} (send_key : Option Nat)
    (hrecord : spider.nodes.get key = some record) :
    ∃ learned, (spider.learn_key key send_key).nodes.get key = some learned ∧ learned.pings = record.pings := by
  unfold Spider.learn_key
  rw [hrecord]
  cases send_key with
  | none => exact ⟨record, hrecord, rfl⟩
  | some send_key =>
    by_cases hzero : send_key = 0
    · simp only [hzero, ne_eq, not_true_eq_false, if_false]
      exact ⟨record, hrecord, rfl⟩
    · simp only [hzero, ne_eq, not_false_eq_true, if_true]
      exact ⟨_, Dict.get_set_self _ _ _, rfl⟩

theorem get_on_pong {record : NodeRecord} (hrecord : spider.nodes.get received.addr = some record) :
    ∃ ponged, (spider.on_pong host received).nodes.get received.addr = some ponged ∧
      ponged.pings = record.pings + 1 ∧ ponged.last_seen = received.now ∧ ponged.fails = some 0 := by
  have hrewarded : (spider.reward received.addr (1 / 5)).nodes.get received.addr = some record := hrecord
  simp only [Spider.on_pong, hrewarded]
  split
  · exact ⟨_, Dict.get_set_self _ _ _, rfl, rfl, rfl⟩
  · exact ⟨_, Dict.get_set_self _ _ _, rfl, rfl, rfl⟩

theorem get_add_contact {nodes : Dict Addr NodeRecord} {key : Addr} (contact : KadNodeInfo)
    (hkey : nodes.get key ≠ none ∨ (contact.key = key ∧ is_routable_ipv4 contact.ip = true)) :
    (Spider.add_contact nodes contact).get key ≠ none := by
  unfold Spider.add_contact
  by_cases hsame : key = contact.key
  · subst hsame
    split
    · simp
    · rename_i hroutable
      exact hkey.resolve_right fun h => hroutable h.2
  · have hpresent := hkey.resolve_right fun h => hsame h.1.symm
    split
    · rw [Dict.get_set_of_ne hsame]
      exact hpresent
    · exact hpresent

/-- Every routable contact is in the pool afterwards. -/
theorem get_add_contacts {contacts : List KadNodeInfo} {nodes : Dict Addr NodeRecord} {key : Addr}
    (hkey : nodes.get key ≠ none ∨ ∃ contact ∈ contacts, contact.key = key ∧ is_routable_ipv4 contact.ip = true) :
    (contacts.foldl Spider.add_contact nodes).get key ≠ none := by
  induction contacts generalizing nodes with
  | nil => exact hkey.resolve_right (by simp)
  | cons first contacts ih =>
    apply ih
    rcases hkey with hpresent | ⟨contact, hcontact, hsame⟩
    · exact .inl (get_add_contact first (.inl hpresent))
    · rcases List.mem_cons.mp hcontact with rfl | hrest
      · exact .inl (get_add_contact contact (.inr hsame))
      · exact .inr ⟨contact, hrest, hsame⟩

section Bound

variable (hbound : spider.locals = ⟨some KADEMLIA_CALLBACK_REQ, some KADEMLIA_FINDSERVINGBUDDY_RES⟩)

include hbound

theorem receive_kad2 {op : UInt8} {payload : Bytes} {send_key : Option Nat}
    (hdecode : decode_datagram host received = some (op, payload, send_key))
    (hop : op ≠ KADEMLIA_FINDSERVINGBUDDY_REQ ∧ op ≠ KADEMLIA_CALLBACK_REQ ∧ op ≠ KADEMLIA_FINDSERVINGBUDDY_RES) :
    (spider.receive host received).1 =
      (spider.learn_key received.addr send_key).on_kad2 host received op payload := by
  simp only [Spider.receive, hdecode, Spider.dispatch]
  rw [if_neg hop.1, locals_learn_key, hbound]
  simp only [if_neg hop.2.1, if_neg hop.2.2]

/-- Where the names are bound, every datagram is handled. -/
theorem applied_receive : Applied host spider (spider.receive host received).1 received := by
  constructor
  · intro hdecode
    simp only [Spider.receive, hdecode]
  · intro payload send_key hello hdecode hparse
    rw [receive_kad2 hbound hdecode (by decide)]
    simp only [Spider.on_kad2, if_pos, Spider.on_hello_res, hparse]
    exact ⟨_, Dict.get_set_self _ _ _, rfl, rfl, rfl, Nat.succ_pos _, rfl, rfl⟩
  · intro payload send_key record hdecode hrecord
    rw [receive_kad2 hbound hdecode (by decide), Spider.on_kad2, if_neg (by decide), if_pos rfl]
    obtain ⟨learned, hlearned, hpings⟩ := get_learn_key send_key hrecord
    rw [← hpings]
    exact get_on_pong hlearned
  · intro payload send_key sender contacts hdecode hparse contact hcontact hroutable
    rw [receive_kad2 hbound hdecode (by decide), Spider.on_kad2, if_neg (by decide), if_neg (by decide),
      if_pos rfl]
    simp only [Spider.on_bootstrap_res, hparse]
    exact get_add_contacts (.inr ⟨contact, hcontact, rfl, hroutable⟩)

end Bound

/-- From its start, the loop handles datagrams exactly where each one that decodes asks for a serving
buddy. -/
theorem receiver_survives_iff (host : Host) (spider : Spider) (hstart : spider.locals = ⟨none, none⟩)
    (datagrams : List Received) :
    Survives host spider datagrams ↔ ∀ received ∈ datagrams, ∀ op payload send_key,
      decode_datagram host received = some (op, payload, send_key) → op = KADEMLIA_FINDSERVINGBUDDY_REQ := by
  have hunbound : spider.locals.KADEMLIA_CALLBACK_REQ = none := by rw [hstart]
  constructor
  · intro h
    exact (receiver_unbound spider datagrams hunbound).1.mp h.running
  · intro hall
    refine ⟨(receiver_unbound spider datagrams hunbound).1.mpr hall, ?_⟩
    rintro before received after rfl
    have hbefore := (receiver_unbound spider before hunbound).1.mpr fun other hother =>
      hall other (List.mem_append_left _ hother)
    have hreceived := hall received (List.mem_append_right _ List.mem_cons_self)
    have hother : ∀ {op : UInt8} {payload : Bytes} {send_key : Option Nat} {P : Prop},
        op ≠ KADEMLIA_FINDSERVINGBUDDY_REQ → decode_datagram host received = some (op, payload, send_key) → P :=
      fun hop hdecode => absurd (hreceived _ _ _ hdecode) hop
    rw [receiver_append spider before [received] hbefore]
    constructor
    · intro hdecode
      simp only [Spider.receiver, Spider.receive, hdecode]
    · exact fun _ _ _ hdecode => hother (by decide) hdecode
    · exact fun _ _ _ hdecode => hother (by decide) hdecode
    · exact fun _ _ _ _ hdecode => hother (by decide) hdecode

end Proofs

end Receiver

section Samples

/-- A host without keystream and compression. -/
def sampleHost : Host :=
  ⟨⟨7, by decide⟩, fun _ => none, zeroHash 16, fun _ _ => 0, fun _ => 0⟩

/-- A spider with one node in its pool. -/
def sampleSpider : Spider where
  nodes := Dict.empty.set ("192.0.2.1", 4672) ⟨"", 0, 0, 0, 0, 0, none, none, none⟩
  weights := .empty
  hello_sent := .empty
  ping_sent := .empty
  alive := 0
  rtt := []
  buddy_customer := none
  registrations := 0
  relayed := []
  sent := []
  locals := ⟨none, none⟩

/-- A datagram from that node. -/
def sampleReceived (data : Bytes) : Received := ⟨data, ("192.0.2.1", 4672), 1, true, 4662, false⟩

/-- A request for a serving buddy and a datagram of one byte. -/
theorem receiver_survives_iff_buddy_req :
    Survives sampleHost sampleSpider [sampleReceived [0xE4, 0x51], sampleReceived [0xE4]] := by
  rw [receiver_survives_iff sampleHost sampleSpider rfl]
  intro received hreceived op payload send_key hdecode
  rcases List.mem_cons.mp hreceived with rfl | hrest
  · cases hdecode
    rfl
  · rw [List.mem_singleton.mp hrest] at hdecode
    cases hdecode

/-- A `KADEMLIA2_PONG` ends the loop. -/
theorem receiver_left_at_pong :
    ¬ ∀ (host : Host) (spider : Spider) (datagrams : List Received), spider.locals = ⟨none, none⟩ →
      Survives host spider datagrams := by
  intro hclaim
  have hrunning := (hclaim sampleHost sampleSpider [sampleReceived [0xE4, 0x61]] rfl).running
  have hleft : (sampleSpider.receiver sampleHost [sampleReceived [0xE4, 0x61]]).2 = some .UnboundLocalError := rfl
  rw [hleft] at hrunning
  cases hrunning

end Samples

end amuled.kad
