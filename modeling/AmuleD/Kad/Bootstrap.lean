import AmuleD.Kad.Spider
import AmuleD.OrderedDict
import AmuleD.Register

open register

namespace amuled.kad

/-- A datagram with the address that it came from. -/
structure BootstrapReply where
  data : Bytes
  addr : Addr

/-- The identifier of sixteen zeros. -/
def no_kad_id : Bytes := List.replicate 16 0

theorem length_no_kad_id : no_kad_id.length = 16 := List.length_replicate

/-- The node that is reported for an address. -/
def reported_node (kad_id : Bytes) (hlength : kad_id.length = 16) (addr : Addr) (tcp_port contact_version : Nat) :
    KadNodeInfo where
  kad_id := kad_id
  ip := addr.1
  udp_port := addr.2
  tcp_port := tcp_port
  contact_version := contact_version
  verified := false
  udp_key := 0
  length_kad_id := hlength

/-- A node whose KadID is zeros. -/
def KadNodeInfo.Blank (node : KadNodeInfo) : Prop := node.kad_id = no_kad_id

/-- What a packet enters for its sender, with the contacts in it. `node` is the queried node whose first reply it is;
without one the ports, the version and the KadID that the packet does not have are zeros. -/
def entered (node : Option KadNodeInfo) (addr : Addr) (opcode : UInt8) (payload : Bytes) :
    Option (KadNodeInfo × List KadNodeInfo) :=
  if opcode = KADEMLIA2_BOOTSTRAP_RES then
    match parse_bootstrap_res payload with
    | .error _ => none
    | .ok (sender_id, contacts) =>
      some (reported_node sender_id.to_bytes sender_id.length_to_bytes addr (node.elim 0 KadNodeInfo.tcp_port)
        (node.elim 0 KadNodeInfo.contact_version), contacts)
  else if opcode = KADEMLIA2_HELLO_RES then
    match parse_hello_res payload with
    | .error _ => none
    | .ok info =>
      some (reported_node info.contact_id.to_bytes info.contact_id.length_to_bytes addr info.tcp_port info.version, [])
  else if opcode = KADEMLIA2_PONG then
    match node with
    | some node => some (reported_node node.kad_id node.length_kad_id addr node.tcp_port node.contact_version, [])
    | none => some (reported_node no_kad_id length_no_kad_id addr 0 0, [])
  else none

/-- What `bootstrap_nodes` keeps while it receives. -/
structure Bootstrap where
  pending : OrderedDict Addr KadNodeInfo
  live_map : OrderedDict Addr KadNodeInfo

structure BootstrapResult where
  live_nodes : List KadNodeInfo
  queried : Nat
  failed : Nat

/-- The queried nodes by their addresses. -/
def queried_nodes (targets : List KadNodeInfo) : OrderedDict Addr KadNodeInfo :=
  targets.foldl (fun pending node => pending.set node.key node) .empty

section Receive

variable (decompress : Bytes → Option Bytes)

/-- The opcode and the payload of a datagram, whatever its protocol is. -/
def packet_of (data : Bytes) : Option (UInt8 × Bytes) :=
  match parse_kad_packet data with
  | .error _ => none
  | .ok (protocol, opcode, payload) =>
    if protocol = KAD_PROTOCOL_PACKED then (decompress payload).map fun payload => (opcode, payload)
    else some (opcode, payload)

/-- What `bootstrap_nodes` does with a datagram. Its first packet takes a queried node off the pending ones. -/
def Bootstrap.receive (self : Bootstrap) (reply : BootstrapReply) : Bootstrap :=
  match packet_of decompress reply.data with
  | none => self
  | some (opcode, payload) =>
    let pending := self.pending.erase reply.addr
    match entered (self.pending.get reply.addr) reply.addr opcode payload with
    | none => { self with pending }
    | some (node, contacts) =>
      { pending
        live_map := contacts.foldl (fun live c => live.setDefault c.key c) (self.live_map.set reply.addr node) }

def Bootstrap.receive_all (targets : List KadNodeInfo) (replies : List BootstrapReply) : Bootstrap :=
  replies.foldl (Bootstrap.receive decompress) ⟨queried_nodes targets, .empty⟩

/-- `bootstrap_nodes`, with the datagrams that arrive in time. -/
def bootstrap_nodes (targets : List KadNodeInfo) (replies : List BootstrapReply) : BootstrapResult :=
  if targets = [] then ⟨[], 0, 0⟩
  else
    let state := Bootstrap.receive_all decompress targets replies
    ⟨state.live_map.values, targets.length, state.pending.keys.length⟩

/-- The contact in a `KADEMLIA2_HELLO_RES`. -/
def hello_of (data : Bytes) : Option KadHelloInfo :=
  match packet_of decompress data with
  | none => none
  | some (opcode, payload) =>
    if opcode = KADEMLIA2_HELLO_RES then (parse_hello_res payload).toOption else none

/-- What a datagram does to the entry of an address, whose first reply is that of the queried node. -/
def entry_event (node : Option KadNodeInfo) (addr : Addr) (reply : BootstrapReply) : Option (Event KadNodeInfo) :=
  match packet_of decompress reply.data with
  | none => none
  | some (opcode, payload) =>
    if reply.addr = addr then
      match entered node addr opcode payload, entered none addr opcode payload with
      | some (first, _), some (later, _) => some (.own first later)
      | _, _ => some .pass
    else
      match entered none reply.addr opcode payload with
      | none => none
      | some (_, contacts) => (contacts.find? fun c => c.key = addr).map .offer

/-- The KadID that is known for an address: that of the entry, else that of the queried node. -/
def known_kad_id (targets : List KadNodeInfo) (replies : List BootstrapReply) (addr : Addr) : Option Bytes :=
  match (Bootstrap.receive_all decompress targets replies).live_map.get addr with
  | some node => some node.kad_id
  | none => ((queried_nodes targets).get addr).map KadNodeInfo.kad_id

def KnownId (targets : List KadNodeInfo) (replies : List BootstrapReply) (addr : Addr) : Prop :=
  ∃ kad_id, known_kad_id decompress targets replies addr = some kad_id ∧ kad_id ≠ no_kad_id

/-- The result does not depend on the order in which the datagrams arrive: the same nodes are reported, a node that
answered with a `KADEMLIA2_HELLO_RES` as it says there, and no known KadID is replaced by zeros. Without queried nodes
nothing is received. -/
structure OrderIndependent (targets : List KadNodeInfo) (replies : List BootstrapReply) : Prop where
  live_nodes : ∀ arrived : List BootstrapReply, arrived.Perm replies →
    (bootstrap_nodes decompress targets arrived).live_nodes.Perm (bootstrap_nodes decompress targets replies).live_nodes
  hello : targets ≠ [] → ∀ arrived : List BootstrapReply, arrived.Perm replies → ∀ reply ∈ replies, ∀ info,
    hello_of decompress reply.data = some info → ∃ node ∈ (bootstrap_nodes decompress targets arrived).live_nodes,
      node.key = reply.addr ∧ node.kad_id = info.contact_id.to_bytes ∧ node.tcp_port = info.tcp_port ∧
        node.contact_version = info.version
  known : targets ≠ [] → ∀ front reply rest, (front ++ reply :: rest).Perm replies → ∀ addr,
    KnownId decompress targets front addr → KnownId decompress targets (front ++ [reply]) addr

/-- The address is that of a queried node whose KadID is known. -/
def QueriedId (targets : List KadNodeInfo) (addr : Addr) : Prop :=
  ∃ node, (queried_nodes targets).get addr = some node ∧ ¬ node.Blank

/-- The datagrams as they concern an address. -/
def entry_events (targets : List KadNodeInfo) (replies : List BootstrapReply) (addr : Addr) :
    List (Event KadNodeInfo) :=
  replies.filterMap (entry_event decompress ((queried_nodes targets).get addr) addr)

/-- Neither two replies nor two offers contradict each other at any address, nor does a reply that is the first or a
later one; and nothing enters zeros where a KadID is known. -/
structure Uncontradicted (targets : List KadNodeInfo) (replies : List BootstrapReply) (addr : Addr) : Prop where
  agree : Agree ((queried_nodes targets).get addr).isSome (entry_events decompress targets replies addr)
  unblanked : Unblanked ((queried_nodes targets).get addr).isSome (QueriedId targets addr) KadNodeInfo.Blank
    (entry_events decompress targets replies addr)

end Receive

section Bootstrap

variable {decompress : Bytes → Option Bytes} {targets : List KadNodeInfo} {replies : List BootstrapReply} {addr : Addr}

/-- A packet enters the same contacts and a node of the same address whether or not a queried node is given; a KadID that
differs is that of the queried node, in place of zeros. -/
theorem entered_cases (node : Option KadNodeInfo) (addr : Addr) (opcode : UInt8) (payload : Bytes) :
    entered node addr opcode payload = none ∧ entered none addr opcode payload = none ∨
      ∃ first later contacts, entered node addr opcode payload = some (first, contacts) ∧
        entered none addr opcode payload = some (later, contacts) ∧ first.key = addr ∧ later.key = addr ∧
        (first.kad_id = later.kad_id ∨
          later.Blank ∧ ∃ queried, node = some queried ∧ first.kad_id = queried.kad_id) := by
  unfold entered
  by_cases hbootstrap : opcode = KADEMLIA2_BOOTSTRAP_RES
  · rw [if_pos hbootstrap, if_pos hbootstrap]
    cases parse_bootstrap_res payload with
    | error _ => exact .inl ⟨rfl, rfl⟩
    | ok parsed => exact .inr ⟨_, _, _, rfl, rfl, rfl, rfl, .inl rfl⟩
  · rw [if_neg hbootstrap, if_neg hbootstrap]
    by_cases hhello : opcode = KADEMLIA2_HELLO_RES
    · rw [if_pos hhello, if_pos hhello]
      cases parse_hello_res payload with
      | error _ => exact .inl ⟨rfl, rfl⟩
      | ok info => exact .inr ⟨_, _, _, rfl, rfl, rfl, rfl, .inl rfl⟩
    · rw [if_neg hhello, if_neg hhello]
      by_cases hpong : opcode = KADEMLIA2_PONG
      · rw [if_pos hpong, if_pos hpong]
        cases node with
        | none => exact .inr ⟨_, _, _, rfl, rfl, rfl, rfl, .inl rfl⟩
        | some queried => exact .inr ⟨_, _, _, rfl, rfl, rfl, rfl, .inr ⟨rfl, queried, rfl, rfl⟩⟩
      · rw [if_neg hpong, if_neg hpong]
        exact .inl ⟨rfl, rfl⟩

/-- The entry of an address, and whether its next reply is the first. -/
def Bootstrap.cell (self : Bootstrap) (addr : Addr) : Register KadNodeInfo :=
  ⟨(self.pending.get addr).isSome, self.live_map.get addr⟩

/-- What a datagram does to an entry. The queried node does not change while it is pending. -/
theorem cell_receive {state : Bootstrap} {node : Option KadNodeInfo} (reply : BootstrapReply)
    (hpending : state.pending.get addr = none ∨ state.pending.get addr = node) :
    (state.receive decompress reply).cell addr =
      ((entry_event decompress node addr reply).map (state.cell addr).step).getD (state.cell addr) := by
  rw [Bootstrap.receive, entry_event]
  cases hpacket : packet_of decompress reply.data with
  | none => rfl
  | some packet =>
    obtain ⟨opcode, payload⟩ := packet
    by_cases haddr : reply.addr = addr
    · subst haddr
      have hgone : (state.pending.erase reply.addr).get reply.addr = none := by
        rw [OrderedDict.get_erase, if_pos rfl]
      simp only [if_pos]
      rcases entered_cases node reply.addr opcode payload with ⟨hnone, hlaterNone⟩ |
        ⟨first, later, contacts, hfirst, hlater, -⟩
      · have hfound : entered (state.pending.get reply.addr) reply.addr opcode payload = none := by
          rcases hpending with hpending | hpending
          · rw [hpending, hlaterNone]
          · rw [hpending, hnone]
        simp only [hfound, hnone, Option.map_some, Option.getD_some, Register.step, Bootstrap.cell, hgone,
          Option.isSome_none]
      · have hfound : entered (state.pending.get reply.addr) reply.addr opcode payload =
            some (if (state.pending.get reply.addr).isSome then first else later, contacts) := by
          cases hget : state.pending.get reply.addr with
          | none => exact hlater
          | some queried =>
            rw [hget] at hpending
            rw [hpending.resolve_left (Option.some_ne_none queried), hfirst,
              ← hpending.resolve_left (Option.some_ne_none queried), Option.isSome_some, if_pos rfl]
        simp only [hfound, hfirst, hlater, Option.map_some, Option.getD_some, Register.step, Bootstrap.cell, hgone,
          Option.isSome_none, OrderedDict.get_setDefaults, OrderedDict.get_set, if_pos, Option.some_or]
    · have hkept : (state.pending.erase reply.addr).get addr = state.pending.get addr := by
        rw [OrderedDict.get_erase, if_neg (Ne.symm haddr)]
      simp only [if_neg haddr]
      rcases entered_cases (state.pending.get reply.addr) reply.addr opcode payload with ⟨hnone, hlaterNone⟩ |
        ⟨first, later, contacts, hfirst, hlater, -⟩
      · simp only [hnone, hlaterNone, Option.map_none, Option.getD_none, Bootstrap.cell, hkept]
      · simp only [hfirst, hlater, Bootstrap.cell, hkept, OrderedDict.get_setDefaults, OrderedDict.get_set,
          if_neg (Ne.symm haddr)]
        cases hfind : contacts.find? fun c => c.key = addr with
        | none => simp
        | some contact =>
          cases state.live_map.get addr with
          | none => rfl
          | some held => rfl

theorem pending_receive (state : Bootstrap) (reply : BootstrapReply) :
    ((state.receive decompress reply).pending.get addr = none) ∨
      (state.receive decompress reply).pending.get addr = state.pending.get addr := by
  have herase : (state.pending.erase reply.addr).get addr = none ∨
      (state.pending.erase reply.addr).get addr = state.pending.get addr := by
    rw [OrderedDict.get_erase]
    by_cases haddr : addr = reply.addr
    · exact .inl (if_pos haddr)
    · exact .inr (if_neg haddr)
  rw [Bootstrap.receive]
  cases packet_of decompress reply.data with
  | none => exact .inr rfl
  | some packet =>
    obtain ⟨opcode, payload⟩ := packet
    cases hentered : entered (state.pending.get reply.addr) reply.addr opcode payload with
    | none =>
      simp only [hentered]
      exact herase
    | some found =>
      simp only [hentered]
      exact herase

/-- The entry of an address is a register, which the datagrams reach as they concern the address. -/
theorem cell_receive_all (targets : List KadNodeInfo) (replies : List BootstrapReply) (addr : Addr) :
    (Bootstrap.receive_all decompress targets replies).cell addr =
      (Register.mk ((queried_nodes targets).get addr).isSome none).run (entry_events decompress targets replies addr) := by
  have hrun : ∀ (state : Bootstrap) (node : Option KadNodeInfo),
      state.pending.get addr = none ∨ state.pending.get addr = node →
      (replies.foldl (Bootstrap.receive decompress) state).cell addr =
        (state.cell addr).run (replies.filterMap (entry_event decompress node addr)) := by
    induction replies with
    | nil => exact fun state node _ => rfl
    | cons reply replies ih =>
      intro state node hpending
      have hnext : (state.receive decompress reply).pending.get addr = none ∨
          (state.receive decompress reply).pending.get addr = node := by
        rcases pending_receive state reply with hgone | hkept
        · exact .inl hgone
        · rw [hkept]
          exact hpending
      rw [List.foldl_cons, ih _ node hnext, cell_receive reply hpending, List.filterMap_cons]
      cases entry_event decompress node addr reply with
      | none => rfl
      | some event => rfl
  exact hrun ⟨queried_nodes targets, .empty⟩ _ (.inr rfl)

theorem entry_event_cases {node : Option KadNodeInfo} {reply : BootstrapReply} {event : Event KadNodeInfo}
    (hevent : entry_event decompress node addr reply = some event) :
    event = .pass ∨ (∃ contact, event = .offer contact ∧ contact.key = addr) ∨
      ∃ first later, event = .own first later ∧ first.key = addr ∧ later.key = addr ∧
        (first.kad_id = later.kad_id ∨
          later.Blank ∧ ∃ queried, node = some queried ∧ first.kad_id = queried.kad_id) := by
  rw [entry_event] at hevent
  cases hpacket : packet_of decompress reply.data with
  | none =>
    rw [hpacket] at hevent
    cases hevent
  | some packet =>
    obtain ⟨opcode, payload⟩ := packet
    simp only [hpacket] at hevent
    by_cases haddr : reply.addr = addr
    · subst haddr
      rw [if_pos rfl] at hevent
      rcases entered_cases node reply.addr opcode payload with ⟨hnone, -⟩ |
        ⟨first, later, contacts, hfirst, hlater, hfacts⟩
      · simp only [hnone] at hevent
        exact .inl (Option.some.inj hevent).symm
      · simp only [hfirst, hlater] at hevent
        exact .inr (.inr ⟨first, later, (Option.some.inj hevent).symm, hfacts⟩)
    · rw [if_neg haddr] at hevent
      cases hentered : entered none reply.addr opcode payload with
      | none =>
        rw [hentered] at hevent
        cases hevent
      | some found =>
        rw [hentered, Option.map_eq_some_iff] at hevent
        obtain ⟨contact, hfind, rfl⟩ := hevent
        have hkey : contact.key = addr := by simpa using List.find?_some hfind
        exact .inr (.inl ⟨contact, rfl, hkey⟩)

theorem event_of_mem {event : Event KadNodeInfo} (hevent : event ∈ entry_events decompress targets replies addr) :
    ∃ reply ∈ replies, entry_event decompress ((queried_nodes targets).get addr) addr reply = some event :=
  List.mem_filterMap.mp hevent

theorem get_live_map (targets : List KadNodeInfo) (replies : List BootstrapReply) (addr : Addr) :
    (Bootstrap.receive_all decompress targets replies).live_map.get addr =
      ((Register.mk ((queried_nodes targets).get addr).isSome none).run
        (entry_events decompress targets replies addr)).value :=
  congrArg Register.value (cell_receive_all targets replies addr)

/-- An address is reported with a node of its own. -/
theorem key_of_get_live_map {node : KadNodeInfo}
    (hget : (Bootstrap.receive_all decompress targets replies).live_map.get addr = some node) : node.key = addr := by
  rw [get_live_map] at hget
  rcases Register.mem_of_value_run rfl hget with hoffer | ⟨first, later, hown, hsame⟩
  · obtain ⟨reply, _, hevent⟩ := event_of_mem hoffer
    rcases entry_event_cases hevent with hpass | ⟨contact, hcontact, hkey⟩ | ⟨_, _, hother, _⟩
    · cases hpass
    · cases hcontact
      exact hkey
    · cases hother
  · obtain ⟨reply, _, hevent⟩ := event_of_mem hown
    rcases entry_event_cases hevent with hpass | ⟨_, hcontact, _⟩ | ⟨first', later', hother, hfirst, hlater, _⟩
    · cases hpass
    · cases hcontact
    · cases hother
      rcases hsame with rfl | rfl
      · exact hfirst
      · exact hlater

theorem live_nodes_eq (htargets : targets ≠ []) : (bootstrap_nodes decompress targets replies).live_nodes =
    (Bootstrap.receive_all decompress targets replies).live_map.values := by
  rw [bootstrap_nodes, if_neg htargets]

theorem mem_live_nodes_iff (htargets : targets ≠ []) {node : KadNodeInfo} :
    node ∈ (bootstrap_nodes decompress targets replies).live_nodes ↔
      (Bootstrap.receive_all decompress targets replies).live_map.get node.key = some node := by
  rw [live_nodes_eq htargets, OrderedDict.values, List.mem_map]
  constructor
  · rintro ⟨⟨key, value⟩, hentry, rfl⟩
    have hget := OrderedDict.get_of_mem hentry
    rwa [← key_of_get_live_map hget] at hget
  · intro hget
    exact ⟨_, OrderedDict.mem_of_get hget, rfl⟩

theorem live_nodes_perm_iff (htargets : targets ≠ []) :
    (∀ arrived : List BootstrapReply, arrived.Perm replies → (bootstrap_nodes decompress targets arrived).live_nodes.Perm
      (bootstrap_nodes decompress targets replies).live_nodes) ↔
      ∀ addr, OrderFree ((queried_nodes targets).get addr).isSome (entry_events decompress targets replies addr) := by
  constructor
  · intro hperm addr arranged harranged
    obtain ⟨arrived, harrived, hmap⟩ := exists_perm_filterMap _ harranged
    have hget : ∀ node, (Bootstrap.receive_all decompress targets arrived).live_map.get addr = some node ↔
        (Bootstrap.receive_all decompress targets replies).live_map.get addr = some node := by
      intro node
      have hmem := (hperm arrived harrived).mem_iff (a := node)
      rw [mem_live_nodes_iff htargets, mem_live_nodes_iff htargets] at hmem
      constructor
      · intro h
        have hkey := key_of_get_live_map h
        rw [hkey] at hmem
        exact hmem.mp h
      · intro h
        have hkey := key_of_get_live_map h
        rw [hkey] at hmem
        exact hmem.mpr h
    have hsame := Option.ext hget
    rw [get_live_map, get_live_map, entry_events, hmap] at hsame
    exact hsame
  · intro hfree arrived harrived
    rw [live_nodes_eq htargets, live_nodes_eq htargets]
    apply OrderedDict.values_perm
    intro addr
    rw [get_live_map, get_live_map]
    exact hfree addr _ (harrived.filterMap _)

theorem knownId_iff : KnownId decompress targets replies addr ↔
    Telling (QueriedId targets addr) KadNodeInfo.Blank
      ((Register.mk ((queried_nodes targets).get addr).isSome none).run
        (entry_events decompress targets replies addr)).value := by
  rw [KnownId, known_kad_id, ← get_live_map]
  cases (Bootstrap.receive_all decompress targets replies).live_map.get addr with
  | some node =>
    constructor
    · rintro ⟨_, hsome, hne⟩
      cases hsome
      exact hne
    · exact fun hne => ⟨node.kad_id, rfl, hne⟩
  | none =>
    constructor
    · rintro ⟨_, hsome, hne⟩
      obtain ⟨node, hget, rfl⟩ := Option.map_eq_some_iff.mp hsome
      exact ⟨node, hget, hne⟩
    · rintro ⟨node, hget, hne⟩
      exact ⟨node.kad_id, Option.map_eq_some_iff.mpr ⟨node, hget, rfl⟩, hne⟩

theorem entry_events_append (front rest : List BootstrapReply) :
    entry_events decompress targets (front ++ rest) addr =
      entry_events decompress targets front addr ++ entry_events decompress targets rest addr :=
  List.filterMap_append

theorem known_kept_iff :
    (∀ front reply rest, (front ++ reply :: rest).Perm replies → ∀ addr,
      KnownId decompress targets front addr → KnownId decompress targets (front ++ [reply]) addr) ↔
      ∀ addr, Steady ((queried_nodes targets).get addr).isSome (QueriedId targets addr) KadNodeInfo.Blank
        (entry_events decompress targets replies addr) := by
  simp only [knownId_iff]
  constructor
  · intro hkept addr front event rest hperm hshown
    obtain ⟨arrived, harrived, hmap⟩ := exists_perm_filterMap _ hperm
    obtain ⟨early, late, rfl, hearly, hlate⟩ := List.filterMap_eq_append_iff.mp hmap
    obtain ⟨skipped, reply, later, rfl, hskipped, hreply, hlater⟩ := List.filterMap_eq_cons_iff.mp hlate
    have hfront : entry_events decompress targets (early ++ skipped) addr = front := by
      have hnothing : skipped.filterMap
          (entry_event decompress ((queried_nodes targets).get addr) addr) = [] :=
        List.filterMap_eq_nil_iff.mpr hskipped
      rw [entry_events, List.filterMap_append, hearly, hnothing, List.append_nil]
    have hone : entry_events decompress targets [reply] addr = [event] := by
      rw [entry_events, List.filterMap_cons_some hreply]
      rfl
    have harrived' : ((early ++ skipped) ++ reply :: later).Perm replies := by
      rwa [List.append_assoc]
    have hlast : entry_events decompress targets ((early ++ skipped) ++ [reply]) addr = front ++ [event] := by
      rw [entry_events_append, hfront, hone]
    have hnext := hkept (early ++ skipped) reply later harrived' addr
    rw [hfront, hlast] at hnext
    exact hnext hshown
  · intro hsteady front reply rest hperm addr hshown
    rw [entry_events_append]
    cases hevent : entry_event decompress ((queried_nodes targets).get addr) addr reply with
    | none =>
      have hnothing : entry_events decompress targets [reply] addr = [] := by
        rw [entry_events, List.filterMap_cons_none hevent]
        rfl
      rwa [hnothing, List.append_nil]
    | some event =>
      have hone : entry_events decompress targets [reply] addr = [event] := by
        rw [entry_events, List.filterMap_cons_some hevent]
        rfl
      have hevents := hperm.filterMap (entry_event decompress ((queried_nodes targets).get addr) addr)
      rw [List.filterMap_append, List.filterMap_cons_some hevent] at hevents
      rw [hone]
      exact hsteady addr _ event _ hevents hshown

/-- A first reply is blank only with a later one, and a later one only with a first, or a PONG of a known node. -/
theorem faithful_entry_events :
    Faithful (QueriedId targets addr) KadNodeInfo.Blank (entry_events decompress targets replies addr) := by
  intro first later hown
  obtain ⟨reply, _, hevent⟩ := event_of_mem hown
  rcases entry_event_cases hevent with hpass | ⟨_, hcontact, _⟩ | ⟨first', later', hother, _, _, hids⟩
  · cases hpass
  · cases hcontact
  · cases hother
    rcases hids with hsame | ⟨hblank, queried, hqueried, hid⟩
    · have hiff : first.Blank ↔ later.Blank := by rw [KadNodeInfo.Blank, KadNodeInfo.Blank, hsame]
      exact ⟨hiff.mp, fun h => .inl (hiff.mpr h)⟩
    · refine ⟨fun _ => hblank, fun _ => ?_⟩
      by_cases hfirst : first.Blank
      · exact .inl hfirst
      · refine .inr ⟨queried, hqueried, ?_⟩
        rwa [KadNodeInfo.Blank, ← hid]

/-- A `KADEMLIA2_HELLO_RES` enters the same node, whichever reply it is. -/
theorem entry_event_hello {reply : BootstrapReply} {info : KadHelloInfo}
    (hhello : hello_of decompress reply.data = some info) (node : Option KadNodeInfo) :
    entry_event decompress node reply.addr reply =
      some (.own
        (reported_node info.contact_id.to_bytes info.contact_id.length_to_bytes reply.addr info.tcp_port info.version)
        (reported_node info.contact_id.to_bytes info.contact_id.length_to_bytes reply.addr info.tcp_port info.version)) := by
  rw [hello_of] at hhello
  cases hpacket : packet_of decompress reply.data with
  | none =>
    rw [hpacket] at hhello
    cases hhello
  | some packet =>
    obtain ⟨opcode, payload⟩ := packet
    rw [hpacket] at hhello
    simp only at hhello
    by_cases hopcode : opcode = KADEMLIA2_HELLO_RES
    · rw [if_pos hopcode] at hhello
      have hnot : ¬ KADEMLIA2_HELLO_RES = KADEMLIA2_BOOTSTRAP_RES := by decide
      cases hparse : parse_hello_res payload with
      | error _ =>
        rw [hparse] at hhello
        cases hhello
      | ok found =>
        rw [hparse] at hhello
        cases hhello
        simp only [entry_event, hpacket, entered, hopcode, if_neg hnot, hparse, if_pos]
    · rw [if_neg hopcode] at hhello
      cases hhello

/-- The result does not depend on the order exactly where the datagrams do not contradict each other at any address. -/
theorem orderIndependent_iff (decompress : Bytes → Option Bytes) (targets : List KadNodeInfo)
    (replies : List BootstrapReply) : OrderIndependent decompress targets replies ↔
      (targets ≠ [] → ∀ addr, Uncontradicted decompress targets replies addr) := by
  constructor
  · intro h htargets addr
    have hfree := (live_nodes_perm_iff htargets).mp h.live_nodes addr
    exact ⟨hfree.agree, (known_kept_iff.mp (h.known htargets) addr).unblanked⟩
  · intro h
    refine ⟨?_, ?_, ?_⟩
    · by_cases htargets : targets = []
      · intro arrived _
        rw [bootstrap_nodes, if_pos htargets, bootstrap_nodes, if_pos htargets]
      · exact (live_nodes_perm_iff htargets).mpr fun addr => (h htargets addr).agree.orderFree
    · intro htargets arrived harrived reply hreply info hhello
      have hevent := entry_event_hello hhello ((queried_nodes targets).get reply.addr)
      have hown := List.mem_filterMap.mpr ⟨reply, hreply, hevent⟩
      have hvalue := (h htargets reply.addr).agree.value_run (harrived.filterMap _) hown
      rw [lasting, ite_self] at hvalue
      refine ⟨reported_node info.contact_id.to_bytes info.contact_id.length_to_bytes reply.addr info.tcp_port
        info.version, (mem_live_nodes_iff htargets).mpr ?_, rfl, rfl, rfl, rfl⟩
      rw [get_live_map]
      exact hvalue
    · intro htargets
      exact known_kept_iff.mpr fun addr =>
        (h htargets addr).unblanked.steady (h htargets addr).agree faithful_entry_events

theorem length_queried_kad_id : (List.replicate 16 (1 : UInt8)).length = 16 := List.length_replicate

/-- A queried node, with the two datagrams that it answers with: the KADEMLIA2_HELLO_RES of its own TCP port and version,
and the KADEMLIA2_PONG. -/
def sampleQueried : KadNodeInfo :=
  reported_node (List.replicate 16 1) length_queried_kad_id ("192.0.2.7", 4672) 4662 8

def sampleHello : BootstrapReply where
  data := [0xE4, 0x19] ++ List.replicate 16 1 ++ [0x36, 0x12, 9, 0]
  addr := ("192.0.2.7", 4672)

def samplePong : BootstrapReply where
  data := [0xE4, 0x61, 0x40, 0x12]
  addr := ("192.0.2.7", 4672)

/-- The PONG that comes behind the KADEMLIA2_HELLO_RES replaces all that is known of the node by zeros. -/
theorem sampleQueried_zeroed :
    (bootstrap_nodes some [sampleQueried] [sampleHello, samplePong]).live_nodes.map
        (fun node => (node.kad_id, node.tcp_port, node.contact_version)) = [(no_kad_id, 0, 0)] ∧
      (bootstrap_nodes some [sampleQueried] [samplePong, sampleHello]).live_nodes.map
        (fun node => (node.kad_id, node.tcp_port, node.contact_version)) = [(List.replicate 16 1, 4662, 9)] ∧
      ¬ OrderIndependent some [sampleQueried] [sampleHello, samplePong] := by
  have hzeroed : (bootstrap_nodes some [sampleQueried] [sampleHello, samplePong]).live_nodes.map
      (fun node => (node.kad_id, node.tcp_port, node.contact_version)) = [(no_kad_id, 0, 0)] := by
    decide +kernel
  have hreported : (bootstrap_nodes some [sampleQueried] [samplePong, sampleHello]).live_nodes.map
      (fun node => (node.kad_id, node.tcp_port, node.contact_version)) = [(List.replicate 16 1, 4662, 9)] := by
    decide +kernel
  refine ⟨hzeroed, hreported, ?_⟩
  intro h
  have hsame := (h.live_nodes [samplePong, sampleHello] (List.Perm.swap _ _ _)).map
    (fun node => (node.kad_id, node.tcp_port, node.contact_version))
  rw [hzeroed, hreported, List.singleton_perm_singleton] at hsame
  have hport := congrArg (fun entry => entry.2.1) hsame
  cases hport

end Bootstrap

end amuled.kad
