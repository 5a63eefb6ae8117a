import AmuleD.Kad.Search

open sorting

namespace amuled.kad

open Lookup

/-- The contacts of a `KADEMLIA2_RES` are balanced. -/
def SearchTurn.Balanced (host : Host) (turn : SearchTurn) : Prop :=
  ∀ node ∈ turn.contacts host, kad.Balanced (.raw node.kad_id node.length_kad_id)

/-- The candidates are stored, told apart and ranked by the metric of the routing table: a turn asks the
nearest ones, in order. -/
structure UsesMetric (target : KadUInt128) (lookup : Lookup) : Prop where
  possible : ∀ entry ∈ lookup.possible.entries, entry.1 = metric target entry.2.kad_id
  tried_entry : ∀ entry ∈ lookup.tried_entry.entries, entry.1 = metric target entry.2.1
  once : ∀ entry ∈ lookup.possible.entries, ∀ other ∈ lookup.possible.entries,
    entry.2.kad_id = other.2.kad_id → entry = other
  ascending : lookup.to_ask.Pairwise fun near far => metric target near.2.kad_id < metric target far.2.kad_id
  nearest : ∀ near ∈ lookup.to_ask, ∀ far ∈ lookup.possible.entries, far ∉ lookup.to_ask →
    metric target near.2.kad_id < metric target far.2.kad_id

/-- What a datagram makes possible is nearer to the target than the node that was asked at its address. -/
def FollowsCloser (target : KadUInt128) (addr : Addr) (before after : Lookup) : Prop :=
  ∀ entry ∈ after.possible.entries, entry ∉ before.possible.entries →
    ∃ responder, after.addr_to_dist.get addr = some (metric target responder) ∧
      (metric target responder, responder, addr) ∈ after.tried_entry.entries ∧
      metric target entry.2.kad_id < metric target responder

/-- The invariant of the loop. -/
structure Sound (target : KadUInt128) (lookup : Lookup) : Prop where
  possible : ∀ entry ∈ lookup.possible.entries, entry.1 = metric target entry.2.kad_id
  tried_entry : ∀ entry ∈ lookup.tried_entry.entries, entry.1 = metric target entry.2.1
  addr_to_dist : ∀ entry ∈ lookup.addr_to_dist.entries, ∃ id, (entry.2, id, entry.1) ∈ lookup.tried_entry.entries
  tried : ∀ entry ∈ lookup.tried_entry.entries, entry.1 ∈ lookup.tried.keys
  fresh : ∀ entry ∈ lookup.possible.entries, entry.1 ∉ lookup.tried.keys
  seeds : ∀ node ∈ lookup.seeds, Balanced node.kad_id

/-- The variables that the invariant is about. -/
def Lookup.maps (lookup : Lookup) :=
  (lookup.possible, lookup.tried, lookup.tried_entry, lookup.addr_to_dist, lookup.seeds)

variable {target : KadUInt128} {lookup : Lookup}

theorem Sound.of_maps {next : Lookup} (h : Sound target lookup) (hmaps : next.maps = lookup.maps) :
    Sound target next := by
  simp only [maps, Prod.mk.injEq] at hmaps
  obtain ⟨hpossible, htried, htried_entry, haddr, hseeds⟩ := hmaps
  constructor
  · rw [hpossible]
    exact h.possible
  · rw [htried_entry]
    exact h.tried_entry
  · rw [haddr, htried_entry]
    exact h.addr_to_dist
  · rw [htried_entry, htried]
    exact h.tried
  · rw [hpossible, htried]
    exact h.fresh
  · rw [hseeds]
    exact h.seeds

/-- A new candidate under its distance. -/
theorem Sound.set_possible (h : Sound target lookup) {d : Nat} {candidate : Candidate}
    (hdist : d = metric target candidate.kad_id) (hfresh : d ∉ lookup.tried.keys) :
    Sound target { lookup with possible := lookup.possible.set d candidate } where
  possible := by
    intro entry hentry
    rcases OrderedDict.mem_set.mp hentry with rfl | ⟨_, hold⟩
    · exact hdist
    · exact h.possible entry hold
  tried_entry := h.tried_entry
  addr_to_dist := h.addr_to_dist
  tried := h.tried
  fresh := by
    intro entry hentry
    rcases OrderedDict.mem_set.mp hentry with rfl | ⟨_, hold⟩
    · exact hfresh
    · exact h.fresh entry hold
  seeds := h.seeds

theorem Sound.seed_loop (h : Sound target lookup) (added count : Nat) {seeds : List SeedNode}
    (hseeds : ∀ node ∈ seeds, Balanced node.kad_id) :
    Sound target (lookup.seed_loop target added count seeds).1 := by
  induction seeds generalizing lookup added with
  | nil => exact ⟨h.possible, h.tried_entry, h.addr_to_dist, h.tried, h.fresh, nofun⟩
  | cons node rest ih =>
    rw [List.forall_mem_cons] at hseeds
    rw [Lookup.seed_loop]
    by_cases hroom : added < count
    · rw [if_pos hroom]
      by_cases hknown : dist target node.kad_id ∈ lookup.tried.keys ∨ dist target node.kad_id ∈ lookup.possible.keys
      · simp only [if_pos hknown]
        exact ih h added hseeds.2
      · simp only [if_neg hknown]
        apply ih _ (added + 1) hseeds.2
        apply h.set_possible
        · exact (dist_eq_metric_iff target node.kad_id).mpr hseeds.1
        · exact fun htried => hknown (.inl htried)
    · rw [if_neg hroom]
      exact ⟨h.possible, h.tried_entry, h.addr_to_dist, h.tried, h.fresh, List.forall_mem_cons.mpr hseeds⟩

theorem Sound.seed_more (h : Sound target lookup) (count : Nat) : Sound target (lookup.seed_more target count).1 :=
  h.seed_loop 0 count h.seeds

theorem sound_init (start : ℚ) {seed_pool : List SeedNode} (hseeds : ∀ node ∈ seed_pool, Balanced node.kad_id) :
    Sound target (Lookup.init target start seed_pool) := by
  apply Sound.seed_more
  exact ⟨nofun, nofun, nofun, nofun, nofun, hseeds⟩

theorem Sound.ask (h : Sound target lookup) {entry : Nat × Candidate} (hentry : entry ∈ lookup.possible.entries) :
    Sound target (lookup.ask target entry) where
  possible := by
    intro other hother
    exact h.possible other (OrderedDict.mem_erase.mp hother).2
  tried_entry := by
    intro other hother
    rcases OrderedDict.mem_set.mp hother with rfl | ⟨_, hold⟩
    · exact h.possible entry hentry
    · exact h.tried_entry other hold
  addr_to_dist := by
    intro other hother
    rcases OrderedDict.mem_set.mp hother with rfl | ⟨_, hold⟩
    · exact ⟨entry.2.kad_id, OrderedDict.mem_set.mpr (.inl rfl)⟩
    · obtain ⟨id, hid⟩ := h.addr_to_dist other hold
      have hne : other.2 ≠ entry.1 := fun hsame => h.fresh entry hentry (hsame ▸ h.tried _ hid)
      exact ⟨id, OrderedDict.mem_set.mpr (.inr ⟨hne, hid⟩)⟩
  tried := by
    intro other hother
    apply OrderedDict.mem_keys_set.mpr
    rcases OrderedDict.mem_set.mp hother with rfl | ⟨_, hold⟩
    · exact .inl rfl
    · exact .inr (h.tried other hold)
  fresh := by
    intro other hother htried
    obtain ⟨hne, hold⟩ := OrderedDict.mem_erase.mp hother
    rcases OrderedDict.mem_keys_set.mp htried with hsame | hbefore
    · exact hne hsame
    · exact h.fresh other hold hbefore
  seeds := h.seeds

theorem Sound.foldl_ask {entries : List (Nat × Candidate)} (h : Sound target lookup)
    (hdistinct : (entries.map Prod.fst).Nodup) (hmem : ∀ entry ∈ entries, entry ∈ lookup.possible.entries) :
    Sound target (entries.foldl (Lookup.ask target) lookup) := by
  induction entries generalizing lookup with
  | nil => exact h
  | cons entry rest ih =>
    rw [List.map_cons, List.nodup_cons] at hdistinct
    rw [List.forall_mem_cons] at hmem
    rw [List.foldl_cons]
    apply ih (h.ask hmem.1) hdistinct.2
    intro other hother
    apply OrderedDict.mem_erase.mpr
    refine ⟨?_, hmem.2 other hother⟩
    intro hsame
    exact hdistinct.1 (hsame ▸ List.mem_map_of_mem hother)

theorem possible_ask_round (lookup : Lookup) {entry : Nat × Candidate}
    (hentry : entry ∈ (lookup.ask_round target).possible.entries) : entry ∈ lookup.possible.entries := by
  have hfold : ∀ (entries : List (Nat × Candidate)) (lookup : Lookup),
      entry ∈ (entries.foldl (Lookup.ask target) lookup).possible.entries → entry ∈ lookup.possible.entries := by
    intro entries
    induction entries with
    | nil => exact fun _ h => h
    | cons first rest ih =>
      intro lookup hmem
      exact (OrderedDict.mem_erase.mp (ih _ hmem)).2
  exact hfold _ lookup hentry

theorem to_ask_sublist (lookup : Lookup) :
    lookup.to_ask.Sublist (sorted Prod.fst lookup.possible.entries) :=
  (List.take_sublist _ _).trans List.filter_sublist

theorem mem_of_mem_to_ask {entry : Nat × Candidate} (hentry : entry ∈ lookup.to_ask) :
    entry ∈ lookup.possible.entries := mem_sorted.mp ((to_ask_sublist lookup).subset hentry)

theorem pairwise_to_ask (lookup : Lookup) : lookup.to_ask.Pairwise fun near far => near.1 < far.1 :=
  (pairwise_lt_sorted lookup.possible.nodup).sublist (to_ask_sublist lookup)

theorem Sound.ask_round (h : Sound target lookup) : Sound target (lookup.ask_round target) := by
  apply h.foldl_ask
  · apply List.Pairwise.map _ _ (pairwise_to_ask lookup)
    exact fun _ _ hlt => Nat.ne_of_lt hlt
  · exact fun _ hentry => mem_of_mem_to_ask hentry

/-- No candidate was tried, so that a turn asks the first of the order. -/
theorem Sound.to_ask_eq (h : Sound target lookup) :
    lookup.to_ask = (sorted Prod.fst lookup.possible.entries).take ALPHA := by
  rw [to_ask, List.filter_eq_self.mpr]
  intro entry hentry
  exact decide_eq_true (h.fresh entry (mem_sorted.mp hentry))

theorem Sound.usesMetric (h : Sound target lookup) : UsesMetric target lookup where
  possible := h.possible
  tried_entry := h.tried_entry
  once := by
    intro entry hentry other hother hsame
    apply List.inj_on_of_nodup_map lookup.possible.nodup hentry hother
    rw [h.possible entry hentry, h.possible other hother, hsame]
  ascending := by
    apply (pairwise_to_ask lookup).imp_of_mem
    intro near far hnear hfar hlt
    rwa [h.possible near (mem_of_mem_to_ask hnear), h.possible far (mem_of_mem_to_ask hfar)] at hlt
  nearest := by
    intro near hnear far hfar hnot
    have hpossible := mem_of_mem_to_ask hnear
    rw [h.to_ask_eq] at hnear hnot
    have hlt := lt_of_notMem_take lookup.possible.nodup hnear hfar hnot
    rwa [h.possible near hpossible, h.possible far hfar] at hlt

section Quiet

theorem maps_push_search (lookup : Lookup) : (lookup.push_search target).maps = lookup.maps := by
  have hfold : ∀ (addrs : List Addr) (lookup : Lookup),
      (addrs.foldl (Lookup.send_search_key target) lookup).maps = lookup.maps := by
    intro addrs
    induction addrs with
    | nil => exact fun _ => rfl
    | cons addr rest ih => exact fun lookup => (ih (lookup.send_search_key target addr)).trans rfl
  exact hfold _ lookup

theorem maps_reask (lookup : Lookup) : (lookup.reask target).maps = lookup.maps := by
  unfold Lookup.reask
  split
  · split <;> rfl
  · rfl

theorem Sound.quiet (h : Sound target lookup) : Sound target (lookup.quiet target).1 := by
  have hpushed : Sound target ((lookup.push_search target).reask target) :=
    h.of_maps ((maps_reask _).trans (maps_push_search lookup))
  have hidle : Sound target { (lookup.push_search target).reask target with
      idle_strikes := ((lookup.push_search target).reask target).idle_strikes + 1 } := hpushed.of_maps rfl
  have hseeded := hidle.seed_more ALPHA
  simp only [Lookup.quiet]
  split
  · split
    · exact hseeded
    · exact hseeded.of_maps rfl
  · exact hidle

end Quiet

section Receive

/-- What a datagram from an address changes. -/
structure Heard (target : KadUInt128) (addr : Addr) (before after : Lookup) : Prop where
  sound : Sound target after
  tried_entry : after.tried_entry = before.tried_entry
  addr_to_dist : after.addr_to_dist = before.addr_to_dist
  nearer : ∀ entry ∈ after.possible.entries, entry ∉ before.possible.entries →
    ∃ rdist, before.addr_to_dist.get addr = some rdist ∧ entry.1 < rdist

theorem Sound.heard (h : Sound target lookup) (addr : Addr) {after : Lookup} (hmaps : after.maps = lookup.maps) :
    Heard target addr lookup after := by
  refine ⟨h.of_maps hmaps, ?_, ?_, ?_⟩
  · exact congrArg (fun maps => maps.2.2.1) hmaps
  · exact congrArg (fun maps => maps.2.2.2.1) hmaps
  · intro entry hentry hnew
    have hpossible : after.possible = lookup.possible := congrArg Prod.fst hmaps
    exact absurd (hpossible ▸ hentry) hnew

theorem Heard.of_maps {addr : Addr} {before after next : Lookup} (h : Heard target addr before after)
    (hmaps : next.maps = after.maps) : Heard target addr before next := by
  refine ⟨h.sound.of_maps hmaps, ?_, ?_, ?_⟩
  · exact (congrArg (fun maps => maps.2.2.1) hmaps).trans h.tried_entry
  · exact (congrArg (fun maps => maps.2.2.2.1) hmaps).trans h.addr_to_dist
  · have hpossible : next.possible = after.possible := congrArg Prod.fst hmaps
    rw [hpossible]
    exact h.nearer

theorem Heard.take_contacts {addr : Addr} {rdist : Nat} {before after : Lookup} {contacts : List KadNodeInfo}
    (h : Heard target addr before after) (hrdist : before.addr_to_dist.get addr = some rdist)
    (hbalanced : ∀ node ∈ contacts, Balanced (.raw node.kad_id node.length_kad_id)) (closer : Bool)
    (seen_ips : List String) :
    Heard target addr before (after.take_contacts target rdist closer seen_ips contacts).1 := by
  induction contacts generalizing after closer seen_ips with
  | nil => exact h
  | cons node rest ih =>
    rw [List.forall_mem_cons] at hbalanced
    simp only [Lookup.take_contacts]
    obtain ⟨d, hd⟩ : ∃ d, d = dist target (.raw node.kad_id node.length_kad_id) := ⟨_, rfl⟩
    rw [← hd]
    by_cases hknown : d ∈ after.tried.keys ∨ d ∈ after.possible.keys
    · rw [if_pos hknown]
      exact ih h hbalanced.2 _ _
    · rw [if_neg hknown]
      by_cases hseen : node.ip ∈ seen_ips
      · rw [if_pos hseen]
        exact ih h hbalanced.2 _ _
      · rw [if_neg hseen]
        by_cases hfar : rdist ≤ d
        · rw [if_pos hfar]
          exact ih h hbalanced.2 _ _
        · rw [if_neg hfar]
          apply ih _ hbalanced.2
          refine ⟨?_, h.tried_entry, h.addr_to_dist, ?_⟩
          · apply h.sound.set_possible
            · exact hd.trans ((dist_eq_metric_iff target _).mpr hbalanced.1)
            · exact fun htried => hknown (.inl htried)
          · intro entry hentry hnew
            rcases OrderedDict.mem_set.mp hentry with rfl | ⟨_, hold⟩
            · exact ⟨rdist, hrdist, Nat.lt_of_not_le hfar⟩
            · exact h.nearer entry hold hnew

theorem Sound.heard_on_res (h : Sound target lookup) (turn : SearchTurn) {addr : Addr} {rdist : Nat}
    {contacts : List KadNodeInfo} (hrdist : lookup.addr_to_dist.get addr = some rdist)
    (hbalanced : ∀ node ∈ contacts, Balanced (.raw node.kad_id node.length_kad_id)) :
    Heard target addr lookup (lookup.on_res target turn addr rdist contacts) := by
  have hstart : Heard target addr lookup { lookup with last_progress := turn.parsed_at } := h.heard addr rfl
  have htaken := hstart.take_contacts hrdist hbalanced false [addr.1]
  apply htaken.of_maps
  simp only [Lookup.on_res]
  split_ifs <;> rfl

variable {host : Host} {replace : Bytes → String} {options : SearchOptions}

/-- The contacts of a datagram that is a `KADEMLIA2_RES`. -/
theorem SearchTurn.contacts_eq {turn : SearchTurn} {data payload : Bytes} {addr : Addr} {protocol : UInt8}
    {contacts : List KadNodeInfo} (hdatagram : turn.datagram = some (data, addr))
    (hopen : open_packet host data = some (protocol, KADEMLIA2_RES, payload))
    (hparse : parse_kad2_res payload = .ok contacts) : turn.contacts host = contacts := by
  simp only [SearchTurn.contacts, hdatagram, Option.bind_some, hopen, hparse, if_true, Except.toOption,
    Option.getD_some]

theorem Sound.heard_receive (h : Sound target lookup) {turn : SearchTurn} {data : Bytes} {addr : Addr}
    (effective_deadline : ℚ) (hdatagram : turn.datagram = some (data, addr)) (hbalanced : turn.Balanced host) :
    Heard target addr lookup (lookup.receive target host replace options turn effective_deadline data addr).1 := by
  have hheard : Sound target { lookup with idle_strikes := 0 } := h.of_maps rfl
  have hsame : Heard target addr lookup { lookup with idle_strikes := 0 } := h.heard addr rfl
  unfold Lookup.receive
  cases hrdist : lookup.addr_to_dist.get addr with
  | none => simpa only [hrdist] using hsame
  | some rdist =>
    cases hopen : open_packet host data with
    | none => simpa only [hrdist] using hsame
    | some opened =>
      obtain ⟨protocol, opcode, payload⟩ := opened
      simp only [hrdist]
      by_cases hsearch : opcode = KADEMLIA2_SEARCH_RES
      · rw [if_pos hsearch]
        split
        · exact hsame.of_maps rfl
        · exact hsame
        · exact hsame
      · rw [if_neg hsearch]
        by_cases hres : opcode = KADEMLIA2_RES
        · subst hres
          rw [if_pos rfl]
          cases hparse : parse_kad2_res payload with
          | error e => exact hsame
          | ok contacts =>
            have hcontacts := SearchTurn.contacts_eq hdatagram hopen hparse
            obtain ⟨hsound, htried, haddr, hnearer⟩ :=
              hheard.heard_on_res turn hrdist (fun node hnode => hbalanced node (hcontacts ▸ hnode))
            exact ⟨hsound, htried, haddr, hnearer⟩
        · rw [if_neg hres]
          exact hsame

/-- A datagram makes only nearer contacts possible. -/
theorem Heard.followsCloser {addr : Addr} {before after : Lookup} (h : Heard target addr before after)
    (hbefore : Sound target before) : FollowsCloser target addr before after := by
  intro entry hentry hnew
  obtain ⟨rdist, hrdist, hlt⟩ := h.nearer entry hentry hnew
  obtain ⟨responder, hresponder⟩ := hbefore.addr_to_dist _ (OrderedDict.mem_of_get hrdist)
  have hmetric : rdist = metric target responder := hbefore.tried_entry _ hresponder
  subst hmetric
  refine ⟨responder, ?_, ?_, ?_⟩
  · rw [h.addr_to_dist, hrdist]
  · rw [h.tried_entry]
    exact hresponder
  · rwa [← h.sound.possible entry hentry]

theorem Sound.turn (h : Sound target lookup) {turn : SearchTurn} (hbalanced : turn.Balanced host) :
    Sound target (lookup.turn target host replace options turn).1 := by
  unfold Lookup.turn
  dsimp only
  split
  · exact h
  · split
    · exact h.ask_round.quiet
    · rename_i data addr hdatagram
      exact (h.ask_round.heard_receive _ hdatagram hbalanced).sound

/-- A turn with a datagram follows only contacts that are nearer than its sender. -/
theorem Sound.followsCloser_turn (h : Sound target lookup) {turn : SearchTurn} (hbalanced : turn.Balanced host)
    {data : Bytes} {addr : Addr} (hdatagram : turn.datagram = some (data, addr)) :
    FollowsCloser target addr lookup (lookup.turn target host replace options turn).1 := by
  unfold Lookup.turn
  dsimp only
  split
  · exact fun entry hentry hnew => absurd hentry hnew
  · rw [hdatagram]
    intro entry hentry hnew
    refine (h.ask_round.heard_receive _ hdatagram hbalanced).followsCloser h.ask_round entry hentry ?_
    exact fun hold => hnew (possible_ask_round lookup hold)

theorem Sound.turns (h : Sound target lookup) {turns : List SearchTurn}
    (hbalanced : ∀ turn ∈ turns, turn.Balanced host) :
    Sound target (lookup.turns target host replace options turns).1 := by
  induction turns generalizing lookup with
  | nil => exact h
  | cons first rest ih =>
    rw [List.forall_mem_cons] at hbalanced
    have hfirst : Sound target (lookup.turn target host replace options first).1 := h.turn hbalanced.1
    unfold Lookup.turns
    split
    · rename_i next hnext
      rw [hnext] at hfirst
      exact ih hfirst hbalanced.2
    · exact hfirst

end Receive

/-- `kad_keyword_search` measures a node as the routing table does exactly where it is a `KadUInt128` or its
words are balanced, and a search that meets only such nodes stores and asks its candidates by that metric and
follows only contacts that are nearer than their sender. -/
theorem search_uses_metric (target : KadUInt128) :
    (∀ node : KadNodeInfo, (distance target node).value =
      metric target (as_kad_id (.raw node.kad_id node.length_kad_id))) ∧
    (∀ id, dist target id = metric target (as_kad_id id) ↔ Balanced id) ∧
    ∀ (host : Host) (replace : Bytes → String) (options : SearchOptions) (seed_pool : List SeedNode)
      (turns : List SearchTurn), (∀ node ∈ seed_pool, Balanced node.kad_id) →
        (∀ turn ∈ turns, turn.Balanced host) →
      let lookup := ((init target options.start seed_pool).turns target host replace options turns).1
      UsesMetric target lookup ∧ ∀ (turn : SearchTurn) (data : Bytes) (addr : Addr), turn.Balanced host →
        turn.datagram = some (data, addr) →
          FollowsCloser target addr lookup (lookup.turn target host replace options turn).1 := by
  refine ⟨distance_eq_metric target, dist_eq_metric_iff target, ?_⟩
  intro host replace options seed_pool turns hseeds hturns lookup
  have hsound : Sound target lookup := (sound_init options.start hseeds).turns hturns
  refine ⟨hsound.usesMetric, ?_⟩
  intro turn data addr hbalanced hdatagram
  exact hsound.followsCloser_turn hbalanced hdatagram

theorem balanced_of_same {data : Bytes} {byte : UInt8} (length_data : data.length = 16)
    (hsame : data = List.replicate 16 byte) : Balanced (.raw data length_data) := by
  subst hsame
  intro index _
  rw [List.extract_eq_take_drop, List.drop_replicate, List.take_replicate, List.reverse_replicate]

/-- An identifier of one byte that is followed by zeros. -/
def sampleId (first second : UInt8) : KadId := .raw (first :: second :: List.replicate 14 0) rfl

def sampleTarget : KadUInt128 := ⟨0, by omega⟩

def sampleSeed (kad_id : KadId) (udp_port : Nat) : SeedNode := ⟨kad_id, "10.0.0.1", udp_port, 4662, 8⟩

def sampleOptions : SearchOptions := ⟨0, 30, 10, 200⟩

/-- A `KADEMLIA2_RES` with one contact, whose sixteen bytes are the same. -/
def sampleTurn : SearchTurn :=
  ⟨0, some ([0xE4, 0x29] ++ List.replicate 16 0 ++ [1] ++ List.replicate 16 1 ++ [1, 0, 0, 10, 1, 0, 1, 0, 8],
    ("10.0.0.1", 4672)), 0, 0⟩

theorem balanced_sampleTurn : sampleTurn.Balanced sampleHost := by
  intro node hnode
  have hids : (sampleTurn.contacts sampleHost).map KadNodeInfo.kad_id = [List.replicate 16 1] := rfl
  have hid : node.kad_id ∈ [List.replicate 16 1] := hids ▸ List.mem_map_of_mem hnode
  exact balanced_of_same node.length_kad_id (List.mem_singleton.mp hid)

theorem search_uses_metric_sample :
    UsesMetric sampleTarget ((init sampleTarget sampleOptions.start
      [sampleSeed (.uint ⟨2 ^ 127, by omega⟩) 4672]).turns sampleTarget sampleHost (fun _ => "") sampleOptions
        [sampleTurn]).1 := by
  refine ((search_uses_metric sampleTarget).2.2 sampleHost (fun _ => "") sampleOptions _ [sampleTurn] ?_ ?_).1
  · intro node hnode
    rw [List.mem_singleton.mp hnode]
    trivial
  · intro turn hturn
    rw [List.mem_singleton.mp hturn]
    exact balanced_sampleTurn

/-- Of two nodes whose identifiers start with `01 00` and `00 02`, the search asks the farther one first. -/
theorem search_asks_farther_first :
    ¬ ∀ (target : KadUInt128) (host : Host) (replace : Bytes → String) (options : SearchOptions)
      (seed_pool : List SeedNode) (turns : List SearchTurn),
      UsesMetric target ((init target options.start seed_pool).turns target host replace options turns).1 := by
  intro hclaim
  have hascending := (hclaim sampleTarget sampleHost (fun _ => "") sampleOptions
    [sampleSeed (sampleId 1 0) 4672, sampleSeed (sampleId 0 2) 4673] []).ascending
  have hasked : ((init sampleTarget sampleOptions.start [sampleSeed (sampleId 1 0) 4672,
    sampleSeed (sampleId 0 2) 4673]).to_ask.map fun entry => metric sampleTarget entry.2.kad_id) =
      [2 ^ 105, 2 ^ 96] := by decide +kernel
  have hmetrics : ((init sampleTarget sampleOptions.start [sampleSeed (sampleId 1 0) 4672,
      sampleSeed (sampleId 0 2) 4673]).to_ask.map fun entry => metric sampleTarget entry.2.kad_id).Pairwise
        (· < ·) := List.pairwise_map.mpr hascending
  rw [hasked] at hmetrics
  have hlt := (List.pairwise_cons.mp hmetrics).1 (2 ^ 96) (List.mem_singleton_self _)
  omega

end amuled.kad
