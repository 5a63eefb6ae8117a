import AmuleD.Kad.SearchMetric

namespace amuled.kad

open Lookup

/-- The datagram of `_send_find_value`. -/
def find_value (target : KadUInt128) (count : Nat) (kad_id : KadUInt128) (addr : Addr) : Bytes × Addr :=
  ([KAD_PROTOCOL, KADEMLIA2_REQ, UInt8.ofNat count] ++ target.to_bytes ++ kad_id.to_bytes, addr)

def search_key (target : KadUInt128) (addr : Addr) : Bytes × Addr :=
  ([KAD_PROTOCOL, KADEMLIA2_SEARCH_KEY_REQ] ++ build_search_key_req target, addr)

/-- A datagram asks for a number of contacts. -/
def asks (count : Nat) (datagram : Bytes × Addr) : Bool :=
  datagram.1.take 3 = [KAD_PROTOCOL, KADEMLIA2_REQ, UInt8.ofNat count]

def searches (datagram : Bytes × Addr) : Bool := datagram.1.take 2 = [KAD_PROTOCOL, KADEMLIA2_SEARCH_KEY_REQ]

/-- The answers of a turn whose datagram is a `KADEMLIA2_SEARCH_RES`. -/
def SearchTurn.answers (host : Host) (replace : Bytes → String) (turn : SearchTurn) : List KadSearchResultItem :=
  match turn.datagram.bind fun datagram => open_packet host datagram.1 with
  | some (_, opcode, payload) =>
    if opcode = KADEMLIA2_SEARCH_RES then ((parse_search_res_answers replace payload).toOption).getD [] else []
  | none => []

section Runs

variable (target : KadUInt128) (host : Host) (replace : Bytes → String) (seed_pool : List SeedNode)
  (run : List SearchTurn)

/-- An address from which a turn has a datagram. -/
def HeardFrom (addr : Addr) : Prop := ∃ turn ∈ run, ∃ data, turn.datagram = some (data, addr)

/-- A node that the search may ask: the routing has handed it out, or such a node that is farther from the target has
named it. -/
inductive Told : KadId → Addr → Prop where
  | seed {node : SeedNode} (hnode : node ∈ seed_pool) : Told node.kad_id (node.ip, node.udp_port)
  | contact {id : KadId} {addr : Addr} {turn : SearchTurn} {data : Bytes} {node : KadNodeInfo} (hsender : Told id addr)
    (hturn : turn ∈ run) (hdatagram : turn.datagram = some (data, addr)) (hnode : node ∈ turn.contacts host)
    (hnearer : dist target (.raw node.kad_id node.length_kad_id) < dist target id) :
    Told (.raw node.kad_id node.length_kad_id) (node.ip, node.udp_port)

/-- What is kept under a distance is a node that was told. -/
def Known (d : Nat) (kad_id : KadUInt128) (addr : Addr) : Prop :=
  ∃ id, Told target host seed_pool run id addr ∧ d = dist target id ∧ kad_id = as_kad_id id

/-- What a search has done whenever a turn begins. -/
structure Orderly (lookup : Lookup) : Prop where
  /-- Every node that was tried was asked, once, in the order of the trials. -/
  asked : lookup.sent.filter (asks FIND_VALUE) =
    lookup.tried_entry.entries.map fun entry => find_value target FIND_VALUE entry.2.1 entry.2.2
  more : (lookup.sent.filter (asks FIND_VALUE_MORE)).length ≤ if lookup.reasked then 1 else 0
  searched : lookup.sent.filter searches = lookup.asked_search.map (search_key target)
  nothing_else : ∀ datagram ∈ lookup.sent,
    asks FIND_VALUE datagram ∨ asks FIND_VALUE_MORE datagram ∨ searches datagram
  tried : lookup.tried.entries = lookup.tried_entry.entries.map fun entry => (entry.1, entry.2.2)
  fresh : ∀ entry ∈ lookup.possible.entries, entry.1 ∉ lookup.tried.keys
  possible : ∀ entry ∈ lookup.possible.entries, Known target host seed_pool run entry.1 entry.2.kad_id entry.2.addr
  tried_entry : ∀ entry ∈ lookup.tried_entry.entries, Known target host seed_pool run entry.1 entry.2.1 entry.2.2
  seeds : ∀ node ∈ lookup.seeds, node ∈ seed_pool
  addr_to_dist : ∀ entry ∈ lookup.addr_to_dist.entries, (entry.2, entry.1) ∈ lookup.tried.entries
  responded : ∀ d ∈ lookup.responded.keys, ∃ addr, (d, addr) ∈ lookup.tried.entries ∧ HeardFrom run addr
  asked_search : ∀ addr ∈ lookup.asked_search, (∃ d, (d, addr) ∈ lookup.tried.entries) ∧ HeardFrom run addr
  results : ∀ entry ∈ lookup.results.entries, entry.1 = entry.2.file_hash ∧ ∃ turn ∈ run, ∃ data addr d,
    turn.datagram = some (data, addr) ∧ (d, addr) ∈ lookup.tried.entries ∧ entry.2 ∈ turn.answers host replace

end Runs

section Steps

variable {target : KadUInt128} {host : Host} {replace : Bytes → String} {seed_pool : List SeedNode}
  {run : List SearchTurn} {lookup : Lookup}

theorem filter_concat_true {α : Type} {p : α → Bool} {x : α} (hyes : p x = true) (xs : List α) :
    (xs ++ [x]).filter p = xs.filter p ++ [x] := by
  rw [List.filter_append, List.filter_singleton, hyes]
  rfl

theorem filter_concat_false {α : Type} {p : α → Bool} {x : α} (hno : p x = false) (xs : List α) :
    (xs ++ [x]).filter p = xs.filter p := by
  rw [List.filter_append, List.filter_singleton, hno]
  exact List.append_nil _

theorem asks_find_value (count other : Nat) (kad_id : KadUInt128) (addr : Addr) :
    asks count (find_value target other kad_id addr) = decide (UInt8.ofNat other = UInt8.ofNat count) := by
  simp [asks, find_value]

theorem searches_find_value (count : Nat) (kad_id : KadUInt128) (addr : Addr) :
    searches (find_value target count kad_id addr) = false := by
  simp [searches, find_value, KADEMLIA2_REQ, KADEMLIA2_SEARCH_KEY_REQ]

theorem asks_search_key (count : Nat) (addr : Addr) : asks count (search_key target addr) = false := by
  simp [asks, search_key, KADEMLIA2_REQ, KADEMLIA2_SEARCH_KEY_REQ]

theorem searches_search_key (addr : Addr) : searches (search_key target addr) = true := by
  simp [searches, search_key]

/-- A new candidate that was told. -/
theorem Orderly.set_possible (h : Orderly target host replace seed_pool run lookup) {d : Nat} {candidate : Candidate}
    (hfresh : d ∉ lookup.tried.keys) (hknown : Known target host seed_pool run d candidate.kad_id candidate.addr) :
    Orderly target host replace seed_pool run { lookup with possible := lookup.possible.set d candidate } :=
  { h with
    fresh := by
      intro entry hentry
      rcases OrderedDict.mem_set.mp hentry with rfl | ⟨_, hold⟩
      · exact hfresh
      · exact h.fresh entry hold
    possible := by
      intro entry hentry
      rcases OrderedDict.mem_set.mp hentry with rfl | ⟨_, hold⟩
      · exact hknown
      · exact h.possible entry hold }

theorem Orderly.seed_loop (h : Orderly target host replace seed_pool run lookup) (added count : Nat)
    {seeds : List SeedNode} (hseeds : ∀ node ∈ seeds, node ∈ seed_pool) :
    Orderly target host replace seed_pool run (lookup.seed_loop target added count seeds).1 := by
  induction seeds generalizing lookup added with
  | nil => exact { h with seeds := fun _ hnode => absurd hnode List.not_mem_nil }
  | cons node rest ih =>
    rw [Lookup.seed_loop]
    by_cases hroom : added < count
    · have hrest : ∀ other ∈ rest, other ∈ seed_pool := fun other hother => hseeds other (List.mem_cons_of_mem _ hother)
      rw [if_pos hroom]
      by_cases hknown : dist target node.kad_id ∈ lookup.tried.keys ∨ dist target node.kad_id ∈ lookup.possible.keys
      · simp only [if_pos hknown]
        exact ih h added hrest
      · simp only [if_neg hknown]
        apply ih _ (added + 1) hrest
        apply h.set_possible
        · exact fun htried => hknown (.inl htried)
        · exact ⟨node.kad_id, .seed (hseeds node List.mem_cons_self), rfl, rfl⟩
    · rw [if_neg hroom]
      exact { h with seeds := hseeds }

theorem Orderly.seed_more (h : Orderly target host replace seed_pool run lookup) (count : Nat) :
    Orderly target host replace seed_pool run (lookup.seed_more target count).1 := h.seed_loop 0 count h.seeds

theorem orderly_init (start : ℚ) : Orderly target host replace seed_pool run (init target start seed_pool) := by
  apply Orderly.seed_more
  have hnothing : ∀ {α : Type} {P : α → Prop}, ∀ x ∈ ([] : List α), P x := fun x hx => absurd hx List.not_mem_nil
  exact ⟨rfl, Nat.zero_le _, rfl, hnothing, rfl, hnothing, hnothing, hnothing, fun _ hnode => hnode, hnothing, hnothing,
    hnothing, hnothing⟩

/-- A candidate is asked. -/
theorem Orderly.ask (h : Orderly target host replace seed_pool run lookup) {entry : Nat × Candidate}
    (hentry : entry ∈ lookup.possible.entries) :
    Orderly target host replace seed_pool run (lookup.ask target entry) := by
  have hnew : entry.1 ∉ lookup.tried.keys := h.fresh entry hentry
  have hkeys : lookup.tried_entry.keys = lookup.tried.keys := by
    rw [OrderedDict.keys, OrderedDict.keys, h.tried, List.map_map]
    rfl
  have hentries := OrderedDict.set_of_not_mem (hkeys ▸ hnew) (entry.2.kad_id, entry.2.addr)
  have htried := OrderedDict.set_of_not_mem hnew entry.2.addr
  have hgrown : ∀ item ∈ lookup.tried.entries, item ∈ (lookup.tried.set entry.1 entry.2.addr).entries := by
    intro item hitem
    rw [htried]
    exact List.mem_append_left _ hitem
  have hasks : asks FIND_VALUE (find_value target FIND_VALUE entry.2.kad_id entry.2.addr) = true := by
    rw [asks_find_value, decide_eq_true_iff]
  have hmore : asks FIND_VALUE_MORE (find_value target FIND_VALUE entry.2.kad_id entry.2.addr) = false := by
    rw [asks_find_value]
    decide
  refine ⟨?_, ?_, ?_, ?_, ?_, ?_, ?_, ?_, h.seeds, ?_, ?_, ?_, ?_⟩
  · change (lookup.sent ++ [find_value target FIND_VALUE entry.2.kad_id entry.2.addr]).filter (asks FIND_VALUE) =
      (lookup.tried_entry.set entry.1 (entry.2.kad_id, entry.2.addr)).entries.map _
    rw [hentries, filter_concat_true hasks, List.map_append, h.asked]
    rfl
  · exact (congrArg List.length (filter_concat_false hmore lookup.sent)).trans_le h.more
  · exact (filter_concat_false (searches_find_value _ _ _) lookup.sent).trans h.searched
  · intro datagram hdatagram
    rcases List.mem_append.mp hdatagram with hbefore | hnow
    · exact h.nothing_else datagram hbefore
    · rw [List.mem_singleton.mp hnow]
      exact .inl hasks
  · change (lookup.tried.set entry.1 entry.2.addr).entries =
      (lookup.tried_entry.set entry.1 (entry.2.kad_id, entry.2.addr)).entries.map _
    rw [htried, hentries, List.map_append, h.tried]
    rfl
  · intro other hother hmem
    obtain ⟨hne, hold⟩ := OrderedDict.mem_erase.mp hother
    rcases OrderedDict.mem_keys_set.mp hmem with hsame | hbefore
    · exact hne hsame
    · exact h.fresh other hold hbefore
  · intro other hother
    exact h.possible other (OrderedDict.mem_erase.mp hother).2
  · intro other hother
    rcases OrderedDict.mem_set.mp hother with rfl | ⟨_, hold⟩
    · exact h.possible entry hentry
    · exact h.tried_entry other hold
  · intro other hother
    rcases OrderedDict.mem_set.mp hother with rfl | ⟨_, hold⟩
    · exact OrderedDict.mem_set.mpr (.inl rfl)
    · exact hgrown _ (h.addr_to_dist other hold)
  · intro d hd
    obtain ⟨addr, hmem, hheard⟩ := h.responded d hd
    exact ⟨addr, hgrown _ hmem, hheard⟩
  · intro addr haddr
    obtain ⟨⟨d, hmem⟩, hheard⟩ := h.asked_search addr haddr
    exact ⟨⟨d, hgrown _ hmem⟩, hheard⟩
  · intro item hitem
    obtain ⟨hhash, turn, hturn, data, addr, d, hdatagram, hmem, hanswer⟩ := h.results item hitem
    exact ⟨hhash, turn, hturn, data, addr, d, hdatagram, hgrown _ hmem, hanswer⟩

theorem Orderly.foldl_ask {entries : List (Nat × Candidate)}
    (h : Orderly target host replace seed_pool run lookup) (hdistinct : (entries.map Prod.fst).Nodup)
    (hmem : ∀ entry ∈ entries, entry ∈ lookup.possible.entries) :
    Orderly target host replace seed_pool run (entries.foldl (Lookup.ask target) lookup) := by
  induction entries generalizing lookup with
  | nil => exact h
  | cons entry rest ih =>
    rw [List.map_cons, List.nodup_cons] at hdistinct
    rw [List.forall_mem_cons] at hmem
    rw [List.foldl_cons]
    apply ih (h.ask hmem.1) hdistinct.2
    intro other hother
    apply OrderedDict.mem_erase.mpr
    refine ⟨?_, hmem.2 other hother⟩
    intro hsame
    exact hdistinct.1 (hsame ▸ List.mem_map_of_mem hother)

theorem Orderly.ask_round (h : Orderly target host replace seed_pool run lookup) :
    Orderly target host replace seed_pool run (lookup.ask_round target) := by
  apply h.foldl_ask
  · apply List.Pairwise.map _ _ (pairwise_to_ask lookup)
    exact fun _ _ hlt => Nat.ne_of_lt hlt
  · exact fun _ hentry => mem_of_mem_to_ask hentry

/-- A node that was tried and has been heard from is asked for its answers. -/
theorem Orderly.send_search_key (h : Orderly target host replace seed_pool run lookup) {addr : Addr}
    (htried : ∃ d, (d, addr) ∈ lookup.tried.entries) (hheard : HeardFrom run addr) :
    Orderly target host replace seed_pool run (lookup.send_search_key target addr) := by
  have hasks : ∀ count, (lookup.sent ++ [search_key target addr]).filter (asks count) =
      lookup.sent.filter (asks count) := fun count => filter_concat_false (asks_search_key count addr) lookup.sent
  refine { h with asked := ?_, more := ?_, searched := ?_, nothing_else := ?_, asked_search := ?_ }
  · exact (hasks FIND_VALUE).trans h.asked
  · exact (congrArg List.length (hasks FIND_VALUE_MORE)).trans_le h.more
  · change (lookup.sent ++ [search_key target addr]).filter searches =
      (lookup.asked_search ++ [addr]).map (search_key target)
    rw [filter_concat_true (searches_search_key addr), List.map_append, h.searched]
    rfl
  · intro datagram hdatagram
    rcases List.mem_append.mp hdatagram with hbefore | hnow
    · exact h.nothing_else datagram hbefore
    · rw [List.mem_singleton.mp hnow]
      exact .inr (.inr (searches_search_key addr))
  · intro other hother
    rcases List.mem_append.mp hother with hbefore | hnow
    · exact h.asked_search other hbefore
    · rw [List.mem_singleton.mp hnow]
      exact ⟨htried, hheard⟩

theorem Orderly.push_search (h : Orderly target host replace seed_pool run lookup) :
    Orderly target host replace seed_pool run (lookup.push_search target) := by
  have hpending : ∀ addr ∈ lookup.pending_search.take ALPHA,
      (∃ d, (d, addr) ∈ lookup.tried.entries) ∧ HeardFrom run addr := by
    intro addr haddr
    obtain ⟨d, hd, hget⟩ := List.mem_filterMap.mp (List.mem_of_mem_filter (List.mem_of_mem_take haddr))
    obtain ⟨other, hmem, hheard⟩ := h.responded d hd
    obtain rfl : addr = other := Option.some.inj (hget.symm.trans (OrderedDict.get_of_mem hmem))
    exact ⟨⟨d, hmem⟩, hheard⟩
  have hfold : ∀ (addrs : List Addr) (lookup : Lookup), Orderly target host replace seed_pool run lookup →
      (∀ addr ∈ addrs, (∃ d, (d, addr) ∈ lookup.tried.entries) ∧ HeardFrom run addr) →
        Orderly target host replace seed_pool run (addrs.foldl (Lookup.send_search_key target) lookup) := by
    intro addrs
    induction addrs with
    | nil => exact fun _ h _ => h
    | cons addr rest ih =>
      intro lookup h haddrs
      rw [List.forall_mem_cons] at haddrs
      exact ih _ (h.send_search_key haddrs.1.1 haddrs.1.2) haddrs.2
  exact hfold _ lookup h hpending

theorem Orderly.reask (h : Orderly target host replace seed_pool run lookup) :
    Orderly target host replace seed_pool run (lookup.reask target) := by
  unfold Lookup.reask
  split
  · rename_i hreask
    have hnone : (lookup.sent.filter (asks FIND_VALUE_MORE)).length = 0 := by
      have hmore := h.more
      rw [hreask.1] at hmore
      exact Nat.le_zero.mp hmore
    split
    · refine { h with more := ?_ }
      change (lookup.sent.filter (asks FIND_VALUE_MORE)).length ≤ 1
      omega
    · rename_i d kad_id addr hhead
      have hasks : asks FIND_VALUE (find_value target FIND_VALUE_MORE kad_id addr) = false := by
        rw [asks_find_value]
        decide
      have hmore : asks FIND_VALUE_MORE (find_value target FIND_VALUE_MORE kad_id addr) = true := by
        rw [asks_find_value, decide_eq_true_iff]
      refine { h with asked := ?_, more := ?_, searched := ?_, nothing_else := ?_ }
      · exact (filter_concat_false hasks lookup.sent).trans h.asked
      · change ((lookup.sent ++ [find_value target FIND_VALUE_MORE kad_id addr]).filter (asks FIND_VALUE_MORE)).length ≤
          1
        rw [filter_concat_true hmore, List.length_append, hnone]
        exact Nat.le_refl 1
      · exact (filter_concat_false (searches_find_value _ _ _) lookup.sent).trans h.searched
      · intro datagram hdatagram
        rcases List.mem_append.mp hdatagram with hbefore | hnow
        · exact h.nothing_else datagram hbefore
        · rw [List.mem_singleton.mp hnow]
          exact .inr (.inl hmore)
  · exact h

theorem Orderly.quiet (h : Orderly target host replace seed_pool run lookup) :
    Orderly target host replace seed_pool run (lookup.quiet target).1 := by
  have hpushed := h.push_search.reask
  have hidle : Orderly target host replace seed_pool run { (lookup.push_search target).reask target with
      idle_strikes := ((lookup.push_search target).reask target).idle_strikes + 1 } := { hpushed with }
  have hseeded := hidle.seed_more ALPHA
  simp only [Lookup.quiet]
  split
  · split
    · exact hseeded
    · exact { hseeded with }
  · exact hidle

/-- The sender of a datagram that is read is a node that was told. -/
theorem Orderly.told_of_get (h : Orderly target host replace seed_pool run lookup) {addr : Addr} {rdist : Nat}
    (hget : lookup.addr_to_dist.get addr = some rdist) :
    (rdist, addr) ∈ lookup.tried.entries ∧ ∃ id, Told target host seed_pool run id addr ∧ rdist = dist target id := by
  have htried := h.addr_to_dist _ (OrderedDict.mem_of_get hget)
  refine ⟨htried, ?_⟩
  rw [h.tried] at htried
  obtain ⟨entry, hentry, hsame⟩ := List.mem_map.mp htried
  obtain ⟨rfl, rfl⟩ := Prod.mk.inj hsame
  obtain ⟨id, htold, hdist, -⟩ := h.tried_entry entry hentry
  exact ⟨id, htold, hdist⟩

theorem Orderly.take_contacts (h : Orderly target host replace seed_pool run lookup) {id : KadId} {addr : Addr}
    {turn : SearchTurn} {data : Bytes} (hsender : Told target host seed_pool run id addr) (hturn : turn ∈ run)
    (hdatagram : turn.datagram = some (data, addr)) {contacts : List KadNodeInfo}
    (hcontacts : ∀ node ∈ contacts, node ∈ turn.contacts host) (closer : Bool) (seen_ips : List String) :
    Orderly target host replace seed_pool run
        (lookup.take_contacts target (dist target id) closer seen_ips contacts).1 ∧
      (lookup.take_contacts target (dist target id) closer seen_ips contacts).1.tried = lookup.tried := by
  induction contacts generalizing lookup closer seen_ips with
  | nil => exact ⟨h, rfl⟩
  | cons node rest ih =>
    have hrest : ∀ other ∈ rest, other ∈ turn.contacts host :=
      fun other hother => hcontacts other (List.mem_cons_of_mem _ hother)
    simp only [Lookup.take_contacts]
    by_cases hknown : dist target (.raw node.kad_id node.length_kad_id) ∈ lookup.tried.keys ∨
        dist target (.raw node.kad_id node.length_kad_id) ∈ lookup.possible.keys
    · rw [if_pos hknown]
      exact ih h hrest _ _
    · rw [if_neg hknown]
      by_cases hseen : node.ip ∈ seen_ips
      · rw [if_pos hseen]
        exact ih h hrest _ _
      · rw [if_neg hseen]
        by_cases hfar : dist target id ≤ dist target (.raw node.kad_id node.length_kad_id)
        · rw [if_pos hfar]
          exact ih h hrest _ _
        · rw [if_neg hfar]
          apply ih _ hrest
          apply h.set_possible
          · exact fun htried => hknown (.inl htried)
          · exact ⟨_, .contact hsender hturn hdatagram (hcontacts node List.mem_cons_self) (Nat.lt_of_not_le hfar), rfl,
              rfl⟩

theorem Orderly.set_responded (h : Orderly target host replace seed_pool run lookup) {addr : Addr} {rdist : Nat}
    (htried : (rdist, addr) ∈ lookup.tried.entries) (hheard : HeardFrom run addr) (closer : Bool) :
    Orderly target host replace seed_pool run { lookup with responded := lookup.responded.set rdist closer } :=
  { h with
    responded := by
      intro d hd
      rcases OrderedDict.mem_keys_set.mp hd with rfl | hbefore
      · exact ⟨addr, htried, hheard⟩
      · exact h.responded d hbefore }

theorem Orderly.on_res (h : Orderly target host replace seed_pool run lookup) {turn : SearchTurn} {data : Bytes}
    {addr : Addr} {rdist : Nat} {contacts : List KadNodeInfo} (hturn : turn ∈ run)
    (hdatagram : turn.datagram = some (data, addr)) (hget : lookup.addr_to_dist.get addr = some rdist)
    (hcontacts : turn.contacts host = contacts) :
    Orderly target host replace seed_pool run (lookup.on_res target turn addr rdist contacts) := by
  obtain ⟨htried, id, htold, rfl⟩ := h.told_of_get hget
  have hheard : HeardFrom run addr := ⟨turn, hturn, data, hdatagram⟩
  have hprogress : Orderly target host replace seed_pool run { lookup with last_progress := turn.parsed_at } :=
    { h with }
  obtain ⟨htaken, hsame⟩ := hprogress.take_contacts htold hturn hdatagram
    (fun node hnode => hcontacts ▸ hnode : ∀ node ∈ contacts, node ∈ turn.contacts host) false [addr.1]
  have hsend : ∀ answered, Orderly target host replace seed_pool run answered →
      (dist target id, addr) ∈ answered.tried.entries → Orderly target host replace seed_pool run
        (if addr ∈ answered.asked_search then answered else answered.send_search_key target addr) := by
    intro answered hanswered htried
    split
    · exact hanswered
    · exact hanswered.send_search_key ⟨_, htried⟩ hheard
  unfold Lookup.on_res
  generalize Lookup.take_contacts target _ _ _ _ _ = taken at htaken hsame ⊢
  obtain ⟨next, closer⟩ := taken
  have htried_next : (dist target id, addr) ∈ next.tried.entries := hsame ▸ htried
  have hrewarded : Orderly target host replace seed_pool run (next.reward addr (if closer then 1 else 1 / 5)) :=
    { htaken with }
  exact hsend _ (hrewarded.set_responded htried_next hheard closer) htried_next

/-- A result is kept under its hash. -/
theorem mem_collect {max_results : Int} {results : OrderedDict Bytes KadSearchResultItem}
    {items : List KadSearchResultItem} {entry : Bytes × KadSearchResultItem}
    (hentry : entry ∈ (collect max_results results items).entries) :
    entry ∈ results.entries ∨ entry.1 = entry.2.file_hash ∧ entry.2 ∈ items := by
  induction items generalizing results with
  | nil => exact .inl hentry
  | cons item rest ih =>
    have hgrown : entry ∈ (results.set item.file_hash item).entries →
        entry ∈ results.entries ∨ entry.1 = entry.2.file_hash ∧ entry.2 ∈ item :: rest := by
      intro hmem
      rcases OrderedDict.mem_set.mp hmem with rfl | ⟨_, hold⟩
      · exact .inr ⟨rfl, List.mem_cons_self⟩
      · exact .inl hold
    change entry ∈ (if item.file_hash ∈ results.keys then collect max_results results rest
      else if max_results ≤ (results.set item.file_hash item).entries.length then results.set item.file_hash item
        else collect max_results (results.set item.file_hash item) rest).entries at hentry
    split at hentry
    · exact (ih hentry).imp_right (And.imp_right (List.mem_cons_of_mem _))
    · split at hentry
      · exact hgrown hentry
      · rcases ih hentry with hmem | ⟨hhash, hmem⟩
        · exact hgrown hmem
        · exact .inr ⟨hhash, List.mem_cons_of_mem _ hmem⟩

theorem Orderly.on_search_res (h : Orderly target host replace seed_pool run lookup) {turn : SearchTurn}
    {data : Bytes} {addr : Addr} {rdist : Nat} {answers : List KadSearchResultItem} (max_results : Int)
    (hturn : turn ∈ run) (hdatagram : turn.datagram = some (data, addr))
    (hget : lookup.addr_to_dist.get addr = some rdist) (hanswers : turn.answers host replace = answers) :
    Orderly target host replace seed_pool run (lookup.on_search_res max_results turn addr rdist answers).1 := by
  obtain ⟨htried, -⟩ := h.told_of_get hget
  have hanswered := h.set_responded htried ⟨turn, hturn, data, hdatagram⟩ true
  refine { hanswered with results := ?_ }
  intro entry hentry
  rcases mem_collect hentry with hold | ⟨hhash, hmem⟩
  · exact h.results entry hold
  · exact ⟨hhash, turn, hturn, data, addr, rdist, hdatagram, htried, hanswers ▸ hmem⟩

theorem answers_eq {turn : SearchTurn} {data payload : Bytes} {addr : Addr} {protocol : UInt8}
    {answers : List KadSearchResultItem} (hdatagram : turn.datagram = some (data, addr))
    (hopen : open_packet host data = some (protocol, KADEMLIA2_SEARCH_RES, payload))
    (hparse : parse_search_res_answers replace payload = .ok answers) : turn.answers host replace = answers := by
  simp only [SearchTurn.answers, hdatagram, Option.bind_some, hopen, hparse, if_true, Except.toOption,
    Option.getD_some]

theorem Orderly.receive (h : Orderly target host replace seed_pool run lookup) (options : SearchOptions)
    {turn : SearchTurn} {data : Bytes} {addr : Addr} (effective_deadline : ℚ) (hturn : turn ∈ run)
    (hdatagram : turn.datagram = some (data, addr)) :
    Orderly target host replace seed_pool run
      (lookup.receive target host replace options turn effective_deadline data addr).1 := by
  have hheard : Orderly target host replace seed_pool run { lookup with idle_strikes := 0 } := { h with }
  unfold Lookup.receive
  cases hrdist : lookup.addr_to_dist.get addr with
  | none => simpa only [hrdist] using hheard
  | some rdist =>
    cases hopen : open_packet host data with
    | none => simpa only [hrdist] using hheard
    | some opened =>
      obtain ⟨protocol, opcode, payload⟩ := opened
      simp only [hrdist]
      by_cases hsearch : opcode = KADEMLIA2_SEARCH_RES
      · subst hsearch
        rw [if_pos rfl]
        cases hparse : parse_search_res_answers replace payload with
        | ok answers => exact hheard.on_search_res _ hturn hdatagram hrdist (answers_eq hdatagram hopen hparse)
        | error e => cases e <;> exact hheard
      · rw [if_neg hsearch]
        by_cases hres : opcode = KADEMLIA2_RES
        · subst hres
          rw [if_pos rfl]
          cases hparse : parse_kad2_res payload with
          | error e => exact hheard
          | ok contacts =>
            exact hheard.on_res hturn hdatagram hrdist (SearchTurn.contacts_eq hdatagram hopen hparse)
        · rw [if_neg hres]
          exact hheard

theorem Orderly.turn (h : Orderly target host replace seed_pool run lookup) (options : SearchOptions)
    {turn : SearchTurn} (hturn : turn ∈ run) :
    Orderly target host replace seed_pool run (lookup.turn target host replace options turn).1 := by
  unfold Lookup.turn
  dsimp only
  split
  · exact h
  · split
    · exact h.ask_round.quiet
    · rename_i data addr hdatagram
      exact h.ask_round.receive options _ hturn hdatagram

theorem Orderly.turns (h : Orderly target host replace seed_pool run lookup) (options : SearchOptions)
    {later : List SearchTurn} (hlater : ∀ turn ∈ later, turn ∈ run) :
    Orderly target host replace seed_pool run (lookup.turns target host replace options later).1 := by
  induction later generalizing lookup with
  | nil => exact h
  | cons first rest ih =>
    rw [List.forall_mem_cons] at hlater
    have hfirst := h.turn options hlater.1
    unfold Lookup.turns
    split
    · rename_i next hnext
      rw [hnext] at hfirst
      exact ih hfirst hlater.2
    · exact hfirst

end Steps

section Once

variable {target : KadUInt128} {host : Host} {replace : Bytes → String} {seed_pool : List SeedNode}
  {run : List SearchTurn} {lookup : Lookup}

/-- A KadID as a `RoutingZone` hands it out. -/
def KadId.IsRaw : KadId → Prop
  | .raw _ _ => True
  | .uint _ => False

theorem Told.isRaw {id : KadId} {addr : Addr} (hraw : ∀ node ∈ seed_pool, node.kad_id.IsRaw)
    (htold : Told target host seed_pool run id addr) : id.IsRaw := by
  cases htold with
  | seed hnode => exact hraw _ hnode
  | contact _ _ _ _ _ => trivial

theorem eq_of_as_kad_id {id other : KadId} (hid : id.IsRaw) (hother : other.IsRaw)
    (hsame : as_kad_id id = as_kad_id other) : id = other := by
  cases id with
  | uint _ => exact hid.elim
  | raw data length_data =>
    cases other with
    | uint _ => exact hother.elim
    | raw data' length_data' =>
      obtain rfl := to_kad_uint128_inj length_data length_data' (congrArg KadUInt128.value hsame)
      rfl

/-- Raw identifiers are told apart by their distances, so that none is asked twice. -/
theorem Orderly.nodup_asked (h : Orderly target host replace seed_pool run lookup)
    (hraw : ∀ node ∈ seed_pool, node.kad_id.IsRaw) :
    (lookup.tried_entry.entries.map fun entry => entry.2.1).Nodup := by
  apply List.Nodup.map_on _ (List.Nodup.of_map _ lookup.tried_entry.nodup)
  intro entry hentry other hother hsame
  obtain ⟨id, hid, hdist, hkad⟩ := h.tried_entry entry hentry
  obtain ⟨id', hid', hdist', hkad'⟩ := h.tried_entry other hother
  obtain rfl := eq_of_as_kad_id (hid.isRaw hraw) (hid'.isRaw hraw) (hkad.symm.trans (hsame.trans hkad'))
  exact List.inj_on_of_nodup_map lookup.tried_entry.nodup hentry hother (hdist.trans hdist'.symm)

end Once

section Ends

variable (target : KadUInt128) {host : Host} {replace : Bytes → String} {options : SearchOptions} {lookup : Lookup}

/-- What there is to do before the search gives up in quiet windows. -/
def Lookup.remaining (lookup : Lookup) : Nat :=
  4 * lookup.seeds.length + 2 * lookup.possible.entries.length + (2 - lookup.idle_strikes)

def SearchTurn.is_quiet (turn : SearchTurn) : Bool := turn.datagram.isNone

/-- What a datagram can add to it. -/
def SearchTurn.brings (host : Host) (turn : SearchTurn) : Nat :=
  if turn.is_quiet then 0 else 2 * (turn.contacts host).length + 1

/-- The variables that are counted. -/
def Lookup.pace (lookup : Lookup) := (lookup.seeds, lookup.possible, lookup.idle_strikes)

theorem pace_push_search (lookup : Lookup) : (lookup.push_search target).pace = lookup.pace := by
  have hfold : ∀ (addrs : List Addr) (lookup : Lookup),
      (addrs.foldl (Lookup.send_search_key target) lookup).pace = lookup.pace := by
    intro addrs
    induction addrs with
    | nil => exact fun _ => rfl
    | cons addr rest ih => exact fun lookup => (ih (lookup.send_search_key target addr)).trans rfl
  exact hfold _ lookup

theorem pace_reask (lookup : Lookup) : (lookup.reask target).pace = lookup.pace := by
  unfold Lookup.reask
  split
  · split <;> rfl
  · rfl

theorem length_set_le {κ ν : Type} [DecidableEq κ] (dict : OrderedDict κ ν) (key : κ) (value : ν) :
    (dict.set key value).entries.length ≤ dict.entries.length + 1 := by
  rw [OrderedDict.set]
  by_cases hkey : key ∈ dict.keys
  · simp only [if_pos hkey, List.length_map]
    omega
  · simp only [if_neg hkey, List.length_append, List.length_singleton]
    omega

/-- Seeds are taken or passed over. -/
theorem length_seed_loop (lookup : Lookup) (added count : Nat) (seeds : List SeedNode) :
    (lookup.seed_loop target added count seeds).1.seeds.length ≤ seeds.length ∧
      (lookup.seed_loop target added count seeds).1.seeds.length +
          (lookup.seed_loop target added count seeds).1.possible.entries.length ≤
        seeds.length + lookup.possible.entries.length ∧
        (lookup.seed_loop target added count seeds).1.idle_strikes = lookup.idle_strikes := by
  induction seeds generalizing lookup added with
  | nil => exact ⟨Nat.le_refl _, Nat.le_refl _, rfl⟩
  | cons node rest ih =>
    rw [Lookup.seed_loop]
    by_cases hroom : added < count
    · rw [if_pos hroom, List.length_cons]
      by_cases hknown : dist target node.kad_id ∈ lookup.tried.keys ∨ dist target node.kad_id ∈ lookup.possible.keys
      · simp only [if_pos hknown]
        obtain ⟨hseeds, htotal, hidle⟩ := ih lookup added
        exact ⟨by omega, by omega, hidle⟩
      · simp only [if_neg hknown]
        obtain ⟨candidate, hcandidate⟩ : ∃ candidate : Candidate, candidate =
          ⟨as_kad_id node.kad_id, node.ip, node.udp_port, node.tcp_port, node.contact_version⟩ := ⟨_, rfl⟩
        have hset := length_set_le lookup.possible (dist target node.kad_id) candidate
        rw [← hcandidate]
        obtain ⟨hseeds, htotal, hidle⟩ :=
          ih { lookup with possible := lookup.possible.set (dist target node.kad_id) candidate } (added + 1)
        dsimp only at htotal
        exact ⟨by omega, by omega, hidle⟩
    · rw [if_neg hroom]
      exact ⟨Nat.le_refl _, Nat.le_refl _, rfl⟩

/-- Where there is room the first seed goes. -/
theorem length_seed_more_lt {count : Nat} (hcount : 0 < count) (hseeds : lookup.seeds ≠ []) :
    (lookup.seed_more target count).1.seeds.length < lookup.seeds.length := by
  obtain ⟨node, rest, hcons⟩ := List.exists_cons_of_ne_nil hseeds
  rw [Lookup.seed_more, hcons, Lookup.seed_loop, if_pos hcount, List.length_cons]
  dsimp only
  split
  · exact Nat.lt_succ_of_le (length_seed_loop _ _ _ _ _).1
  · exact Nat.lt_succ_of_le (length_seed_loop _ _ _ _ _).1

theorem length_foldl_ask (entries : List (Nat × Candidate)) (lookup : Lookup) :
    (entries.foldl (Lookup.ask target) lookup).possible.entries.length ≤ lookup.possible.entries.length ∧
      (entries.foldl (Lookup.ask target) lookup).seeds = lookup.seeds ∧
        (entries.foldl (Lookup.ask target) lookup).idle_strikes = lookup.idle_strikes := by
  induction entries generalizing lookup with
  | nil => exact ⟨Nat.le_refl _, rfl, rfl⟩
  | cons entry rest ih =>
    obtain ⟨hlength, hseeds, hidle⟩ := ih (lookup.ask target entry)
    refine ⟨hlength.trans ?_, hseeds, hidle⟩
    exact List.length_filter_le _ _

/-- A turn asks somebody while there are candidates. -/
theorem length_ask_round_lt (hfresh : ∀ entry ∈ lookup.possible.entries, entry.1 ∉ lookup.tried.keys)
    (hpossible : lookup.possible.entries ≠ []) :
    (lookup.ask_round target).possible.entries.length < lookup.possible.entries.length := by
  obtain ⟨entry, rest, hask⟩ : ∃ entry rest, lookup.to_ask = entry :: rest := by
    apply List.exists_cons_of_ne_nil
    intro hnone
    rw [to_ask, List.filter_eq_self.mpr fun entry hentry =>
      decide_eq_true (hfresh entry (sorting.mem_sorted.mp hentry))] at hnone
    have hlength := congrArg List.length hnone
    rw [List.length_take, sorting.length_sorted] at hlength
    have hpos := List.length_pos_of_ne_nil hpossible
    have halpha : ALPHA = 3 := rfl
    rw [List.length_nil] at hlength
    omega
  rw [Lookup.ask_round, hask, List.foldl_cons]
  refine (length_foldl_ask target rest _).1.trans_lt ?_
  have hmem : entry ∈ lookup.possible.entries := mem_of_mem_to_ask (hask ▸ List.mem_cons_self)
  exact List.length_filter_lt_length_iff_exists.mpr ⟨entry, hmem, by simp⟩

theorem remaining_ask_round (hfresh : ∀ entry ∈ lookup.possible.entries, entry.1 ∉ lookup.tried.keys) :
    (lookup.ask_round target).idle_strikes = lookup.idle_strikes ∧
      (lookup.ask_round target).remaining ≤ lookup.remaining ∧
        (lookup.possible.entries ≠ [] → (lookup.ask_round target).remaining + 2 ≤ lookup.remaining) := by
  obtain ⟨hasked, hseeds, hidle⟩ := length_foldl_ask target lookup.to_ask lookup
  rw [← Lookup.ask_round] at hasked hseeds hidle
  refine ⟨hidle, ?_, ?_⟩
  · rw [Lookup.remaining, Lookup.remaining, hseeds, hidle]
    omega
  · intro hpossible
    have hless := length_ask_round_lt target hfresh hpossible
    rw [Lookup.remaining, Lookup.remaining, hseeds, hidle]
    omega

/-- After a quiet window there is less to do, unless it was the second and candidates are left. -/
theorem remaining_quiet (hidle : lookup.idle_strikes ≤ 1) (hagain : (lookup.quiet target).2 = .again) :
    (lookup.quiet target).1.idle_strikes ≤ 1 ∧ ((lookup.quiet target).1.remaining < lookup.remaining ∨
      lookup.possible.entries ≠ [] ∧ (lookup.quiet target).1.remaining ≤ lookup.remaining + 1) := by
  have hpace : ((lookup.push_search target).reask target).pace = lookup.pace :=
    (pace_reask target _).trans (pace_push_search target lookup)
  obtain ⟨pushed, hpushed⟩ : ∃ pushed, pushed = (lookup.push_search target).reask target := ⟨_, rfl⟩
  rw [← hpushed] at hpace
  obtain ⟨hseeds, hrest⟩ := Prod.mk.inj hpace
  obtain ⟨hpossible, hstrikes⟩ := Prod.mk.inj hrest
  simp only [Lookup.quiet, ← hpushed] at hagain ⊢
  by_cases hsecond : 2 ≤ pushed.idle_strikes + 1
  · rw [if_pos hsecond] at hagain ⊢
    obtain ⟨idle, hidle_eq⟩ : ∃ idle : Lookup, idle = { pushed with idle_strikes := pushed.idle_strikes + 1 } :=
      ⟨_, rfl⟩
    rw [← hidle_eq] at hagain ⊢
    by_cases hnothing : (idle.seed_more target ALPHA).2 = 0 ∧ (idle.seed_more target ALPHA).1.possible.entries = []
    · rw [if_pos hnothing] at hagain
      cases hagain
    · rw [if_neg hnothing]
      have hidle_seeds : idle.seeds = lookup.seeds := hidle_eq ▸ hseeds
      have hidle_possible : idle.possible = lookup.possible := hidle_eq ▸ hpossible
      obtain ⟨hfewer, htotal, -⟩ := length_seed_loop target idle 0 ALPHA idle.seeds
      rw [← Lookup.seed_more, hidle_seeds] at hfewer
      rw [← Lookup.seed_more, hidle_seeds, hidle_possible] at htotal
      refine ⟨Nat.zero_le 1, ?_⟩
      by_cases hempty : lookup.seeds = []
      · -- nothing was added, so that what is still possible was so before
        have hmore : (idle.seed_more target ALPHA).2 = 0 := by
          rw [Lookup.seed_more, hidle_seeds, hempty]
          rfl
        have hleft := List.length_pos_of_ne_nil fun hnone => hnothing ⟨hmore, hnone⟩
        rw [hempty, List.length_nil] at htotal hfewer
        refine .inr ⟨List.ne_nil_of_length_pos (by omega), ?_⟩
        simp only [Lookup.remaining, hempty, List.length_nil]
        omega
      · have hless := length_seed_more_lt target (show 0 < ALPHA by decide) (hidle_seeds ▸ hempty)
        rw [hidle_seeds] at hless
        refine .inl ?_
        simp only [Lookup.remaining]
        omega
  · rw [if_neg hsecond]
    refine ⟨by dsimp only; omega, .inl ?_⟩
    simp only [Lookup.remaining, hseeds, hpossible, hstrikes] at hsecond ⊢
    omega

theorem length_take_contacts (rdist : Nat) (closer : Bool) (seen_ips : List String) (contacts : List KadNodeInfo)
    (lookup : Lookup) :
    (lookup.take_contacts target rdist closer seen_ips contacts).1.possible.entries.length ≤
        lookup.possible.entries.length + contacts.length ∧
      (lookup.take_contacts target rdist closer seen_ips contacts).1.seeds = lookup.seeds ∧
        (lookup.take_contacts target rdist closer seen_ips contacts).1.idle_strikes = lookup.idle_strikes := by
  induction contacts generalizing lookup closer seen_ips with
  | nil => exact ⟨Nat.le_refl _, rfl, rfl⟩
  | cons node rest ih =>
    simp only [Lookup.take_contacts, List.length_cons]
    split
    · obtain ⟨hlength, hsame⟩ := ih _ seen_ips lookup
      exact ⟨by omega, hsame⟩
    · split
      · obtain ⟨hlength, hsame⟩ := ih _ seen_ips lookup
        exact ⟨by omega, hsame⟩
      · split
        · obtain ⟨hlength, hsame⟩ := ih _ _ lookup
          exact ⟨by omega, hsame⟩
        · obtain ⟨hlength, hsame⟩ := ih _ _ { lookup with possible := lookup.possible.set _ _ }
          have hset := length_set_le lookup.possible (dist target (.raw node.kad_id node.length_kad_id))
            ⟨to_kad_uint128 node.kad_id node.length_kad_id, node.ip, node.udp_port, node.tcp_port, node.contact_version⟩
          exact ⟨by dsimp only at hlength; omega, hsame⟩

theorem pace_on_res (turn : SearchTurn) (addr : Addr) (rdist : Nat) (contacts : List KadNodeInfo) (lookup : Lookup) :
    (lookup.on_res target turn addr rdist contacts).possible.entries.length ≤
        lookup.possible.entries.length + contacts.length ∧
      (lookup.on_res target turn addr rdist contacts).seeds = lookup.seeds ∧
        (lookup.on_res target turn addr rdist contacts).idle_strikes = lookup.idle_strikes := by
  have htaken := length_take_contacts target rdist false [addr.1] contacts
    { lookup with last_progress := turn.parsed_at }
  unfold Lookup.on_res
  generalize Lookup.take_contacts target _ _ _ _ _ = taken at htaken ⊢
  obtain ⟨next, closer⟩ := taken
  dsimp only
  split_ifs <;> exact htaken

variable (replace options) in
/-- A datagram adds at most its contacts. -/
theorem remaining_receive {turn : SearchTurn} {data : Bytes} {addr : Addr} (effective_deadline : ℚ)
    (hidle : lookup.idle_strikes ≤ 1) (hdatagram : turn.datagram = some (data, addr)) :
    (lookup.receive target host replace options turn effective_deadline data addr).1.idle_strikes ≤ 1 ∧
      (lookup.receive target host replace options turn effective_deadline data addr).1.remaining ≤
        lookup.remaining + turn.brings host := by
  have hbrings : turn.brings host = 2 * (turn.contacts host).length + 1 := by
    rw [SearchTurn.brings, SearchTurn.is_quiet, hdatagram]
    rfl
  have hcounted : ∀ next : Lookup, next.seeds = lookup.seeds →
      next.possible.entries.length ≤ lookup.possible.entries.length + (turn.contacts host).length →
        next.idle_strikes = 0 → next.idle_strikes ≤ 1 ∧ next.remaining ≤ lookup.remaining + turn.brings host := by
    intro next hseeds hpossible hstrikes
    rw [Lookup.remaining, Lookup.remaining, hbrings, hseeds, hstrikes]
    omega
  have hsame : ∀ next : Lookup, next.seeds = lookup.seeds → next.possible = lookup.possible →
      next.idle_strikes = 0 → next.idle_strikes ≤ 1 ∧ next.remaining ≤ lookup.remaining + turn.brings host :=
    fun next hseeds hpossible => hcounted next hseeds (hpossible ▸ Nat.le_add_right _ _)
  unfold Lookup.receive
  cases hrdist : lookup.addr_to_dist.get addr with
  | none =>
    simp only [hrdist]
    exact hsame { lookup with idle_strikes := 0 } rfl rfl rfl
  | some rdist =>
    cases hopen : open_packet host data with
    | none =>
      simp only [hrdist]
      exact hsame { lookup with idle_strikes := 0 } rfl rfl rfl
    | some opened =>
      obtain ⟨protocol, opcode, payload⟩ := opened
      simp only [hrdist]
      by_cases hsearch : opcode = KADEMLIA2_SEARCH_RES
      · rw [if_pos hsearch]
        split <;> exact hsame _ rfl rfl rfl
      · rw [if_neg hsearch]
        by_cases hres : opcode = KADEMLIA2_RES
        · subst hres
          rw [if_pos rfl]
          cases hparse : parse_kad2_res payload with
          | error e => exact hsame _ rfl rfl rfl
          | ok contacts =>
            obtain ⟨hlength, hseeds, hstrikes⟩ :=
              pace_on_res target turn addr rdist contacts { lookup with idle_strikes := 0 }
            have hcontacts := SearchTurn.contacts_eq hdatagram hopen hparse
            exact hcounted (Lookup.on_res target { lookup with idle_strikes := 0 } turn addr rdist contacts) hseeds
              (hlength.trans_eq (by rw [hcontacts])) hstrikes
        · rw [if_neg hres]
          exact hsame _ rfl rfl rfl

variable (host replace options) in
theorem remaining_turn (hfresh : ∀ entry ∈ lookup.possible.entries, entry.1 ∉ lookup.tried.keys)
    (hidle : lookup.idle_strikes ≤ 1) (turn : SearchTurn)
    (hagain : (lookup.turn target host replace options turn).2 = .again) :
    (lookup.turn target host replace options turn).1.idle_strikes ≤ 1 ∧
      (lookup.turn target host replace options turn).1.remaining + (if turn.is_quiet then 1 else 0) ≤
        lookup.remaining + turn.brings host := by
  obtain ⟨hstrikes, hasked, hsome⟩ := remaining_ask_round target hfresh
  have hasked_idle : (lookup.ask_round target).idle_strikes ≤ 1 := hstrikes.trans_le hidle
  unfold Lookup.turn at hagain ⊢
  dsimp only at hagain ⊢
  split at hagain
  · cases hagain
  · rename_i hin_time
    rw [if_neg hin_time]
    cases hdatagram : turn.datagram with
    | none =>
      have hquiet : turn.is_quiet = true := by
        rw [SearchTurn.is_quiet, hdatagram]
        rfl
      simp only [hdatagram] at hagain
      simp only [SearchTurn.brings, hquiet, if_true]
      obtain ⟨hnext, hless⟩ := remaining_quiet target hasked_idle hagain
      refine ⟨hnext, ?_⟩
      rcases hless with hless | ⟨hleft, hmost⟩
      · omega
      · have hpossible : lookup.possible.entries ≠ [] := by
          intro hnone
          have hlength := (length_foldl_ask target lookup.to_ask lookup).1
          rw [hnone, ← Lookup.ask_round] at hlength
          exact hleft (List.eq_nil_of_length_eq_zero (Nat.le_zero.mp hlength))
        have hmore := hsome hpossible
        omega
    | some datagram =>
      obtain ⟨data, addr⟩ := datagram
      have hquiet : turn.is_quiet = false := by
        rw [SearchTurn.is_quiet, hdatagram]
        rfl
      obtain ⟨hnext, hmost⟩ := remaining_receive target replace options
        (min (options.start + options.timeout) (lookup.last_progress + options.idle_extend)) hasked_idle hdatagram
      refine ⟨hnext, ?_⟩
      rw [if_neg (Bool.eq_false_iff.mp hquiet)]
      exact hmost.trans (Nat.add_le_add_right hasked _)

/-- While the search goes on, its quiet windows use up what there is to do. -/
theorem remaining_turns {seed_pool : List SeedNode} {run later : List SearchTurn}
    (h : Orderly target host replace seed_pool run lookup) (hlater : ∀ turn ∈ later, turn ∈ run)
    (hidle : lookup.idle_strikes ≤ 1)
    (hagain : (lookup.turns target host replace options later).2 = .again) :
    (later.filter SearchTurn.is_quiet).length ≤ lookup.remaining + (later.map (SearchTurn.brings host)).sum := by
  induction later generalizing lookup with
  | nil => exact Nat.zero_le _
  | cons first rest ih =>
    rw [List.forall_mem_cons] at hlater
    obtain ⟨next, result, hfirst⟩ : ∃ next result, lookup.turn target host replace options first = (next, result) :=
      ⟨_, _, rfl⟩
    have horderly := h.turn options hlater.1
    have hturn := remaining_turn target host replace options h.fresh hidle first
    rw [hfirst] at horderly hturn
    dsimp only at horderly hturn
    rw [Lookup.turns, hfirst] at hagain
    cases result with
    | again =>
      obtain ⟨hnext, hless⟩ := hturn rfl
      have hrest := ih horderly hlater.2 hnext hagain
      rw [List.filter_cons, List.map_cons, List.sum_cons]
      cases hquiet : first.is_quiet with
      | true =>
        simp only [hquiet, if_true] at hless
        rw [if_pos rfl, List.length_cons]
        omega
      | false =>
        simp only [hquiet, if_neg Bool.false_ne_true] at hless
        rw [if_neg Bool.false_ne_true]
        omega
    | leave => cases hagain
    | raise e => cases hagain

theorem remaining_init (start : ℚ) (seed_pool : List SeedNode) :
    (init target start seed_pool).idle_strikes = 0 ∧
      (init target start seed_pool).remaining ≤ 4 * seed_pool.length + 2 := by
  obtain ⟨hseeds, htotal, hidle⟩ := length_seed_loop target
    ⟨.empty, .empty, .empty, .empty, [], .empty, false, .empty, .empty, start, 0, seed_pool, []⟩ 0 ALPHA seed_pool
  have hidle_init : (init target start seed_pool).idle_strikes = 0 := hidle
  refine ⟨hidle_init, ?_⟩
  have hcounted : (init target start seed_pool).seeds.length + (init target start seed_pool).possible.entries.length ≤
      seed_pool.length + 0 := htotal
  rw [Lookup.remaining, hidle_init]
  omega

end Ends

end amuled.kad
