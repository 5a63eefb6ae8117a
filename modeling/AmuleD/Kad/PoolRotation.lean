import AmuleD.Kad.Spider
import AmuleD.Runs
import AmuleD.Sorting.Stable
import Mathlib.Tactic.NormNum

open runs sorting

namespace amuled.kad

/-- The settings of the spider, with their names in the environment. -/
structure SpiderSettings where
  STALE_DAYS : Nat
  MAX_POOL : Nat
  HELLO_PING_TIMEOUT_S : ℚ
  MAX_NODE_FAILS : Nat
  save_s : ℚ

/-- The engine: what the receiver changes, whether its task still runs, the time of the last save, and the `alive`
nodes of each snapshot. -/
structure SpiderEngine where
  spider : Spider
  receiving : Bool
  last_save : ℚ
  snapshots : List (List (Addr × NodeRecord))

/-- The events of the engine. A request is recorded when it is sent; a save meets the monotonic clock, the wall clock
and the wall clock after it. -/
inductive SpiderEvent where
  | datagram (received : Received)
  | hello (key : Addr) (sent_at : ℚ)
  | ping (key : Addr) (sent_at : ℚ)
  | sweep (now : ℚ)
  | seed (node : KadNodeInfo)
  | save (mono wall saved_at : ℚ)

/-- One node of a batch, with the datagrams that are handled before the next one. -/
structure BatchSend where
  key : Addr
  hello_at : ℚ
  ping_at : ℚ
  received : List Received

/-- A cycle: the batch that the strategy chose, the sweep, the seeds where a bootstrap is due, the save and the wait. -/
structure SpiderCycle where
  batch : List BatchSend
  swept_at : ℚ
  seeds : List (KadNodeInfo × List Received)
  mono : ℚ
  wall : ℚ
  saved_at : ℚ
  waiting : List Received

/-- Every third node is sent a ping too. -/
def batch_events (sent : Nat) : List BatchSend → List SpiderEvent
  | [] => []
  | send :: rest =>
    [.hello send.key send.hello_at] ++ (if (sent + 1) % 3 = 0 then [.ping send.key send.ping_at] else []) ++
      send.received.map .datagram ++ batch_events (sent + 1) rest

def SpiderCycle.events (cycle : SpiderCycle) : List SpiderEvent :=
  batch_events 0 cycle.batch ++ [.sweep cycle.swept_at] ++
    cycle.seeds.flatMap (fun seed => .seed seed.1 :: seed.2.map .datagram) ++
    [.save cycle.mono cycle.wall cycle.saved_at] ++ cycle.waiting.map .datagram

section Rotation

variable (settings : SpiderSettings)

/-- The nodes that were not seen within `STALE_DAYS` go, then the oldest of what is too many. Which of equally old
ones goes first is left to the order of the table. -/
def prune_pool (now : ℚ) (nodes : Dict Addr NodeRecord) : Dict Addr NodeRecord × Nat :=
  let stale_keys := nodes.keysWhere fun r => settings.STALE_DAYS * 86400 < now - r.last_seen
  let kept := nodes.eraseAll stale_keys
  let overflow := kept.items.length - settings.MAX_POOL
  if 0 < overflow then
    let oldest := (sorted (fun entry => entry.2.last_seen) kept.items).take overflow
    (kept.eraseAll (oldest.map Prod.fst), stale_keys.length + overflow)
  else (kept, stale_keys.length)

/-- A request without an answer counts as a fail, and a node with too many is evicted. -/
def count_fail (nodes : Dict Addr NodeRecord) (key : Addr) : Dict Addr NodeRecord :=
  match nodes.get key with
  | none => nodes
  | some rec =>
    let fails := rec.fails.getD 0 + 1
    if settings.MAX_NODE_FAILS ≤ fails then nodes.erase key else nodes.set key { rec with fails := some fails }

def Spider.sweep_hello (now : ℚ) (spider : Spider) (pending : Addr × ℚ) : Spider :=
  if now - pending.2 ≤ settings.HELLO_PING_TIMEOUT_S then spider
  else
    { spider with
      hello_sent := spider.hello_sent.erase pending.1
      nodes := count_fail settings spider.nodes pending.1 }

def Spider.sweep_ping (now : ℚ) (spider : Spider) (pending : Addr × ℚ) : Spider :=
  if now - pending.2 ≤ settings.HELLO_PING_TIMEOUT_S then spider
  else
    { spider with
      ping_sent := spider.ping_sent.erase pending.1
      nodes := count_fail settings spider.nodes pending.1 }

/-- The sweep over both maps of outstanding requests. -/
def Spider.sweep (now : ℚ) (spider : Spider) : Spider :=
  let swept := spider.hello_sent.items.foldl (Spider.sweep_hello settings now) spider
  swept.ping_sent.items.foldl (Spider.sweep_ping settings now) swept

/-- The nodes that `save_snapshot` writes. -/
def alive_nodes (nodes : Dict Addr NodeRecord) : List (Addr × NodeRecord) :=
  nodes.items.filter fun entry => entry.2.hellos > 0 || entry.2.pings > 0

/-- A seed of a periodic bootstrap enters the pool. -/
def add_seed (nodes : Dict Addr NodeRecord) (node : KadNodeInfo) : Dict Addr NodeRecord :=
  if is_routable_ipv4 node.ip then
    match nodes.get node.key with
    | some _ => nodes
    | none =>
      nodes.set node.key
        ⟨hex_lower node.kad_id, node.tcp_port, node.contact_version, 0, 0, 0, none, some 0, none⟩
  else nodes

/-- `dict.setdefault(key, sent_at)`. -/
def set_sent (sent : Dict Addr ℚ) (key : Addr) (sent_at : ℚ) : Dict Addr ℚ :=
  match sent.get key with
  | some _ => sent
  | none => sent.set key sent_at

variable (host : Host)

def SpiderEngine.step (engine : SpiderEngine) : SpiderEvent → SpiderEngine
  | .datagram received =>
    if engine.receiving then
      match engine.spider.receive host received with
      | (spider, none) => { engine with spider }
      | (spider, some _) => { engine with spider, receiving := false }
    else engine
  | .hello key sent_at =>
    { engine with spider := { engine.spider with hello_sent := set_sent engine.spider.hello_sent key sent_at } }
  | .ping key sent_at =>
    { engine with spider := { engine.spider with ping_sent := set_sent engine.spider.ping_sent key sent_at } }
  | .sweep now => { engine with spider := engine.spider.sweep settings now }
  | .seed node => { engine with spider := { engine.spider with nodes := add_seed engine.spider.nodes node } }
  | .save mono wall saved_at =>
    if engine.last_save + settings.save_s ≤ mono then
      let nodes := (prune_pool settings wall engine.spider.nodes).1
      { engine with
        spider := { engine.spider with nodes }
        snapshots := engine.snapshots ++ [alive_nodes nodes]
        last_save := saved_at }
    else engine

/-- What really happened: when each address answered last, and how often it was asked since. -/
structure History where
  answered : Addr → Option ℚ
  asked : Addr → Nat

/-- The parts of a datagram that is an answer: whether it is a `KADEMLIA2_HELLO_RES` or a `KADEMLIA2_PONG`. -/
inductive Answer where
  | hello_res
  | pong
deriving DecidableEq

def answer_of (received : Received) : Option Answer :=
  match decode_datagram host received with
  | none => none
  | some (op, payload, _) =>
    if op = KADEMLIA2_HELLO_RES then
      match parse_hello_res payload with
      | .ok _ => some .hello_res
      | .error _ => none
    else if op = KADEMLIA2_PONG then some .pong
    else none

def History.step (history : History) : SpiderEvent → History
  | .datagram received =>
    match answer_of host received with
    | none => history
    | some _ =>
      { answered := Function.update history.answered received.addr (some received.now)
        asked := Function.update history.asked received.addr 0 }
  | .hello key _ => { history with asked := Function.update history.asked key (history.asked key + 1) }
  | .ping key _ => { history with asked := Function.update history.asked key (history.asked key + 1) }
  | _ => history

/-- The engine beside what really happened. -/
structure SpiderRun where
  engine : SpiderEngine
  history : History

def SpiderRun.step (run : SpiderRun) (event : SpiderEvent) : SpiderRun where
  engine := run.engine.step settings host event
  history := run.history.step host event

/-- The unanswered requests that a record counts. -/
def counted_fails (nodes : Dict Addr NodeRecord) (key : Addr) : Nat :=
  ((nodes.get key).bind NodeRecord.fails).getD 0

/-- A run starts with a pool whose records tell what was before: a `last_seen` of 0 is that of a node that never
answered, and `fails` are unanswered requests. -/
def SpiderRun.start (spider : Spider) (started_at : ℚ) : SpiderRun where
  engine := ⟨{ spider with hello_sent := .empty, ping_sent := .empty }, true, started_at, []⟩
  history :=
    { answered := fun key => ((spider.nodes.get key).map NodeRecord.last_seen).filter fun last_seen => 0 < last_seen
      asked := counted_fails spider.nodes }

/-- A pruned pool has room, and lost of those that answered within `STALE_DAYS` only ones that are seen no later than
any of the nodes that fill it. -/
structure Pruned (wall : ℚ) (history : History) (before after : Dict Addr NodeRecord) : Prop where
  room : after.items.length ≤ settings.MAX_POOL
  recent : ∀ key record answered_at, before.get key = some record → history.answered key = some answered_at →
    wall - answered_at ≤ settings.STALE_DAYS * 86400 → after.get key = some record ∨
      after.items.length = settings.MAX_POOL ∧
        ∀ other kept, after.get other = some kept → record.last_seen ≤ kept.last_seen

/-- A step of the engine rotates the pool as it should: a cycle that ends `save_s` after the previous save prunes and
saves the pool, a node is evicted only after `MAX_NODE_FAILS` requests since its last answer, and nothing else removes
a node. -/
def Rotates (run : SpiderRun) (event : SpiderEvent) : Prop :=
  let next := run.step settings host event
  match event with
  | .save _ wall _ =>
    (run.engine.last_save + settings.save_s ≤ wall →
      next.engine.spider.nodes = (prune_pool settings wall run.engine.spider.nodes).1 ∧
        next.engine.snapshots = run.engine.snapshots ++ [alive_nodes next.engine.spider.nodes]) ∧
    (next.engine.snapshots ≠ run.engine.snapshots →
      Pruned settings wall run.history run.engine.spider.nodes next.engine.spider.nodes)
  | .sweep _ => ∀ key, run.engine.spider.nodes.get key ≠ none → next.engine.spider.nodes.get key = none →
    settings.MAX_NODE_FAILS ≤ run.history.asked key
  | _ => ∀ key, run.engine.spider.nodes.get key ≠ none → next.engine.spider.nodes.get key ≠ none

/-- The contacts in a `KADEMLIA2_BOOTSTRAP_RES`. -/
def bootstrap_contacts (received : Received) : List KadNodeInfo :=
  match decode_datagram host received with
  | none => []
  | some (op, payload, _) =>
    if op = KADEMLIA2_BOOTSTRAP_RES then
      match parse_bootstrap_res payload with
      | .ok (_, contacts) => contacts
      | .error _ => []
    else []

/-- An answer finds the receiver running with its names bound, and no request of the other kind to the node is
outstanding; no node is learned again after it answered and left the pool; and the monotonic clock shows that a save is
due where the wall clock does. -/
def Timely (run : SpiderRun) : SpiderEvent → Prop
  | .datagram received =>
    (∀ answer, answer_of host received = some answer → run.engine.receiving = true ∧
      run.engine.spider.locals = ⟨some KADEMLIA_CALLBACK_REQ, some KADEMLIA_FINDSERVINGBUDDY_RES⟩ ∧
      match answer with
      | .hello_res => run.engine.spider.ping_sent.get received.addr = none
      | .pong => run.engine.spider.hello_sent.get received.addr = none ∧
          run.engine.spider.nodes.get received.addr ≠ none) ∧
    ∀ contact ∈ bootstrap_contacts host received, run.engine.spider.nodes.get contact.key = none →
      run.history.answered contact.key = none
  | .seed node => run.engine.spider.nodes.get node.key = none → run.history.answered node.key = none
  | .save mono wall _ => run.engine.last_save + settings.save_s ≤ wall → run.engine.last_save + settings.save_s ≤ mono
  | _ => True

end Rotation

section Prune

variable {settings : SpiderSettings} {nodes : Dict Addr NodeRecord} {now : ℚ}

theorem get_prune_stale {key : Addr} {record : NodeRecord} :
    (nodes.eraseAll (nodes.keysWhere fun r => settings.STALE_DAYS * 86400 < now - r.last_seen)).get key = some record ↔
      nodes.get key = some record ∧ now - record.last_seen ≤ settings.STALE_DAYS * 86400 := by
  rw [Dict.get_eraseAll_keysWhere_iff, decide_eq_false_iff_not, not_lt]

/-- What is left when the first of an order go: the others. -/
theorem items_eraseAll_take {kept : Dict Addr NodeRecord} {order : List (Addr × NodeRecord)}
    (horder : order.Perm kept.items) (count : Nat) :
    (kept.eraseAll ((order.take count).map Prod.fst)).items.Perm (order.drop count) := by
  have hkeys : (order.map Prod.fst).Nodup := (horder.map _).nodup_iff.mpr kept.nodup_keys_items
  have hsplit : (order.take count ++ order.drop count).map Prod.fst = order.map Prod.fst := by
    rw [List.take_append_drop]
  rw [List.perm_ext_iff_of_nodup (Dict.nodup_keys_items _).of_map ((hkeys.of_map).sublist (List.drop_sublist _ _))]
  rintro ⟨key, record⟩
  rw [Dict.mem_items_iff, Dict.get_eraseAll]
  constructor
  · intro hget
    by_cases hfirst : key ∈ (order.take count).map Prod.fst
    · rw [if_pos hfirst] at hget
      cases hget
    · rw [if_neg hfirst] at hget
      have hmem : (key, record) ∈ order := horder.mem_iff.mpr (Dict.mem_items_iff.mpr hget)
      rw [← List.take_append_drop count order, List.mem_append] at hmem
      exact hmem.resolve_left fun htake => hfirst (List.mem_map_of_mem htake)
  · intro hdrop
    rw [← hsplit, List.map_append, List.nodup_append] at hkeys
    have hfirst : key ∉ (order.take count).map Prod.fst := fun htake =>
      hkeys.2.2 key htake key (List.mem_map_of_mem hdrop) rfl
    rw [if_neg hfirst]
    exact Dict.mem_items_iff.mp (horder.mem_iff.mp (List.mem_of_mem_drop hdrop))

/-- The oldest ones of what is not stale go, as many as are too many. -/
theorem prune_pool_spec (settings : SpiderSettings) (now : ℚ) (nodes : Dict Addr NodeRecord) :
    (prune_pool settings now nodes).1.items.length ≤ settings.MAX_POOL ∧
      ∀ key record, nodes.get key = some record → now - record.last_seen ≤ settings.STALE_DAYS * 86400 →
        (prune_pool settings now nodes).1.get key = some record ∨
          (prune_pool settings now nodes).1.items.length = settings.MAX_POOL ∧
            ∀ other kept, (prune_pool settings now nodes).1.get other = some kept →
              record.last_seen ≤ kept.last_seen := by
  obtain ⟨kept, hkept⟩ : ∃ kept, kept =
      nodes.eraseAll (nodes.keysWhere fun r => settings.STALE_DAYS * 86400 < now - r.last_seen) := ⟨_, rfl⟩
  have hget : ∀ key record, kept.get key = some record ↔
      nodes.get key = some record ∧ now - record.last_seen ≤ settings.STALE_DAYS * 86400 := by
    intro key record
    rw [hkept, get_prune_stale]
  simp only [prune_pool]
  rw [← hkept]
  by_cases hover : 0 < kept.items.length - settings.MAX_POOL
  · rw [if_pos hover]
    obtain ⟨order, horder⟩ : ∃ order, order =
        sorted (fun entry : Addr × NodeRecord => entry.2.last_seen) kept.items := ⟨_, rfl⟩
    have hperm : order.Perm kept.items := by
      rw [horder]
      exact sorted_perm _ _
    have hitems := items_eraseAll_take hperm (kept.items.length - settings.MAX_POOL)
    have hlength : (order.drop (kept.items.length - settings.MAX_POOL)).length = settings.MAX_POOL := by
      rw [List.length_drop, hperm.length_eq]
      omega
    rw [← horder]
    refine ⟨by rw [hitems.length_eq, hlength], ?_⟩
    intro key record hrecord hrecent
    have hmem : (key, record) ∈ order :=
      hperm.mem_iff.mpr (Dict.mem_items_iff.mpr ((hget key record).mpr ⟨hrecord, hrecent⟩))
    rw [← List.take_append_drop (kept.items.length - settings.MAX_POOL) order, List.mem_append] at hmem
    rcases hmem with hfirst | hlast
    · refine .inr ⟨by rw [hitems.length_eq, hlength], ?_⟩
      intro other found hfound
      have hdrop := hitems.mem_iff.mp (Dict.mem_items_iff.mpr hfound)
      have hsorted := pairwise_sorted (fun entry : Addr × NodeRecord => entry.2.last_seen) kept.items
      rw [← horder, ← List.take_append_drop (kept.items.length - settings.MAX_POOL) order,
        List.pairwise_append] at hsorted
      exact hsorted.2.2 _ hfirst _ hdrop
    · exact .inl (Dict.mem_items_iff.mp (hitems.mem_iff.mpr hlast))
  · rw [if_neg hover]
    refine ⟨Nat.sub_eq_zero_iff_le.mp (Nat.eq_zero_of_not_pos hover), ?_⟩
    intro key record hrecord hrecent
    exact .inl ((hget key record).mpr ⟨hrecord, hrecent⟩)

end Prune

section Invariant

variable {settings : SpiderSettings} {host : Host} {spider : Spider} {history : History} {received : Received}

/-- The maps that the rotation reads. -/
def Spider.maps (spider : Spider) : Dict Addr NodeRecord × Dict Addr ℚ × Dict Addr ℚ :=
  (spider.nodes, spider.hello_sent, spider.ping_sent)

/-- Whether a request to a node is outstanding, as a number. -/
def outstanding (sent : Dict Addr ℚ) (key : Addr) : Nat := ((sent.get key).map fun _ => 1).getD 0

/-- Counted and outstanding requests were sent since the last answer, and no node is seen before it answered. -/
structure Honest (maps : Dict Addr NodeRecord × Dict Addr ℚ × Dict Addr ℚ) (history : History) : Prop where
  counted : ∀ key, counted_fails maps.1 key + outstanding maps.2.1 key + outstanding maps.2.2 key ≤ history.asked key
  seen : ∀ key record answered_at, maps.1.get key = some record → history.answered key = some answered_at →
    answered_at ≤ record.last_seen

theorem outstanding_eq_zero {sent : Dict Addr ℚ} {key : Addr} (hnone : sent.get key = none) :
    outstanding sent key = 0 := by
  rw [outstanding, hnone]
  rfl

theorem outstanding_eq_one {sent : Dict Addr ℚ} {key : Addr} (hsome : sent.get key ≠ none) :
    outstanding sent key = 1 := by
  cases hget : sent.get key with
  | none => exact absurd hget hsome
  | some sent_at =>
    rw [outstanding, hget]
    rfl

theorem outstanding_erase (sent : Dict Addr ℚ) (key other : Addr) :
    outstanding (sent.erase key) other = if other = key then 0 else outstanding sent other := by
  by_cases hkey : other = key
  · rw [if_pos hkey, outstanding, hkey, Dict.get_erase_self]
    rfl
  · rw [if_neg hkey, outstanding, Dict.get_erase_of_ne hkey, outstanding]

theorem outstanding_set_sent (sent : Dict Addr ℚ) (key other : Addr) (sent_at : ℚ) :
    outstanding (set_sent sent key sent_at) other ≤ outstanding sent other + if other = key then 1 else 0 := by
  rw [set_sent]
  cases hget : sent.get key with
  | some earlier => exact Nat.le_add_right _ _
  | none =>
    by_cases hkey : other = key
    · rw [if_pos hkey, hkey, outstanding, Dict.get_set_self]
      exact Nat.le_add_left 1 _
    · rw [if_neg hkey, outstanding, Dict.get_set_of_ne hkey, outstanding]
      exact Nat.le_add_right _ _

/-- A fail is counted for one node, or evicts it. -/
theorem count_fail_spec (settings : SpiderSettings) (nodes : Dict Addr NodeRecord) (key other : Addr) :
    counted_fails (count_fail settings nodes key) other ≤ counted_fails nodes other + (if other = key then 1 else 0) ∧
      (∀ record, (count_fail settings nodes key).get other = some record →
        ∃ before, nodes.get other = some before ∧ before.last_seen = record.last_seen) ∧
      (nodes.get other ≠ none → (count_fail settings nodes key).get other = none →
        other = key ∧ settings.MAX_NODE_FAILS ≤ counted_fails nodes key + 1) := by
  rw [count_fail]
  cases hget : nodes.get key with
  | none => exact ⟨Nat.le_add_right _ _, fun record hrecord => ⟨record, hrecord, rfl⟩, fun h hnone => absurd hnone h⟩
  | some found =>
    have hfails : counted_fails nodes key = found.fails.getD 0 := by
      rw [counted_fails, hget]
      rfl
    by_cases hfull : settings.MAX_NODE_FAILS ≤ found.fails.getD 0 + 1
    · simp only [if_pos hfull]
      by_cases hkey : other = key
      · subst hkey
        refine ⟨?_, ?_, fun _ _ => ⟨rfl, by rwa [hfails]⟩⟩
        · rw [counted_fails, Dict.get_erase_self]
          exact Nat.zero_le _
        · intro record hrecord
          rw [Dict.get_erase_self] at hrecord
          cases hrecord
      · rw [counted_fails, Dict.get_erase_of_ne hkey]
        exact ⟨Nat.le_add_right _ _, fun record hrecord => ⟨record, hrecord, rfl⟩, fun h hnone => absurd hnone h⟩
    · simp only [if_neg hfull]
      by_cases hkey : other = key
      · subst hkey
        refine ⟨?_, ?_, ?_⟩
        · rw [if_pos rfl, hfails, counted_fails, Dict.get_set_self]
          exact Nat.le_refl _
        · intro record hrecord
          rw [Dict.get_set_self] at hrecord
          cases hrecord
          exact ⟨found, hget, rfl⟩
        · intro _ hnone
          rw [Dict.get_set_self] at hnone
          cases hnone
      · rw [counted_fails, Dict.get_set_of_ne hkey]
        exact ⟨Nat.le_add_right _ _, fun record hrecord => ⟨record, hrecord, rfl⟩, fun h hnone => absurd hnone h⟩

/-- What a sweep leaves: honest maps, without nodes that were asked too often only. -/
structure Swept (settings : SpiderSettings) (history : History) (before after : Spider) : Prop where
  honest : Honest after.maps history
  evicted : ∀ key, before.nodes.get key ≠ none → after.nodes.get key = none →
    settings.MAX_NODE_FAILS ≤ history.asked key

theorem Swept.trans {before middle after : Spider} (h : Swept settings history before middle)
    (h' : Swept settings history middle after) : Swept settings history before after := by
  refine ⟨h'.honest, ?_⟩
  intro key hthere hgone
  by_cases hmiddle : middle.nodes.get key = none
  · exact h.evicted key hthere hmiddle
  · exact h'.evicted key hmiddle hgone

/-- A request that times out is outstanding no more, and counts instead. -/
theorem Honest.time_out (settings : SpiderSettings) {nodes : Dict Addr NodeRecord} {one other : Dict Addr ℚ}
    {key : Addr}
    (hcounted : ∀ k, counted_fails nodes k + outstanding one k + outstanding other k ≤ history.asked k)
    (hthere : one.get key ≠ none) :
    (∀ k, counted_fails (count_fail settings nodes key) k + outstanding (one.erase key) k + outstanding other k ≤
      history.asked k) ∧
      ∀ k, nodes.get k ≠ none → (count_fail settings nodes key).get k = none →
        settings.MAX_NODE_FAILS ≤ history.asked k := by
  constructor
  · intro k
    have hfails := (count_fail_spec settings nodes key k).1
    have hbefore := hcounted k
    rw [outstanding_erase]
    by_cases hkey : k = key
    · subst hkey
      rw [outstanding_eq_one hthere] at hbefore
      rw [if_pos rfl] at hfails
      rw [if_pos rfl]
      omega
    · rw [if_neg hkey] at hfails
      rw [if_neg hkey]
      omega
  · intro k hbefore hgone
    obtain ⟨rfl, hmany⟩ := (count_fail_spec settings nodes key k).2.2 hbefore hgone
    have hasked := hcounted k
    rw [outstanding_eq_one hthere] at hasked
    omega

theorem seen_count_fail {nodes : Dict Addr NodeRecord} (key : Addr)
    (hseen : ∀ k record answered_at, nodes.get k = some record → history.answered k = some answered_at →
      answered_at ≤ record.last_seen) :
    ∀ k record answered_at, (count_fail settings nodes key).get k = some record →
      history.answered k = some answered_at → answered_at ≤ record.last_seen := by
  intro k record answered_at hrecord hanswered
  obtain ⟨before, hbefore, hsame⟩ := (count_fail_spec settings nodes key k).2.1 record hrecord
  rw [← hsame]
  exact hseen k before answered_at hbefore hanswered

theorem Honest.sweep_hello (h : Honest spider.maps history) (now : ℚ) {pending : Addr × ℚ}
    (hthere : spider.hello_sent.get pending.1 ≠ none) :
    Swept settings history spider (spider.sweep_hello settings now pending) := by
  rw [Spider.sweep_hello]
  split
  · exact ⟨h, fun _ hbefore hgone => absurd hgone hbefore⟩
  · obtain ⟨hcounted, hevicted⟩ := Honest.time_out settings h.counted hthere
    exact ⟨⟨hcounted, seen_count_fail pending.1 h.seen⟩, hevicted⟩

theorem Honest.sweep_ping (h : Honest spider.maps history) (now : ℚ) {pending : Addr × ℚ}
    (hthere : spider.ping_sent.get pending.1 ≠ none) :
    Swept settings history spider (spider.sweep_ping settings now pending) := by
  rw [Spider.sweep_ping]
  split
  · exact ⟨h, fun _ hbefore hgone => absurd hgone hbefore⟩
  · have hswapped : ∀ k, counted_fails spider.nodes k + outstanding spider.ping_sent k +
        outstanding spider.hello_sent k ≤ history.asked k := by
      intro k
      have hcounted : counted_fails spider.nodes k + outstanding spider.hello_sent k +
        outstanding spider.ping_sent k ≤ history.asked k := h.counted k
      omega
    obtain ⟨hcounted, hevicted⟩ := Honest.time_out settings hswapped hthere
    refine ⟨⟨fun k => ?_, seen_count_fail pending.1 h.seen⟩, hevicted⟩
    have hafter := hcounted k
    change counted_fails (count_fail settings spider.nodes pending.1) k + outstanding spider.hello_sent k +
      outstanding (spider.ping_sent.erase pending.1) k ≤ _
    omega

/-- A sweep over requests that are all outstanding: one that is handled takes no other from the map. -/
theorem Swept.foldl {sweep_one : Spider → Addr × ℚ → Spider} {sent : Spider → Dict Addr ℚ}
    (hone : ∀ (spider : Spider) pending, Honest spider.maps history → (sent spider).get pending.1 ≠ none →
      Swept settings history spider (sweep_one spider pending))
    (hothers : ∀ (spider : Spider) (pending : Addr × ℚ) key, key ≠ pending.1 →
      (sent (sweep_one spider pending)).get key = (sent spider).get key)
    {pendings : List (Addr × ℚ)} (h : Honest spider.maps history) (hnodup : (pendings.map Prod.fst).Nodup)
    (hthere : ∀ pending ∈ pendings, (sent spider).get pending.1 ≠ none) :
    Swept settings history spider (pendings.foldl sweep_one spider) := by
  induction pendings generalizing spider with
  | nil => exact ⟨h, fun _ hbefore hgone => absurd hgone hbefore⟩
  | cons pending pendings ih =>
    rw [List.map_cons, List.nodup_cons] at hnodup
    have hfirst := hone spider pending h (hthere pending List.mem_cons_self)
    refine hfirst.trans (ih hfirst.honest hnodup.2 ?_)
    intro other hother
    have hne : other.1 ≠ pending.1 := fun hsame => hnodup.1 (hsame ▸ List.mem_map_of_mem hother)
    rw [hothers spider pending other.1 hne]
    exact hthere other (List.mem_cons_of_mem _ hother)

theorem get_of_mem_items {sent : Dict Addr ℚ} {pending : Addr × ℚ} (hmem : pending ∈ sent.items) :
    sent.get pending.1 ≠ none := by
  rw [Dict.mem_items_iff.mp hmem]
  exact Option.some_ne_none _

/-- The sweep evicts only nodes that were asked too often. -/
theorem Honest.sweep (settings : SpiderSettings) (h : Honest spider.maps history) (now : ℚ) :
    Swept settings history spider (spider.sweep settings now) := by
  have hhello : Swept settings history spider
      (spider.hello_sent.items.foldl (Spider.sweep_hello settings now) spider) := by
    refine Swept.foldl (fun _ _ hhonest hthere => hhonest.sweep_hello now hthere) ?_ h
      spider.hello_sent.nodup_keys_items fun _ hpending => get_of_mem_items hpending
    intro spider pending key hne
    rw [Spider.sweep_hello]
    split
    · rfl
    · exact Dict.get_erase_of_ne hne _
  refine hhello.trans ?_
  refine Swept.foldl (fun _ _ hhonest hthere => hhonest.sweep_ping now hthere) ?_ hhello.honest
    (Dict.nodup_keys_items _) fun _ hpending => get_of_mem_items hpending
  intro spider pending key hne
  rw [Spider.sweep_ping]
  split
  · rfl
  · exact Dict.get_erase_of_ne hne _

/-- Each record was there before with the same fails and the same `last_seen`, or is that of a new node that never
answered. -/
def Inherits (history : History) (before after : Dict Addr NodeRecord) : Prop :=
  ∀ key record, after.get key = some record →
    (∃ earlier, before.get key = some earlier ∧ earlier.fails.getD 0 = record.fails.getD 0 ∧
      earlier.last_seen = record.last_seen) ∨
    record.fails.getD 0 = 0 ∧ history.answered key = none

theorem Inherits.refl (nodes : Dict Addr NodeRecord) : Inherits history nodes nodes :=
  fun _ record hrecord => .inl ⟨record, hrecord, rfl, rfl⟩

theorem Inherits.trans {before middle after : Dict Addr NodeRecord} (h : Inherits history before middle)
    (h' : Inherits history middle after) : Inherits history before after := by
  intro key record hrecord
  rcases h' key record hrecord with ⟨earlier, hearlier, hfails, hseen⟩ | hnew
  · rcases h key earlier hearlier with ⟨first, hfirst, hfails', hseen'⟩ | ⟨hzero, hanswered⟩
    · exact .inl ⟨first, hfirst, hfails'.trans hfails, hseen'.trans hseen⟩
    · exact .inr ⟨hfails ▸ hzero, hanswered⟩
  · exact .inr hnew

/-- One record that is written anew. -/
theorem Inherits.set {nodes : Dict Addr NodeRecord} {key : Addr} {record : NodeRecord}
    (hrecord : (∃ earlier, nodes.get key = some earlier ∧ earlier.fails.getD 0 = record.fails.getD 0 ∧
      earlier.last_seen = record.last_seen) ∨ record.fails.getD 0 = 0 ∧ history.answered key = none) :
    Inherits history nodes (nodes.set key record) := by
  intro other found hfound
  by_cases hkey : other = key
  · subst hkey
    rw [Dict.get_set_self] at hfound
    cases hfound
    exact hrecord
  · rw [Dict.get_set_of_ne hkey] at hfound
    exact .inl ⟨found, hfound, rfl, rfl⟩

theorem Honest.inherit {before after : Dict Addr NodeRecord} {sent : Dict Addr ℚ × Dict Addr ℚ}
    (h : Honest (before, sent) history) (hinherits : Inherits history before after) :
    Honest (after, sent) history := by
  constructor
  · intro key
    have hfails : counted_fails after key ≤ counted_fails before key := by
      rw [counted_fails]
      cases hget : after.get key with
      | none => exact Nat.zero_le _
      | some record =>
        change record.fails.getD 0 ≤ _
        rcases hinherits key record hget with ⟨earlier, hearlier, hfails, -⟩ | ⟨hzero, -⟩
        · rw [counted_fails, hearlier, ← hfails]
          exact Nat.le_refl _
        · rw [hzero]
          exact Nat.zero_le _
    have hcounted := h.counted key
    dsimp only at hcounted ⊢
    omega
  · intro key record answered_at hrecord hanswered
    rcases hinherits key record hrecord with ⟨earlier, hearlier, -, hseen⟩ | ⟨-, hnone⟩
    · rw [← hseen]
      exact h.seen key earlier answered_at hearlier hanswered
    · rw [hnone] at hanswered
      cases hanswered

theorem inherits_learn_key (spider : Spider) (key : Addr) (send_key : Option Nat) :
    Inherits history spider.nodes (spider.learn_key key send_key).nodes := by
  unfold Spider.learn_key
  split
  · rename_i record send_key hrecord
    split
    · exact Inherits.set (.inl ⟨record, hrecord, rfl, rfl⟩)
    · exact Inherits.refl _
  · exact Inherits.refl _

theorem inherits_add_contact {nodes : Dict Addr NodeRecord} (contact : KadNodeInfo)
    (hnew : nodes.get contact.key = none → history.answered contact.key = none) :
    Inherits history nodes (Spider.add_contact nodes contact) := by
  rw [Spider.add_contact]
  split
  · apply Inherits.set
    cases hget : nodes.get contact.key with
    | none => exact .inr ⟨rfl, hnew hget⟩
    | some record => exact .inl ⟨record, rfl, rfl, rfl⟩
  · exact Inherits.refl _

theorem inherits_add_contacts {contacts : List KadNodeInfo} {nodes : Dict Addr NodeRecord}
    (hnew : ∀ contact ∈ contacts, nodes.get contact.key = none → history.answered contact.key = none) :
    Inherits history nodes (contacts.foldl Spider.add_contact nodes) := by
  induction contacts generalizing nodes with
  | nil => exact Inherits.refl _
  | cons first contacts ih =>
    refine (inherits_add_contact first (hnew first List.mem_cons_self)).trans (ih ?_)
    intro contact hcontact hnone
    refine hnew contact (List.mem_cons_of_mem _ hcontact) ?_
    by_contra hpresent
    exact get_add_contact first (.inl hpresent) hnone

theorem inherits_add_seed {nodes : Dict Addr NodeRecord} (node : KadNodeInfo)
    (hnew : nodes.get node.key = none → history.answered node.key = none) :
    Inherits history nodes (add_seed nodes node) := by
  rw [add_seed]
  split
  · cases hget : nodes.get node.key with
    | none => exact Inherits.set (.inr ⟨rfl, hnew hget⟩)
    | some record => exact Inherits.refl _
  · exact Inherits.refl _

theorem inherits_eraseAll (nodes : Dict Addr NodeRecord) (keys : List Addr) :
    Inherits history nodes (nodes.eraseAll keys) := by
  intro key record hrecord
  rw [Dict.get_eraseAll] at hrecord
  split at hrecord
  · cases hrecord
  · exact .inl ⟨record, hrecord, rfl, rfl⟩

theorem inherits_prune_pool (now : ℚ) (nodes : Dict Addr NodeRecord) :
    Inherits history nodes (prune_pool settings now nodes).1 := by
  simp only [prune_pool]
  split
  · exact (inherits_eraseAll nodes _).trans (inherits_eraseAll _ _)
  · exact inherits_eraseAll nodes _

end Invariant

section Receive

variable {settings : SpiderSettings} {host : Host} {spider : Spider} {history : History} {received : Received}

/-- What a datagram can do to the maps. -/
theorem maps_dispatch (host : Host) (spider : Spider) (received : Received) (op : UInt8) (payload : Bytes) :
    (spider.dispatch host received op payload).1.maps = spider.maps ∨
      (op = KADEMLIA2_HELLO_RES ∧ (∃ hello, parse_hello_res payload = .ok hello) ∧
        (spider.dispatch host received op payload).1 = spider.on_hello_res received payload) ∨
      (op = KADEMLIA2_PONG ∧ spider.nodes.get received.addr ≠ none ∧
        (spider.dispatch host received op payload).1 = spider.on_pong host received) ∨
      (op = KADEMLIA2_BOOTSTRAP_RES ∧ ∃ sender contacts, parse_bootstrap_res payload = .ok (sender, contacts) ∧
        (spider.dispatch host received op payload).1.maps =
          (contacts.foldl Spider.add_contact spider.nodes, spider.hello_sent, spider.ping_sent)) := by
  have hreq : (spider.on_find_serving_buddy_req host received payload).maps = spider.maps := by
    unfold Spider.on_find_serving_buddy_req
    cases parse_find_serving_buddy_req payload with
    | error e => rfl
    | ok request => cases received.can_serve <;> rfl
  have hcallback : (spider.on_callback_req received payload).maps = spider.maps := by
    unfold Spider.on_callback_req
    cases parse_callback_req payload <;> rfl
  have hres : (spider.on_find_serving_buddy_res received payload).maps = spider.maps := by
    unfold Spider.on_find_serving_buddy_res
    split
    · rfl
    · split <;> rfl
  unfold Spider.dispatch
  split
  · exact .inl hreq
  split
  · exact .inl rfl
  split
  · exact .inl hcallback
  split
  · exact .inl rfl
  split
  · exact .inl hres
  rw [Spider.on_kad2]
  split
  · rename_i hop
    cases hparse : parse_hello_res payload with
    | error e =>
      rw [Spider.on_hello_res, hparse]
      exact .inl rfl
    | ok hello => exact .inr (.inl ⟨hop, ⟨hello, rfl⟩, rfl⟩)
  split
  · rename_i hop
    by_cases hpool : spider.nodes.get received.addr = none
    · have hrewarded : (spider.reward received.addr (1 / 5)).nodes.get received.addr = none := hpool
      simp only [Spider.on_pong, hrewarded]
      exact .inl rfl
    · exact .inr (.inr (.inl ⟨hop, hpool, rfl⟩))
  split
  · rename_i hop
    cases hparse : parse_bootstrap_res payload with
    | error e =>
      rw [Spider.on_bootstrap_res, hparse]
      exact .inl rfl
    | ok parsed =>
      refine .inr (.inr (.inr ⟨hop, parsed.1, parsed.2, rfl, ?_⟩))
      rw [Spider.on_bootstrap_res, hparse]
      rfl
  · exact .inl rfl

theorem maps_on_hello_res (spider : Spider) (received : Received) {payload : Bytes} {hello : KadHelloInfo}
    (hparse : parse_hello_res payload = .ok hello) :
    ∃ record, record.fails = some 0 ∧ record.last_seen = received.now ∧
      (spider.on_hello_res received payload).maps =
        (spider.nodes.set received.addr record, spider.hello_sent.erase received.addr, spider.ping_sent) := by
  rw [Spider.on_hello_res, hparse]
  exact ⟨_, rfl, rfl, rfl⟩

theorem maps_on_pong (host : Host) (hthere : spider.nodes.get received.addr ≠ none) :
    ∃ record, record.fails = some 0 ∧ record.last_seen = received.now ∧
      (spider.on_pong host received).maps =
        (spider.nodes.set received.addr record, spider.hello_sent, spider.ping_sent.erase received.addr) := by
  have hrewarded : (spider.reward received.addr (1 / 5)).nodes.get received.addr = spider.nodes.get received.addr := rfl
  cases hrecord : spider.nodes.get received.addr with
  | none => exact absurd hrecord hthere
  | some record =>
    simp only [Spider.on_pong, hrewarded, hrecord]
    split
    · exact ⟨_, rfl, rfl, rfl⟩
    · exact ⟨_, rfl, rfl, rfl⟩

theorem get_learn_key_eq_none {key other : Addr} {send_key : Option Nat}
    (hnone : (spider.learn_key other send_key).nodes.get key = none) : spider.nodes.get key = none := by
  by_contra hthere
  revert hnone
  unfold Spider.learn_key
  split
  · split
    · exact Dict.get_set_ne_none hthere
    · exact hthere
  · exact hthere

/-- Handling a datagram takes no node from the pool. -/
theorem get_receive_ne_none {key : Addr} (hthere : spider.nodes.get key ≠ none) :
    (spider.receive host received).1.nodes.get key ≠ none := by
  rw [Spider.receive]
  cases hdecode : decode_datagram host received with
  | none => exact hthere
  | some decoded =>
    obtain ⟨op, payload, send_key⟩ := decoded
    dsimp only
    have hkept : (spider.learn_key received.addr send_key).nodes.get key ≠ none :=
      fun hnone => hthere (get_learn_key_eq_none hnone)
    generalize spider.learn_key received.addr send_key = learned at hkept ⊢
    obtain ⟨after, hafter⟩ : ∃ after, after = (learned.dispatch host received op payload).1 := ⟨_, rfl⟩
    have hcases := maps_dispatch host learned received op payload
    rw [← hafter] at hcases ⊢
    rcases hcases with hmaps | ⟨-, ⟨hello, hparse⟩, rfl⟩ | ⟨-, hpool, rfl⟩ | ⟨-, sender, contacts, -, hmaps⟩
    · have hnodes : after.nodes = learned.nodes := congrArg Prod.fst hmaps
      rw [hnodes]
      exact hkept
    · obtain ⟨record, -, -, hmaps⟩ := maps_on_hello_res learned received hparse
      have hnodes : (learned.on_hello_res received payload).nodes = learned.nodes.set received.addr record :=
        congrArg Prod.fst hmaps
      rw [hnodes]
      exact Dict.get_set_ne_none hkept
    · obtain ⟨record, -, -, hmaps⟩ := maps_on_pong host hpool
      have hnodes : (learned.on_pong host received).nodes = learned.nodes.set received.addr record :=
        congrArg Prod.fst hmaps
      rw [hnodes]
      exact Dict.get_set_ne_none hkept
    · have hnodes : after.nodes = contacts.foldl Spider.add_contact learned.nodes := congrArg Prod.fst hmaps
      rw [hnodes]
      exact get_add_contacts (.inl hkept)

theorem maps_learn_key (spider : Spider) (key : Addr) (send_key : Option Nat) :
    (spider.learn_key key send_key).maps =
      ((spider.learn_key key send_key).nodes, spider.hello_sent, spider.ping_sent) := by
  unfold Spider.learn_key
  split
  · split <;> rfl
  · rfl

theorem Honest.learn_key (h : Honest spider.maps history) (key : Addr) (send_key : Option Nat) :
    Honest (spider.learn_key key send_key).maps history := by
  rw [maps_learn_key]
  exact h.inherit (inherits_learn_key spider key send_key)

/-- A datagram that is no answer changes no fails and no `last_seen`. -/
theorem Honest.receive_other (h : Honest spider.maps history) (hother : answer_of host received = none)
    (hnew : ∀ contact ∈ bootstrap_contacts host received, spider.nodes.get contact.key = none →
      history.answered contact.key = none) :
    Honest (spider.receive host received).1.maps history := by
  rw [Spider.receive]
  cases hdecode : decode_datagram host received with
  | none => exact h
  | some decoded =>
    obtain ⟨op, payload, send_key⟩ := decoded
    have hlearned := h.learn_key received.addr send_key
    rw [answer_of, hdecode] at hother
    rw [bootstrap_contacts, hdecode] at hnew
    dsimp only at hother hnew ⊢
    rcases maps_dispatch host (spider.learn_key received.addr send_key) received op payload with
      hmaps | ⟨rfl, ⟨hello, hparse⟩, -⟩ | ⟨rfl, -, -⟩ | ⟨rfl, sender, contacts, hparse, hmaps⟩
    · rw [hmaps]
      exact hlearned
    · rw [if_pos rfl, hparse] at hother
      cases hother
    · rw [if_neg (by decide), if_pos rfl] at hother
      cases hother
    · rw [if_pos rfl, hparse] at hnew
      rw [hmaps]
      refine hlearned.inherit (inherits_add_contacts ?_)
      intro contact hcontact hnone
      exact hnew contact hcontact (get_learn_key_eq_none hnone)

/-- After an answer the record of the node has no fails, is seen at that time, and no request to it is outstanding. -/
theorem Honest.answer {nodes : Dict Addr NodeRecord} {hello ping hello' ping' : Dict Addr ℚ} {addr : Addr}
    {record : NodeRecord} (h : Honest (nodes, hello, ping) history) (now : ℚ) (hfails : record.fails = some 0)
    (hseen : record.last_seen = now) (hnone : hello'.get addr = none ∧ ping'.get addr = none)
    (hothers : ∀ key, key ≠ addr → hello'.get key = hello.get key ∧ ping'.get key = ping.get key) :
    Honest (nodes.set addr record, hello', ping')
      { answered := Function.update history.answered addr (some now)
        asked := Function.update history.asked addr 0 } := by
  constructor
  · intro key
    dsimp only
    by_cases hkey : key = addr
    · subst hkey
      rw [outstanding_eq_zero hnone.1, outstanding_eq_zero hnone.2, counted_fails, Dict.get_set_self]
      change record.fails.getD 0 ≤ _
      rw [hfails]
      exact Nat.zero_le _
    · rw [Function.update_of_ne hkey, counted_fails, Dict.get_set_of_ne hkey, outstanding, outstanding,
        (hothers key hkey).1, (hothers key hkey).2]
      exact h.counted key
  · intro key found answered_at hfound hanswered
    dsimp only at hfound hanswered
    by_cases hkey : key = addr
    · subst hkey
      rw [Dict.get_set_self] at hfound
      cases hfound
      rw [Function.update_self] at hanswered
      cases hanswered
      exact hseen.ge
    · rw [Dict.get_set_of_ne hkey] at hfound
      rw [Function.update_of_ne hkey] at hanswered
      exact h.seen key found answered_at hfound hanswered

theorem Honest.receive_answer {answer : Answer} (h : Honest spider.maps history)
    (hbound : spider.locals = ⟨some KADEMLIA_CALLBACK_REQ, some KADEMLIA_FINDSERVINGBUDDY_RES⟩)
    (hother : match answer with
      | .hello_res => spider.ping_sent.get received.addr = none
      | .pong => spider.hello_sent.get received.addr = none ∧ spider.nodes.get received.addr ≠ none)
    (hanswer : answer_of host received = some answer) :
    Honest (spider.receive host received).1.maps (history.step host (.datagram received)) := by
  rw [History.step, hanswer]
  rw [answer_of] at hanswer
  cases hdecode : decode_datagram host received with
  | none =>
    rw [hdecode] at hanswer
    cases hanswer
  | some decoded =>
    obtain ⟨op, payload, send_key⟩ := decoded
    rw [hdecode] at hanswer
    dsimp only at hanswer ⊢
    have hmaps := maps_learn_key spider received.addr send_key
    have hhello : (spider.learn_key received.addr send_key).hello_sent = spider.hello_sent :=
      congrArg (fun maps => maps.2.1) hmaps
    have hping : (spider.learn_key received.addr send_key).ping_sent = spider.ping_sent :=
      congrArg (fun maps => maps.2.2) hmaps
    have hlearned := h.learn_key received.addr send_key
    by_cases hres : op = KADEMLIA2_HELLO_RES
    · subst hres
      rw [if_pos rfl] at hanswer
      cases hparse : parse_hello_res payload with
      | error e =>
        rw [hparse] at hanswer
        cases hanswer
      | ok hello =>
        rw [hparse] at hanswer
        cases hanswer
        obtain ⟨record, hfails, hseen, hafter⟩ := maps_on_hello_res
          (spider.learn_key received.addr send_key) received hparse
        rw [receive_kad2 hbound hdecode (by decide), Spider.on_kad2, if_pos rfl, hafter]
        refine hlearned.answer received.now hfails hseen ⟨Dict.get_erase_self _ _, ?_⟩ fun key hkey => ⟨?_, rfl⟩
        · rw [hping]
          exact hother
        · exact Dict.get_erase_of_ne hkey _
    · rw [if_neg hres] at hanswer
      by_cases hpong : op = KADEMLIA2_PONG
      · subst hpong
        rw [if_pos rfl] at hanswer
        cases hanswer
        have hpool : (spider.learn_key received.addr send_key).nodes.get received.addr ≠ none :=
          fun hnone => hother.2 (get_learn_key_eq_none hnone)
        obtain ⟨record, hfails, hseen, hafter⟩ := maps_on_pong host hpool
        rw [receive_kad2 hbound hdecode (by decide), Spider.on_kad2, if_neg (by decide), if_pos rfl, hafter]
        refine hlearned.answer received.now hfails hseen ⟨?_, Dict.get_erase_self _ _⟩ fun key hkey => ⟨rfl, ?_⟩
        · rw [hhello]
          exact hother.1
        · exact Dict.get_erase_of_ne hkey _
      · rw [if_neg hpong] at hanswer
        cases hanswer

end Receive

section Runs

variable {settings : SpiderSettings} {host : Host} {run : SpiderRun} {event : SpiderEvent}

theorem spider_datagram (engine : SpiderEngine) (received : Received) (hreceiving : engine.receiving = true) :
    (engine.step settings host (.datagram received)).spider = (engine.spider.receive host received).1 := by
  rw [SpiderEngine.step, if_pos hreceiving]
  cases hreceive : engine.spider.receive host received with
  | mk after left => cases left <;> rfl

theorem honest_start (spider : Spider) (started_at : ℚ) :
    Honest (SpiderRun.start spider started_at).engine.spider.maps (SpiderRun.start spider started_at).history := by
  constructor
  · intro key
    change counted_fails spider.nodes key + outstanding .empty key + outstanding .empty key ≤
      counted_fails spider.nodes key
    rw [outstanding_eq_zero (Dict.get_empty key)]
    exact Nat.le_refl _
  · intro key record answered_at hrecord hanswered
    have hnodes : spider.nodes.get key = some record := hrecord
    have hstart : ((spider.nodes.get key).map NodeRecord.last_seen).filter (fun last_seen => 0 < last_seen) =
        some answered_at := hanswered
    rw [hnodes, Option.map_some, Option.filter_eq_some_iff] at hstart
    cases hstart.1
    exact le_refl _

/-- One more request that is outstanding was sent. -/
theorem Honest.ask {maps maps' : Dict Addr NodeRecord × Dict Addr ℚ × Dict Addr ℚ} {history : History} {asked : Addr}
    (h : Honest maps history) (hnodes : maps'.1 = maps.1)
    (houtstanding : ∀ key, outstanding maps'.2.1 key + outstanding maps'.2.2 key ≤
      outstanding maps.2.1 key + outstanding maps.2.2 key + if key = asked then 1 else 0) :
    Honest maps' { history with asked := Function.update history.asked asked (history.asked asked + 1) } := by
  constructor
  · intro key
    have hcounted := h.counted key
    have hsent := houtstanding key
    rw [hnodes]
    dsimp only
    by_cases hkey : key = asked
    · subst hkey
      rw [if_pos rfl] at hsent
      rw [Function.update_self]
      omega
    · rw [if_neg hkey] at hsent
      rw [Function.update_of_ne hkey]
      omega
  · intro key record answered_at hrecord hanswered
    rw [hnodes] at hrecord
    exact h.seen key record answered_at hrecord hanswered

/-- A timely step keeps the records honest. -/
theorem honest_step (h : Honest run.engine.spider.maps run.history) (htimely : Timely settings host run event) :
    Honest (run.step settings host event).engine.spider.maps (run.step settings host event).history := by
  cases event with
  | datagram received =>
    obtain ⟨hanswers, hnew⟩ := htimely
    rw [SpiderRun.step]
    dsimp only
    cases hanswer : answer_of host received with
    | some answer =>
      obtain ⟨hreceiving, hbound, hother⟩ := hanswers answer hanswer
      rw [spider_datagram _ received hreceiving]
      exact h.receive_answer hbound hother hanswer
    | none =>
      have hhistory : run.history.step host (.datagram received) = run.history := by rw [History.step, hanswer]
      rw [hhistory]
      by_cases hreceiving : run.engine.receiving = true
      · rw [spider_datagram _ received hreceiving]
        exact h.receive_other hanswer hnew
      · rw [SpiderEngine.step, if_neg hreceiving]
        exact h
  | hello key sent_at =>
    refine h.ask rfl fun other => ?_
    have hset := outstanding_set_sent run.engine.spider.hello_sent key other sent_at
    change outstanding (set_sent run.engine.spider.hello_sent key sent_at) other +
      outstanding run.engine.spider.ping_sent other ≤ outstanding run.engine.spider.hello_sent other +
        outstanding run.engine.spider.ping_sent other + _
    omega
  | ping key sent_at =>
    refine h.ask rfl fun other => ?_
    have hset := outstanding_set_sent run.engine.spider.ping_sent key other sent_at
    change outstanding run.engine.spider.hello_sent other +
      outstanding (set_sent run.engine.spider.ping_sent key sent_at) other ≤
        outstanding run.engine.spider.hello_sent other + outstanding run.engine.spider.ping_sent other + _
    omega
  | sweep now => exact (h.sweep settings now).honest
  | seed node => exact h.inherit (inherits_add_seed node htimely)
  | save mono wall saved_at =>
    rw [SpiderRun.step, SpiderEngine.step]
    split
    · exact h.inherit (inherits_prune_pool wall run.engine.spider.nodes)
    · exact h

/-- What a save leaves of the pool. -/
theorem pruned_save {history : History} {nodes : Dict Addr NodeRecord} {wall : ℚ}
    (hseen : ∀ key record answered_at, nodes.get key = some record → history.answered key = some answered_at →
      answered_at ≤ record.last_seen) :
    Pruned settings wall history nodes (prune_pool settings wall nodes).1 := by
  obtain ⟨hroom, hkept⟩ := prune_pool_spec settings wall nodes
  refine ⟨hroom, ?_⟩
  intro key record answered_at hrecord hanswered hrecent
  have hlater := hseen key record answered_at hrecord hanswered
  exact hkept key record hrecord ((sub_le_sub_left hlater wall).trans hrecent)

/-- A timely step rotates the pool as it should. -/
theorem rotates_step (h : Honest run.engine.spider.maps run.history) (htimely : Timely settings host run event) :
    Rotates settings host run event := by
  cases event with
  | datagram received =>
    intro key hthere
    rw [SpiderRun.step]
    by_cases hreceiving : run.engine.receiving = true
    · rw [spider_datagram _ received hreceiving]
      exact get_receive_ne_none hthere
    · rw [SpiderEngine.step, if_neg hreceiving]
      exact hthere
  | hello key sent_at => exact fun _ hthere => hthere
  | ping key sent_at => exact fun _ hthere => hthere
  | sweep now => exact (h.sweep settings now).evicted
  | seed node =>
    intro key hthere
    change (add_seed run.engine.spider.nodes node).get key ≠ none
    rw [add_seed]
    split
    · split
      · exact hthere
      · exact Dict.get_set_ne_none hthere
    · exact hthere
  | save mono wall saved_at =>
    constructor
    · intro hdue
      rw [SpiderRun.step, SpiderEngine.step, if_pos (htimely hdue)]
      exact ⟨rfl, rfl⟩
    · rw [SpiderRun.step, SpiderEngine.step]
      split
      · exact fun _ => pruned_save h.seen
      · exact fun hsaved => absurd rfl hsaved

/-- Where only the wall clock shows that a save is due, the pool is not saved. -/
theorem not_rotates_save {mono wall saved_at : ℚ} (hdue : run.engine.last_save + settings.save_s ≤ wall)
    (hearly : mono < run.engine.last_save + settings.save_s) :
    ¬ Rotates settings host run (.save mono wall saved_at) := by
  rintro ⟨hsaves, -⟩
  have hunsaved := (hsaves hdue).2
  rw [SpiderRun.step, SpiderEngine.step, if_neg hearly.not_ge] at hunsaved
  exact List.ne_cons_self (List.self_eq_append_right.mp hunsaved).symm

def HonestRun (run : SpiderRun) : Prop := Honest run.engine.spider.maps run.history

/-- In every run of cycles whose steps are all timely the pool is rotated as it should. -/
theorem rotates_of_timely (settings : SpiderSettings) (host : Host) (spider : Spider) (started_at : ℚ)
    (cycles : List SpiderCycle)
    (htimely : AllSteps (SpiderRun.step settings host) (SpiderRun.start spider started_at) (Timely settings host)
      (cycles.flatMap SpiderCycle.events)) :
    AllSteps (SpiderRun.step settings host) (SpiderRun.start spider started_at) (Rotates settings host)
      (cycles.flatMap SpiderCycle.events) := by
  have hstart : HonestRun (SpiderRun.start spider started_at) := honest_start spider started_at
  have hstep : ∀ run event, HonestRun run → Timely settings host run event → HonestRun (run.step settings host event) :=
    fun _ _ h htimely => honest_step h htimely
  exact AllSteps.of_invariant hstart hstep (fun _ _ h htimely => rotates_step h htimely) htimely

end Runs

section Samples

def sampleRotation : SpiderSettings := ⟨7, 2000, 90, 3, 60⟩

/-- A cycle that greets one node and ends a minute after the start of the engine. -/
def sampleRotationCycle (mono : ℚ) : SpiderCycle where
  batch := [⟨("192.0.2.1", 4672), 1700000000, 1700000000, [sampleReceived [0xE4]]⟩]
  swept_at := 1700000001
  seeds := []
  mono := mono
  wall := 1700000060
  saved_at := 1700000060
  waiting := []

theorem events_sampleRotationCycle (mono : ℚ) : [sampleRotationCycle mono].flatMap SpiderCycle.events =
    [.hello ("192.0.2.1", 4672) 1700000000, .datagram (sampleReceived [0xE4]), .sweep 1700000001,
      .save mono 1700000060 1700000060] := rfl

/-- With a monotonic clock that shows the wall clock. -/
theorem rotates_of_timely_one_clock :
    AllSteps (SpiderRun.step sampleRotation sampleHost) (SpiderRun.start sampleSpider 1700000000)
      (Rotates sampleRotation sampleHost) ([sampleRotationCycle 1700000060].flatMap SpiderCycle.events) := by
  refine rotates_of_timely sampleRotation sampleHost sampleSpider 1700000000 [sampleRotationCycle 1700000060] ?_
  rw [events_sampleRotationCycle]
  simp only [allSteps_cons, allSteps_nil, and_true]
  refine ⟨trivial, ⟨fun answer hanswer => ?_, fun contact hcontact => ?_⟩, trivial, fun hdue => hdue⟩
  · cases hanswer
  · cases hcontact

/-- With a monotonic clock that starts with the machine, nothing is pruned or saved. -/
theorem sampleRotation_not_saved :
    ¬ AllSteps (SpiderRun.step sampleRotation sampleHost) (SpiderRun.start sampleSpider 1700000000)
      (Rotates sampleRotation sampleHost) ([sampleRotationCycle 5060].flatMap SpiderCycle.events) := by
  rw [events_sampleRotationCycle]
  simp only [allSteps_cons, allSteps_nil, and_true]
  rintro ⟨-, -, -, hsave⟩
  refine not_rotates_save ?_ ?_ hsave
  · change (1700000000 + 60 : ℚ) ≤ 1700000060
    norm_num
  · change (5060 : ℚ) < 1700000000 + 60
    norm_num

end Samples

end amuled.kad
