import AmuleD.Kad.PublishLookup

open littleendian

namespace amuled.kad

def KADEMLIA2_PUBLISH_RES : UInt8 := 0x4B

def KADEMLIA2_PUBLISH_RES_ACK : UInt8 := 0x4C

/-- A `KADEMLIA2_PUBLISH_RES`. -/
structure PublishRes where
  file_hash : KadUInt128
  load : Nat
  ack_requested : Bool
  ack_options : Nat

def parse_publish_res (payload : Bytes) : Except Exc PublishRes :=
  if payload.length < 16 + 1 then
    .error (.KadPacketError s!"KADEMLIA2_PUBLISH_RES too short: have {payload.length}, need >= 17")
  else do
    let file_hash ← KadUInt128.of_bytes (payload.extract 0 16)
    let ack_options := (payload.getD 17 0).toNat
    .ok ⟨file_hash, (payload.getD 16 0).toNat, payload.length > 17 && ack_options % 2 = 1, ack_options⟩

/-- The datagram without a payload. -/
def build_publish_res_ack : Bytes := [KAD_PROTOCOL, KADEMLIA2_PUBLISH_RES_ACK]

def PublishTarget.addr (tgt : PublishTarget) : Addr := (tgt.ip, tgt.udp_port)

/-- What one turn of the collect loop meets: the clock at its top, and the datagram of its second. -/
structure CollectTurn where
  now : ℚ
  datagram : Option (Bytes × Addr)

structure PublishReport where
  target : KadUInt128
  publish_op : String
  targets : List PublishTarget
  accepts : List PublishTarget
  acks_sent : List Addr
  avg_load : ℚ
  published : Nat

/-- What the collect loop changes; `alive` is what the routing table was told, `sent` the datagrams that left. -/
structure Collected where
  accepts : List PublishTarget
  loads : List Nat
  acks_sent : List Addr
  sent : List (Bytes × Addr)
  alive : List Addr

/-- `addr_to_tgt`: of two targets at one address the later one. -/
def addr_to_tgt (targets_info : List PublishTarget) : OrderedDict Addr PublishTarget :=
  targets_info.foldl (fun dict t => dict.set t.addr t) .empty

/-- A `KADEMLIA2_PUBLISH_RES` from the address of a target. -/
structure TargetReply where
  addr : Addr
  tgt : PublishTarget
  pres : PublishRes

section Collect

variable (host : Host) (targets_info : List PublishTarget)

/-- The `KADEMLIA2_PUBLISH_RES` of a target that a turn receives. -/
def CollectTurn.reply (turn : CollectTurn) : Option TargetReply :=
  match turn.datagram with
  | none => none
  | some (data, addr) =>
    match (addr_to_tgt targets_info).get addr, open_packet host data with
    | some tgt, some (_, opcode, payload) =>
      if opcode = KADEMLIA2_PUBLISH_RES then
        match parse_publish_res payload with
        | .ok pres => some ⟨addr, tgt, pres⟩
        | .error _ => none
      else none
    | _, _ => none

namespace Collected

/-- A reply is counted, and acknowledged where it asks for it. -/
def count (state : Collected) (reply : TargetReply) : Collected :=
  let counted := { state with
    alive := state.alive ++ [reply.addr]
    accepts := state.accepts ++ [reply.tgt]
    loads := state.loads ++ [reply.pres.load] }
  if reply.pres.ack_requested then
    { counted with
      sent := counted.sent ++ [(build_publish_res_ack, reply.addr)]
      acks_sent := counted.acks_sent ++ [reply.addr] }
  else counted

def receive (state : Collected) (turn : CollectTurn) : Collected :=
  match turn.reply host targets_info with
  | none => state
  | some reply => state.count reply

/-- The collect loop, with the turns that it leaves. -/
def collect (collect_deadline : ℚ) (node_count : Nat) (state : Collected) :
    List CollectTurn → Collected × List CollectTurn
  | [] => (state, [])
  | turn :: rest =>
    if turn.now < collect_deadline ∧ state.accepts.length < node_count then
      collect collect_deadline node_count (state.receive host targets_info turn) rest
    else (state, turn :: rest)

end Collected

/-- What both publishers do after the lookup: the requests, the replies to them and the report. -/
def publish_and_collect (publish_op : String) (target : KadUInt128) (requests : List (Bytes × PublishTarget))
    (collect_deadline : ℚ) (node_count : Nat) (turns : List CollectTurn) : PublishReport × List CollectTurn :=
  let start : Collected := ⟨[], [], [], requests.map fun request => (request.1, request.2.addr), []⟩
  let (state, unread) :=
    if requests = [] then (start, turns)
    else start.collect host targets_info collect_deadline node_count turns
  ({  target
      publish_op
      targets := targets_info
      accepts := state.accepts
      acks_sent := state.acks_sent
      avg_load := if state.loads = [] then 0 else (state.loads.sum : ℚ) / state.loads.length
      published := state.accepts.length }, unread)

/-- `publish_file` after the lookup. -/
def KeywordPublisher.report (publish_req : Bytes) (target : KadUInt128) (collect_deadline : ℚ) (node_count : Nat)
    (turns : List CollectTurn) : PublishReport × List CollectTurn :=
  publish_and_collect host targets_info "KADEMLIA2_PUBLISH_KEY_REQ" target
    (KeywordPublisher.requests publish_req targets_info) collect_deadline node_count turns

/-- `publish_sources` after the lookup. -/
def SourcePublisher.report (publish_reqs : List Bytes) (target : KadUInt128) (collect_deadline : ℚ) (node_count : Nat)
    (turns : List CollectTurn) : PublishReport × List CollectTurn :=
  publish_and_collect host targets_info "KADEMLIA2_PUBLISH_SOURCE_REQ" target
    (SourcePublisher.requests publish_reqs targets_info) collect_deadline node_count turns

/-- The turns that the loop has read. -/
def turns_read (turns unread : List CollectTurn) : List CollectTurn := turns.take (turns.length - unread.length)

/-- A target sent a reply for the key of this publish. -/
def Accepted (target : KadUInt128) (turns : List CollectTurn) (tgt : PublishTarget) : Prop :=
  ∃ turn ∈ turns, ∃ reply, turn.reply host targets_info = some reply ∧ reply.tgt = tgt ∧ reply.pres.file_hash = target

/-- The report counts the targets that replied for the key of this publish, each once, and the loop ends before its
deadline only if a reply for the key has come from the address of every target. -/
structure CountsReplies (target : KadUInt128) (collect_deadline : ℚ) (turns : List CollectTurn)
    (outcome : PublishReport × List CollectTurn) : Prop where
  once : outcome.1.accepts.Nodup
  accepted : ∀ tgt, tgt ∈ outcome.1.accepts ↔ Accepted host targets_info target (turns_read turns outcome.2) tgt
  published : ∃ nodes : Finset PublishTarget,
    (∀ tgt, tgt ∈ nodes ↔ Accepted host targets_info target (turns_read turns outcome.2) tgt) ∧
      outcome.1.published = nodes.card
  window : ∀ turn rest, outcome.2 = turn :: rest → turn.now < collect_deadline → ∀ tgt ∈ targets_info,
    ∃ turn ∈ turns_read turns outcome.2, ∃ reply, turn.reply host targets_info = some reply ∧
      reply.addr = tgt.addr ∧ reply.pres.file_hash = target

/-- The replies of targets that come before the deadline, as many as are counted. -/
def first_replies (collect_deadline : ℚ) (node_count : Nat) (turns : List CollectTurn) : List TargetReply :=
  ((turns.takeWhile fun turn => turn.now < collect_deadline).filterMap
    (CollectTurn.reply host targets_info)).take node_count

/-- No target replies twice, and none for another key. -/
structure OwnOnce (target : KadUInt128) (collect_deadline : ℚ) (node_count : Nat) (turns : List CollectTurn) :
    Prop where
  once : ((first_replies host targets_info collect_deadline node_count turns).map TargetReply.tgt).Nodup
  own : ∀ reply ∈ first_replies host targets_info collect_deadline node_count turns, reply.pres.file_hash = target

end Collect

section Counting

variable {host : Host} {targets_info : List PublishTarget} {target : KadUInt128} {collect_deadline : ℚ}
  {node_count : Nat} {state : Collected} {turns : List CollectTurn}

theorem accepts_count (state : Collected) (reply : TargetReply) :
    (state.count reply).accepts = state.accepts ++ [reply.tgt] := by
  rw [Collected.count]
  split
  · rfl
  · rfl

/-- The entry of an address is a target of that address. -/
theorem get_addr_to_tgt {addr : Addr} {tgt : PublishTarget} (hget : (addr_to_tgt targets_info).get addr = some tgt) :
    tgt ∈ targets_info ∧ tgt.addr = addr := by
  have hfold : ∀ (targets : List PublishTarget) (dict : OrderedDict Addr PublishTarget),
      (targets.foldl (fun dict t => dict.set t.addr t) dict).get addr = some tgt →
      (tgt ∈ targets ∧ tgt.addr = addr) ∨ dict.get addr = some tgt := by
    intro targets
    induction targets with
    | nil => exact fun dict h => .inr h
    | cons first rest ih =>
      intro dict h
      rcases ih _ h with ⟨hrest, haddr⟩ | hset
      · exact .inl ⟨List.mem_cons_of_mem first hrest, haddr⟩
      · rw [OrderedDict.get_set] at hset
        by_cases haddr : addr = first.addr
        · rw [if_pos haddr] at hset
          cases hset
          exact .inl ⟨List.mem_cons_self, haddr.symm⟩
        · rw [if_neg haddr] at hset
          exact .inr hset
  exact (hfold targets_info .empty hget).resolve_right nofun

theorem get_of_reply {turn : CollectTurn} {reply : TargetReply} (hreply : turn.reply host targets_info = some reply) :
    (addr_to_tgt targets_info).get reply.addr = some reply.tgt := by
  rw [CollectTurn.reply] at hreply
  cases hdatagram : turn.datagram with
  | none =>
    rw [hdatagram] at hreply
    cases hreply
  | some datagram =>
    obtain ⟨data, addr⟩ := datagram
    simp only [hdatagram] at hreply
    cases hget : (addr_to_tgt targets_info).get addr with
    | none =>
      simp only [hget] at hreply
      cases hreply
    | some tgt =>
      cases hopen : open_packet host data with
      | none =>
        simp only [hget, hopen] at hreply
        cases hreply
      | some opened =>
        obtain ⟨protocol, opcode, payload⟩ := opened
        simp only [hget, hopen] at hreply
        by_cases hopcode : opcode = KADEMLIA2_PUBLISH_RES
        · rw [if_pos hopcode] at hreply
          cases hparse : parse_publish_res payload with
          | error _ =>
            rw [hparse] at hreply
            cases hreply
          | ok pres =>
            rw [hparse] at hreply
            cases hreply
            exact hget
        · rw [if_neg hopcode] at hreply
          cases hreply

/-- The loop counts the replies that come before its deadline, until their number is reached. -/
theorem collect_spec (state : Collected) (turns : List CollectTurn) :
    ∃ read, turns = read ++ (state.collect host targets_info collect_deadline node_count turns).2 ∧
      (state.collect host targets_info collect_deadline node_count turns).1.accepts =
        state.accepts ++ (read.filterMap (CollectTurn.reply host targets_info)).map TargetReply.tgt ∧
      read.filterMap (CollectTurn.reply host targets_info) =
        first_replies host targets_info collect_deadline (node_count - state.accepts.length) turns ∧
      ∀ turn rest, (state.collect host targets_info collect_deadline node_count turns).2 = turn :: rest →
        turn.now < collect_deadline →
          node_count ≤ (state.collect host targets_info collect_deadline node_count turns).1.accepts.length := by
  induction turns generalizing state with
  | nil => exact ⟨[], rfl, (List.append_nil _).symm, List.take_nil.symm, nofun⟩
  | cons turn rest ih =>
    rw [Collected.collect]
    by_cases hearly : turn.now < collect_deadline
    · by_cases hroom : state.accepts.length < node_count
      · rw [if_pos ⟨hearly, hroom⟩]
        obtain ⟨read, hturns, haccepts, hreplies, hstop⟩ := ih (state.receive host targets_info turn)
        have hwindow : (turn :: rest).takeWhile (fun turn => turn.now < collect_deadline) =
            turn :: rest.takeWhile fun turn => turn.now < collect_deadline :=
          List.takeWhile_cons_of_pos (decide_eq_true hearly)
        refine ⟨turn :: read, congrArg (turn :: ·) hturns, ?_, ?_, hstop⟩
        · rw [haccepts, Collected.receive]
          cases hreply : turn.reply host targets_info with
          | none => rw [List.filterMap_cons_none hreply]
          | some reply =>
            rw [List.filterMap_cons_some hreply]
            simp only [accepts_count]
            rw [List.append_assoc, List.map_cons, List.singleton_append]
        · rw [first_replies, hwindow]
          cases hreply : turn.reply host targets_info with
          | none =>
            have hsame : state.receive host targets_info turn = state := by
              rw [Collected.receive, hreply]
            rw [List.filterMap_cons_none hreply, List.filterMap_cons_none hreply, hreplies, hsame, first_replies]
          | some reply =>
            have hmore : (state.receive host targets_info turn).accepts.length = state.accepts.length + 1 := by
              simp only [Collected.receive, hreply, accepts_count, List.length_append, List.length_singleton]
            have hcount : node_count - state.accepts.length = node_count - (state.accepts.length + 1) + 1 := by omega
            rw [List.filterMap_cons_some hreply, List.filterMap_cons_some hreply, hcount, List.take_succ_cons, hreplies,
              hmore, first_replies]
      · rw [if_neg fun h => hroom h.2]
        refine ⟨[], rfl, (List.append_nil _).symm, ?_, fun _ _ _ _ => Nat.le_of_not_lt hroom⟩
        have hnone : node_count - state.accepts.length = 0 := by omega
        rw [first_replies, hnone, List.take_zero, List.filterMap_nil]
    · rw [if_neg fun h => hearly h.1]
      refine ⟨[], rfl, (List.append_nil _).symm, ?_, ?_⟩
      · rw [first_replies, List.takeWhile_cons_of_neg (by simpa using hearly), List.filterMap_nil, List.take_nil]
      · intro other others hunread hother
        cases hunread
        exact absurd hother hearly

theorem turns_read_append (read unread : List CollectTurn) : turns_read (read ++ unread) unread = read := by
  rw [turns_read, List.length_append, Nat.add_sub_cancel, List.take_left]

/-- Without targets there are no replies. -/
theorem first_replies_nil (collect_deadline : ℚ) (node_count : Nat) (turns : List CollectTurn) :
    first_replies host [] collect_deadline node_count turns = [] := by
  have hnone : (turns.takeWhile fun turn => turn.now < collect_deadline).filterMap (CollectTurn.reply host []) = [] := by
    rw [List.filterMap_eq_nil_iff]
    intro turn _
    cases hreply : turn.reply host [] with
    | none => rfl
    | some reply =>
      have hget := get_of_reply hreply
      cases hget
  rw [first_replies, hnone, List.take_nil]

/-- Targets that each reply once are as many as their addresses, so that as many as there are targets are all. -/
theorem all_addresses {replies : List TargetReply} (hlength : targets_info.length ≤ replies.length)
    (honce : (replies.map TargetReply.tgt).Nodup)
    (hget : ∀ reply ∈ replies, (addr_to_tgt targets_info).get reply.addr = some reply.tgt) :
    ∀ tgt ∈ targets_info, ∃ reply ∈ replies, reply.addr = tgt.addr := by
  have haddrs : (replies.map TargetReply.addr).Nodup := by
    rw [List.Nodup, List.pairwise_map] at honce ⊢
    apply honce.imp_of_mem
    intro reply other hreply hother hne hsame
    have htgt := hget reply hreply
    rw [hsame, hget other hother] at htgt
    exact hne (Option.some.inj htgt).symm
  have hsubset : replies.map TargetReply.addr ⊆ targets_info.map PublishTarget.addr := by
    intro addr haddr
    obtain ⟨reply, hreply, rfl⟩ := List.mem_map.mp haddr
    obtain ⟨htgt, hsame⟩ := get_addr_to_tgt (hget reply hreply)
    rw [← hsame]
    exact List.mem_map_of_mem htgt
  have hperm : (replies.map TargetReply.addr).Perm (targets_info.map PublishTarget.addr) := by
    apply (List.subperm_of_subset haddrs hsubset).perm_of_length_le
    rwa [List.length_map, List.length_map]
  intro tgt htgt
  exact List.mem_map.mp (hperm.mem_iff.mpr (List.mem_map_of_mem htgt))

/-- A loop that counts the replies of the turns it reads counts what happened exactly if each target replies once. -/
theorem countsReplies_iff_of_read {outcome : PublishReport × List CollectTurn} {read : List CollectTurn}
    (hturns : turns = read ++ outcome.2)
    (haccepts : outcome.1.accepts = (read.filterMap (CollectTurn.reply host targets_info)).map TargetReply.tgt)
    (hreplies : read.filterMap (CollectTurn.reply host targets_info) =
      first_replies host targets_info collect_deadline node_count turns)
    (hstop : ∀ turn rest, outcome.2 = turn :: rest → turn.now < collect_deadline →
      targets_info.length ≤ outcome.1.accepts.length)
    (hpublished : outcome.1.published = outcome.1.accepts.length) :
    CountsReplies host targets_info target collect_deadline turns outcome ↔
      OwnOnce host targets_info target collect_deadline node_count turns := by
  have hread : turns_read turns outcome.2 = read := by
    conv_lhs => rw [hturns]
    exact turns_read_append read outcome.2
  constructor
  · intro h
    have honce := h.once
    rw [haccepts, hreplies] at honce
    refine ⟨honce, ?_⟩
    intro reply hreply
    rw [← hreplies] at hreply honce
    have hcounted : reply.tgt ∈ outcome.1.accepts := by
      rw [haccepts]
      exact List.mem_map_of_mem hreply
    obtain ⟨turn, hturn, own, hown, htgt, hkey⟩ := (h.accepted reply.tgt).mp hcounted
    rw [hread] at hturn
    have hmem : own ∈ read.filterMap (CollectTurn.reply host targets_info) := List.mem_filterMap.mpr ⟨turn, hturn, hown⟩
    have hsame : own = reply := List.inj_on_of_nodup_map honce hmem hreply htgt
    rw [← hsame]
    exact hkey
  · intro h
    obtain ⟨honce, hown⟩ := h
    rw [← hreplies] at honce hown
    have haccepted : ∀ tgt, tgt ∈ outcome.1.accepts ↔
        Accepted host targets_info target (turns_read turns outcome.2) tgt := by
      intro tgt
      rw [haccepts, hread]
      constructor
      · intro htgt
        obtain ⟨reply, hreply, rfl⟩ := List.mem_map.mp htgt
        obtain ⟨turn, hturn, hsome⟩ := List.mem_filterMap.mp hreply
        exact ⟨turn, hturn, reply, hsome, rfl, hown reply hreply⟩
      · rintro ⟨turn, hturn, reply, hsome, rfl, _⟩
        exact List.mem_map_of_mem (List.mem_filterMap.mpr ⟨turn, hturn, hsome⟩)
    have hnodup : outcome.1.accepts.Nodup := by rwa [haccepts]
    refine ⟨hnodup, haccepted, ⟨⟨outcome.1.accepts, hnodup⟩, haccepted, hpublished⟩, ?_⟩
    intro turn rest hunread hearly tgt htgt
    have hmany := hstop turn rest hunread hearly
    rw [haccepts, List.length_map] at hmany
    have hget : ∀ reply ∈ read.filterMap (CollectTurn.reply host targets_info),
        (addr_to_tgt targets_info).get reply.addr = some reply.tgt := by
      intro reply hreply
      obtain ⟨turn, _, hsome⟩ := List.mem_filterMap.mp hreply
      exact get_of_reply hsome
    obtain ⟨reply, hreply, haddr⟩ := all_addresses hmany honce hget tgt htgt
    obtain ⟨answered, hanswered, hsome⟩ := List.mem_filterMap.mp hreply
    rw [hread]
    exact ⟨answered, hanswered, reply, hsome, haddr, hown reply hreply⟩

theorem countsReplies_publish_iff (publish_op : String) (request : Bytes) (hlength : targets_info.length ≤ node_count) :
    CountsReplies host targets_info target collect_deadline turns (publish_and_collect host targets_info publish_op target
      (targets_info.map fun tgt => (request, tgt)) collect_deadline node_count turns) ↔
      OwnOnce host targets_info target collect_deadline node_count turns := by
  rw [publish_and_collect]
  by_cases hnone : targets_info = []
  · subst hnone
    rw [List.map_nil, if_pos rfl]
    have hnothing : ([] : List CollectTurn).filterMap (CollectTurn.reply host []) =
        first_replies host [] collect_deadline node_count turns := by
      rw [first_replies_nil, List.filterMap_nil]
    exact countsReplies_iff_of_read (List.nil_append turns).symm rfl hnothing (fun _ _ _ _ => Nat.zero_le _) rfl
  · have hrequests : targets_info.map (fun tgt => (request, tgt)) ≠ [] := fun h => hnone (List.map_eq_nil_iff.mp h)
    rw [if_neg hrequests]
    obtain ⟨start, hstart⟩ : ∃ start : Collected, start = ⟨[], [], [],
        (targets_info.map fun tgt => (request, tgt)).map fun request => (request.1, request.2.addr), []⟩ := ⟨_, rfl⟩
    have hempty : start.accepts = [] := by rw [hstart]
    obtain ⟨read, hturns, haccepts, hreplies, hstop⟩ : ∃ read,
        turns = read ++ (start.collect host targets_info collect_deadline node_count turns).2 ∧ _ ∧ _ ∧ _ :=
      collect_spec start turns
    rw [hempty, List.nil_append] at haccepts
    rw [hempty, List.length_nil, Nat.sub_zero] at hreplies
    rw [← hstart]
    refine countsReplies_iff_of_read hturns haccepts hreplies ?_ rfl
    intro turn rest hunread hearly
    exact hlength.trans (hstop turn rest hunread hearly)

/-- Both publishers count what happened exactly if the replies of targets before the deadline, as many as are counted,
come from different targets and are for the key of the publish. -/
theorem countsReplies_iff (host : Host) (responders : List PublishTarget) (publish_req req : Bytes)
    (publish_reqs : List Bytes) (target : KadUInt128) (collect_deadline : ℚ) (node_count : Nat)
    (turns : List CollectTurn) :
    (CountsReplies host (KeywordPublisher.targets_info responders node_count) target collect_deadline turns
        (KeywordPublisher.report host (KeywordPublisher.targets_info responders node_count) publish_req target
          collect_deadline node_count turns) ∧
      CountsReplies host (SourcePublisher.targets_info responders node_count) target collect_deadline turns
        (SourcePublisher.report host (SourcePublisher.targets_info responders node_count) (req :: publish_reqs) target
          collect_deadline node_count turns)) ↔
      OwnOnce host (responders.take node_count) target collect_deadline node_count turns := by
  have hlength : (responders.take node_count).length ≤ node_count := by
    rw [List.length_take]
    exact Nat.min_le_left _ _
  rw [KeywordPublisher.targets_info, SourcePublisher.targets_info, KeywordPublisher.report, SourcePublisher.report,
    KeywordPublisher.requests, SourcePublisher.requests, countsReplies_publish_iff _ _ hlength,
    countsReplies_publish_iff _ _ hlength, and_self_iff]

/-- Two nodes that are published to, and a reply of the first for the key of zeros. -/
def samplePublished (udp_port : Nat) : PublishTarget := ⟨sampleTarget, "10.0.0.1", udp_port, 4662, 8⟩

def samplePublishRes : CollectTurn :=
  ⟨0, some ([0xE4, 0x4B] ++ List.replicate 16 0 ++ [20], ("10.0.0.1", 4672))⟩

/-- A reply that is repeated is counted twice, and ends the loop before the second node replies. -/
theorem samplePublished_counted_twice :
    ((KeywordPublisher.report sampleHost [samplePublished 4672, samplePublished 4673] [] sampleTarget 8 2
        [samplePublishRes, samplePublishRes, ⟨0, none⟩]).1.published = 2 ∧
      (KeywordPublisher.report sampleHost [samplePublished 4672, samplePublished 4673] [] sampleTarget 8 2
        [samplePublishRes, samplePublishRes, ⟨0, none⟩]).1.accepts.map PublishTarget.addr =
          [("10.0.0.1", 4672), ("10.0.0.1", 4672)] ∧
      (KeywordPublisher.report sampleHost [samplePublished 4672, samplePublished 4673] [] sampleTarget 8 2
        [samplePublishRes, samplePublishRes, ⟨0, none⟩]).2.length = 1) ∧
      ¬ CountsReplies sampleHost [samplePublished 4672, samplePublished 4673] sampleTarget 8
        [samplePublishRes, samplePublishRes, ⟨0, none⟩]
        (KeywordPublisher.report sampleHost [samplePublished 4672, samplePublished 4673] [] sampleTarget 8 2
          [samplePublishRes, samplePublishRes, ⟨0, none⟩]) := by
  have htwice : (KeywordPublisher.report sampleHost [samplePublished 4672, samplePublished 4673] [] sampleTarget 8 2
      [samplePublishRes, samplePublishRes, ⟨0, none⟩]).1.accepts = [samplePublished 4672, samplePublished 4672] := rfl
  refine ⟨⟨rfl, by rw [htwice]; rfl, rfl⟩, ?_⟩
  intro h
  have honce := h.once
  rw [htwice, List.nodup_cons] at honce
  exact honce.1 List.mem_cons_self

end Counting

end amuled.kad
