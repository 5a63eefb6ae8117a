import AmuleD.Server.GlobalSearch

open champions

namespace amuled.server

theorem parse_global_search_result_cases (payload : Bytes) :
    (∃ results, parse_global_search_result payload = .ok results) ∨
      ∃ message, parse_global_search_result payload = .error (.GlobalUdpSearchError message) := by
  rw [parse_global_search_result_eq]
  cases read_search_results ⟨payload, 0⟩ with
  | error e => exact .inr ⟨_, rfl⟩
  | ok result => exact .inl ⟨_, rfl⟩

/-- Collecting never raises: what is malformed is left out. -/
theorem collect_results_eq (packets : List Packet) :
    collect_results packets = .ok (packets.flatMap packet_results) := by
  induction packets with
  | nil => rfl
  | cons packet packets ih =>
    rw [collect_results, List.flatMap_cons, packet_results]
    by_cases hresult : packet.opcode = GLOBSEARCHRES
    · rw [if_neg (not_not.mpr hresult), if_pos hresult]
      rcases parse_global_search_result_cases packet.payload with ⟨results, hparse⟩ | ⟨message, hparse⟩
      · simp only [hparse, ih, ok_bind]
        rfl
      · simp only [hparse, ih]
        rfl
    · rw [if_pos hresult, if_neg hresult, ih, List.nil_append]

section Search

variable (decompress : Bytes → Except String Bytes) (wakings : Nat → Waking)

/-- The results in a datagram, none where it is no well-formed `OP_GLOBSEARCHRES`. -/
def datagram_results (datagram : Datagram) : List SearchResult :=
  match parse_udp_packet decompress datagram.data with
  | .error _ => []
  | .ok packet => packet_results packet

/-- The results that arrive from a server among some datagrams. -/
def results_among (endpoint : GlobalServerEndpoint) (arrived : List Datagram) : List SearchResult :=
  (arrived.filter fun datagram => datagram.addr = endpoint.address).flatMap (datagram_results decompress)

/-- The results that arrive from a server from one sleep up to another. -/
def results_between (endpoint : GlobalServerEndpoint) (opened closed : Nat) : List SearchResult :=
  (List.range' opened (closed - opened)).flatMap fun n => results_among decompress endpoint (wakings n).arrived

/-- The results that wait in the bucket of a server. -/
def Searching.waiting (search : Searching) (endpoint : GlobalServerEndpoint) : List SearchResult :=
  (search.bucket endpoint).flatMap packet_results

theorem results_between_append (endpoint : GlobalServerEndpoint) {opened middle closed : Nat}
    (hopened : opened ≤ middle) (hclosed : middle ≤ closed) :
    results_between decompress wakings endpoint opened closed =
      results_between decompress wakings endpoint opened middle ++
        results_between decompress wakings endpoint middle closed := by
  have hsplit : List.range' opened (closed - opened) =
      List.range' opened (middle - opened) ++ List.range' middle (closed - middle) := by
    have happend : List.range' opened (middle - opened) ++ List.range' (opened + 1 * (middle - opened))
        (closed - middle) = List.range' opened (middle - opened + (closed - middle)) := List.range'_append
    rw [one_mul, Nat.add_sub_cancel' hopened, Nat.add_comm, Nat.sub_add_sub_cancel hclosed hopened] at happend
    exact happend.symm
  rw [results_between, hsplit, List.flatMap_append]
  rfl

theorem results_between_self (endpoint : GlobalServerEndpoint) (opened : Nat) :
    results_between decompress wakings endpoint opened opened = [] := by
  rw [results_between, Nat.sub_self]
  rfl

theorem results_between_succ (endpoint : GlobalServerEndpoint) (opened : Nat) :
    results_between decompress wakings endpoint opened (opened + 1) =
      results_among decompress endpoint (wakings opened).arrived := by
  rw [results_between, Nat.add_sub_cancel_left, List.range'_one, List.flatMap_singleton]

theorem results_among_cons (endpoint : GlobalServerEndpoint) (datagram : Datagram) (arrived : List Datagram) :
    results_among decompress endpoint (datagram :: arrived) =
      (if datagram.addr = endpoint.address then datagram_results decompress datagram else []) ++
        results_among decompress endpoint arrived := by
  by_cases haddr : datagram.addr = endpoint.address
  · simp [results_among, haddr]
  · simp [results_among, haddr]

/-- A server's bucket takes up what arrives from the server. -/
theorem bucket_received (endpoint : GlobalServerEndpoint) (datagram : Datagram)
    (pending : Dict (String × Nat) (List Packet)) :
    (((datagram_received decompress pending datagram).get endpoint.address).getD []).flatMap packet_results =
      ((pending.get endpoint.address).getD []).flatMap packet_results ++
        (if datagram.addr = endpoint.address then datagram_results decompress datagram else []) := by
  rw [datagram_received, datagram_results]
  cases parse_udp_packet decompress datagram.data with
  | error e => simp
  | ok packet =>
    by_cases haddr : datagram.addr = endpoint.address
    · simp [haddr]
    · simp [haddr, Dict.get_set_of_ne (Ne.symm haddr)]

theorem bucket_foldl_received (endpoint : GlobalServerEndpoint) (arrived : List Datagram)
    (pending : Dict (String × Nat) (List Packet)) :
    (((arrived.foldl (datagram_received decompress) pending).get endpoint.address).getD []).flatMap packet_results =
      ((pending.get endpoint.address).getD []).flatMap packet_results ++
        results_among decompress endpoint arrived := by
  induction arrived generalizing pending with
  | nil => rw [List.foldl_nil, results_among, List.filter_nil, List.flatMap_nil, List.append_nil]
  | cons datagram arrived ih =>
    rw [List.foldl_cons, ih, bucket_received, results_among_cons, List.append_assoc]

theorem waiting_sleep (search : Searching) (endpoint : GlobalServerEndpoint) (waking : Waking) :
    (search.sleep decompress waking).waiting endpoint =
      search.waiting endpoint ++ results_among decompress endpoint waking.arrived :=
  bucket_foldl_received decompress endpoint waking.arrived search.pending

theorem waiting_drained (search : Searching) (endpoint : GlobalServerEndpoint) :
    (search.drained endpoint).waiting endpoint = [] := by
  rw [Searching.waiting, Searching.bucket, Searching.drained, Dict.get_erase_self]
  rfl

/-- What a part of a server's turn finds: where no result waits at its start, the results that arrive from the
server while it lasts, and no result is left waiting. -/
structure Collected (endpoint : GlobalServerEndpoint) (before : Searching) (found : List SearchResult)
    (after : Searching) : Prop where
  wakes : before.wakes ≤ after.wakes
  found : before.waiting endpoint = [] →
    found = results_between decompress wakings endpoint before.wakes after.wakes
  drained : before.waiting endpoint = [] → after.waiting endpoint = []

namespace Collected

variable {decompress wakings} {endpoint : GlobalServerEndpoint} {before middle after : Searching}
  {found : List SearchResult}

theorem refl (search : Searching) : Collected decompress wakings endpoint search [] search where
  wakes := le_rfl
  found _ := (results_between_self decompress wakings endpoint search.wakes).symm
  drained := id

/-- A part in which nothing was found may go before. -/
theorem trans (hfirst : Collected decompress wakings endpoint before [] middle)
    (hnext : Collected decompress wakings endpoint middle found after) :
    Collected decompress wakings endpoint before found after where
  wakes := hfirst.wakes.trans hnext.wakes
  found hquiet := by
    rw [results_between_append decompress wakings endpoint hfirst.wakes hnext.wakes, ← hfirst.found hquiet,
      List.nil_append]
    exact hnext.found (hfirst.drained hquiet)
  drained hquiet := hnext.drained (hfirst.drained hquiet)

/-- One poll finds what waits when the sleep is over. -/
theorem poll (search : Searching) :
    Collected decompress wakings endpoint search
      ((search.sleep decompress (wakings search.wakes)).waiting endpoint)
      ((search.sleep decompress (wakings search.wakes)).drained endpoint) where
  wakes := Nat.le_succ search.wakes
  found hquiet := by
    rw [waiting_sleep, hquiet, List.nil_append]
    exact (results_between_succ decompress wakings endpoint search.wakes).symm
  drained _ := waiting_drained _ endpoint

theorem of_same (hcollected : Collected decompress wakings endpoint before found after) {first last : Searching}
    (hfirst : first.wakes = before.wakes ∧ first.pending = before.pending)
    (hlast : last.wakes = after.wakes ∧ last.pending = after.pending) :
    Collected decompress wakings endpoint first found last := by
  have hbefore : first.waiting endpoint = before.waiting endpoint := by
    rw [Searching.waiting, Searching.bucket, hfirst.2]
    rfl
  have hafter : last.waiting endpoint = after.waiting endpoint := by
    rw [Searching.waiting, Searching.bucket, hlast.2]
    rfl
  constructor
  · rw [hfirst.1, hlast.1]
    exact hcollected.wakes
  · rw [hbefore, hfirst.1, hlast.1]
    exact hcollected.found
  · rw [hbefore, hafter]
    exact hcollected.drained

end Collected

/-- The polls of one request end, and find what arrives while they last. -/
theorem await_responses_collects (endpoint : GlobalServerEndpoint) (deadline : ℚ) (search : Searching) :
    ∃ found after, await_responses decompress wakings endpoint deadline search = .ok (found, after) ∧
      Collected decompress wakings endpoint search found after := by
  induction search using await_responses.induct decompress wakings endpoint deadline with
  | case1 search hnow awake e hcollect =>
    rw [collect_results_eq] at hcollect
    cases hcollect
  | case2 search hnow awake hcollect ih =>
    obtain ⟨found, after, hawait, hcollected⟩ := ih
    have hpoll : Collected decompress wakings endpoint search _ _ := .poll search
    have hnothing : awake.waiting endpoint = [] := Except.ok.inj ((collect_results_eq _).symm.trans hcollect)
    rw [hnothing] at hpoll
    refine ⟨found, after, ?_, hpoll.trans hcollected⟩
    rw [await_responses, if_pos hnow]
    simp only [awake] at hcollect hawait
    simp only [hcollect, hawait]
  | case3 search hnow awake collected hsome hcollect =>
    have hpoll : Collected decompress wakings endpoint search _ _ := .poll search
    have hfound : awake.waiting endpoint = collected := Except.ok.inj ((collect_results_eq _).symm.trans hcollect)
    rw [hfound] at hpoll
    refine ⟨collected, _, ?_, hpoll⟩
    rw [await_responses, if_pos hnow]
    simp only [awake] at hcollect
    simp only [hcollect]
  | case4 search hnow =>
    refine ⟨[], search, ?_, .refl search⟩
    rw [await_responses, if_neg hnow]

variable (settings : GlobalUdpSearch)

theorem try_variants_collects (endpoint : GlobalServerEndpoint) (body : Bytes) (ladder : List UInt8)
    (search : Searching) :
    ∃ found after, try_variants decompress wakings settings endpoint body ladder search = .ok (found, after) ∧
      Collected decompress wakings endpoint search found after := by
  induction ladder generalizing search with
  | nil => exact ⟨[], search, rfl, .refl search⟩
  | cons variant ladder ih =>
    obtain ⟨found, after, hawait, hcollected⟩ := await_responses_collects decompress wakings endpoint
      ((search.request endpoint body variant).now + settings.response_window)
      (search.request endpoint body variant)
    simp only [try_variants, hawait, ok_bind]
    by_cases hfound : found = []
    · subst hfound
      obtain ⟨found, last, htry, hrest⟩ := ih after
      have hsilent : Collected decompress wakings endpoint search [] after :=
        hcollected.of_same ⟨rfl, rfl⟩ ⟨rfl, rfl⟩
      refine ⟨found, last, ?_, hsilent.trans hrest⟩
      rw [if_neg (not_not.mpr rfl)]
      exact htry
    · refine ⟨found, _, if_pos hfound, ?_⟩
      exact hcollected.of_same ⟨rfl, rfl⟩ ⟨rfl, rfl⟩

theorem collect_for_server_collects (endpoint : GlobalServerEndpoint) (body : Bytes) (search : Searching) :
    ∃ found after, collect_for_server decompress wakings settings endpoint body search = .ok (found, after) ∧
      Collected decompress wakings endpoint search found after := by
  obtain ⟨found, after, htry, hcollected⟩ := try_variants_collects decompress wakings settings endpoint body
    (if (search.state endpoint).working_variant = none then (variant_ladder (search.state endpoint)).take 2
      else variant_ladder (search.state endpoint)) search
  simp only [collect_for_server, htry, ok_bind]
  by_cases hdone : found ≠ [] ∨ (after.state endpoint).answered_this_session
  · exact ⟨found, after, if_pos hdone, hcollected⟩
  · obtain ⟨hnothing, -⟩ := not_or.mp hdone
    rw [not_not.mp hnothing] at hcollected
    exact ⟨[], _, if_neg hdone, hcollected.of_same ⟨rfl, rfl⟩ ⟨rfl, rfl⟩⟩

/-- The results that arrive from a server during its turn. -/
def Turn.window (turn : Turn) : List SearchResult :=
  results_between decompress wakings turn.endpoint turn.opened turn.closed

/-- The results so far are the champions of what arrived during the turns, where no turn began with a result that
was waiting already. -/
def Sweep.Sound (sweep : Sweep) : Prop :=
  (∀ turn ∈ sweep.turns, turn.leftover = []) →
    Champions SearchResult.file_hash SearchResult.sources
      (sweep.turns.flatMap (Turn.window decompress wakings)) sweep.results

theorem visit_sound (body : Bytes) {sweep : Sweep} (hsound : sweep.Sound decompress wakings)
    (endpoint : GlobalServerEndpoint) :
    ∃ next, visit decompress wakings settings body sweep endpoint = .ok next ∧ next.Sound decompress wakings := by
  rw [visit]
  by_cases hdead : settings.dead_server_retries ≤ (sweep.search.state endpoint).dead_retries
  · rw [if_pos hdead]
    exact ⟨_, rfl, hsound⟩
  · obtain ⟨found, after, hcollect, hcollected⟩ := collect_for_server_collects decompress wakings settings endpoint
      body sweep.search
    rw [if_neg hdead, hcollect]
    refine ⟨_, rfl, fun hfresh => ?_⟩
    have hturns := hsound fun turn hturn => hfresh turn (List.mem_append_left _ hturn)
    have hquiet := hfresh _ (List.mem_append_right _ (List.mem_singleton_self _))
    have hfound := hcollected.found hquiet
    rw [List.flatMap_append, List.flatMap_singleton]
    subst hfound
    exact hturns.foldl _

theorem sweep_sound (body : Bytes) (servers : List GlobalServerEndpoint) {sweep : Sweep}
    (hsound : sweep.Sound decompress wakings) :
    ∃ last, servers.foldlM (visit decompress wakings settings body) sweep = .ok last ∧
      last.Sound decompress wakings := by
  induction servers generalizing sweep with
  | nil => exact ⟨sweep, rfl, hsound⟩
  | cons endpoint servers ih =>
    obtain ⟨next, hvisit, hnext⟩ := visit_sound decompress wakings settings body hsound endpoint
    rw [List.foldlM_cons, hvisit]
    exact ih hnext

/-- One result for each hash that occurs among the entries, with the largest source count. -/
structure LargestPerHash (entries results : List SearchResult) : Prop where
  nodup : (results.map SearchResult.file_hash).Nodup
  largest : ∀ result ∈ results, result ∈ entries ∧
    ∀ entry ∈ entries, entry.file_hash = result.file_hash → entry.sources ≤ result.sources
  complete : ∀ entry ∈ entries, ∃ result ∈ results, result.file_hash = entry.file_hash

theorem largestPerHash_values {entries : List SearchResult} {results : OrderedDict Bytes SearchResult}
    (hchampions : Champions SearchResult.file_hash SearchResult.sources entries results) :
    LargestPerHash entries results.values := by
  constructor
  · have hkeys : results.values.map SearchResult.file_hash = results.keys := by
      rw [OrderedDict.values, List.map_map]
      exact List.map_congr_left hchampions.keyed
    rw [hkeys]
    exact results.nodup_keys
  · intro result hresult
    obtain ⟨entry, hentry, rfl⟩ := List.mem_map.mp hresult
    refine ⟨hchampions.mem entry hentry, fun other hother hhash => ?_⟩
    exact hchampions.heaviest entry hentry other hother (hhash.trans (hchampions.keyed entry hentry))
  · intro entry hentry
    obtain ⟨result, hresult⟩ := OrderedDict.mem_keys.mp (hchampions.complete entry hentry)
    exact ⟨result, List.mem_map_of_mem hresult, hchampions.keyed _ hresult⟩

theorem build_udp_search_payload_ok {query : String} (hquery : upload.strip query.toList ≠ [])
    (hfits : (utf8_encode (String.ofList (upload.strip query.toList))).length < 2 ^ 16) :
    ∃ body, build_udp_search_payload query = .ok body := by
  have hsize := write_uint_eq_ok_iff.mpr ⟨hfits, rfl⟩
  simp only [build_udp_search_payload, if_neg hquery, write_u16, hsize, ok_bind]
  exact ⟨_, rfl⟩

/-- A poll before the deadline takes the results that wait in the bucket. -/
theorem await_responses_of_waiting {endpoint : GlobalServerEndpoint} {deadline : ℚ} {search : Searching}
    (hnow : search.now < deadline)
    (hsome : (search.sleep decompress (wakings search.wakes)).waiting endpoint ≠ []) :
    await_responses decompress wakings endpoint deadline search =
      .ok ((search.sleep decompress (wakings search.wakes)).waiting endpoint,
        (search.sleep decompress (wakings search.wakes)).drained endpoint) := by
  rw [await_responses, if_pos hnow]
  simp only [collect_results_eq]
  cases hwaiting : (search.sleep decompress (wakings search.wakes)).waiting endpoint with
  | nil => exact absurd hwaiting hsome
  | cons result rest =>
    rw [Searching.waiting] at hwaiting
    simp only [hwaiting]

end Search

/-- A server of which one result is known already. -/
def sampleEndpoint : GlobalServerEndpoint := ⟨"192.0.2.1", 4665⟩

def sampleSettings : GlobalUdpSearch := ⟨[sampleEndpoint], 6, 2⟩

/-- Sleeps of a tenth of a second, in which nothing arrives. -/
def silence : Nat → Waking := fun _ => ⟨1 / 10, le_rfl, []⟩

/-- Nothing can be inflated. -/
def noInflate : Bytes → Except String Bytes := fun _ => .error "Error -3 while decompressing data"

/-- A datagram of an earlier search waits in the bucket of the server. -/
def sampleLeftover : Searching where
  now := 0
  wakes := 0
  pending := Dict.empty.set sampleEndpoint.address [⟨EDONKEY, GLOBSEARCHRES,
    [1, 0, 0, 0] ++ List.replicate 16 7 ++ [1, 0, 0, 0] ++ [0x36, 0x12] ++ [0, 0, 0, 0]⟩]
  state _ := ⟨0, none, false⟩
  sent := []

def sampleBody : Bytes := [1, 3, 0, 0x69, 0x73, 0x6F]

def sampleResult : SearchResult := ⟨List.replicate 16 7, 1, 4662, []⟩

theorem sampleLeftover_collected :
    ∃ after, collect_for_server noInflate silence sampleSettings sampleEndpoint sampleBody sampleLeftover =
      .ok ([sampleResult], after) ∧ after.wakes = 1 := by
  set requested := sampleLeftover.request sampleEndpoint sampleBody GLOBSEARCHREQ3 with hrequested
  have hwaiting : (requested.sleep noInflate (silence requested.wakes)).waiting sampleEndpoint = [sampleResult] := by
    decide +kernel
  have hnow : requested.now < requested.now + sampleSettings.response_window := by decide +kernel
  have hawait := await_responses_of_waiting noInflate silence hnow (hwaiting ▸ List.cons_ne_nil _ _)
  rw [hwaiting] at hawait
  set last := ((requested.sleep noInflate (silence requested.wakes)).drained sampleEndpoint).record sampleEndpoint
    ⟨0, some GLOBSEARCHREQ3, true⟩ with hlast
  have htry : try_variants noInflate silence sampleSettings sampleEndpoint sampleBody
      [GLOBSEARCHREQ3, GLOBSEARCHREQ2] sampleLeftover = .ok ([sampleResult], last) := by
    simp only [try_variants, ← hrequested, hawait, ok_bind]
    exact if_pos (List.cons_ne_nil _ _)
  have hladder : (if (sampleLeftover.state sampleEndpoint).working_variant = none then
      (variant_ladder (sampleLeftover.state sampleEndpoint)).take 2
        else variant_ladder (sampleLeftover.state sampleEndpoint)) = [GLOBSEARCHREQ3, GLOBSEARCHREQ2] := by decide
  refine ⟨last, ?_, rfl⟩
  simp only [collect_for_server, hladder, htry, ok_bind]
  exact if_pos (.inl (List.cons_ne_nil _ _))

/-- Its result is in the aggregate of the next search, in which the server answers nothing. -/
theorem sampleLeftover_counted :
    ∃ aggregate last turns, sampleSettings.search noInflate silence "iso" sampleLeftover =
        .ok (aggregate, last, turns) ∧
      ¬ LargestPerHash (turns.flatMap (Turn.window noInflate silence)) aggregate.results := by
  have hbody : build_udp_search_payload "iso" = .ok sampleBody := by decide +kernel
  obtain ⟨after, hcollect, hwakes⟩ := sampleLeftover_collected
  have hlive : ¬ sampleSettings.dead_server_retries ≤ (sampleLeftover.state sampleEndpoint).dead_retries := by decide
  have hvisit : visit noInflate silence sampleSettings sampleBody ⟨sampleLeftover, .empty, .empty, [], []⟩
      sampleEndpoint = .ok ⟨after, OrderedDict.empty.set sampleResult.file_hash sampleResult,
        OrderedDict.empty.set sampleEndpoint.key 1, [], [⟨sampleEndpoint, 0, after.wakes, [sampleResult]⟩]⟩ := by
    have hleftover : (sampleLeftover.bucket sampleEndpoint).flatMap packet_results = [sampleResult] := by
      decide +kernel
    rw [visit, if_neg hlive, hcollect, ok_bind, hleftover]
    rfl
  refine ⟨⟨"iso", [sampleResult], OrderedDict.empty.set sampleEndpoint.key 1, []⟩, after,
    [⟨sampleEndpoint, 0, after.wakes, [sampleResult]⟩], ?_, ?_⟩
  · rw [GlobalUdpSearch.search, hbody, ok_bind, sampleSettings, List.foldlM_cons, ← sampleSettings, hvisit]
    rfl
  · intro hlargest
    have hentry := (hlargest.largest sampleResult (List.mem_singleton_self _)).1
    have hnone : [(⟨sampleEndpoint, 0, after.wakes, [sampleResult]⟩ : Turn)].flatMap
        (Turn.window noInflate silence) = [] := by
      rw [hwakes]
      rfl
    rw [hnone] at hentry
    cases hentry

end amuled.server
