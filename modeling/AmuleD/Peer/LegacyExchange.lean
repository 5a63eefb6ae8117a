import AmuleD.Peer.Ladder
import AmuleD.Peer.PreEngineRuns

open littleendian receiving

namespace amuled.peer

open pre_engine

/-- The bit of the second misc options that announces the newer source exchange. -/
def miso2_source_exchange_v2 (tags : List Ed2kTag) : Bool :=
  match tags.findSome? fun tag => if tag.identifier = .name_id 0xFE then int_value tag.value else none with
  | some value => value / 2 ^ 10 % 2 = 1
  | none => false

def build_request_sources2_payload (version options : Nat) (file_hash : Hash16) : Bytes :=
  encode 1 (version % 2 ^ 8) ++ encode 2 (options % 2 ^ 16) ++ file_hash.val

/-- `request_sources`, of a peer with some HELLO tags. -/
def request_sources (peer_tags : List Ed2kTag) (file_hash : Hash16) (sx_options : Nat) : Option Packet :=
  let sx1 := miso1_source_exchange peer_tags
  if miso2_source_exchange_v2 peer_tags ∨ sx1 > 1 then
    some ⟨EMULE, REQUESTSOURCES2, build_request_sources2_payload 2 sx_options file_hash⟩
  else if sx1 = 1 then some ⟨EMULE, REQUESTSOURCES, file_hash.val⟩
  else none

/-- The older request goes only to a peer of the first version that does not know the newer exchange. -/
theorem request_sources_legacy_iff {peer_tags : List Ed2kTag} {file_hash : Hash16} {sx_options : Nat} :
    request_sources peer_tags file_hash sx_options = some ⟨EMULE, REQUESTSOURCES, file_hash.val⟩ ↔
      miso2_source_exchange_v2 peer_tags = false ∧ miso1_source_exchange peer_tags = 1 := by
  rw [request_sources]
  by_cases hnewer : miso2_source_exchange_v2 peer_tags = true ∨ miso1_source_exchange peer_tags > 1
  · have hopcode : REQUESTSOURCES2 ≠ REQUESTSOURCES := by decide
    simp only [if_pos hnewer, Option.some.injEq, Packet.mk.injEq, hopcode, false_and, and_false, false_iff, not_and]
    rintro hbit hversion
    rcases hnewer with hset | habove
    · rw [hbit] at hset
      cases hset
    · omega
  · rw [not_or, Bool.not_eq_true] at hnewer
    by_cases hversion : miso1_source_exchange peer_tags = 1
    · simp [hnewer.1, hversion]
    · simp [hnewer.1, hversion, hnewer.2]

/-- The two models of `_collect_answer_sources` collect the same sources. -/
theorem collected_sources_eq (client : PeerClient) (packet : Packet) :
    (client.collect_answer_sources packet).map (fun after => after.collected_sources.map Collected.source) =
      (collect_answer_sources packet).map (client.collected_sources.map Collected.source ++ ·) := by
  rw [PeerClient.collect_answer_sources, collect_answer_sources]
  by_cases hprotocol : packet.protocol ≠ EMULE
  · rw [if_pos hprotocol, if_pos hprotocol, Except.map, Except.map, List.append_nil]
  · rw [if_neg hprotocol, if_neg hprotocol]
    by_cases hnewer : packet.opcode = ANSWERSOURCES2
    · rw [if_pos hnewer, if_pos hnewer]
      cases parse_answer_sources2 packet.payload with
      | error e => rfl
      | ok answer =>
        obtain ⟨version, file_hash, entries⟩ := answer
        simp only [ok_bind, Except.map, List.map_append, List.map_map, Except.ok.injEq, List.append_cancel_left_eq]
        exact List.map_id entries
    · rw [if_neg hnewer, if_neg hnewer]
      by_cases holder : packet.opcode = ANSWERSOURCES
      · rw [if_pos holder, if_pos holder]
        rfl
      · rw [if_neg holder, if_neg holder, Except.map, Except.map, List.append_nil]

/-- An older answer with few enough sources is read back by a parser that is given its version. -/
theorem parse_answer_sources_build {version : Int} {file_hash payload : Bytes} {sources : List SXSource}
    (husers : ∀ source ∈ sources, source.HashFits) (hfew : sources.length ≤ MAX_ANSWER_SOURCES)
    (hbuild : build_answer_sources file_hash sources version = .ok payload) :
    parse_answer_sources payload (clamp_version version) =
      .ok (clamp_version version, file_hash, sources.map (received · (clamp_version version))) := by
  rw [build_answer_sources] at hbuild
  split at hbuild
  · cases hbuild
  rename_i hhash
  rw [not_not] at hhash
  obtain ⟨count, hcount, hbuild⟩ := bind_eq_ok_iff.mp hbuild
  obtain ⟨hfits, rfl⟩ := struct_pack_eq_ok_iff.mp hcount
  obtain rfl := Except.ok.inj hbuild
  have hlong : ¬ (file_hash ++ (encode 2 sources.length ++
      ((sources.take MAX_ANSWER_SOURCES).map (sx_entry · (clamp_version version))).flatten)).length < 18 := by
    simp only [List.length_append, hhash, length_encode]
    omega
  have hentries := parse_taken_entries husers (clamp_version version)
  rw [Nat.sub_eq_zero_of_le hfew, List.take_of_length_le hfew, parse_sx_entries] at hentries
  rw [parse_answer_sources, if_neg hlong, List.drop_left' hhash, struct_unpack_encode hfits, drop_entries hhash,
    List.take_of_length_le hfew]
  simp only [ok_bind, hentries, pure_eq_ok, Except.map, List.append_nil, List.take_left' hhash]

/-- The answer of a session to an older request is collected as the sources that the answering side knows. -/
def LegacyExchangeWorks (client : PeerClient) (services : Services) (surroundings : Surroundings)
    (requester_tags : List Ed2kTag) (locals : Locals) (req_hash : Hash16) : Prop :=
  ∃ answer after entries, on_request_sources services surroundings requester_tags locals req_hash.val =
      .ok (locals, [answer]) ∧
    client.collect_answer_sources answer = .ok after ∧
    after.collected_sources = client.collected_sources ++ entries.map (Collected.mk req_hash.val) ∧
    List.Forall₂ (Carries (clamp_version (miso1_source_exchange requester_tags)))
      ((surroundings.sources req_hash.val).take MAX_ANSWER_SOURCES) entries

theorem send_eq_ok {protocol opcode : UInt8} {payload : Bytes} {packet : Packet}
    (hsend : send protocol opcode payload = .ok packet) : packet = ⟨protocol, opcode, payload⟩ := by
  rw [send] at hsend
  split at hsend
  · cases hsend
  · cases hsend
    rfl

variable {client : PeerClient} {services : Services} {surroundings : Surroundings} {requester_tags : List Ed2kTag}
  {locals after : Locals} {answer : Packet}

/-- The session answers an older request with an answer of the older kind. -/
theorem answer_of_request {payload : Bytes}
    (hanswer : on_request_sources services surroundings requester_tags locals payload = .ok (after, [answer])) :
    ∃ body, answer = ⟨EMULE, ANSWERSOURCES, body⟩ := by
  rw [on_request_sources] at hanswer
  split at hanswer
  · cases hanswer
  cases hparse : parse_request_sources payload with
  | error e =>
    rw [hparse] at hanswer
    cases hanswer
  | ok req_hash =>
    simp only [hparse] at hanswer
    split at hanswer
    · cases hanswer
    split at hanswer
    · cases hanswer
    cases hversion : locals.peer_sx1 with
    | none =>
      rw [hversion] at hanswer
      cases hanswer
    | some peer_sx1 =>
      simp only [hversion] at hanswer
      obtain ⟨body, _, hanswer⟩ := bind_eq_ok_iff.mp hanswer
      obtain ⟨packet, hsend, hanswer⟩ := bind_eq_ok_iff.mp hanswer
      cases hanswer
      exact ⟨body, send_eq_ok hsend⟩

/-- Whatever the versions, the hash and the sources, no answer of the older kind is ever collected: it ends the
phase that receives it, whether that waits for the slot or transfers. -/
theorem legacy_exchange_never_works (client : PeerClient) (services : Services) (surroundings : Surroundings)
    (requester_tags : List Ed2kTag) (locals : Locals) (req_hash : Hash16) :
    ¬ LegacyExchangeWorks client services surroundings requester_tags locals req_hash ∧
      ∀ payload, wait_upload_slot client (.packet ⟨EMULE, ANSWERSOURCES, payload⟩) = .fail .TypeError client ∧
        ∀ decompress args transfer, on_packet decompress args transfer ⟨EMULE, ANSWERSOURCES, payload⟩ =
          .raised .TypeError transfer := by
  refine ⟨?_, fun payload => ⟨rfl, fun decompress args transfer => rfl⟩⟩
  rintro ⟨answer, after, entries, hanswer, hcollect, _⟩
  obtain ⟨body, rfl⟩ := answer_of_request hanswer
  have hraises : client.collect_answer_sources ⟨EMULE, ANSWERSOURCES, body⟩ = .error .TypeError := rfl
  rw [hraises] at hcollect
  cases hcollect

/-- One source with a high id is known for every file. -/
def highIdSurroundings : Surroundings :=
  { sampleSurroundings with known_sources := fun _ => some [sampleSource 3232235777] }

/-- Its answer to a peer of the second version. -/
def highIdAnswer : Packet :=
  ⟨EMULE, ANSWERSOURCES, List.replicate 16 9 ++ [1, 0, 1, 1, 168, 192, 0x36, 0x12] ++ List.replicate 22 0⟩

/-- A session that has bound the version of its peer answers, and the answer is not collected. -/
theorem legacy_answer_raises :
    on_request_sources sampleServices highIdSurroundings sampleHello.tags ⟨none, none, [], some 2⟩
        (List.replicate 16 9) = .ok (⟨none, none, [], some 2⟩, [highIdAnswer]) ∧
      freshClient.collect_answer_sources highIdAnswer = .error .TypeError :=
  ⟨by decide +kernel, rfl⟩

end amuled.peer
