import AmuleD.Peer.Ladder
import AmuleD.Server.SourceLookups

open littleendian receiving

namespace amuled.peer

open pre_engine

structure AichAnswer where
  file_hash : Bytes
  part : Nat
  master : Bytes
  recovery : Bytes

def parse_aich_answer_payload (payload : Bytes) : Except Exc AichAnswer :=
  if payload.length < 38 then
    .error (.PeerCodecError s!"malformed OP_AICHANSWER: {payload.length} bytes, expected >= 38")
  else .ok ⟨payload.take 16, decode (payload.extract 16 18), payload.extract 18 38, payload.drop 38⟩

/-- The receive loop of `request_aich`. That its deadline has passed is among the failures. -/
def request_aich (client : PeerClient) : Arrival → Verdict PeerClient AichAnswer Exc
  | .packet packet =>
    if packet.protocol = EMULE ∧ packet.opcode = AICHANSWER then
      match parse_aich_answer_payload packet.payload with
      | .error e => .fail e client
      | .ok answer => .finish answer client
    else .more client
  | .idle => .fail (.PeerSessionError "timed out waiting for peer packet") client
  | .failed e => .fail e client

/-- The sources that a transfer collects. Its data packets are passed over, and that it is complete is among the
failures. -/
def transfer_sources (client : PeerClient) : Arrival → Verdict PeerClient Unit Exc
  | .packet packet =>
    match client.collect_answer_sources packet with
    | .error e => .fail e client
    | .ok client => .more client
  | .idle => .finish () client
  | .failed e => .fail e client

/-- What a session asks its peer for, and waits for. -/
inductive PeerLookup where
  | file (file_hash : Bytes)
  | aich (file_hash : Bytes) (part : Nat)
  | slot (file_hash : Bytes)
  | transfer (file_hash : Bytes)

inductive PeerAnswer where
  | hashset (answer : HashSetAnswer)
  | recovery (answer : AichAnswer)
  | done

/-- A verdict, with another type of answers. -/
def answering {ρ : Type} (make : ρ → PeerAnswer) : Verdict PeerClient ρ Exc → Verdict PeerClient PeerAnswer Exc
  | .more client => .more client
  | .finish value client => .finish (make value) client
  | .fail e client => .fail e client

def peer_lookup : PeerLookup → PeerClient → Arrival → Verdict PeerClient PeerAnswer Exc
  | .file _, client, arrival => answering .hashset (request_file client arrival)
  | .aich _ _, client, arrival => answering .recovery (request_aich client arrival)
  | .slot _, client, arrival => answering (fun _ => .done) (wait_upload_slot client arrival)
  | .transfer _, client, arrival => answering (fun _ => .done) (transfer_sources client arrival)

/-- `_persist_collected_sources`: what is saved, under the hash of the file. -/
def persist_collected_sources (client : PeerClient) (file_hash_bytes : Bytes) : List (Bytes × Collected) :=
  client.collected_sources.map fun entry => (file_hash_bytes, entry)

/-- All that would be stored under the hash comes from answers for it. -/
def StoredUnder (file_hash_bytes : Bytes) (client : PeerClient) : Prop :=
  ∀ stored ∈ persist_collected_sources client file_hash_bytes, stored.2.named = stored.1

/-- An answer names the file, and the part, of the lookup that returns it. -/
def AnswerFor : PeerLookup → PeerAnswer → Prop
  | .file file_hash, .hashset answer => answer.file_hash = file_hash
  | .aich file_hash part, .recovery answer => answer.file_hash = file_hash ∧ answer.part = part
  | .slot _, .done => True
  | .transfer _, .done => True
  | _, _ => False

/-- The hash set that a packet has. -/
def hashset_of (packet : Packet) : Option HashSetAnswer :=
  if packet.protocol = EDONKEY ∧ packet.opcode = HASHSETANSWER then (parse_hashset_answer packet.payload).toOption
  else none

/-- The recovery data that a packet has. -/
def recovery_of (packet : Packet) : Option AichAnswer :=
  if packet.protocol = EMULE ∧ packet.opcode = AICHANSWER then (parse_aich_answer_payload packet.payload).toOption
  else none

/-- The sources that a packet has. -/
def sources_of (packet : Packet) : Option (Nat × Bytes × List SXSource) :=
  if packet.protocol = EMULE ∧ packet.opcode = ANSWERSOURCES2 then (parse_answer_sources2 packet.payload).toOption
  else none

/-- If what arrives has sources, they are those of the file under which they will be stored. -/
def NamesSources (file_hash_bytes : Bytes) : Arrival → Prop
  | .packet packet => ∀ version named entries, sources_of packet = some (version, named, entries) →
    entries ≠ [] → named = file_hash_bytes
  | _ => True

/-- What arrives names what the waiting lookup is about. -/
def NamesLookup (file_hash_bytes : Bytes) : PeerLookup → Arrival → Prop
  | .file file_hash, .packet packet => ∀ answer, hashset_of packet = some answer → answer.file_hash = file_hash
  | .aich file_hash part, .packet packet =>
    ∀ answer, recovery_of packet = some answer → answer.file_hash = file_hash ∧ answer.part = part
  | .slot _, arrival => NamesSources file_hash_bytes arrival
  | .transfer _, arrival => NamesSources file_hash_bytes arrival
  | _, _ => True

section Receiving

variable (client : PeerClient) {packet : Packet}

theorem checked_ne_finish {α ρ : Type} (parsed : Except Exc α) (value : ρ) (final : PeerClient) :
    client.checked parsed ≠ .finish value final := by
  intro hfinish
  cases parsed with
  | error e => cases hfinish
  | ok parsed => cases hfinish

@[simp] theorem state_checked {α ρ : Type} (parsed : Except Exc α) :
    (client.checked parsed : Verdict PeerClient ρ Exc).state = client := by
  cases parsed with
  | error e => rfl
  | ok parsed => rfl

@[simp] theorem collected_capture_file_status (payload : Bytes) :
    (client.capture_file_status payload).collected_sources = client.collected_sources := by
  rw [PeerClient.capture_file_status]
  cases parse_file_status payload with
  | error e => rfl
  | ok status => rfl

/-- `request_file` returns the hash set of the first packet that has one. -/
theorem request_file_packet_eq_finish_iff {answer : HashSetAnswer} {final : PeerClient} :
    request_file_packet client packet = .finish answer final ↔ hashset_of packet = some answer ∧ final = client := by
  rw [hashset_of]
  by_cases hanswer : packet.protocol = EDONKEY ∧ packet.opcode = HASHSETANSWER
  · have hname : packet.opcode ≠ REQFILENAMEANSWER := by
      rw [hanswer.2]
      decide
    rw [request_file_packet, if_neg (not_not.mpr hanswer.1), if_neg hname, if_pos hanswer.2, if_pos hanswer]
    cases parse_hashset_answer packet.payload with
    | error e => simp [Except.toOption]
    | ok parsed => simp [Except.toOption, eq_comm]
  · have hother : request_file_packet client packet ≠ .finish answer final := by
      intro hfinish
      rw [request_file_packet] at hfinish
      split_ifs at hfinish with hprotocol hname hhashset hmissing hlong hrank
      · exact checked_ne_finish client _ _ _ hfinish
      · exact hanswer ⟨not_not.mp hprotocol, hhashset⟩
      · exact checked_ne_finish client _ _ _ hfinish
    rw [if_neg hanswer]
    exact iff_of_false hother fun hnone => by cases hnone.1

theorem collected_request_file (arrival : Arrival) :
    (request_file client arrival).state.collected_sources = client.collected_sources := by
  cases arrival with
  | idle => rfl
  | failed e => rfl
  | packet packet =>
    rw [request_file, request_file_packet]
    split_ifs with hprotocol hname hhashset hmissing hlong hrank hstatus
    · rfl
    · rw [state_checked]
    · cases parse_hashset_answer packet.payload with
      | error e => rfl
      | ok hashset => rfl
    · rfl
    · rfl
    · rw [state_checked]
    · exact collected_capture_file_status client packet.payload
    · rfl

theorem request_aich_eq_finish_iff {answer : AichAnswer} {final : PeerClient} :
    request_aich client (.packet packet) = .finish answer final ↔
      recovery_of packet = some answer ∧ final = client := by
  rw [request_aich, recovery_of]
  by_cases hanswer : packet.protocol = EMULE ∧ packet.opcode = AICHANSWER
  · rw [if_pos hanswer, if_pos hanswer]
    cases parse_aich_answer_payload packet.payload with
    | error e => simp [Except.toOption]
    | ok parsed => simp [Except.toOption, eq_comm]
  · rw [if_neg hanswer, if_neg hanswer]
    simp

theorem collected_request_aich (arrival : Arrival) :
    (request_aich client arrival).state.collected_sources = client.collected_sources := by
  cases arrival with
  | idle => rfl
  | failed e => rfl
  | packet packet =>
    rw [request_aich]
    split
    · cases parse_aich_answer_payload packet.payload with
      | error e => rfl
      | ok answer => rfl
    · rfl

/-- The sources that an arrival adds where they are collected. -/
def entries_of : Arrival → List Collected
  | .packet packet =>
    match sources_of packet with
    | some (_, named, entries) => entries.map (Collected.mk named)
    | none => []
  | _ => []

/-- Where sources are collected, the session has those of the arrival besides its own, or the packet is refused. -/
theorem collected_collect_answer_sources (packet : Packet) :
    (∃ after, client.collect_answer_sources packet = .ok after ∧
      after.collected_sources = client.collected_sources ++ entries_of (.packet packet)) ∨
    ∃ e, client.collect_answer_sources packet = .error e ∧ entries_of (.packet packet) = [] := by
  rw [PeerClient.collect_answer_sources, entries_of, sources_of]
  by_cases hprotocol : packet.protocol = EMULE
  · rw [if_neg (not_not.mpr hprotocol)]
    by_cases hanswer : packet.opcode = ANSWERSOURCES2
    · rw [if_pos hanswer, if_pos ⟨hprotocol, hanswer⟩]
      cases parse_answer_sources2 packet.payload with
      | error e => exact Or.inr ⟨e, rfl, rfl⟩
      | ok answer => exact Or.inl ⟨_, rfl, rfl⟩
    · have hnot : ¬ (packet.protocol = EMULE ∧ packet.opcode = ANSWERSOURCES2) := fun h => hanswer h.2
      rw [if_neg hanswer, if_neg hnot]
      by_cases hlegacy : packet.opcode = ANSWERSOURCES
      · exact Or.inr ⟨.TypeError, if_pos hlegacy, rfl⟩
      · exact Or.inl ⟨client, if_neg hlegacy, (List.append_nil _).symm⟩
  · have hnot : ¬ (packet.protocol = EMULE ∧ packet.opcode = ANSWERSOURCES2) := fun h => hprotocol h.1
    rw [if_pos hprotocol, if_neg hnot]
    exact Or.inl ⟨client, rfl, (List.append_nil _).symm⟩

theorem collected_transfer_sources (arrival : Arrival) :
    (transfer_sources client arrival).state.collected_sources = client.collected_sources ++ entries_of arrival := by
  cases arrival with
  | idle => exact (List.append_nil _).symm
  | failed e => exact (List.append_nil _).symm
  | packet packet =>
    rw [transfer_sources]
    rcases collected_collect_answer_sources client packet with ⟨after, hcollect, hafter⟩ | ⟨e, hcollect, hnone⟩
    · simp only [hcollect]
      exact hafter
    · simp only [hcollect, hnone, List.append_nil]
      rfl

theorem collected_wait_upload_slot (arrival : Arrival) :
    (wait_upload_slot client arrival).state.collected_sources = client.collected_sources ++ entries_of arrival := by
  cases arrival with
  | idle => exact (List.append_nil _).symm
  | failed e => exact (List.append_nil _).symm
  | packet packet =>
    rw [wait_upload_slot, wait_upload_slot_packet]
    by_cases hprotocol : packet.protocol = EDONKEY
    · have hnone : entries_of (.packet packet) = [] := by
        have hother : ¬ (packet.protocol = EMULE ∧ packet.opcode = ANSWERSOURCES2) := by
          rw [hprotocol]
          rintro ⟨hsame, _⟩
          cases hsame
        rw [entries_of, sources_of, if_neg hother]
      rw [hnone, List.append_nil, if_neg (not_not.mpr hprotocol)]
      split_ifs
      · rfl
      · rw [state_checked]
      · rfl
      · exact collected_capture_file_status client packet.payload
      · rfl
    · rw [if_pos hprotocol]
      rcases collected_collect_answer_sources client packet with ⟨after, hcollect, hafter⟩ | ⟨e, hcollect, hnone⟩
      · simp only [hcollect]
        exact hafter
      · simp only [hcollect, hnone, List.append_nil]
        rfl

end Receiving

section Matching

variable {file_hash_bytes : Bytes} {client : PeerClient}

theorem fits_answering_iff {ρ : Type} {make : ρ → PeerAnswer} {matching : PeerAnswer → Prop} {good : PeerClient → Prop}
    {verdict : Verdict PeerClient ρ Exc} : Lookups.Fits matching good (answering make verdict) ↔
      good verdict.state ∧ ∀ value final, verdict = .finish value final → matching (make value) := by
  rw [Lookups.Fits]
  cases verdict with
  | more next => exact and_congr_right fun _ => iff_of_true (by rintro _ _ ⟨⟩) (by rintro _ _ ⟨⟩)
  | fail e final => exact and_congr_right fun _ => iff_of_true (by rintro _ _ ⟨⟩) (by rintro _ _ ⟨⟩)
  | finish value final =>
    apply and_congr_right
    intro _
    constructor
    · intro hmatching other state hfinish
      cases hfinish
      exact hmatching (make value) final rfl
    · intro hmatching other state hfinish
      cases hfinish
      exact hmatching value final rfl

theorem storedUnder_iff : StoredUnder file_hash_bytes client ↔
    ∀ entry ∈ client.collected_sources, entry.named = file_hash_bytes := by
  rw [StoredUnder, persist_collected_sources, List.forall_mem_map]

theorem storedUnder_of_collected_eq {after : PeerClient} (hstored : StoredUnder file_hash_bytes client)
    (hcollected : after.collected_sources = client.collected_sources) : StoredUnder file_hash_bytes after := by
  rw [storedUnder_iff, hcollected]
  exact storedUnder_iff.mp hstored

theorem names_entries_iff (arrival : Arrival) :
    (∀ entry ∈ entries_of arrival, entry.named = file_hash_bytes) ↔ NamesSources file_hash_bytes arrival := by
  cases arrival with
  | idle => exact iff_of_true (fun entry hmem => by cases hmem) trivial
  | failed e => exact iff_of_true (fun entry hmem => by cases hmem) trivial
  | packet packet =>
    rw [entries_of, NamesSources]
    cases sources_of packet with
    | none => exact iff_of_true (fun entry hmem => by cases hmem) (by rintro _ _ _ ⟨⟩)
    | some answer =>
      obtain ⟨version, named, entries⟩ := answer
      simp only [List.forall_mem_map]
      constructor
      · intro hnamed version' named' entries' hsame hsome
        cases hsame
        obtain ⟨source, hmem⟩ := List.exists_mem_of_ne_nil entries hsome
        exact hnamed source hmem
      · intro hnames source hmem
        exact hnames version named entries rfl (List.ne_nil_of_mem hmem)

/-- Where sources are collected, all that would be stored stays right exactly if the arrival names the file. -/
theorem storedUnder_extended_iff {after : PeerClient} {arrival : Arrival}
    (hstored : StoredUnder file_hash_bytes client)
    (hcollected : after.collected_sources = client.collected_sources ++ entries_of arrival) :
    StoredUnder file_hash_bytes after ↔ NamesSources file_hash_bytes arrival := by
  rw [storedUnder_iff, hcollected, List.forall_mem_append, ← names_entries_iff]
  exact and_iff_right (storedUnder_iff.mp hstored)

theorem peer_lookup_fits_iff (lookup : PeerLookup) (client : PeerClient) (arrival : Arrival)
    (hstored : StoredUnder file_hash_bytes client) :
    Lookups.Fits (AnswerFor lookup) (StoredUnder file_hash_bytes) (peer_lookup lookup client arrival) ↔
      NamesLookup file_hash_bytes lookup arrival := by
  cases lookup with
  | file file_hash =>
    rw [peer_lookup, fits_answering_iff, and_iff_right (storedUnder_of_collected_eq hstored
      (collected_request_file client arrival))]
    cases arrival with
    | idle => exact iff_of_true (by rintro _ _ ⟨⟩) trivial
    | failed e => exact iff_of_true (by rintro _ _ ⟨⟩) trivial
    | packet packet =>
      rw [NamesLookup, request_file]
      simp only [request_file_packet_eq_finish_iff, AnswerFor]
      constructor
      · exact fun hnames answer hanswer => hnames answer client ⟨hanswer, rfl⟩
      · exact fun hnames answer final hanswer => hnames answer hanswer.1
  | aich file_hash part =>
    rw [peer_lookup, fits_answering_iff, and_iff_right (storedUnder_of_collected_eq hstored
      (collected_request_aich client arrival))]
    cases arrival with
    | idle => exact iff_of_true (by rintro _ _ ⟨⟩) trivial
    | failed e => exact iff_of_true (by rintro _ _ ⟨⟩) trivial
    | packet packet =>
      rw [NamesLookup]
      simp only [request_aich_eq_finish_iff, AnswerFor]
      constructor
      · exact fun hnames answer hanswer => hnames answer client ⟨hanswer, rfl⟩
      · exact fun hnames answer final hanswer => hnames answer hanswer.1
  | slot file_hash =>
    have hdone : ∀ value final, wait_upload_slot client arrival = .finish value final →
        AnswerFor (.slot file_hash) .done := fun value final hfinish => trivial
    rw [peer_lookup, fits_answering_iff, and_iff_left hdone, NamesLookup]
    exact storedUnder_extended_iff hstored (collected_wait_upload_slot client arrival)
  | transfer file_hash =>
    have hdone : ∀ value final, transfer_sources client arrival = .finish value final →
        AnswerFor (.transfer file_hash) .done := fun value final hfinish => trivial
    rw [peer_lookup, fits_answering_iff, and_iff_left hdone, NamesLookup]
    exact storedUnder_extended_iff hstored (collected_transfer_sources client arrival)

/-- The lookups of a server session, none of which has started yet. -/
def serverStart (client : server.Ed2kServerClient) : Lookups Bytes server.Ed2kServerClient server.FoundSources :=
  ⟨none, client, []⟩

/-- The lookups of a peer session that has collected nothing yet. -/
def peerStart (statuses : FileStatuses) : Lookups PeerLookup PeerClient PeerAnswer := ⟨none, ⟨statuses, []⟩, []⟩

/-- On both kinds of sessions what the lookups return, and what is stored, is for their files and parts throughout a
run exactly if every answer that a waiting lookup reads is. -/
theorem answers_matched_iff (client : server.Ed2kServerClient) (lookups : List (LookupEvent Bytes Arrival))
    (statuses : FileStatuses) (file_hash_bytes : Bytes) (requests : List (LookupEvent PeerLookup Arrival)) :
    ((∀ part, part <+: lookups → Lookups.Matched (fun file_hash sources => sources.file_hash = file_hash)
        (fun _ => True) (part.foldl (Lookups.step server.get_sources) (serverStart client))) ↔
      runs.AllSteps (Lookups.step server.get_sources) (serverStart client)
        (Lookups.ReadsOnly server.NamesFile) lookups) ∧
    ((∀ part, part <+: requests → Lookups.Matched AnswerFor (StoredUnder file_hash_bytes)
        (part.foldl (Lookups.step peer_lookup) (peerStart statuses))) ↔
      runs.AllSteps (Lookups.step peer_lookup) (peerStart statuses)
        (Lookups.ReadsOnly (NamesLookup file_hash_bytes)) requests) := by
  constructor
  · apply Lookups.matched_throughout_iff
    · refine ⟨trivial, fun result hmem => ?_⟩
      cases hmem
    · exact fun file_hash client arrival _ => server.get_sources_fits_iff file_hash client arrival
  · apply Lookups.matched_throughout_iff
    · refine ⟨storedUnder_iff.mpr fun entry hmem => ?_, fun result hmem => ?_⟩
      · cases hmem
      · cases hmem
    · exact fun lookup client arrival hstored => peer_lookup_fits_iff lookup client arrival hstored

/-- The answer to a lookup that has timed out. -/
def lateAnswer : Packet := ⟨EDONKEY, server.FOUNDSOURCES, List.replicate 16 1 ++ [0]⟩

/-- The next lookup, for another file, returns it. -/
theorem late_answer_taken :
    ([.start (List.replicate 16 1), .read .idle, .start (List.replicate 16 2), .read (.packet lateAnswer)].foldl
      (Lookups.step server.get_sources) (serverStart ⟨[], none⟩)).results =
        [(List.replicate 16 1, ⟨List.replicate 16 1, []⟩), (List.replicate 16 2, ⟨List.replicate 16 1, []⟩)] := by
  decide +kernel

end Matching

end amuled.peer
