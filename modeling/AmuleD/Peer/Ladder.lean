import AmuleD.Dict
import AmuleD.Peer.PreEngine
import AmuleD.Streams.ReceiveLoop

open receiving

namespace amuled.peer

open pre_engine

def FILEREQANSNOFIL : UInt8 := 0x39

def FILESTATUS : UInt8 := 0x50

def ACCEPTUPLOADREQ : UInt8 := 0x55

structure FileNameAnswer where
  file_hash : Bytes
  name : String

def read_string : BinaryRead Bytes := do
  let length ← read_u16
  read_bytes length

def read_filename_answer : BinaryRead (Bytes × Bytes) := do
  let file_hash ← read_hash16
  let raw ← read_string
  pure (file_hash, raw)

/-- The text of Python's own error for a name that is no UTF-8 is left out of the message. -/
def parse_filename_answer (payload : Bytes) : Except Exc FileNameAnswer := do
  let ((file_hash, raw), reader) ← malformed "OP_REQFILENAMEANSWER" (read_filename_answer ⟨payload, 0⟩)
  match utf8_decode raw with
  | none => .error (.PeerCodecError "malformed OP_REQFILENAMEANSWER: ")
  | some name =>
    if reader.remaining ≠ 0 then
      .error (.PeerCodecError s!"OP_REQFILENAMEANSWER has {reader.remaining} trailing bytes")
    else .ok ⟨file_hash, name⟩

structure FileStatus where
  file_hash : Bytes
  chunk_count : Nat
  present_chunks : List Nat

def read_file_status : BinaryRead (Bytes × Nat × Bytes) := do
  let file_hash ← read_hash16
  let chunk_count ← read_u16
  let bit_array ← read_bytes ((chunk_count + 7) / 8)
  pure (file_hash, chunk_count, bit_array)

def parse_file_status (payload : Bytes) : Except Exc FileStatus := do
  let ((file_hash, chunk_count, bit_array), reader) ← malformed "OP_FILESTATUS" (read_file_status ⟨payload, 0⟩)
  if reader.remaining ≠ 0 then
    .error (.PeerCodecError s!"OP_FILESTATUS has {reader.remaining} trailing bytes")
  else
    let present := fun i => decide (i / 8 < bit_array.length) && (bit_array.getD (i / 8) 0).toNat.testBit (i % 8)
    .ok ⟨file_hash, chunk_count, (List.range chunk_count).filter present⟩

/-- What the peer has told of its parts. -/
structure FileStatuses where
  part_status : Dict Bytes (List Nat)
  complete_sources : List Bytes

def FileStatuses.store (statuses : FileStatuses) (status : FileStatus) : FileStatuses :=
  if status.chunk_count = 0 then
    ⟨statuses.part_status.set status.file_hash [], status.file_hash :: statuses.complete_sources⟩
  else ⟨statuses.part_status.set status.file_hash status.present_chunks, statuses.complete_sources⟩

/-- What is known of a file: the parts, and whether the source is complete. -/
def FileStatuses.about (statuses : FileStatuses) (file_hash : Bytes) : Option (List Nat) × Bool :=
  (statuses.part_status.get file_hash, file_hash ∈ statuses.complete_sources)

/-- A source of an answer. The session keeps only the source, and not the hash that its answer names. -/
structure Collected where
  named : Bytes
  source : SXSource

/-- What a session learns from its peer. -/
structure PeerClient extends FileStatuses where
  collected_sources : List Collected

namespace PeerClient

/-- `_capture_file_status` of a FILESTATUS packet. What is malformed is passed over. -/
def capture_file_status (client : PeerClient) (payload : Bytes) : PeerClient :=
  match parse_file_status payload with
  | .error _ => client
  | .ok status => { client with toFileStatuses := client.store status }

/-- `_collect_answer_sources`. The parser of the older answers is called without the version that it needs. -/
def collect_answer_sources (client : PeerClient) (packet : Packet) : Except Exc PeerClient :=
  if packet.protocol ≠ EMULE then .ok client
  else if packet.opcode = ANSWERSOURCES2 then do
    let (_, file_hash, entries) ← parse_answer_sources2 packet.payload
    .ok { client with collected_sources := client.collected_sources ++ entries.map (Collected.mk file_hash) }
  else if packet.opcode = ANSWERSOURCES then .error .TypeError
  else .ok client

/-- A packet that only has to be well formed. -/
def checked {α ρ : Type} (client : PeerClient) : Except Exc α → Verdict PeerClient ρ Exc
  | .error e => .fail e client
  | .ok _ => .more client

end PeerClient

/-- The packets of `request_file`. -/
def file_requests (file_hash : Hash16) : List Packet :=
  [REQUESTFILENAME, SETREQFILEID, HASHSETREQUEST, STARTUPLOADREQ].map fun opcode => ⟨EDONKEY, opcode, file_hash.val⟩

/-- A packet at the receive loop of `request_file`. -/
def request_file_packet (client : PeerClient) (packet : Packet) : Verdict PeerClient HashSetAnswer Exc :=
  if packet.protocol ≠ EDONKEY then .more client
  else if packet.opcode = REQFILENAMEANSWER then client.checked (parse_filename_answer packet.payload)
  else if packet.opcode = HASHSETANSWER then
    match parse_hashset_answer packet.payload with
    | .error e => .fail e client
    | .ok hashset => .finish hashset client
  else if packet.opcode = FILEREQANSNOFIL then
    let named := if packet.payload.length ≥ 16 then (hex_lower (packet.payload.take 16)).toUpper else "?"
    .fail (.PeerSessionError s!"peer does not have file {named}") client
  else if packet.opcode = QUEUERANK then client.checked (parse_queue_rank packet.payload)
  else if packet.opcode = FILESTATUS then .more (client.capture_file_status packet.payload)
  else .more client

/-- The receive loop of `request_file`, in which a timeout closes the session. -/
def request_file (client : PeerClient) : Arrival → Verdict PeerClient HashSetAnswer Exc
  | .packet packet => request_file_packet client packet
  | .idle => .fail (.PeerSessionError "timed out waiting for peer packet") client
  | .failed e => .fail e client

/-- A packet at the receive loop of `wait_upload_slot`. -/
def wait_upload_slot_packet (client : PeerClient) (packet : Packet) : Verdict PeerClient Unit Exc :=
  if packet.protocol ≠ EDONKEY then
    match client.collect_answer_sources packet with
    | .error e => .fail e client
    | .ok client => .more client
  else if packet.opcode = ACCEPTUPLOADREQ then .finish () client
  else if packet.opcode = QUEUERANK then client.checked (parse_queue_rank packet.payload)
  else if packet.opcode = FILEREQANSNOFIL then
    .fail (.PeerSessionError "peer reported the file as unavailable") client
  else if packet.opcode = FILESTATUS then .more (client.capture_file_status packet.payload)
  else .more client

/-- The receive loop of `wait_upload_slot`, for which a timeout is no reason to end. That its deadline has passed
is among the failures. -/
def wait_upload_slot (client : PeerClient) : Arrival → Verdict PeerClient Unit Exc
  | .packet packet => wait_upload_slot_packet client packet
  | .idle => .more client
  | .failed e => .fail e client

/-- `request_file`, `request_sources`, which only sends, and `wait_upload_slot`. -/
def ladder (client : PeerClient) (arrivals : List Arrival) : Outcome Arrival PeerClient Unit Exc :=
  (loop request_file client arrivals).andThen fun _ client unread => loop wait_upload_slot client unread

/-- A well-formed answer of the peer. The entries of the older kind are those of the SX1 version. -/
inductive Answer (version : Nat) where
  | filename (payload : Bytes) (answer : FileNameAnswer) (hparse : parse_filename_answer payload = .ok answer)
  | hashset (payload : Bytes) (answer : HashSetAnswer) (hparse : parse_hashset_answer payload = .ok answer)
  | file_status (payload : Bytes) (status : FileStatus) (hparse : parse_file_status payload = .ok status)
  | queue_rank (payload : Bytes) (rank : Nat) (hparse : parse_queue_rank payload = .ok rank)
  | accept_upload (payload : Bytes)
  | sources2 (payload : Bytes) (answer : Nat × Bytes × List SXSource)
      (hparse : parse_answer_sources2 payload = .ok answer)
  | sources (payload : Bytes) (answer : Nat × Bytes × List SXSource)
      (hparse : parse_answer_sources payload version = .ok answer)

namespace Answer

variable {version : Nat}

def packet : Answer version → Packet
  | filename payload _ _ => ⟨EDONKEY, REQFILENAMEANSWER, payload⟩
  | hashset payload _ _ => ⟨EDONKEY, HASHSETANSWER, payload⟩
  | file_status payload _ _ => ⟨EDONKEY, FILESTATUS, payload⟩
  | queue_rank payload _ _ => ⟨EDONKEY, QUEUERANK, payload⟩
  | accept_upload payload => ⟨EDONKEY, ACCEPTUPLOADREQ, payload⟩
  | sources2 payload _ _ => ⟨EMULE, ANSWERSOURCES2, payload⟩
  | sources payload _ _ => ⟨EMULE, ANSWERSOURCES, payload⟩

def arrival (answer : Answer version) : Arrival := .packet answer.packet

/-- The answer that `request_file` waits for. -/
def is_hashset : Answer version → Bool
  | hashset .. => true
  | _ => false

/-- The answer that `wait_upload_slot` waits for. -/
def is_accept : Answer version → Bool
  | accept_upload _ => true
  | _ => false

/-- An answer of the older kind, to whose parser no version is given. -/
def is_legacy : Answer version → Bool
  | sources .. => true
  | _ => false

/-- The sources of an answer. -/
def entries : Answer version → List Collected
  | sources2 _ (_, file_hash, entries) _ => entries.map (Collected.mk file_hash)
  | sources _ (_, file_hash, entries) _ => entries.map (Collected.mk file_hash)
  | _ => []

/-- What an answer tells of the parts of a file. -/
def tell (statuses : FileStatuses) : Answer version → FileStatuses
  | file_status _ status _ => statuses.store status
  | _ => statuses

end Answer

namespace PeerClient

variable {version : Nat} (client : PeerClient)

/-- The session after an answer of which it takes only what it tells of parts. -/
def noted (answer : Answer version) : PeerClient :=
  { client with toFileStatuses := answer.tell client.toFileStatuses }

/-- The session after an answer whose sources it takes as well. -/
def taken (answer : Answer version) : PeerClient :=
  { client.noted answer with collected_sources := client.collected_sources ++ answer.entries }

end PeerClient

section Steps

variable {version : Nat} (client : PeerClient) {answer : Answer version}

theorem capture_file_status_eq {payload : Bytes} {status : FileStatus}
    (hparse : parse_file_status payload = .ok status) :
    client.capture_file_status payload = { client with toFileStatuses := client.store status } := by
  rw [PeerClient.capture_file_status, hparse]

theorem request_file_more (hother : answer.is_hashset = false) :
    request_file client answer.arrival = .more (client.noted answer) := by
  cases answer with
  | filename payload parsed hparse =>
    have hstep : request_file client (Answer.filename payload parsed hparse : Answer version).arrival =
        client.checked (parse_filename_answer payload) := rfl
    rw [hstep, hparse]
    rfl
  | hashset payload parsed hparse => cases hother
  | file_status payload status hparse =>
    have hstep : request_file client (Answer.file_status payload status hparse : Answer version).arrival =
        .more (client.capture_file_status payload) := rfl
    rw [hstep, capture_file_status_eq client hparse]
    rfl
  | queue_rank payload rank hparse =>
    have hstep : request_file client (Answer.queue_rank payload rank hparse : Answer version).arrival =
        client.checked (parse_queue_rank payload) := rfl
    rw [hstep, hparse]
    rfl
  | accept_upload payload => rfl
  | sources2 payload parsed hparse => rfl
  | sources payload parsed hparse => rfl

theorem request_file_hashset (hhashset : answer.is_hashset = true) :
    ∃ hashset, request_file client answer.arrival = .finish hashset client := by
  cases answer with
  | hashset payload parsed hparse =>
    refine ⟨parsed, ?_⟩
    simp only [request_file, Answer.arrival, Answer.packet, request_file_packet]
    rw [hparse]
    rfl
  | _ => cases hhashset

theorem taken_eq_noted (hentries : answer.entries = []) : client.taken answer = client.noted answer := by
  rw [PeerClient.taken, hentries, List.append_nil]
  rfl

theorem wait_upload_slot_more (hother : answer.is_accept = false) (hversion : answer.is_legacy = false) :
    wait_upload_slot client answer.arrival = .more (client.taken answer) := by
  cases answer with
  | filename payload parsed hparse =>
    rw [taken_eq_noted client rfl]
    rfl
  | hashset payload parsed hparse =>
    rw [taken_eq_noted client rfl]
    rfl
  | file_status payload status hparse =>
    have hstep : wait_upload_slot client (Answer.file_status payload status hparse : Answer version).arrival =
        .more (client.capture_file_status payload) := rfl
    rw [hstep, capture_file_status_eq client hparse, taken_eq_noted client rfl]
    rfl
  | queue_rank payload rank hparse =>
    have hstep : wait_upload_slot client (Answer.queue_rank payload rank hparse : Answer version).arrival =
        client.checked (parse_queue_rank payload) := rfl
    rw [hstep, hparse, taken_eq_noted client rfl]
    rfl
  | accept_upload payload => cases hother
  | sources2 payload parsed hparse =>
    have hcollect : client.collect_answer_sources ⟨EMULE, ANSWERSOURCES2, payload⟩ = .ok (client.taken
        (Answer.sources2 payload parsed hparse : Answer version)) := by
      rw [PeerClient.collect_answer_sources, if_neg (by simp), if_pos rfl]
      simp only [hparse, ok_bind]
      rfl
    simp only [wait_upload_slot, Answer.arrival, Answer.packet, wait_upload_slot_packet, hcollect]
    rfl
  | sources payload parsed hparse => cases hversion

theorem wait_upload_slot_accept (haccept : answer.is_accept = true) :
    wait_upload_slot client answer.arrival = .finish () client := by
  cases answer with
  | accept_upload payload => rfl
  | _ => cases haccept

theorem wait_upload_slot_legacy (hlegacy : answer.is_legacy = true) :
    wait_upload_slot client answer.arrival = .fail .TypeError client := by
  cases answer with
  | sources payload parsed hparse => rfl
  | _ => cases hlegacy

end Steps

section Runs

variable {version : Nat} (client : PeerClient) {front rest : List (Answer version)} {answer : Answer version}

/-- `request_file` goes over to the next phase at the first answer with a hash set. -/
theorem ladder_of_hashset (hfront : ∀ a ∈ front, a.is_hashset = false) (hhashset : answer.is_hashset = true) :
    ladder client ((front ++ answer :: rest).map Answer.arrival) =
      loop wait_upload_slot (front.foldl PeerClient.noted client) (rest.map Answer.arrival) := by
  obtain ⟨hashset, hfinish⟩ := request_file_hashset (front.foldl PeerClient.noted client) hhashset
  have hpasses : Passes request_file client (front.map Answer.arrival) (front.foldl PeerClient.noted client) :=
    Passes.of_forall fun a hmem state => request_file_more state (hfront a hmem)
  have hreturned : loop request_file client ((front ++ answer :: rest).map Answer.arrival) =
      .returned hashset (front.foldl PeerClient.noted client) (rest.map Answer.arrival) := by
    rw [List.map_append, List.map_cons, loop_append hpasses, loop, hfinish]
  rw [ladder, hreturned]
  rfl

/-- Without a hash set the ladder stays in its first phase. -/
theorem ladder_waits (hfront : ∀ a ∈ front, a.is_hashset = false) :
    ladder client (front.map Answer.arrival) = .waiting (front.foldl PeerClient.noted client) := by
  have hpasses : Passes request_file client (front.map Answer.arrival) (front.foldl PeerClient.noted client) :=
    Passes.of_forall fun a hmem state => request_file_more state (hfront a hmem)
  rw [ladder, ← List.append_nil (front.map Answer.arrival), loop_append hpasses]
  rfl

theorem passes_wait (haccept : ∀ a ∈ front, a.is_accept = false) (hlegacy : ∀ a ∈ front, a.is_legacy = false) :
    Passes wait_upload_slot client (front.map Answer.arrival) (front.foldl PeerClient.taken client) :=
  Passes.of_forall fun a hmem state => wait_upload_slot_more state (haccept a hmem) (hlegacy a hmem)

/-- The slot is recognised at the first grant. -/
theorem wait_returned (hfront : ∀ a ∈ front, a.is_accept = false) (hlegacy : ∀ a ∈ front, a.is_legacy = false)
    (haccept : answer.is_accept = true) :
    loop wait_upload_slot client ((front ++ answer :: rest).map Answer.arrival) =
      .returned () (front.foldl PeerClient.taken client) (rest.map Answer.arrival) := by
  rw [List.map_append, List.map_cons, loop_append (passes_wait client hfront hlegacy), loop,
    wait_upload_slot_accept _ haccept]

/-- An answer of the older kind ends the session. -/
theorem wait_raised (hfront : ∀ a ∈ front, a.is_accept = false) (hversions : ∀ a ∈ front, a.is_legacy = false)
    (hlegacy : answer.is_legacy = true) :
    loop wait_upload_slot client ((front ++ answer :: rest).map Answer.arrival) =
      .raised .TypeError (front.foldl PeerClient.taken client) (rest.map Answer.arrival) := by
  rw [List.map_append, List.map_cons, loop_append (passes_wait client hfront hversions), loop,
    wait_upload_slot_legacy _ hlegacy]

/-- Without a grant the slot is not recognised. -/
theorem wait_ne_returned {final : PeerClient} {unread : List Arrival} (hfront : ∀ a ∈ front, a.is_accept = false) :
    loop wait_upload_slot client (front.map Answer.arrival) ≠ .returned () final unread := by
  apply loop_ne_returned
  intro arrival hmem state hfinish
  obtain ⟨a, ha, rfl⟩ := List.mem_map.mp hmem
  by_cases hlegacy : a.is_legacy = true
  · rw [wait_upload_slot_legacy state hlegacy] at hfinish
    cases hfinish
  · rw [wait_upload_slot_more state (hfront a ha) (Bool.eq_false_of_not_eq_true hlegacy)] at hfinish
    cases hfinish

theorem entries_of_is_hashset (hhashset : answer.is_hashset = true) : answer.entries = [] := by
  cases answer with
  | hashset payload parsed hparse => rfl
  | _ => cases hhashset

/-- A list has a first element that passes a test, unless none does. -/
theorem first_or_none (test : Answer version → Bool) (answers : List (Answer version)) :
    (∀ a ∈ answers, test a = false) ∨
      ∃ front first rest, answers = front ++ first :: rest ∧ test first = true ∧ ∀ a ∈ front, test a = false := by
  cases hfind : answers.find? test with
  | none =>
    left
    intro a hmem
    exact Bool.eq_false_of_not_eq_true (List.find?_eq_none.mp hfind a hmem)
  | some first =>
    right
    obtain ⟨hfirst, front, rest, hanswers, hfront⟩ := List.find?_eq_some_iff_append.mp hfind
    exact ⟨front, first, rest, hanswers, hfirst, fun a hmem => by simpa using hfront a hmem⟩

theorem statuses_noted (answers : List (Answer version)) :
    (answers.foldl PeerClient.noted client).toFileStatuses = answers.foldl Answer.tell client.toFileStatuses := by
  induction answers generalizing client with
  | nil => rfl
  | cons a answers ih => exact ih (client.noted a)

theorem sources_noted (answers : List (Answer version)) :
    (answers.foldl PeerClient.noted client).collected_sources = client.collected_sources := by
  induction answers generalizing client with
  | nil => rfl
  | cons a answers ih => exact ih (client.noted a)

theorem statuses_taken (answers : List (Answer version)) :
    (answers.foldl PeerClient.taken client).toFileStatuses = answers.foldl Answer.tell client.toFileStatuses := by
  induction answers generalizing client with
  | nil => rfl
  | cons a answers ih => exact ih (client.taken a)

theorem sources_taken (answers : List (Answer version)) :
    (answers.foldl PeerClient.taken client).collected_sources =
      client.collected_sources ++ answers.flatMap Answer.entries := by
  induction answers generalizing client with
  | nil => rw [List.foldl_nil, List.flatMap_nil, List.append_nil]
  | cons a answers ih =>
    rw [List.foldl_cons, ih, List.flatMap_cons, ← List.append_assoc]
    rfl

end Runs

section NothingLost

variable {version : Nat}

/-- The ladder recognises the slot, with all sources of the answers and all that they tell of parts. -/
def NothingLost (client : PeerClient) (answers : List (Answer version)) : Prop :=
  ∃ final unread, ladder client (answers.map Answer.arrival) = .returned () final unread ∧
    final.collected_sources = client.collected_sources ++ answers.flatMap Answer.entries ∧
    ∀ file_hash, final.about file_hash = (answers.foldl Answer.tell client.toFileStatuses).about file_hash

/-- The hash set comes before the grant, and between the two come all sources, none of them in an answer of the
older kind. What comes after the grant tells nothing new of parts. -/
def InOrder (client : PeerClient) (before after : List (Answer version)) : Prop :=
  (∃ early hashset late, before = early ++ hashset :: late ∧ hashset.is_hashset = true ∧
    (∀ a ∈ early, a.is_hashset = false) ∧ (∀ a ∈ late, a.is_legacy = false) ∧ ∀ a ∈ early, a.entries = []) ∧
  (∀ a ∈ after, a.entries = []) ∧
  ∀ file_hash, (before.foldl Answer.tell client.toFileStatuses).about file_hash =
    (after.foldl Answer.tell (before.foldl Answer.tell client.toFileStatuses)).about file_hash

variable {client : PeerClient} {before after : List (Answer version)} {payload : Bytes}

/-- How the ladder comes to its end. -/
theorem ladder_eq_returned_iff {final : PeerClient} {unread : List Arrival}
    (hbefore : ∀ a ∈ before, a.is_accept = false) (hafter : ∀ a ∈ after, a.is_accept = false) :
    ladder client ((before ++ .accept_upload payload :: after).map Answer.arrival) = .returned () final unread ↔
      ∃ early hashset late, before = early ++ hashset :: late ∧ hashset.is_hashset = true ∧
        (∀ a ∈ early, a.is_hashset = false) ∧ (∀ a ∈ late, a.is_legacy = false) ∧
        final = late.foldl PeerClient.taken (early.foldl PeerClient.noted client) ∧
        unread = after.map Answer.arrival := by
  constructor
  · intro hladder
    rcases first_or_none Answer.is_hashset before with hnone | ⟨early, hashset, late, rfl, hhashset, hearly⟩
    · rcases first_or_none Answer.is_hashset after with hnever | ⟨front, hashset, rest, rfl, hhashset, hfront⟩
      · have hall : ∀ a ∈ before ++ .accept_upload payload :: after, a.is_hashset = false := by
          rw [List.forall_mem_append, List.forall_mem_cons]
          exact ⟨hnone, rfl, hnever⟩
        rw [ladder_waits client hall] at hladder
        cases hladder
      · -- The grant was ignored while the hash set was waited for, and no other one comes.
        have hfirst : ∀ a ∈ before ++ .accept_upload payload :: front, a.is_hashset = false := by
          rw [List.forall_mem_append, List.forall_mem_cons]
          exact ⟨hnone, rfl, hfront⟩
        have hsplit : before ++ .accept_upload payload :: (front ++ hashset :: rest) =
            (before ++ .accept_upload payload :: front) ++ hashset :: rest := by
          rw [List.append_assoc, List.cons_append]
        rw [hsplit, ladder_of_hashset client hfirst hhashset] at hladder
        have hrest : ∀ a ∈ rest, a.is_accept = false := fun a hmem =>
          hafter a (List.mem_append_right front (List.mem_cons_of_mem hashset hmem))
        exact absurd hladder (wait_ne_returned _ hrest)
    · have hlate : ∀ a ∈ late, a.is_accept = false := fun a hmem =>
        hbefore a (List.mem_append_right early (List.mem_cons_of_mem hashset hmem))
      rw [List.append_assoc, List.cons_append, ladder_of_hashset client hearly hhashset] at hladder
      rcases first_or_none Answer.is_legacy late with hversions | ⟨front, legacy, rest, rfl, hlegacy, hfront⟩
      · rw [wait_returned _ hlate hversions rfl] at hladder
        cases hladder
        exact ⟨early, hashset, late, rfl, hhashset, hearly, hversions, rfl, rfl⟩
      · have haccepts : ∀ a ∈ front, a.is_accept = false := fun a hmem =>
          hlate a (List.mem_append_left _ hmem)
        rw [List.append_assoc, List.cons_append, wait_raised _ haccepts hfront hlegacy] at hladder
        cases hladder
  · rintro ⟨early, hashset, late, rfl, hhashset, hearly, hversions, rfl, rfl⟩
    have hlate : ∀ a ∈ late, a.is_accept = false := fun a hmem =>
      hbefore a (List.mem_append_right early (List.mem_cons_of_mem hashset hmem))
    rw [List.append_assoc, List.cons_append, ladder_of_hashset client hearly hhashset,
      wait_returned _ hlate hversions rfl]

/-- The sources between the hash set and the grant are all there are exactly if none come elsewhere. -/
theorem sources_complete_iff {early late : List (Answer version)} {hashset : Answer version}
    (hhashset : hashset.is_hashset = true) :
    (late.foldl PeerClient.taken (early.foldl PeerClient.noted client)).collected_sources =
        client.collected_sources ++
          ((early ++ hashset :: late) ++ .accept_upload payload :: after).flatMap Answer.entries ↔
      (∀ a ∈ early, a.entries = []) ∧ ∀ a ∈ after, a.entries = [] := by
  have hgrant : (Answer.accept_upload payload : Answer version).entries = [] := rfl
  rw [sources_taken, sources_noted, List.append_cancel_left_eq, List.flatMap_append, List.flatMap_append,
    List.flatMap_cons, List.flatMap_cons, entries_of_is_hashset hhashset, hgrant, List.nil_append, List.nil_append,
    ← List.flatMap_eq_nil_iff, ← List.flatMap_eq_nil_iff]
  constructor
  · intro hsame
    have hlengths := congrArg List.length hsame
    simp only [List.length_append] at hlengths
    exact ⟨List.length_eq_zero_iff.mp (by omega), List.length_eq_zero_iff.mp (by omega)⟩
  · rintro ⟨hearly, hafter⟩
    rw [hearly, hafter, List.nil_append, List.append_nil]

theorem tell_of_is_hashset {hashset : Answer version} (hhashset : hashset.is_hashset = true)
    (statuses : FileStatuses) : hashset.tell statuses = statuses := by
  cases hashset with
  | hashset payload parsed hparse => rfl
  | _ => cases hhashset

/-- All that is told before the grant is known at the end. -/
theorem statuses_before {early late : List (Answer version)} {hashset : Answer version}
    (hhashset : hashset.is_hashset = true) :
    (late.foldl PeerClient.taken (early.foldl PeerClient.noted client)).toFileStatuses =
      (early ++ hashset :: late).foldl Answer.tell client.toFileStatuses := by
  rw [statuses_taken, statuses_noted, List.foldl_append, List.foldl_cons, tell_of_is_hashset hhashset]

theorem statuses_all : (before ++ .accept_upload payload :: after).foldl Answer.tell client.toFileStatuses =
    after.foldl Answer.tell (before.foldl Answer.tell client.toFileStatuses) := by
  rw [List.foldl_append, List.foldl_cons]
  rfl

/-- With one grant among the answers, nothing is lost exactly if they come in this order. -/
theorem nothing_lost_iff_in_order (hbefore : ∀ a ∈ before, a.is_accept = false)
    (hafter : ∀ a ∈ after, a.is_accept = false) :
    NothingLost client (before ++ .accept_upload payload :: after) ↔ InOrder client before after := by
  constructor
  · rintro ⟨final, unread, hladder, hsources, habout⟩
    obtain ⟨early, hashset, late, rfl, hhashset, hearly, hversions, rfl, -⟩ :=
      (ladder_eq_returned_iff hbefore hafter).mp hladder
    obtain ⟨hnone, hlater⟩ := (sources_complete_iff hhashset).mp hsources
    refine ⟨⟨early, hashset, late, rfl, hhashset, hearly, hversions, hnone⟩, hlater, fun file_hash => ?_⟩
    have hknown := habout file_hash
    rw [statuses_before hhashset, statuses_all] at hknown
    exact hknown
  · rintro ⟨⟨early, hashset, late, rfl, hhashset, hearly, hversions, hnone⟩, hlater, hknown⟩
    refine ⟨_, _, (ladder_eq_returned_iff hbefore hafter).mpr
      ⟨early, hashset, late, rfl, hhashset, hearly, hversions, rfl, rfl⟩, ?_, fun file_hash => ?_⟩
    · exact (sources_complete_iff hhashset).mpr ⟨hnone, hlater⟩
    · rw [statuses_before hhashset, statuses_all]
      exact hknown file_hash

/-- A session that has learned nothing yet. -/
def freshClient : PeerClient := ⟨⟨.empty, []⟩, []⟩

/-- A hash set in the layout with the hash first. -/
def sampleHashset : Answer 1 := .hashset (List.replicate 18 0) ⟨List.replicate 16 0, []⟩ rfl

theorem nothing_lost_hashset_first : NothingLost freshClient [sampleHashset, .accept_upload []] := by
  have hbefore : ∀ a ∈ [sampleHashset], a.is_accept = false := by
    intro a hmem
    rw [List.mem_singleton.mp hmem]
    rfl
  have hafter : ∀ a ∈ ([] : List (Answer 1)), a.is_accept = false := fun a hmem => absurd hmem List.not_mem_nil
  have hiff : NothingLost freshClient ([sampleHashset] ++ .accept_upload [] :: []) ↔
      InOrder freshClient [sampleHashset] [] := nothing_lost_iff_in_order hbefore hafter
  refine hiff.mpr ⟨⟨[], sampleHashset, [], rfl, rfl, ?_⟩, ?_⟩
  · simp
  · simp

/-- A grant before the hash set is ignored, and the slot never recognised. -/
theorem grant_before_hashset_lost : ¬ NothingLost freshClient [.accept_upload [], sampleHashset] := by
  rintro ⟨final, unread, hladder, _⟩
  have hends : ladder freshClient ([.accept_upload [], sampleHashset].map Answer.arrival) = .waiting freshClient :=
    rfl
  rw [hends] at hladder
  cases hladder

end NothingLost

end amuled.peer
