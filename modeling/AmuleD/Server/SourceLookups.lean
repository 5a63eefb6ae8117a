import AmuleD.Codec.Tags
import AmuleD.Codec.Struct
import AmuleD.Peer.Transfer
import AmuleD.Streams.ReceiveLoop

open littleendian cursor receiving

namespace amuled.server

open amuled.peer (Arrival)

def REJECT : UInt8 := 0x05

def SERVERSTATUS : UInt8 := 0x34

def SERVERMESSAGE : UInt8 := 0x38

def FOUNDSOURCES : UInt8 := 0x42

def FOUNDSOURCES_OBFU : UInt8 := 0x44

structure FoundSource where
  client_id : Nat
  client_port : Nat
  crypt_options : Nat
  user_hash : Option Bytes
  deriving DecidableEq

structure FoundSources where
  file_hash : Bytes
  sources : List FoundSource
  deriving DecidableEq

def read_found_source (obfuscated : Bool) : BinaryRead FoundSource := do
  let client_id ← read_u32
  let client_port ← read_u16
  if obfuscated then
    let crypt_options ← read_u8
    if crypt_options &&& 0x80 ≠ 0 then
      let user_hash ← read_hash16
      pure ⟨client_id, client_port, crypt_options, some user_hash⟩
    else pure ⟨client_id, client_port, crypt_options, none⟩
  else pure ⟨client_id, client_port, 0, none⟩

def read_found_sources (obfuscated : Bool) : BinaryRead FoundSources := do
  let file_hash ← read_hash16
  let source_count ← read_u8
  let sources ← repeatN (read_found_source obfuscated) source_count
  pure ⟨file_hash, sources⟩

/-- A reader of a whole payload, with the exceptions of the codec turned into those of the protocol. -/
def parse_whole {α : Type} (label : String) (read : BinaryRead α) (payload : Bytes) : Except Exc α :=
  match read ⟨payload, 0⟩ with
  | .error (.CodecError e) => .error (.ProtocolError s!"malformed {label}: {e}")
  | .error (.TagError e) => .error (.ProtocolError s!"malformed {label}: {e}")
  | .error e => .error e
  | .ok (value, reader) =>
    if reader.remaining ≠ 0 then .error (.ProtocolError s!"{label} has {reader.remaining} trailing bytes")
    else .ok value

def parse_found_sources (payload : Bytes) (obfuscated : Bool) : Except Exc FoundSources :=
  parse_whole "OP_FOUNDSOURCES" (read_found_sources obfuscated) payload

def read_server_status : BinaryRead (Nat × Nat) := do
  let users ← read_u32
  let files ← read_u32
  pure (users, files)

def parse_server_status (payload : Bytes) : Except Exc (Nat × Nat) :=
  parse_whole "OP_SERVERSTATUS" read_server_status payload

/-- The caller treats a `UnicodeError`, whose text is Python's own, as one of the codec. -/
def read_string_utf8 : BinaryRead String := do
  let length ← read_u16
  let raw ← read_bytes length
  match utf8_decode raw with
  | some text => pure text
  | none => throw (.CodecError "invalid UTF-8")

def parse_server_message (payload : Bytes) : Except Exc String :=
  parse_whole "OP_SERVERMESSAGE" read_string_utf8 payload

/-- What a session learns from its server besides the answers. -/
structure Ed2kServerClient where
  messages : List String
  status : Option (Nat × Nat)

/-- `_consume_auxiliary_packet`, or `none` for a packet that it does not handle. -/
def consume_auxiliary_packet (client : Ed2kServerClient) (packet : Packet) :
    Option (Except Exc Ed2kServerClient) :=
  if packet.opcode = SERVERMESSAGE then
    some ((parse_server_message packet.payload).map fun message =>
      { client with messages := client.messages ++ [message] })
  else if packet.opcode = SERVERSTATUS then
    some ((parse_server_status packet.payload).map fun status => { client with status := some status })
  else none

/-- A packet at the receive loop of `get_sources`. -/
def get_sources_packet (client : Ed2kServerClient) (packet : Packet) : Verdict Ed2kServerClient FoundSources Exc :=
  if packet.protocol ≠ EDONKEY then
    .fail (.ServerSessionError s!"unexpected ED2K protocol byte: {hex_upper 2 packet.protocol.toNat}") client
  else
    match consume_auxiliary_packet client packet with
    | some (.error e) => .fail e client
    | some (.ok client) => .more client
    | none =>
      if packet.opcode = FOUNDSOURCES ∨ packet.opcode = FOUNDSOURCES_OBFU then
        match parse_found_sources packet.payload (packet.opcode = FOUNDSOURCES_OBFU) with
        | .error e => .fail e client
        | .ok sources => .finish sources client
      else if packet.opcode = REJECT then
        .fail (.ServerSessionError "ED2K source request was rejected by the server") client
      else .more client

/-- The receive loop of `get_sources`. After a timeout there are no sources, and the session stays open. -/
def get_sources (file_hash : Bytes) (client : Ed2kServerClient) :
    Arrival → Verdict Ed2kServerClient FoundSources Exc
  | .packet packet => get_sources_packet client packet
  | .idle => .finish ⟨file_hash, []⟩ client
  | .failed e => .fail e client

/-- The sources that a packet has. -/
def sources_of (packet : Packet) : Option FoundSources :=
  if packet.protocol = EDONKEY ∧ (packet.opcode = FOUNDSOURCES ∨ packet.opcode = FOUNDSOURCES_OBFU) then
    (parse_found_sources packet.payload (packet.opcode = FOUNDSOURCES_OBFU)).toOption
  else none

/-- If what arrives has sources, they are those of the file. -/
def NamesFile (file_hash : Bytes) : Arrival → Prop
  | .packet packet => ∀ sources, sources_of packet = some sources → sources.file_hash = file_hash
  | _ => True

theorem consume_auxiliary_packet_answer {client : Ed2kServerClient} {packet : Packet}
    (hanswer : packet.opcode = FOUNDSOURCES ∨ packet.opcode = FOUNDSOURCES_OBFU) :
    consume_auxiliary_packet client packet = none := by
  have hmessage : packet.opcode ≠ SERVERMESSAGE := by
    rcases hanswer with hopcode | hopcode <;> simp [hopcode, FOUNDSOURCES, FOUNDSOURCES_OBFU, SERVERMESSAGE]
  have hstatus : packet.opcode ≠ SERVERSTATUS := by
    rcases hanswer with hopcode | hopcode <;> simp [hopcode, FOUNDSOURCES, FOUNDSOURCES_OBFU, SERVERSTATUS]
  rw [consume_auxiliary_packet, if_neg hmessage, if_neg hstatus]

/-- The loop returns the sources of the first packet that has some, and of no other one. -/
theorem get_sources_packet_eq_finish_iff {client final : Ed2kServerClient} {packet : Packet} {sources : FoundSources} :
    get_sources_packet client packet = .finish sources final ↔ sources_of packet = some sources ∧ final = client := by
  rw [get_sources_packet, sources_of]
  by_cases hprotocol : packet.protocol = EDONKEY
  · rw [if_neg (not_not.mpr hprotocol)]
    by_cases hanswer : packet.opcode = FOUNDSOURCES ∨ packet.opcode = FOUNDSOURCES_OBFU
    · have hboth : packet.protocol = EDONKEY ∧ (packet.opcode = FOUNDSOURCES ∨ packet.opcode = FOUNDSOURCES_OBFU) :=
        ⟨hprotocol, hanswer⟩
      rw [consume_auxiliary_packet_answer hanswer, if_pos hboth]
      simp only [if_pos hanswer]
      cases parse_found_sources packet.payload (packet.opcode = FOUNDSOURCES_OBFU) with
      | error e => simp [Except.toOption]
      | ok parsed => simp [Except.toOption, eq_comm]
    · have hnot : ¬ (packet.protocol = EDONKEY ∧
          (packet.opcode = FOUNDSOURCES ∨ packet.opcode = FOUNDSOURCES_OBFU)) := fun h => hanswer h.2
      rw [if_neg hnot]
      cases consume_auxiliary_packet client packet with
      | none =>
        simp only [if_neg hanswer]
        by_cases hreject : packet.opcode = REJECT
        · simp [hreject]
        · simp [hreject]
      | some consumed =>
        cases consumed with
        | error e => simp
        | ok client => simp
  · have hnot : ¬ (packet.protocol = EDONKEY ∧
        (packet.opcode = FOUNDSOURCES ∨ packet.opcode = FOUNDSOURCES_OBFU)) := fun h => hprotocol h.1
    rw [if_pos hprotocol, if_neg hnot]
    simp

/-- The sources that a lookup returns are those of the file exactly if what it reads names the file. -/
theorem get_sources_fits_iff (file_hash : Bytes) (client : Ed2kServerClient) (arrival : Arrival) :
    Lookups.Fits (fun sources : FoundSources => sources.file_hash = file_hash) (fun _ => True)
      (get_sources file_hash client arrival) ↔ NamesFile file_hash arrival := by
  cases arrival with
  | idle =>
    refine iff_of_true ⟨trivial, fun sources final hfinish => ?_⟩ trivial
    cases hfinish
    rfl
  | failed e =>
    refine iff_of_true ⟨trivial, fun sources final hfinish => ?_⟩ trivial
    cases hfinish
  | packet packet =>
    rw [get_sources, NamesFile, Lookups.Fits, true_and]
    constructor
    · intro hnames sources hsources
      exact hnames sources client (get_sources_packet_eq_finish_iff.mpr ⟨hsources, rfl⟩)
    · intro hnames sources final hfinish
      exact hnames sources (get_sources_packet_eq_finish_iff.mp hfinish).1

end amuled.server
