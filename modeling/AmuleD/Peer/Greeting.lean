import AmuleD.Peer.Ladder

open amuled.security

namespace amuled.peer_handshake

open peer peer.pre_engine

def HELLO : UInt8 := 0x01

def HELLOANSWER : UInt8 := 0x4C

/-- Everything learned about the remote peer after the handshake. -/
structure PeerInfo where
  user_hash : String
  client_id : Int
  client_port : Int
  nickname : String
  server_ip : Option Int
  server_port : Option Int
  emule_version : Option Nat
  compression : Bool
  deriving DecidableEq

/-- What both kinds of HELLO are made into. A parsed HELLO has no server, for which `getattr` has a default. -/
def PeerInfo.of_hello (hello : Hello) : PeerInfo where
  user_hash := (hex_lower hello.user_hash).toUpper
  client_id := hello.client_id
  client_port := hello.client_port
  nickname := hello.nickname
  server_ip := none
  server_port := none
  emule_version := none
  compression := false

/-- What a session brings to its handshake: its provider of secure identification, the HELLO and the information that
it has built to send, and the challenge that it would draw. -/
structure Local (rsa : Rsa) where
  secure_ident : Option (SecureIdentProvider rsa)
  hello : Bytes
  emuleinfo : Bytes
  challenge : Nat

/-- The variables of `handshake`. -/
structure Known where
  hello_seen : Bool
  info_seen : Bool
  sui_challenged : Bool
  /-- There is a deadline for the signature of the peer. -/
  sui_deadline : Bool
  peer : Option PeerInfo
  peer_tags : List Ed2kTag

def Known.nothing : Known := ⟨false, false, false, false, none, []⟩

/-- The variables of `handshake` and the fields of the session that it sets. -/
structure Exchange (rsa : Rsa) extends Known where
  _sui : Locals
  secure_ident : Option (SecureIdentProvider rsa)
  statuses : FileStatuses
  sent : List Packet

/-- The fourth byte is read where there are three. -/
def compression_of (payload : Bytes) : Except Exc Bool :=
  if payload.length ≥ 3 then
    match payload[3]? with
    | none => .error .IndexError
    | some options => .ok (options.toNat.testBit 0)
  else .ok false

section Exchange

variable {rsa : Rsa} (me : Local rsa)

def Exchange.init : Exchange rsa :=
  ⟨.nothing, ⟨none, none, [], none⟩, me.secure_ident, ⟨Dict.empty, []⟩,
    [⟨EDONKEY, HELLO, me.hello⟩, ⟨EMULE, EMULEINFO, me.emuleinfo⟩]⟩

/-- There are keys to identify with. -/
def has_keys (secure_ident : Option (SecureIdentProvider rsa)) : Bool :=
  match secure_ident with
  | none => false
  | some provider => provider.has_keys

namespace Exchange

variable (exchange : Exchange rsa)

/-- The test of `_maybe_challenge_sui`. -/
def may_challenge : Bool :=
  !exchange.sui_challenged && has_keys exchange.secure_ident && exchange.peer_tags ≠ [] &&
    miso1_secident_support exchange.peer_tags ≠ 0

def _maybe_challenge_sui : Exchange rsa :=
  if exchange.may_challenge then
    { exchange with
      sui_challenged := true
      sui_deadline := true
      _sui := { exchange._sui with challenge_out := some me.challenge }
      sent := exchange.sent ++ [⟨EMULE, SECIDENTSTATE, build_secident_state_payload 2 me.challenge⟩] }
  else exchange

def on_hello (payload : Bytes) (answers : Bool) : Except Exc (Exchange rsa) := do
  let parsed ← parse_hello payload
  .ok { exchange with
    peer_tags := parsed.tags
    peer := some (.of_hello parsed)
    hello_seen := true
    sent := exchange.sent ++ if answers then [⟨EDONKEY, HELLOANSWER, me.hello⟩] else [] }

def on_emuleinfo_answer (payload : Bytes) : Except Exc (Exchange rsa) := do
  let compression ← compression_of payload
  let peer := exchange.peer.map fun peer =>
    { peer with emule_version := payload.head?.map UInt8.toNat, compression := compression }
  .ok (_maybe_challenge_sui me { exchange with info_seen := true, peer := peer })

def on_emuleinfo : Exchange rsa :=
  _maybe_challenge_sui me { exchange with
    info_seen := true
    sent := exchange.sent ++ [⟨EMULE, EMULEINFOANSWER, me.emuleinfo⟩] }

def on_secident_state (payload : Bytes) : Except Exc (Exchange rsa) :=
  if has_keys exchange.secure_ident then do
    let (_sui, answers) ← peer.pre_engine.on_secident_state exchange.secure_ident exchange._sui payload
    .ok { exchange with _sui := _sui, sent := exchange.sent ++ answers }
  else do
    let (_, challenge) ← parse_secident_state_payload payload
    .ok { exchange with _sui := { exchange._sui with challenge_in := some challenge } }

def on_publickey (payload : Bytes) : Except Exc (Exchange rsa) := do
  let peer_blob ← parse_publickey_payload payload
  .ok { exchange with _sui := { exchange._sui with peer_blob := peer_blob } }

def on_signature (payload : Bytes) : Except Exc (Exchange rsa) := do
  let (signature, _) ← parse_signature_payload payload
  let secure_ident := match exchange.peer with
    | none => exchange.secure_ident
    | some peer =>
      if verifies rsa exchange._sui signature then
        exchange.secure_ident.map fun provider => provider.mark_verified peer.user_hash.toLower
      else exchange.secure_ident
  .ok { exchange with secure_ident := secure_ident, sui_deadline := false }

/-- `_capture_file_status`. What is malformed is passed over. -/
def capture_file_status (payload : Bytes) : Exchange rsa :=
  match parse_file_status payload with
  | .error _ => exchange
  | .ok status => { exchange with statuses := exchange.statuses.store status }

/-- A packet at the loop of `handshake`. -/
def on_packet (packet : Packet) : Except Exc (Exchange rsa) :=
  if packet.protocol = EDONKEY then
    if packet.opcode = HELLOANSWER then exchange.on_hello me packet.payload false
    else if packet.opcode = HELLO then exchange.on_hello me packet.payload true
    else if packet.opcode = FILESTATUS then .ok (exchange.capture_file_status packet.payload)
    else .ok exchange
  else if packet.protocol = EMULE then
    if packet.opcode = EMULEINFOANSWER then exchange.on_emuleinfo_answer me packet.payload
    else if packet.opcode = EMULEINFO then .ok (exchange.on_emuleinfo me)
    else if packet.opcode = SECIDENTSTATE then exchange.on_secident_state packet.payload
    else if packet.opcode = PUBLICKEY then exchange.on_publickey packet.payload
    else if packet.opcode = SIGNATURE then exchange.on_signature packet.payload
    else .ok exchange
  else .ok exchange

end Exchange

/-- A packet that arrives before the deadline, and whether the time for a signature is over when it has been handled. -/
structure Arrival where
  packet : Packet
  grace_over : Bool

/-- The result of `handshake`, which are the new fields `peer_info` and `peer_tags`, and the exchange when it ends. -/
abbrev Ending (rsa : Rsa) := Except Exc (PeerInfo × List Ed2kTag) × Exchange rsa

def Exchange.finish (exchange : Exchange rsa) : Ending rsa :=
  match exchange.peer with
  | none => (.error (.PeerSessionError "peer handshake finished without HELLOANSWER"), exchange)
  | some peer => (.ok (peer, exchange.peer_tags), exchange)

/-- The loop of `handshake`. When nothing more arrives, `_receive` closes the session. -/
def Exchange.receive (exchange : Exchange rsa) : List Arrival → Ending rsa
  | [] => (.error (.PeerSessionError "timed out waiting for peer packet"), exchange)
  | arrival :: rest =>
    match exchange.on_packet me arrival.packet with
    | .error e => (.error e, exchange)
    | .ok next =>
      if next.hello_seen && next.info_seen && (!next.sui_deadline || arrival.grace_over) then next.finish
      else next.receive rest

/-- `handshake`, in a session that has not had one. -/
def handshake (arrivals : List Arrival) : Ending rsa := (Exchange.init me).receive me arrivals

end Exchange

end amuled.peer_handshake
