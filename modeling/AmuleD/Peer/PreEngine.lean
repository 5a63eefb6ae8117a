import AmuleD.Codec.Packet
import AmuleD.Codec.TagWriter
import AmuleD.Hashes.Aich.RoundTrip
import AmuleD.Peer.Hashset
import AmuleD.Peer.Hello
import AmuleD.Peer.Incoming
import AmuleD.Peer.Receive
import AmuleD.Peer.SourceExchange
import AmuleD.Peer.Transfer
import AmuleD.Security.SecureIdent
import AmuleD.Upload.BlockSource

open littleendian

namespace amuled.peer

def build_secident_state_payload (state challenge : Nat) : Bytes :=
  UInt8.ofNat (state % 2 ^ 8) :: encode 4 (challenge % 2 ^ 32)

def parse_secident_state_payload (payload : Bytes) : Except Exc (Nat × Nat) :=
  if payload.length ≠ 5 then
    .error (.PeerCodecError s!"malformed OP_SECIDENTSTATE: {payload.length} bytes, expected 5")
  else .ok (decode (payload.take 1), decode (payload.drop 1))

def build_publickey_payload (pubkey_blob : Bytes) : Except Exc Bytes :=
  if 1 ≤ pubkey_blob.length ∧ pubkey_blob.length ≤ 250 then
    .ok (UInt8.ofNat pubkey_blob.length :: pubkey_blob)
  else .error (.PeerCodecError s!"public key blob length out of range: {pubkey_blob.length}")

def parse_publickey_payload (payload : Bytes) : Except Exc Bytes :=
  if payload.length < 10 ∨ payload.length > 250 then
    .error (.PeerCodecError s!"malformed OP_PUBLICKEY: {payload.length} bytes")
  else
    let blob_len := (payload.getD 0 0).toNat
    if blob_len ≠ payload.length - 1 then
      .error (.PeerCodecError
        s!"OP_PUBLICKEY length mismatch: declared={blob_len}, actual={payload.length - 1}")
    else .ok (payload.drop 1)

def build_signature_payload (signature : Bytes) (ip_kind : Nat) : Except Exc Bytes :=
  if 1 ≤ signature.length ∧ signature.length ≤ 250 then
    .ok (UInt8.ofNat signature.length :: signature ++
      if ip_kind = 0 then [] else [UInt8.ofNat (ip_kind % 2 ^ 8)])
  else .error (.PeerCodecError s!"signature length out of range: {signature.length}")

/-- The signature, and the kind of address block, which is 0 in the first version. -/
def parse_signature_payload (payload : Bytes) : Except Exc (Bytes × Nat) :=
  if payload.length < 11 ∨ payload.length > 251 then
    .error (.PeerCodecError s!"malformed OP_SIGNATURE: {payload.length} bytes")
  else
    let sig_len := (payload.getD 0 0).toNat
    if sig_len ≠ payload.length - 1 ∧ sig_len ≠ payload.length - 2 then
      .error (.PeerCodecError s!"OP_SIGNATURE length mismatch: declared={sig_len}, payload={payload.length}")
    else .ok (payload.extract 1 (1 + sig_len), (payload.getD (1 + sig_len) 0).toNat)

/-- Four bits of the first misc options that are an integer. -/
def miso1_bits (shift : Nat) (tags : List Ed2kTag) : Nat :=
  match tags.findSome? fun tag => if tag.identifier = .name_id 0xFA then int_value tag.value else none with
  | some value => (value / 2 ^ shift % 16).toNat
  | none => 0

def miso1_secident_support (tags : List Ed2kTag) : Nat := miso1_bits 16 tags

def miso1_source_exchange (tags : List Ed2kTag) : Nat := miso1_bits 12 tags

/-- The version, the options and the hash. -/
def parse_request_sources2 (payload : Bytes) : Except Exc (Nat × Nat × Bytes) :=
  if payload.length ≠ 19 then
    .error (.PeerCodecError s!"malformed OP_REQUESTSOURCES2: {payload.length} bytes, expected 19")
  else .ok (decode (payload.take 1), decode (payload.extract 1 3), payload.extract 3 19)

def parse_request_sources (payload : Bytes) : Except Exc Bytes :=
  if payload.length ≠ 16 then
    .error (.PeerCodecError s!"malformed OP_REQUESTSOURCES: {payload.length} bytes, expected 16")
  else .ok payload

/-- The legacy answer has no version byte, but its entries follow the version of the peer. -/
def build_answer_sources (file_hash : Bytes) (sources : List SXSource) (entry_version : Int) :
    Except Exc Bytes := do
  if file_hash.length ≠ 16 then
    throw (.PeerCodecError "file hash must be 16 bytes")
  let entry_version := clamp_version entry_version
  let count ← struct_pack 2 sources.length
  let entries := (sources.take MAX_ANSWER_SOURCES).map fun source => sx_entry source entry_version
  pure (file_hash ++ (count ++ entries.flatten))

/-- The hash, and the name behind its length. -/
def build_file_name_answer_payload (file_hash : Bytes) (name : String) : Except Exc Bytes :=
  if file_hash.length ≠ 16 then .error (.PeerCodecError "file hash must contain exactly 16 bytes")
  else do
    let hash ← write_hash16 file_hash
    let length ← write_u16 (utf8_encode name).length
    .ok (hash ++ (length ++ utf8_encode name))

/-- The hash, the part and the master hash. -/
def parse_aich_request_payload (payload : Bytes) : Except Exc (Bytes × Nat × Bytes) :=
  if payload.length ≠ 38 then
    .error (.PeerCodecError s!"malformed OP_AICHREQUEST: {payload.length} bytes, expected 38")
  else .ok (payload.take 16, decode (payload.extract 16 18), payload.extract 18 38)

def build_aich_request_payload (file_hash : Bytes) (part : Nat) (master : Bytes) : Except Exc Bytes :=
  if file_hash.length ≠ 16 ∨ master.length ≠ 20 then
    .error (.PeerCodecError "AICH request needs hash16 and master20")
  else .ok (file_hash ++ (encode 2 (part % 2 ^ 16) ++ master))

def build_aich_answer_payload (file_hash : Bytes) (part : Nat) (master recovery : Bytes) :
    Except Exc Bytes := do
  let head ← build_aich_request_payload file_hash part master
  .ok (head ++ recovery)

/-- The tags of `build_emuleinfo_payload`. -/
def emuleinfo_tags : List Ed2kTag :=
  [⟨.name_id 0x20, UINT32, .int 1⟩, ⟨.name_id 0x22, UINT32, .int 0⟩, ⟨.name_id 0x21, UINT32, .int 0⟩,
   ⟨.name_id 0x23, UINT32, .int 4⟩, ⟨.name_id 0x24, UINT32, .int 0⟩, ⟨.name_id 0x25, UINT32, .int 0⟩,
   ⟨.name_id 0x27, UINT32, .int 3⟩]

/-- No tag has a float for a value. -/
def build_emuleinfo_payload (emule_version : Nat) : Except Exc Bytes := do
  let version ← write_uint 8 emule_version
  let count ← write_u32 emuleinfo_tags.length
  let tags ← emuleinfo_tags.mapM (write_new_tag fun _ => .error .TypeError)
  .ok (version ++ (EMULE :: (count ++ tags.flatten)))

theorem parse_request_sources2_eq_ok {payload req_hash : Bytes} {version options : Nat}
    (hparse : parse_request_sources2 payload = .ok (version, options, req_hash)) :
    req_hash = payload.extract 3 19 ∧ req_hash.length = 16 := by
  rw [parse_request_sources2] at hparse
  split at hparse
  · cases hparse
  · rename_i hlength
    cases hparse
    exact ⟨rfl, length_extract_of_le (by omega)⟩

theorem parse_request_sources_eq_ok {payload req_hash : Bytes}
    (hparse : parse_request_sources payload = .ok req_hash) : req_hash = payload ∧ req_hash.length = 16 := by
  rw [parse_request_sources] at hparse
  split at hparse
  · cases hparse
  · rename_i hlength
    cases hparse
    exact ⟨rfl, not_not.mp hlength⟩

theorem parse_aich_request_payload_eq_ok {payload req_hash req_master : Bytes} {req_part : Nat}
    (hparse : parse_aich_request_payload payload = .ok (req_hash, req_part, req_master)) :
    req_hash.length = 16 ∧ req_master.length = 20 := by
  rw [parse_aich_request_payload] at hparse
  split at hparse
  · cases hparse
  · cases hparse
    constructor
    · rw [List.length_take]
      omega
    · exact length_extract_of_le (by omega)

/-- The info packet is the same in every session. -/
theorem build_emuleinfo_payload_ok :
    ∃ payload, build_emuleinfo_payload 0x3C = .ok payload ∧ payload.length < 64 :=
  ⟨[0x3C, EMULE, 7, 0, 0, 0, 0x89, 0x20, 1, 0x89, 0x22, 0, 0x89, 0x21, 0, 0x89, 0x23, 4, 0x89, 0x24, 0,
    0x89, 0x25, 0, 0x89, 0x27, 3], by decide +kernel, by decide⟩

end amuled.peer

open amuled.aich amuled.security
open amuled.upload (SharedFile)

namespace amuled.peer.pre_engine

def EMULEINFO : UInt8 := 0x01

def EMULEINFOANSWER : UInt8 := 0x02

def SETREQFILEID : UInt8 := 0x4F

def HASHSETREQUEST : UInt8 := 0x51

def HASHSETANSWER : UInt8 := 0x52

def REQUESTFILENAME : UInt8 := 0x58

def REQFILENAMEANSWER : UInt8 := 0x59

def REQUESTSOURCES : UInt8 := 0x81

def REQUESTSOURCES2 : UInt8 := 0x83

def PUBLICKEY : UInt8 := 0x85

def SIGNATURE : UInt8 := 0x86

def SECIDENTSTATE : UInt8 := 0x87

def AICHREQUEST : UInt8 := 0x9B

def AICHANSWER : UInt8 := 0x9C

def DEFAULT_ED2K_VERSION : Nat := 0x3C

/-- A row of the table of shared files, found under its hash. -/
structure SharedRow where
  name : String
  size : Int
  path : Option String

/-- The fields of a `SharedFile` of the resolver that `run` reads. -/
structure Shared where
  file_hash : Bytes
  name : String
  size : Nat
  path : String

/-- What is at a path. What cannot be opened may still be a file. -/
inductive OnDisk where
  | absent (error : String)
  | unreadable (is_file : Bool) (error : String)
  | file (content : Bytes)

/-- What a packet finds outside the session: the state backend, the disk, and the sources of a file. The backend
and the source provider may raise; a provider that returns `None` knows no sources. -/
structure Surroundings where
  state_factory : Except String (String → Except String (Option SharedRow))
  disk : String → OnDisk
  known_sources : Bytes → Option (List SXSource)

/-- `StateSharedFileResolver.resolve`. -/
def Surroundings.resolve (surroundings : Surroundings) (file_hash : Bytes) : Except Exc (Option Shared) :=
  if file_hash.length ≠ 16 then .ok none
  else
    match surroundings.state_factory with
    | .error e => .error (.ListenerError s!"state backend creation failed: {e}")
    | .ok get_shared_file =>
      match get_shared_file (hex_lower file_hash) with
      | .error e => .error (.ListenerError s!"get_shared_file failed: {e}")
      | .ok none => .ok none
      | .ok (some row) =>
        match row.path with
        | none => .ok none
        | some path =>
          if row.size < 0 then
            .error (.ListenerError "malformed shared-file row: shared file size cannot be negative")
          else .ok (some ⟨file_hash, row.name, row.size.toNat, path⟩)

/-- The sources that a request is answered with: without any the packet is ignored, as it is where the
provider raises. -/
def Surroundings.sources (surroundings : Surroundings) (req_hash : Bytes) : List SXSource :=
  (surroundings.known_sources req_hash).getD []

def aich_hash_file (sha1 : HashFn 20) : OnDisk → Except Exc AichHashResult
  | .absent e => .error (.AichError s!"cannot stat AICH input: {e}")
  | .unreadable _ e => .error (.AichError s!"cannot hash AICH file: {e}")
  | .file content => aich_hash_data sha1 content

/-- The constructor of `BlockSource`. -/
def block_source (disk : String → OnDisk) (shared : Shared) : Except Exc Unit :=
  let missing := Exc.UploadEngineError (s!"shared file does not exist: path={shared.path}, " ++
    s!"hash={(hex_lower shared.file_hash).toUpper}")
  match disk shared.path with
  | .absent _ => .error missing
  | .unreadable is_file _ => if is_file then .ok () else .error missing
  | .file _ => .ok ()

/-- `BlockSource.chunk_hashes`, of a file that has not been hashed before. -/
def chunk_hashes (md4 : Md4) (disk : String → OnDisk) (shared : Shared) : Except Exc (List Bytes) :=
  match disk shared.path with
  | .file content => .ok (SharedFile.chunk_hashes md4 ⟨shared.file_hash, shared.size, none, content⟩)
  | _ => .error .OSError

/-- What every session of a listener is given, apart from its provider of secure identification. -/
structure Services where
  sha1 : HashFn 20
  md4 : Md4
  has_source_provider : Bool

/-- The variables that the branches of `run` share. `peer_sx1` is unbound until it is assigned. -/
structure Locals where
  challenge_out : Option Nat
  challenge_in : Option Nat
  peer_blob : Bytes
  peer_sx1 : Option Nat
  deriving DecidableEq

/-- `StreamTransport.send`: the packet on the wire. -/
def send (protocol opcode : UInt8) (payload : Bytes) : Except Exc Packet :=
  if payload.length > MAX_PACKET_SIZE - 1 then
    .error (.ListenerError s!"payload exceeds max packet size: {payload.length}")
  else .ok ⟨protocol, opcode, payload⟩

section Branches

variable {rsa : Rsa} (services : Services) (surroundings : Surroundings) (tags : List Ed2kTag)

/-- The attributes of a provider that may be `None`. -/
def present (secure_ident : Option (SecureIdentProvider rsa)) : Except Exc (SecureIdentProvider rsa) :=
  match secure_ident with
  | none => .error .AttributeError
  | some provider => .ok provider

def on_secident_state (secure_ident : Option (SecureIdentProvider rsa)) (locals : Locals) (payload : Bytes) :
    Except Exc (Locals × List Packet) := do
  let (_, challenge) ← parse_secident_state_payload payload
  let provider ← present secure_ident
  let public_blob ← provider.public_blob
  let publickey ← build_publickey_payload public_blob
  let publickey ← send EMULE PUBLICKEY publickey
  let signature ← provider.create_signature challenge 0 []
  let signature ← build_signature_payload signature 0
  let signature ← send EMULE SIGNATURE signature
  .ok ({ locals with challenge_in := some challenge }, [publickey, signature])

def on_publickey (locals : Locals) (payload : Bytes) : Except Exc (Locals × List Packet) := do
  let peer_blob ← parse_publickey_payload payload
  .ok ({ locals with peer_blob := peer_blob }, [])

/-- A signature answers the challenge of the session, under the key that came last. -/
def verifies (rsa : Rsa) (locals : Locals) (signature : Bytes) : Bool :=
  match locals.challenge_out with
  | none => false
  | some challenge =>
    locals.peer_blob ≠ [] && verify_signature rsa locals.peer_blob signature challenge 0 []

def on_signature (secure_ident : Option (SecureIdentProvider rsa)) (user_hash : Bytes) (locals : Locals)
    (payload : Bytes) : Except Exc (Option (SecureIdentProvider rsa)) := do
  let (signature, _) ← parse_signature_payload payload
  if verifies rsa locals signature then do
    let provider ← present secure_ident
    .ok (some (provider.mark_verified (hex_lower user_hash)))
  else .ok secure_ident

def on_request_sources2 (locals : Locals) (payload : Bytes) : Except Exc (Locals × List Packet) :=
  if !services.has_source_provider then .ok (locals, [])
  else
    match parse_request_sources2 payload with
    | .error _ => .ok (locals, [])
    | .ok (req_version, _, req_hash) =>
      let peer_sx1 := miso1_source_exchange tags
      let locals := { locals with peer_sx1 := some peer_sx1 }
      if ¬ (req_version > 0 ∨ peer_sx1 > 1) then .ok (locals, [])
      else if surroundings.sources req_hash = [] then .ok (locals, [])
      else do
        let answer ← build_answer_sources2 (clamp_version req_version) req_hash (surroundings.sources req_hash)
        let answer ← send EMULE ANSWERSOURCES2 answer
        .ok (locals, [answer])

def on_request_sources (locals : Locals) (payload : Bytes) : Except Exc (Locals × List Packet) :=
  if !services.has_source_provider then .ok (locals, [])
  else
    match parse_request_sources payload with
    | .error _ => .ok (locals, [])
    | .ok req_hash =>
      if miso1_source_exchange tags ≤ 1 then .ok (locals, [])
      else if surroundings.sources req_hash = [] then .ok (locals, [])
      else
        match locals.peer_sx1 with
        | none => .error .UnboundLocalError
        | some peer_sx1 => do
          let answer ← build_answer_sources req_hash (surroundings.sources req_hash) peer_sx1
          let answer ← send EMULE ANSWERSOURCES answer
          .ok (locals, [answer])

/-- The recovery data of `_handle_aich_request`, if they are asked for under the right master hash. -/
def aich_recovery (sha1 : HashFn 20) (disk : String → OnDisk) (shared : Shared) (req_part : Nat)
    (req_master : Bytes) : Except Exc (Option Bytes) := do
  let result ← aich_hash_file sha1 (disk shared.path)
  if result.master_hash ≠ req_master then .ok none
  else if req_part ≥ part_count shared.size then .ok none
  else some <$> aich_part_recovery_data sha1 result req_part

def handle_aich_request (locals : Locals) (payload : Bytes) : Except Exc (Locals × List Packet) :=
  match parse_aich_request_payload payload with
  | .error _ => .ok (locals, [])
  | .ok (req_hash, req_part, req_master) => do
    let shared ← surroundings.resolve req_hash
    match shared with
    | none => .ok (locals, [])
    | some shared =>
      if shared.path = "" then .ok (locals, [])
      else
        match aich_recovery services.sha1 surroundings.disk shared req_part req_master with
        | .error (.AichError _) => .ok (locals, [])
        | .error e => .error e
        | .ok none => .ok (locals, [])
        | .ok (some recovery) => do
          let answer ← build_aich_answer_payload req_hash req_part req_master recovery
          let answer ← send EMULE AICHANSWER answer
          .ok (locals, [answer])

def on_request_filename (locals : Locals) (payload : Bytes) : Except Exc (Locals × List Packet) :=
  match parse_file_hash_payload payload with
  | .error _ => .ok (locals, [])
  | .ok req_hash => do
    let shared ← surroundings.resolve req_hash.val
    match shared with
    | none => .ok (locals, [])
    | some shared => do
      let answer ← build_file_name_answer_payload req_hash.val shared.name
      let answer ← send EDONKEY REQFILENAMEANSWER answer
      .ok (locals, [answer])

/-- The `UploadEngineError` that is caught is one of the hashing: the constructor stands before the `try`. -/
def on_hashset_request (locals : Locals) (payload : Bytes) : Except Exc (Locals × List Packet) :=
  match parse_file_hash_payload payload with
  | .error _ => .ok (locals, [])
  | .ok req_hash => do
    let shared ← surroundings.resolve req_hash.val
    match shared with
    | none => .ok (locals, [])
    | some shared => do
      block_source surroundings.disk shared
      match chunk_hashes services.md4 surroundings.disk shared with
      | .error (.UploadEngineError _) => .ok (locals, [])
      | .error e => .error e
      | .ok [] => .ok (locals, [])
      | .ok chunks => do
        let answer ← build_hashset_answer_payload shared.file_hash chunks
        let answer ← send EDONKEY HASHSETANSWER answer
        .ok (locals, [answer])

def on_emuleinfo (locals : Locals) : Except Exc (Locals × List Packet) := do
  let answer ← build_emuleinfo_payload DEFAULT_ED2K_VERSION
  let answer ← send EMULE EMULEINFOANSWER answer
  .ok (locals, [answer])

/-- What a branch that leaves the provider alone does. Packets that only notify are ignored, as are unknown ones. -/
def branch (secure_ident : Option (SecureIdentProvider rsa)) (locals : Locals) (opcode : UInt8)
    (payload : Bytes) : Except Exc (Locals × List Packet) :=
  if opcode = SECIDENTSTATE then on_secident_state secure_ident locals payload
  else if opcode = PUBLICKEY then on_publickey locals payload
  else if opcode = REQUESTSOURCES2 then on_request_sources2 services surroundings tags locals payload
  else if opcode = REQUESTSOURCES then on_request_sources services surroundings tags locals payload
  else if opcode = AICHREQUEST then handle_aich_request services surroundings locals payload
  else if opcode = REQUESTFILENAME then on_request_filename surroundings locals payload
  else if opcode = HASHSETREQUEST then on_hashset_request services surroundings locals payload
  else if opcode = EMULEINFO then on_emuleinfo locals
  else .ok (locals, [])

end Branches

/-- A packet of the peer, and what it finds outside the session. -/
structure Incoming where
  opcode : UInt8
  payload : Bytes
  surroundings : Surroundings

/-- Where a `run` is: its connection is held for a buddy, it waits for STARTUPLOADREQ, it has received one, or an
exception has left it. -/
inductive Position where
  | held
  | looping
  | upload (payload : Bytes)
  | raised (e : Exc)
  deriving DecidableEq

/-- A `run` up to STARTUPLOADREQ, with what it has sent since HELLOANSWER. -/
structure Loop where
  position : Position
  locals : Locals
  sent : List Packet
  deriving DecidableEq

section Loop

variable {rsa : Rsa}

/-- The challenge to a peer that announces secure identification: four bytes of `urandom`, but never zero. -/
def challenge_to (secure_ident : Option (SecureIdentProvider rsa)) (tags : List Ed2kTag) (urandom : Bytes) :
    Option Nat :=
  match secure_ident with
  | none => none
  | some provider =>
    if provider.has_keys ∧ miso1_secident_support tags ≠ 0 then
      some (if decode urandom = 0 then 1 else decode urandom)
    else none

/-- The tag of a firewalled client that asks to be its serving buddy. -/
def is_buddy (tags : List Ed2kTag) : Bool :=
  match tags.find? fun tag => tag.identifier = .name_id 0xBF with
  | some ⟨_, _, .bytes _⟩ => true
  | _ => false

/-- A `run` after the handshake. -/
def Loop.enter (secure_ident : Option (SecureIdentProvider rsa)) (tags : List Ed2kTag) (urandom : Bytes) :
    Loop where
  position := if is_buddy tags then .held else .looping
  locals := ⟨challenge_to secure_ident tags urandom, none, [], none⟩
  sent := match challenge_to secure_ident tags urandom with
    | none => []
    | some challenge => [⟨EMULE, SECIDENTSTATE, build_secident_state_payload 2 challenge⟩]

/-- One packet: the provider, which the sessions share, and the loop after it. -/
def receive (services : Services) (hello : Hello) (run : Option (SecureIdentProvider rsa) × Loop)
    (incoming : Incoming) : Option (SecureIdentProvider rsa) × Loop :=
  let (secure_ident, loop) := run
  let leave (position : Position) := (secure_ident, { loop with position := position })
  if loop.position ≠ .looping then run
  else if incoming.opcode = STARTUPLOADREQ then leave (.upload incoming.payload)
  else if incoming.opcode = SIGNATURE then
    match on_signature secure_ident hello.user_hash loop.locals incoming.payload with
    | .error e => leave (.raised e)
    | .ok secure_ident => (secure_ident, loop)
  else
    match branch services incoming.surroundings hello.tags secure_ident loop.locals incoming.opcode
        incoming.payload with
    | .error e => leave (.raised e)
    | .ok (locals, sent) => (secure_ident, { loop with locals := locals, sent := loop.sent ++ sent })

end Loop

end amuled.peer.pre_engine
