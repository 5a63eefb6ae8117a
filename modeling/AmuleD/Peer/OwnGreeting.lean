import AmuleD.Duplex
import AmuleD.Peer.GreetingOrder
import AmuleD.Security.Identities

open littleendian
open amuled.security

namespace amuled.peer_handshake

open peer peer.pre_engine

/-- The `LocalIdentity` of a session, with the checks of its constructor. -/
structure LocalIdentity where
  user_hash : Bytes
  client_id : Nat
  tcp_port : Nat
  nickname : String
  length_user_hash : user_hash.length = 16
  client_id_range : client_id ≤ 0xFFFFFFFF
  tcp_port_range : tcp_port ≤ 0xFFFF
  nickname_ne : nickname ≠ ""

/-- What a listener brings to its sessions, and what they find outside. -/
structure Host where
  identity : LocalIdentity
  services : Services
  surroundings : Surroundings
  urandom : Bytes

/-- A session of a listener: it waits for its first packet, an exception has left it before its loop, or it is in its
loop with the HELLO of the peer. -/
inductive Reception (rsa : Rsa) where
  | waiting (secure_ident : Option (SecureIdentProvider rsa))
  | refused (e : Exc)
  | greeted (hello : Hello) (run : Option (SecureIdentProvider rsa) × Loop)

namespace Host

variable {rsa : Rsa} (host : Host)

/-- `StreamTransport.recv` takes packets of both protocols. -/
def accepts (packet : Packet) : Except Exc Unit :=
  if packet.protocol = EDONKEY ∨ packet.protocol = EMULE then .ok ()
  else .error (.ListenerError
    s!"protocol byte mismatch: expected 0xE3, got {hex_upper 2 packet.protocol.toNat}")

/-- `parse_hello` under the `except Exception` of `run`, which has but one exception to catch. -/
def parse_first (payload : Bytes) : Except Exc Hello :=
  match parse_hello payload with
  | .error (.PeerCodecError message) => .error (.ListenerError s!"malformed OP_HELLO: {message}")
  | result => result

/-- The HELLOANSWER of a listener. -/
def hello_answer : Except Exc Packet := do
  let answer ← build_hello_answer_payload host.identity.user_hash host.identity.client_id host.identity.tcp_port
    host.identity.nickname 0 0 DEFAULT_ED2K_VERSION
  send EDONKEY HELLOANSWER answer

/-- The first packet of a session: the HELLO of the peer, and what it is answered with. -/
def on_first (packet : Packet) : Except Exc (Hello × Packet) := do
  accepts packet
  if packet.opcode ≠ HELLO then
    .error (.ListenerError
      s!"expected OP_HELLO (0x01) as first packet, got opcode={hex_upper 2 packet.opcode.toNat}")
  else do
    let hello ← parse_first packet.payload
    let answer ← host.hello_answer
    .ok (hello, answer)

/-- A packet at the loop of `run`, with what is sent upon it. -/
def on_later (hello : Hello) (run : Option (SecureIdentProvider rsa) × Loop) (packet : Packet) :
    (Option (SecureIdentProvider rsa) × Loop) × List Packet :=
  match accepts packet with
  | .error e => ((run.1, { run.2 with position := .raised e }), [])
  | .ok () =>
    let after := receive host.services hello run ⟨packet.opcode, packet.payload, host.surroundings⟩
    (after, after.2.sent.drop run.2.sent.length)

/-- A packet that arrives at a session. -/
def hear (reception : Reception rsa) (packet : Packet) : Reception rsa × List Packet :=
  match reception with
  | .waiting secure_ident =>
    match host.on_first packet with
    | .error e => (.refused e, [])
    | .ok (hello, answer) =>
      let loop := Loop.enter secure_ident hello.tags host.urandom
      (.greeted hello (secure_ident, loop), answer :: loop.sent)
  | .refused e => (.refused e, [])
  | .greeted hello run =>
    let (after, sent) := host.on_later hello run packet
    (.greeted hello after, sent)

end Host

section Greeting

variable {rsa : Rsa} (me : Local rsa) (host : Host) (grace_over : Nat → Bool)

/-- What a client has sent in its handshake when it has received some packets. -/
def sent_upon (arrivals : List Arrival) : List Packet := (handshake me arrivals).2.sent

/-- A packet that arrives at a client: it is the next of its handshake. -/
def hear_answer (arrivals : List Arrival) (packet : Packet) : List Arrival × List Packet :=
  let later := arrivals ++ [⟨packet, grace_over arrivals.length⟩]
  (later, (sent_upon me later).drop (sent_upon me arrivals).length)

/-- The handshake of a client with a listener. `grace_over` tells for each packet whether the time for the signature
of the listener is over when the client has handled it. -/
def greeting : duplex.Link (List Arrival) (Reception rsa) Packet Packet :=
  ⟨hear_answer me grace_over, host.hear⟩

/-- A client has connected to a listener, and begins its handshake. -/
def connected (secure_ident : Option (SecureIdentProvider rsa)) :
    duplex.Config (List Arrival) (Reception rsa) Packet Packet :=
  ⟨[], .waiting secure_ident, [], sent_upon me []⟩

end Greeting

/-- The HELLO of an identity as it is parsed. -/
def LocalIdentity.hello (identity : LocalIdentity) : Hello :=
  ⟨identity.user_hash, identity.client_id, identity.tcp_port, identity.nickname, DEFAULT_ED2K_VERSION,
    (build_hello_tags identity.nickname DEFAULT_ED2K_VERSION).map read_back⟩

section Payloads

variable {identity : LocalIdentity} {payload : Bytes}

/-- A HELLO or a HELLOANSWER, which have the same layout, is parsed to its identity. -/
theorem parse_hello_of_identity {server_ip server_port : Int}
    (hwrite : write_hello_body identity.user_hash identity.client_id identity.tcp_port identity.nickname
      DEFAULT_ED2K_VERSION server_ip server_port [] = .ok payload) :
    parse_hello payload = .ok identity.hello := by
  have hnone : ∀ tag ∈ ([] : List Ed2kTag), PlainTag tag := fun _ hmem => absurd hmem List.not_mem_nil
  have hbody := parse_hello_body_of_write "OP_HELLO" hnone hwrite
  have hscan := scan_hello_tags_built identity.nickname DEFAULT_ED2K_VERSION
    fun tag (hmem : tag ∈ ([] : List Ed2kTag)) => absurd hmem List.not_mem_nil
  rw [List.append_nil] at hbody hscan
  simp only [parse_hello, parsed_body, hbody, ok_bind, hscan]
  rfl

theorem parse_hello_answer_of_identity
    (hbuilt : build_hello_answer_payload identity.user_hash identity.client_id identity.tcp_port identity.nickname 0 0
      DEFAULT_ED2K_VERSION = .ok payload) : parse_hello payload = .ok identity.hello := by
  simp only [build_hello_answer_payload, bind_eq_ok_iff] at hbuilt
  obtain ⟨_, _, _, _, _, _, hwrite⟩ := hbuilt
  exact parse_hello_of_identity hwrite

/-- Every HELLO of ours announces secure identification, and asks for no buddy. -/
theorem hello_tags (identity : LocalIdentity) :
    identity.hello.tags ≠ [] ∧ miso1_secident_support identity.hello.tags = cap_secident ∧
      is_buddy identity.hello.tags = false := by
  refine ⟨List.cons_ne_nil _ _, ?_, ?_⟩
  · rfl
  · rfl

/-- The information packet is of the own version, and its fourth byte is the count of its tags. -/
theorem emuleinfo_fields (hbuilt : build_emuleinfo_payload DEFAULT_ED2K_VERSION = .ok payload) :
    payload.length < MAX_PACKET_SIZE ∧ payload.head?.map UInt8.toNat = some DEFAULT_ED2K_VERSION ∧
      compression_of payload = .ok false := by
  have hpayload : build_emuleinfo_payload DEFAULT_ED2K_VERSION =
      .ok [0x3C, EMULE, 7, 0, 0, 0, 0x89, 0x20, 1, 0x89, 0x22, 0, 0x89, 0x21, 0, 0x89, 0x23, 4, 0x89, 0x24, 0,
        0x89, 0x25, 0, 0x89, 0x27, 3] := by decide +kernel
  rw [hpayload] at hbuilt
  cases hbuilt
  refine ⟨by decide, rfl, rfl⟩

end Payloads

/-- Keys whose own signatures are accepted, of the lengths of RSA. -/
structure Genuine {rsa : Rsa} (keys : KeyPair rsa) : Prop where
  long_blob : 10 ≤ keys.public_blob.length
  long_signature : ∀ challenge, 10 ≤ (rsa.sign keys.key (build_challenge_data keys.public_blob challenge 0 [])).length
  accepted : ∃ pub, rsa.import_key keys.public_blob = some pub ∧
    ∀ data, rsa.verify pub data (rsa.sign keys.key data) = true

section Identification

variable {rsa : Rsa} {keys : KeyPair rsa} {challenge : Nat}

/-- The challenge as it is read. -/
def drawn (challenge : Nat) : Nat := challenge % 2 ^ 32

def publickey_packet (keys : KeyPair rsa) : Packet :=
  ⟨EMULE, PUBLICKEY, UInt8.ofNat keys.public_blob.length :: keys.public_blob⟩

def own_signature (keys : KeyPair rsa) (challenge : Nat) : Bytes :=
  rsa.sign keys.key (build_challenge_data keys.public_blob (drawn challenge) 0 [])

def signature_packet (keys : KeyPair rsa) (challenge : Nat) : Packet :=
  ⟨EMULE, SIGNATURE, UInt8.ofNat (own_signature keys challenge).length :: own_signature keys challenge⟩

theorem parse_secident_state_built (state challenge : Nat) :
    ∃ read, parse_secident_state_payload (build_secident_state_payload state challenge) =
      .ok (read, drawn challenge) := by
  have hlength : (build_secident_state_payload state challenge).length = 5 := by
    rw [build_secident_state_payload, List.length_cons, length_encode]
  have hfits : challenge % 2 ^ 32 < 256 ^ 4 := Nat.mod_lt _ (by decide)
  rw [parse_secident_state_payload, if_neg (not_not.mpr hlength), build_secident_state_payload, List.drop_one,
    List.tail_cons, decode_encode hfits]
  exact ⟨_, rfl⟩

theorem length_blob_le (keys : KeyPair rsa) : keys.public_blob.length ≤ 80 := keys.length_public_blob

theorem length_own_signature (hgenuine : Genuine keys) (challenge : Nat) :
    10 ≤ (own_signature keys challenge).length ∧ (own_signature keys challenge).length ≤ 80 :=
  ⟨hgenuine.long_signature _, (keys.length_sign _).trans (length_blob_le keys)⟩

/-- A challenge is answered with the key and the signature. -/
theorem on_secident_state_own (hgenuine : Genuine keys) (provider : SecureIdentProvider rsa)
    (hkeys : provider._key = some keys) (locals : Locals) (state challenge : Nat) :
    peer.pre_engine.on_secident_state (some provider) locals (build_secident_state_payload state challenge) =
      .ok ({ locals with challenge_in := some (drawn challenge) },
        [publickey_packet keys, signature_packet keys challenge]) := by
  obtain ⟨read, hparse⟩ := parse_secident_state_built state challenge
  have hlong := hgenuine.long_blob
  have hblob := length_blob_le keys
  obtain ⟨hsignature, hshort⟩ := length_own_signature hgenuine challenge
  have hmost : MAX_PACKET_SIZE - 1 = 16 * 1024 * 1024 - 1 := rfl
  have hpublic : provider.public_blob = .ok keys.public_blob := by
    rw [SecureIdentProvider.public_blob, SecureIdentProvider.keys, hkeys, ok_bind]
  have hsigned : provider.create_signature (drawn challenge) 0 [] = .ok (own_signature keys challenge) := by
    rw [SecureIdentProvider.create_signature, SecureIdentProvider.keys, hkeys, ok_bind]
    rfl
  have hkey : build_publickey_payload keys.public_blob =
      .ok (UInt8.ofNat keys.public_blob.length :: keys.public_blob) := if_pos ⟨by omega, by omega⟩
  have hbuilt : build_signature_payload (own_signature keys challenge) 0 =
      .ok (UInt8.ofNat (own_signature keys challenge).length :: own_signature keys challenge) := by
    rw [build_signature_payload, if_pos ⟨by omega, by omega⟩, if_pos rfl, List.append_nil]
  have hsend : ∀ opcode payload, payload.length ≤ 81 → send EMULE opcode payload = .ok ⟨EMULE, opcode, payload⟩ :=
    fun opcode payload hfits => if_neg (by omega)
  rw [peer.pre_engine.on_secident_state, hparse, ok_bind]
  simp only [pre_engine.present, ok_bind, hpublic, hkey, hsigned, hbuilt]
  rw [hsend _ _ (by rw [List.length_cons]; omega), ok_bind, hsend _ _ (by rw [List.length_cons]; omega), ok_bind]
  rfl

theorem parse_publickey_own (hgenuine : Genuine keys) :
    parse_publickey_payload (publickey_packet keys).payload = .ok keys.public_blob := by
  have hlong := hgenuine.long_blob
  have hblob := length_blob_le keys
  have hbyte : (UInt8.ofNat keys.public_blob.length).toNat = keys.public_blob.length := by
    rw [UInt8.toNat_ofNat']
    omega
  rw [publickey_packet, parse_publickey_payload, if_neg (by rw [List.length_cons]; omega)]
  simp only [List.getD_cons_zero, hbyte, List.length_cons, Nat.add_sub_cancel, ne_eq, not_true_eq_false, if_false,
    List.drop_one, List.tail_cons]

theorem parse_signature_own (hgenuine : Genuine keys) (challenge : Nat) :
    parse_signature_payload (signature_packet keys challenge).payload = .ok (own_signature keys challenge, 0) := by
  obtain ⟨hlong, hshort⟩ := length_own_signature hgenuine challenge
  have hbyte : (UInt8.ofNat (own_signature keys challenge).length).toNat = (own_signature keys challenge).length := by
    rw [UInt8.toNat_ofNat']
    omega
  rw [signature_packet, parse_signature_payload, if_neg (by rw [List.length_cons]; omega)]
  simp only [List.getD_cons_zero, hbyte, List.length_cons, Nat.add_sub_cancel, ne_eq, not_true_eq_false, false_and,
    if_false]
  congr 2
  · rw [Nat.add_comm, List.extract_eq_take_drop]
    simp
  · rw [List.getD_eq_default]
    · rfl
    · rw [List.length_cons]
      omega

/-- The signature of a challenge is accepted where the key came before it. -/
theorem verifies_own (hgenuine : Genuine keys) (challenge_in peer_sx1 : Option Nat) (challenge : Nat) :
    verifies rsa ⟨some challenge, challenge_in, keys.public_blob, peer_sx1⟩ (own_signature keys challenge) = true := by
  have hlong := hgenuine.long_blob
  have hblob := keys.length_public_blob
  have hne : keys.public_blob ≠ [] := by
    rintro hnil
    rw [hnil, List.length_nil] at hlong
    omega
  obtain ⟨pub, himport, hverify⟩ := hgenuine.accepted
  have hdata : build_challenge_data keys.public_blob challenge 0 [] =
      build_challenge_data keys.public_blob (drawn challenge) 0 [] := by
    rw [build_challenge_data, build_challenge_data, drawn, Nat.mod_mod]
  simp only [verifies, verify_signature, verify_data, if_pos (And.intro hlong hblob), himport, hdata, own_signature,
    hverify, hne, ne_eq, not_false_eq_true, decide_true, Bool.and_true]

end Identification

/-- What a client learns of a listener of ours: its identity and the version of its software. -/
def LocalIdentity.peer_info (identity : LocalIdentity) : PeerInfo :=
  { PeerInfo.of_hello identity.hello with emule_version := some DEFAULT_ED2K_VERSION, compression := false }

/-- A user hash is marked as one that has identified itself. -/
def Verified {rsa : Rsa} (secure_ident : Option (SecureIdentProvider rsa)) (user_hash : Bytes) : Prop :=
  ∃ provider, secure_ident = some provider ∧ (provider.evaluate (hex_lower user_hash)).verified = true

section Marks

variable {rsa : Rsa}

theorem toLower_toUpper_hex_lower (raw : Bytes) : (hex_lower raw).toUpper.toLower = hex_lower raw := by
  have hdigit : ∀ n < 16, (Nat.digitChar n).toUpper.toLower = Nat.digitChar n := by decide
  have hchars : ∀ c ∈ (hex_lower raw).toList, c.toUpper.toLower = c := by
    intro c hc
    rw [hex_lower, String.toList_ofList, List.mem_flatMap] at hc
    obtain ⟨byte, -, hc⟩ := hc
    have hbyte := byte.toNat_lt
    rcases List.mem_cons.mp hc with rfl | hc
    · exact hdigit _ (by omega)
    · obtain rfl := List.mem_singleton.mp hc
      exact hdigit _ (by omega)
  apply String.toList_inj.mp
  change (((hex_lower raw).map Char.toUpper).map Char.toLower).toList = _
  rw [String.toList_map, String.toList_map, List.map_map]
  exact (List.map_congr_left hchars).trans (List.map_id' _)

theorem verified_mark (provider : SecureIdentProvider rsa) (marked user_hash : Bytes) :
    Verified (some (provider.mark_verified (hex_lower marked))) user_hash ↔
      Verified (some provider) user_hash ∨ user_hash = marked := by
  have hone : ∀ other : SecureIdentProvider rsa,
      Verified (some other) user_hash ↔ (other.evaluate (hex_lower user_hash)).verified = true := by
    intro other
    rw [Verified]
    simp only [Option.some.injEq, exists_eq_left']
  rw [hone, hone, SecureIdentProvider.verified_mark_verified_iff, strip_lower_hex_lower, strip_lower_hex_lower,
    hex_lower_injective.eq_iff, or_comm]

end Marks

section Client

variable {rsa : Rsa} (me : Local rsa) (exchange : Exchange rsa) {identity : LocalIdentity} {payload : Bytes}

theorem on_packet_answer (hparse : parse_hello payload = .ok identity.hello) :
    exchange.on_packet me ⟨EDONKEY, HELLOANSWER, payload⟩ = .ok { exchange with
      peer_tags := identity.hello.tags
      peer := some (.of_hello identity.hello)
      hello_seen := true } := by
  rw [on_packet_edonkey, if_pos rfl, Exchange.on_hello, hparse, ok_bind, if_neg Bool.false_ne_true, List.append_nil]

theorem on_packet_challenge {keys : KeyPair rsa} (hgenuine : Genuine keys) {provider : SecureIdentProvider rsa}
    (hprovider : exchange.secure_ident = some provider) (hkeys : provider._key = some keys) (challenge : Nat) :
    exchange.on_packet me ⟨EMULE, SECIDENTSTATE, build_secident_state_payload 2 challenge⟩ = .ok { exchange with
      _sui := { exchange._sui with challenge_in := some (drawn challenge) }
      sent := exchange.sent ++ [publickey_packet keys, signature_packet keys challenge] } := by
  have hable : has_keys exchange.secure_ident = true := by
    rw [hprovider, has_keys, SecureIdentProvider.has_keys, hkeys, Option.isSome_some]
  rw [on_packet_emule, if_neg (by decide), if_neg (by decide), if_pos rfl, Exchange.on_secident_state, if_pos hable,
    hprovider, on_secident_state_own hgenuine provider hkeys, ok_bind]

theorem on_packet_challenge_unable (hable : has_keys exchange.secure_ident = false) (challenge : Nat) :
    exchange.on_packet me ⟨EMULE, SECIDENTSTATE, build_secident_state_payload 2 challenge⟩ = .ok { exchange with
      _sui := { exchange._sui with challenge_in := some (drawn challenge) } } := by
  obtain ⟨read, hparse⟩ := parse_secident_state_built 2 challenge
  rw [on_packet_emule, if_neg (by decide), if_neg (by decide), if_pos rfl, Exchange.on_secident_state,
    if_neg (Bool.eq_false_iff.mp hable), hparse, ok_bind]

theorem on_packet_info (hbuilt : build_emuleinfo_payload DEFAULT_ED2K_VERSION = .ok payload) :
    exchange.on_packet me ⟨EMULE, EMULEINFOANSWER, payload⟩ = .ok (Exchange._maybe_challenge_sui me { exchange with
      info_seen := true
      peer := exchange.peer.map fun peer =>
        { peer with emule_version := some DEFAULT_ED2K_VERSION, compression := false } }) := by
  obtain ⟨-, hversion, hcompression⟩ := emuleinfo_fields hbuilt
  rw [on_packet_emule, if_pos rfl, Exchange.on_emuleinfo_answer, hcompression, ok_bind, hversion]

theorem on_packet_key {keys : KeyPair rsa} (hgenuine : Genuine keys) :
    exchange.on_packet me (publickey_packet keys) = .ok { exchange with
      _sui := { exchange._sui with peer_blob := keys.public_blob } } := by
  have hparse := parse_publickey_own hgenuine
  rw [publickey_packet] at hparse ⊢
  rw [on_packet_emule, if_neg (by decide), if_neg (by decide), if_neg (by decide), if_pos rfl, Exchange.on_publickey,
    hparse, ok_bind]

/-- The signature of a listener whose key came before it marks its hash. -/
theorem on_packet_signature {keys : KeyPair rsa} (hgenuine : Genuine keys) {provider : SecureIdentProvider rsa}
    (hprovider : exchange.secure_ident = some provider) {peer : PeerInfo} (hpeer : exchange.peer = some peer)
    {challenge : Nat} (hchallenge : exchange._sui.challenge_out = some challenge)
    (hblob : exchange._sui.peer_blob = keys.public_blob) :
    exchange.on_packet me (signature_packet keys challenge) = .ok { exchange with
      secure_ident := some (provider.mark_verified peer.user_hash.toLower)
      sui_deadline := false } := by
  have hparse := parse_signature_own hgenuine challenge
  rw [signature_packet] at hparse ⊢
  obtain ⟨known, ⟨challenge_out, challenge_in, peer_blob, peer_sx1⟩, secure_ident, statuses, sent⟩ := exchange
  obtain rfl : secure_ident = some provider := hprovider
  obtain rfl : challenge_out = some challenge := hchallenge
  obtain rfl : peer_blob = keys.public_blob := hblob
  have hknown : known.peer = some peer := hpeer
  rw [on_packet_emule, if_neg (by decide), if_neg (by decide), if_neg (by decide), if_neg (by decide), if_pos rfl,
    Exchange.on_signature, hparse, ok_bind]
  simp only [hknown, verifies_own hgenuine, if_true, Option.map_some]

theorem receive_waits {packet : Packet} {grace_over : Bool} {next : Exchange rsa} (rest : List Arrival)
    (hpacket : exchange.on_packet me packet = .ok next)
    (hwaits : (next.hello_seen && next.info_seen && (!next.sui_deadline || grace_over)) = false) :
    exchange.receive me (⟨packet, grace_over⟩ :: rest) = next.receive me rest := by
  rw [Exchange.receive, hpacket]
  exact if_neg (Bool.eq_false_iff.mp hwaits)

theorem receive_ends {packet : Packet} {grace_over : Bool} {next : Exchange rsa} (rest : List Arrival)
    (hpacket : exchange.on_packet me packet = .ok next)
    (hends : (next.hello_seen && next.info_seen && (!next.sui_deadline || grace_over)) = true) :
    exchange.receive me (⟨packet, grace_over⟩ :: rest) = next.finish := by
  rw [Exchange.receive, hpacket]
  exact if_pos hends

end Client

section Listener

variable {rsa : Rsa} {host : Host} {client : LocalIdentity} {secure_ident : Option (SecureIdentProvider rsa)}
  {provider : SecureIdentProvider rsa} {keys : KeyPair rsa} {loop : Loop} {answer : Packet} {payload : Bytes}

theorem accepts_edonkey (opcode : UInt8) (payload : Bytes) : Host.accepts ⟨EDONKEY, opcode, payload⟩ = .ok () :=
  if_pos (.inl rfl)

theorem accepts_emule (opcode : UInt8) (payload : Bytes) : Host.accepts ⟨EMULE, opcode, payload⟩ = .ok () :=
  if_pos (.inr rfl)

theorem hear_first (hparse : parse_hello payload = .ok client.hello) (hanswer : host.hello_answer = .ok answer) :
    host.hear (.waiting secure_ident) ⟨EDONKEY, HELLO, payload⟩ =
      (.greeted client.hello (secure_ident, Loop.enter secure_ident client.hello.tags host.urandom),
        answer :: (Loop.enter secure_ident client.hello.tags host.urandom).sent) := by
  have hfirst : host.on_first ⟨EDONKEY, HELLO, payload⟩ = .ok (client.hello, answer) := by
    rw [Host.on_first, accepts_edonkey, ok_bind, if_neg (not_not.mpr rfl), Host.parse_first]
    simp only [hparse, ok_bind, hanswer]
  rw [Host.hear]
  simp only [hfirst]

/-- A packet of a branch that leaves the provider alone. -/
theorem hear_branch {opcode : UInt8} (hlooping : loop.position = .looping) (hupload : opcode ≠ STARTUPLOADREQ)
    (hsignature : opcode ≠ SIGNATURE) {locals : Locals} {sent : List Packet}
    (hbranch : branch host.services host.surroundings client.hello.tags secure_ident loop.locals opcode payload =
      .ok (locals, sent)) :
    host.hear (.greeted client.hello (secure_ident, loop)) ⟨EMULE, opcode, payload⟩ =
      (.greeted client.hello (secure_ident, { loop with locals := locals, sent := loop.sent ++ sent }), sent) := by
  have hreceive : receive host.services client.hello (secure_ident, loop) ⟨opcode, payload, host.surroundings⟩ =
      (secure_ident, { loop with locals := locals, sent := loop.sent ++ sent }) := by
    simp only [receive, hlooping, ne_eq, not_true_eq_false, if_false, if_neg hupload, if_neg hsignature, hbranch]
  rw [Host.hear, Host.on_later, accepts_emule]
  simp only [hreceive, List.drop_left]

theorem hear_info (hlooping : loop.position = .looping)
    (hbuilt : build_emuleinfo_payload DEFAULT_ED2K_VERSION = .ok payload) (asked : Bytes) :
    host.hear (.greeted client.hello (secure_ident, loop)) ⟨EMULE, EMULEINFO, asked⟩ =
      (.greeted client.hello (secure_ident, { loop with sent := loop.sent ++ [⟨EMULE, EMULEINFOANSWER, payload⟩] }),
        [⟨EMULE, EMULEINFOANSWER, payload⟩]) := by
  obtain ⟨hshort, -, -⟩ := emuleinfo_fields hbuilt
  have hsend : send EMULE EMULEINFOANSWER payload = .ok ⟨EMULE, EMULEINFOANSWER, payload⟩ := if_neg (by omega)
  have hbranch : branch host.services host.surroundings client.hello.tags secure_ident loop.locals EMULEINFO asked =
      .ok (loop.locals, [⟨EMULE, EMULEINFOANSWER, payload⟩]) := by
    rw [branch, if_neg (by decide), if_neg (by decide), if_neg (by decide), if_neg (by decide), if_neg (by decide),
      if_neg (by decide), if_neg (by decide), if_pos rfl, on_emuleinfo, hbuilt, ok_bind, hsend, ok_bind]
  exact hear_branch hlooping (by decide) (by decide) hbranch

theorem hear_key (hlooping : loop.position = .looping) (hgenuine : Genuine keys) :
    host.hear (.greeted client.hello (secure_ident, loop)) (publickey_packet keys) =
      (.greeted client.hello (secure_ident,
        { loop with locals := { loop.locals with peer_blob := keys.public_blob } }), []) := by
  have hbranch : branch host.services host.surroundings client.hello.tags secure_ident loop.locals PUBLICKEY
      (publickey_packet keys).payload = .ok ({ loop.locals with peer_blob := keys.public_blob }, []) := by
    rw [branch, if_neg (by decide), if_pos rfl, on_publickey, parse_publickey_own hgenuine, ok_bind]
  have hheard := hear_branch hlooping (by decide) (by decide) hbranch
  rwa [List.append_nil] at hheard

theorem hear_challenge (hlooping : loop.position = .looping) (hgenuine : Genuine keys)
    (hkeys : provider._key = some keys) (challenge : Nat) :
    host.hear (.greeted client.hello (some provider, loop))
        ⟨EMULE, SECIDENTSTATE, build_secident_state_payload 2 challenge⟩ =
      (.greeted client.hello (some provider, { loop with
        locals := { loop.locals with challenge_in := some (drawn challenge) }
        sent := loop.sent ++ [publickey_packet keys, signature_packet keys challenge] }),
        [publickey_packet keys, signature_packet keys challenge]) := by
  have hbranch : branch host.services host.surroundings client.hello.tags (some provider) loop.locals SECIDENTSTATE
      (build_secident_state_payload 2 challenge) = .ok ({ loop.locals with challenge_in := some (drawn challenge) },
        [publickey_packet keys, signature_packet keys challenge]) := by
    rw [branch, if_pos rfl, on_secident_state_own hgenuine provider hkeys]
  exact hear_branch hlooping (by decide) (by decide) hbranch

theorem hear_signature (hlooping : loop.position = .looping) (hgenuine : Genuine keys) {challenge : Nat}
    (hchallenge : loop.locals.challenge_out = some challenge) (hblob : loop.locals.peer_blob = keys.public_blob) :
    host.hear (.greeted client.hello (some provider, loop)) (signature_packet keys challenge) =
      (.greeted client.hello (some (provider.mark_verified (hex_lower client.user_hash)), loop), []) := by
  obtain ⟨position, ⟨challenge_out, challenge_in, peer_blob, peer_sx1⟩, sent⟩ := loop
  obtain rfl : position = .looping := hlooping
  obtain rfl : challenge_out = some challenge := hchallenge
  obtain rfl : peer_blob = keys.public_blob := hblob
  have hsignature : on_signature (some provider) client.hello.user_hash
      ⟨some challenge, challenge_in, keys.public_blob, peer_sx1⟩ (signature_packet keys challenge).payload =
        .ok (some (provider.mark_verified (hex_lower client.user_hash))) := by
    rw [on_signature, parse_signature_own hgenuine, ok_bind]
    simp only [verifies_own hgenuine, if_true]
    rfl
  rw [signature_packet] at hsignature ⊢
  rw [Host.hear, Host.on_later, accepts_emule]
  simp only [receive, ne_eq, not_true_eq_false, if_false, if_neg (show SIGNATURE ≠ STARTUPLOADREQ by decide), if_true,
    hsignature, List.drop_length]

end Listener

/-- After some arrivals the handshake of a client goes on with an exchange. -/
def Heard {rsa : Rsa} (me : Local rsa) (arrivals : List Arrival) (exchange : Exchange rsa) : Prop :=
  ∀ rest, handshake me (arrivals ++ rest) = exchange.receive me rest

/-- After some arrivals the handshake of a client is over, whatever else arrives. -/
def Returned {rsa : Rsa} (me : Local rsa) (arrivals : List Arrival) (ending : Ending rsa) : Prop :=
  ∀ rest, handshake me (arrivals ++ rest) = ending

section Course

variable {rsa : Rsa} {me : Local rsa} {arrivals : List Arrival} {exchange next : Exchange rsa} {ending : Ending rsa}
  {packet : Packet} {grace_over : Bool}

theorem heard_nil (me : Local rsa) : Heard me [] (Exchange.init me) := fun _ => rfl

theorem Heard.sent_upon (h : Heard me arrivals exchange) : sent_upon me arrivals = exchange.sent := by
  have hnow := h []
  rw [List.append_nil] at hnow
  rw [peer_handshake.sent_upon, hnow]
  rfl

theorem Heard.waits (h : Heard me arrivals exchange) (hpacket : exchange.on_packet me packet = .ok next)
    (hwaits : (next.hello_seen && next.info_seen && (!next.sui_deadline || grace_over)) = false) :
    Heard me (arrivals ++ [⟨packet, grace_over⟩]) next := by
  intro rest
  rw [List.append_assoc, h, List.singleton_append, receive_waits me exchange rest hpacket hwaits]

theorem Heard.ends (h : Heard me arrivals exchange) (hpacket : exchange.on_packet me packet = .ok next)
    (hends : (next.hello_seen && next.info_seen && (!next.sui_deadline || grace_over)) = true) :
    Returned me (arrivals ++ [⟨packet, grace_over⟩]) next.finish := by
  intro rest
  rw [List.append_assoc, h, List.singleton_append, receive_ends me exchange rest hpacket hends]

theorem Returned.later (h : Returned me arrivals ending) (more : List Arrival) :
    Returned me (arrivals ++ more) ending := by
  intro rest
  rw [List.append_assoc, h]

theorem Returned.sent_upon (h : Returned me arrivals ending) : sent_upon me arrivals = ending.2.sent := by
  have hnow := h []
  rw [List.append_nil] at hnow
  rw [peer_handshake.sent_upon, hnow]

/-- The packets that a client has received as its arrivals. -/
def arrived (late : Nat → Bool) (packets : List Packet) : List Arrival :=
  packets.zipIdx.map fun packet => ⟨packet.1, late packet.2⟩

theorem arrived_concat (late : Nat → Bool) (packets : List Packet) (packet : Packet) :
    arrived late (packets ++ [packet]) = arrived late packets ++ [⟨packet, late (arrived late packets).length⟩] := by
  simp [arrived, List.zipIdx_append]

/-- A client that hears one packet more. -/
theorem hear_answer_arrived {late : Nat → Bool} {packets : List Packet} {before sent : List Packet}
    (hbefore : peer_handshake.sent_upon me (arrived late packets) = before)
    (hafter : peer_handshake.sent_upon me (arrived late (packets ++ [packet])) = before ++ sent) :
    hear_answer me late (arrived late packets) packet = (arrived late (packets ++ [packet]), sent) := by
  rw [hear_answer, ← arrived_concat]
  simp only [hafter, hbefore, List.drop_left]

end Course

section Challenges

variable {rsa : Rsa} (me : Local rsa) (exchange : Exchange rsa) {info : Bytes}

/-- The information of the peer is answered with a challenge where both announce identification. -/
theorem maybe_challenge_able (hchallenged : exchange.sui_challenged = false)
    (hable : has_keys exchange.secure_ident = true) {identity : LocalIdentity}
    (htags : exchange.peer_tags = identity.hello.tags) :
    exchange._maybe_challenge_sui me = { exchange with
      sui_challenged := true
      sui_deadline := true
      _sui := { exchange._sui with challenge_out := some me.challenge }
      sent := exchange.sent ++ [⟨EMULE, SECIDENTSTATE, build_secident_state_payload 2 me.challenge⟩] } := by
  obtain ⟨hne, hsupport, -⟩ := hello_tags identity
  have hmay : exchange.may_challenge = true := by
    rw [Exchange.may_challenge, hchallenged, hable, htags, hsupport]
    simp [hne, cap_secident]
  rw [Exchange._maybe_challenge_sui, if_pos hmay]

theorem maybe_challenge_unable (hable : has_keys exchange.secure_ident = false) :
    exchange._maybe_challenge_sui me = exchange := by
  have hmay : exchange.may_challenge = false := by
    rw [Exchange.may_challenge, hable, Bool.and_false, Bool.false_and, Bool.false_and]
  rw [Exchange._maybe_challenge_sui, if_neg (Bool.eq_false_iff.mp hmay)]

/-- With its information the handshake has what it waits for, and it waits for the signature where it has challenged. -/
theorem on_packet_info_able (hbuilt : build_emuleinfo_payload DEFAULT_ED2K_VERSION = .ok info)
    (hchallenged : exchange.sui_challenged = false) (hable : has_keys exchange.secure_ident = true)
    (identity : LocalIdentity) (htags : exchange.peer_tags = identity.hello.tags) :
    exchange.on_packet me ⟨EMULE, EMULEINFOANSWER, info⟩ = .ok { exchange with
      info_seen := true
      peer := exchange.peer.map fun peer =>
        { peer with emule_version := some DEFAULT_ED2K_VERSION, compression := false }
      sui_challenged := true
      sui_deadline := true
      _sui := { exchange._sui with challenge_out := some me.challenge }
      sent := exchange.sent ++ [⟨EMULE, SECIDENTSTATE, build_secident_state_payload 2 me.challenge⟩] } := by
  rw [on_packet_info me exchange hbuilt]
  exact congrArg Except.ok (maybe_challenge_able me { exchange with
    info_seen := true
    peer := exchange.peer.map fun peer =>
      { peer with emule_version := some DEFAULT_ED2K_VERSION, compression := false } } hchallenged hable htags)

theorem on_packet_info_unable (hbuilt : build_emuleinfo_payload DEFAULT_ED2K_VERSION = .ok info)
    (hable : has_keys exchange.secure_ident = false) :
    exchange.on_packet me ⟨EMULE, EMULEINFOANSWER, info⟩ = .ok { exchange with
      info_seen := true
      peer := exchange.peer.map fun peer =>
        { peer with emule_version := some DEFAULT_ED2K_VERSION, compression := false } } := by
  rw [on_packet_info me exchange hbuilt]
  exact congrArg Except.ok (maybe_challenge_unable me _ hable)

end Challenges

/-- What a client and a listener have built before they meet. -/
structure Prepared {rsa : Rsa} (me : Local rsa) (client : LocalIdentity) (host : Host) (answer : Packet) : Prop where
  hello : build_hello_payload client.user_hash client.client_id client.tcp_port client.nickname DEFAULT_ED2K_VERSION
    [] = .ok me.hello
  emuleinfo : build_emuleinfo_payload DEFAULT_ED2K_VERSION = .ok me.emuleinfo
  answer : host.hello_answer = .ok answer

/-- A client and a listener have greeted: the handshake has returned what the listener is, the listener knows the client
and goes on, and where both have keys each has marked the other, the client only if it has waited for the signature. -/
structure Greeted {rsa : Rsa} (me : Local rsa) (client : LocalIdentity) (host : Host)
    (secure_ident : Option (SecureIdentProvider rsa)) (grace_over : Nat → Bool)
    (last : duplex.Config (List Arrival) (Reception rsa) Packet Packet) : Prop where
  returned : ∃ exchange,
    Returned me last.left (.ok (host.identity.peer_info, host.identity.hello.tags), exchange) ∧
      ∀ user_hash, Verified exchange.secure_ident user_hash ↔ Verified me.secure_ident user_hash ∨
        (has_keys me.secure_ident = true ∧ grace_over 2 = false ∧ grace_over 3 = false) ∧
          user_hash = host.identity.user_hash
  received : ∃ after loop, last.right = .greeted client.hello (after, loop) ∧ loop.position = .looping ∧
    ∀ user_hash, Verified after user_hash ↔ Verified secure_ident user_hash ∨
      has_keys me.secure_ident = true ∧ user_hash = client.user_hash

section Meeting

variable {rsa : Rsa} {me : Local rsa} {client : LocalIdentity} {host : Host} {answer : Packet}
  {provider other : SecureIdentProvider rsa} {keys others : KeyPair rsa} {late : Nat → Bool} {payload info : Bytes}

/-- The challenge of a listener. -/
def Host.challenge (host : Host) : Nat := if decode host.urandom = 0 then 1 else decode host.urandom

theorem parse_answer (hanswer : host.hello_answer = .ok answer) :
    ∃ payload, answer = ⟨EDONKEY, HELLOANSWER, payload⟩ ∧ parse_hello payload = .ok host.identity.hello := by
  obtain ⟨payload, hbuilt, hsend⟩ := bind_eq_ok_iff.mp hanswer
  rw [send] at hsend
  split at hsend
  · cases hsend
  · cases hsend
    exact ⟨payload, rfl, parse_hello_answer_of_identity hbuilt⟩

theorem enter_able (hothers : other._key = some others) :
    Loop.enter (some other) client.hello.tags host.urandom =
      ⟨.looping, ⟨some host.challenge, none, [], none⟩,
        [⟨EMULE, SECIDENTSTATE, build_secident_state_payload 2 host.challenge⟩]⟩ := by
  obtain ⟨-, hsupport, hbuddy⟩ := hello_tags client
  have hable : other.has_keys = true := by rw [SecureIdentProvider.has_keys, hothers, Option.isSome_some]
  have hchallenge : challenge_to (some other) client.hello.tags host.urandom = some host.challenge := by
    have hboth : other.has_keys = true ∧ miso1_secident_support client.hello.tags ≠ 0 := by
      rw [hsupport]
      exact ⟨hable, by decide⟩
    exact if_pos hboth
  rw [Loop.enter, hchallenge, hbuddy]
  rfl

theorem enter_unable {secure_ident : Option (SecureIdentProvider rsa)} (hunable : has_keys secure_ident = false) :
    Loop.enter secure_ident client.hello.tags host.urandom = ⟨.looping, ⟨none, none, [], none⟩, []⟩ := by
  obtain ⟨-, -, hbuddy⟩ := hello_tags client
  have hchallenge : challenge_to secure_ident client.hello.tags host.urandom = none := by
    cases secure_ident with
    | none => rfl
    | some provider =>
      rw [has_keys] at hunable
      exact if_neg fun hboth => absurd hboth.1 (by rw [hunable]; decide)
  rw [Loop.enter, hchallenge, hbuddy]
  rfl

/-- The first packets of a client, whatever it receives. -/
def opening (me : Local rsa) : List Packet := [⟨EDONKEY, HELLO, me.hello⟩, ⟨EMULE, EMULEINFO, me.emuleinfo⟩]

/-- A client that has the HELLOANSWER. -/
theorem heard_answer (hparse : parse_hello payload = .ok host.identity.hello) (late : Bool) :
    Heard me [⟨⟨EDONKEY, HELLOANSWER, payload⟩, late⟩] { Exchange.init me with
      peer_tags := host.identity.hello.tags
      peer := some (.of_hello host.identity.hello)
      hello_seen := true } :=
  (heard_nil me).waits (on_packet_answer me _ hparse) rfl

/-- What a client with keys receives from a listener with keys. -/
def identification (payload info : Bytes) (others : KeyPair rsa) (theirs mine : Nat) : List Packet :=
  [⟨EDONKEY, HELLOANSWER, payload⟩, ⟨EMULE, SECIDENTSTATE, build_secident_state_payload 2 theirs⟩,
    ⟨EMULE, EMULEINFOANSWER, info⟩, publickey_packet others, signature_packet others mine]

variable (late) in
/-- A client that has keys answers the challenge of the listener, and challenges it in turn. -/
theorem client_identified (hparse : parse_hello payload = .ok host.identity.hello)
    (hbuilt : build_emuleinfo_payload DEFAULT_ED2K_VERSION = .ok info) (hsecure : me.secure_ident = some provider)
    (hkeys : provider._key = some keys) (hgenuine : Genuine keys) (hothers : Genuine others) (theirs : Nat) :
    let packets := identification payload info others theirs me.challenge
    let proof := [publickey_packet keys, signature_packet keys theirs]
    let challenge : Packet := ⟨EMULE, SECIDENTSTATE, build_secident_state_payload 2 me.challenge⟩
    (∃ exchange,
      Returned me (arrived late packets) (.ok (host.identity.peer_info, host.identity.hello.tags), exchange) ∧
        ∀ user_hash, Verified exchange.secure_ident user_hash ↔ Verified me.secure_ident user_hash ∨
          (late 2 = false ∧ late 3 = false) ∧ user_hash = host.identity.user_hash) ∧
      sent_upon me (arrived late (packets.take 1)) = opening me ∧
      sent_upon me (arrived late (packets.take 2)) = opening me ++ proof ∧
      ∀ count ∈ [3, 4, 5], sent_upon me (arrived late (packets.take count)) = opening me ++ proof ++ [challenge] := by
  intro packets proof challenge
  have hable : has_keys me.secure_ident = true := by
    rw [hsecure, has_keys, SecureIdentProvider.has_keys, hkeys, Option.isSome_some]
  have h1 : Heard me (arrived late (packets.take 1)) _ := heard_answer hparse (late 0)
  have h2 : Heard me (arrived late (packets.take 2)) _ :=
    h1.waits (on_packet_challenge me _ hgenuine hsecure hkeys theirs) rfl
  simp only [List.forall_mem_cons]
  cases hlate2 : late 2 with
  | true =>
    have h3 : Returned me (arrived late (packets.take 3)) _ :=
      h2.ends (on_packet_info_able me _ hbuilt rfl hable host.identity rfl) hlate2
    have h4 : Returned me (arrived late (packets.take 4)) _ := h3.later [_]
    have h5 : Returned me (arrived late (packets.take 5)) _ := h3.later [_, _]
    refine ⟨⟨_, h5, ?_⟩, h1.sent_upon, h2.sent_upon, h3.sent_upon, h4.sent_upon, h5.sent_upon,
      fun _ hnil => absurd hnil List.not_mem_nil⟩
    exact fun user_hash => ⟨.inl, fun hverified => hverified.resolve_right fun hnew => Bool.noConfusion hnew.1.1⟩
  | false =>
    have h3 : Heard me (arrived late (packets.take 3)) _ :=
      h2.waits (on_packet_info_able me _ hbuilt rfl hable host.identity rfl) hlate2
    cases hlate3 : late 3 with
    | true =>
      have h4 : Returned me (arrived late (packets.take 4)) _ := h3.ends (on_packet_key me _ hothers) hlate3
      have h5 : Returned me (arrived late (packets.take 5)) _ := h4.later [_]
      refine ⟨⟨_, h5, ?_⟩, h1.sent_upon, h2.sent_upon, h3.sent_upon, h4.sent_upon, h5.sent_upon,
        fun _ hnil => absurd hnil List.not_mem_nil⟩
      exact fun user_hash => ⟨.inl, fun hverified => hverified.resolve_right fun hnew => Bool.noConfusion hnew.1.2⟩
    | false =>
      have h4 : Heard me (arrived late (packets.take 4)) _ := h3.waits (on_packet_key me _ hothers) hlate3
      have h5 : Returned me (arrived late (packets.take 5)) _ :=
        h4.ends (on_packet_signature me _ hothers hsecure rfl rfl rfl) rfl
      refine ⟨⟨_, h5, ?_⟩, h1.sent_upon, h2.sent_upon, h3.sent_upon, h4.sent_upon, h5.sent_upon,
        fun _ hnil => absurd hnil List.not_mem_nil⟩
      intro user_hash
      change Verified (some (provider.mark_verified (hex_lower host.identity.user_hash).toUpper.toLower)) user_hash ↔ _
      rw [toLower_toUpper_hex_lower, verified_mark, hsecure]
      simp only [true_and]

variable (late) in
/-- A client without keys answers no challenge, and sends none. -/
theorem client_challenged (hparse : parse_hello payload = .ok host.identity.hello)
    (hbuilt : build_emuleinfo_payload DEFAULT_ED2K_VERSION = .ok info) (hable : has_keys me.secure_ident = false)
    (challenge : Nat) :
    let packets : List Packet := [⟨EDONKEY, HELLOANSWER, payload⟩,
      ⟨EMULE, SECIDENTSTATE, build_secident_state_payload 2 challenge⟩, ⟨EMULE, EMULEINFOANSWER, info⟩]
    (∃ exchange,
      Returned me (arrived late packets) (.ok (host.identity.peer_info, host.identity.hello.tags), exchange) ∧
        exchange.secure_ident = me.secure_ident) ∧
      ∀ count ∈ [1, 2, 3], sent_upon me (arrived late (packets.take count)) = opening me := by
  intro packets
  have h1 : Heard me (arrived late (packets.take 1)) _ := heard_answer hparse (late 0)
  have h2 : Heard me (arrived late (packets.take 2)) _ :=
    h1.waits (on_packet_challenge_unable me _ hable challenge) rfl
  have h3 : Returned me (arrived late (packets.take 3)) _ := h2.ends (on_packet_info_unable me _ hbuilt hable) rfl
  refine ⟨⟨_, h3, rfl⟩, ?_⟩
  simp only [List.forall_mem_cons]
  exact ⟨h1.sent_upon, h2.sent_upon, h3.sent_upon, fun _ hnil => absurd hnil List.not_mem_nil⟩

variable (late) in
theorem client_unchallenged (hparse : parse_hello payload = .ok host.identity.hello)
    (hbuilt : build_emuleinfo_payload DEFAULT_ED2K_VERSION = .ok info) (hable : has_keys me.secure_ident = false) :
    let packets : List Packet := [⟨EDONKEY, HELLOANSWER, payload⟩, ⟨EMULE, EMULEINFOANSWER, info⟩]
    (∃ exchange,
      Returned me (arrived late packets) (.ok (host.identity.peer_info, host.identity.hello.tags), exchange) ∧
        exchange.secure_ident = me.secure_ident) ∧
      ∀ count ∈ [1, 2], sent_upon me (arrived late (packets.take count)) = opening me := by
  intro packets
  have h1 : Heard me (arrived late (packets.take 1)) _ := heard_answer hparse (late 0)
  have h2 : Returned me (arrived late (packets.take 2)) _ := h1.ends (on_packet_info_unable me _ hbuilt hable) rfl
  refine ⟨⟨_, h2, rfl⟩, ?_⟩
  simp only [List.forall_mem_cons]
  exact ⟨h1.sent_upon, h2.sent_upon, fun _ hnil => absurd hnil List.not_mem_nil⟩

/-- One course of a greeting between sides that both have keys. -/
theorem greeting_identified (hprepared : Prepared me client host answer) (hsecure : me.secure_ident = some provider)
    (hkeys : provider._key = some keys) (hgenuine : Genuine keys) (hotherkeys : other._key = some others)
    (hothers : Genuine others) :
    ∃ schedule last, (greeting me host late).run (connected me (some other)) schedule = some last ∧ last.Quiet ∧
      schedule.length = 10 ∧ Greeted me client host (some other) late last := by
  obtain ⟨payload, rfl, hparse⟩ := parse_answer hprepared.answer
  have hable : has_keys me.secure_ident = true := by
    rw [hsecure, has_keys, SecureIdentProvider.has_keys, hkeys, Option.isSome_some]
  have hhello : parse_hello me.hello = .ok client.hello := parse_hello_of_identity hprepared.hello
  obtain ⟨⟨exchange, hreturned, hverified⟩, hsent1, hsent2, hsent⟩ :=
    client_identified late hparse hprepared.emuleinfo hsecure hkeys hgenuine hothers host.challenge
  simp only [List.forall_mem_cons] at hsent
  obtain ⟨hsent3, hsent4, hsent5, -⟩ := hsent
  have hsent0 : sent_upon me (arrived late []) = opening me := (heard_nil me).sent_upon
  have hmarked : (other.mark_verified (hex_lower client.user_hash))._key = some others :=
    (SecureIdentProvider.key_mark_verified other _).trans hotherkeys
  let loop : Loop := ⟨.looping, ⟨some host.challenge, some (drawn me.challenge), keys.public_blob, none⟩,
    [⟨EMULE, SECIDENTSTATE, build_secident_state_payload 2 host.challenge⟩, ⟨EMULE, EMULEINFOANSWER, me.emuleinfo⟩,
      publickey_packet others, signature_packet others me.challenge]⟩
  let last : duplex.Config (List Arrival) (Reception rsa) Packet Packet :=
    ⟨arrived late (identification payload me.emuleinfo others host.challenge me.challenge),
      .greeted client.hello (some (other.mark_verified (hex_lower client.user_hash)), loop), [], []⟩
  refine ⟨[.right, .right, .left, .left, .left, .right, .right, .right, .left, .left], last, ?_, ⟨rfl, rfl⟩, rfl,
    ⟨exchange, hreturned, ?_⟩, _, loop, rfl, rfl, ?_⟩
  · refine (duplex.Link.run_right rfl (hear_first hhello hprepared.answer)).trans ?_
    rw [enter_able hotherkeys]
    refine (duplex.Link.run_right rfl (hear_info rfl hprepared.emuleinfo _)).trans ?_
    refine (duplex.Link.run_left rfl (hear_answer_arrived hsent0 (hsent1.trans (List.append_nil _).symm))).trans ?_
    refine (duplex.Link.run_left rfl (hear_answer_arrived hsent1 hsent2)).trans ?_
    refine (duplex.Link.run_left rfl (hear_answer_arrived hsent2 hsent3)).trans ?_
    refine (duplex.Link.run_right rfl (hear_key rfl hgenuine)).trans ?_
    refine (duplex.Link.run_right rfl (hear_signature rfl hgenuine rfl rfl)).trans ?_
    refine (duplex.Link.run_right rfl (hear_challenge rfl hothers hmarked _)).trans ?_
    refine (duplex.Link.run_left rfl (hear_answer_arrived hsent3 (hsent4.trans (List.append_nil _).symm))).trans ?_
    exact duplex.Link.run_left rfl (hear_answer_arrived hsent4 (hsent5.trans (List.append_nil _).symm))
  · intro user_hash
    rw [hverified, hable]
    simp only [true_and]
  · intro user_hash
    rw [verified_mark, hable]
    simp only [true_and]

/-- A client without keys leaves the challenge of a listener unanswered. -/
theorem greeting_challenged (hprepared : Prepared me client host answer) (hunable : has_keys me.secure_ident = false)
    (hotherkeys : other._key = some others) :
    ∃ schedule last, (greeting me host late).run (connected me (some other)) schedule = some last ∧ last.Quiet ∧
      schedule.length = 5 ∧ Greeted me client host (some other) late last := by
  obtain ⟨payload, rfl, hparse⟩ := parse_answer hprepared.answer
  have hhello : parse_hello me.hello = .ok client.hello := parse_hello_of_identity hprepared.hello
  obtain ⟨⟨exchange, hreturned, hsame⟩, hsent⟩ :=
    client_challenged late hparse hprepared.emuleinfo hunable host.challenge
  simp only [List.forall_mem_cons] at hsent
  obtain ⟨hsent1, hsent2, hsent3, -⟩ := hsent
  have hsent0 : sent_upon me (arrived late []) = opening me := (heard_nil me).sent_upon
  have hnothing : opening me = opening me ++ [] := (List.append_nil _).symm
  let loop : Loop := ⟨.looping, ⟨some host.challenge, none, [], none⟩,
    [⟨EMULE, SECIDENTSTATE, build_secident_state_payload 2 host.challenge⟩, ⟨EMULE, EMULEINFOANSWER, me.emuleinfo⟩]⟩
  refine ⟨[.right, .right, .left, .left, .left], ⟨_, .greeted client.hello (some other, loop), [], []⟩, ?_, ⟨rfl, rfl⟩,
    rfl, ⟨exchange, hreturned, ?_⟩, _, loop, rfl, rfl, ?_⟩
  · refine (duplex.Link.run_right rfl (hear_first hhello hprepared.answer)).trans ?_
    rw [enter_able hotherkeys]
    refine (duplex.Link.run_right rfl (hear_info rfl hprepared.emuleinfo _)).trans ?_
    refine (duplex.Link.run_left rfl (hear_answer_arrived hsent0 (hsent1.trans hnothing))).trans ?_
    refine (duplex.Link.run_left rfl (hear_answer_arrived hsent1 (hsent2.trans hnothing))).trans ?_
    exact duplex.Link.run_left rfl (hear_answer_arrived hsent2 (hsent3.trans hnothing))
  · intro user_hash
    rw [hsame, hunable]
    simp
  · intro user_hash
    rw [hunable]
    simp

/-- Neither side identifies itself. -/
theorem greeting_unidentified (hprepared : Prepared me client host answer) (hunable : has_keys me.secure_ident = false)
    {secure_ident : Option (SecureIdentProvider rsa)} (hneither : has_keys secure_ident = false) :
    ∃ schedule last, (greeting me host late).run (connected me secure_ident) schedule = some last ∧ last.Quiet ∧
      schedule.length = 4 ∧ Greeted me client host secure_ident late last := by
  obtain ⟨payload, rfl, hparse⟩ := parse_answer hprepared.answer
  have hhello : parse_hello me.hello = .ok client.hello := parse_hello_of_identity hprepared.hello
  obtain ⟨⟨exchange, hreturned, hsame⟩, hsent⟩ :=
    client_unchallenged late hparse hprepared.emuleinfo hunable
  simp only [List.forall_mem_cons] at hsent
  obtain ⟨hsent1, hsent2, -⟩ := hsent
  have hsent0 : sent_upon me (arrived late []) = opening me := (heard_nil me).sent_upon
  have hnothing : opening me = opening me ++ [] := (List.append_nil _).symm
  let loop : Loop := ⟨.looping, ⟨none, none, [], none⟩, [⟨EMULE, EMULEINFOANSWER, me.emuleinfo⟩]⟩
  refine ⟨[.right, .right, .left, .left], ⟨_, .greeted client.hello (secure_ident, loop), [], []⟩, ?_, ⟨rfl, rfl⟩,
    rfl, ⟨exchange, hreturned, ?_⟩, _, loop, rfl, rfl, ?_⟩
  · refine (duplex.Link.run_right rfl (hear_first hhello hprepared.answer)).trans ?_
    rw [enter_unable hneither]
    refine (duplex.Link.run_right rfl (hear_info rfl hprepared.emuleinfo _)).trans ?_
    refine (duplex.Link.run_left rfl (hear_answer_arrived hsent0 (hsent1.trans hnothing))).trans ?_
    exact duplex.Link.run_left rfl (hear_answer_arrived hsent1 (hsent2.trans hnothing))
  · intro user_hash
    rw [hsame, hunable]
    simp
  · intro user_hash
    rw [hunable]
    simp

end Meeting

/-- The number of packets of a greeting. A side with keys challenges the other, which takes a packet; a client with keys
answers with two, and the listener does so to its challenge. -/
def greeting_length (client_able listener_able : Bool) : Nat :=
  4 + (if listener_able then 1 else 0) + if client_able then 5 else 0

/-- The keys of a side are genuine, if it has any. -/
def GenuineKeys {rsa : Rsa} (secure_ident : Option (SecureIdentProvider rsa)) : Prop :=
  ∀ provider keys, secure_ident = some provider → provider._key = some keys → Genuine keys

theorem keys_of_has_keys {rsa : Rsa} {secure_ident : Option (SecureIdentProvider rsa)}
    (hable : has_keys secure_ident = true) :
    ∃ provider keys, secure_ident = some provider ∧ provider._key = some keys := by
  cases secure_ident with
  | none => cases hable
  | some provider =>
    rw [has_keys, SecureIdentProvider.has_keys] at hable
    obtain ⟨keys, hkeys⟩ := Option.isSome_iff_exists.mp hable
    exact ⟨provider, keys, rfl, hkeys⟩

/-- Whatever order the packets of both sides arrive in, a client and a listener greet, and both come to rest. A client
with keys needs a listener with keys. -/
theorem own_sessions_greet {rsa : Rsa} {me : Local rsa} {client : LocalIdentity} {host : Host} {answer : Packet}
    {secure_ident : Option (SecureIdentProvider rsa)} (grace_over : Nat → Bool)
    (hprepared : Prepared me client host answer) (hclient : GenuineKeys me.secure_ident)
    (hlistener : GenuineKeys secure_ident)
    (hable : has_keys me.secure_ident = true → has_keys secure_ident = true) {schedule : List duplex.Side}
    {config : duplex.Config (List Arrival) (Reception rsa) Packet Packet}
    (hrun : (greeting me host grace_over).run (connected me secure_ident) schedule = some config) :
    ∃ more last, (greeting me host grace_over).run config more = some last ∧ last.Quiet ∧
      schedule.length + more.length = greeting_length (has_keys me.secure_ident) (has_keys secure_ident) ∧
        Greeted me client host secure_ident grace_over last := by
  obtain ⟨whole, last, hwhole, hquiet, hlength, hgreeted⟩ : ∃ whole last,
      (greeting me host grace_over).run (connected me secure_ident) whole = some last ∧ last.Quiet ∧
        whole.length = greeting_length (has_keys me.secure_ident) (has_keys secure_ident) ∧
          Greeted me client host secure_ident grace_over last := by
    cases hboth : has_keys me.secure_ident with
    | true =>
      obtain ⟨provider, keys, hsecure, hkeys⟩ := keys_of_has_keys hboth
      obtain ⟨other, others, rfl, hotherkeys⟩ := keys_of_has_keys (hable hboth)
      rw [hable hboth]
      exact greeting_identified hprepared hsecure hkeys (hclient _ _ hsecure hkeys) hotherkeys
        (hlistener _ _ rfl hotherkeys)
    | false =>
      cases hone : has_keys secure_ident with
      | true =>
        obtain ⟨other, others, rfl, hotherkeys⟩ := keys_of_has_keys hone
        exact greeting_challenged hprepared hboth hotherkeys
      | false => exact greeting_unidentified hprepared hboth hone
  obtain ⟨more, hmore, htotal⟩ := duplex.Link.settles hwhole hquiet hrun
  exact ⟨more, last, hmore, hquiet, htotal.trans hlength, hgreeted⟩

section Samples

def sampleClient : LocalIdentity := ⟨List.replicate 16 7, 0, 4662, "a", by decide, by decide, by decide, by decide⟩

def sampleListener : Host :=
  ⟨⟨List.replicate 16 9, 0, 4663, "b", by decide, by decide, by decide, by decide⟩, sampleServices, sampleSurroundings,
    [1, 0, 0, 0]⟩

/-- Both sides have keys, here the same. -/
def sampleProvider : SecureIdentProvider sampleRsa := ⟨some sampleKeys, Dict.empty⟩

def sampleLocal : Local sampleRsa where
  secure_ident := some sampleProvider
  hello := (build_hello_payload (List.replicate 16 7) 0 4662 "a" DEFAULT_ED2K_VERSION []).toOption.getD []
  emuleinfo := (build_emuleinfo_payload DEFAULT_ED2K_VERSION).toOption.getD []
  challenge := 2

def sampleAnswer : Packet := sampleListener.hello_answer.toOption.getD ⟨EDONKEY, HELLOANSWER, []⟩

theorem samplePrepared : Prepared sampleLocal sampleClient sampleListener sampleAnswer :=
  ⟨by decide +kernel, by decide +kernel, by decide +kernel⟩

theorem genuine_sampleKeys : Genuine sampleKeys where
  long_blob := by decide
  long_signature challenge := by simp [sampleRsa, sampleKeys, build_challenge_data]
  accepted := ⟨(9 : UInt8), rfl, fun data => decide_eq_true rfl⟩

theorem genuineKeys_sampleProvider : GenuineKeys (some sampleProvider) := by
  intro provider keys hprovider hkeys
  obtain rfl : sampleProvider = provider := Option.some.inj hprovider
  obtain rfl : sampleKeys = keys := Option.some.inj hkeys
  exact genuine_sampleKeys

/-- The HELLO has been answered, and the client has the answer. -/
def sampleBegun : Option (duplex.Config (List Arrival) (Reception sampleRsa) Packet Packet) :=
  (greeting sampleLocal sampleListener fun _ => false).run (connected sampleLocal (some sampleProvider)) [.right, .left]

theorem own_sessions_greet_begun : ∃ config, sampleBegun = some config ∧ ∃ more last,
    (greeting sampleLocal sampleListener fun _ => false).run config more = some last ∧ last.Quiet ∧
      2 + more.length = 10 ∧ Greeted sampleLocal sampleClient sampleListener (some sampleProvider) (fun _ => false)
        last := by
  obtain ⟨config, hconfig⟩ : ∃ config, sampleBegun = some config :=
    Option.isSome_iff_exists.mp (by decide +kernel)
  exact ⟨config, hconfig, own_sessions_greet _ samplePrepared genuineKeys_sampleProvider genuineKeys_sampleProvider
    (fun hable => hable) hconfig⟩

end Samples

end amuled.peer_handshake
