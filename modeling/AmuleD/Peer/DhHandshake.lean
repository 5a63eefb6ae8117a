import AmuleD.Peer.Handshake
import AmuleD.Runs
import AmuleD.Peer.Obfuscation

open littleendian exactread keystream

namespace amuled.peer.dh

/-- `int.from_bytes(data, "big")`. -/
def from_bytes (data : Bytes) : Nat := decode data.reverse

/-- `value.to_bytes(width, "big")`, of a value that fits. -/
def to_bytes (width value : Nat) : Bytes := (encode width value).reverse

def DIFFIE_HELLMAN_PRIME : Nat :=
  from_bytes [
    0xF2, 0xBF, 0x52, 0xC5, 0x5F, 0x58, 0x7A, 0xDD,
    0x53, 0x71, 0xA9, 0x36, 0xE8, 0x86, 0xEB, 0x3C,
    0x62, 0x17, 0xA3, 0x3E, 0xC3, 0x4C, 0xB4, 0x0D,
    0xC7, 0x3A, 0x41, 0xA6, 0x43, 0xAF, 0xFC, 0xE7,
    0x21, 0xFC, 0x28, 0x63, 0x66, 0x53, 0x5B, 0xDB,
    0xCE, 0x25, 0x9F, 0x22, 0x86, 0xDA, 0x4A, 0x91,
    0xB2, 0x07, 0xCB, 0xAA, 0x52, 0x55, 0xD4, 0xF6,
    0x1C, 0xCE, 0xAE, 0xD4, 0x5A, 0xD5, 0xE0, 0x74,
    0x7D, 0xF7, 0x78, 0x18, 0x28, 0x10, 0x5F, 0x34,
    0x0F, 0x76, 0x23, 0x87, 0xF8, 0x8B, 0x28, 0x91,
    0x42, 0xFB, 0x42, 0x68, 0x8F, 0x05, 0x15, 0x0F,
    0x54, 0x8B, 0x5F, 0x43, 0x6A, 0xF7, 0x0D, 0xF3]

def DH_GENERATOR : Nat := 2

def DH_PUBKEY_BYTES : Nat := 96

def MAX_PADDING_LENGTH : Nat := 16

/-- `compute_dh_public_key`: `pow` is reduced modulo the prime and fits. -/
def compute_dh_public_key (private_key : Nat) : Bytes :=
  to_bytes DH_PUBKEY_BYTES (DH_GENERATOR ^ private_key % DIFFIE_HELLMAN_PRIME)

/-- `build_dh_request`, of the marker candidates and the padding that it draws. -/
def build_dh_request (pubkey : Bytes) (padding : Option Bytes) (candidates : List UInt8) (drawn : Bytes) :
    Except Exc Bytes :=
  if pubkey.length ≠ DH_PUBKEY_BYTES then
    .error (.ObfuscationError s!"pubkey must be {DH_PUBKEY_BYTES} bytes, got {pubkey.length}")
  else
    let marker := not_protocol_marker candidates
    match padding with
    | some given =>
      if ¬ given.length < MAX_PADDING_LENGTH then
        .error (.ObfuscationError
          s!"explicit padding length {given.length} out of range 0..{MAX_PADDING_LENGTH - 1}")
      else do
        let length ← bytes_of [given.length]
        .ok ([marker] ++ pubkey ++ (length ++ given))
    | none => do
      let length ← bytes_of [drawn.length]
      .ok ([marker] ++ pubkey ++ (length ++ drawn))

/-- `parse_dh_response`: the public key, the magic as it came and the padding length. -/
def parse_dh_response (payload : Bytes) : Except Exc (Bytes × Bytes × Nat) :=
  if payload.length < DH_PUBKEY_BYTES + 4 then
    .error (.ObfuscationError (s!"DH response too short: need >= {DH_PUBKEY_BYTES + 4} bytes, " ++
      s!"got {payload.length}"))
  else do
    let server_pubkey := payload.take DH_PUBKEY_BYTES
    let magic_bytes := payload.extract DH_PUBKEY_BYTES (DH_PUBKEY_BYTES + 4)
    let magic ← struct_unpack 4 magic_bytes
    if magic ≠ MAGICVALUE_SYNC then
      .error (.ObfuscationError (s!"DH response magic mismatch: got {hex_upper 8 magic}, " ++
        s!"expected {hex_upper 8 MAGICVALUE_SYNC}"))
    else if payload.length < DH_PUBKEY_BYTES + 7 then
      .error (.ObfuscationError ("DH response too short for method tags: need >= " ++
        s!"{DH_PUBKEY_BYTES + 7} bytes, got {payload.length}"))
    else
      let recv_padding_len := (payload.getD (DH_PUBKEY_BYTES + 6) 0).toNat
      let consumed := DH_PUBKEY_BYTES + 7 + recv_padding_len
      if payload.length < consumed then
        .error (.ObfuscationError (s!"DH response padding truncated: declared {recv_padding_len}, " ++
          s!"only {payload.length - DH_PUBKEY_BYTES - 7} bytes available"))
      else .ok (server_pubkey, magic_bytes, recv_padding_len)

/-- `derive_keys`. -/
def derive_keys (md5 : Bytes → Bytes) (private_key : Nat) (server_pubkey client_pubkey : Bytes)
    (recv_pad_len send_pad_len : Nat) : Except Exc NegotiationKeys :=
  if server_pubkey.length ≠ DH_PUBKEY_BYTES then
    .error (.ObfuscationError
      s!"server_pubkey must be {DH_PUBKEY_BYTES} bytes, got {server_pubkey.length}")
  else if client_pubkey.length ≠ DH_PUBKEY_BYTES then
    .error (.ObfuscationError
      s!"client_pubkey must be {DH_PUBKEY_BYTES} bytes, got {client_pubkey.length}")
  else if ¬ send_pad_len ≤ 0xFFFF then
    .error (.ObfuscationError s!"send_pad_len out of range: {send_pad_len}")
  else if ¬ recv_pad_len ≤ 0xFFFF then
    .error (.ObfuscationError s!"recv_pad_len out of range: {recv_pad_len}")
  else
    let server_int := from_bytes server_pubkey
    let shared_int := server_int ^ private_key % DIFFIE_HELLMAN_PRIME
    let shared_buf := to_bytes DH_PUBKEY_BYTES shared_int
    let send_key := md5 (shared_buf ++ [MAGICVALUE_REQUESTER])
    let recv_key := md5 (shared_buf ++ [MAGICVALUE_SERVER])
    .ok ⟨send_key, recv_key, RC4_KEY_DROP_BYTES, RC4_KEY_DROP_BYTES⟩

/-- `accept_dh_client` with the private key that it generates: what it writes and the session. -/
def accept_dh_client (md5 : Bytes → Bytes) (arc4 : Bytes → Nat → UInt8) (g_a : Bytes) (padding : Option Bytes)
    (b : Nat) (drawn : Bytes) : Reader UInt8 (Except Exc (Bytes × AcceptorSession)) :=
  if g_a.length ≠ DH_PUBKEY_BYTES then
    .done (.error (.ObfuscationError s!"g^a must be {DH_PUBKEY_BYTES} bytes, got {g_a.length}"))
  else .take 1 fun padlen_raw =>
    let answer := do
      let g_b := compute_dh_public_key b
      let server_int := from_bytes g_a
      let shared_buf := to_bytes DH_PUBKEY_BYTES (server_int ^ b % DIFFIE_HELLMAN_PRIME)
      let send_key := md5 (shared_buf ++ [MAGICVALUE_SERVER])
      let recv_key := md5 (shared_buf ++ [MAGICVALUE_REQUESTER])
      let body ← basic_response (padding.getD drawn)
      let sent := (Rc4Stream.new send_key RC4_KEY_DROP_BYTES).crypt arc4 body
      .ok (g_b ++ sent.1, ⟨sent.2, Rc4Stream.new recv_key RC4_KEY_DROP_BYTES⟩)
    let padlen := (padlen_raw.headD 0).toNat
    if padlen ≠ 0 then .take padlen fun _ => .done answer
    else .done answer

/-- The dispatcher's `except ObfuscationError`. -/
def fall_back (allow_dh : Bool) (dh : Reader UInt8 (Except Exc (Bytes × AcceptorSession))) :
    Except Exc (Bytes × AcceptorSession) → Reader UInt8 (Except Exc (Bytes × AcceptorSession))
  | .error (.ObfuscationError basic_exc) =>
    if ¬ allow_dh then .done (.error (.ObfuscationError basic_exc)) else dh
  | result => .done result

/-- `accept_obfuscated_client`, of the paddings that the two acceptors draw. -/
def accept_obfuscated_client (md5 : Bytes → Bytes) (arc4 : Bytes → Nat → UInt8) (own_userhash : Bytes)
    (allow_dh : Bool) (basic_drawn : Bytes) (b : Nat) (drawn : Bytes) :
    Reader UInt8 (Except Exc (Bytes × AcceptorSession)) :=
  .take 4 fun keypart_raw => .take 4 fun magic_raw =>
    (accept_basic_client md5 arc4 own_userhash (some keypart_raw) (some magic_raw) none basic_drawn).andThen
      (fall_back allow_dh
        (let g_a := keypart_raw ++ magic_raw
        let remaining := DH_PUBKEY_BYTES - g_a.length
        if remaining > 0 then
          .take remaining fun more => accept_dh_client md5 arc4 (g_a ++ more) none b drawn
        else accept_dh_client md5 arc4 g_a none b drawn))

end amuled.peer.dh

namespace amuled.peer

/-- Two ends with their cipher streams, the bytes on the wires, and the plain bytes that were sent and received. -/
structure CipherLink where
  dialer : AcceptorSession
  acceptor : AcceptorSession
  requests : Bytes
  answers : Bytes
  dialer_sent : Bytes
  dialer_received : Bytes
  acceptor_sent : Bytes
  acceptor_received : Bytes

inductive LinkEvent where
  | dialer_sends (message : Bytes)
  | acceptor_sends (message : Bytes)
  | dialer_reads (count : Nat)
  | acceptor_reads (count : Nat)

namespace CipherLink

/-- A link over which nothing was sent yet. -/
def start (dialer acceptor : AcceptorSession) : CipherLink := ⟨dialer, acceptor, [], [], [], [], [], []⟩

def step (arc4 : Bytes → Nat → UInt8) (s : CipherLink) : LinkEvent → CipherLink
  | .dialer_sends message =>
    let wire := s.dialer.encrypt arc4 message
    { s with dialer := wire.2, requests := s.requests ++ wire.1, dialer_sent := s.dialer_sent ++ message }
  | .acceptor_sends message =>
    let wire := s.acceptor.encrypt arc4 message
    { s with acceptor := wire.2, answers := s.answers ++ wire.1, acceptor_sent := s.acceptor_sent ++ message }
  | .dialer_reads count =>
    let plain := s.dialer.decrypt arc4 (s.answers.take count)
    { s with dialer := plain.2, answers := s.answers.drop count, dialer_received := s.dialer_received ++ plain.1 }
  | .acceptor_reads count =>
    let plain := s.acceptor.decrypt arc4 (s.requests.take count)
    { s with acceptor := plain.2, requests := s.requests.drop count,
             acceptor_received := s.acceptor_received ++ plain.1 }

/-- What was sent and not yet received is on the wires. -/
structure Aligned (arc4 : Bytes → Nat → UInt8) (s : CipherLink) : Prop where
  to_acceptor : ∃ text, Rc4Stream.Carries arc4 s.dialer._send s.acceptor._recv s.requests text ∧
    s.dialer_sent = s.acceptor_received ++ text
  to_dialer : ∃ text, Rc4Stream.Carries arc4 s.acceptor._send s.dialer._recv s.answers text ∧
    s.acceptor_sent = s.dialer_received ++ text

variable {arc4 : Bytes → Nat → UInt8} {s : CipherLink}

theorem aligned_start {dialer acceptor : AcceptorSession} (hrequests : dialer._send = acceptor._recv)
    (hanswers : acceptor._send = dialer._recv) : Aligned arc4 (start dialer acceptor) := by
  constructor
  · refine ⟨[], ?_, rfl⟩
    change Rc4Stream.Carries arc4 dialer._send acceptor._recv [] []
    rw [hrequests]
    exact ⟨rfl, .empty _⟩
  · refine ⟨[], ?_, rfl⟩
    change Rc4Stream.Carries arc4 acceptor._send dialer._recv [] []
    rw [hanswers]
    exact ⟨rfl, .empty _⟩

theorem aligned_step (h : Aligned arc4 s) (event : LinkEvent) : Aligned arc4 (s.step arc4 event) := by
  obtain ⟨to_acceptor, hto_acceptor, hdialer_sent⟩ := h.to_acceptor
  obtain ⟨to_dialer, hto_dialer, hacceptor_sent⟩ := h.to_dialer
  cases event with
  | dialer_sends message =>
    refine ⟨⟨to_acceptor ++ message, hto_acceptor.send message, ?_⟩, h.to_dialer⟩
    change s.dialer_sent ++ message = s.acceptor_received ++ (to_acceptor ++ message)
    rw [hdialer_sent, List.append_assoc]
  | acceptor_sends message =>
    refine ⟨h.to_acceptor, to_dialer ++ message, hto_dialer.send message, ?_⟩
    change s.acceptor_sent ++ message = s.dialer_received ++ (to_dialer ++ message)
    rw [hacceptor_sent, List.append_assoc]
  | dialer_reads count =>
    rw [← List.take_append_drop count s.answers] at hto_dialer
    refine ⟨h.to_acceptor, _, hto_dialer.receive, ?_⟩
    simp only [step, AcceptorSession.decrypt, hto_dialer.decrypt]
    rw [List.append_assoc, List.take_append_drop, hacceptor_sent]
  | acceptor_reads count =>
    rw [← List.take_append_drop count s.requests] at hto_acceptor
    refine ⟨⟨_, hto_acceptor.receive, ?_⟩, h.to_dialer⟩
    simp only [step, AcceptorSession.decrypt, hto_acceptor.decrypt]
    rw [List.append_assoc, List.take_append_drop, hdialer_sent]

/-- Each end has received a front of what the other one sent, and all of it once nothing is on the way. -/
structure Delivers (s : CipherLink) : Prop where
  acceptor_received : s.acceptor_received <+: s.dialer_sent
  dialer_received : s.dialer_received <+: s.acceptor_sent
  all_received : s.requests = [] → s.answers = [] →
    s.acceptor_received = s.dialer_sent ∧ s.dialer_received = s.acceptor_sent

theorem Aligned.delivers (h : Aligned arc4 s) : s.Delivers := by
  obtain ⟨to_acceptor, hto_acceptor, hdialer_sent⟩ := h.to_acceptor
  obtain ⟨to_dialer, hto_dialer, hacceptor_sent⟩ := h.to_dialer
  refine ⟨⟨_, hdialer_sent.symm⟩, ⟨_, hacceptor_sent.symm⟩, ?_⟩
  intro hrequests hanswers
  rw [hrequests] at hto_acceptor
  rw [hanswers] at hto_dialer
  rw [hto_acceptor.in_flight.text_eq_nil, List.append_nil] at hdialer_sent
  rw [hto_dialer.in_flight.text_eq_nil, List.append_nil] at hacceptor_sent
  exact ⟨hdialer_sent.symm, hacceptor_sent.symm⟩

/-- Ends whose streams stand at the same positions understand each other from then on. -/
theorem delivers_run {dialer acceptor : AcceptorSession} (hrequests : dialer._send = acceptor._recv)
    (hanswers : acceptor._send = dialer._recv) (events : List LinkEvent) :
    (events.foldl (step arc4) (start dialer acceptor)).Delivers :=
  (runs.invariant (aligned_start hrequests hanswers) (fun _ event h => aligned_step h event) events).delivers

end CipherLink

end amuled.peer

namespace amuled.peer.dh

/-- The parameters of a connection: what both sides are given, what they draw, and what the dialer passes on to
`derive_keys`. -/
structure DhConnection where
  md5 : Bytes → Bytes
  arc4 : Bytes → Nat → UInt8
  own_userhash : Bytes
  a : Nat
  b : Nat
  padding : Option Bytes
  drawn : Bytes
  candidates : List UInt8
  /-- A padding given to `accept_dh_client`, which `accept_obfuscated_client` calls without one. -/
  response_padding : Option Bytes
  response_drawn : Bytes
  basic_drawn : Bytes
  recv_pad_len : Nat
  send_pad_len : Nat
  length_padding : (padding.getD drawn).length < MAX_PADDING_LENGTH
  recv_pad_len_le : recv_pad_len ≤ 0xFFFF
  send_pad_len_le : send_pad_len ≤ 0xFFFF

/-- The first eight bytes open a BASIC request to a user hash. -/
def PassesAsBasic (md5 : Bytes → Bytes) (arc4 : Bytes → Nat → UInt8) (own_userhash keypart_raw magic_raw : Bytes) :
    Prop :=
  own_userhash.length = 16 ∧
    decode ((Rc4Stream.new (derive_acceptor_keys_own_hash md5 own_userhash (decode keypart_raw)).2
      RC4_KEY_DROP_BYTES).crypt arc4 magic_raw).1 = MAGICVALUE_SYNC

/-- Where they do not, the BASIC acceptor gives up before it reads on. -/
theorem accept_basic_client_refuses {md5 : Bytes → Bytes} {arc4 : Bytes → Nat → UInt8}
    {own_userhash keypart_raw magic_raw : Bytes} (hkeypart : keypart_raw.length = 4) (hmagic : magic_raw.length = 4)
    (hbasic : ¬ PassesAsBasic md5 arc4 own_userhash keypart_raw magic_raw) (padding : Option Bytes) (drawn : Bytes) :
    ∃ message, accept_basic_client md5 arc4 own_userhash (some keypart_raw) (some magic_raw) padding drawn =
      .done (.error (.ObfuscationError message)) := by
  rw [accept_basic_client]
  by_cases hhash : own_userhash.length = 16
  · have hlength : ((Rc4Stream.new (derive_acceptor_keys_own_hash md5 own_userhash (decode keypart_raw)).2
        RC4_KEY_DROP_BYTES).crypt arc4 magic_raw).1.length = 4 := by
      rw [Rc4Stream.crypt, length_crypt, hmagic]
    rw [if_neg (not_not.mpr hhash), read_unless, if_neg (not_not.mpr hkeypart)]
    simp only [read_unless, struct_unpack_of_length hlength]
    rw [if_pos fun hvalue => hbasic ⟨hhash, hvalue⟩]
    exact ⟨_, rfl⟩
  · rw [if_pos hhash]
    exact ⟨_, rfl⟩

theorem prime_lt : DIFFIE_HELLMAN_PRIME < 256 ^ DH_PUBKEY_BYTES := decode_lt _

theorem prime_pos : 0 < DIFFIE_HELLMAN_PRIME := by decide +kernel

@[simp] theorem length_to_bytes (width value : Nat) : (to_bytes width value).length = width := by
  rw [to_bytes, List.length_reverse, length_encode]

@[simp] theorem length_compute_dh_public_key (private_key : Nat) :
    (compute_dh_public_key private_key).length = DH_PUBKEY_BYTES := length_to_bytes _ _

theorem from_bytes_compute_dh_public_key (private_key : Nat) :
    from_bytes (compute_dh_public_key private_key) = DH_GENERATOR ^ private_key % DIFFIE_HELLMAN_PRIME := by
  rw [from_bytes, compute_dh_public_key, to_bytes, List.reverse_reverse,
    decode_encode ((Nat.mod_lt _ prime_pos).trans prime_lt)]

/-- Both sides come to the same power. -/
theorem shared_secret (a b : Nat) : from_bytes (compute_dh_public_key a) ^ b % DIFFIE_HELLMAN_PRIME =
    from_bytes (compute_dh_public_key b) ^ a % DIFFIE_HELLMAN_PRIME := by
  rw [from_bytes_compute_dh_public_key, from_bytes_compute_dh_public_key, ← Nat.pow_mod, ← Nat.pow_mod,
    ← Nat.pow_mul, ← Nat.pow_mul, Nat.mul_comm]

/-- The response of the acceptor in plain. -/
def response_body (resp_pad : Bytes) : Bytes :=
  encode 4 MAGICVALUE_SYNC ++ [0, UInt8.ofNat resp_pad.length] ++ resp_pad

theorem length_response_body (resp_pad : Bytes) : (response_body resp_pad).length = 6 + resp_pad.length := by
  rw [response_body, List.length_append, List.length_append, length_encode]
  rfl

/-- The parser takes the first padding byte of the answer for the length of the padding. -/
theorem parse_response_cons {key : Bytes} (hkey : key.length = DH_PUBKEY_BYTES) (first : UInt8) (rest : Bytes) :
    parse_dh_response (key ++ response_body (first :: rest)) =
      if rest.length < first.toNat then
        .error (.ObfuscationError (s!"DH response padding truncated: declared {first.toNat}, " ++
          s!"only {rest.length} bytes available"))
      else .ok (key, encode 4 MAGICVALUE_SYNC, first.toNat) := by
  have hlength : (key ++ response_body (first :: rest)).length = 103 + rest.length := by
    rw [List.length_append, length_response_body, hkey, DH_PUBKEY_BYTES, List.length_cons]
    omega
  have hmagic : (key ++ response_body (first :: rest)).extract DH_PUBKEY_BYTES (DH_PUBKEY_BYTES + 4) =
      encode 4 MAGICVALUE_SYNC := by
    rw [response_body, List.append_assoc]
    exact extract_piece hkey (by rw [length_encode])
  have hvalue : struct_unpack 4 (encode 4 MAGICVALUE_SYNC) = .ok MAGICVALUE_SYNC := by
    rw [struct_unpack_of_length (length_encode 4 _), decode_encode (by decide)]
  have hfirst : (key ++ response_body (first :: rest)).getD (DH_PUBKEY_BYTES + 6) 0 = first := by
    rw [← hkey, List.getD_append_right _ _ _ _ (by omega), Nat.add_sub_cancel_left, response_body, encode_magic]
    rfl
  have hheader : ¬ 103 + rest.length < DH_PUBKEY_BYTES + 7 := by
    rw [DH_PUBKEY_BYTES]
    omega
  have hshort : 103 + rest.length < DH_PUBKEY_BYTES + 7 + first.toNat ↔ rest.length < first.toNat := by
    rw [DH_PUBKEY_BYTES]
    omega
  have havailable : 103 + rest.length - DH_PUBKEY_BYTES - 7 = rest.length := by
    rw [DH_PUBKEY_BYTES]
    omega
  rw [parse_dh_response, hlength, if_neg (by rw [DH_PUBKEY_BYTES]; omega), hmagic, List.take_left' hkey, hfirst]
  simp only [hvalue, ok_bind, ne_eq, not_true_eq_false, if_false, hheader, hshort, havailable]

/-- An answer is read to its end if its first padding byte is one less than the number of padding bytes. -/
theorem parse_response_iff {key resp_pad : Bytes} (hkey : key.length = DH_PUBKEY_BYTES)
    (hlength : resp_pad.length ≤ 255) :
    (∃ recv_padding_len, parse_dh_response (key ++ response_body resp_pad) =
        .ok (key, encode 4 MAGICVALUE_SYNC, recv_padding_len) ∧
      DH_PUBKEY_BYTES + 7 + recv_padding_len = (key ++ response_body resp_pad).length) ↔
    resp_pad.head? = some (UInt8.ofNat (resp_pad.length - 1)) := by
  have htotal : (key ++ response_body resp_pad).length = 102 + resp_pad.length := by
    rw [List.length_append, length_response_body, hkey, DH_PUBKEY_BYTES]
    omega
  rw [htotal, DH_PUBKEY_BYTES]
  cases resp_pad with
  | nil =>
    refine iff_of_false ?_ (by simp)
    rintro ⟨recv_padding_len, _, hend⟩
    rw [List.length_nil] at hend
    omega
  | cons first rest =>
    rw [List.length_cons] at hlength ⊢
    rw [parse_response_cons hkey, List.head?_cons, Option.some.injEq, Nat.add_sub_cancel]
    constructor
    · rintro ⟨recv_padding_len, hparsed, hend⟩
      split_ifs at hparsed
      cases hparsed
      have hcount : first.toNat = rest.length := by omega
      rw [← hcount, UInt8.ofNat_toNat]
    · intro hfirst
      have hcount : first.toNat = rest.length := by
        rw [hfirst]
        exact toNat_ofNat_of_le (by omega)
      exact ⟨first.toNat, if_neg (by omega), by omega⟩

namespace DhConnection

variable (c : DhConnection)

def g_a : Bytes := compute_dh_public_key c.a

def g_b : Bytes := compute_dh_public_key c.b

def pad : Bytes := c.padding.getD c.drawn

def resp_pad : Bytes := c.response_padding.getD c.response_drawn

/-- The dialer's first step. -/
def dial : Except Exc Bytes := build_dh_request c.g_a c.padding c.candidates c.drawn

/-- The listener's task behind the marker. Who has a padding of his own reads `g^a` himself. -/
def accept : Reader UInt8 (Except Exc (Bytes × AcceptorSession)) :=
  match c.response_padding with
  | none =>
    accept_obfuscated_client c.md5 c.arc4 c.own_userhash true c.basic_drawn c.b c.response_drawn
  | some padding => .take DH_PUBKEY_BYTES fun g_a =>
    accept_dh_client c.md5 c.arc4 g_a (some padding) c.b c.response_drawn

/-- The answer decrypted by the dialer, and its stream afterwards. -/
def decrypted (keys : NegotiationKeys) (answer : Bytes) : Bytes × Rc4Stream :=
  (Rc4Stream.new keys.recv_key keys.recv_pad_len).crypt c.arc4 (answer.drop DH_PUBKEY_BYTES)

def dialer (keys : NegotiationKeys) (answer : Bytes) : AcceptorSession :=
  ⟨Rc4Stream.new keys.send_key keys.send_pad_len, (c.decrypted keys answer).2⟩

/-- The dialer parses the answer to its end, and from then on both sides understand each other. -/
structure Completes (keys : NegotiationKeys) (answer : Bytes) (session : AcceptorSession) : Prop where
  parsed : ∃ recv_padding_len,
    parse_dh_response (answer.take DH_PUBKEY_BYTES ++ (c.decrypted keys answer).1) =
      .ok (c.g_b, encode 4 MAGICVALUE_SYNC, recv_padding_len) ∧
    DH_PUBKEY_BYTES + 7 + recv_padding_len = answer.length
  requests : (c.dialer keys answer)._send = session._recv
  answers : session._send = (c.dialer keys answer)._recv
  delivers : ∀ events : List LinkEvent,
    (events.foldl (CipherLink.step c.arc4) (.start (c.dialer keys answer) session)).Delivers

/-- The request is read to its end, and its answer completes the handshake. -/
def Agrees : Prop :=
  ∃ request answer session keys, c.dial = .ok request ∧
    resume c.accept (request.drop 1) = (.done (.ok (answer, session)), []) ∧
    derive_keys c.md5 c.a (answer.take DH_PUBKEY_BYTES) c.g_a c.recv_pad_len c.send_pad_len = .ok keys ∧
    c.Completes keys answer session

def shared_buf : Bytes := to_bytes DH_PUBKEY_BYTES (from_bytes c.g_b ^ c.a % DIFFIE_HELLMAN_PRIME)

/-- The keys of the streams to the acceptor and to the dialer. -/
def keys : NegotiationKeys :=
  ⟨c.md5 (c.shared_buf ++ [MAGICVALUE_REQUESTER]), c.md5 (c.shared_buf ++ [MAGICVALUE_SERVER]),
    RC4_KEY_DROP_BYTES, RC4_KEY_DROP_BYTES⟩

/-- The acceptor's answer, around the response that it encrypts. -/
def answer_of (body : Bytes) : Bytes × AcceptorSession :=
  let sent := (Rc4Stream.new c.keys.recv_key RC4_KEY_DROP_BYTES).crypt c.arc4 body
  (c.g_b ++ sent.1, ⟨sent.2, Rc4Stream.new c.keys.send_key RC4_KEY_DROP_BYTES⟩)

@[simp] theorem length_g_a : c.g_a.length = DH_PUBKEY_BYTES := length_compute_dh_public_key c.a

@[simp] theorem length_g_b : c.g_b.length = DH_PUBKEY_BYTES := length_compute_dh_public_key c.b

theorem length_pad : c.pad.length < 16 := c.length_padding

theorem dial_eq : c.dial =
    .ok ([not_protocol_marker c.candidates] ++ c.g_a ++ ([UInt8.ofNat c.pad.length] ++ c.pad)) := by
  have hlength := c.length_padding
  have hbytes : bytes_of [c.pad.length] = .ok [UInt8.ofNat c.pad.length] := by
    apply bytes_of_eq
    rw [List.forall_mem_singleton]
    have hpad := c.length_pad
    omega
  rw [dial, build_dh_request, if_neg (not_not.mpr c.length_g_a)]
  rw [pad] at hbytes ⊢
  cases hpadding : c.padding with
  | none =>
    rw [hpadding, Option.getD_none] at hbytes
    simp only [Option.getD_none, hbytes, ok_bind]
  | some given =>
    rw [hpadding, Option.getD_some] at hbytes hlength
    simp only [Option.getD_some, hlength, not_true_eq_false, if_false, hbytes, ok_bind]

theorem derive_keys_eq :
    derive_keys c.md5 c.a c.g_b c.g_a c.recv_pad_len c.send_pad_len = .ok c.keys := by
  rw [derive_keys, if_neg (not_not.mpr c.length_g_b), if_neg (not_not.mpr c.length_g_a),
    if_neg (not_not.mpr c.send_pad_len_le), if_neg (not_not.mpr c.recv_pad_len_le)]
  rfl

/-- The acceptor reads the rest of the request to its end, and answers as its padding allows. -/
theorem accept_dh_client_eq :
    resume (accept_dh_client c.md5 c.arc4 c.g_a c.response_padding c.b c.response_drawn)
      ([UInt8.ofNat c.pad.length] ++ c.pad) =
    (.done (basic_response c.resp_pad >>= fun body => .ok (c.answer_of body)), []) := by
  have hpad : (UInt8.ofNat c.pad.length).toNat = c.pad.length := by
    apply toNat_ofNat_of_le
    have hlength := c.length_pad
    omega
  have hshared : from_bytes c.g_a ^ c.b % DIFFIE_HELLMAN_PRIME = from_bytes c.g_b ^ c.a % DIFFIE_HELLMAN_PRIME :=
    shared_secret c.a c.b
  rw [accept_dh_client, if_neg (not_not.mpr c.length_g_a), resume_take (by rfl)]
  simp only [List.headD_cons, hpad, hshared]
  by_cases hempty : c.pad = []
  · rw [hempty, if_neg (by simp)]
    rfl
  · have hsome : c.pad.length ≠ 0 := fun hzero => hempty (List.eq_nil_of_length_eq_zero hzero)
    rw [if_pos hsome, ← List.append_nil c.pad, resume_take (by rw [List.append_nil])]
    rfl

/-- Both ways to the acceptor read the request to its end. -/
theorem accept_request (hbasic : ¬ PassesAsBasic c.md5 c.arc4 c.own_userhash (c.g_a.take 4) (c.g_a.extract 4 8)) :
    resume c.accept (c.g_a ++ ([UInt8.ofNat c.pad.length] ++ c.pad)) =
      (.done (basic_response c.resp_pad >>= fun body => .ok (c.answer_of body)), []) := by
  have hdh := c.accept_dh_client_eq
  have hlength := c.length_g_a
  rw [DH_PUBKEY_BYTES] at hlength
  rw [accept]
  cases hpadding : c.response_padding with
  | some padding =>
    rw [hpadding] at hdh
    simp only
    rw [resume_take c.length_g_a, hdh]
  | none =>
    rw [hpadding] at hdh
    have hkeypart : (c.g_a.take 4).length = 4 := by
      rw [List.length_take]
      omega
    have hmagic : (c.g_a.extract 4 8).length = 4 := length_extract_of_le (by omega)
    have hrest : (c.g_a.drop 8).length = 88 := by
      rw [List.length_drop]
      omega
    have hhead : c.g_a.take 4 ++ c.g_a.extract 4 8 = c.g_a.take 8 := by
      rw [List.extract_eq_take_drop, ← List.take_add]
    have hsplit : c.g_a = c.g_a.take 4 ++ (c.g_a.extract 4 8 ++ c.g_a.drop 8) := by
      rw [← List.append_assoc, hhead, List.take_append_drop]
    obtain ⟨message, hrefused⟩ := accept_basic_client_refuses hkeypart hmagic hbasic none c.basic_drawn
    have hremaining : DH_PUBKEY_BYTES - (c.g_a.take 8).length = 88 := by
      rw [List.length_take, hlength, DH_PUBKEY_BYTES]
      rfl
    simp only
    rw [accept_obfuscated_client]
    conv_lhs => rw [hsplit]
    rw [List.append_assoc, resume_take hkeypart, List.append_assoc, resume_take hmagic, hrefused]
    simp only [Reader.andThen, fall_back, hhead, hremaining, not_true_eq_false, if_false]
    rw [if_pos (by omega), resume_take hrest, List.take_append_drop, hdh]

/-- The dialer decrypts what the acceptor encrypted, and both stand at the end of it. -/
theorem decrypted_answer (body : Bytes) :
    c.decrypted c.keys (c.answer_of body).1 = (body, (c.answer_of body).2._send) := by
  rw [decrypted, answer_of, List.drop_left' c.length_g_b]
  simp [Rc4Stream.crypt, Rc4Stream.new, keys]

theorem take_answer_of (body : Bytes) : (c.answer_of body).1.take DH_PUBKEY_BYTES = c.g_b :=
  List.take_left' c.length_g_b

theorem length_answer_of (body : Bytes) : (c.answer_of body).1.length = (c.g_b ++ body).length := by
  rw [answer_of, List.length_append, List.length_append, Rc4Stream.crypt, length_crypt]

variable {c}

/-- The streams agree whatever the padding, so only its parsing can fail. -/
theorem completes_iff (body : Bytes) : c.Completes c.keys (c.answer_of body).1 (c.answer_of body).2 ↔
    ∃ recv_padding_len, parse_dh_response (c.g_b ++ body) =
        .ok (c.g_b, encode 4 MAGICVALUE_SYNC, recv_padding_len) ∧
      DH_PUBKEY_BYTES + 7 + recv_padding_len = (c.g_b ++ body).length := by
  have hdecrypted := c.decrypted_answer body
  have hrequests : (c.dialer c.keys (c.answer_of body).1)._send = (c.answer_of body).2._recv := rfl
  have hanswers : (c.answer_of body).2._send = (c.dialer c.keys (c.answer_of body).1)._recv := by
    rw [dialer, hdecrypted]
  rw [← c.length_answer_of]
  constructor
  · intro hcompletes
    have hparsed := hcompletes.parsed
    rwa [c.take_answer_of, hdecrypted] at hparsed
  · intro hparsed
    refine ⟨?_, hrequests, hanswers, CipherLink.delivers_run hrequests hanswers⟩
    rwa [c.take_answer_of, hdecrypted]

/-- A request that does not pass for BASIC is answered unless the padding is too long, and the rest is left to the
answer. -/
theorem agrees_iff_completes
    (hbasic : ¬ PassesAsBasic c.md5 c.arc4 c.own_userhash (c.g_a.take 4) (c.g_a.extract 4 8)) :
    c.Agrees ↔ ∃ body, basic_response c.resp_pad = .ok body ∧
      c.Completes c.keys (c.answer_of body).1 (c.answer_of body).2 := by
  have haccept := c.accept_request hbasic
  constructor
  · rintro ⟨request, answer, session, keys, hdial, hresume, hkeys, hcompletes⟩
    rw [c.dial_eq] at hdial
    cases hdial
    rw [List.append_assoc, List.singleton_append, List.drop_succ_cons, List.drop_zero, haccept] at hresume
    obtain ⟨body, hbody, hanswer⟩ := bind_eq_ok_iff.mp (Reader.done.inj (Prod.mk.inj hresume).1)
    obtain ⟨rfl, rfl⟩ : answer = (c.answer_of body).1 ∧ session = (c.answer_of body).2 := by
      rw [Except.ok.inj hanswer]
      exact ⟨rfl, rfl⟩
    rw [c.take_answer_of, c.derive_keys_eq] at hkeys
    cases hkeys
    exact ⟨body, hbody, hcompletes⟩
  · rintro ⟨body, hbody, hcompletes⟩
    refine ⟨_, _, _, c.keys, c.dial_eq, ?_, ?_, hcompletes⟩
    · rw [List.append_assoc, List.singleton_append, List.drop_succ_cons, List.drop_zero, haccept, hbody]
      rfl
    · rw [c.take_answer_of]
      exact c.derive_keys_eq

/-- Both sides agree exactly if the acceptor's padding fits into a byte of length, is not empty, and begins with the
number of the bytes behind its first one. -/
theorem agrees_iff
    (hbasic : ¬ PassesAsBasic c.md5 c.arc4 c.own_userhash (c.g_a.take 4) (c.g_a.extract 4 8)) :
    c.Agrees ↔ c.resp_pad.length ≤ 255 ∧ c.resp_pad.head? = some (UInt8.ofNat (c.resp_pad.length - 1)) := by
  rw [agrees_iff_completes hbasic]
  constructor
  · rintro ⟨body, hbody, hcompletes⟩
    have hlength := length_le_of_basic_response hbody
    rw [basic_response_of_le hlength] at hbody
    cases hbody
    exact ⟨hlength, (parse_response_iff c.length_g_b hlength).mp ((completes_iff _).mp hcompletes)⟩
  · rintro ⟨hlength, hhead⟩
    refine ⟨_, basic_response_of_le hlength, (completes_iff _).mpr ?_⟩
    exact (parse_response_iff c.length_g_b hlength).mpr hhead

/-- A connection whose keystreams are zero, with a padding that the acceptor draws. -/
def sampleConnection (response_drawn : Bytes) : DhConnection where
  md5 := fun _ => []
  arc4 := fun _ _ => 0
  own_userhash := List.replicate 16 1
  a := 1
  b := 2 ^ 127
  padding := none
  drawn := []
  candidates := [1]
  response_padding := none
  response_drawn := response_drawn
  basic_drawn := []
  recv_pad_len := 0
  send_pad_len := 0
  length_padding := by decide
  recv_pad_len_le := by decide
  send_pad_len_le := by decide

theorem sample_not_basic (response_drawn : Bytes) :
    ¬ PassesAsBasic (sampleConnection response_drawn).md5 (sampleConnection response_drawn).arc4
      (sampleConnection response_drawn).own_userhash ((sampleConnection response_drawn).g_a.take 4)
      ((sampleConnection response_drawn).g_a.extract 4 8) := by
  have hmagic : (compute_dh_public_key 1).extract 4 8 = [0, 0, 0, 0] := by decide +kernel
  rintro ⟨_, hvalue⟩
  simp [sampleConnection, g_a, hmagic, Rc4Stream.crypt, crypt, decode, MAGICVALUE_SYNC] at hvalue

theorem agrees_counted : (sampleConnection (15 :: List.replicate 15 0)).Agrees :=
  (agrees_iff (sample_not_basic _)).mpr (by decide)

/-- Sixteen zero bytes of padding leave fifteen of them unread. -/
theorem zero_padding_disagrees : ¬ (sampleConnection (List.replicate 16 0)).Agrees := by
  intro hagrees
  obtain ⟨body, hbody, hcompletes⟩ := (agrees_iff_completes (sample_not_basic _)).mp hagrees
  rw [basic_response_of_le (by decide)] at hbody
  cases hbody
  have hhead := (parse_response_iff (length_g_b _) (by decide)).mp ((completes_iff _).mp hcompletes)
  exact absurd hhead (by decide)

end DhConnection

end amuled.peer.dh
