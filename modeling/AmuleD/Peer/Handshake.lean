import Mathlib.Data.List.GetD
import AmuleD.Peer.Obfuscation

open littleendian exactread keystream

namespace amuled.peer

/-- The parameters of a BASIC connection: what both sides are given and what they draw. -/
structure BasicConnection where
  md5 : Bytes → Bytes
  arc4 : Bytes → Nat → UInt8
  userhash : Bytes
  random_key_part : Nat
  padding : Option Bytes
  drawn : Bytes
  candidates : List UInt8
  response_padding : Option Bytes
  response_drawn : Bytes
  /-- The listener reads the key part and the magic before it calls `accept_basic_client`. -/
  read_ahead : Bool
  length_userhash : userhash.length = 16
  random_key_part_lt : random_key_part < 2 ^ 32
  length_padding : (padding.getD drawn).length ≤ 255
  length_response_padding : (response_padding.getD response_drawn).length ≤ 255

namespace Rc4Stream

variable {arc4 : Bytes → Nat → UInt8}

/-- A receiver is behind a sender by the text on the wire. -/
structure Carries (arc4 : Bytes → Nat → UInt8) (sender receiver : Rc4Stream) (wire text : Bytes) :
    Prop where
  key_eq : sender.key = receiver.key
  in_flight : InFlight (arc4 receiver.key) (sender.drop + sender.offset)
    (receiver.drop + receiver.offset) wire text

theorem Carries.send {sender receiver : Rc4Stream} {wire text : Bytes}
    (h : Carries arc4 sender receiver wire text) (data : Bytes) :
    Carries arc4 (sender.crypt arc4 data).2 receiver (wire ++ (sender.crypt arc4 data).1)
      (text ++ data) := by
  have hsent := h.in_flight.send data
  rw [← h.key_eq] at hsent
  constructor
  · exact h.key_eq
  · rw [← h.key_eq, crypt, ← Nat.add_assoc]
    exact hsent

theorem Carries.decrypt {sender receiver : Rc4Stream} {front back text : Bytes}
    (h : Carries arc4 sender receiver (front ++ back) text) :
    (receiver.crypt arc4 front).1 = text.take front.length := h.in_flight.decrypt

theorem Carries.receive {sender receiver : Rc4Stream} {front back text : Bytes}
    (h : Carries arc4 sender receiver (front ++ back) text) :
    Carries arc4 sender (receiver.crypt arc4 front).2 back (text.drop front.length) := by
  refine ⟨h.key_eq, ?_⟩
  rw [crypt, ← Nat.add_assoc]
  exact h.in_flight.receive

end Rc4Stream

theorem bytes_of_eq {values : List Nat} (hvalues : ∀ value ∈ values, value < 256) :
    bytes_of values = .ok (values.map UInt8.ofNat) := if_pos hvalues

theorem toNat_ofNat_of_le {value : Nat} (hvalue : value ≤ 255) : (UInt8.ofNat value).toNat = value := by
  rw [UInt8.toNat_ofNat']
  omega

theorem encode_magic : encode 4 MAGICVALUE_SYNC = [0xC4, 0x6F, 0x5E, 0x83] := by decide

/-- A padding fits into a response if its length fits into a byte. -/
theorem basic_response_of_le {resp_pad : Bytes} (hlength : resp_pad.length ≤ 255) :
    basic_response resp_pad =
      .ok (encode 4 MAGICVALUE_SYNC ++ [0, UInt8.ofNat resp_pad.length] ++ resp_pad) := by
  have hmethods : bytes_of [ENM_OBFUSCATION, resp_pad.length] = .ok [0, UInt8.ofNat resp_pad.length] := by
    apply bytes_of_eq
    simp only [List.forall_mem_cons, ENM_OBFUSCATION]
    refine ⟨by omega, by omega, ?_⟩
    intro value hvalue
    cases hvalue
  rw [basic_response, struct_pack_eq_ok_iff.mpr ⟨(by decide : MAGICVALUE_SYNC < 256 ^ 4), rfl⟩,
    ok_bind, hmethods, ok_bind]

theorem length_le_of_basic_response {resp_pad response : Bytes} (hresponse : basic_response resp_pad = .ok response) :
    resp_pad.length ≤ 255 := by
  rw [basic_response] at hresponse
  obtain ⟨magic, _, hmethods⟩ := bind_eq_ok_iff.mp hresponse
  obtain ⟨methods, hbytes, _⟩ := bind_eq_ok_iff.mp hmethods
  rw [bytes_of] at hbytes
  split_ifs at hbytes with hvalues
  have hlast := hvalues resp_pad.length (by simp)
  omega

theorem resume_read_unless {α : Type} {raw : Option Bytes} {count : Nat}
    {next : Bytes → Reader UInt8 α} {data stream : Bytes} (rest : Bytes) (hcount : data.length = count)
    (hraw : (raw = some data ∧ stream = rest) ∨ (raw = none ∧ stream = data ++ rest)) :
    resume (read_unless raw count next) stream = resume (next data) rest := by
  obtain ⟨rfl, rfl⟩ | ⟨rfl, rfl⟩ := hraw
  · rfl
  · exact resume_take hcount rest

namespace BasicConnection

variable (c : BasicConnection)

def pad : Bytes := c.padding.getD c.drawn

def resp_pad : Bytes := c.response_padding.getD c.response_drawn

/-- The key of the stream from the dialer to the acceptor. -/
def requester_key : Bytes :=
  c.md5 (c.userhash ++ [MAGICVALUE_REQUESTER] ++ encode 4 c.random_key_part)

def server_key : Bytes := c.md5 (c.userhash ++ [MAGICVALUE_SERVER] ++ encode 4 c.random_key_part)

/-- The encrypted part of the request, as plain text. -/
def request_body : Bytes := encode 4 MAGICVALUE_SYNC ++ [0, 0, UInt8.ofNat c.pad.length] ++ c.pad

def response : Bytes :=
  encode 4 MAGICVALUE_SYNC ++ [0, UInt8.ofNat c.resp_pad.length] ++ c.resp_pad

/-- The request on the wire. -/
def request : Bytes :=
  [not_protocol_marker c.candidates] ++ encode 4 c.random_key_part ++
    crypt (c.arc4 c.requester_key) RC4_KEY_DROP_BYTES c.request_body

/-- The dialer when its request is on the wire. -/
def dialer : BasicObfuscationSession where
  _keys := ⟨c.requester_key, c.server_key, RC4_KEY_DROP_BYTES, RC4_KEY_DROP_BYTES⟩
  _random_key_part := c.random_key_part
  _padding := c.padding
  _send := ⟨c.requester_key, RC4_KEY_DROP_BYTES, c.request_body.length⟩
  _recv := ⟨c.server_key, RC4_KEY_DROP_BYTES, 0⟩
  _state := .negotiating
  _rx := []
  _peer_pad_len := none

/-- The dialer's first steps. -/
def dial : Except Exc (Bytes × BasicObfuscationSession) := do
  let session ← BasicObfuscationSession.new c.md5 c.userhash c.random_key_part c.padding
  session.build_request c.arc4 c.drawn c.candidates

/-- The listener's task, which has the marker and perhaps eight bytes more before it
calls `accept_basic_client`. -/
def accept : Reader UInt8 (Except Exc (Bytes × AcceptorSession)) :=
  .take 1 fun _ =>
    if c.read_ahead then
      .take 4 fun keypart_raw => .take 4 fun magic_raw =>
        accept_basic_client c.md5 c.arc4 c.userhash (some keypart_raw) (some magic_raw)
          c.response_padding c.response_drawn
    else accept_basic_client c.md5 c.arc4 c.userhash none none c.response_padding c.response_drawn

/-- The acceptor when its response is on the wire. -/
def acceptor : AcceptorSession :=
  ⟨⟨c.server_key, RC4_KEY_DROP_BYTES, c.response.length⟩,
    ⟨c.requester_key, RC4_KEY_DROP_BYTES, c.request_body.length⟩⟩

theorem length_pad : c.pad.length ≤ 255 := c.length_padding

theorem length_resp_pad : c.resp_pad.length ≤ 255 := c.length_response_padding

theorem derive_basic_keys_eq :
    derive_basic_keys c.md5 c.userhash c.random_key_part =
      .ok ⟨c.requester_key, c.server_key, RC4_KEY_DROP_BYTES, RC4_KEY_DROP_BYTES⟩ := by
  have hkey : c.random_key_part < 256 ^ 4 := c.random_key_part_lt
  have hrange : ¬ c.random_key_part > 0xFFFFFFFF := by
    have hlt := c.random_key_part_lt
    omega
  rw [derive_basic_keys, if_neg (by simp [c.length_userhash]), if_neg hrange,
    struct_pack_eq_ok_iff.mpr ⟨hkey, rfl⟩, ok_bind]
  rfl

/-- The handshake starts without an error. -/
theorem dial_eq : c.dial = .ok (c.request, c.dialer) := by
  have hkey : c.random_key_part < 256 ^ 4 := c.random_key_part_lt
  have hrange : ¬ c.random_key_part > 0xFFFFFFFF := by
    have hlt := c.random_key_part_lt
    omega
  have hgiven : ¬ (c.padding.getD []).length > 0xFF := by
    have hlength := c.length_padding
    cases hpadding : c.padding with
    | none => simp
    | some data =>
      rw [hpadding, Option.getD_some] at hlength
      rw [Option.getD_some]
      omega
  have hmethods : bytes_of [ENM_OBFUSCATION, ENM_OBFUSCATION, c.pad.length]
      = .ok [0, 0, UInt8.ofNat c.pad.length] := by
    apply bytes_of_eq
    have hlength := c.length_pad
    simp only [List.forall_mem_cons, ENM_OBFUSCATION]
    refine ⟨by omega, by omega, by omega, ?_⟩
    intro value hvalue
    cases hvalue
  rw [dial, BasicObfuscationSession.new, if_neg (by simp [c.length_userhash]), if_neg hrange,
    if_neg hgiven, c.derive_basic_keys_eq, ok_bind, ok_bind, BasicObfuscationSession.build_request,
    if_neg (by simp)]
  simp only [struct_pack_eq_ok_iff.mpr ⟨hkey, rfl⟩,
    struct_pack_eq_ok_iff.mpr ⟨(by decide : MAGICVALUE_SYNC < 256 ^ 4), rfl⟩, ok_bind]
  change (bytes_of [ENM_OBFUSCATION, ENM_OBFUSCATION, c.pad.length] >>= _) = _
  rw [hmethods, ok_bind]
  simp [Rc4Stream.crypt, Rc4Stream.new, request, dialer, request_body, pad]

/-- The magic of the request, as it is on the wire. -/
def request_magic : Bytes := crypt (c.arc4 c.requester_key) 1024 (encode 4 MAGICVALUE_SYNC)

/-- The request after the magic. -/
def request_tail : Bytes :=
  crypt (c.arc4 c.requester_key) 1028 [0, 0] ++
    (crypt (c.arc4 c.requester_key) 1030 [UInt8.ofNat c.pad.length] ++
      crypt (c.arc4 c.requester_key) 1031 c.pad)

theorem request_eq :
    c.request = [not_protocol_marker c.candidates] ++
      (encode 4 c.random_key_part ++ (c.request_magic ++ c.request_tail)) := by
  have hbody : c.request_body = encode 4 MAGICVALUE_SYNC ++
      ([0, 0] ++ ([UInt8.ofNat c.pad.length] ++ c.pad)) := by simp [request_body]
  rw [request, hbody, RC4_KEY_DROP_BYTES, crypt_append, crypt_append, crypt_append, length_encode]
  simp only [List.append_assoc]
  rfl

theorem length_request_magic : c.request_magic.length = 4 := by
  rw [request_magic, length_crypt, length_encode]

theorem basic_response_eq : basic_response c.resp_pad = .ok c.response :=
  basic_response_of_le c.length_resp_pad

/-- `accept_basic_client` on the request, with the key part and the magic read by the
caller or not. -/
theorem accept_basic_client_eq {keypart_raw magic_raw : Option Bytes} {stream : Bytes}
    (hahead : (keypart_raw = some (encode 4 c.random_key_part) ∧ magic_raw = some c.request_magic ∧
        stream = c.request_tail) ∨
      (keypart_raw = none ∧ magic_raw = none ∧
        stream = encode 4 c.random_key_part ++ (c.request_magic ++ c.request_tail))) :
    resume (accept_basic_client c.md5 c.arc4 c.userhash keypart_raw magic_raw c.response_padding
      c.response_drawn) stream =
      (.done (.ok (crypt (c.arc4 c.server_key) RC4_KEY_DROP_BYTES c.response, c.acceptor)), []) := by
  have hkey : c.random_key_part < 256 ^ 4 := c.random_key_part_lt
  have hkeys : derive_acceptor_keys_own_hash c.md5 c.userhash (decode (encode 4 c.random_key_part))
      = (c.server_key, c.requester_key) := by
    rw [decode_encode hkey]
    rfl
  have hmagic : (Rc4Stream.new c.requester_key RC4_KEY_DROP_BYTES).crypt c.arc4 c.request_magic
      = (encode 4 MAGICVALUE_SYNC, ⟨c.requester_key, 1024, 4⟩) := by
    rw [Rc4Stream.crypt, length_request_magic, request_magic]
    exact congrArg (·, _) (crypt_crypt _ _)
  have hmagicValue : struct_unpack 4 (encode 4 MAGICVALUE_SYNC) = .ok MAGICVALUE_SYNC := by
    rw [struct_unpack_of_length (length_encode 4 _), decode_encode (by decide)]
  have hmethods : (Rc4Stream.mk c.requester_key 1024 4).crypt c.arc4
      (crypt (c.arc4 c.requester_key) 1028 [0, 0]) = ([0, 0], ⟨c.requester_key, 1024, 6⟩) := by
    rw [Rc4Stream.crypt, length_crypt]
    exact congrArg (·, _) (crypt_crypt _ _)
  have hpadlen : (Rc4Stream.mk c.requester_key 1024 6).crypt c.arc4
      (crypt (c.arc4 c.requester_key) 1030 [UInt8.ofNat c.pad.length])
      = ([UInt8.ofNat c.pad.length], ⟨c.requester_key, 1024, 7⟩) := by
    rw [Rc4Stream.crypt, length_crypt]
    exact congrArg (·, _) (crypt_crypt _ _)
  have hpadValue : (UInt8.ofNat c.pad.length).toNat = c.pad.length := toNat_ofNat_of_le c.length_pad
  have hbody : c.request_body.length = 7 + c.pad.length := by
    simp only [request_body, List.length_append, length_encode, List.length_cons, List.length_nil]
  have hresponse : basic_response (c.response_padding.getD c.response_drawn) = .ok c.response :=
    c.basic_response_eq
  rw [accept_basic_client, if_neg (by simp [c.length_userhash]),
    resume_read_unless (if magic_raw = none then c.request_magic ++ c.request_tail
      else c.request_tail) (length_encode 4 c.random_key_part),
    if_neg (by simp), resume_read_unless c.request_tail c.length_request_magic]
  · rw [hkeys]
    simp only [hmagic, hmagicValue]
    rw [if_neg (by simp), request_tail, resume_take (by simp), hmethods, resume_take (by simp),
      hpadlen]
    simp only [hresponse, List.headD_cons, hpadValue]
    split
    · rw [← List.append_nil (crypt _ 1031 _), resume_take (by simp), resume_done]
      simp [Rc4Stream.crypt, Rc4Stream.new, acceptor, hbody, RC4_KEY_DROP_BYTES]
    · rename_i hnone
      have hpad : c.pad = [] := List.eq_nil_of_length_eq_zero (not_not.mp hnone)
      rw [hpad, crypt, resume_done]
      simp [Rc4Stream.crypt, Rc4Stream.new, acceptor, hbody, hpad, RC4_KEY_DROP_BYTES]
  · obtain ⟨_, hmagicRaw, _⟩ | ⟨_, hmagicRaw, _⟩ := hahead
    · exact .inl ⟨hmagicRaw, if_neg (by simp [hmagicRaw])⟩
    · exact .inr ⟨hmagicRaw, if_pos hmagicRaw⟩
  · obtain ⟨hkeyRaw, hmagicRaw, hstream⟩ | ⟨hkeyRaw, hmagicRaw, hstream⟩ := hahead
    · exact .inl ⟨hkeyRaw, by rw [hstream, if_neg (by simp [hmagicRaw])]⟩
    · exact .inr ⟨hkeyRaw, by rw [hstream, if_pos hmagicRaw]⟩

/-- The whole request takes the acceptor through its handshake and no byte is left. -/
theorem accept_request : resume c.accept c.request =
    (.done (.ok (crypt (c.arc4 c.server_key) RC4_KEY_DROP_BYTES c.response, c.acceptor)), []) := by
  rw [accept, request_eq, resume_take (by rfl)]
  split
  · rw [resume_take (length_encode 4 _), resume_take c.length_request_magic]
    exact c.accept_basic_client_eq (.inl ⟨rfl, rfl, rfl⟩)
  · exact c.accept_basic_client_eq (.inr ⟨rfl, rfl, rfl⟩)

theorem response_eq :
    c.response = [0xC4, 0x6F, 0x5E, 0x83, 0, UInt8.ofNat c.resp_pad.length] ++ c.resp_pad := by
  rw [response, encode_magic]
  rfl

theorem length_response : c.response.length = 6 + c.resp_pad.length := by
  rw [response_eq, List.length_append]
  rfl

/-- The header of the response is read as it was written, once it has come. -/
theorem peer_pad_len_eq (session : BasicObfuscationSession) {rest sent : Bytes}
    (htext : session._rx ++ rest = c.response ++ sent)
    (hknown : session._peer_pad_len = none ∨ session._peer_pad_len = some c.resp_pad.length) :
    (session.peer_pad_len = .ok none ∧ session._rx.length < 6) ∨
      session.peer_pad_len = .ok (some c.resp_pad.length) := by
  have hget : ∀ i < session._rx.length, session._rx.getD i 0 = (c.response ++ sent).getD i 0 := by
    intro i hi
    rw [← htext, List.getD_append _ _ _ _ hi]
  cases hknown with
  | inr hsome =>
    right
    rw [BasicObfuscationSession.peer_pad_len, hsome]
  | inl hnone =>
    have hmagic : session._rx.length ≥ 4 → decode (session._rx.take 4) = MAGICVALUE_SYNC := by
      intro hlength
      rw [← List.take_append_of_le_length hlength, htext, response, List.append_assoc,
        List.append_assoc, List.take_left' (length_encode 4 _), decode_encode (by decide)]
    rw [BasicObfuscationSession.peer_pad_len, hnone]
    simp only
    rw [if_neg (fun hwrong => hwrong.2 (hmagic hwrong.1)), BASIC_RESPONSE_HEADER]
    by_cases hheader : session._rx.length < 6
    · exact .inl ⟨if_pos hheader, hheader⟩
    · right
      rw [if_neg hheader, hget 4 (by omega), hget 5 (by omega), response_eq]
      change Except.ok (some (UInt8.ofNat c.resp_pad.length).toNat) = _
      rw [toNat_ofNat_of_le c.length_resp_pad]

/-- What a piece of the answer does to the dialer while it waits for the response. -/
theorem feed_response_eq {session : BasicObfuscationSession} {sender : Rc4Stream}
    {data wire rest sent : Bytes} (hstate : session._state = .negotiating)
    (hcarries : Rc4Stream.Carries c.arc4 sender session._recv (data ++ wire) rest)
    (htext : session._rx ++ rest = c.response ++ sent)
    (hshort : session._rx.length < c.response.length)
    (hknown : session._peer_pad_len = none ∨ session._peer_pad_len = some c.resp_pad.length) :
    let result := session.feed_response c.arc4 data
    result.2._send = session._send ∧
    Rc4Stream.Carries c.arc4 sender result.2._recv wire (rest.drop data.length) ∧
    ((result.1 = .ok none ∧ result.2._state = .negotiating ∧
        result.2._rx = session._rx ++ rest.take data.length ∧
        result.2._rx.length < c.response.length ∧
        (result.2._peer_pad_len = none ∨ result.2._peer_pad_len = some c.resp_pad.length)) ∨
      ∃ leftover, result.1 = .ok (some leftover) ∧ result.2._state = .encrypting ∧
        session._rx ++ rest.take data.length = c.response ++ leftover) := by
  intro result
  by_cases hempty : data = []
  · subst hempty
    have hresult : result = (.ok none, session) := by
      simp only [result]
      rw [BasicObfuscationSession.feed_response, if_neg (by simp [hstate]), if_pos rfl]
    rw [hresult]
    exact ⟨rfl, hcarries, .inl ⟨rfl, hstate, (List.append_nil _).symm, hshort, hknown⟩⟩
  · let fed : BasicObfuscationSession := { session with
      _rx := session._rx ++ rest.take data.length, _recv := (session._recv.crypt c.arc4 data).2 }
    have hfed : fed._rx ++ rest.drop data.length = c.response ++ sent := by
      rw [← htext, List.append_assoc, List.take_append_drop]
    have hresponse := c.length_response
    have hreceived := hcarries.receive
    obtain ⟨hpad, hheader⟩ | hpad := c.peer_pad_len_eq fed hfed hknown
    · have hresult : result = (.ok none, fed) := by
        simp only [result]
        rw [BasicObfuscationSession.feed_response, if_neg (by simp [hstate]), if_neg hempty]
        simp only [fed] at hpad
        simp only [hcarries.decrypt, hpad, fed]
      rw [hresult]
      exact ⟨rfl, hreceived, .inl ⟨rfl, hstate, rfl, by simp only; omega, hknown⟩⟩
    · have hresult : result =
          if fed._rx.length < BASIC_RESPONSE_HEADER + c.resp_pad.length then
            (.ok none, { fed with _peer_pad_len := some c.resp_pad.length })
          else (.ok (some (fed._rx.drop (BASIC_RESPONSE_HEADER + c.resp_pad.length))),
            { fed with _peer_pad_len := some c.resp_pad.length, _rx := [], _state := .encrypting }) := by
        simp only [result]
        rw [BasicObfuscationSession.feed_response, if_neg (by simp [hstate]), if_neg hempty]
        simp only [fed] at hpad
        simp only [hcarries.decrypt, hpad, fed]
      simp only [BASIC_RESPONSE_HEADER, ← hresponse] at hresult
      by_cases hwait : fed._rx.length < c.response.length
      · rw [if_pos hwait] at hresult
        rw [hresult]
        exact ⟨rfl, hreceived, .inl ⟨rfl, hstate, rfl, hwait, .inr rfl⟩⟩
      · rw [if_neg hwait] at hresult
        rw [hresult]
        refine ⟨rfl, hreceived, .inr ⟨_, rfl, rfl, ?_⟩⟩
        have hfront : fed._rx.take c.response.length = c.response := by
          have htake := congrArg (List.take c.response.length) hfed
          rwa [List.take_append_of_le_length (by omega), List.take_left] at htake
        change fed._rx = _
        rw [← List.take_append_drop c.response.length fed._rx, hfront]
        simp

end BasicConnection

end amuled.peer
