import AmuleD.Codec.Struct
import AmuleD.Streams.ExactRead
import AmuleD.Streams.Keystream

open littleendian exactread

namespace amuled.peer

def MAGICVALUE_SYNC : Nat := 0x835E6FC4

def MAGICVALUE_REQUESTER : UInt8 := 34

def MAGICVALUE_SERVER : UInt8 := 203

def ENM_OBFUSCATION : Nat := 0

def RC4_KEY_DROP_BYTES : Nat := 1024

def PROHIBITED_MARKERS : List UInt8 := [0xE3, 0xD4, 0xC5]

def BASIC_RESPONSE_HEADER : Nat := 6

/-- Python's `bytes` of a sequence of integers. -/
def bytes_of (values : List Nat) : Except Exc Bytes :=
  if ∀ value ∈ values, value < 256 then .ok (values.map UInt8.ofNat)
  else .error (.ValueError "bytes must be in range(0, 256)")

/-- `_not_protocol_marker`, of the candidates that it draws. -/
def not_protocol_marker (candidates : List UInt8) : UInt8 :=
  ((candidates.take 128).find? fun candidate => candidate ∉ PROHIBITED_MARKERS).getD 0x01

/-- `Rc4Stream`: the keystream of a key is a parameter of the operations. -/
structure Rc4Stream where
  key : Bytes
  drop : Nat
  offset : Nat

def Rc4Stream.new (key : Bytes) (drop : Nat) : Rc4Stream := ⟨key, drop, 0⟩

def Rc4Stream.crypt (arc4 : Bytes → Nat → UInt8) (stream : Rc4Stream) (data : Bytes) :
    Bytes × Rc4Stream :=
  (keystream.crypt (arc4 stream.key) (stream.drop + stream.offset) data,
    { stream with offset := stream.offset + data.length })

structure NegotiationKeys where
  send_key : Bytes
  recv_key : Bytes
  send_pad_len : Nat
  recv_pad_len : Nat

def derive_basic_keys (md5 : Bytes → Bytes) (target_userhash : Bytes) (random_key_part : Nat) :
    Except Exc NegotiationKeys :=
  if target_userhash.length ≠ 16 then
    .error (.ObfuscationError
      s!"target_userhash must be exactly 16 bytes, got {target_userhash.length}")
  else if random_key_part > 0xFFFFFFFF then
    .error (.ObfuscationError
      s!"random_key_part must be in [0, 0xFFFFFFFF], got {random_key_part}")
  else do
    let random_key_bytes ← struct_pack 4 random_key_part
    let send_key := md5 (target_userhash ++ [MAGICVALUE_REQUESTER] ++ random_key_bytes)
    let recv_key := md5 (target_userhash ++ [MAGICVALUE_SERVER] ++ random_key_bytes)
    .ok ⟨send_key, recv_key, RC4_KEY_DROP_BYTES, RC4_KEY_DROP_BYTES⟩

inductive BasicState where
  | pending
  | negotiating
  | encrypting
  | failed
  deriving DecidableEq

def BasicState.name : BasicState → String
  | .pending => "pending"
  | .negotiating => "negotiating"
  | .encrypting => "encrypting"
  | .failed => "failed"

structure BasicObfuscationSession where
  _keys : NegotiationKeys
  _random_key_part : Nat
  _padding : Option Bytes
  _send : Rc4Stream
  _recv : Rc4Stream
  _state : BasicState
  _rx : Bytes
  _peer_pad_len : Option Nat

namespace BasicObfuscationSession

/-- `__init__`. -/
def new (md5 : Bytes → Bytes) (target_userhash : Bytes) (random_key_part : Nat)
    (padding : Option Bytes) : Except Exc BasicObfuscationSession :=
  if target_userhash.length ≠ 16 then
    .error (.ObfuscationError
      s!"target_userhash must be exactly 16 bytes, got {target_userhash.length}")
  else if random_key_part > 0xFFFFFFFF then
    .error (.ObfuscationError
      s!"random_key_part must be in [0, 0xFFFFFFFF], got {random_key_part}")
  else if (padding.getD []).length > 0xFF then
    .error (.ObfuscationError s!"padding length {(padding.getD []).length} exceeds 255")
  else do
    let keys ← derive_basic_keys md5 target_userhash random_key_part
    .ok { _keys := keys, _random_key_part := random_key_part, _padding := padding,
          _send := .new keys.send_key keys.send_pad_len,
          _recv := .new keys.recv_key keys.recv_pad_len,
          _state := .pending, _rx := [], _peer_pad_len := none }

def is_established (session : BasicObfuscationSession) : Bool := session._state = .encrypting

/-- `build_request`, of the padding and the marker candidates that it draws. -/
def build_request (arc4 : Bytes → Nat → UInt8) (session : BasicObfuscationSession)
    (drawn : Bytes) (candidates : List UInt8) : Except Exc (Bytes × BasicObfuscationSession) :=
  if session._state ≠ .pending then
    .error (.ObfuscationError s!"build_request called in state {session._state.name}")
  else do
    let pad := session._padding.getD drawn
    let marker := not_protocol_marker candidates
    let key_part ← struct_pack 4 session._random_key_part
    let magic ← struct_pack 4 MAGICVALUE_SYNC
    let methods ← bytes_of [ENM_OBFUSCATION, ENM_OBFUSCATION, pad.length]
    let crypted := session._send.crypt arc4 (magic ++ methods ++ pad)
    .ok ([marker] ++ key_part ++ crypted.1,
      { session with _send := crypted.2, _state := .negotiating })

/-- The padding length that the peer announced, when its header has come. -/
def peer_pad_len (session : BasicObfuscationSession) : Except Exc (Option Nat) :=
  match session._peer_pad_len with
  | some length => .ok (some length)
  | none =>
    let magic := decode (session._rx.take 4)
    if session._rx.length ≥ 4 ∧ magic ≠ MAGICVALUE_SYNC then
      .error (.ObfuscationError
        s!"wrong magic: got {hex_upper 8 magic}, expected {hex_upper 8 MAGICVALUE_SYNC}")
    else if session._rx.length < BASIC_RESPONSE_HEADER then .ok none
    else
      let method := (session._rx.getD 4 0).toNat
      if method ≠ ENM_OBFUSCATION then
        .error (.ObfuscationError (s!"unsupported encryption method: got {hex_upper 2 method}, " ++
          s!"expected {hex_upper 2 ENM_OBFUSCATION}"))
      else .ok (some (session._rx.getD 5 0).toNat)

/-- `feed_response`: what it returns or raises, and the session afterwards. -/
def feed_response (arc4 : Bytes → Nat → UInt8) (session : BasicObfuscationSession) (data : Bytes) :
    Except Exc (Option Bytes) × BasicObfuscationSession :=
  if session._state ≠ .negotiating then
    (.error (.ObfuscationError s!"feed_response called in state {session._state.name}"), session)
  else if data = [] then (.ok none, session)
  else
    let crypted := session._recv.crypt arc4 data
    let fed := { session with _rx := session._rx ++ crypted.1, _recv := crypted.2 }
    match fed.peer_pad_len with
    | .error e => (.error e, { fed with _state := .failed })
    | .ok none => (.ok none, fed)
    | .ok (some length) =>
      let total := BASIC_RESPONSE_HEADER + length
      if fed._rx.length < total then (.ok none, { fed with _peer_pad_len := some length })
      else (.ok (some (fed._rx.drop total)),
        { fed with _peer_pad_len := some length, _rx := [], _state := .encrypting })

def encrypt (arc4 : Bytes → Nat → UInt8) (session : BasicObfuscationSession) (data : Bytes) :
    Except Exc (Bytes × BasicObfuscationSession) :=
  if session._state ≠ .encrypting then
    .error (.ObfuscationError s!"encrypt called in state {session._state.name}")
  else
    let crypted := session._send.crypt arc4 data
    .ok (crypted.1, { session with _send := crypted.2 })

def decrypt (arc4 : Bytes → Nat → UInt8) (session : BasicObfuscationSession) (data : Bytes) :
    Except Exc (Bytes × BasicObfuscationSession) :=
  if session._state ≠ .encrypting then
    .error (.ObfuscationError s!"decrypt called in state {session._state.name}")
  else
    let crypted := session._recv.crypt arc4 data
    .ok (crypted.1, { session with _recv := crypted.2 })

end BasicObfuscationSession

structure AcceptorSession where
  _send : Rc4Stream
  _recv : Rc4Stream

namespace AcceptorSession

def encrypt (arc4 : Bytes → Nat → UInt8) (session : AcceptorSession) (wire : Bytes) :
    Bytes × AcceptorSession :=
  let crypted := session._send.crypt arc4 wire
  (crypted.1, { session with _send := crypted.2 })

def decrypt (arc4 : Bytes → Nat → UInt8) (session : AcceptorSession) (raw : Bytes) :
    Bytes × AcceptorSession :=
  let crypted := session._recv.crypt arc4 raw
  (crypted.1, { session with _recv := crypted.2 })

end AcceptorSession

/-- `_derive_acceptor_keys_own_hash`: the send key and the receive key. -/
def derive_acceptor_keys_own_hash (md5 : Bytes → Bytes) (own_userhash : Bytes) (keypart : Nat) :
    Bytes × Bytes :=
  let part := encode 4 keypart
  (md5 (own_userhash ++ [MAGICVALUE_SERVER] ++ part),
    md5 (own_userhash ++ [MAGICVALUE_REQUESTER] ++ part))

/-- The response that the acceptor writes. -/
def basic_response (resp_pad : Bytes) : Except Exc Bytes := do
  let magic ← struct_pack 4 MAGICVALUE_SYNC
  let methods ← bytes_of [ENM_OBFUSCATION, resp_pad.length]
  .ok (magic ++ methods ++ resp_pad)

/-- Bytes that the caller may have read ahead. -/
def read_unless {α : Type} (raw : Option Bytes) (count : Nat) (next : Bytes → Reader UInt8 α) :
    Reader UInt8 α :=
  match raw with
  | some data => next data
  | none => .take count next

/-- `accept_basic_client`: the bytes it writes and the session. -/
def accept_basic_client (md5 : Bytes → Bytes) (arc4 : Bytes → Nat → UInt8) (own_userhash : Bytes)
    (keypart_raw magic_raw padding : Option Bytes) (drawn : Bytes) :
    Reader UInt8 (Except Exc (Bytes × AcceptorSession)) :=
  if own_userhash.length ≠ 16 then
    .done (.error (.ObfuscationError "own_userhash must be exactly 16 bytes"))
  else read_unless keypart_raw 4 fun keypart_raw =>
    if keypart_raw.length ≠ 4 then
      .done (.error (.ObfuscationError s!"keypart truncated: {keypart_raw.length}"))
    else
      let keys := derive_acceptor_keys_own_hash md5 own_userhash (decode keypart_raw)
      read_unless magic_raw 4 fun magic_raw =>
        let magic := (Rc4Stream.new keys.2 RC4_KEY_DROP_BYTES).crypt arc4 magic_raw
        match struct_unpack 4 magic.1 with
        | .error e => .done (.error e)
        | .ok value =>
          if value ≠ MAGICVALUE_SYNC then
            .done (.error (.ObfuscationError (s!"BASIC magic mismatch: got {hex_upper 8 value}, " ++
              s!"expected {hex_upper 8 MAGICVALUE_SYNC}")))
          else .take 2 fun methods_raw =>
            let methods := magic.2.crypt arc4 methods_raw
            .take 1 fun padlen_raw =>
              let padlen := methods.2.crypt arc4 padlen_raw
              let finish (recv_stream : Rc4Stream) :=
                match basic_response (padding.getD drawn) with
                | .error e => .done (.error e)
                | .ok response =>
                  let sent := (Rc4Stream.new keys.1 RC4_KEY_DROP_BYTES).crypt arc4 response
                  .done (.ok (sent.1, ⟨sent.2, recv_stream⟩))
              if (padlen.1.headD 0).toNat ≠ 0 then
                .take (padlen.1.headD 0).toNat fun pad_raw => finish (padlen.2.crypt arc4 pad_raw).2
              else finish padlen.2

end amuled.peer
