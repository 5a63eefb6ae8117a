import Mathlib.Algebra.Order.Ring.Rat
import AmuleD.Codec.Packet
import AmuleD.Peer.Handshake

open littleendian

namespace amuled.peer

def MAX_PACKET_SIZE : Nat := 16 * 1024 * 1024

def HEADER_SIZE : Nat := 6

/-- The bytes that a session has not yet consumed: decrypted leftovers of the handshake,
and what is in its `StreamReader`, still encrypted where the session has a cipher. -/
structure FrameSource where
  _rx_plain : Bytes
  _obf : Option Rc4Stream
  _reader : Bytes

namespace FrameSource

variable (arc4 : Bytes → Nat → UInt8)

/-- The cipher of one direction, where the session has one. -/
def crypt_with (obf : Option Rc4Stream) (raw : Bytes) : Bytes × Option Rc4Stream :=
  match obf with
  | none => (raw, none)
  | some stream =>
    let crypted := stream.crypt arc4 raw
    (crypted.1, some crypted.2)

/-- `_read_exact` and `_read_wire`, or `none` while `readexactly` waits, in which nothing
is consumed. -/
def read_exact (n : Nat) (source : FrameSource) : Option (Bytes × FrameSource) :=
  let take := min n source._rx_plain.length
  if n - take ≤ source._reader.length then
    let head := source._rx_plain.take take
    let plain := crypt_with arc4 source._obf (source._reader.take (n - take))
    some (head ++ plain.1, ⟨source._rx_plain.drop take, plain.2, source._reader.drop (n - take)⟩)
  else none

end FrameSource

/-- The size of the payload that a header announces. -/
def announced_size (below_one exceeds : Nat → Exc) (header : Bytes) : Except Exc Nat :=
  let packet_length := decode (header.extract 1 5)
  if packet_length < 1 then .error (below_one packet_length)
  else
    let payload_size := packet_length - 1
    if payload_size > MAX_PACKET_SIZE then .error (exceeds payload_size) else .ok payload_size

/-- An exception that leaves a receive, and whether the session is over with it. -/
structure Failure where
  error : Exc
  ends : Bool

/-- The three places that receive framed packets. -/
inductive Receiver where
  | peer_client
  | stream_transport (_protocol : UInt8) (_allow_emule_protocol : Bool)
  | server_client

namespace Receiver

/-- `PeerClient._receive` on a header. -/
def peer_client_size (header : Bytes) : Except Exc Nat :=
  announced_size (fun length => .PeerSessionError s!"peer packet length below one: {length}")
    (fun size => .PeerSessionError s!"peer packet exceeds size limit: {size}") header

/-- `StreamTransport.recv` on a header. -/
def stream_transport_size (_protocol : UInt8) (_allow_emule_protocol : Bool) (header : Bytes) :
    Except Exc Nat :=
  let protocol_byte := header.getD 0 0
  if protocol_byte ≠ _protocol ∧ ¬(_allow_emule_protocol = true ∧ protocol_byte = EMULE) then
    .error (.ListenerError (s!"protocol byte mismatch: expected {hex_upper 2 _protocol.toNat}, " ++
      s!"got {hex_upper 2 protocol_byte.toNat}"))
  else announced_size (fun length => .ListenerError s!"packet length below one: {length}")
    (fun size => .ListenerError s!"packet exceeds {MAX_PACKET_SIZE} bytes: payload_size={size}") header

/-- `Ed2kServerClient._receive_packet` on a header. -/
def server_client_size (header : Bytes) : Except Exc Nat :=
  announced_size (fun length => .ServerSessionError s!"ED2K packet length is below one: {length}")
    (fun size => .ServerSessionError s!"ED2K packet exceeds size limit: {size}") header

/-- The payload size of a header. Only the listener ends its session with an error here. -/
def payload_size (receiver : Receiver) (header : Bytes) : Except Failure Nat :=
  match receiver with
  | .peer_client => (peer_client_size header).mapError (⟨·, false⟩)
  | .stream_transport _protocol _allow_emule_protocol =>
    (stream_transport_size _protocol _allow_emule_protocol header).mapError (⟨·, true⟩)
  | .server_client => (server_client_size header).mapError (⟨·, false⟩)

/-- The packet of a header and its payload. The server client unpacks it, and closes the
session where it cannot. -/
def finish (decompressobj : DecompressObj) (receiver : Receiver) (header payload : Bytes) :
    Except Failure Packet :=
  match receiver with
  | .server_client =>
    match unpack_packet decompressobj (header ++ payload) with
    | .ok (packet, _) => .ok packet
    | .error (.PacketError e) => .error ⟨.ServerSessionError s!"invalid ED2K packet received: {e}", true⟩
    | .error e => .error ⟨e, false⟩
  | _ => .ok ⟨header.getD 0 0, header.getD 5 0, payload⟩

/-- A server receive whose timeout is not positive returns before it reads. -/
def starts (receiver : Receiver) (timeout : ℚ) : Bool :=
  match receiver with
  | .server_client => 0 < timeout
  | _ => true

end Receiver

/-- Where a receive waits: for a header, or for the payload of a header that it has read. -/
inductive Call where
  | header
  | payload (header : Bytes) (payload_size : Nat)

/-- A session with the remote side's cipher and the bytes on the wire, and what was sent,
returned and raised so far. -/
structure FramedSession where
  source : FrameSource
  call : Option Call
  connected : Bool
  remote : Option Rc4Stream
  wire : Bytes
  sent : List Packet
  returned : List Packet
  raised : List Exc

/-- What happens to a session. A receive may time out, or be cancelled, wherever it waits. -/
inductive FrameEvent where
  | send (frame : Packet)
  | deliver (count : Nat)
  | receive (timeout : ℚ)
  | time_out
  | disconnect

namespace FramedSession

open FrameSource

variable (arc4 : Bytes → Nat → UInt8) (decompressobj : DecompressObj) (receiver : Receiver)

/-- The remote side sends a frame, where it can be encoded. -/
def send (s : FramedSession) (frame : Packet) : FramedSession :=
  match encode_packet frame with
  | .error _ => s
  | .ok encoded =>
    let crypted := crypt_with arc4 s.remote encoded
    { s with wire := s.wire ++ crypted.1, remote := crypted.2, sent := s.sent ++ [frame] }

/-- A receive returns or raises. -/
def conclude (s : FramedSession) (source : FrameSource) (result : Except Failure Packet) :
    FramedSession :=
  match result with
  | .ok packet => { s with source := source, call := none, returned := s.returned ++ [packet] }
  | .error failure => { s with source := source, call := none, raised := s.raised ++ [failure.error],
                               connected := s.connected && !failure.ends }

/-- A receive that has its header reads the payload. -/
def read_payload (s : FramedSession) (source : FrameSource) (header : Bytes) (size : Nat) :
    FramedSession :=
  match source.read_exact arc4 size with
  | none => { s with source := source, call := some (.payload header size) }
  | some (payload, source) => s.conclude source (receiver.finish decompressobj header payload)

/-- A receive goes on as far as the bytes in the reader allow. -/
def progress (s : FramedSession) : FramedSession :=
  match s.call with
  | none => s
  | some (.payload header size) => s.read_payload arc4 decompressobj receiver s.source header size
  | some .header =>
    match s.source.read_exact arc4 HEADER_SIZE with
    | none => s
    | some (header, source) =>
      match receiver.payload_size header with
      | .error failure => s.conclude source (.error failure)
      | .ok size =>
        if size = 0 then s.conclude source (receiver.finish decompressobj header [])
        else s.read_payload arc4 decompressobj receiver source header size

/-- A timeout ends the receive and keeps the session. -/
def step (s : FramedSession) : FrameEvent → FramedSession
  | .send frame => s.send arc4 frame
  | .deliver count =>
    { s with source := { s.source with _reader := s.source._reader ++ s.wire.take count },
             wire := s.wire.drop count }.progress arc4 decompressobj receiver
  | .receive timeout =>
    if s.connected && s.call.isNone && receiver.starts timeout then
      { s with call := some .header }.progress arc4 decompressobj receiver
    else s
  | .time_out => { s with call := none }
  | .disconnect => { s with call := none, connected := false }

/-- The first bytes on the wire come with the handshake, which decrypts them. -/
def hand_over (s : FramedSession) (count : Nat) : FramedSession :=
  let plain := crypt_with arc4 s.source._obf (s.wire.take count)
  { s with source := { s.source with _rx_plain := s.source._rx_plain ++ plain.1, _obf := plain.2 },
           wire := s.wire.drop count }

/-- A session after its handshake. The remote side may have sent frames already, of which
some bytes came with the handshake. -/
def start (stream : Option Rc4Stream) (early : List Packet) (leftover : Nat) : FramedSession :=
  (early.foldl (send arc4)
    { source := ⟨[], stream, []⟩, call := none, connected := true, remote := stream, wire := [],
      sent := [], returned := [], raised := [] }).hand_over arc4 leftover

end FramedSession

end amuled.peer
