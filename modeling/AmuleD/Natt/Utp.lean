import Mathlib.Algebra.Order.Ring.Rat
import AmuleD.Basic
import AmuleD.Bytes.LittleEndian
import AmuleD.OrderedDict

open littleendian

namespace amuled.natt

def UTP_VERSION : Nat := 1

def ST_DATA : Nat := 0

def ST_FIN : Nat := 1

def ST_STATE : Nat := 2

def ST_RESET : Nat := 3

def ST_SYN : Nat := 4

def HEADER_LEN : Nat := 20

def RETRANSMIT_INTERVAL : ℚ := 3 / 5

def MAX_RETRIES : Nat := 40

def WINDOW : Nat := 1 <<< 20

/-- What `_sent` holds for a FIN: `b"FIN"`. -/
def FIN : Bytes := [0x46, 0x49, 0x4E]

/-- What `_sent` holds for a SYN: `b"SYN"`. -/
def SYN : Bytes := [0x53, 0x59, 0x4E]

/-- A big-endian field. -/
def field (width value : Nat) : Bytes := (encode width value).reverse

/-- `_header`, with the clock in microseconds. -/
def header (now_us ptype conn_id seq ack : Nat) : Bytes :=
  [UInt8.ofNat (ptype <<< 4 ||| UTP_VERSION), 0] ++ field 2 (conn_id % 2 ^ 16) ++ field 4 (now_us % 2 ^ 32) ++
    field 4 0 ++ field 4 WINDOW ++ field 2 (seq % 2 ^ 16) ++ field 2 (ack % 2 ^ 16)

/-- The type, the numbers and the payload of a packet of this version. -/
def unpack (packet : Bytes) : Option (Nat × Nat × Nat × Bytes) :=
  if packet.length < HEADER_LEN then none
  else
    let first := (packet.getD 0 0).toNat
    if first % 16 ≠ UTP_VERSION then none
    else some (first >>> 4, decode (packet.extract 16 18).reverse, decode (packet.extract 18 20).reverse,
      packet.drop HEADER_LEN)

/-- `_retransmit_loop`: asleep, or on its way through the entries that it has listed. -/
inductive Retransmit where
  | asleep
  | listed (now : ℚ) (items : List (Nat × ℚ × Bytes))
  | sending (now : ℚ) (seq : Nat) (data : Bytes) (items : List (Nat × ℚ × Bytes))

/-- An endpoint. `_incoming` are all chunks that were put into the queue; `sending` are the sends that wait
for the wire callback, `closing` the closes that sleep and `acks` the scheduled acknowledgements. `outbox`
are the packets that were handed to the wire callback, and `log` numbers the chunks of `send`, with an
empty one for a FIN. -/
structure UtpStream where
  conn_id_send : Nat
  seq_nr : Nat
  ack_nr : Nat
  _sent : OrderedDict Nat (ℚ × Bytes)
  _reorder : OrderedDict Nat Bytes
  _fin_received : Bool
  _closed : Bool
  _connected_evt : Bool
  _incoming : List Bytes
  _eof_evt : Bool
  _retransmit_task : Retransmit
  sending : List (Nat × Bytes)
  closing : Nat
  acks : Nat
  outbox : List Bytes
  log : List (Nat × Bytes)

/-- The chunks of a list of numbered ones. -/
def payloads (log : List (Nat × Bytes)) : List Bytes := (log.map Prod.snd).filter fun chunk => chunk ≠ []

namespace UtpStream

variable (stream : UtpStream)

/-- The chunks that were sent. -/
def chunks : List Bytes := payloads stream.log

def send_packet (now_us ptype seq ack : Nat) (payload : Bytes) : UtpStream :=
  { stream with outbox := stream.outbox ++ [header now_us ptype stream.conn_id_send seq ack ++ payload] }

def fail : UtpStream :=
  { stream with _closed := true, _eof_evt := true, _retransmit_task := .asleep }

/-- `_incoming.put_nowait(payload)`, if there is one. -/
def put (payload : Bytes) : UtpStream :=
  if payload = [] then stream else { stream with _incoming := stream._incoming ++ [payload] }

/-- The loop that drains the reorder buffer, which loses an entry in each turn. -/
def drain (stream : UtpStream) : Nat → UtpStream
  | 0 => stream
  | turns + 1 =>
    let nxt := stream.ack_nr + 1
    match stream._reorder.get nxt with
    | none => stream
    | some chunk =>
      let popped := { stream with _reorder := stream._reorder.erase nxt }
      drain { popped.put chunk with ack_nr := nxt } turns

def on_fin : UtpStream := { stream with _fin_received := true, _eof_evt := true }

/-- The packet that was expected. -/
def on_next (ptype seq_nr : Nat) (payload : Bytes) : UtpStream :=
  let taken := { stream.put payload with ack_nr := seq_nr }
  let drained := taken.drain taken._reorder.entries.length
  if ptype = ST_FIN then drained.on_fin else drained

/-- A packet with a sequence number of its own. -/
def on_data (ptype seq_nr : Nat) (payload : Bytes) : UtpStream :=
  let taken :=
    if seq_nr = stream.ack_nr + 1 then stream.on_next ptype seq_nr payload
    else if seq_nr > stream.ack_nr + 1 then
      { stream with _reorder := stream._reorder.setDefault seq_nr payload }
    else stream
  let finished := if ptype = ST_FIN ∧ seq_nr ≤ taken.ack_nr then taken.on_fin else taken
  { finished with acks := finished.acks + 1 }

/-- The acknowledged packets are forgotten. -/
def on_ack (ack_nr : Nat) : UtpStream :=
  { stream with _sent := stream._sent.eraseAll (stream._sent.keys.filter fun seq => seq ≤ ack_nr) }

/-- `_on_wire_packet`. -/
def on_wire_packet (packet : Bytes) : UtpStream :=
  if stream._closed then stream
  else
    match unpack packet with
    | none => stream
    | some (ptype, seq_nr, ack_nr, payload) =>
      let acked := if ptype ∈ [ST_STATE, ST_DATA, ST_FIN] then stream.on_ack ack_nr else stream
      if ptype = ST_RESET then acked.fail
      else if ptype = ST_SYN then acked
      else if ptype = ST_STATE then { acked with _connected_evt := true }
      else acked.on_data ptype seq_nr payload

/-- The type under which an entry of `_sent` is sent again. -/
def resend_type (data : Bytes) : Nat := if data = FIN then ST_FIN else if data = SYN then ST_SYN else ST_DATA

/-- The payload under which an entry of `_sent` is sent again. -/
def resend_payload (data : Bytes) : Bytes := if data = FIN ∨ data = SYN then [] else data

end UtpStream

/-- What an endpoint does between two suspensions: a `send` or `close` up to the wire callback, the entry
that is recorded after it, the end of a `close`, an acknowledgement, the stages of the retransmission, and
a packet of the other side that arrives. -/
inductive UtpEvent where
  | send (chunk : Bytes) (now_us : Nat)
  | record (index : Nat) (now : ℚ)
  | close (now_us : Nat)
  | closed
  | ack (now_us : Nat)
  | wake (now : ℚ)
  | resend (now_us : Nat)
  | resent
  | deliver (index : Nat)

namespace UtpStream

variable (stream : UtpStream)

def send (chunk : Bytes) (now_us : Nat) : UtpStream :=
  if stream._closed then stream
  else
    let numbered := { stream with
      seq_nr := (stream.seq_nr + 1) % 2 ^ 16
      sending := stream.sending ++ [(stream.seq_nr, chunk)]
      log := stream.log ++ [(stream.seq_nr, chunk)] }
    numbered.send_packet now_us ST_DATA stream.seq_nr stream.ack_nr chunk

def record (index : Nat) (now : ℚ) : UtpStream :=
  match stream.sending[index]? with
  | none => stream
  | some (seq, data) =>
    { stream with _sent := stream._sent.set seq (now, data), sending := stream.sending.eraseIdx index }

def close (now_us : Nat) : UtpStream :=
  if stream._closed then stream
  else
    let numbered := { stream with
      seq_nr := (stream.seq_nr + 1) % 2 ^ 16
      sending := stream.sending ++ [(stream.seq_nr, FIN)]
      log := stream.log ++ [(stream.seq_nr, [])]
      closing := stream.closing + 1 }
    numbered.send_packet now_us ST_FIN stream.seq_nr stream.ack_nr []

/-- The end of a `close`. -/
def end_close : UtpStream := if stream.closing = 0 then stream else { stream with closing := stream.closing - 1 }.fail

/-- `_send_ack`. -/
def send_ack (now_us : Nat) : UtpStream :=
  if stream.acks = 0 then stream
  else { stream with acks := stream.acks - 1 }.send_packet now_us ST_STATE stream.seq_nr stream.ack_nr []

def wake (now : ℚ) : UtpStream :=
  match stream._closed, stream._retransmit_task with
  | false, .asleep => { stream with _retransmit_task := .listed now stream._sent.entries }
  | _, _ => stream

/-- The next entry that the retransmission has listed, up to the wire callback. -/
def resend (now_us : Nat) : UtpStream :=
  match stream._retransmit_task with
  | .listed _ [] => { stream with _retransmit_task := .asleep }
  | .listed now ((seq, sent_at, data) :: items) =>
    if now - sent_at > MAX_RETRIES * RETRANSMIT_INTERVAL then stream.fail
    else if now - sent_at ≥ RETRANSMIT_INTERVAL then
      { stream with _retransmit_task := .sending now seq data items }.send_packet now_us (resend_type data) seq
        stream.ack_nr (resend_payload data)
    else { stream with _retransmit_task := .listed now items }
  | _ => stream

/-- The entry that was sent again is recorded. -/
def resent : UtpStream :=
  match stream._retransmit_task with
  | .sending now seq data items =>
    { stream with _sent := stream._sent.set seq (now, data), _retransmit_task := .listed now items }
  | _ => stream

/-- One event, with the packets that the other side has sent. -/
def after (packets : List Bytes) : UtpEvent → UtpStream
  | .send chunk now_us => stream.send chunk now_us
  | .record index now => stream.record index now
  | .close now_us => stream.close now_us
  | .closed => stream.end_close
  | .ack now_us => stream.send_ack now_us
  | .wake now => stream.wake now
  | .resend now_us => stream.resend now_us
  | .resent => stream.resent
  | .deliver index =>
    match packets[index]? with
    | none => stream
    | some packet => stream.on_wire_packet packet

end UtpStream

/-- Two endpoints; the network holds whatever they have sent. -/
structure UtpLink where
  initiator : UtpStream
  acceptor : UtpStream

/-- The side at which something happens. -/
inductive Side where
  | initiator
  | acceptor

namespace UtpLink

def step (link : UtpLink) (event : Side × UtpEvent) : UtpLink :=
  match event with
  | (.initiator, event) => { link with initiator := link.initiator.after link.acceptor.outbox event }
  | (.acceptor, event) => { link with acceptor := link.acceptor.after link.initiator.outbox event }

def run (link : UtpLink) (events : List (Side × UtpEvent)) : UtpLink := events.foldl step link

/-- The endpoints when `connect` and `accept` have returned. The initiator's SYN is still unacknowledged if
it was recorded after its acknowledgement had come. -/
def connected (conn_id now_us : Nat) (syn_sent : OrderedDict Nat (ℚ × Bytes)) : UtpLink where
  initiator := {
    conn_id_send := conn_id, seq_nr := 2, ack_nr := 0, _sent := syn_sent, _reorder := .empty
    _fin_received := false, _closed := false, _connected_evt := true, _incoming := [], _eof_evt := false
    _retransmit_task := .asleep, sending := [], closing := 0, acks := 0
    outbox := [header now_us ST_SYN conn_id 1 0], log := [] }
  acceptor := {
    conn_id_send := (conn_id + 1) % 2 ^ 16, seq_nr := 1, ack_nr := 1, _sent := .empty, _reorder := .empty
    _fin_received := false, _closed := false, _connected_evt := true, _incoming := [], _eof_evt := false
    _retransmit_task := .asleep, sending := [], closing := 0, acks := 0
    outbox := [header now_us ST_STATE ((conn_id + 1) % 2 ^ 16) 1 1], log := [] }

end UtpLink

end amuled.natt
