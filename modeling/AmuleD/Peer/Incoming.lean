import Mathlib.Logic.Function.Basic
import AmuleD.Peer.PartPackets
import AmuleD.Upload.Slots

namespace amuled.peer

open amuled.upload

def STARTUPLOADREQ : UInt8 := 0x54

/-- The hash of a user or of a file. -/
abbrev Hash16 := { raw : Bytes // raw.length = 16 }

def parse_file_hash_payload (payload : Bytes) : Except Exc Hash16 :=
  if hlength : payload.length = 16 then .ok ⟨payload, hlength⟩
  else if payload.length < 16 then
    .error (.PeerCodecError ("malformed hash payload: unexpected end of data: need 16 bytes at pos 0, " ++
      s!"only {payload.length} remaining"))
  else .error (.PeerCodecError s!"unexpected {payload.length - 16} trailing bytes after hash16")

/-- What the queue learns of a peer from its HELLO. -/
structure Requester where
  user_hash : Hash16
  client_id : Nat
  client_port : Nat
  nickname : String

/-- The queue's key of a peer and a file. -/
def Requester.key (hello : Requester) (file_hash : Hash16) : Key :=
  (hex_lower hello.user_hash.val, hex_lower file_hash.val)

/-- Where the `run` of a session is. A session that is served knows the file of its
`granted_key`, where it has one. -/
inductive Phase where
  | before_request
  | queue_hold (file_hash : Hash16) (file_priority : Int)
  | serving (granted : Option Hash16) (file_priority : Int)
  | draining
  | ended
  deriving DecidableEq

/-- A session, with the keys under which it asked the queue for a slot. -/
structure Session where
  hello : Requester
  phase : Phase
  asked : List Key

/-- What `run` meets next: a packet, the end of the stream, the end of the rank period, or
an exception of the transport or of a handler. -/
inductive Received where
  | packet (opcode : UInt8) (payload : Bytes)
  | eof
  | timeout
  | exception

/-- What a step finds outside the session: the clock and the credits at each of its calls
of the queue, the priority of the shared file, and whether its path is a file. -/
structure Circumstances where
  moments : Nat → Moment
  resolved : Option Int
  source_opens : Bool

/-- The slot for a client that is at the head of the queue, where the grant succeeds. -/
def take_slot (queue : UploadQueue) (moment : Moment) (key : Key) : Option UploadQueue :=
  if queue.next_for_slot.map UploadClient.key = some key then
    (queue.grant_slot moment key.1 key.2).toOption
  else none

def enqueue_peer (queue : UploadQueue) (moment : Moment) (hello : Requester) (file_hash : Hash16)
    (file_priority : Int) : Except Exc UploadQueue := do
  let key := hello.key file_hash
  let (_, queue) ← queue.enqueue moment key.1 hello.client_id hello.client_port hello.nickname key.2
    file_priority
  .ok queue

/-- `_on_start_upload_request`, the hook of the upload engine. -/
def on_start_upload_request (queue : UploadQueue) (enqueued granted : Moment) (hello : Requester)
    (req_hash : Hash16) (file_priority : Int) : Except Exc UploadQueue := do
  let key := hello.key req_hash
  let active ← queue.is_active key.1 key.2
  if active then .ok queue
  else
    let queue ← enqueue_peer queue enqueued hello req_hash file_priority
    .ok ((take_slot queue granted key).getD queue)

namespace Session

def go (session : Session) (phase : Phase) : Session := { session with phase := phase }

def ask (session : Session) (file_hash : Hash16) : Session :=
  { session with asked := session.hello.key file_hash :: session.asked }

/-- A STARTUPLOADREQ inside the engine: an exception of the hook leaves the session. -/
def engine_request (session : Session) (queue : UploadQueue) (enqueued granted : Moment)
    (req_hash : Hash16) (file_priority : Int) : UploadQueue × Session :=
  match on_start_upload_request queue enqueued granted session.hello req_hash file_priority with
  | .ok queue => (queue, session.ask req_hash)
  | .error _ => (queue, session.go .ended)

/-- The accept path: the engine starts with the first STARTUPLOADREQ replayed. -/
def accept (session : Session) (queue : UploadQueue) (circumstances : Circumstances)
    (granted : Option Hash16) (file_hash : Hash16) (file_priority : Int) : UploadQueue × Session :=
  if circumstances.source_opens then
    (session.go (.serving granted file_priority)).engine_request queue (circumstances.moments 2)
      (circumstances.moments 3) file_hash file_priority
  else (queue, session.go .ended)

/-- The first STARTUPLOADREQ. -/
def request (session : Session) (queue : UploadQueue) (circumstances : Circumstances) (payload : Bytes) :
    UploadQueue × Session :=
  match parse_file_hash_payload payload, circumstances.resolved with
  | .error _, _ => (queue, session.go .ended)
  | .ok _, none => (queue, session.go .ended)
  | .ok file_hash, some file_priority =>
    let key := session.hello.key file_hash
    let asking := session.ask file_hash
    match queue.is_active key.1 key.2 with
    | .error _ => (queue, asking.go .ended)
    | .ok true => asking.accept queue circumstances none file_hash file_priority
    | .ok false =>
      match enqueue_peer queue (circumstances.moments 0) session.hello file_hash file_priority with
      | .error _ => (queue, asking.go .ended)
      | .ok queue =>
        match take_slot queue (circumstances.moments 1) key with
        | some queue => asking.accept queue circumstances (some file_hash) file_hash file_priority
        | none => (queue, asking.go (.queue_hold file_hash file_priority))

/-- A STARTUPLOADREQ of a session that is held in the queue. -/
def request_again (session : Session) (queue : UploadQueue) (circumstances : Circumstances)
    (file_hash : Hash16) (file_priority : Int) (payload : Bytes) : UploadQueue × Session :=
  match parse_file_hash_payload payload with
  | .error _ => (queue, session.go .ended)
  | .ok re_hash =>
    let re_key := session.hello.key re_hash
    let asking := session.ask re_hash
    match enqueue_peer queue (circumstances.moments 0) session.hello re_hash file_priority with
    | .error _ => (queue, asking.go .ended)
    | .ok queue =>
      match take_slot queue (circumstances.moments 1) re_key with
      | some queue => asking.accept queue circumstances (some re_hash) file_hash file_priority
      | none => (queue, asking)

/-- The end of the transfer: the slot that the session was granted is released. -/
def finish (session : Session) (queue : UploadQueue) (granted : Option Hash16) : UploadQueue × Session :=
  match granted with
  | none => (queue, session.go .draining)
  | some file_hash =>
    let key := session.hello.key file_hash
    match queue.release_slot key.1 key.2 with
    | .ok (_, queue) => (queue, session.go .draining)
    | .error _ => (queue, session.go .ended)

/-- One step of `IncomingPeerSession.run`. -/
def step (session : Session) (queue : UploadQueue) (circumstances : Circumstances) (received : Received) :
    UploadQueue × Session :=
  match session.phase, received with
  | .before_request, .packet opcode payload =>
    if opcode = STARTUPLOADREQ then session.request queue circumstances payload else (queue, session)
  | .before_request, .timeout => (queue, session)
  | .before_request, _ => (queue, session.go .ended)
  | .queue_hold file_hash file_priority, .timeout =>
    let key := session.hello.key file_hash
    match take_slot queue (circumstances.moments 1) key with
    | some queue => session.accept queue circumstances (some file_hash) file_hash file_priority
    | none => (queue, session)
  | .queue_hold file_hash file_priority, .packet opcode payload =>
    if opcode = STARTUPLOADREQ then
      session.request_again queue circumstances file_hash file_priority payload
    else if opcode = END_OF_DOWNLOAD then (queue, session.go .ended)
    else (queue, session)
  | .queue_hold _ _, _ => (queue, session.go .ended)
  | .serving granted file_priority, .packet opcode payload =>
    if opcode = END_OF_DOWNLOAD then session.finish queue granted
    else if opcode = STARTUPLOADREQ then
      if hlength : 16 ≤ payload.length then
        session.engine_request queue (circumstances.moments 0) (circumstances.moments 1)
          ⟨payload.take 16, List.length_take_of_le hlength⟩ file_priority
      else (queue, session)
    else (queue, session)
  | .serving granted _, .eof => session.finish queue granted
  | .serving _ _, .timeout => (queue, session)
  | .serving _ _, .exception => (queue, session.go .ended)
  | .draining, .packet _ _ => (queue, session)
  | .draining, .timeout => (queue, session)
  | .draining, _ => (queue, session.go .ended)
  | .ended, _ => (queue, session)

end Session

/-- The sessions of the listener and the queue that they share. -/
structure Listener where
  queue : UploadQueue
  sessions : Nat → Session

/-- A step of one session, or the kernel's timer that reclaims the expired slots. -/
inductive ListenerEvent where
  | session (i : Nat) (circumstances : Circumstances) (received : Received)
  | rotate (now : ℚ)

def reclaim (queue : UploadQueue) (key : Key) : UploadQueue :=
  match queue.release_slot key.1 key.2 with
  | .ok (_, queue) => queue
  | .error _ => queue

namespace Listener

def after (listener : Listener) : ListenerEvent → Listener
  | .session i circumstances received =>
    let stepped := (listener.sessions i).step listener.queue circumstances received
    ⟨stepped.1, Function.update listener.sessions i stepped.2⟩
  | .rotate now => { listener with queue := (listener.queue.expired_slots now).foldl reclaim listener.queue }

/-- A listener with an empty queue, and the peers that will connect to it. -/
def start (max_slots : Int) (slot_ttl : ℚ) (peers : Nat → Requester) : Listener :=
  ⟨.new max_slots slot_ttl, fun i => ⟨peers i, .before_request, []⟩⟩

def run (listener : Listener) (events : List ListenerEvent) : Listener := events.foldl after listener

end Listener

end amuled.peer
