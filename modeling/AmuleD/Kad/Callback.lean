import AmuleD.Kad.BuddyRegistry
import AmuleD.Kad.Spider
import AmuleD.Streams.ExactRead

open exactread littleendian

namespace amuled.kad

def CLIENT_UDP_PROTOCOL : UInt8 := 0xC5

def KAD_CALLBACK_REQ_OPCODE : UInt8 := 0x52

def OP_CALLBACK : UInt8 := 0x99

/-- The protocol byte of a relayed frame. -/
def _EMULE_PROTOCOL : UInt8 := 0xC5

def build_kad_callback_req_payload (buddy_id file_hash : Bytes) (tcp_port : Int) : Except Exc Bytes :=
  if buddy_id.length ≠ 16 then .error (.ValueError "buddy id must be exactly 16 bytes")
  else if file_hash.length ≠ 16 then .error (.ValueError "file hash must be exactly 16 bytes")
  else if ¬ (0 ≤ tcp_port ∧ tcp_port ≤ 0xFFFF) then
    .error (.ValueError s!"tcp port out of UInt16 range: {tcp_port}")
  else .ok (buddy_id ++ file_hash ++ encode 2 tcp_port.toNat)

/-- The datagram that each attempt of `send_kad_callback_req` sends. -/
def callback_req_datagram (buddy_id file_hash : Bytes) (our_tcp_port : Int) : Except Exc Bytes := do
  let payload ← build_kad_callback_req_payload buddy_id file_hash our_tcp_port
  .ok ([CLIENT_UDP_PROTOCOL] ++ encode 4 (payload.length + 1) ++ [KAD_CALLBACK_REQ_OPCODE] ++ payload)

/-- The numbers between the dots of an address. -/
def octets (ip : String) : Option (List Nat) := (ip.splitOn ".").mapM String.toNat?

def build_op_callback_payload (kad_id_xor file_hash : Bytes) (requester_ip : String) (requester_tcp_port : Nat) :
    Except Exc Bytes :=
  match octets requester_ip with
  | some [a, b, c, d] =>
    let ip := a <<< 24 ||| b <<< 16 ||| c <<< 8 ||| d
    if ip < 2 ^ 32 then .ok (kad_id_xor ++ file_hash ++ encode 4 ip ++ encode 2 (requester_tcp_port % 2 ^ 16))
    else .error .StructError
  | _ => .error (.ValueError "not four numbers")

/-- `relay_op_callback`: the frame that is written, with the transport that it is written to. -/
def BuddyRegistry.relay_op_callback (registry : BuddyRegistry) (ucheck file_hash : Bytes) (requester_ip : String)
    (requester_tcp_port : Nat) : Except Exc (Option (Nat × Bytes)) :=
  match registry.lookup ucheck with
  | none => .ok none
  | some buddy => do
    let payload ← build_op_callback_payload buddy.kad_id_xor file_hash requester_ip requester_tcp_port
    .ok (some (buddy.writer, [_EMULE_PROTOCOL] ++ encode 4 (payload.length + 1) ++ [OP_CALLBACK] ++ payload))

/-- `_read_frame`: the opcode and the body of a frame. -/
def read_frame : Reader UInt8 Bytes :=
  .take 6 fun hdr =>
    let length := decode (hdr.extract 1 5)
    let opcode := hdr.getD 5 0
    if length ≤ 1 then .done [opcode] else .take (length - 1) fun body => .done (opcode :: body)

/-- The dial-back, if any, with which a frame is answered. -/
def answer_frame : Bytes → Except Exc (List (String × Nat))
  | [] => .ok []
  | opcode :: body =>
    if opcode = OP_CALLBACK then
      if body.length < 36 then .ok []
      else if body.length < 38 then .error .StructError
      else .ok [(ip_to_str (decode (body.extract 32 36)), decode (body.extract 36 38))]
    else .ok []

/-- The first frames of what a channel carries until it is closed, with the exception that ends the loop. -/
def relay_frames : Nat → Bytes → List (String × Nat) × Option Exc
  | 0, _ => ([], none)
  | count + 1, stream =>
    match resume read_frame stream with
    | (.take _ _, _) => ([], none)
    | (.done frame, rest) =>
      match answer_frame frame with
      | .error e => ([], some e)
      | .ok dials => (dials ++ (relay_frames count rest).1, (relay_frames count rest).2)

/-- `_relay_loop`: the dial-backs. Each frame has at least one byte. -/
def relay_loop (stream : Bytes) : List (String × Nat) × Option Exc := relay_frames stream.length stream

section Relay

variable {a b c d : Nat} {file_hash kad_id_xor : Bytes} {requester_ip : String} {requester_tcp_port : Nat}

theorem octets_join (hb : b < 256) (hc : c < 256) (hd : d < 256) :
    a <<< 24 ||| b <<< 16 ||| c <<< 8 ||| d = a * 2 ^ 24 + b * 2 ^ 16 + c * 2 ^ 8 + d := by
  have hlow : c <<< 8 ||| d = c * 2 ^ 8 + d := by
    rw [← Nat.shiftLeft_add_eq_or_of_lt (by omega), Nat.shiftLeft_eq]
  have hmiddle : b <<< 16 ||| (c <<< 8 ||| d) = b * 2 ^ 16 + (c * 2 ^ 8 + d) := by
    rw [hlow, ← Nat.shiftLeft_add_eq_or_of_lt (by omega), Nat.shiftLeft_eq]
  have hwhole : a <<< 24 ||| (b <<< 16 ||| (c <<< 8 ||| d)) = a * 2 ^ 24 + (b * 2 ^ 16 + (c * 2 ^ 8 + d)) := by
    rw [hmiddle, ← Nat.shiftLeft_add_eq_or_of_lt (by omega), Nat.shiftLeft_eq]
  rw [Nat.or_assoc, Nat.or_assoc, hwhole]
  omega

/-- The number of four octets is written with the same octets. -/
theorem ip_to_str_octets (ha : a < 256) (hb : b < 256) (hc : c < 256) (hd : d < 256) :
    ip_to_str (a * 2 ^ 24 + b * 2 ^ 16 + c * 2 ^ 8 + d) = s!"{a}.{b}.{c}.{d}" := by
  have ha' : (a * 2 ^ 24 + b * 2 ^ 16 + c * 2 ^ 8 + d) / 2 ^ 24 % 256 = a := by omega
  have hb' : (a * 2 ^ 24 + b * 2 ^ 16 + c * 2 ^ 8 + d) / 2 ^ 16 % 256 = b := by omega
  have hc' : (a * 2 ^ 24 + b * 2 ^ 16 + c * 2 ^ 8 + d) / 2 ^ 8 % 256 = c := by omega
  have hd' : (a * 2 ^ 24 + b * 2 ^ 16 + c * 2 ^ 8 + d) % 256 = d := by omega
  rw [ip_to_str, ha', hb', hc', hd']

/-- A frame in front of others is read with its body, and the others stay in the channel. -/
theorem resume_read_frame {length : Nat} {body : Bytes} (opcode protocol : UInt8) (hlength : length < 2 ^ 32)
    (hbody : body.length = length - 1) (rest : Bytes) :
    resume read_frame ([protocol] ++ encode 4 length ++ [opcode] ++ body ++ rest) = (.done (opcode :: body), rest) := by
  have hheader : ([protocol] ++ encode 4 length ++ [opcode]).length = 6 := by simp
  have hfield : decode (([protocol] ++ encode 4 length ++ [opcode]).extract 1 5) = length := by
    rw [List.append_assoc, extract_piece (by simp) (by simp), decode_encode (by omega)]
  have hopcode : ([protocol] ++ encode 4 length ++ [opcode]).getD 5 0 = opcode := by
    rw [List.getD_append_right _ _ _ _ (by simp)]
    simp
  rw [read_frame, List.append_assoc, resume_take hheader, hfield, hopcode]
  by_cases hempty : length ≤ 1
  · have hnil : body = [] := List.eq_nil_of_length_eq_zero (by omega)
    subst hnil
    rw [if_pos hempty, resume_done, List.nil_append]
  · rw [if_neg hempty, resume_take hbody, resume_done]

/-- What `_relay_loop` does with a frame in front of others. -/
theorem relay_frames_append {body : Bytes} {opcode protocol : UInt8} (hbody : body.length + 1 < 2 ^ 32) (count : Nat)
    (rest : Bytes) :
    relay_frames (count + 1) ([protocol] ++ encode 4 (body.length + 1) ++ [opcode] ++ body ++ rest) =
      match answer_frame (opcode :: body) with
      | .error e => ([], some e)
      | .ok dials => (dials ++ (relay_frames count rest).1, (relay_frames count rest).2) := by
  rw [relay_frames, resume_read_frame opcode protocol hbody (by omega)]

/-- A frame that the registry relays is answered with one dial-back to the requester. -/
theorem relay_op_callback_dialed {registry : BuddyRegistry} {ucheck : Bytes} {writer : Nat} {wire : Bytes}
    (hrelay : registry.relay_op_callback ucheck file_hash requester_ip requester_tcp_port = .ok (some (writer, wire)))
    (hoctets : octets requester_ip = some [a, b, c, d]) (ha : a < 256) (hb : b < 256) (hc : c < 256) (hd : d < 256)
    (hport : requester_tcp_port < 2 ^ 16) (hids : ∀ buddy, registry.lookup ucheck = some buddy →
      buddy.kad_id_xor.length = 16) (hhash : file_hash.length = 16) (count : Nat) (rest : Bytes) :
    relay_frames (count + 1) (wire ++ rest) =
      ((s!"{a}.{b}.{c}.{d}", requester_tcp_port) :: (relay_frames count rest).1, (relay_frames count rest).2) := by
  rw [BuddyRegistry.relay_op_callback] at hrelay
  cases hlookup : registry.lookup ucheck with
  | none =>
    rw [hlookup] at hrelay
    cases hrelay
  | some buddy =>
    have hid := hids buddy hlookup
    have hsum : a * 2 ^ 24 + b * 2 ^ 16 + c * 2 ^ 8 + d < 2 ^ 32 := by omega
    have hpayload : build_op_callback_payload buddy.kad_id_xor file_hash requester_ip requester_tcp_port =
        .ok (buddy.kad_id_xor ++ file_hash ++ encode 4 (a * 2 ^ 24 + b * 2 ^ 16 + c * 2 ^ 8 + d) ++
          encode 2 requester_tcp_port) := by
      simp only [build_op_callback_payload, hoctets, octets_join hb hc hd, if_pos hsum, Nat.mod_eq_of_lt hport]
    rw [hlookup] at hrelay
    simp only [hpayload, ok_bind] at hrelay
    cases hrelay
    have hip : (buddy.kad_id_xor ++ file_hash ++ encode 4 (a * 2 ^ 24 + b * 2 ^ 16 + c * 2 ^ 8 + d) ++
        encode 2 requester_tcp_port).extract 32 36 = encode 4 (a * 2 ^ 24 + b * 2 ^ 16 + c * 2 ^ 8 + d) := by
      rw [List.append_assoc (buddy.kad_id_xor ++ file_hash)]
      exact extract_piece (by simp [hid, hhash]) (by simp)
    have htcp : (buddy.kad_id_xor ++ file_hash ++ encode 4 (a * 2 ^ 24 + b * 2 ^ 16 + c * 2 ^ 8 + d) ++
        encode 2 requester_tcp_port).extract 36 38 = encode 2 requester_tcp_port := by
      rw [← List.append_nil (encode 2 requester_tcp_port)]
      exact extract_piece (by simp [hid, hhash]) (by simp)
    rw [relay_frames_append (by simp [hid, hhash]), answer_frame, if_pos rfl, if_neg (by simp [hid, hhash]),
      if_neg (by simp [hid, hhash]), hip, htcp, decode_encode (by omega), decode_encode (by omega),
      ip_to_str_octets ha hb hc hd]
    rfl

end Relay

/-- A request for a callback: what `send_kad_callback_req` is given, and its datagram as the buddy receives it. -/
structure CallbackRequest where
  buddy_id : Bytes
  file_hash : Bytes
  tcp_port : Int
  received : Received

/-- The datagram is the one that was sent. -/
def CallbackRequest.Sent (request : CallbackRequest) : Prop :=
  callback_req_datagram request.buddy_id request.file_hash request.tcp_port = .ok request.received.data

/-- The frames that the registry writes for the requests that the receiver hands to it. -/
def relayed_frames (registry : BuddyRegistry) (relayed : List (CallbackReq × String)) : List (Nat × Bytes) :=
  relayed.filterMap fun (request, ip) =>
    match registry.relay_op_callback request.ucheck request.file_hash ip request.requester_tcp with
    | .ok frame => frame
    | .error _ => none

section EndToEnd

variable (host : Host) (spider : Spider) (registry : BuddyRegistry)

/-- The frames that the datagrams of requests put on the channel of a client. -/
def frames_to (writer : Nat) (requests : List CallbackRequest) : List Bytes :=
  let after := (spider.receiver host (requests.map CallbackRequest.received)).1
  ((relayed_frames registry (after.relayed.drop spider.relayed.length)).filter fun frame => frame.1 = writer).map
    Prod.snd

/-- Each request puts one frame on the channel of the client, and is answered with one dial-back to the requester. -/
structure Answered (writer : Nat) (requests : List CallbackRequest) : Prop where
  frames : (frames_to host spider registry writer requests).length = requests.length
  dialed : (relay_loop (frames_to host spider registry writer requests).flatten).1 =
    requests.map fun request => (request.received.addr.1, request.tcp_port.toNat)

/-- The datagram of a request has the protocol byte of another protocol, and is no obfuscated one. -/
theorem decode_datagram_callback_req {request : CallbackRequest} (hsent : request.Sent) :
    decode_datagram host request.received = none := by
  obtain ⟨payload, _, hwire⟩ := bind_eq_ok_iff.mp hsent
  have hdata : request.received.data =
      CLIENT_UDP_PROTOCOL :: (encode 4 (payload.length + 1) ++ [KAD_CALLBACK_REQ_OPCODE] ++ payload) := by
    rw [← Except.ok.inj hwire]
    rfl
  have hopen : open_packet host request.received.data = some (CLIENT_UDP_PROTOCOL, UInt8.ofNat (payload.length + 1),
      encode 3 ((payload.length + 1) / 256) ++ [KAD_CALLBACK_REQ_OPCODE] ++ payload) := by
    rw [hdata]
    rfl
  have hplain : ∀ ip port, decode_obfuscated_kad host.md5 host.arc4 request.received.data host.own.to_bytes none ip
      port = none := by
    intro ip port
    rw [decode_obfuscated_kad, hdata, List.headD_cons, if_pos (show CLIENT_UDP_PROTOCOL ∈ PLAIN_PROTOCOL_BYTES by decide),
      ite_self]
  have hother : ¬ (CLIENT_UDP_PROTOCOL = KAD_PROTOCOL ∨ CLIENT_UDP_PROTOCOL = KAD_PROTOCOL_PACKED) := by decide
  simp only [decode_datagram, hopen, if_neg hother, hplain]

theorem receive_callback_req {request : CallbackRequest} (hsent : request.Sent) :
    spider.receive host request.received = (spider, none) := by
  rw [Spider.receive, decode_datagram_callback_req host hsent]

/-- No request is answered: none of the datagrams reaches the registry. -/
theorem callback_reqs_answered_iff (writer : Nat) (requests : List CallbackRequest)
    (hsent : ∀ request ∈ requests, request.Sent) :
    Answered host spider registry writer requests ↔ requests = [] := by
  have hunchanged : spider.receiver host (requests.map CallbackRequest.received) = (spider, none) := by
    induction requests with
    | nil => rfl
    | cons request rest ih =>
      rw [List.forall_mem_cons] at hsent
      rw [List.map_cons, Spider.receiver, receive_callback_req host spider hsent.1]
      exact ih hsent.2
  have hnothing : frames_to host spider registry writer requests = [] := by
    rw [frames_to, hunchanged, List.drop_length]
    rfl
  constructor
  · intro h
    have hlength := h.frames
    rw [hnothing] at hlength
    exact List.eq_nil_of_length_eq_zero hlength.symm
  · rintro rfl
    constructor
    · rw [hnothing]
      rfl
    · rw [hnothing]
      rfl

end EndToEnd

/-- A request for the client that registered the KadID of sixteen ones over its transport. -/
def sampleCallback : CallbackRequest where
  buddy_id := List.replicate 16 1
  file_hash := List.replicate 16 2
  tcp_port := 4662
  received := sampleReceived ([0xC5, 35, 0, 0, 0, 0x52] ++ List.replicate 16 1 ++ List.replicate 16 2 ++ [0x36, 0x12])

theorem sent_sampleCallback : sampleCallback.Sent := rfl

/-- It is not answered. -/
theorem callback_reqs_answered_iff_sample :
    ¬ Answered sampleHost sampleSpider (BuddyRegistry.new.register (List.replicate 16 1) "192.0.2.7" 4662 1) 1
      [sampleCallback] := by
  intro h
  have hsent : ∀ request ∈ [sampleCallback], request.Sent := by
    intro request hrequest
    rw [List.mem_singleton.mp hrequest]
    exact sent_sampleCallback
  have hnone := (callback_reqs_answered_iff sampleHost sampleSpider _ 1 [sampleCallback] hsent).mp h
  cases hnone

/-- The registered client gets no frame for the request, and dials nobody. -/
theorem sample_callback_unanswered :
    sampleCallback.Sent ∧
      ((BuddyRegistry.new.register (List.replicate 16 1) "192.0.2.7" 4662 1).lookup (List.replicate 16 1)).map
        ServedBuddy.writer = some 1 ∧
      ¬ Answered sampleHost sampleSpider (BuddyRegistry.new.register (List.replicate 16 1) "192.0.2.7" 4662 1) 1
        [sampleCallback] := by
  refine ⟨rfl, by decide +kernel, ?_⟩
  intro h
  have hframes : frames_to sampleHost sampleSpider
      (BuddyRegistry.new.register (List.replicate 16 1) "192.0.2.7" 4662 1) 1 [sampleCallback] = [] := by
    decide +kernel
  have hlength := h.frames
  rw [hframes] at hlength
  cases hlength

end amuled.kad
