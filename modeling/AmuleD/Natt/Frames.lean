import AmuleD.Codec.Struct
import AmuleD.Natt.Rendezvous

open littleendian

namespace amuled.natt

def UDP_PROTOCOL : UInt8 := 0xC5

def OP_HOLEPUNCH : UInt8 := 0xA1

def NATT_FRAME_QUIC : UInt8 := 0x01

def wrap_natt_frame (frame_opcode : UInt8) (payload : Bytes) : Except Exc Bytes := do
  let body := [UDP_RESERVEDPROT2, frame_opcode] ++ payload
  let length ← struct_pack 4 (body.length + 1)
  return [UDP_PROTOCOL] ++ length ++ body

def unwrap_natt_frame (datagram : Bytes) : Option (UInt8 × Bytes) :=
  if datagram.length < 8 ∨ datagram.headD 0 ≠ UDP_PROTOCOL ∨ datagram.getD 5 0 ≠ UDP_RESERVEDPROT2 then none
  else
    let body := datagram.extract 6 (5 + decode (datagram.extract 1 5))
    if body.length < 2 then none else some (body.headD 0, body.tail)

/-- `_WrappingTransport.sendto`. -/
def sendto (data : Bytes) : Except Exc Bytes := wrap_natt_frame NATT_FRAME_QUIC data

/-- `build_client_udp_packet`, with the error of a length that its field does not hold. -/
def client_udp_packet (opcode : UInt8) (payload : Bytes) : Except Exc Bytes :=
  if payload.length + 1 < 256 ^ 4 then .ok (build_client_udp_packet opcode payload) else .error .StructError

/-- What the demultiplexer makes of a datagram. -/
inductive Demultiplexed where
  | dropped
  | holepunch
  | endpoint_hint (payload : Bytes)
  | reserved_frame (frame_op : UInt8) (body : Bytes)
  deriving DecidableEq

def on_reserved_frame : Bytes → Demultiplexed
  | [] => .dropped
  | frame_op :: body => .reserved_frame frame_op body

theorem eq_of_on_reserved_frame {payload : Bytes} {frame_op : UInt8} {body : Bytes}
    (hframe : on_reserved_frame payload = .reserved_frame frame_op body) : payload = frame_op :: body := by
  cases payload with
  | nil => cases hframe
  | cons first rest =>
    cases hframe
    rfl

/-- `datagram_received`, up to the handlers. -/
def demultiplex (data : Bytes) : Demultiplexed :=
  match parse_client_udp_packet data with
  | none => .dropped
  | some (opcode, payload) =>
    if opcode = OP_HOLEPUNCH then .holepunch
    else if opcode = OP_NATT_ENDPOINT_HINT then .endpoint_hint payload
    else if opcode = UDP_RESERVEDPROT2 then on_reserved_frame payload
    else .dropped

/-- The handlers that reach the futures. -/
def NattUdpSession.handle (session : NattUdpSession) (addr : Endpoint) : Demultiplexed → NattUdpSession
  | .endpoint_hint payload => session.on_endpoint_hint payload
  | .reserved_frame frame_op body =>
    if frame_op = NATT_FRAME_CAPS ∨ frame_op = NATT_FRAME_CAPS_ACK then
      session.on_caps body addr (frame_op = NATT_FRAME_CAPS_ACK)
    else session
  | .dropped => session
  | .holepunch => session

theorem NattUdpSession.datagram_received_eq_handle (session : NattUdpSession) (data : Bytes) (addr : Endpoint) :
    session.datagram_received data addr = session.handle addr (demultiplex data) := by
  rw [datagram_received, demultiplex]
  cases parse_client_udp_packet data with
  | none => rfl
  | some packet =>
    obtain ⟨opcode, payload⟩ := packet
    by_cases hpunch : opcode = OP_HOLEPUNCH
    · subst hpunch
      rfl
    · by_cases hhint : opcode = OP_NATT_ENDPOINT_HINT
      · subst hhint
        rfl
      · simp only [if_neg hpunch, if_neg hhint]
        by_cases hreserved : opcode = UDP_RESERVEDPROT2
        · simp only [if_pos hreserved]
          cases payload with
          | nil => rfl
          | cons frame_op body => rfl
        · simp only [if_neg hreserved, handle]

/-- A body after the header that both modules write, with what the length field says. -/
def framed (length : Nat) (body : Bytes) : Bytes := [CLIENT_UDP_PROTOCOL] ++ encode 4 length ++ body

section framed

variable {length : Nat} (body : Bytes)

@[simp] theorem length_framed : (framed length body).length = 5 + body.length := by
  simp only [framed, List.length_append, List.length_cons, List.length_nil, length_encode]

theorem getD_framed : (framed length body).getD 5 0 = body.headD 0 := by
  cases body with
  | nil => rfl
  | cons first rest => rfl

/-- The length field is read as it was written. -/
theorem declared_framed (hfits : length < 256 ^ 4) : decode ((framed length body).extract 1 5) = length := by
  have hfield : (framed length body).extract 1 5 = encode 4 length := by
    rw [framed, List.append_assoc]
    exact extract_piece rfl (by rw [length_encode])
  rw [hfield, decode_encode hfits]

theorem extract_framed (stop : Nat) : (framed length body).extract 6 (5 + stop) = body.extract 1 stop := by
  have hdrop : (framed length body).drop 6 = body.drop 1 := rfl
  have hwidth : 5 + stop - 6 = stop - 1 := by omega
  rw [List.extract_eq_take_drop, List.extract_eq_take_drop, hdrop, hwidth]

/-- The session takes a frame exactly if all that its length field announces has come. -/
theorem parse_framed (hfits : length < 256 ^ 4) (hbody : body ≠ []) : parse_client_udp_packet (framed length body) =
    if length < 1 ∨ body.length < length then none else some (body.headD 0, body.extract 1 length) := by
  have hsix : ¬ ((framed length body).length < 6 ∨ (framed length body).headD 0 ≠ CLIENT_UDP_PROTOCOL) := by
    have hpositive := List.length_pos_of_ne_nil hbody
    rw [length_framed, not_or, not_not]
    exact ⟨by omega, rfl⟩
  have hshort : 5 + body.length < 5 + length ↔ body.length < length := by omega
  rw [parse_client_udp_packet, if_neg hsix]
  simp only [declared_framed body hfits, length_framed, hshort, getD_framed, extract_framed]

/-- `unwrap_natt_frame` takes what has come of a frame. -/
theorem unwrap_framed (hfits : length < 256 ^ 4) :
    unwrap_natt_frame (framed length (UDP_RESERVEDPROT2 :: body)) =
      if (body.take (length - 1)).length < 2 then none
      else some ((body.take (length - 1)).headD 0, (body.take (length - 1)).tail) := by
  have hslice : (framed length (UDP_RESERVEDPROT2 :: body)).extract 6 (5 + length) = body.take (length - 1) := by
    rw [extract_framed, List.extract_eq_take_drop]
    rfl
  rw [unwrap_natt_frame, declared_framed _ hfits, length_framed, getD_framed, hslice]
  by_cases hshort : 5 + (UDP_RESERVEDPROT2 :: body).length < 8
  · have hbody : (body.take (length - 1)).length < 2 := by
      rw [List.length_cons] at hshort
      rw [List.length_take]
      omega
    rw [if_pos (Or.inl hshort), if_pos hbody]
  · have hheader : ¬ ((framed length (UDP_RESERVEDPROT2 :: body)).headD 0 ≠ UDP_PROTOCOL ∨
        (UDP_RESERVEDPROT2 :: body).headD 0 ≠ UDP_RESERVEDPROT2) := by
      rw [not_or, not_not, not_not]
      exact ⟨rfl, rfl⟩
    rw [if_neg (not_or.mpr ⟨hshort, hheader⟩)]

end framed

theorem wrap_natt_frame_eq_ok_iff {frame_opcode : UInt8} {payload datagram : Bytes} :
    wrap_natt_frame frame_opcode payload = .ok datagram ↔
      payload.length + 3 < 256 ^ 4 ∧
        datagram = framed (payload.length + 3) (UDP_RESERVEDPROT2 :: frame_opcode :: payload) := by
  have hlength : ([UDP_RESERVEDPROT2, frame_opcode] ++ payload).length + 1 = payload.length + 3 := rfl
  rw [wrap_natt_frame, bind_eq_ok_iff, hlength]
  constructor
  · rintro ⟨field, hfield, hdatagram⟩
    obtain ⟨hfits, rfl⟩ := struct_pack_eq_ok_iff.mp hfield
    cases hdatagram
    exact ⟨hfits, rfl⟩
  · rintro ⟨hfits, rfl⟩
    exact ⟨_, struct_pack_eq_ok_iff.mpr ⟨hfits, rfl⟩, rfl⟩

/-- The length field of a wrapped frame is one too large, so the session drops the frame as truncated. -/
theorem demultiplex_wrapped {frame_opcode : UInt8} {payload datagram : Bytes}
    (hwrap : wrap_natt_frame frame_opcode payload = .ok datagram) : demultiplex datagram = .dropped := by
  obtain ⟨hfits, rfl⟩ := wrap_natt_frame_eq_ok_iff.mp hwrap
  have htruncated : (UDP_RESERVEDPROT2 :: frame_opcode :: payload).length < payload.length + 3 := by
    simp only [List.length_cons]
    omega
  rw [demultiplex, parse_framed _ hfits (List.cons_ne_nil _ _), if_pos (Or.inr htruncated)]

/-- `unwrap_natt_frame` reads a frame that the session builds, unless nothing follows its opcode. -/
theorem unwrap_built (frame_opcode : UInt8) {payload : Bytes} (hfits : payload.length + 2 < 256 ^ 4) :
    unwrap_natt_frame (build_client_udp_packet UDP_RESERVEDPROT2 (frame_opcode :: payload)) =
      if payload = [] then none else some (frame_opcode, payload) := by
  have hbuilt : build_client_udp_packet UDP_RESERVEDPROT2 (frame_opcode :: payload) =
      framed (payload.length + 2) (UDP_RESERVEDPROT2 :: frame_opcode :: payload) := by
    rw [build_client_udp_packet, List.append_assoc]
    rfl
  have htaken : (frame_opcode :: payload).take (payload.length + 2 - 1) = frame_opcode :: payload :=
    List.take_of_length_le (by simp)
  rw [hbuilt, unwrap_framed _ hfits, htaken]
  cases payload with
  | nil => rfl
  | cons first rest =>
    have htwo : ¬ (frame_opcode :: first :: rest).length < 2 := by
      simp only [List.length_cons]
      omega
    rw [if_neg htwo, if_neg (List.cons_ne_nil _ _), List.headD_cons, List.tail_cons]

theorem payload_of_parse {datagram : Bytes} {packet : UInt8 × Bytes}
    (hpacket : parse_client_udp_packet datagram = some packet) :
    datagram.extract 6 (5 + decode (datagram.extract 1 5)) = packet.2 := by
  rw [parse_client_udp_packet] at hpacket
  split at hpacket
  · cases hpacket
  · simp only at hpacket
    split at hpacket
    · cases hpacket
    · cases hpacket
      rfl

theorem packet_of_demultiplex {datagram : Bytes} {frame_op : UInt8} {body : Bytes}
    (hframe : demultiplex datagram = .reserved_frame frame_op body) :
    parse_client_udp_packet datagram = some (UDP_RESERVEDPROT2, frame_op :: body) := by
  rw [demultiplex] at hframe
  cases hpacket : parse_client_udp_packet datagram with
  | none =>
    rw [hpacket] at hframe
    cases hframe
  | some packet =>
    obtain ⟨opcode, payload⟩ := packet
    simp only [hpacket] at hframe
    split at hframe
    · cases hframe
    · split at hframe
      · cases hframe
      · split at hframe
        · rename_i hopcode
          rw [hopcode, eq_of_on_reserved_frame hframe]
        · cases hframe

/-- A datagram that both sides take is the same frame to them. -/
theorem frame_eq_of_accepted {datagram : Bytes} {unwrapped : UInt8 × Bytes} {frame_op : UInt8} {body : Bytes}
    (hunwrap : unwrap_natt_frame datagram = some unwrapped)
    (hdemultiplex : demultiplex datagram = .reserved_frame frame_op body) : unwrapped = (frame_op, body) := by
  have hpayload : datagram.extract 6 (5 + decode (datagram.extract 1 5)) = frame_op :: body :=
    payload_of_parse (packet_of_demultiplex hdemultiplex)
  rw [unwrap_natt_frame] at hunwrap
  split at hunwrap
  · cases hunwrap
  · simp only [hpayload] at hunwrap
    split at hunwrap
    · cases hunwrap
    · cases hunwrap
      rfl

/-- No wrapped frame reaches the session, which in turn has every frame it builds read back unless its payload is
empty. What both sides take they read alike. -/
theorem natt_frames_agree (frame_opcode : UInt8) (payload datagram : Bytes) :
    (¬ ∃ wrapped, wrap_natt_frame frame_opcode payload = .ok wrapped ∧
      demultiplex wrapped = .reserved_frame frame_opcode payload) ∧
    ((∀ built, client_udp_packet UDP_RESERVEDPROT2 (frame_opcode :: payload) = .ok built →
      unwrap_natt_frame built = some (frame_opcode, payload)) ↔ payload ≠ []) ∧
    ∀ unwrapped frame_op body, unwrap_natt_frame datagram = some unwrapped →
      demultiplex datagram = .reserved_frame frame_op body → unwrapped = (frame_op, body) := by
  refine ⟨?_, ?_, fun unwrapped frame_op body => frame_eq_of_accepted⟩
  · rintro ⟨wrapped, hwrap, hframe⟩
    rw [demultiplex_wrapped hwrap] at hframe
    cases hframe
  · constructor
    · rintro hunwraps rfl
      have hunwrap := hunwraps _ (if_pos (by rw [List.length_singleton]; decide))
      rw [unwrap_built frame_opcode (by decide), if_pos rfl] at hunwrap
      cases hunwrap
    · intro hpayload built hbuilt
      rw [client_udp_packet, List.length_cons] at hbuilt
      split at hbuilt
      · rename_i hfits
        cases hbuilt
        rw [unwrap_built frame_opcode hfits, if_neg hpayload]
      · cases hbuilt

/-- The frame of a datagram of one byte announces one byte more than it has. -/
theorem wrapped_datagram_dropped :
    sendto [7] = .ok [0xC5, 4, 0, 0, 0, 0xB2, 1, 7] ∧
      demultiplex [0xC5, 4, 0, 0, 0, 0xB2, 1, 7] ≠ .reserved_frame NATT_FRAME_QUIC [7] :=
  ⟨rfl, by decide⟩

end amuled.natt
