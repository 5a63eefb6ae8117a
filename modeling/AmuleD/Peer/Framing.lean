import Mathlib.Data.List.Forall2
import AmuleD.Peer.Receive

open keystream

namespace amuled.peer

section Linked

variable {arc4 : Bytes → Nat → UInt8} {remote obf : Option Rc4Stream}

/-- The bytes on the way are a text, encrypted where the session has a cipher. -/
def Linked (arc4 : Bytes → Nat → UInt8) (remote obf : Option Rc4Stream) (bytes text : Bytes) : Prop :=
  match remote, obf with
  | none, none => bytes = text
  | some sender, some receiver => Rc4Stream.Carries arc4 sender receiver bytes text
  | _, _ => False

theorem linked_start (stream : Option Rc4Stream) : Linked arc4 stream stream [] [] := by
  cases stream with
  | none => rfl
  | some stream => exact ⟨rfl, .empty _⟩

theorem Linked.send {bytes text : Bytes} (h : Linked arc4 remote obf bytes text) (data : Bytes) :
    Linked arc4 (FrameSource.crypt_with arc4 remote data).2 obf
      (bytes ++ (FrameSource.crypt_with arc4 remote data).1) (text ++ data) := by
  cases remote <;> cases obf
  · exact congrArg (· ++ data) h
  · exact h.elim
  · exact h.elim
  · exact Rc4Stream.Carries.send h data

theorem Linked.decrypt {front back text : Bytes} (h : Linked arc4 remote obf (front ++ back) text) :
    (FrameSource.crypt_with arc4 obf front).1 = text.take front.length := by
  cases remote <;> cases obf
  · rw [← h, List.take_left]
    rfl
  · exact h.elim
  · exact h.elim
  · exact Rc4Stream.Carries.decrypt h

theorem Linked.receive {front back text : Bytes} (h : Linked arc4 remote obf (front ++ back) text) :
    Linked arc4 remote (FrameSource.crypt_with arc4 obf front).2 back (text.drop front.length) := by
  cases remote <;> cases obf
  · rw [← h, List.drop_left]
    rfl
  · exact h.elim
  · exact h.elim
  · exact Rc4Stream.Carries.receive h

theorem Linked.length_eq {bytes text : Bytes} (h : Linked arc4 remote obf bytes text) :
    bytes.length = text.length := by
  cases remote <;> cases obf
  · exact congrArg List.length h
  · exact h.elim
  · exact h.elim
  · exact (Rc4Stream.Carries.in_flight h).length_eq

/-- The bytes of a session that were sent and not consumed. -/
structure Unread (arc4 : Bytes → Nat → UInt8) (remote : Option Rc4Stream) (wire : Bytes)
    (source : FrameSource) (unread : Bytes) : Prop where
  linked : ∃ text, Linked arc4 remote source._obf (source._reader ++ wire) text ∧
    source._rx_plain ++ text = unread

/-- An exact read waits and consumes nothing, or takes the first unread bytes. -/
theorem read_exact_cases {wire unread : Bytes} {source : FrameSource}
    (h : Unread arc4 remote wire source unread) (n : Nat) :
    (source.read_exact arc4 n = none ∧ source._rx_plain.length + source._reader.length < n) ∨
      ∃ source', source.read_exact arc4 n = some (unread.take n, source') ∧ n ≤ unread.length ∧
        Unread arc4 remote wire source' (unread.drop n) := by
  obtain ⟨text, hlinked, rfl⟩ := h.linked
  rw [FrameSource.read_exact]
  by_cases henough : n - min n source._rx_plain.length ≤ source._reader.length
  · right
    simp only [if_pos henough]
    rw [← List.take_append_drop (n - min n source._rx_plain.length) source._reader,
      List.append_assoc] at hlinked
    have hlength : (source._reader.take (n - min n source._rx_plain.length)).length =
        n - source._rx_plain.length := by
      rw [List.length_take]
      omega
    have hall := hlinked.length_eq
    have hdata := hlinked.decrypt
    have hnext := hlinked.receive
    rw [hlength] at hdata hnext
    have htake : source._rx_plain.take (min n source._rx_plain.length) = source._rx_plain.take n := by
      rw [List.take_eq_take_iff]
      omega
    have hdrop : source._rx_plain.drop (min n source._rx_plain.length) = source._rx_plain.drop n := by
      by_cases hall : n ≤ source._rx_plain.length
      · rw [Nat.min_eq_left hall]
      · rw [Nat.min_eq_right (by omega), List.drop_length, List.drop_of_length_le (by omega)]
    refine ⟨⟨source._rx_plain.drop n, _, _⟩, ?_, ?_, ⟨_, hnext, ?_⟩⟩
    · rw [hdata, htake, hdrop, List.take_append]
    · rw [List.length_append, hlength] at hall
      rw [List.length_append]
      omega
    · rw [List.drop_append]
  · left
    simp only [if_neg henough, true_and]
    omega

theorem Unread.send {wire unread : Bytes} {source : FrameSource}
    (h : Unread arc4 remote wire source unread) (data : Bytes) :
    Unread arc4 (FrameSource.crypt_with arc4 remote data).2
      (wire ++ (FrameSource.crypt_with arc4 remote data).1) source (unread ++ data) := by
  obtain ⟨text, hlinked, rfl⟩ := h.linked
  refine ⟨text ++ data, ?_, ?_⟩
  · rw [← List.append_assoc]
    exact hlinked.send data
  · rw [List.append_assoc]

theorem Unread.deliver {wire unread : Bytes} {source : FrameSource}
    (h : Unread arc4 remote wire source unread) (count : Nat) :
    Unread arc4 remote (wire.drop count) { source with _reader := source._reader ++ wire.take count }
      unread := by
  obtain ⟨text, hlinked, rfl⟩ := h.linked
  refine ⟨text, ?_, rfl⟩
  rwa [List.append_assoc, List.take_append_drop]

/-- Where everything was delivered, the source holds all unread bytes. -/
theorem Unread.length_eq {unread : Bytes} {source : FrameSource}
    (h : Unread arc4 remote [] source unread) :
    unread.length = source._rx_plain.length + source._reader.length := by
  obtain ⟨text, hlinked, rfl⟩ := h.linked
  have hlength := hlinked.length_eq
  rw [List.append_nil] at hlength
  rw [List.length_append, hlength]

end Linked

namespace Receiver

variable {decompressobj : DecompressObj} {receiver : Receiver} {frame : Packet}

/-- What a receive returns for a frame: the frame itself, or what the server client
unpacks from it. -/
def delivers (decompressobj : DecompressObj) (receiver : Receiver) (frame packet : Packet) : Prop :=
  match receiver with
  | .server_client =>
    unpack_packet decompressobj (packet_header frame ++ frame.payload) = .ok (packet, [])
  | _ => packet = frame

/-- A frame over the size limit ends the session of the listener only. -/
def keeps_oversized : Receiver → Bool
  | .stream_transport _ _ => false
  | _ => true

def Acceptable (receiver : Receiver) (frame : Packet) : Prop :=
  receiver.keeps_oversized = true → frame.payload.length ≤ MAX_PACKET_SIZE

theorem announced_size_eq {below_one exceeds : Nat → Exc}
    (hfits : frame.payload.length + 1 < 256 ^ 4) :
    announced_size below_one exceeds (packet_header frame) =
      if frame.payload.length > MAX_PACKET_SIZE then .error (exceeds frame.payload.length)
      else .ok frame.payload.length := by
  have hdecode := decode_packet_header hfits []
  rw [List.append_nil] at hdecode
  have hpred : frame.payload.length + 1 - 1 = frame.payload.length := by omega
  simp only [announced_size, hdecode, hpred]
  rw [if_neg (by omega)]

/-- A header announces its payload, or the session is over. -/
theorem payload_size_eq (hfits : frame.payload.length + 1 < 256 ^ 4)
    (hacceptable : receiver.Acceptable frame) :
    receiver.payload_size (packet_header frame) = .ok frame.payload.length ∨
      ∃ failure, receiver.payload_size (packet_header frame) = .error failure ∧ failure.ends = true := by
  cases receiver with
  | peer_client =>
    have hsize : ¬ frame.payload.length > MAX_PACKET_SIZE := not_lt.mpr (hacceptable rfl)
    left
    rw [payload_size, peer_client_size, announced_size_eq hfits, if_neg hsize]
    rfl
  | server_client =>
    have hsize : ¬ frame.payload.length > MAX_PACKET_SIZE := not_lt.mpr (hacceptable rfl)
    left
    rw [payload_size, server_client_size, announced_size_eq hfits, if_neg hsize]
    rfl
  | stream_transport _protocol _allow_emule_protocol =>
    simp only [payload_size, stream_transport_size, announced_size_eq hfits]
    split
    · exact .inr ⟨_, rfl, rfl⟩
    · split
      · exact .inr ⟨_, rfl, rfl⟩
      · exact .inl rfl

/-- A whole frame is returned as it should be, or the session is over. -/
theorem finish_eq (decompressobj : DecompressObj) (receiver : Receiver) (hfits : frame.payload.length + 1 < 256 ^ 4) :
    (∃ packet, receiver.finish decompressobj (packet_header frame) frame.payload = .ok packet ∧
        receiver.delivers decompressobj frame packet) ∨
      ∃ failure, receiver.finish decompressobj (packet_header frame) frame.payload = .error failure ∧
        failure.ends = true := by
  have hget := getD_packet_header frame []
  rw [List.append_nil] at hget
  cases receiver with
  | peer_client => exact .inl ⟨_, rfl, by rw [hget.1, hget.2]; rfl⟩
  | stream_transport _ _ => exact .inl ⟨_, rfl, by rw [hget.1, hget.2]; rfl⟩
  | server_client =>
    obtain ⟨packet, hunpack⟩ | ⟨message, hunpack⟩ := unpack_packet_encoded hfits
    · left
      refine ⟨packet, ?_, hunpack⟩
      rw [finish, hunpack]
    · right
      rw [finish, hunpack]
      exact ⟨_, rfl, rfl⟩

end Receiver

namespace FramedSession

variable {arc4 : Bytes → Nat → UInt8} {decompressobj : DecompressObj} {receiver : Receiver}
  {s : FramedSession}

def encodings (frames : List Packet) : Bytes :=
  frames.flatMap fun frame => packet_header frame ++ frame.payload

/-- The packets returned are those of the first frames sent, and of the others some bytes
are unread. -/
structure Streams (arc4 : Bytes → Nat → UInt8) (decompressobj : DecompressObj) (receiver : Receiver)
    (s : FramedSession) (rest : List Packet) (unread : Bytes) : Prop where
  sent : ∃ front, s.sent = front ++ rest ∧
    List.Forall₂ (receiver.delivers decompressobj) front s.returned
  acceptable : ∀ frame ∈ rest, frame.payload.length + 1 < 256 ^ 4 ∧ receiver.Acceptable frame
  raised : s.raised = []
  unread : Unread arc4 s.remote s.wire s.source unread

theorem Streams.with_call {rest : List Packet} {unread : Bytes}
    (h : Streams arc4 decompressobj receiver s rest unread) (call : Option Call) :
    Streams arc4 decompressobj receiver { s with call := call } rest unread :=
  ⟨h.sent, h.acceptable, h.raised, h.unread⟩

/-- A session is at a boundary of two frames, or behind the header of one. -/
def Positioned (arc4 : Bytes → Nat → UInt8) (decompressobj : DecompressObj) (receiver : Receiver)
    (s : FramedSession) : Prop :=
  match s.call with
  | some (.payload header size) => ∃ frame later, header = packet_header frame ∧
    size = frame.payload.length ∧
    Streams arc4 decompressobj receiver s (frame :: later) (frame.payload ++ encodings later)
  | _ => ∃ rest, Streams arc4 decompressobj receiver s rest (encodings rest)

/-- A connected session is positioned, and waits for a header only while it has none. -/
def Framed (arc4 : Bytes → Nat → UInt8) (decompressobj : DecompressObj) (receiver : Receiver)
    (s : FramedSession) : Prop :=
  s.connected = true → Positioned arc4 decompressobj receiver s ∧
    (s.call = some .header → s.source._rx_plain.length + s.source._reader.length < HEADER_SIZE)

section Progress

variable {source : FrameSource} {frame : Packet} {later : List Packet}

/-- A receive that fails here ends the session. -/
theorem framed_of_error {failure : Failure} (hends : failure.ends = true) :
    Framed arc4 decompressobj receiver (s.conclude source (.error failure)) := by
  intro hconnected
  simp [conclude, hends] at hconnected

/-- A receive that has a whole frame returns it. -/
theorem framed_conclude
    (h : Streams arc4 decompressobj receiver { s with source := source } (frame :: later)
      (encodings later)) :
    Framed arc4 decompressobj receiver
      (s.conclude source (receiver.finish decompressobj (packet_header frame) frame.payload)) := by
  obtain ⟨front, hsent, hreturned⟩ := h.sent
  obtain ⟨packet, hfinish, hdelivers⟩ | ⟨failure, hfinish, hends⟩ :=
    Receiver.finish_eq decompressobj receiver (h.acceptable frame List.mem_cons_self).1
  · rw [hfinish]
    intro _
    refine ⟨⟨later, ⟨front ++ [frame], ?_, ?_⟩, ?_, h.raised, h.unread⟩, fun hcall => by cases hcall⟩
    · rw [List.append_assoc]
      exact hsent
    · exact List.rel_append hreturned (.cons hdelivers .nil)
    · intro other hother
      exact h.acceptable other (List.mem_cons_of_mem _ hother)
  · rw [hfinish]
    exact framed_of_error hends

theorem framed_read_payload
    (h : Streams arc4 decompressobj receiver { s with source := source } (frame :: later)
      (frame.payload ++ encodings later)) :
    Framed arc4 decompressobj receiver (s.read_payload arc4 decompressobj receiver source
      (packet_header frame) frame.payload.length) := by
  rw [read_payload]
  obtain ⟨hwait, _⟩ | ⟨source', hread, _, hunread⟩ :=
    read_exact_cases h.unread frame.payload.length
  · simp only at hwait
    rw [hwait]
    intro _
    exact ⟨⟨frame, later, rfl, rfl, h.sent, h.acceptable, h.raised, h.unread⟩,
      fun hcall => by cases hcall⟩
  · simp only [List.take_left, List.drop_left] at hread hunread
    rw [hread]
    exact framed_conclude ⟨h.sent, h.acceptable, h.raised, hunread⟩

/-- A receive that starts at a boundary keeps the session framed. -/
theorem framed_progress_header {rest : List Packet} (hcall : s.call = some .header)
    (h : Streams arc4 decompressobj receiver s rest (encodings rest)) :
    Framed arc4 decompressobj receiver (s.progress arc4 decompressobj receiver) := by
  simp only [progress, hcall]
  obtain ⟨hwait, hshort⟩ | ⟨source', hread, hlength, hunread⟩ :=
    read_exact_cases h.unread HEADER_SIZE
  · rw [hwait]
    intro _
    rw [Positioned, hcall]
    exact ⟨⟨rest, h⟩, fun _ => hshort⟩
  · rw [hread]
    cases rest with
    | nil => exact absurd hlength (by decide)
    | cons frame later =>
      have hfirst : encodings (frame :: later) =
          packet_header frame ++ (frame.payload ++ encodings later) := by
        rw [encodings, List.flatMap_cons, List.append_assoc]
        rfl
      have hheader : (packet_header frame).length = HEADER_SIZE := length_packet_header frame
      rw [hfirst] at hunread ⊢
      rw [List.drop_left' hheader] at hunread
      rw [List.take_left' hheader]
      obtain ⟨hfits, hacceptable⟩ := h.acceptable frame List.mem_cons_self
      obtain hsize | ⟨failure, hsize, hends⟩ := Receiver.payload_size_eq hfits hacceptable
      · simp only [hsize]
        split
        · rename_i hempty
          have hpayload : frame.payload = [] := List.eq_nil_of_length_eq_zero hempty
          rw [hpayload, List.nil_append] at hunread
          rw [← hpayload]
          exact framed_conclude ⟨h.sent, h.acceptable, h.raised, hunread⟩
        · exact framed_read_payload ⟨h.sent, h.acceptable, h.raised, hunread⟩
      · simp only [hsize]
        exact framed_of_error hends

/-- A receive that goes on keeps the session framed. -/
theorem Positioned.progress (h : Positioned arc4 decompressobj receiver s) :
    Framed arc4 decompressobj receiver (s.progress arc4 decompressobj receiver) := by
  rw [Positioned] at h
  cases hcall : s.call with
  | none =>
    rw [hcall] at h
    simp only [FramedSession.progress, hcall]
    intro _
    rw [Positioned, hcall]
    exact ⟨h, fun hheader => by cases hheader⟩
  | some call =>
    rw [hcall] at h
    cases call with
    | header =>
      obtain ⟨rest, hstreams⟩ := h
      exact framed_progress_header hcall hstreams
    | payload header size =>
      obtain ⟨frame, later, rfl, rfl, hstreams⟩ := h
      simp only [FramedSession.progress, hcall]
      exact framed_read_payload hstreams

end Progress

/-- What a change of a session does to its streams, it does to its position. -/
theorem Positioned.map {s' : FramedSession} (h : Positioned arc4 decompressobj receiver s)
    (more : List Packet) (hcall : s'.call = s.call)
    (hstreams : ∀ {rest unread}, Streams arc4 decompressobj receiver s rest unread →
      Streams arc4 decompressobj receiver s' (rest ++ more) (unread ++ encodings more)) :
    Positioned arc4 decompressobj receiver s' := by
  have hencodings : ∀ rest, encodings (rest ++ more) = encodings rest ++ encodings more :=
    fun rest => List.flatMap_append
  rw [Positioned] at h ⊢
  rw [hcall]
  split at h
  · obtain ⟨frame, later, hheader, hsize, hrest⟩ := h
    refine ⟨frame, later ++ more, hheader, hsize, ?_⟩
    rw [hencodings, ← List.append_assoc]
    exact hstreams hrest
  · obtain ⟨rest, hrest⟩ := h
    refine ⟨rest ++ more, ?_⟩
    rw [hencodings]
    exact hstreams hrest

/-- More bytes on the wire do not change where a session is. -/
theorem Positioned.send (h : Positioned arc4 decompressobj receiver s) {frame : Packet}
    (hacceptable : receiver.Acceptable frame) :
    Positioned arc4 decompressobj receiver (s.send arc4 frame) := by
  rw [FramedSession.send]
  cases hencoded : encode_packet frame with
  | error e => exact h
  | ok encoded =>
    obtain ⟨hfits, rfl⟩ := encode_packet_eq_ok_iff.mp hencoded
    refine h.map [frame] rfl ?_
    intro rest unread hrest
    obtain ⟨front, hsent, hreturned⟩ := hrest.sent
    have hone : encodings [frame] = packet_header frame ++ frame.payload := by simp [encodings]
    rw [hone]
    refine ⟨⟨front, ?_, hreturned⟩, ?_, hrest.raised, hrest.unread.send _⟩
    · rw [← List.append_assoc, ← hsent]
    · intro other hother
      cases List.mem_append.mp hother with
      | inl hmem => exact hrest.acceptable other hmem
      | inr hmem =>
        rw [List.mem_singleton.mp hmem]
        exact ⟨hfits, hacceptable⟩

theorem Positioned.deliver (h : Positioned arc4 decompressobj receiver s) (count : Nat) :
    Positioned arc4 decompressobj receiver
      { s with source := { s.source with _reader := s.source._reader ++ s.wire.take count },
               wire := s.wire.drop count } := by
  refine h.map [] rfl ?_
  intro rest unread hrest
  have hnone : unread ++ encodings [] = unread := List.append_nil unread
  rw [List.append_nil, hnone]
  exact ⟨hrest.sent, hrest.acceptable, hrest.raised, hrest.unread.deliver count⟩

/-- What keeps a session framed: no frame over the limit, and no receive that is timed out
or cancelled behind its header. -/
def Survives (receiver : Receiver) (s : FramedSession) : FrameEvent → Prop
  | .send frame => receiver.Acceptable frame
  | .time_out => ∀ header size, s.call ≠ some (.payload header size)
  | _ => True

theorem connected_conclude {source : FrameSource} {result : Except Failure Packet}
    (hconnected : (s.conclude source result).connected = true) : s.connected = true := by
  cases result with
  | ok packet => exact hconnected
  | error failure =>
    simp only [conclude, Bool.and_eq_true] at hconnected
    exact hconnected.1

theorem connected_read_payload {source : FrameSource} {header : Bytes} {size : Nat}
    (hconnected : (s.read_payload arc4 decompressobj receiver source header size).connected = true) :
    s.connected = true := by
  rw [read_payload] at hconnected
  split at hconnected
  · exact hconnected
  · exact connected_conclude hconnected

/-- A receive never reconnects a session. -/
theorem connected_progress
    (hconnected : (s.progress arc4 decompressobj receiver).connected = true) :
    s.connected = true := by
  rw [FramedSession.progress] at hconnected
  split at hconnected
  · exact hconnected
  · exact connected_read_payload hconnected
  · split at hconnected
    · exact hconnected
    · split at hconnected
      · exact connected_conclude hconnected
      · split at hconnected
        · exact connected_conclude hconnected
        · exact connected_read_payload hconnected

theorem send_frame (arc4 : Bytes → Nat → UInt8) (s : FramedSession) (frame : Packet) :
    (s.send arc4 frame).connected = s.connected ∧ (s.send arc4 frame).call = s.call ∧
      (s.send arc4 frame).source = s.source := by
  rw [FramedSession.send]
  split
  · exact ⟨rfl, rfl, rfl⟩
  · exact ⟨rfl, rfl, rfl⟩

theorem Framed.step (h : Framed arc4 decompressobj receiver s) (event : FrameEvent)
    (hsurvives : Survives receiver s event) :
    Framed arc4 decompressobj receiver (s.step arc4 decompressobj receiver event) := by
  cases event with
  | send frame =>
    obtain ⟨hconnected, hcall, hsource⟩ := send_frame arc4 s frame
    intro hopen
    simp only [FramedSession.step] at hopen ⊢
    rw [hconnected] at hopen
    rw [hcall, hsource]
    exact ⟨(h hopen).1.send hsurvives, (h hopen).2⟩
  | deliver count =>
    intro hopen
    simp only [FramedSession.step] at hopen ⊢
    have hwas := connected_progress hopen
    exact ((h hwas).1.deliver count).progress hopen
  | receive timeout =>
    rw [FramedSession.step]
    split
    · rename_i hstarts
      simp only [Bool.and_eq_true, Option.isNone_iff_eq_none] at hstarts
      obtain ⟨⟨hopen, hidle⟩, _⟩ := hstarts
      have hposition := (h hopen).1
      rw [Positioned, hidle] at hposition
      obtain ⟨rest, hstreams⟩ := hposition
      exact framed_progress_header rfl (hstreams.with_call (some .header))
    · exact h
  | time_out =>
    intro hopen
    have hposition := (h hopen).1
    rw [Positioned] at hposition
    split at hposition
    · rename_i header size hcall
      exact absurd hcall (hsurvives header size)
    · obtain ⟨rest, hstreams⟩ := hposition
      exact ⟨⟨rest, hstreams.with_call none⟩, fun hcall => by cases hcall⟩
  | disconnect =>
    intro hopen
    cases hopen

/-- The handshake decrypts the bytes that came with it, before the reader has any. -/
theorem Positioned.hand_over (h : Positioned arc4 decompressobj receiver s)
    (hreader : s.source._reader = []) (count : Nat) :
    Positioned arc4 decompressobj receiver (s.hand_over arc4 count) := by
  refine h.map [] rfl ?_
  intro rest unread hrest
  have hnone : unread ++ encodings [] = unread := List.append_nil unread
  rw [List.append_nil, hnone]
  refine ⟨hrest.sent, hrest.acceptable, hrest.raised, ?_⟩
  obtain ⟨text, hlinked, rfl⟩ := hrest.unread.linked
  rw [hreader, List.nil_append, ← List.take_append_drop count s.wire] at hlinked
  refine ⟨text.drop (s.wire.take count).length, ?_, ?_⟩
  · simp only [FramedSession.hand_over, hreader, List.nil_append]
    exact hlinked.receive
  · simp only [FramedSession.hand_over]
    rw [hlinked.decrypt, List.append_assoc, List.take_append_drop]

theorem framed_start (stream : Option Rc4Stream) {early : List Packet}
    (hearly : ∀ frame ∈ early, receiver.Acceptable frame) (leftover : Nat) :
    Framed arc4 decompressobj receiver (start arc4 stream early leftover) := by
  have hsent : ∀ {s : FramedSession}, Positioned arc4 decompressobj receiver s → s.call = none →
      s.source._reader = [] →
        Positioned arc4 decompressobj receiver (early.foldl (send arc4) s) ∧
          (early.foldl (send arc4) s).call = none ∧
          (early.foldl (send arc4) s).source._reader = [] := by
    clear leftover
    induction early with
    | nil => exact fun h hcall hreader => ⟨h, hcall, hreader⟩
    | cons frame rest ih =>
      rw [List.forall_mem_cons] at hearly
      intro s h hcall hreader
      obtain ⟨_, hcall', hsource⟩ := send_frame arc4 s frame
      exact ih hearly.2 (h.send hearly.1) (hcall'.trans hcall) (by rw [hsource]; exact hreader)
  intro _
  have hfirst : Positioned arc4 decompressobj receiver
      ⟨⟨[], stream, []⟩, none, true, stream, [], [], [], []⟩ :=
    ⟨[], ⟨[], rfl, .nil⟩, by simp, rfl, ⟨[], linked_start stream, rfl⟩⟩
  obtain ⟨hposition, hcall, hreader⟩ := hsent hfirst rfl rfl
  refine ⟨hposition.hand_over hreader leftover, fun hheader => ?_⟩
  have hidle : (start arc4 stream early leftover).call = none := hcall
  rw [hidle] at hheader
  cases hheader

/-- A session that was kept in every step. -/
inductive Kept (arc4 : Bytes → Nat → UInt8) (decompressobj : DecompressObj) (receiver : Receiver) :
    FramedSession → Prop where
  | start (stream : Option Rc4Stream) (early : List Packet) (leftover : Nat)
      (hearly : ∀ frame ∈ early, receiver.Acceptable frame) :
      Kept arc4 decompressobj receiver (start arc4 stream early leftover)
  | step {s : FramedSession} (h : Kept arc4 decompressobj receiver s) (event : FrameEvent)
      (hsurvives : Survives receiver s event) :
      Kept arc4 decompressobj receiver (s.step arc4 decompressobj receiver event)

/-- While the session is connected, the packets returned are those of the first frames sent,
and of all of them once a receive waits with everything delivered. -/
def Intact (decompressobj : DecompressObj) (receiver : Receiver) (s : FramedSession) : Prop :=
  s.connected = true →
    (∃ front, front <+: s.sent ∧ List.Forall₂ (receiver.delivers decompressobj) front s.returned) ∧
    (s.wire = [] → s.call = some .header →
      List.Forall₂ (receiver.delivers decompressobj) s.sent s.returned)

/-- A session stays intact in every run in which no receive is timed out or cancelled behind
its header, and no frame is over the size limit where the session survives this. -/
theorem receives_intact {arc4 : Bytes → Nat → UInt8} {decompressobj : DecompressObj}
    {receiver : Receiver} {s : FramedSession} (h : Kept arc4 decompressobj receiver s) :
    Intact decompressobj receiver s := by
  have hframed : Framed arc4 decompressobj receiver s := by
    induction h with
    | start stream early leftover hearly => exact framed_start stream hearly leftover
    | step _ event hsurvives ih => exact ih.step event hsurvives
  intro hopen
  obtain ⟨hposition, hshort⟩ := hframed hopen
  rw [Positioned] at hposition
  split at hposition
  · rename_i header size hcall
    obtain ⟨frame, later, _, _, hstreams⟩ := hposition
    obtain ⟨front, hsent, hreturned⟩ := hstreams.sent
    refine ⟨⟨front, ⟨_, hsent.symm⟩, hreturned⟩, fun _ hheader => ?_⟩
    rw [hcall] at hheader
    cases hheader
  · obtain ⟨rest, hstreams⟩ := hposition
    obtain ⟨front, hsent, hreturned⟩ := hstreams.sent
    refine ⟨⟨front, ⟨_, hsent.symm⟩, hreturned⟩, fun hwire hheader => ?_⟩
    -- fewer bytes than a header are left, so that no frame is
    have hunread := hstreams.unread
    rw [hwire] at hunread
    have hlength := hunread.length_eq
    have hless := hshort hheader
    cases rest with
    | nil =>
      rw [List.append_nil] at hsent
      rwa [hsent]
    | cons frame later =>
      simp only [encodings, List.flatMap_cons, List.length_append, length_packet_header] at hlength
      rw [HEADER_SIZE] at hless
      omega

theorem header_timeout_intact :
    let frame : Packet := ⟨0xE3, 0x4B, [7, 8]⟩
    let step := step (fun _ _ => 0) (fun _ _ => .error "") .peer_client
    let waiting := step (start (fun _ _ => 0) none [frame] 3) (.receive 5)
    Kept (fun _ _ => 0) (fun _ _ => .error "") .peer_client
        (step (step (step waiting .time_out) (.deliver 8)) (.receive 5)) ∧
      Intact (fun _ _ => .error "") .peer_client
        (step (step (step waiting .time_out) (.deliver 8)) (.receive 5)) := by
  intro frame step waiting
  have hstart : Kept (fun _ _ => 0) (fun _ _ => .error "") .peer_client
      (start (fun _ _ => 0) none [frame] 3) :=
    .start none [frame] 3 fun other hother _ => by
      rw [List.mem_singleton.mp hother]
      decide
  have hwaiting := (hstart.step (.receive 5) trivial).step .time_out (by
    intro header size hcall
    cases hcall)
  have hkept := (hwaiting.step (.deliver 8) trivial).step (.receive 5) trivial
  exact ⟨hkept, receives_intact hkept⟩

/-- A receive that times out behind its header loses it, and the next one takes the payload
for a frame. -/
theorem payload_timeout_misparses :
    let frame : Packet := ⟨EDONKEY, 0x4B, [0xE3, 1, 0, 0, 0, 0x55]⟩
    let events := [.deliver 6, .receive 5, .time_out, .deliver 6, .receive 5]
    ¬ ∃ receiver ∈ [Receiver.peer_client, .stream_transport EDONKEY false, .server_client],
      Intact (fun _ _ => .error "") receiver
        (events.foldl (step (fun _ _ => 0) (fun _ _ => .error "") receiver)
          (start (fun _ _ => 0) none [frame] 0)) := by
  rintro frame events ⟨receiver, hreceiver, hintact⟩
  have hwrong : ¬ receiver.delivers (fun _ _ => .error "") frame ⟨EDONKEY, 0x55, []⟩ ∧
      (events.foldl (step (fun _ _ => 0) (fun _ _ => .error "") receiver)
        (start (fun _ _ => 0) none [frame] 0)).connected = true ∧
      (events.foldl (step (fun _ _ => 0) (fun _ _ => .error "") receiver)
        (start (fun _ _ => 0) none [frame] 0)).sent = [frame] ∧
      (events.foldl (step (fun _ _ => 0) (fun _ _ => .error "") receiver)
        (start (fun _ _ => 0) none [frame] 0)).returned = [⟨EDONKEY, 0x55, []⟩] := by
    simp only [List.mem_cons, List.not_mem_nil, or_false] at hreceiver
    obtain rfl | rfl | rfl := hreceiver
    · exact ⟨by simp [Receiver.delivers, frame], by decide +kernel, by decide +kernel, by decide +kernel⟩
    · exact ⟨by simp [Receiver.delivers, frame], by decide +kernel, by decide +kernel, by decide +kernel⟩
    · refine ⟨?_, by decide +kernel, by decide +kernel, by decide +kernel⟩
      intro hunpack
      have hdecode : decode_packet (packet_header frame ++ frame.payload) = .ok (frame, []) :=
        decode_packet_encoded (by decide)
      simp only [Receiver.delivers, unpack_packet, hdecode, ok_bind] at hunpack
      rw [if_pos (by decide)] at hunpack
      simp [frame] at hunpack
  obtain ⟨hnot, hconnected, hsent, hreturned⟩ := hwrong
  obtain ⟨⟨front, hfront, hdelivers⟩, _⟩ := hintact hconnected
  rw [hsent] at hfront
  rw [hreturned] at hdelivers
  cases hdelivers with
  | cons hfirst hrest =>
    cases hrest
    have hframe := (List.cons_prefix_cons.mp hfront).1
    rw [hframe] at hfirst
    exact hnot hfirst

end FramedSession

end amuled.peer
