import AmuleD.Natt.UtpDelivery

namespace amuled.natt

/-- In both directions the endpoints have numbered, taken and acknowledged chunks in order. -/
structure UtpLink.Ordered (link : UtpLink) : Prop where
  initiator : Sends 2 link.initiator
  acceptor : Sends 1 link.acceptor
  to_acceptor : Receives 2 link.initiator.log link.acceptor
  to_initiator : Receives 1 link.acceptor.log link.initiator
  initiator_acks : Acknowledges link.initiator
  acceptor_acks : Acknowledges link.acceptor

def UtpLink.side (link : UtpLink) : Side → UtpStream
  | .initiator => link.initiator
  | .acceptor => link.acceptor

/-- Every event of a run meets the condition in the state that it finds. -/
def UtpLink.Meets (link : UtpLink) : List (Side × UtpEvent) → Prop
  | [] => True
  | event :: rest => (link.side event.1).Meets event.2 ∧ (link.step event).Meets rest

/-- A chunk leaves `_sent` only when the receiver has queued it, with all the chunks before it. -/
def Releases (before after receiver : UtpStream) : Prop :=
  ∀ seq sent_at chunk, (seq, sent_at, chunk) ∈ before._sent.entries → seq ∉ after._sent.keys →
    ∀ front rest, before.log = front ++ (seq, chunk) :: rest →
      payloads (front ++ [(seq, chunk)]) <+: receiver._incoming

section Step

variable {base : Nat} {sender receiver : UtpStream} {link : UtpLink}

theorem Receives.delivers (h : Receives base sender.log receiver) : receiver._incoming <+: sender.chunks := by
  obtain ⟨count, _, _, hincoming⟩ := h.taken
  refine ⟨payloads (sender.log.drop count), ?_⟩
  rw [hincoming, ← payloads_append, List.take_append_drop, UtpStream.chunks]

/-- What the receiver has acknowledged, it has queued. -/
theorem Receives.queued {log : List (Nat × Bytes)} (h : Receives base log receiver)
    (hnumbered : log.map Prod.fst = List.range' base log.length) {seq : Nat} {chunk : Bytes}
    (hseq : seq ≤ receiver.ack_nr) {front rest : List (Nat × Bytes)} (hlog : log = front ++ (seq, chunk) :: rest) :
    payloads (front ++ [(seq, chunk)]) <+: receiver._incoming := by
  obtain ⟨count, _, hack, hincoming⟩ := h.taken
  have hfront : seq = base + front.length := by
    have hfst : (log.map Prod.fst)[front.length]? = some seq := by
      rw [hlog, List.map_append, List.map_cons, List.getElem?_append_right (by simp)]
      simp
    have hindex : front.length < log.length := by simp [hlog]
    rw [hnumbered, List.getElem?_range' hindex, Option.some.injEq] at hfst
    omega
  have hsplit : log = (front ++ [(seq, chunk)]) ++ rest := by rw [hlog, List.append_assoc, List.singleton_append]
  have hcount : (front ++ [(seq, chunk)]).length ≤ count := by
    rw [List.length_append, List.length_singleton]
    omega
  rw [hincoming, hsplit, List.take_append, List.take_of_length_le hcount,
    payloads_append (front ++ [(seq, chunk)])]
  exact List.prefix_append _ _

theorem releases_after (hsends : Sends base sender) (hreceives : Receives base sender.log receiver)
    (hacks : Acknowledges receiver) (event : UtpEvent) :
    Releases sender (sender.after receiver.outbox event) receiver := by
  intro seq sent_at chunk hentry hleft front rest hlog
  have hkey : seq ∈ sender._sent.keys := OrderedDict.mem_keys.mpr ⟨_, hentry⟩
  rcases after_cases sender receiver.outbox event with hlocal | ⟨packet, hpacket, heq⟩
  · exact absurd (hlocal.sent seq hkey) hleft
  · rw [heq] at hleft
    rcases (heard_on_wire_packet sender packet).sent with hsame | ⟨ptype, _, ack, payload, hunpack, hsyn, hacked⟩
    · rw [hsame] at hleft
      exact absurd hkey hleft
    · have hack := hacks packet hpacket _ _ _ _ hunpack hsyn
      have hseq : seq ≤ ack := by
        by_contra hbeyond
        apply hleft
        rw [hacked]
        apply OrderedDict.mem_keys.mpr
        refine ⟨_, OrderedDict.mem_eraseAll.mpr ⟨?_, hentry⟩⟩
        intro hmem
        exact hbeyond (of_decide_eq_true (List.mem_filter.mp hmem).2)
      exact hreceives.queued hsends.numbered (le_trans hseq hack) hlog

theorem UtpLink.Ordered.step (h : link.Ordered) {event : Side × UtpEvent}
    (hmeets : (link.side event.1).Meets event.2) : (link.step event).Ordered := by
  obtain ⟨side, event⟩ := event
  cases side with
  | initiator =>
    obtain ⟨rest, hlog⟩ := log_after link.initiator link.acceptor.outbox event
    obtain ⟨hreceives, hle⟩ := h.to_initiator.after h.acceptor.numbered h.acceptor.packets event
    refine ⟨h.initiator.after hmeets, h.acceptor, ?_, hreceives, h.initiator_acks.after hle, h.acceptor_acks⟩
    simp only [UtpLink.step]
    rw [hlog]
    exact h.to_acceptor.append rest
  | acceptor =>
    obtain ⟨rest, hlog⟩ := log_after link.acceptor link.initiator.outbox event
    obtain ⟨hreceives, hle⟩ := h.to_acceptor.after h.initiator.numbered h.initiator.packets event
    refine ⟨h.initiator, h.acceptor.after hmeets, hreceives, ?_, h.initiator_acks, h.acceptor_acks.after hle⟩
    simp only [UtpLink.step]
    rw [hlog]
    exact h.to_initiator.append rest

theorem UtpLink.Ordered.run (h : link.Ordered) {events : List (Side × UtpEvent)} (hmeets : link.Meets events) :
    (link.run events).Ordered := by
  induction events generalizing link with
  | nil => exact h
  | cons event rest ih => exact ih (h.step hmeets.1) hmeets.2

/-- The handshake leaves the endpoints in order, with at most the SYN in `_sent`. -/
theorem ordered_connected (conn_id now_us : Nat) {syn_sent : OrderedDict Nat (ℚ × Bytes)}
    (hsyn : ∀ entry ∈ syn_sent.entries, entry.1 = 1 ∧ entry.2.2 = SYN) :
    (UtpLink.connected conn_id now_us syn_sent).Ordered := by
  refine ⟨⟨?_, rfl, rfl, ?_, nofun, nofun, ?_⟩, ⟨?_, rfl, rfl, nofun, nofun, nofun, ?_⟩,
    ⟨⟨0, Nat.le_refl 0, rfl, rfl⟩, nofun⟩, ⟨⟨0, Nat.le_refl 0, rfl, rfl⟩, nofun⟩, ?_, ?_⟩
  · exact Nat.le_of_ble_eq_true rfl
  · intro entry hentry
    obtain ⟨hseq, hdata⟩ := hsyn entry hentry
    refine .inl ⟨?_, hdata⟩
    omega
  · intro packet hpacket
    rw [List.mem_singleton.mp hpacket, ← List.append_nil (header _ _ _ _ _)]
    exact carries_syn _ _ _ _ _ _
  · exact Nat.le_of_ble_eq_true rfl
  · intro packet hpacket
    rw [List.mem_singleton.mp hpacket, ← List.append_nil (header _ _ _ _ _)]
    exact carries_state _ _ _ _ _ _
  · intro packet hpacket
    rw [List.mem_singleton.mp hpacket, ← List.append_nil (header _ _ _ _ _)]
    exact acksAtMost_header _ (by decide) _ _ _ _
  · intro packet hpacket
    rw [List.mem_singleton.mp hpacket, ← List.append_nil (header _ _ _ _ _)]
    exact acksAtMost_header _ (by decide) _ _ _ _

end Step

/-- Two connected endpoints deliver, whatever the network and the timers do, as long as no side uses up its
sequence numbers or sends a chunk `FIN` again: what a receiver has queued is a prefix of what was sent, and
a chunk leaves `_sent` only when it has been queued. -/
theorem utp_delivers_in_order (conn_id now_us : Nat) (syn_sent : OrderedDict Nat (ℚ × Bytes))
    (hsyn : ∀ entry ∈ syn_sent.entries, entry.1 = 1 ∧ entry.2.2 = SYN) (events : List (Side × UtpEvent))
    (hmeets : (UtpLink.connected conn_id now_us syn_sent).Meets events) :
    let link := (UtpLink.connected conn_id now_us syn_sent).run events
    link.acceptor._incoming <+: link.initiator.chunks ∧ link.initiator._incoming <+: link.acceptor.chunks ∧
    ∀ event : UtpEvent,
      Releases link.initiator (link.step (.initiator, event)).initiator link.acceptor ∧
      Releases link.acceptor (link.step (.acceptor, event)).acceptor link.initiator := by
  intro link
  have hordered : link.Ordered := (ordered_connected conn_id now_us hsyn).run hmeets
  refine ⟨hordered.to_acceptor.delivers, hordered.to_initiator.delivers, fun event => ⟨?_, ?_⟩⟩
  · exact releases_after hordered.initiator hordered.to_acceptor hordered.acceptor_acks event
  · exact releases_after hordered.acceptor hordered.to_initiator hordered.initiator_acks event

/-- One chunk, which arrives. -/
def sampleEvents : List (Side × UtpEvent) :=
  [(.initiator, .send [1, 2] 0), (.initiator, .record 0 0), (.acceptor, .deliver 1)]

theorem utp_delivers_in_order_chunk :
    ((UtpLink.connected 7 0 .empty).run sampleEvents).acceptor._incoming <+:
      ((UtpLink.connected 7 0 .empty).run sampleEvents).initiator.chunks := by
  have hmeets : (UtpLink.connected 7 0 .empty).Meets sampleEvents := by
    refine ⟨fun _ => ?_, trivial, trivial, trivial⟩
    exact Nat.succ_ne_zero 1
  exact (utp_delivers_in_order 7 0 .empty nofun sampleEvents hmeets).1

/-- A chunk `FIN` that is lost and sent again, and the chunk after it. -/
def lostEvents : List (Side × UtpEvent) :=
  [(.initiator, .send FIN 0), (.initiator, .record 0 0), (.initiator, .wake 1), (.initiator, .resend 0),
    (.initiator, .resent), (.initiator, .send [1] 0), (.acceptor, .deliver 2), (.acceptor, .deliver 3)]

/-- The receiver queues the second chunk without the first. -/
theorem chunk_sent_again_as_fin :
    ¬ ∀ (conn_id now_us : Nat) (syn_sent : OrderedDict Nat (ℚ × Bytes)) (events : List (Side × UtpEvent)),
      (∀ entry ∈ syn_sent.entries, entry.1 = 1 ∧ entry.2.2 = SYN) →
      let link := (UtpLink.connected conn_id now_us syn_sent).run events
      link.acceptor._incoming <+: link.initiator.chunks := by
  intro hclaim
  have hprefix := hclaim 7 0 .empty lostEvents nofun
  have hqueued : ((UtpLink.connected 7 0 .empty).run lostEvents).acceptor._incoming = [[1]] := by decide +kernel
  have hsent : ((UtpLink.connected 7 0 .empty).run lostEvents).initiator.chunks = [FIN, [1]] := by decide +kernel
  dsimp only at hprefix
  rw [hqueued, hsent] at hprefix
  exact absurd hprefix (by decide)


def Side.other : Side → Side
  | .initiator => .acceptor
  | .acceptor => .initiator

/-- The number of the first FIN of an endpoint, after an event. -/
def UtpStream.fin_after (sender : UtpStream) (fin : Option Nat) : UtpEvent → Option Nat
  | .close _ => if sender._closed then fin else fin.or (some sender.seq_nr)
  | _ => fin

/-- The number of the first FIN of a side, after an event at one of the sides. -/
def UtpLink.fin_after (link : UtpLink) (side : Side) (fin : Option Nat) (event : Side × UtpEvent) : Option Nat :=
  match side, event with
  | .initiator, (.initiator, event) => link.initiator.fin_after fin event
  | .acceptor, (.acceptor, event) => link.acceptor.fin_after fin event
  | _, _ => fin

/-- The number of the first FIN that a side has sent in a run. -/
def UtpLink.fin_of (side : Side) : UtpLink → Option Nat → List (Side × UtpEvent) → Option Nat
  | _, fin, [] => fin
  | link, fin, event :: rest => UtpLink.fin_of side (link.step event) (link.fin_after side fin event) rest

/-- A chunk fills the last gap in front of a FIN that waits in the reorder buffer. -/
def UtpStream.Fills (receiver : UtpStream) (fin : Option Nat) (packet : Bytes) : Prop :=
  receiver._closed = false ∧ ∃ ack payload first,
    unpack packet = some (ST_DATA, receiver.ack_nr + 1, ack, payload) ∧ fin = some first ∧
      receiver.ack_nr + 1 < first ∧ ∀ seq, receiver.ack_nr + 1 < seq → seq ≤ first → seq ∈ receiver._reorder.keys

/-- Besides what a sender has to stay clear of, no packet that arrives fills the last gap in front of the FIN. -/
def UtpLink.MeetsEnding (side : Side) : UtpLink → Option Nat → List (Side × UtpEvent) → Prop
  | _, _, [] => True
  | link, fin, event :: rest =>
    (link.side event.1).Meets event.2 ∧
      (∀ index packet, event = (side.other, .deliver index) → (link.side side).outbox[index]? = some packet →
        ¬(link.side side.other).Fills fin packet) ∧
      UtpLink.MeetsEnding side (link.step event) (link.fin_after side fin event) rest

/-- An entry is sent again as a FIN where its number is that of the first FIN, and never under a smaller one. -/
def FinEntry (fin : Option Nat) (log : List (Nat × Bytes)) (seq : Nat) (data : Bytes) : Prop :=
  (data = FIN → (seq, FIN) ∈ log ∨ ∃ first, fin = some first ∧ first ≤ seq) ∧ (fin = some seq → data = FIN)

/-- No FIN has a smaller number than the first, and no chunk has its number. -/
def FinPacket (fin : Option Nat) (packet : Bytes) : Prop :=
  ∀ ptype seq ack payload, unpack packet = some (ptype, seq, ack, payload) →
    ptype = ST_SYN ∨ ptype = ST_STATE ∨ (ptype = ST_DATA ∧ fin ≠ some seq) ∨
      (ptype = ST_FIN ∧ ∃ first, fin = some first ∧ first ≤ seq)

/-- An endpoint whose first FIN has a number, or which has sent none. -/
structure Finishes (fin : Option Nat) (sender : UtpStream) : Prop where
  logged : ∀ first, fin = some first → (first, []) ∈ sender.log
  sent : ∀ entry ∈ sender._sent.entries, FinEntry fin sender.log entry.1 entry.2.2
  sending : ∀ entry ∈ sender.sending, FinEntry fin sender.log entry.1 entry.2
  listed : ∀ entry ∈ sender._retransmit_task.entries, FinEntry fin sender.log entry.1 entry.2
  packets : ∀ packet ∈ sender.outbox, FinPacket fin packet

/-- The end of the stream is recorded exactly when it is acknowledged. -/
structure Ends (fin : Option Nat) (receiver : UtpStream) : Prop where
  recorded : ∀ first, fin = some first → first ≤ receiver.ack_nr → receiver._fin_received = true
  acknowledged : receiver._fin_received = true → ∃ first, fin = some first ∧ first ≤ receiver.ack_nr
  signalled : receiver._fin_received = true → receiver._eof_evt = true

section Sending

variable {base : Nat} {fin : Option Nat} {stream : UtpStream}

theorem FinEntry.append {log : List (Nat × Bytes)} {seq : Nat} {data : Bytes} (h : FinEntry fin log seq data)
    (rest : List (Nat × Bytes)) : FinEntry fin (log ++ rest) seq data := by
  refine ⟨fun hdata => ?_, h.2⟩
  rcases h.1 hdata with hmem | hfirst
  · exact .inl (List.mem_append_left rest hmem)
  · exact .inr hfirst

theorem finPacket_header {now_us ptype conn_id seq ack : Nat} {payload : Bytes} (hptype : ptype < 16)
    (hpacket : ptype = ST_SYN ∨ ptype = ST_STATE ∨ (ptype = ST_DATA ∧ fin ≠ some (seq % 2 ^ 16)) ∨
      (ptype = ST_FIN ∧ ∃ first, fin = some first ∧ first ≤ seq % 2 ^ 16)) :
    FinPacket fin (header now_us ptype conn_id seq ack ++ payload) := by
  intro ptype' seq' ack' payload' hunpack
  rw [unpack_header _ hptype] at hunpack
  cases hunpack
  exact hpacket

theorem Finishes.send_packet (h : Finishes fin stream) {now_us ptype seq ack : Nat} {payload : Bytes}
    (hpacket : FinPacket fin (header now_us ptype stream.conn_id_send seq ack ++ payload)) :
    Finishes fin (stream.send_packet now_us ptype seq ack payload) := by
  refine ⟨h.logged, h.sent, h.sending, h.listed, ?_⟩
  intro packet hmem
  rcases List.mem_append.mp hmem with hold | hnew
  · exact h.packets packet hold
  · rw [List.mem_singleton.mp hnew]
    exact hpacket

theorem Finishes.fail (h : Finishes fin stream) : Finishes fin stream.fail :=
  ⟨h.logged, h.sent, h.sending, nofun, h.packets⟩

theorem Finishes.end_close (h : Finishes fin stream) : Finishes fin stream.end_close := by
  unfold UtpStream.end_close
  split
  · exact h
  · exact ⟨h.logged, h.sent, h.sending, nofun, h.packets⟩

theorem Finishes.send_ack (h : Finishes fin stream) (now_us : Nat) : Finishes fin (stream.send_ack now_us) := by
  unfold UtpStream.send_ack
  split
  · exact h
  · have hrest : Finishes fin { stream with acks := stream.acks - 1 } :=
      ⟨h.logged, h.sent, h.sending, h.listed, h.packets⟩
    exact hrest.send_packet (finPacket_header (by decide) (.inr (.inl rfl)))

theorem Finishes.record (h : Finishes fin stream) (index : Nat) (now : ℚ) : Finishes fin (stream.record index now) := by
  unfold UtpStream.record
  split
  · exact h
  · rename_i seq data hget
    refine ⟨h.logged, ?_, ?_, h.listed, h.packets⟩
    · intro entry hentry
      rcases OrderedDict.mem_set.mp hentry with rfl | ⟨_, hold⟩
      · exact h.sending _ (List.mem_of_getElem? hget)
      · exact h.sent entry hold
    · exact fun entry hentry => h.sending entry (List.mem_of_mem_eraseIdx hentry)

theorem Finishes.wake (h : Finishes fin stream) (now : ℚ) : Finishes fin (stream.wake now) := by
  unfold UtpStream.wake
  split
  · refine ⟨h.logged, h.sent, h.sending, ?_, h.packets⟩
    intro entry hentry
    obtain ⟨item, hitem, rfl⟩ := List.mem_map.mp hentry
    exact h.sent item hitem
  · exact h

theorem Finishes.resent (h : Finishes fin stream) : Finishes fin stream.resent := by
  unfold UtpStream.resent
  cases htask : stream._retransmit_task with
  | asleep => exact h
  | listed now items => exact h
  | sending now seq data items =>
    have hlisted := h.listed
    rw [htask] at hlisted
    refine ⟨h.logged, ?_, h.sending, ?_, h.packets⟩
    · intro entry hentry
      rcases OrderedDict.mem_set.mp hentry with rfl | ⟨_, hold⟩
      · exact hlisted (seq, data) List.mem_cons_self
      · exact h.sent entry hold
    · exact fun entry hentry => hlisted entry (List.mem_cons_of_mem _ hentry)

/-- The numbers that are given are those of the log, and the SYN's. -/
theorem Sends.seq_lt (h : Sends base stream) {seq : Nat} {data : Bytes} (hstored : Stored base stream.log seq data) :
    seq < base + stream.log.length := by
  rcases hstored with ⟨hlt, _⟩ | ⟨_, hmem⟩ | hmem
  · omega
  · exact (lt_of_mem h.numbered hmem).2
  · exact (lt_of_mem h.numbered hmem).2

/-- An entry is sent again in a packet of its number. -/
theorem Sends.fin_resend (h : Sends base stream) {seq : Nat} {data : Bytes} (hstored : Stored base stream.log seq data)
    (hentry : FinEntry fin stream.log seq data) (hfin : data = FIN → (seq, FIN) ∉ stream.log) (now_us ack : Nat) :
    FinPacket fin (header now_us (UtpStream.resend_type data) stream.conn_id_send seq ack ++
      UtpStream.resend_payload data) := by
  apply finPacket_header (resend_type_lt data)
  have hroom := h.room
  have hlt := h.seq_lt hstored
  rw [Nat.mod_eq_of_lt (by omega : seq < 2 ^ 16)]
  unfold UtpStream.resend_type
  by_cases hdata : data = FIN
  · rw [if_pos hdata]
    exact .inr (.inr (.inr ⟨rfl, (hentry.1 hdata).resolve_left (hfin hdata)⟩))
  · rw [if_neg hdata]
    by_cases hsyn : data = SYN
    · rw [if_pos hsyn]
      exact .inl rfl
    · rw [if_neg hsyn]
      exact .inr (.inr (.inl ⟨rfl, fun hfirst => hdata (hentry.2 hfirst)⟩))

theorem Finishes.resend (hsends : Sends base stream) (h : Finishes fin stream) (now_us : Nat)
    (hmeets : stream.Meets (.resend now_us)) : Finishes fin (stream.resend now_us) := by
  unfold UtpStream.resend
  cases htask : stream._retransmit_task with
  | asleep => exact h
  | sending now seq data items => exact h
  | listed now items =>
    cases items with
    | nil => exact ⟨h.logged, h.sent, h.sending, nofun, h.packets⟩
    | cons item items =>
      obtain ⟨seq, sent_at, data⟩ := item
      have hstored := hsends.listed
      have hlisted := h.listed
      rw [htask] at hstored hlisted
      dsimp only
      by_cases hlate : now - sent_at > MAX_RETRIES * RETRANSMIT_INTERVAL
      · rw [if_pos hlate]
        exact h.fail
      rw [if_neg hlate]
      by_cases hdue : now - sent_at ≥ RETRANSMIT_INTERVAL
      · rw [if_pos hdue]
        have hsending : Finishes fin { stream with _retransmit_task := .sending now seq data items } :=
          ⟨h.logged, h.sent, h.sending, hlisted, h.packets⟩
        apply hsending.send_packet
        apply hsends.fin_resend (hstored (seq, data) List.mem_cons_self) (hlisted (seq, data) List.mem_cons_self)
        rintro rfl
        exact hmeets now seq sent_at items htask (not_lt.mp hlate) hdue
      · rw [if_neg hdue]
        refine ⟨h.logged, h.sent, h.sending, ?_, h.packets⟩
        exact fun entry hentry => hlisted entry (List.mem_cons_of_mem _ hentry)

/-- The next number is beyond all that have been given. -/
theorem Sends.next_eq (h : Sends base stream) (hnext : stream.seq_nr ≠ 0) :
    stream.seq_nr = base + stream.log.length ∧ stream.seq_nr < 2 ^ 16 := by
  have hroom := h.room
  have hseq := h.next
  by_cases hfull : base + stream.log.length = 2 ^ 16
  · rw [hfull, Nat.mod_self] at hseq
    exact absurd hseq hnext
  · rw [Nat.mod_eq_of_lt (by omega)] at hseq
    omega

theorem Finishes.send (hsends : Sends base stream) (h : Finishes fin stream) (chunk : Bytes) (now_us : Nat)
    (hnext : stream._closed = false → stream.seq_nr ≠ 0) : Finishes fin (stream.send chunk now_us) := by
  unfold UtpStream.send
  split
  · exact h
  · rename_i hopen
    obtain ⟨hseq, hlt⟩ := hsends.next_eq (hnext (Bool.eq_false_iff.mpr hopen))
    have hnew : fin ≠ some stream.seq_nr := by
      intro hfirst
      have hbelow := (lt_of_mem hsends.numbered (h.logged _ hfirst)).2
      omega
    have hmem : (stream.seq_nr, chunk) ∈ stream.log ++ [(stream.seq_nr, chunk)] :=
      List.mem_append_right _ (List.mem_singleton_self _)
    have hnumbered : Finishes fin { stream with
        seq_nr := (stream.seq_nr + 1) % 2 ^ 16
        sending := stream.sending ++ [(stream.seq_nr, chunk)]
        log := stream.log ++ [(stream.seq_nr, chunk)] } := by
      refine ⟨fun first hfirst => List.mem_append_left _ (h.logged first hfirst),
        fun entry hentry => (h.sent entry hentry).append _, ?_, fun entry hentry => (h.listed entry hentry).append _,
        h.packets⟩
      intro entry hentry
      rcases List.mem_append.mp hentry with hold | hlast
      · exact (h.sending entry hold).append _
      · rw [List.mem_singleton.mp hlast]
        refine ⟨?_, fun hfirst => absurd hfirst hnew⟩
        rintro rfl
        exact .inl hmem
    apply hnumbered.send_packet
    apply finPacket_header (by decide)
    rw [Nat.mod_eq_of_lt hlt]
    exact .inr (.inr (.inl ⟨rfl, hnew⟩))

/-- A first FIN with a new number changes nothing for what has smaller numbers. -/
theorem FinEntry.first {log : List (Nat × Bytes)} {seq next : Nat} {data : Bytes} (h : FinEntry fin log seq data)
    (hlt : seq < next) : FinEntry (fin.or (some next)) log seq data := by
  cases fin with
  | some first => exact h
  | none =>
    refine ⟨fun hdata => ?_, ?_⟩
    · rcases h.1 hdata with hmem | ⟨first, hfirst, _⟩
      · exact .inl hmem
      · cases hfirst
    · rintro ⟨⟩
      exact absurd hlt (Nat.lt_irrefl _)

theorem FinPacket.first {log : List (Nat × Bytes)} {next : Nat} {packet : Bytes} (h : FinPacket fin packet)
    (hcarries : Carries log packet) (hlt : ∀ entry ∈ log, entry.1 < next) : FinPacket (fin.or (some next)) packet := by
  cases fin with
  | some first => exact h
  | none =>
    intro ptype seq ack payload hunpack
    rcases h ptype seq ack payload hunpack with hsyn | hstate | ⟨hdata, _⟩ | ⟨_, first, hfirst, _⟩
    · exact .inl hsyn
    · exact .inr (.inl hstate)
    · refine .inr (.inr (.inl ⟨hdata, ?_⟩))
      rintro ⟨⟩
      rcases hcarries ptype _ ack payload hunpack with hsyn | hstate | hmem
      · rw [hdata] at hsyn
        exact absurd hsyn (by decide)
      · rw [hdata] at hstate
        exact absurd hstate (by decide)
      · exact absurd (hlt _ hmem) (Nat.lt_irrefl _)
    · cases hfirst

theorem Finishes.close (hsends : Sends base stream) (h : Finishes fin stream) (now_us : Nat)
    (hnext : stream._closed = false → stream.seq_nr ≠ 0) :
    Finishes (stream.fin_after fin (.close now_us)) (stream.close now_us) := by
  by_cases hclosed : stream._closed = true
  · rw [UtpStream.close, UtpStream.fin_after, if_pos hclosed, if_pos hclosed]
    exact h
  · rw [UtpStream.close, UtpStream.fin_after, if_neg hclosed, if_neg hclosed]
    obtain ⟨hseq, hlt⟩ := hsends.next_eq (hnext (Bool.eq_false_iff.mpr hclosed))
    have hbelow : ∀ seq data, Stored base stream.log seq data → seq < stream.seq_nr := fun seq data hstored =>
      hseq ▸ hsends.seq_lt hstored
    have hmem : (stream.seq_nr, []) ∈ stream.log ++ [(stream.seq_nr, [])] :=
      List.mem_append_right _ (List.mem_singleton_self _)
    have hfirst : ∃ first, fin.or (some stream.seq_nr) = some first ∧ first ≤ stream.seq_nr := by
      cases fin with
      | none => exact ⟨_, rfl, Nat.le_refl _⟩
      | some first =>
        have hle := (lt_of_mem hsends.numbered (h.logged first rfl)).2
        exact ⟨first, rfl, by omega⟩
    have hnumbered : Finishes (fin.or (some stream.seq_nr)) { stream with
        seq_nr := (stream.seq_nr + 1) % 2 ^ 16
        sending := stream.sending ++ [(stream.seq_nr, FIN)]
        log := stream.log ++ [(stream.seq_nr, [])]
        closing := stream.closing + 1 } := by
      refine ⟨?_, ?_, ?_, ?_, ?_⟩
      · intro first hsome
        cases fin with
        | none =>
          cases hsome
          exact hmem
        | some number => exact List.mem_append_left _ (h.logged first hsome)
      · exact fun entry hentry =>
          ((h.sent entry hentry).first (hbelow _ _ (hsends.sent entry hentry))).append _
      · intro entry hentry
        rcases List.mem_append.mp hentry with hold | hlast
        · exact ((h.sending entry hold).first (hbelow _ _ (hsends.sending entry hold))).append _
        · rw [List.mem_singleton.mp hlast]
          exact ⟨fun _ => .inr hfirst, fun _ => rfl⟩
      · exact fun entry hentry =>
          ((h.listed entry hentry).first (hbelow _ _ (hsends.listed entry hentry))).append _
      · exact fun packet hpacket => (h.packets packet hpacket).first (hsends.packets packet hpacket)
          fun entry hentry => hbelow _ _ (.inr (.inr hentry))
    apply hnumbered.send_packet
    apply finPacket_header (by decide)
    rw [Nat.mod_eq_of_lt hlt]
    exact .inr (.inr (.inr ⟨rfl, hfirst⟩))

theorem Finishes.heard {packet : Bytes} {after : UtpStream} (h : Finishes fin stream)
    (hheard : Heard packet stream after) : Finishes fin after := by
  refine ⟨?_, ?_, ?_, ?_, ?_⟩
  · rw [hheard.log]
    exact h.logged
  · rw [hheard.log]
    exact fun entry hentry => h.sent entry (hheard.mem_sent hentry)
  · rw [hheard.log, hheard.sending]
    exact h.sending
  · rw [hheard.log]
    rcases hheard.task with htask | htask
    · rw [htask]
      exact h.listed
    · rw [htask]
      exact nofun
  · rw [hheard.outbox]
    exact h.packets

theorem Finishes.after {packets : List Bytes} (hsends : Sends base stream) (h : Finishes fin stream) {event : UtpEvent}
    (hmeets : stream.Meets event) : Finishes (stream.fin_after fin event) (stream.after packets event) := by
  cases event with
  | send chunk now_us => exact h.send hsends chunk now_us hmeets
  | record index now => exact h.record index now
  | close now_us => exact h.close hsends now_us hmeets
  | closed => exact h.end_close
  | ack now_us => exact h.send_ack now_us
  | wake now => exact h.wake now
  | resend now_us => exact h.resend hsends now_us hmeets
  | resent => exact h.resent
  | deliver index =>
    simp only [UtpStream.after, UtpStream.fin_after]
    split
    · exact h
    · exact h.heard (heard_on_wire_packet stream _)

end Sending

section Receiving

variable {fin : Option Nat} {stream : UtpStream}

/-- What records the end of the stream. -/
def UtpStream.endPart (stream : UtpStream) := (stream._fin_received, stream._eof_evt)

theorem endPart_put (stream : UtpStream) (payload : Bytes) : (stream.put payload).endPart = stream.endPart := by
  unfold UtpStream.put
  split <;> rfl

theorem reorder_put (stream : UtpStream) (payload : Bytes) : (stream.put payload)._reorder = stream._reorder := by
  unfold UtpStream.put
  split <;> rfl

theorem endPart_drain (stream : UtpStream) (turns : Nat) : (stream.drain turns).endPart = stream.endPart := by
  induction turns generalizing stream with
  | zero => rfl
  | succ turns ih =>
    unfold UtpStream.drain
    dsimp only
    split
    · rfl
    · rw [ih]
      exact endPart_put _ _

/-- Draining acknowledges what waits in the reorder buffer, and nothing else. -/
theorem mem_reorder_of_drain (stream : UtpStream) (turns : Nat) :
    stream.ack_nr ≤ (stream.drain turns).ack_nr ∧
      ∀ seq, stream.ack_nr < seq → seq ≤ (stream.drain turns).ack_nr → seq ∈ stream._reorder.keys := by
  induction turns generalizing stream with
  | zero =>
    refine ⟨Nat.le_refl _, ?_⟩
    intro seq hlow hhigh
    exact absurd (Nat.lt_of_lt_of_le hlow hhigh) (Nat.lt_irrefl _)
  | succ turns ih =>
    unfold UtpStream.drain
    dsimp only
    split
    · refine ⟨Nat.le_refl _, ?_⟩
      intro seq hlow hhigh
      exact absurd (Nat.lt_of_lt_of_le hlow hhigh) (Nat.lt_irrefl _)
    · rename_i chunk hget
      obtain ⟨hle, hall⟩ := ih { ({ stream with _reorder := stream._reorder.erase (stream.ack_nr + 1) }.put chunk) with
        ack_nr := stream.ack_nr + 1 }
      refine ⟨Nat.le_of_succ_le hle, ?_⟩
      intro seq hlow hhigh
      by_cases hnext : seq = stream.ack_nr + 1
      · rw [hnext]
        exact OrderedDict.mem_keys.mpr ⟨chunk, OrderedDict.mem_of_get hget⟩
      · have hbeyond : stream.ack_nr + 1 < seq := by omega
        have hmem := hall seq hbeyond hhigh
        dsimp only at hmem
        rw [reorder_put, OrderedDict.mem_keys_erase] at hmem
        exact hmem.2

/-- The packet that was expected acknowledges itself and what waits behind it; a FIN is recorded. -/
theorem on_next_spec (stream : UtpStream) (ptype seq_nr : Nat) (payload : Bytes) :
    seq_nr ≤ (stream.on_next ptype seq_nr payload).ack_nr ∧
      (∀ seq, seq_nr < seq → seq ≤ (stream.on_next ptype seq_nr payload).ack_nr → seq ∈ stream._reorder.keys) ∧
      (stream.on_next ptype seq_nr payload).endPart = if ptype = ST_FIN then (true, true) else stream.endPart := by
  obtain ⟨hle, hall⟩ := mem_reorder_of_drain { stream.put payload with ack_nr := seq_nr }
    { stream.put payload with ack_nr := seq_nr }._reorder.entries.length
  have hpart := endPart_drain { stream.put payload with ack_nr := seq_nr }
    { stream.put payload with ack_nr := seq_nr }._reorder.entries.length
  have hwaits : ∀ seq, seq ∈ (stream.put payload)._reorder.keys → seq ∈ stream._reorder.keys := by
    intro seq hmem
    rwa [reorder_put] at hmem
  unfold UtpStream.on_next
  dsimp only
  split
  · exact ⟨hle, fun seq hlow hhigh => hwaits seq (hall seq hlow hhigh), rfl⟩
  · exact ⟨hle, fun seq hlow hhigh => hwaits seq (hall seq hlow hhigh), hpart.trans (endPart_put stream payload)⟩

theorem Ends.of_endPart {after : UtpStream} (h : Ends fin stream) (hack : after.ack_nr = stream.ack_nr)
    (hpart : after.endPart = stream.endPart) : Ends fin after := by
  simp only [UtpStream.endPart, Prod.mk.injEq] at hpart
  obtain ⟨hreceived, hsignalled⟩ := hpart
  refine ⟨?_, ?_, ?_⟩
  · rw [hack, hreceived]
    exact h.recorded
  · rw [hack, hreceived]
    exact h.acknowledged
  · rw [hreceived, hsignalled]
    exact h.signalled

/-- A FIN is recorded as soon as it is acknowledged. -/
theorem Ends.on_fin_packet (h : Ends fin stream) {first seq : Nat} (hfirst : fin = some first) (hle : first ≤ seq)
    (payload : Bytes) : Ends fin (stream.on_data ST_FIN seq payload) := by
  unfold UtpStream.on_data
  extract_lets taken finished
  have hfinished : Ends fin finished := by
    by_cases hnext : seq = stream.ack_nr + 1
    · have htaken : taken = stream.on_next ST_FIN seq payload := if_pos hnext
      obtain ⟨hack, _, _⟩ := on_next_spec stream ST_FIN seq payload
      rw [← htaken] at hack
      have hon : finished = taken.on_fin := if_pos ⟨rfl, hack⟩
      rw [hon]
      exact ⟨fun _ _ _ => rfl, fun _ => ⟨first, hfirst, hle.trans hack⟩, fun _ => rfl⟩
    by_cases hbeyond : seq > stream.ack_nr + 1
    · have htaken : taken = { stream with _reorder := stream._reorder.setDefault seq payload } := by
        unfold taken
        rw [if_neg hnext, if_pos hbeyond]
      have hkept : finished = taken := if_neg fun hold => by
        have hlate : seq ≤ taken.ack_nr := hold.2
        rw [htaken] at hlate
        dsimp only at hlate
        omega
      rw [hkept, htaken]
      exact h.of_endPart rfl rfl
    · have htaken : taken = stream := by
        unfold taken
        rw [if_neg hnext, if_neg hbeyond]
      have hack : seq ≤ stream.ack_nr := by omega
      have hon : finished = stream.on_fin := by
        unfold finished
        rw [htaken, if_pos ⟨rfl, hack⟩]
      rw [hon]
      exact ⟨fun _ _ _ => rfl, fun _ => ⟨first, hfirst, hle.trans hack⟩, fun _ => rfl⟩
  exact hfinished.of_endPart rfl rfl

/-- A chunk leaves the record as it is, unless it fills the last gap in front of a FIN. -/
theorem Ends.on_chunk (h : Ends fin stream) {seq : Nat} (hseq : fin ≠ some seq)
    (hfills : ∀ first, seq = stream.ack_nr + 1 → fin = some first → seq < first →
      ∃ other, seq < other ∧ other ≤ first ∧ other ∉ stream._reorder.keys)
    (payload : Bytes) : Ends fin (stream.on_data ST_DATA seq payload) := by
  unfold UtpStream.on_data
  extract_lets taken finished
  have htaken : Ends fin taken := by
    unfold taken
    by_cases hnext : seq = stream.ack_nr + 1
    · rw [if_pos hnext]
      obtain ⟨hack, hall, hpart⟩ := on_next_spec stream ST_DATA seq payload
      have hdata : ST_DATA ≠ ST_FIN := by decide
      rw [if_neg hdata] at hpart
      simp only [UtpStream.endPart, Prod.mk.injEq] at hpart
      obtain ⟨hreceived, hsignalled⟩ := hpart
      refine ⟨?_, ?_, ?_⟩
      · intro first hfirst hle
        rw [hreceived]
        by_cases hold : first ≤ stream.ack_nr
        · exact h.recorded first hfirst hold
        · have hne : seq ≠ first := fun hsame => hseq (hsame ▸ hfirst)
          obtain ⟨other, hlow, hhigh, hmissing⟩ := hfills first hnext hfirst (by omega)
          exact absurd (hall other hlow (hhigh.trans hle)) hmissing
      · intro hrecorded
        rw [hreceived] at hrecorded
        obtain ⟨first, hfirst, hle⟩ := h.acknowledged hrecorded
        exact ⟨first, hfirst, by omega⟩
      · rw [hreceived, hsignalled]
        exact h.signalled
    · rw [if_neg hnext]
      split
      · exact h.of_endPart rfl rfl
      · exact h
  have hkept : finished = taken := if_neg fun hfin => absurd hfin.1 (by decide)
  rw [hkept]
  exact htaken.of_endPart rfl rfl

theorem Ends.on_wire_packet {packet : Bytes} (h : Ends fin stream) (hpacket : FinPacket fin packet)
    (hfills : ¬stream.Fills fin packet) : Ends fin (stream.on_wire_packet packet) := by
  unfold UtpStream.on_wire_packet
  split
  · exact h
  · rename_i hopen
    split
    · exact h
    · rename_i ptype seq ack payload hunpack
      extract_lets acked
      have hacked : Ends fin acked ∧ acked.ack_nr = stream.ack_nr ∧ acked._reorder = stream._reorder := by
        unfold acked
        split
        · exact ⟨h.of_endPart rfl rfl, rfl, rfl⟩
        · exact ⟨h, rfl, rfl⟩
      obtain ⟨hends, hack, hreorder⟩ := hacked
      by_cases hreset : ptype = ST_RESET
      · rw [if_pos hreset]
        exact ⟨hends.recorded, hends.acknowledged, fun _ => rfl⟩
      rw [if_neg hreset]
      rcases hpacket ptype seq ack payload hunpack with hsyn | hstate | ⟨hdata, hseq⟩ | ⟨hfin, first, hfirst, hle⟩
      · rw [if_pos hsyn]
        exact hends
      · have hsyn : ptype ≠ ST_SYN := by
          rw [hstate]
          decide
        rw [if_neg hsyn, if_pos hstate]
        exact hends.of_endPart rfl rfl
      · have hsyn : ptype ≠ ST_SYN := by
          rw [hdata]
          decide
        have hstate : ptype ≠ ST_STATE := by
          rw [hdata]
          decide
        rw [if_neg hsyn, if_neg hstate, hdata]
        rw [hdata] at hunpack
        apply hends.on_chunk hseq
        intro first hnext hfirst hlt
        rw [hack] at hnext
        rw [hreorder]
        by_contra hnone
        push Not at hnone
        rw [hnext] at hunpack hlt hnone
        exact hfills ⟨Bool.eq_false_iff.mpr hopen, ack, payload, first, hunpack, hfirst, hlt, hnone⟩
      · have hsyn : ptype ≠ ST_SYN := by
          rw [hfin]
          decide
        have hstate : ptype ≠ ST_STATE := by
          rw [hfin]
          decide
        rw [if_neg hsyn, if_neg hstate, hfin]
        exact hends.on_fin_packet hfirst hle payload

/-- What an endpoint does by itself neither acknowledges nor records anything. -/
theorem Ends.local_after {packets : List Bytes} (h : Ends fin stream) {event : UtpEvent}
    (hlocal : ∀ index, event ≠ .deliver index) : Ends fin (stream.after packets event) := by
  cases event with
  | deliver index => exact absurd rfl (hlocal index)
  | send chunk now_us =>
    simp only [UtpStream.after, UtpStream.send]
    split
    · exact h
    · exact h.of_endPart rfl rfl
  | close now_us =>
    simp only [UtpStream.after, UtpStream.close]
    split
    · exact h
    · exact h.of_endPart rfl rfl
  | ack now_us =>
    simp only [UtpStream.after, UtpStream.send_ack]
    split
    · exact h
    · exact h.of_endPart rfl rfl
  | record index now =>
    simp only [UtpStream.after, UtpStream.record]
    split
    · exact h
    · exact h.of_endPart rfl rfl
  | closed =>
    simp only [UtpStream.after, UtpStream.end_close]
    split
    · exact h
    · exact ⟨h.recorded, h.acknowledged, fun _ => rfl⟩
  | wake now =>
    simp only [UtpStream.after, UtpStream.wake]
    split
    · exact h.of_endPart rfl rfl
    · exact h
  | resent =>
    simp only [UtpStream.after, UtpStream.resent]
    split
    · exact h.of_endPart rfl rfl
    · exact h
  | resend now_us =>
    simp only [UtpStream.after, UtpStream.resend]
    split
    · exact h.of_endPart rfl rfl
    · split_ifs
      · exact ⟨h.recorded, h.acknowledged, fun _ => rfl⟩
      · exact h.of_endPart rfl rfl
      · exact h.of_endPart rfl rfl
    · exact h

theorem Ends.after {packets : List Bytes} (h : Ends fin stream) (hpackets : ∀ packet ∈ packets, FinPacket fin packet)
    (event : UtpEvent)
    (hfills : ∀ index packet, event = .deliver index → packets[index]? = some packet → ¬stream.Fills fin packet) :
    Ends fin (stream.after packets event) := by
  by_cases hdeliver : ∃ index, event = .deliver index
  · obtain ⟨index, rfl⟩ := hdeliver
    simp only [UtpStream.after]
    cases hget : packets[index]? with
    | none => exact h
    | some packet => exact h.on_wire_packet (hpackets packet (List.mem_of_getElem? hget)) (hfills index packet rfl hget)
  · exact h.local_after fun index hsame => hdeliver ⟨index, hsame⟩

/-- A FIN that is sent has not been acknowledged. -/
theorem Ends.sender_after {base : Nat} {sender : UtpStream} (h : Ends fin stream) (hsends : Sends base sender)
    (hreceives : Receives base sender.log stream) {event : UtpEvent} (hmeets : sender.Meets event) :
    Ends (sender.fin_after fin event) stream := by
  cases event with
  | close now_us =>
    unfold UtpStream.fin_after
    split_ifs with hclosed
    · exact h
    · cases fin with
      | some first => exact h
      | none =>
        have hseq := (hsends.next_eq (hmeets (Bool.eq_false_iff.mpr hclosed))).1
        obtain ⟨count, hcount, hack, _⟩ := hreceives.taken
        have hnothing : stream._fin_received = true → False := by
          intro hrecorded
          obtain ⟨first, hfirst, _⟩ := h.acknowledged hrecorded
          cases hfirst
        refine ⟨?_, fun hrecorded => (hnothing hrecorded).elim, h.signalled⟩
        rintro first ⟨⟩ hle
        omega
  | _ => exact h

end Receiving

section Runs

variable {link : UtpLink} {side : Side} {fin : Option Nat}

/-- The first number that a side gives. -/
def Side.base : Side → Nat
  | .initiator => 2
  | .acceptor => 1

/-- In one direction, the end of the stream is recorded when it is acknowledged. -/
structure UtpLink.Ending (link : UtpLink) (side : Side) (fin : Option Nat) : Prop where
  ordered : link.Ordered
  finishes : Finishes fin (link.side side)
  ends : Ends fin (link.side side.other)

theorem UtpLink.Ordered.sends (h : link.Ordered) (side : Side) : Sends side.base (link.side side) := by
  cases side with
  | initiator => exact h.initiator
  | acceptor => exact h.acceptor

theorem UtpLink.Ordered.receives (h : link.Ordered) (side : Side) :
    Receives side.base (link.side side).log (link.side side.other) := by
  cases side with
  | initiator => exact h.to_acceptor
  | acceptor => exact h.to_initiator

theorem UtpLink.Ending.step (h : link.Ending side fin) {event : Side × UtpEvent}
    (hmeets : (link.side event.1).Meets event.2)
    (hfills : ∀ index packet, event = (side.other, .deliver index) → (link.side side).outbox[index]? = some packet →
      ¬(link.side side.other).Fills fin packet) :
    (link.step event).Ending side (link.fin_after side fin event) := by
  have hordered := h.ordered.step hmeets
  have hsends := h.ordered.sends side
  have hreceives := h.ordered.receives side
  obtain ⟨actor, event⟩ := event
  cases side with
  | initiator =>
    cases actor with
    | initiator => exact ⟨hordered, h.finishes.after hsends hmeets, h.ends.sender_after hsends hreceives hmeets⟩
    | acceptor =>
      exact ⟨hordered, h.finishes, h.ends.after h.finishes.packets event fun index packet hevent hget =>
        hfills index packet (by rw [hevent]; rfl) hget⟩
  | acceptor =>
    cases actor with
    | initiator =>
      exact ⟨hordered, h.finishes, h.ends.after h.finishes.packets event fun index packet hevent hget =>
        hfills index packet (by rw [hevent]; rfl) hget⟩
    | acceptor => exact ⟨hordered, h.finishes.after hsends hmeets, h.ends.sender_after hsends hreceives hmeets⟩

theorem UtpLink.Ending.run (h : link.Ending side fin) {events : List (Side × UtpEvent)}
    (hmeets : link.MeetsEnding side fin events) :
    (link.run events).Ending side (link.fin_of side fin events) := by
  induction events generalizing link fin with
  | nil => exact h
  | cons event rest ih => exact ih (h.step hmeets.1 hmeets.2.1) hmeets.2.2

/-- The handshake has neither sent nor recorded a FIN. -/
theorem ending_connected (conn_id now_us : Nat) {syn_sent : OrderedDict Nat (ℚ × Bytes)}
    (hsyn : ∀ entry ∈ syn_sent.entries, entry.1 = 1 ∧ entry.2.2 = SYN) (side : Side) :
    (UtpLink.connected conn_id now_us syn_sent).Ending side none := by
  refine ⟨ordered_connected conn_id now_us hsyn, ?_, ?_⟩
  · cases side with
    | initiator =>
      refine ⟨nofun, ?_, nofun, nofun, ?_⟩
      · intro entry hentry
        refine ⟨fun hdata => ?_, nofun⟩
        rw [(hsyn entry hentry).2] at hdata
        exact absurd hdata (by decide)
      · intro packet hpacket
        rw [List.mem_singleton.mp hpacket, ← List.append_nil (header _ _ _ _ _)]
        exact finPacket_header (by decide) (.inl rfl)
    | acceptor =>
      refine ⟨nofun, nofun, nofun, nofun, ?_⟩
      intro packet hpacket
      rw [List.mem_singleton.mp hpacket, ← List.append_nil (header _ _ _ _ _)]
      exact finPacket_header (by decide) (.inr (.inl rfl))
  · cases side with
    | initiator => exact ⟨nofun, nofun, nofun⟩
    | acceptor => exact ⟨nofun, nofun, nofun⟩

theorem payloads_fin (front : List (Nat × Bytes)) (seq : Nat) : payloads (front ++ [(seq, [])]) = payloads front := by
  rw [payloads_append]
  exact List.append_nil _

end Runs

/-- The end of a stream is recorded when it is acknowledged, and not before all chunks in front of it are queued,
as long as no chunk fills the last gap in front of a FIN that has come early, no side uses up its sequence numbers
and no chunk `FIN` is sent again. -/
theorem utp_ends_in_order (conn_id now_us : Nat) (syn_sent : OrderedDict Nat (ℚ × Bytes))
    (hsyn : ∀ entry ∈ syn_sent.entries, entry.1 = 1 ∧ entry.2.2 = SYN) (side : Side)
    (events : List (Side × UtpEvent))
    (hmeets : (UtpLink.connected conn_id now_us syn_sent).MeetsEnding side none events) :
    let link := (UtpLink.connected conn_id now_us syn_sent).run events
    let fin := (UtpLink.connected conn_id now_us syn_sent).fin_of side none events
    let receiver := link.side side.other
    (∀ first, fin = some first → first ≤ receiver.ack_nr → receiver._fin_received = true ∧ receiver._eof_evt = true) ∧
      (receiver._fin_received = true → ∃ first front rest, fin = some first ∧
        (link.side side).log = front ++ (first, []) :: rest ∧ payloads front <+: receiver._incoming) := by
  intro link fin receiver
  have hending : link.Ending side fin := (ending_connected conn_id now_us hsyn side).run hmeets
  constructor
  · intro first hfirst hle
    have hrecorded := hending.ends.recorded first hfirst hle
    exact ⟨hrecorded, hending.ends.signalled hrecorded⟩
  · intro hrecorded
    obtain ⟨first, hfirst, hle⟩ := hending.ends.acknowledged hrecorded
    obtain ⟨front, rest, hlog⟩ := List.append_of_mem (hending.finishes.logged first hfirst)
    have hqueued := (hending.ordered.receives side).queued (hending.ordered.sends side).numbered hle hlog
    rw [payloads_fin] at hqueued
    exact ⟨first, front, rest, hfirst, hlog, hqueued⟩

/-- A chunk and a FIN, which arrive in order. -/
def endingEvents : List (Side × UtpEvent) :=
  [(.initiator, .send [1, 2] 0), (.initiator, .close 0), (.acceptor, .deliver 1), (.acceptor, .deliver 2)]

theorem utp_ends_in_order_chunk :
    let link := (UtpLink.connected 7 0 .empty).run endingEvents
    let fin := (UtpLink.connected 7 0 .empty).fin_of .initiator none endingEvents
    (∀ first, fin = some first → first ≤ (link.side .acceptor).ack_nr →
        (link.side .acceptor)._fin_received = true ∧ (link.side .acceptor)._eof_evt = true) ∧
      ((link.side .acceptor)._fin_received = true → ∃ first front rest, fin = some first ∧
        (link.side .initiator).log = front ++ (first, []) :: rest ∧
          payloads front <+: (link.side .acceptor)._incoming) := by
  refine utp_ends_in_order 7 0 .empty nofun .initiator endingEvents ⟨?_, nofun, ?_, nofun, trivial, ?_, trivial, ?_, trivial⟩
  · exact fun _ => Nat.succ_ne_zero 1
  · exact fun _ => Nat.succ_ne_zero 2
  · rintro index packet hevent hget ⟨_, ack, payload, first, _, hfirst, hlt, hall⟩
    cases hfirst
    exact absurd (hall 3 (by decide) (by decide)) (by decide)
  · rintro index packet hevent hget ⟨_, ack, payload, first, hunpack, _⟩
    cases hevent
    have hpacket : packet = header 0 ST_FIN 7 3 0 ++ [] := (Option.some.inj hget).symm
    rw [hpacket, unpack_header _ (by decide : ST_FIN < 16)] at hunpack
    have htype : ST_FIN = ST_DATA := congrArg Prod.fst (Option.some.inj hunpack)
    exact absurd htype (by decide)

/-- A FIN that comes before the chunk in front of it. -/
def earlyEvents : List (Side × UtpEvent) :=
  [(.initiator, .send [1, 2] 0), (.initiator, .close 0), (.acceptor, .deliver 2), (.acceptor, .deliver 1)]

/-- The chunk is taken, and the FIN is acknowledged without being recorded. -/
theorem early_fin_not_recorded :
    ((UtpLink.connected 7 0 .empty).fin_of .initiator none earlyEvents = some 3 ∧
        ((UtpLink.connected 7 0 .empty).run earlyEvents).acceptor.ack_nr = 3 ∧
        ((UtpLink.connected 7 0 .empty).run earlyEvents).acceptor._incoming = [[1, 2]]) ∧
      ((UtpLink.connected 7 0 .empty).run earlyEvents).acceptor._fin_received = false ∧
      ((UtpLink.connected 7 0 .empty).run earlyEvents).acceptor._eof_evt = false := by
  decide +kernel

end amuled.natt
