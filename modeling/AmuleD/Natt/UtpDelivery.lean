import AmuleD.Natt.Utp

open littleendian

namespace amuled.natt

section Wire

@[simp] theorem length_field (width value : Nat) : (field width value).length = width := by simp [field]

theorem decode_field {width value : Nat} (hfits : value < 256 ^ width) : decode (field width value).reverse = value := by
  rw [field, List.reverse_reverse, decode_encode hfits]

/-- A packet is read as it was made. -/
theorem unpack_header (now_us : Nat) {ptype : Nat} (hptype : ptype < 16) (conn_id seq ack : Nat) (payload : Bytes) :
    unpack (header now_us ptype conn_id seq ack ++ payload) =
      some (ptype, seq % 2 ^ 16, ack % 2 ^ 16, payload) := by
  have hseq : seq % 2 ^ 16 < 256 ^ 2 := Nat.mod_lt _ (by omega)
  have hack : ack % 2 ^ 16 < 256 ^ 2 := Nat.mod_lt _ (by omega)
  have hfirst : (UInt8.ofNat (ptype <<< 4 ||| UTP_VERSION)).toNat = 16 * ptype + 1 := by
    rw [UTP_VERSION, ← Nat.shiftLeft_add_eq_or_of_lt (by omega), UInt8.toNat_ofNat', Nat.shiftLeft_eq]
    omega
  obtain ⟨front, hfront, hlength⟩ : ∃ front, front = [UInt8.ofNat (ptype <<< 4 ||| UTP_VERSION), 0] ++
      field 2 (conn_id % 2 ^ 16) ++ field 4 (now_us % 2 ^ 32) ++ field 4 0 ++ field 4 WINDOW ∧ front.length = 16 :=
    ⟨_, rfl, by simp only [List.length_append, length_field, List.length_cons, List.length_nil]⟩
  have hpacket : header now_us ptype conn_id seq ack ++ payload =
      front ++ (field 2 (seq % 2 ^ 16) ++ (field 2 (ack % 2 ^ 16) ++ payload)) := by
    rw [hfront]
    simp only [header, List.append_assoc]
  have hbyte : (header now_us ptype conn_id seq ack ++ payload).getD 0 0 =
      UInt8.ofNat (ptype <<< 4 ||| UTP_VERSION) := rfl
  have hsize : (header now_us ptype conn_id seq ack ++ payload).length = 20 + payload.length := by
    rw [hpacket]
    simp only [List.length_append, length_field, hlength]
    omega
  have hseqSlice : (header now_us ptype conn_id seq ack ++ payload).extract 16 18 = field 2 (seq % 2 ^ 16) := by
    rw [hpacket]
    exact extract_piece hlength (by rw [length_field])
  have hackSlice : (header now_us ptype conn_id seq ack ++ payload).extract 18 20 = field 2 (ack % 2 ^ 16) := by
    rw [hpacket, ← List.append_assoc]
    exact extract_piece (by rw [List.length_append, hlength, length_field]) (by rw [length_field])
  have hpayload : (header now_us ptype conn_id seq ack ++ payload).drop 20 = payload := by
    rw [hpacket, ← List.append_assoc, ← List.append_assoc]
    exact List.drop_left' (by simp only [List.length_append, length_field, hlength])
  have hversion : (16 * ptype + 1) % 16 = UTP_VERSION := by
    rw [UTP_VERSION]
    omega
  have hshift : (16 * ptype + 1) >>> 4 = ptype := by
    rw [Nat.shiftRight_eq_div_pow]
    omega
  rw [unpack, hsize, HEADER_LEN, if_neg (by omega)]
  simp only [hbyte, hfirst, hversion, hshift, hseqSlice, hackSlice, hpayload, decode_field hseq, decode_field hack]
  rfl

end Wire

/-- What an entry of `_sent` stands for: the SYN, a FIN or a chunk. -/
def Stored (base : Nat) (log : List (Nat × Bytes)) (seq : Nat) (data : Bytes) : Prop :=
  (seq < base ∧ data = SYN) ∨ (data = FIN ∧ (seq, []) ∈ log) ∨ (seq, data) ∈ log

/-- A packet with a sequence number of its own carries the chunk of that number. -/
def Carries (log : List (Nat × Bytes)) (packet : Bytes) : Prop :=
  ∀ ptype seq ack payload, unpack packet = some (ptype, seq, ack, payload) →
    ptype = ST_SYN ∨ ptype = ST_STATE ∨ (seq, payload) ∈ log

/-- A packet acknowledges nothing beyond a number. -/
def AcksAtMost (ack_nr : Nat) (packet : Bytes) : Prop :=
  ∀ ptype seq ack payload, unpack packet = some (ptype, seq, ack, payload) → ptype ≠ ST_SYN → ack ≤ ack_nr

/-- The entries that the retransmission still has to look at. -/
def Retransmit.entries : Retransmit → List (Nat × Bytes)
  | .asleep => []
  | .listed _ items => items.map fun item => (item.1, item.2.2)
  | .sending _ seq data items => (seq, data) :: items.map fun item => (item.1, item.2.2)

/-- An endpoint whose first sequence number is `base`: its chunks are numbered one after the other, and
whatever it keeps or has sent stands for one of them. -/
structure Sends (base : Nat) (sender : UtpStream) : Prop where
  room : base + sender.log.length ≤ 2 ^ 16
  next : sender.seq_nr = (base + sender.log.length) % 2 ^ 16
  numbered : sender.log.map Prod.fst = List.range' base sender.log.length
  sent : ∀ entry ∈ sender._sent.entries, Stored base sender.log entry.1 entry.2.2
  sending : ∀ entry ∈ sender.sending, Stored base sender.log entry.1 entry.2
  listed : ∀ entry ∈ sender._retransmit_task.entries, Stored base sender.log entry.1 entry.2
  packets : ∀ packet ∈ sender.outbox, Carries sender.log packet

/-- An endpoint has queued the first chunks of the other side, up to the number that it acknowledges. -/
structure Receives (base : Nat) (log : List (Nat × Bytes)) (receiver : UtpStream) : Prop where
  taken : ∃ count ≤ log.length, receiver.ack_nr + 1 = base + count ∧
    receiver._incoming = payloads (log.take count)
  reorder : ∀ entry ∈ receiver._reorder.entries, entry ∈ log

def Acknowledges (stream : UtpStream) : Prop := ∀ packet ∈ stream.outbox, AcksAtMost stream.ack_nr packet

section Log

variable {base : Nat} {log rest : List (Nat × Bytes)} {seq : Nat} {data packet : Bytes}

theorem payloads_append (log rest : List (Nat × Bytes)) : payloads (log ++ rest) = payloads log ++ payloads rest := by
  rw [payloads, List.map_append, List.filter_append]
  rfl

theorem Stored.append (h : Stored base log seq data) (rest : List (Nat × Bytes)) :
    Stored base (log ++ rest) seq data := by
  rcases h with hsyn | ⟨hfin, hmem⟩ | hmem
  · exact .inl hsyn
  · exact .inr (.inl ⟨hfin, List.mem_append_left rest hmem⟩)
  · exact .inr (.inr (List.mem_append_left rest hmem))

theorem Carries.append (h : Carries log packet) (rest : List (Nat × Bytes)) : Carries (log ++ rest) packet := by
  intro ptype seq ack payload hunpack
  rcases h ptype seq ack payload hunpack with hsyn | hstate | hmem
  · exact .inl hsyn
  · exact .inr (.inl hstate)
  · exact .inr (.inr (List.mem_append_left rest hmem))

theorem Receives.append {receiver : UtpStream} (h : Receives base log receiver) (rest : List (Nat × Bytes)) :
    Receives base (log ++ rest) receiver := by
  obtain ⟨count, hcount, hack, hincoming⟩ := h.taken
  refine ⟨⟨count, ?_, hack, ?_⟩, fun entry hentry => List.mem_append_left rest (h.reorder entry hentry)⟩
  · rw [List.length_append]
    omega
  · rw [List.take_append_of_le_length hcount]
    exact hincoming

/-- A chunk stands in the log at its number. -/
theorem getElem?_of_mem (hnumbered : log.map Prod.fst = List.range' base log.length) (hmem : (seq, data) ∈ log) :
    ∃ index, seq = base + index ∧ log[index]? = some (seq, data) := by
  obtain ⟨index, hindex, hget⟩ := List.getElem_of_mem hmem
  refine ⟨index, ?_, ?_⟩
  · have hfst : (log.map Prod.fst)[index]? = some seq := by
      rw [List.getElem?_map, List.getElem?_eq_getElem hindex, hget]
      rfl
    rw [hnumbered, List.getElem?_range' hindex, Option.some.injEq] at hfst
    omega
  · rw [List.getElem?_eq_getElem hindex, hget]

theorem lt_of_mem (hnumbered : log.map Prod.fst = List.range' base log.length) (hmem : (seq, data) ∈ log) :
    base ≤ seq ∧ seq < base + log.length := by
  obtain ⟨index, hseq, hget⟩ := getElem?_of_mem hnumbered hmem
  obtain ⟨hindex, _⟩ := List.getElem?_eq_some_iff.mp hget
  omega

end Log

/-- An endpoint stays clear of the two gaps of the code: it does not start again with its sequence numbers,
and an entry that it sends again as a FIN is not a chunk. -/
def UtpStream.Meets (stream : UtpStream) : UtpEvent → Prop
  | .send _ _ => stream._closed = false → stream.seq_nr ≠ 0
  | .close _ => stream._closed = false → stream.seq_nr ≠ 0
  | .resend _ => ∀ now seq sent_at items,
      stream._retransmit_task = .listed now ((seq, sent_at, FIN) :: items) →
        now - sent_at ≤ MAX_RETRIES * RETRANSMIT_INTERVAL → now - sent_at ≥ RETRANSMIT_INTERVAL →
          (seq, FIN) ∉ stream.log
  | _ => True

section Sending

variable {base : Nat} {stream : UtpStream}

theorem carries_state (log : List (Nat × Bytes)) (now_us conn_id seq ack : Nat) (payload : Bytes) :
    Carries log (header now_us ST_STATE conn_id seq ack ++ payload) := by
  intro ptype seq' ack' payload' hunpack
  rw [unpack_header _ (by decide : ST_STATE < 16)] at hunpack
  cases hunpack
  exact .inr (.inl rfl)

theorem carries_syn (log : List (Nat × Bytes)) (now_us conn_id seq ack : Nat) (payload : Bytes) :
    Carries log (header now_us ST_SYN conn_id seq ack ++ payload) := by
  intro ptype seq' ack' payload' hunpack
  rw [unpack_header _ (by decide : ST_SYN < 16)] at hunpack
  cases hunpack
  exact .inl rfl

theorem carries_of_mem {log : List (Nat × Bytes)} {seq : Nat} {payload : Bytes} (hmem : (seq, payload) ∈ log)
    (hseq : seq < 2 ^ 16) {ptype : Nat} (hptype : ptype < 16) (now_us conn_id ack : Nat) :
    Carries log (header now_us ptype conn_id seq ack ++ payload) := by
  intro ptype' seq' ack' payload' hunpack
  rw [unpack_header _ hptype, Nat.mod_eq_of_lt hseq] at hunpack
  cases hunpack
  exact .inr (.inr hmem)

/-- A packet goes out that carries what is in the log. -/
theorem Sends.send_packet (h : Sends base stream) {now_us ptype seq ack : Nat} {payload : Bytes}
    (hcarries : Carries stream.log (header now_us ptype stream.conn_id_send seq ack ++ payload)) :
    Sends base (stream.send_packet now_us ptype seq ack payload) := by
  refine ⟨h.room, h.next, h.numbered, h.sent, h.sending, h.listed, ?_⟩
  intro packet hpacket
  rcases List.mem_append.mp hpacket with hold | hnew
  · exact h.packets packet hold
  · rw [List.mem_singleton.mp hnew]
    exact hcarries

/-- The next number is given to a chunk, or to a FIN. -/
theorem Sends.number (h : Sends base stream) (hnext : stream.seq_nr ≠ 0) {data payload : Bytes}
    (hdata : data = payload ∨ data = FIN ∧ payload = []) :
    stream.seq_nr < 2 ^ 16 ∧ Sends base { stream with
      seq_nr := (stream.seq_nr + 1) % 2 ^ 16
      sending := stream.sending ++ [(stream.seq_nr, data)]
      log := stream.log ++ [(stream.seq_nr, payload)] } := by
  have hroom := h.room
  have hseq : stream.seq_nr = base + stream.log.length := by
    rw [h.next] at hnext ⊢
    apply Nat.mod_eq_of_lt
    by_contra hfull
    have hend : base + stream.log.length = 2 ^ 16 := by omega
    rw [hend] at hnext
    exact hnext (Nat.mod_self _)
  have hlt : stream.seq_nr < 2 ^ 16 := by
    rw [h.next]
    exact Nat.mod_lt _ (by omega)
  refine ⟨hlt, ?_, ?_, ?_, ?_, ?_, ?_, ?_⟩
  · simp only [List.length_append, List.length_singleton]
    omega
  · simp only [List.length_append, List.length_singleton]
    rw [hseq, Nat.add_assoc]
  · simp only [List.map_append, List.map_singleton, List.length_append, List.length_singleton]
    rw [h.numbered, List.range'_concat, Nat.one_mul, hseq]
  · exact fun entry hentry => (h.sent entry hentry).append _
  · intro entry hentry
    rcases List.mem_append.mp hentry with hold | hnew
    · exact (h.sending entry hold).append _
    · rw [List.mem_singleton.mp hnew]
      have hmem : (stream.seq_nr, payload) ∈ stream.log ++ [(stream.seq_nr, payload)] :=
        List.mem_append_right _ (List.mem_singleton_self _)
      rcases hdata with rfl | ⟨rfl, rfl⟩
      · exact .inr (.inr hmem)
      · exact .inr (.inl ⟨rfl, hmem⟩)
  · exact fun entry hentry => (h.listed entry hentry).append _
  · exact fun packet hpacket => (h.packets packet hpacket).append _

theorem Sends.send (h : Sends base stream) (chunk : Bytes) (now_us : Nat)
    (hnext : stream._closed = false → stream.seq_nr ≠ 0) : Sends base (stream.send chunk now_us) := by
  unfold UtpStream.send
  split
  · exact h
  · rename_i hopen
    have hchunk : chunk = chunk ∨ chunk = FIN ∧ chunk = [] := .inl rfl
    obtain ⟨hlt, hnumbered⟩ := h.number (hnext (Bool.eq_false_iff.mpr hopen)) hchunk
    apply hnumbered.send_packet
    exact carries_of_mem (List.mem_append_right _ (List.mem_singleton_self _)) hlt (by decide) _ _ _

theorem Sends.close (h : Sends base stream) (now_us : Nat)
    (hnext : stream._closed = false → stream.seq_nr ≠ 0) : Sends base (stream.close now_us) := by
  unfold UtpStream.close
  split
  · exact h
  · rename_i hopen
    obtain ⟨hlt, hnumbered⟩ := h.number (hnext (Bool.eq_false_iff.mpr hopen)) (.inr ⟨rfl, rfl⟩)
    have hclosing : Sends base { stream with
        seq_nr := (stream.seq_nr + 1) % 2 ^ 16
        sending := stream.sending ++ [(stream.seq_nr, FIN)]
        log := stream.log ++ [(stream.seq_nr, [])]
        closing := stream.closing + 1 } :=
      ⟨hnumbered.room, hnumbered.next, hnumbered.numbered, hnumbered.sent, hnumbered.sending, hnumbered.listed,
        hnumbered.packets⟩
    apply hclosing.send_packet
    exact carries_of_mem (List.mem_append_right _ (List.mem_singleton_self _)) hlt (by decide) _ _ _

theorem Sends.record (h : Sends base stream) (index : Nat) (now : ℚ) : Sends base (stream.record index now) := by
  unfold UtpStream.record
  split
  · exact h
  · rename_i seq data hget
    refine ⟨h.room, h.next, h.numbered, ?_, ?_, h.listed, h.packets⟩
    · intro entry hentry
      rcases OrderedDict.mem_set.mp hentry with rfl | ⟨_, hold⟩
      · exact h.sending _ (List.mem_of_getElem? hget)
      · exact h.sent entry hold
    · exact fun entry hentry => h.sending entry (List.mem_of_mem_eraseIdx hentry)

theorem Sends.fail (h : Sends base stream) : Sends base stream.fail :=
  ⟨h.room, h.next, h.numbered, h.sent, h.sending, nofun, h.packets⟩

theorem Sends.end_close (h : Sends base stream) : Sends base stream.end_close := by
  unfold UtpStream.end_close
  split
  · exact h
  · exact ⟨h.room, h.next, h.numbered, h.sent, h.sending, nofun, h.packets⟩

theorem Sends.send_ack (h : Sends base stream) (now_us : Nat) : Sends base (stream.send_ack now_us) := by
  unfold UtpStream.send_ack
  split
  · exact h
  · have hrest : Sends base { stream with acks := stream.acks - 1 } :=
      ⟨h.room, h.next, h.numbered, h.sent, h.sending, h.listed, h.packets⟩
    exact hrest.send_packet (carries_state _ _ _ _ _ _)

theorem Sends.wake (h : Sends base stream) (now : ℚ) : Sends base (stream.wake now) := by
  unfold UtpStream.wake
  split
  · refine ⟨h.room, h.next, h.numbered, h.sent, h.sending, ?_, h.packets⟩
    intro entry hentry
    obtain ⟨item, hitem, rfl⟩ := List.mem_map.mp hentry
    exact h.sent item hitem
  · exact h

/-- An entry is sent again as what it stands for. -/
theorem Sends.carries_resend (h : Sends base stream) {seq : Nat} {data : Bytes}
    (hstored : Stored base stream.log seq data) (hfin : data = FIN → (seq, FIN) ∉ stream.log) (now_us ack : Nat) :
    Carries stream.log (header now_us (UtpStream.resend_type data) stream.conn_id_send seq ack ++
      UtpStream.resend_payload data) := by
  have hlt : ∀ payload, (seq, payload) ∈ stream.log → seq < 2 ^ 16 := by
    intro payload hmem
    have hbelow := lt_of_mem h.numbered hmem
    have hroom := h.room
    omega
  unfold UtpStream.resend_type UtpStream.resend_payload
  by_cases hdata : data = FIN
  · subst hdata
    rw [if_pos rfl, if_pos (.inl rfl)]
    rcases hstored with ⟨_, hsyn⟩ | ⟨_, hmem⟩ | hmem
    · exact absurd hsyn (by decide)
    · exact carries_of_mem hmem (hlt _ hmem) (by decide) _ _ _
    · exact absurd hmem (hfin rfl)
  · rw [if_neg hdata]
    by_cases hsyn : data = SYN
    · rw [if_pos hsyn]
      exact carries_syn _ _ _ _ _ _
    · rw [if_neg hsyn, if_neg (not_or.mpr ⟨hdata, hsyn⟩)]
      rcases hstored with ⟨_, hsame⟩ | ⟨hsame, _⟩ | hmem
      · exact absurd hsame hsyn
      · exact absurd hsame hdata
      · exact carries_of_mem hmem (hlt _ hmem) (by decide) _ _ _

theorem Sends.resend (h : Sends base stream) (now_us : Nat) (hmeets : stream.Meets (.resend now_us)) :
    Sends base (stream.resend now_us) := by
  unfold UtpStream.resend
  cases htask : stream._retransmit_task with
  | asleep => exact h
  | sending now seq data items => exact h
  | listed now items =>
    cases items with
    | nil => exact ⟨h.room, h.next, h.numbered, h.sent, h.sending, nofun, h.packets⟩
    | cons item items =>
      obtain ⟨seq, sent_at, data⟩ := item
      have hlisted := h.listed
      rw [htask] at hlisted
      have hstored : Stored base stream.log seq data := hlisted (seq, data) List.mem_cons_self
      dsimp only
      by_cases hlate : now - sent_at > MAX_RETRIES * RETRANSMIT_INTERVAL
      · rw [if_pos hlate]
        exact h.fail
      · rw [if_neg hlate]
        by_cases hdue : now - sent_at ≥ RETRANSMIT_INTERVAL
        · rw [if_pos hdue]
          have hsending : Sends base { stream with _retransmit_task := .sending now seq data items } :=
            ⟨h.room, h.next, h.numbered, h.sent, h.sending, hlisted, h.packets⟩
          apply hsending.send_packet
          apply hsending.carries_resend hstored
          rintro rfl
          exact hmeets now seq sent_at items htask (not_lt.mp hlate) hdue
        · rw [if_neg hdue]
          refine ⟨h.room, h.next, h.numbered, h.sent, h.sending, ?_, h.packets⟩
          exact fun entry hentry => hlisted entry (List.mem_cons_of_mem _ hentry)

theorem Sends.resent (h : Sends base stream) : Sends base stream.resent := by
  unfold UtpStream.resent
  cases htask : stream._retransmit_task with
  | asleep => exact h
  | listed now items => exact h
  | sending now seq data items =>
    have hlisted := h.listed
    rw [htask] at hlisted
    refine ⟨h.room, h.next, h.numbered, ?_, h.sending, ?_, h.packets⟩
    · intro entry hentry
      rcases OrderedDict.mem_set.mp hentry with rfl | ⟨_, hold⟩
      · exact hlisted (seq, data) List.mem_cons_self
      · exact h.sent entry hold
    · exact fun entry hentry => hlisted entry (List.mem_cons_of_mem _ hentry)

end Sending

section Receiving

variable {base : Nat} {log : List (Nat × Bytes)} {stream : UtpStream} {seq : Nat} {payload packet : Bytes}

/-- What a packet with a sequence number leaves as it is. -/
def UtpStream.senderPart (stream : UtpStream) :=
  (stream.seq_nr, stream.log, stream._sent, stream.sending, stream._retransmit_task, stream.outbox)

@[simp] theorem senderPart_put (stream : UtpStream) (payload : Bytes) :
    (stream.put payload).senderPart = stream.senderPart := by
  unfold UtpStream.put
  split <;> rfl

theorem senderPart_drain (stream : UtpStream) (turns : Nat) :
    (stream.drain turns).senderPart = stream.senderPart := by
  induction turns generalizing stream with
  | zero => rfl
  | succ turns ih =>
    unfold UtpStream.drain
    dsimp only
    split
    · rfl
    · rw [ih]
      exact senderPart_put _ _

theorem senderPart_on_next (stream : UtpStream) (ptype seq_nr : Nat) (payload : Bytes) :
    (stream.on_next ptype seq_nr payload).senderPart = stream.senderPart := by
  have htaken : { stream.put payload with ack_nr := seq_nr }.senderPart = stream.senderPart :=
    senderPart_put stream payload
  unfold UtpStream.on_next
  dsimp only
  split
  · exact (senderPart_drain _ _).trans htaken
  · exact (senderPart_drain _ _).trans htaken

theorem senderPart_on_data (stream : UtpStream) (ptype seq_nr : Nat) (payload : Bytes) :
    (stream.on_data ptype seq_nr payload).senderPart = stream.senderPart := by
  unfold UtpStream.on_data
  extract_lets taken finished
  have htaken : taken.senderPart = stream.senderPart := by
    unfold taken
    split_ifs
    · exact senderPart_on_next stream ptype seq_nr payload
    · rfl
    · rfl
  have hfinished : finished.senderPart = taken.senderPart := by
    unfold finished
    split_ifs <;> rfl
  exact hfinished.trans htaken

/-- Taking the next chunk. -/
theorem Receives.put (h : Receives base log stream)
    (hnumbered : log.map Prod.fst = List.range' base log.length) (hmem : (stream.ack_nr + 1, payload) ∈ log) :
    Receives base log { stream.put payload with ack_nr := stream.ack_nr + 1 } := by
  obtain ⟨count, hcount, hack, hincoming⟩ := h.taken
  obtain ⟨index, hseq, hget⟩ := getElem?_of_mem hnumbered hmem
  have hindex : index = count := by omega
  subst hindex
  obtain ⟨hlt, _⟩ := List.getElem?_eq_some_iff.mp hget
  refine ⟨⟨index + 1, hlt, ?_, ?_⟩, ?_⟩
  · dsimp only
    omega
  · rw [List.take_add_one, hget, Option.toList_some, payloads_append, ← hincoming]
    unfold UtpStream.put
    by_cases hempty : payload = []
    · simp [hempty, payloads]
    · simp [hempty, payloads]
  · unfold UtpStream.put
    split
    · exact h.reorder
    · exact h.reorder

theorem Receives.drain (h : Receives base log stream)
    (hnumbered : log.map Prod.fst = List.range' base log.length) (turns : Nat) :
    Receives base log (stream.drain turns) ∧ stream.ack_nr ≤ (stream.drain turns).ack_nr := by
  induction turns generalizing stream with
  | zero => exact ⟨h, Nat.le_refl _⟩
  | succ turns ih =>
    unfold UtpStream.drain
    dsimp only
    split
    · exact ⟨h, Nat.le_refl _⟩
    · rename_i chunk hget
      have hpopped : Receives base log
          { stream with _reorder := stream._reorder.erase (stream.ack_nr + 1) } :=
        ⟨h.taken, fun entry hentry => h.reorder entry (OrderedDict.mem_erase.mp hentry).2⟩
      have hchunk := h.reorder _ (OrderedDict.mem_of_get hget)
      obtain ⟨hdrained, hle⟩ := ih (hpopped.put hnumbered hchunk)
      refine ⟨hdrained, le_trans ?_ hle⟩
      exact Nat.le_succ _

theorem Receives.on_next (h : Receives base log stream)
    (hnumbered : log.map Prod.fst = List.range' base log.length) (ptype : Nat)
    (hmem : (stream.ack_nr + 1, payload) ∈ log) :
    Receives base log (stream.on_next ptype (stream.ack_nr + 1) payload) ∧
      stream.ack_nr ≤ (stream.on_next ptype (stream.ack_nr + 1) payload).ack_nr := by
  obtain ⟨hdrained, hle⟩ := (h.put hnumbered hmem).drain hnumbered
    { stream.put payload with ack_nr := stream.ack_nr + 1 }._reorder.entries.length
  have hle' : stream.ack_nr ≤ _ := le_trans (Nat.le_succ _) hle
  unfold UtpStream.on_next
  dsimp only
  split
  · exact ⟨⟨hdrained.taken, hdrained.reorder⟩, hle'⟩
  · exact ⟨hdrained, hle'⟩

theorem Receives.on_data (h : Receives base log stream)
    (hnumbered : log.map Prod.fst = List.range' base log.length) (ptype : Nat) (hmem : (seq, payload) ∈ log) :
    Receives base log (stream.on_data ptype seq payload) ∧
      stream.ack_nr ≤ (stream.on_data ptype seq payload).ack_nr := by
  unfold UtpStream.on_data
  extract_lets taken finished
  have htaken : Receives base log taken ∧ stream.ack_nr ≤ taken.ack_nr := by
    unfold taken
    by_cases hnext : seq = stream.ack_nr + 1
    · subst hnext
      rw [if_pos rfl]
      exact h.on_next hnumbered ptype hmem
    · rw [if_neg hnext]
      split
      · refine ⟨⟨h.taken, ?_⟩, Nat.le_refl _⟩
        intro entry hentry
        rcases OrderedDict.mem_of_mem_setDefault hentry with rfl | hold
        · exact hmem
        · exact h.reorder entry hold
      · exact ⟨h, Nat.le_refl _⟩
  have hfinished : Receives base log finished ∧ stream.ack_nr ≤ finished.ack_nr := by
    unfold finished
    split
    · exact ⟨⟨htaken.1.taken, htaken.1.reorder⟩, htaken.2⟩
    · exact htaken
  exact ⟨⟨hfinished.1.taken, hfinished.1.reorder⟩, hfinished.2⟩

/-- A packet of the other side is taken for what it carries. -/
theorem Receives.on_wire_packet (h : Receives base log stream)
    (hnumbered : log.map Prod.fst = List.range' base log.length) (hcarries : Carries log packet) :
    Receives base log (stream.on_wire_packet packet) ∧ stream.ack_nr ≤ (stream.on_wire_packet packet).ack_nr := by
  unfold UtpStream.on_wire_packet
  split
  · exact ⟨h, Nat.le_refl _⟩
  · split
    · exact ⟨h, Nat.le_refl _⟩
    · rename_i ptype seq ack payload hunpack
      extract_lets acked
      have hacked : Receives base log acked ∧ acked.ack_nr = stream.ack_nr := by
        unfold acked
        split
        · exact ⟨⟨h.taken, h.reorder⟩, rfl⟩
        · exact ⟨h, rfl⟩
      rw [← hacked.2]
      by_cases hreset : ptype = ST_RESET
      · rw [if_pos hreset]
        exact ⟨⟨hacked.1.taken, hacked.1.reorder⟩, Nat.le_refl _⟩
      · rw [if_neg hreset]
        by_cases hsyn : ptype = ST_SYN
        · rw [if_pos hsyn]
          exact ⟨hacked.1, Nat.le_refl _⟩
        · rw [if_neg hsyn]
          by_cases hstate : ptype = ST_STATE
          · rw [if_pos hstate]
            exact ⟨⟨hacked.1.taken, hacked.1.reorder⟩, Nat.le_refl _⟩
          · rw [if_neg hstate]
            have hmem : (seq, payload) ∈ log :=
              ((hcarries _ _ _ _ hunpack).resolve_left hsyn).resolve_left hstate
            exact hacked.1.on_data hnumbered ptype hmem

/-- What a packet changes of the sending half: some packets are acknowledged, and the retransmission may
end. -/
structure Heard (packet : Bytes) (before after : UtpStream) : Prop where
  seq_nr : after.seq_nr = before.seq_nr
  log : after.log = before.log
  sending : after.sending = before.sending
  outbox : after.outbox = before.outbox
  sent : after._sent = before._sent ∨ ∃ ptype seq ack payload,
    unpack packet = some (ptype, seq, ack, payload) ∧ ptype ≠ ST_SYN ∧ after._sent = (before.on_ack ack)._sent
  task : after._retransmit_task = before._retransmit_task ∨ after._retransmit_task = .asleep

theorem heard_on_wire_packet (stream : UtpStream) (packet : Bytes) :
    Heard packet stream (stream.on_wire_packet packet) := by
  unfold UtpStream.on_wire_packet
  split
  · exact ⟨rfl, rfl, rfl, rfl, .inl rfl, .inl rfl⟩
  · split
    · exact ⟨rfl, rfl, rfl, rfl, .inl rfl, .inl rfl⟩
    · rename_i ptype seq ack payload hunpack
      extract_lets acked
      have hacked : Heard packet stream acked := by
        unfold acked
        split
        · rename_i hptype
          refine ⟨rfl, rfl, rfl, rfl, .inr ⟨ptype, seq, ack, payload, hunpack, ?_, rfl⟩, .inl rfl⟩
          rintro rfl
          exact absurd hptype (by decide)
        · exact ⟨rfl, rfl, rfl, rfl, .inl rfl, .inl rfl⟩
      have hpart : ∀ after : UtpStream, after.senderPart = acked.senderPart → Heard packet stream after := by
        intro after hsame
        simp only [UtpStream.senderPart, Prod.mk.injEq] at hsame
        obtain ⟨hseq, hlog, hsent, hsending, htask, houtbox⟩ := hsame
        exact ⟨hseq.trans hacked.seq_nr, hlog.trans hacked.log, hsending.trans hacked.sending,
          houtbox.trans hacked.outbox, hsent ▸ hacked.sent, htask ▸ hacked.task⟩
      by_cases hreset : ptype = ST_RESET
      · rw [if_pos hreset]
        exact ⟨hacked.seq_nr, hacked.log, hacked.sending, hacked.outbox, hacked.sent, .inr rfl⟩
      · rw [if_neg hreset]
        by_cases hsyn : ptype = ST_SYN
        · rw [if_pos hsyn]
          exact hacked
        · rw [if_neg hsyn]
          by_cases hstate : ptype = ST_STATE
          · rw [if_pos hstate]
            exact hpart _ rfl
          · rw [if_neg hstate]
            exact hpart _ (senderPart_on_data acked ptype seq payload)

theorem Heard.mem_sent {before after : UtpStream} (h : Heard packet before after) {entry : Nat × ℚ × Bytes}
    (hentry : entry ∈ after._sent.entries) : entry ∈ before._sent.entries := by
  rcases h.sent with hsame | ⟨_, _, _, _, _, _, hacked⟩
  · rwa [← hsame]
  · rw [hacked] at hentry
    exact (OrderedDict.mem_eraseAll.mp hentry).2

theorem Sends.heard {after : UtpStream} (h : Sends base stream) (hheard : Heard packet stream after) :
    Sends base after := by
  refine ⟨?_, ?_, ?_, ?_, ?_, ?_, ?_⟩
  · rw [hheard.log]
    exact h.room
  · rw [hheard.log, hheard.seq_nr]
    exact h.next
  · rw [hheard.log]
    exact h.numbered
  · rw [hheard.log]
    exact fun entry hentry => h.sent entry (hheard.mem_sent hentry)
  · rw [hheard.log, hheard.sending]
    exact h.sending
  · rw [hheard.log]
    rcases hheard.task with htask | htask
    · rw [htask]
      exact h.listed
    · rw [htask]
      exact nofun
  · rw [hheard.log, hheard.outbox]
    exact h.packets

end Receiving

section Steps

variable {base : Nat} {log : List (Nat × Bytes)} {stream : UtpStream} {packets : List Bytes}

/-- What an event that brings no packet leaves as it is. -/
structure Local (before after : UtpStream) : Prop where
  ack_nr : after.ack_nr = before.ack_nr
  incoming : after._incoming = before._incoming
  reorder : after._reorder = before._reorder
  log : ∃ rest, after.log = before.log ++ rest
  sent : ∀ seq ∈ before._sent.keys, seq ∈ after._sent.keys
  outbox : ∀ packet ∈ after.outbox, packet ∈ before.outbox ∨ AcksAtMost before.ack_nr packet

theorem Local.refl (stream : UtpStream) : Local stream stream :=
  ⟨rfl, rfl, rfl, ⟨[], (List.append_nil _).symm⟩, fun _ hseq => hseq, fun _ hpacket => .inl hpacket⟩

/-- A packet acknowledges what the endpoint has taken. -/
theorem acksAtMost_header (now_us : Nat) {ptype : Nat} (hptype : ptype < 16) (conn_id seq ack : Nat)
    (payload : Bytes) : AcksAtMost ack (header now_us ptype conn_id seq ack ++ payload) := by
  intro ptype' seq' ack' payload' hunpack _
  rw [unpack_header _ hptype] at hunpack
  cases hunpack
  exact Nat.mod_le _ _

theorem Local.send_packet {before after : UtpStream} (h : Local before after) (now_us : Nat) {ptype : Nat}
    (hptype : ptype < 16) (seq : Nat) (payload : Bytes) :
    Local before (after.send_packet now_us ptype seq before.ack_nr payload) := by
  refine ⟨h.ack_nr, h.incoming, h.reorder, h.log, h.sent, ?_⟩
  intro packet hpacket
  rcases List.mem_append.mp hpacket with hold | hnew
  · exact h.outbox packet hold
  · rw [List.mem_singleton.mp hnew]
    exact .inr (acksAtMost_header _ hptype _ _ _ _)

theorem resend_type_lt (data : Bytes) : UtpStream.resend_type data < 16 := by
  unfold UtpStream.resend_type
  split_ifs <;> decide

theorem local_resend (stream : UtpStream) (now_us : Nat) : Local stream (stream.resend now_us) := by
  have hrefl := Local.refl stream
  unfold UtpStream.resend
  split
  · exact ⟨rfl, rfl, rfl, hrefl.log, hrefl.sent, hrefl.outbox⟩
  · rename_i now seq sent_at data items htask
    split
    · exact ⟨rfl, rfl, rfl, hrefl.log, hrefl.sent, hrefl.outbox⟩
    · split
      · have hsending : Local stream { stream with _retransmit_task := .sending now seq data items } :=
          ⟨rfl, rfl, rfl, hrefl.log, hrefl.sent, hrefl.outbox⟩
        exact hsending.send_packet now_us (resend_type_lt data) seq _
      · exact ⟨rfl, rfl, rfl, hrefl.log, hrefl.sent, hrefl.outbox⟩
  · exact hrefl

/-- Without a packet of the other side, an endpoint neither takes nor forgets a chunk. -/
theorem local_after (stream : UtpStream) (packets : List Bytes) {event : UtpEvent}
    (hlocal : ∀ index, event ≠ .deliver index) : Local stream (stream.after packets event) := by
  have hrefl := Local.refl stream
  cases event with
  | deliver index => exact absurd rfl (hlocal index)
  | resend now_us => exact local_resend stream now_us
  | send chunk now_us =>
    simp only [UtpStream.after, UtpStream.send]
    split
    · exact hrefl
    · apply Local.send_packet _ now_us (by decide : ST_DATA < 16)
      exact ⟨rfl, rfl, rfl, ⟨_, rfl⟩, hrefl.sent, hrefl.outbox⟩
  | close now_us =>
    simp only [UtpStream.after, UtpStream.close]
    split
    · exact hrefl
    · apply Local.send_packet _ now_us (by decide : ST_FIN < 16)
      exact ⟨rfl, rfl, rfl, ⟨_, rfl⟩, hrefl.sent, hrefl.outbox⟩
  | ack now_us =>
    simp only [UtpStream.after, UtpStream.send_ack]
    split
    · exact hrefl
    · apply Local.send_packet _ now_us (by decide : ST_STATE < 16)
      exact ⟨rfl, rfl, rfl, hrefl.log, hrefl.sent, hrefl.outbox⟩
  | record index now =>
    simp only [UtpStream.after, UtpStream.record]
    split
    · exact hrefl
    · refine ⟨rfl, rfl, rfl, hrefl.log, ?_, hrefl.outbox⟩
      exact fun seq hseq => OrderedDict.mem_keys_set.mpr (.inr hseq)
  | closed =>
    simp only [UtpStream.after, UtpStream.end_close]
    split
    · exact hrefl
    · exact ⟨rfl, rfl, rfl, hrefl.log, hrefl.sent, hrefl.outbox⟩
  | wake now =>
    simp only [UtpStream.after, UtpStream.wake]
    split
    · exact ⟨rfl, rfl, rfl, hrefl.log, hrefl.sent, hrefl.outbox⟩
    · exact hrefl
  | resent =>
    simp only [UtpStream.after, UtpStream.resent]
    split
    · refine ⟨rfl, rfl, rfl, hrefl.log, ?_, hrefl.outbox⟩
      exact fun seq hseq => OrderedDict.mem_keys_set.mpr (.inr hseq)
    · exact hrefl

theorem Local.receives {before after : UtpStream} (h : Local before after) (hreceives : Receives base log before) :
    Receives base log after := by
  refine ⟨?_, ?_⟩
  · rw [h.ack_nr, h.incoming]
    exact hreceives.taken
  · rw [h.reorder]
    exact hreceives.reorder

theorem Sends.after (h : Sends base stream) {event : UtpEvent} (hmeets : stream.Meets event) :
    Sends base (stream.after packets event) := by
  cases event with
  | send chunk now_us => exact h.send chunk now_us hmeets
  | record index now => exact h.record index now
  | close now_us => exact h.close now_us hmeets
  | closed => exact h.end_close
  | ack now_us => exact h.send_ack now_us
  | wake now => exact h.wake now
  | resend now_us => exact h.resend now_us hmeets
  | resent => exact h.resent
  | deliver index =>
    simp only [UtpStream.after]
    split
    · exact h
    · exact h.heard (heard_on_wire_packet stream _)

/-- An endpoint whose event is not a packet, or is one of the packets of the other side. -/
theorem after_cases (stream : UtpStream) (packets : List Bytes) (event : UtpEvent) :
    Local stream (stream.after packets event) ∨
      ∃ packet ∈ packets, stream.after packets event = stream.on_wire_packet packet := by
  by_cases hdeliver : ∃ index, event = .deliver index
  · obtain ⟨index, rfl⟩ := hdeliver
    simp only [UtpStream.after]
    cases hget : packets[index]? with
    | none => exact .inl (Local.refl stream)
    | some packet => exact .inr ⟨packet, List.mem_of_getElem? hget, rfl⟩
  · exact .inl (local_after stream packets fun index hsame => hdeliver ⟨index, hsame⟩)

theorem log_after (stream : UtpStream) (packets : List Bytes) (event : UtpEvent) :
    ∃ rest, (stream.after packets event).log = stream.log ++ rest := by
  rcases after_cases stream packets event with hlocal | ⟨packet, _, heq⟩
  · exact hlocal.log
  · rw [heq, (heard_on_wire_packet stream packet).log]
    exact ⟨[], (List.append_nil _).symm⟩

theorem Receives.after (h : Receives base log stream) (hnumbered : log.map Prod.fst = List.range' base log.length)
    (hpackets : ∀ packet ∈ packets, Carries log packet) (event : UtpEvent) :
    Receives base log (stream.after packets event) ∧ stream.ack_nr ≤ (stream.after packets event).ack_nr := by
  rcases after_cases stream packets event with hlocal | ⟨packet, hmem, heq⟩
  · exact ⟨hlocal.receives h, Nat.le_of_eq hlocal.ack_nr.symm⟩
  · rw [heq]
    exact h.on_wire_packet hnumbered (hpackets packet hmem)

theorem Acknowledges.after (h : Acknowledges stream) {event : UtpEvent}
    (hle : stream.ack_nr ≤ (stream.after packets event).ack_nr) : Acknowledges (stream.after packets event) := by
  intro packet hpacket ptype seq ack payload hunpack hsyn
  rcases after_cases stream packets event with hlocal | ⟨arrived, _, heq⟩
  · rcases hlocal.outbox packet hpacket with hold | hnew
    · exact le_trans (h packet hold _ _ _ _ hunpack hsyn) hle
    · exact le_trans (hnew _ _ _ _ hunpack hsyn) hle
  · rw [heq, (heard_on_wire_packet stream arrived).outbox] at hpacket
    exact le_trans (h packet hpacket _ _ _ _ hunpack hsyn) hle

end Steps

end amuled.natt
