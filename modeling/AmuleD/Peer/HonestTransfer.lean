import AmuleD.Peer.LinearRequests

open tiling

namespace amuled.peer

/-- What a peer answers in each round: pieces, each over a protocol. -/
abbrev Answers := Nat → RequestParts → List (UInt8 × Piece)

/-- An answer sends each requested byte once, from the file. -/
structure Answered (decompress : Bytes → Except String Bytes) (content : Bytes) (request : RequestParts)
    (answer : List (UInt8 × Piece)) : Prop where
  protocols : ∀ sent ∈ answer, sent.1 = EDONKEY ∨ sent.1 = EMULE
  fits : ∀ sent ∈ answer, sent.2.Fits decompress
  once : ∃ writes, List.Forall₂ (fun slot tiles => Tiles content slot.1 slot.2 tiles) request.slots writes ∧
    (answer.map fun sent => sent.2.write).Perm writes.flatten

/-- A peer that answers every request for ranges of the file. -/
def Honest (decompress : Bytes → Except String Bytes) (content : Bytes) (answers : Answers) : Prop :=
  ∀ round request, (∀ slot ∈ request.slots, slot.1 ≤ slot.2 ∧ slot.2 ≤ content.length) →
    Answered decompress content request (answers round request)

/-- The packets of a piece as they arrive. -/
def piece_arrivals (file_hash : Bytes) (sent : UInt8 × Piece) : List Arrival :=
  (sent.2.packets file_hash).map fun packet => .packet ⟨sent.1, packet.1, packet.2⟩

/-- The packets with which a peer answers the last request of a transfer. -/
def answer_arrivals (answers : Answers) (transfer : Transfer) : List Arrival :=
  match transfer.requests.getLast? with
  | none => []
  | some packet =>
    match read_request_packet packet with
    | .error _ => []
    | .ok request =>
      (answers (transfer.requests.length - 1) request).flatMap (piece_arrivals request.file_hash)

section Exchange

variable (decompress : Bytes → Except String Bytes) (args : TransferArgs) (answers : Answers)

/-- A transfer from a peer that answers, over some rounds. -/
def exchange : Nat → Progress → Progress
  | 0, progress => progress
  | rounds + 1, .waiting transfer =>
    exchange rounds (transfer_run decompress args (.waiting transfer) (answer_arrivals answers transfer))
  | _ + 1, done => done

/-- The request of a round, where each round before it was answered. -/
def linear_request (round : Nat) : RequestParts :=
  padded_request args.file_hash (linear_ranges (args.start_offset + round * round_size) args.bound)

/-- The pieces that answer the requests before a round. -/
def blocks_before : Nat → Nat
  | 0 => 0
  | round + 1 => blocks_before round + (answers round (linear_request args round)).length

end Exchange

section Rounds

variable {decompress : Bytes → Except String Bytes} {args : TransferArgs} {transfer : Transfer}

/-- Packets that complete a part lead to one write. -/
theorem Makes.run (args : TransferArgs) {part : SendingPart} {pending after : Pending}
    {packets : List (UInt8 × Bytes)} {protocol : UInt8} (hmakes : Makes decompress part after pending packets)
    (hprotocol : protocol = EDONKEY ∨ protocol = EMULE) (hdata : ∀ packet ∈ packets, IsData packet.1)
    (hpending : transfer.pending_compressed = pending) :
    transfer_run decompress args (.waiting transfer)
        (packets.map fun packet => .packet ⟨protocol, packet.1, packet.2⟩) =
      write_part args { transfer with pending_compressed := after } part := by
  have hknown : ¬ (protocol ≠ EDONKEY ∧ protocol ≠ EMULE) := by
    rw [not_and_or, not_not, not_not]
    exact hprotocol
  induction hmakes generalizing transfer with
  | last hread =>
    subst hpending
    simp only [List.map_cons, List.map_nil, transfer_run, List.foldl_cons, List.foldl_nil, on_arrival,
      on_packet, if_neg hknown, if_pos (hdata _ (List.mem_singleton.mpr rfl)), on_data, hread]
  | @more pending middle packet packets hread _ ih =>
    subst hpending
    have hnext := @ih { transfer with pending_compressed := middle }
      (fun other hother => hdata other (List.mem_cons_of_mem _ hother)) rfl
    simp only [List.map_cons, transfer_run, List.foldl_cons, on_arrival, on_packet, if_neg hknown,
      if_pos (hdata _ List.mem_cons_self), on_data, hread] at hnext ⊢
    exact hnext

/-- The bytes of some pieces. -/
def sent_bytes (answer : List (UInt8 × Piece)) : Nat := (answer.map fun sent => sent.2.data.length).sum

/-- A transfer after an answer. -/
def Transfer.advance (transfer : Transfer) (file_hash : Bytes) (answer : List (UInt8 × Piece))
    (after : Pending) : Transfer :=
  { transfer with
    received := transfer.received + sent_bytes answer
    blocks := transfer.blocks + answer.length
    expected_bytes := 0
    pending_compressed := after
    parts := transfer.parts ++ answer.map fun sent => sent.2.part file_hash }

/-- An answer with the bytes that a transfer expects ends the round. -/
theorem run_answer (args : TransferArgs) (transfer : Transfer) {file_hash : Bytes}
    {answer : List (UInt8 × Piece)} (hhash : file_hash.length = 16)
    (hprotocols : ∀ sent ∈ answer, sent.1 = EDONKEY ∨ sent.1 = EMULE)
    (hfits : ∀ sent ∈ answer, sent.2.Fits decompress) (hdata : ∀ sent ∈ answer, 0 < sent.2.data.length)
    (hanswer : answer ≠ []) (hidle : Idle transfer.pending_compressed)
    (hexpected : transfer.expected_bytes = sent_bytes answer) :
    ∃ after, Idle after ∧
      transfer_run decompress args (.waiting transfer) (answer.flatMap (piece_arrivals file_hash)) =
        begin_round args (transfer.advance file_hash answer after) := by
  induction answer generalizing transfer with
  | nil => exact absurd rfl hanswer
  | cons sent answer ih =>
    rw [List.forall_mem_cons] at hprotocols hfits hdata
    obtain ⟨middle, hmakes, hmiddle⟩ := piece_makes hhash hfits.1 hidle
    have hfirst := hmakes.run args hprotocols.1 (isData_packets file_hash sent.2) rfl
    have hlength : (sent.2.part file_hash).data.length = sent.2.data.length := rfl
    have hbytes : sent_bytes (sent :: answer) = sent.2.data.length + sent_bytes answer := by
      simp only [sent_bytes, List.map_cons, List.sum_cons]
    rw [hbytes, Int.natCast_add] at hexpected
    have hleft : transfer.expected_bytes - (sent.2.data.length : Int) = sent_bytes answer := by omega
    rw [List.flatMap_cons, transfer_run_append, piece_arrivals, hfirst]
    simp only [write_part, hlength, hleft]
    cases answer with
    | nil =>
      refine ⟨middle, hmiddle, ?_⟩
      have hnone : ¬ ((sent_bytes [] : Int) > 0) := by simp [sent_bytes]
      rw [if_neg hnone, List.flatMap_nil]
      simp [transfer_run, Transfer.advance, sent_bytes]
    | cons next answer =>
      have hpositive : (sent_bytes (next :: answer) : Int) > 0 := by
        have hnext := hdata.2 next List.mem_cons_self
        simp only [sent_bytes, List.map_cons, List.sum_cons]
        omega
      rw [if_pos hpositive]
      obtain ⟨after, hafter, hrest⟩ := @ih { transfer with
          pending_compressed := middle
          received := transfer.received + sent.2.data.length
          blocks := transfer.blocks + 1
          expected_bytes := sent_bytes (next :: answer)
          parts := transfer.parts ++ [sent.2.part file_hash] }
        hprotocols.2 hfits.2 hdata.2 (List.cons_ne_nil _ _) hmiddle rfl
      refine ⟨after, hafter, ?_⟩
      rw [hrest]
      simp [Transfer.advance, hbytes, Nat.add_assoc, Nat.add_comm 1]

/-- A transfer before a round, where each round before it was answered. -/
structure AtRound (content : Bytes) (args : TransferArgs) (answers : Answers) (round : Nat)
    (transfer : Transfer) : Prop where
  idle : Idle transfer.pending_compressed
  received : args.start_offset + transfer.received = min (args.start_offset + round * round_size) args.bound
  blocks : transfer.blocks = blocks_before args answers round
  requests : transfer.requests.length = round
  writes : ∃ writes, Tiles content args.start_offset (args.start_offset + transfer.received) writes ∧
    (transfer.parts.map written).Perm writes

/-- A transfer that downloads a region of a file from an honest peer. -/
structure HonestRun (decompress : Bytes → Except String Bytes) (content : Bytes) (args : TransferArgs)
    (answers : Answers) : Prop where
  hash : args.file_hash.length = 16
  start : args.start_offset ≤ args.bound
  bound : args.bound ≤ content.length
  offsets : args.bound < 2 ^ 64
  honest : Honest decompress content answers

variable {content : Bytes} {answers : Answers} {round : Nat}

theorem AtRound.first (h : AtRound content args answers round transfer)
    (hfirst : args.start_offset + transfer.received < args.bound) :
    args.start_offset + transfer.received = args.start_offset + round * round_size := by
  have hreceived := h.received
  omega

theorem written_answer (file_hash : Bytes) (answer : List (UInt8 × Piece)) :
    (answer.map fun sent => sent.2.part file_hash).map written = answer.map fun sent => sent.2.write := by
  rw [List.map_map]
  rfl

theorem sent_bytes_of_perm {answer : List (UInt8 × Piece)} {start stop : Nat} {writes : List (Nat × Bytes)}
    (hperm : (answer.map fun sent => sent.2.write).Perm writes) (htiles : Tiles content start stop writes) :
    sent_bytes answer = stop - start := by
  have hsum := (hperm.map fun write => write.2.length).sum_nat
  rw [htiles.sum_length, List.map_map] at hsum
  exact hsum

theorem length_pos_of_perm {answer : List (UInt8 × Piece)} {start stop : Nat} {writes : List (Nat × Bytes)}
    (hperm : (answer.map fun sent => sent.2.write).Perm writes) (htiles : Tiles content start stop writes) :
    ∀ sent ∈ answer, 0 < sent.2.data.length := by
  intro sent hsent
  have hwrite : sent.2.write ∈ writes := hperm.mem_iff.mp (List.mem_map_of_mem hsent)
  exact htiles.length_pos _ hwrite

/-- A round that begins is answered, and the next one follows. -/
theorem exchange_round (hrun : HonestRun decompress content args answers)
    (hround : AtRound content args answers round transfer) (hblocks : transfer.blocks < args.max_blocks)
    (hfirst : args.start_offset + transfer.received < args.bound) :
    ∃ next, AtRound content args answers (round + 1) next ∧
      ∀ rounds, exchange decompress args answers (rounds + 1) (begin_round args transfer) =
        exchange decompress args answers rounds (begin_round args next) := by
  have hrequest : padded_request args.file_hash (linear_ranges (args.start_offset + transfer.received) args.bound) =
      linear_request args round := by rw [hround.first hfirst, linear_request]
  have hslots := linear_slots_ordered (args.start_offset + transfer.received) args.bound args.file_hash
  have hbytes := requested_bytes_linear args.file_hash hfirst
  rw [hrequest] at hslots hbytes
  obtain ⟨packet, hpacket, hread⟩ := request_packet_eq (linear_request args round) hrun.hash
    (fun slot hslot => (hslots slot hslot).1)
    (fun slot hslot => Nat.lt_of_le_of_lt (hslots slot hslot).2 hrun.offsets)
  obtain ⟨hprotocols, hfits, writes, htiles, hperm⟩ := hrun.honest round (linear_request args round)
    fun slot hslot => ⟨(hslots slot hslot).1, Nat.le_trans (hslots slot hslot).2 hrun.bound⟩
  rw [← hrequest] at htiles
  have hregion := tiles_linear_slots hfirst htiles
  have hsent := sent_bytes_of_perm hperm hregion
  have hpositive := length_pos_of_perm hperm hregion
  have hsize : 0 < round_size := by decide
  have hanswer : answers round (linear_request args round) ≠ [] := by
    intro hnil
    rw [hnil] at hsent
    simp only [sent_bytes, List.map_nil, List.sum_nil] at hsent
    omega
  have hbegin : begin_round args transfer = .waiting { transfer with
      expected_bytes := requested_bytes (linear_request args round)
      requests := transfer.requests ++ [packet] } := by
    simp only [begin_round, hrequest, hpacket, hblocks, hfirst, and_self, if_true]
  obtain ⟨after, hafter, hanswered⟩ := run_answer args { transfer with
      expected_bytes := requested_bytes (linear_request args round)
      requests := transfer.requests ++ [packet] }
    hrun.hash hprotocols hfits hpositive hanswer hround.idle (by rw [hbytes, hsent])
  have harrivals : answer_arrivals answers { transfer with
      expected_bytes := requested_bytes (linear_request args round)
      requests := transfer.requests ++ [packet] } =
      (answers round (linear_request args round)).flatMap (piece_arrivals args.file_hash) := by
    simp only [answer_arrivals, List.getLast?_concat, hread, List.length_append, List.length_singleton,
      Nat.add_sub_cancel, hround.requests]
    rfl
  refine ⟨Transfer.advance { transfer with
      expected_bytes := requested_bytes (linear_request args round)
      requests := transfer.requests ++ [packet] } args.file_hash (answers round (linear_request args round)) after,
    ⟨hafter, ?_, ?_, ?_, ?_⟩, ?_⟩
  · have hreceived := hround.first hfirst
    simp only [Transfer.advance, hsent, Nat.add_mul, Nat.one_mul]
    -- as numerals the sizes would be unfolded
    generalize round_size = size at hreceived ⊢
    omega
  · simp only [Transfer.advance, hround.blocks, blocks_before]
  · simp only [Transfer.advance, List.length_append, List.length_singleton, hround.requests]
  · obtain ⟨earlier, htilesEarlier, hpermEarlier⟩ := hround.writes
    refine ⟨earlier ++ writes.flatten, ?_, ?_⟩
    · have hall := htilesEarlier.append hregion
      have hend : args.start_offset + (transfer.received + sent_bytes (answers round (linear_request args round))) =
          min (args.start_offset + transfer.received + round_size) args.bound := by
        rw [hsent]
        generalize round_size = size
        omega
      simp only [Transfer.advance]
      rw [hend]
      exact hall
    · simp only [Transfer.advance, List.map_append, written_answer]
      exact hpermEarlier.append hperm
  · intro rounds
    rw [hbegin, exchange, harrivals, hanswered]

theorem begin_round_over (hover : ¬ (transfer.blocks < args.max_blocks ∧
    args.start_offset + transfer.received < args.bound)) :
    begin_round args transfer = .finished (download_outcome args transfer "transfer finished") transfer := by
  simp only [begin_round, if_neg hover]

/-- The rounds follow each other until the budget is used up or the region is complete. -/
theorem exchange_ends (hrun : HonestRun decompress content args answers)
    (hround : AtRound content args answers round transfer)
    (hearlier : ∀ earlier < round, blocks_before args answers earlier < args.max_blocks) {left : Nat}
    (hleft : args.bound ≤ args.start_offset + (round + left) * round_size) :
    ∃ rounds last final, AtRound content args answers last final ∧
      (∀ earlier < last, blocks_before args answers earlier < args.max_blocks) ∧
      ¬ (final.blocks < args.max_blocks ∧ args.start_offset + final.received < args.bound) ∧
      exchange decompress args answers rounds (begin_round args transfer) =
        .finished (download_outcome args final "transfer finished") final := by
  induction left generalizing round transfer with
  | zero =>
    have hreceived := hround.received
    have hover : ¬ (transfer.blocks < args.max_blocks ∧ args.start_offset + transfer.received < args.bound) := by
      rw [Nat.add_zero] at hleft
      omega
    exact ⟨0, round, transfer, hround, hearlier, hover, begin_round_over hover⟩
  | succ left ih =>
    by_cases hbegins : transfer.blocks < args.max_blocks ∧ args.start_offset + transfer.received < args.bound
    · obtain ⟨next, hnext, hexchange⟩ := exchange_round hrun hround hbegins.1 hbegins.2
      have hearlierNext : ∀ earlier < round + 1, blocks_before args answers earlier < args.max_blocks := by
        intro earlier hlt
        rcases Nat.lt_succ_iff_lt_or_eq.mp hlt with hlt | rfl
        · exact hearlier earlier hlt
        · rw [← hround.blocks]
          exact hbegins.1
      have hleftNext : args.bound ≤ args.start_offset + (round + 1 + left) * round_size := by
        rw [Nat.add_assoc, Nat.add_comm 1]
        exact hleft
      obtain ⟨rounds, last, final, hlast, hbefore, hover, hfinished⟩ := ih hnext hearlierNext hleftNext
      exact ⟨rounds + 1, last, final, hlast, hbefore, hover, by rw [hexchange, hfinished]⟩
    · exact ⟨0, round, transfer, hround, hearlier, hbegins, begin_round_over hbegins⟩

theorem at_first_round (hrun : HonestRun decompress content args answers) :
    AtRound content args answers 0 ⟨0, 0, .empty, 0, 0, [], []⟩ := by
  refine ⟨idle_empty, ?_, rfl, rfl, [], .nil _, List.Perm.nil⟩
  rw [Nat.zero_mul]
  exact (Nat.min_eq_left hrun.start).symm

/-- A transfer from an honest peer ends. The blocks that it wrote tile the region from its start
on, up to their order within a round, and it is complete exactly where the rounds before each one
that is needed stay below the budget. -/
theorem honest_transfer_ends (hrun : HonestRun decompress content args answers) :
    ∃ rounds outcome transfer writes,
      exchange decompress args answers rounds (begin_transfer args) = .finished outcome transfer ∧
      outcome.detail = "transfer finished" ∧ outcome.bytes_received = transfer.received ∧
      (transfer.parts.map written).Perm writes ∧
      Tiles content args.start_offset (args.start_offset + transfer.received) writes ∧
      args.start_offset + transfer.received ≤ args.bound ∧
      (outcome.complete = true ↔ args.start_offset + transfer.received = args.bound) ∧
      (outcome.complete = true ↔ ∀ round, args.start_offset + round * round_size < args.bound →
        blocks_before args answers round < args.max_blocks) := by
  have hleft : args.bound ≤ args.start_offset + (0 + args.bound) * round_size := by
    have hsize : 1 ≤ round_size := by decide
    have hmul := Nat.mul_le_mul_left args.bound hsize
    rw [Nat.zero_add]
    omega
  obtain ⟨rounds, last, final, hlast, hbefore, hover, hfinished⟩ := exchange_ends hrun (at_first_round hrun)
    (fun earlier hearlier => absurd hearlier (Nat.not_lt_zero earlier)) hleft
  obtain ⟨writes, htiles, hperm⟩ := hlast.writes
  have hreceived := hlast.received
  have hcomplete : (download_outcome args final "transfer finished").complete = true ↔
      args.start_offset + final.received = args.bound := by
    simp only [download_outcome, decide_eq_true_eq]
    omega
  refine ⟨rounds, _, final, writes, hfinished, rfl, rfl, hperm, htiles, by omega, hcomplete, ?_⟩
  rw [hcomplete]
  constructor
  · intro hall round hround
    have hlt : round < last := by
      by_contra hnot
      have hmul := Nat.mul_le_mul_right round_size (not_lt.mp hnot)
      omega
    exact hbefore round hlt
  · intro hbudget
    by_contra hnot
    have hfirst : args.start_offset + final.received < args.bound := by omega
    have hneeded : args.start_offset + last * round_size < args.bound := by
      rw [← hlast.first hfirst]
      exact hfirst
    have hblocks := hbudget last hneeded
    rw [← hlast.blocks] at hblocks
    exact hover ⟨hblocks, hfirst⟩

end Rounds

section Bytewise

/-- A peer that sends every byte in a packet of its own. -/
def bytewise (content : Bytes) : Answers := fun _ request =>
  request.slots.flatMap fun slot => (List.range' slot.1 (slot.2 - slot.1)).map fun offset =>
    (EDONKEY, .plain (decide (offset + 1 > 0xFFFFFFFF)) offset (content.extract offset (offset + 1)))

variable {content : Bytes}

theorem tiles_bytewise (start count : Nat) (hinside : start + count ≤ content.length) :
    Tiles content start (start + count)
      ((List.range' start count).map fun offset => (offset, content.extract offset (offset + 1))) := by
  induction count generalizing start with
  | zero => exact .nil start
  | succ count ih =>
    rw [List.range'_succ, List.map_cons]
    have hrest := ih (start + 1) (by omega)
    have hend : start + 1 + count = start + (count + 1) := by omega
    rw [hend] at hrest
    exact .cons (Nat.lt_succ_self start) (by omega) hrest

theorem honest_bytewise (decompress : Bytes → Except String Bytes) (hcontent : content.length < 2 ^ 64) :
    Honest decompress content (bytewise content) := by
  intro round request hslots
  refine ⟨?_, ?_, ?_⟩
  · intro sent hsent
    obtain ⟨slot, -, hoffset⟩ := List.mem_flatMap.mp hsent
    obtain ⟨offset, -, rfl⟩ := List.mem_map.mp hoffset
    exact .inl rfl
  · intro sent hsent
    obtain ⟨slot, hslot, hoffset⟩ := List.mem_flatMap.mp hsent
    obtain ⟨offset, hrange, rfl⟩ := List.mem_map.mp hoffset
    obtain ⟨hordered, hend⟩ := hslots slot hslot
    rw [List.mem_range'_1] at hrange
    refine .plain ?_
    rw [length_extract_of_le (by omega)]
    by_cases hwide : offset + 1 > 0xFFFFFFFF
    · simp only [hwide, decide_true, offset_width, if_true]
      omega
    · simp only [hwide, decide_false, offset_width, Bool.false_eq_true, if_false]
      omega
  · refine ⟨request.slots.map fun slot => (List.range' slot.1 (slot.2 - slot.1)).map fun offset =>
      (offset, content.extract offset (offset + 1)), ?_, ?_⟩
    · rw [List.forall₂_map_right_iff, List.forall₂_same]
      intro slot hslot
      obtain ⟨hordered, hend⟩ := hslots slot hslot
      have htiles := @tiles_bytewise content slot.1 (slot.2 - slot.1) (by omega)
      rw [Nat.add_sub_cancel' hordered] at htiles
      exact htiles
    · rw [bytewise, List.map_flatMap, ← List.flatMap_def]
      simp only [List.map_map]
      exact List.Perm.refl _

/-- A transfer of five bytes that come one by one. -/
theorem honest_transfer_ends_five_bytes :
    ∃ rounds outcome transfer writes,
      exchange (fun _ => .error "") ⟨List.replicate 16 1, 5, 100000, 0, none⟩ (bytewise [1, 2, 3, 4, 5]) rounds
        (begin_transfer ⟨List.replicate 16 1, 5, 100000, 0, none⟩) = .finished outcome transfer ∧
      outcome.detail = "transfer finished" ∧ outcome.bytes_received = transfer.received ∧
      (transfer.parts.map written).Perm writes ∧ Tiles [1, 2, 3, 4, 5] 0 (0 + transfer.received) writes ∧
      0 + transfer.received ≤ 5 ∧ (outcome.complete = true ↔ 0 + transfer.received = 5) ∧
      (outcome.complete = true ↔ ∀ round, 0 + round * round_size < 5 →
        blocks_before ⟨List.replicate 16 1, 5, 100000, 0, none⟩ (bytewise [1, 2, 3, 4, 5]) round < 100000) :=
  have hrun : HonestRun (fun _ => .error "") [1, 2, 3, 4, 5] ⟨List.replicate 16 1, 5, 100000, 0, none⟩
      (bytewise [1, 2, 3, 4, 5]) :=
    ⟨rfl, Nat.zero_le 5, Nat.le_refl 5, by decide, honest_bytewise _ (by decide)⟩
  honest_transfer_ends hrun

theorem length_bytewise_of_slots (round : Nat) {request : RequestParts} {one two three : Nat × Nat}
    (hslots : request.slots = [one, two, three]) :
    (bytewise content round request).length = (one.2 - one.1) + ((two.2 - two.1) + (three.2 - three.1)) := by
  simp [bytewise, hslots]

/-- A round that a bytewise peer answers in full takes as many blocks as it has bytes. -/
theorem length_bytewise (args : TransferArgs) {round : Nat}
    (hfull : args.start_offset + round * round_size + round_size ≤ args.bound) :
    (bytewise content round (linear_request args round)).length = round_size := by
  rw [linear_request, length_bytewise_of_slots round (linear_slots _ _ _), linear_slot_length, linear_slot_length,
    linear_slot_length]
  rw [round_size] at hfull ⊢
  generalize args.start_offset + round * (3 * EMBLOCK_SIZE) = first at hfull ⊢
  generalize EMBLOCK_SIZE = size at hfull ⊢
  omega

/-- A first round that uses up the budget is the last one. -/
theorem bytewise_transfer_stops {decompress : Bytes → Except String Bytes} {args : TransferArgs}
    (hrun : HonestRun decompress content args (bytewise content)) (hblocks : 0 < args.max_blocks)
    (hbudget : args.max_blocks ≤ round_size) (hlong : args.start_offset + round_size < args.bound) :
    ∃ rounds outcome transfer, exchange decompress args (bytewise content) rounds (begin_transfer args) =
      .finished outcome transfer ∧ outcome.complete = false := by
  obtain ⟨next, hnext, hexchange⟩ := exchange_round hrun (at_first_round hrun) hblocks
    (Nat.lt_of_le_of_lt (Nat.le_add_right _ round_size) hlong)
  have hused : next.blocks = round_size := by
    rw [hnext.blocks, blocks_before, blocks_before, Nat.zero_add]
    refine length_bytewise args ?_
    rw [Nat.zero_mul, Nat.add_zero]
    exact Nat.le_of_lt hlong
  have hreceived := hnext.received
  rw [Nat.zero_add, Nat.one_mul, Nat.min_eq_left (Nat.le_of_lt hlong)] at hreceived
  have hover : ¬ (next.blocks < args.max_blocks ∧ args.start_offset + next.received < args.bound) := by
    rw [hused]
    exact fun hbegins => Nat.not_lt.mpr hbudget hbegins.1
  refine ⟨1, download_outcome args next "transfer finished", next, ?_, ?_⟩
  · rw [begin_transfer, hexchange 0, exchange, begin_round_over hover]
  · simp only [download_outcome, decide_eq_false_iff_not, hreceived]
    exact Nat.not_le.mpr hlong

/-- A file one byte longer than a round, from a peer that sends every byte in a packet of its
own: the first round uses up the budget. -/
theorem bytewise_transfer_incomplete :
    Honest (fun _ => .error "") (List.replicate (round_size + 1) 0) (bytewise (List.replicate (round_size + 1) 0)) ∧
      ∃ rounds outcome transfer,
        exchange (fun _ => .error "") ⟨List.replicate 16 1, round_size + 1, 100000, 0, none⟩
          (bytewise (List.replicate (round_size + 1) 0)) rounds
          (begin_transfer ⟨List.replicate 16 1, round_size + 1, 100000, 0, none⟩) = .finished outcome transfer ∧
        outcome.complete = false := by
  have hlength : (List.replicate (round_size + 1) (0 : UInt8)).length = round_size + 1 := List.length_replicate
  have hsmall : round_size + 1 < 2 ^ 64 := by decide
  have hhonest := honest_bytewise (fun _ => .error "") (by rw [hlength]; exact hsmall)
  have hrun : HonestRun (fun _ => .error "") (List.replicate (round_size + 1) 0)
      ⟨List.replicate 16 1, round_size + 1, 100000, 0, none⟩ (bytewise (List.replicate (round_size + 1) 0)) :=
    ⟨List.length_replicate, Nat.zero_le _, Nat.le_of_eq hlength.symm, hsmall, hhonest⟩
  have hbudget : 0 < 100000 ∧ 100000 ≤ round_size := by decide
  have hlong : 0 + round_size < round_size + 1 := by rw [Nat.zero_add]; exact Nat.lt_succ_self _
  exact ⟨hhonest, bytewise_transfer_stops hrun hbudget.1 hbudget.2 hlong⟩

end Bytewise

end amuled.peer
