import Mathlib.Algebra.Order.BigOperators.Group.List
import Mathlib.Algebra.Order.Ring.Nat
import AmuleD.Peer.HonestTransfer
import AmuleD.Upload.Splitting

open tiling

namespace amuled.peer

open amuled.upload

section Counts

/-- As many sub-packets as a block of some bytes can take. -/
def most_packets (togo : Nat) : Nat := (togo + SPLIT_CHUNK_SIZE - 1) / SPLIT_CHUNK_SIZE

theorem most_packets_mono {togo other : Nat} (hle : togo ≤ other) : most_packets togo ≤ most_packets other :=
  Nat.div_le_div_right (Nat.sub_le_sub_right (Nat.add_le_add_right hle _) 1)

theorem most_packets_after {togo : Nat} (htogo : togo ≠ 0) :
    1 + most_packets (togo - chunk_len togo) ≤ most_packets togo := by
  rw [most_packets, most_packets, chunk_len, SPLIT_THRESHOLD, SPLIT_CHUNK_SIZE]
  split <;> omega

theorem length_packet_le (opcode : UInt8) (payload : Except Exc Bytes) :
    (Sending.packet opcode payload).packets.length ≤ 1 := by
  cases payload with
  | error e => exact Nat.zero_le 1
  | ok payload => exact Nat.le_refl 1

theorem length_andThen_le (first next : Sending) :
    (first.andThen next).packets.length ≤ first.packets.length + next.packets.length := by
  rw [Sending.andThen]
  split
  · exact Nat.le_add_right _ _
  · exact Nat.le_of_eq List.length_append

theorem length_send_compressed_le (file_hash : Bytes) (start stop : Nat) (compressed : Bytes) (togo : Nat) :
    (send_compressed file_hash start stop compressed togo).packets.length ≤ most_packets togo := by
  induction togo using Nat.strong_induction_on with
  | h togo ih =>
    rw [send_compressed]
    by_cases hdone : togo = 0
    · rw [dif_pos hdone]
      exact Nat.zero_le _
    · rw [dif_neg hdone]
      have hpos := chunk_len_pos hdone
      have hrest := ih (togo - chunk_len togo) (by omega)
      have hfirst : (send_compressed_chunk file_hash start stop compressed.length (compressed.extract
          (compressed.length - (togo - chunk_len togo) - chunk_len togo)
          (compressed.length - (togo - chunk_len togo) - chunk_len togo + chunk_len togo))).packets.length ≤ 1 := by
        rw [send_compressed_chunk]
        split <;> exact length_packet_le _ _
      have hboth := most_packets_after hdone
      exact (length_andThen_le _ _).trans ((Nat.add_le_add hfirst hrest).trans hboth)

theorem length_send_plain_le (file_hash : Bytes) (start stop : Nat) (data : Bytes) (togo : Nat) :
    (send_plain file_hash start stop data togo).packets.length ≤ most_packets togo := by
  induction togo using Nat.strong_induction_on with
  | h togo ih =>
    rw [send_plain]
    by_cases hdone : togo = 0
    · rw [dif_pos hdone]
      exact Nat.zero_le _
    · rw [dif_neg hdone]
      have hpos := chunk_len_pos hdone
      have hrest := ih (togo - chunk_len togo) (by omega)
      have hfirst : ∀ chunk_start chunk_end chunk,
          (send_plain_chunk file_hash chunk_start chunk_end chunk).packets.length ≤ 1 := by
        intro chunk_start chunk_end chunk
        rw [send_plain_chunk]
        split <;> exact length_packet_le _ _
      have hboth := most_packets_after hdone
      exact (length_andThen_le _ _).trans ((Nat.add_le_add (hfirst _ _ _) hrest).trans hboth)

variable (zlib : Zlib) (allow_compression : Bool) (shared_file : SharedFile)

theorem length_send_block_le (start stop length : Nat) :
    (send_block zlib allow_compression shared_file start stop length).packets.length ≤ most_packets length := by
  rw [send_block]
  cases hread : read_block shared_file start length with
  | error e => exact Nat.zero_le _
  | ok data =>
    have hdata : data.length ≤ length := by
      unfold read_block at hread
      dsimp only at hread
      split_ifs at hread
      cases hread
      simp only [List.extract_eq_take_drop, List.length_take, List.length_drop]
      omega
    dsimp only
    split_ifs with hcompress
    · have hsmaller := Nat.le_trans (Nat.le_of_lt hcompress.2.2) hdata
      exact (length_send_compressed_le _ _ _ _ _).trans (most_packets_mono hsmaller)
    · exact length_send_plain_le _ _ _ _ _

theorem length_send_ranges_le (slots : List (Nat × Nat)) :
    (send_ranges zlib allow_compression shared_file slots).packets.length ≤
      (slots.map fun slot => most_packets (slot.2 - slot.1)).sum := by
  induction slots with
  | nil => exact Nat.zero_le _
  | cons slot slots ih =>
    obtain ⟨start, stop⟩ := slot
    rw [send_ranges, List.map_cons, List.sum_cons]
    cases hblock : block_end shared_file.size start stop with
    | none => exact Nat.le_add_left_of_le ih
    | some last =>
      obtain ⟨-, -, -, hle, -⟩ := block_end_some hblock
      have hfirst := (length_send_block_le zlib allow_compression shared_file start last (last - start)).trans
        (most_packets_mono (Nat.sub_le_sub_right hle start))
      exact (length_andThen_le _ _).trans (Nat.add_le_add hfirst ih)

end Counts

section Answers

variable (zlib : Zlib) (allow_compression : Bool) (shared_file : SharedFile)

/-- What an upload session of our own sends for a packet that requests parts: all of it over one protocol. -/
def engine_answer (packet : UInt8 × Bytes) : List Arrival :=
  (handle_request_parts zlib allow_compression shared_file packet.2 (decide (packet.1 = REQUESTPARTS_I64))).packets.map
    fun sent => .packet ⟨EDONKEY, sent.1, sent.2⟩

/-- The answer to the last request of a transfer. -/
def engine_arrivals (transfer : Transfer) : List Arrival :=
  match transfer.requests.getLast? with
  | none => []
  | some packet => engine_answer zlib allow_compression shared_file packet

/-- A transfer from an upload session of our own, over some rounds. -/
def engine_exchange (args : TransferArgs) : Nat → Progress → Progress
  | 0, progress => progress
  | rounds + 1, .waiting transfer =>
    engine_exchange args rounds (transfer_run zlib.decompress args (.waiting transfer)
      (engine_arrivals zlib allow_compression shared_file transfer))
  | _ + 1, done => done

end Answers

/-- A request for blocks of the shared file. -/
structure Servable (shared_file : SharedFile) (request : RequestParts) : Prop where
  hash : request.file_hash = shared_file.file_hash
  slots : ∀ slot ∈ request.slots, slot.1 ≤ slot.2 ∧ slot.2 ≤ shared_file.content.length ∧
    slot.2 - slot.1 ≤ EMBLOCK_SIZE

/-- A transfer of a region of a shared file. -/
structure ServedRun (shared_file : SharedFile) (args : TransferArgs) : Prop where
  hash : args.file_hash = shared_file.file_hash
  length : shared_file.file_hash.length = 16
  size : shared_file.size = shared_file.content.length
  start : args.start_offset ≤ args.bound
  bound : args.bound ≤ shared_file.content.length
  offsets : shared_file.content.length < 2 ^ 64

section Serving

variable {zlib : Zlib} {allow_compression : Bool} {shared_file : SharedFile} {args : TransferArgs}
  {request : RequestParts}

/-- A block inside the file is served to its end. -/
theorem served_end_of_servable (hsize : shared_file.size = shared_file.content.length)
    (hservable : Servable shared_file request) {slot : Nat × Nat} (hslot : slot ∈ request.slots) :
    served_end shared_file.size slot.1 slot.2 = slot.2 := by
  obtain ⟨hordered, hinside, hshort⟩ := hservable.slots slot hslot
  have hblock : EMBLOCK_SIZE ≤ EMBLOCKSIZE * MAX_REQUEST_BLOCKS := by decide
  rw [served_end, hsize]
  generalize EMBLOCKSIZE * MAX_REQUEST_BLOCKS = most at hblock ⊢
  omega

theorem length_pos_packets {decompress : Bytes → Except String Bytes} {piece : Piece} (hfits : piece.Fits decompress)
    (file_hash : Bytes) : 1 ≤ (piece.packets file_hash).length := by
  cases hfits with
  | plain => exact Nat.le_refl 1
  | compressed hstart htotal hchunks =>
    rw [Piece.packets, List.length_map]
    exact List.length_pos_iff.mpr hchunks

/-- Pieces take at least as many packets as they are. -/
theorem length_le_packets {decompress : Bytes → Except String Bytes} {pieces : List Piece}
    (hfits : ∀ piece ∈ pieces, piece.Fits decompress) (file_hash : Bytes) :
    pieces.length ≤ (pieces.flatMap (Piece.packets file_hash)).length := by
  induction pieces with
  | nil => exact Nat.le_refl 0
  | cons piece pieces ih =>
    rw [List.forall_mem_cons] at hfits
    rw [List.flatMap_cons, List.length_append, List.length_cons, Nat.add_comm]
    exact Nat.add_le_add (length_pos_packets hfits.1 file_hash) (ih hfits.2)

theorem exists_of_forall₂ {α β : Type} {R : α → β → Prop} {xs : List α} {ys : List β}
    (hall : List.Forall₂ R xs ys) {y : β} (hy : y ∈ ys) : ∃ x ∈ xs, R x y := by
  induction hall with
  | nil => exact absurd hy List.not_mem_nil
  | cons hfirst _ ih =>
    rcases List.mem_cons.mp hy with rfl | hrest
    · exact ⟨_, List.mem_cons_self, hfirst⟩
    · obtain ⟨x, hx, hrel⟩ := ih hrest
      exact ⟨x, List.mem_cons_of_mem _ hx, hrel⟩

/-- The engine answers a request for blocks of its file as an honest peer does. -/
theorem exists_engine_pieces (zlib : Zlib) (allow_compression : Bool) (hlength : shared_file.file_hash.length = 16)
    (hsize : shared_file.size = shared_file.content.length) (hoffsets : shared_file.content.length < 2 ^ 64)
    (hservable : Servable shared_file request) :
    ∃ pieces : List Piece,
      Answered zlib.decompress shared_file.content request (pieces.map fun piece => (EDONKEY, piece)) ∧
      send_ranges zlib allow_compression shared_file (used_ranges request.slots) =
        ⟨pieces.flatMap (Piece.packets shared_file.file_hash), none⟩ ∧
      pieces.length ≤ (request.slots.map fun slot => most_packets (slot.2 - slot.1)).sum := by
  have hends : ∀ slot ∈ request.slots, slot.2 < 2 ^ 64 := by
    intro slot hslot
    exact Nat.lt_of_le_of_lt (hservable.slots slot hslot).2.1 hoffsets
  obtain ⟨answers, hsend, hanswers⟩ := send_ranges_eq zlib allow_compression hlength hsize hends
  have hcovering : List.Forall₂ (fun slot pieces => Covering zlib.decompress shared_file.content slot.1 slot.2 pieces)
      request.slots answers := by
    rw [List.forall₂_iff_zip] at hanswers ⊢
    refine ⟨hanswers.1, ?_⟩
    intro slot pieces hpair
    have hcovers := hanswers.2 hpair
    rwa [served_end_of_servable hsize hservable (List.of_mem_zip hpair).1] at hcovers
  have hfits : ∀ piece ∈ answers.flatten, piece.Fits zlib.decompress := by
    intro piece hpiece
    obtain ⟨pieces, hpieces, hmem⟩ := List.mem_flatten.mp hpiece
    obtain ⟨slot, _, hcovers⟩ := exists_of_forall₂ hcovering hpieces
    exact hcovers.fits piece hmem
  refine ⟨answers.flatten, ⟨?_, ?_, ?_⟩, hsend, ?_⟩
  · intro sent hsent
    obtain ⟨piece, _, rfl⟩ := List.mem_map.mp hsent
    exact .inl rfl
  · intro sent hsent
    obtain ⟨piece, hpiece, rfl⟩ := List.mem_map.mp hsent
    exact hfits piece hpiece
  · refine ⟨answers.map (List.map Piece.write), ?_, ?_⟩
    · rw [List.forall₂_map_right_iff]
      exact hcovering.imp fun _ _ hcovers => hcovers.tiles
    · rw [List.map_map, ← List.map_flatten]
      exact List.Perm.refl _
  · have hcount := length_send_ranges_le zlib allow_compression shared_file (used_ranges request.slots)
    rw [hsend] at hcount
    have hused : ((used_ranges request.slots).map fun slot => most_packets (slot.2 - slot.1)).sum ≤
        (request.slots.map fun slot => most_packets (slot.2 - slot.1)).sum :=
      (List.filter_sublist.map _).sum_le_sum fun _ _ => Nat.zero_le _
    exact (length_le_packets hfits _).trans (hcount.trans hused)

/-- The answers of the engine to the requests for blocks of its file, and of some honest peer to all others. -/
theorem exists_engine_answers (zlib : Zlib) (allow_compression : Bool) (hlength : shared_file.file_hash.length = 16)
    (hsize : shared_file.size = shared_file.content.length) (hoffsets : shared_file.content.length < 2 ^ 64) :
    ∃ answers : Answers, Honest zlib.decompress shared_file.content answers ∧
      ∀ round request, Servable shared_file request → ∃ pieces : List Piece,
        answers round request = (pieces.map fun piece => (EDONKEY, piece)) ∧
        send_ranges zlib allow_compression shared_file (used_ranges request.slots) =
          ⟨pieces.flatMap (Piece.packets shared_file.file_hash), none⟩ ∧
        pieces.length ≤ (request.slots.map fun slot => most_packets (slot.2 - slot.1)).sum := by
  have hall : ∀ request, ∃ answer : List (UInt8 × Piece),
      ((∀ slot ∈ request.slots, slot.1 ≤ slot.2 ∧ slot.2 ≤ shared_file.content.length) →
        Answered zlib.decompress shared_file.content request answer) ∧
      (Servable shared_file request → ∃ pieces : List Piece, answer = (pieces.map fun piece => (EDONKEY, piece)) ∧
        send_ranges zlib allow_compression shared_file (used_ranges request.slots) =
          ⟨pieces.flatMap (Piece.packets shared_file.file_hash), none⟩ ∧
        pieces.length ≤ (request.slots.map fun slot => most_packets (slot.2 - slot.1)).sum) := by
    intro request
    by_cases hservable : Servable shared_file request
    · obtain ⟨pieces, hanswered, hsend, hcount⟩ :=
        exists_engine_pieces zlib allow_compression hlength hsize hoffsets hservable
      exact ⟨pieces.map fun piece => (EDONKEY, piece), fun _ => hanswered, fun _ => ⟨pieces, rfl, hsend, hcount⟩⟩
    · exact ⟨bytewise shared_file.content 0 request, honest_bytewise zlib.decompress hoffsets 0 request,
        fun hserves => absurd hserves hservable⟩
  choose answer hhonest hserved using hall
  exact ⟨fun _ => answer, fun _ => hhonest, fun _ => hserved⟩

/-- The engine reads the request of a packet as any peer does. -/
theorem handle_request_packet (zlib : Zlib) (allow_compression : Bool) (shared_file : SharedFile)
    {packet : UInt8 × Bytes} (hread : read_request_packet packet = .ok request) :
    handle_request_parts zlib allow_compression shared_file packet.2 (decide (packet.1 = REQUESTPARTS_I64)) =
      send_ranges zlib allow_compression shared_file (used_ranges request.slots) := by
  have hparse : parse_request_parts_internal packet.2 (decide (packet.1 = REQUESTPARTS_I64)) =
      .ok (request.file_hash, used_ranges request.slots) := by
    rw [parse_request_parts_internal]
    by_cases hwide : packet.1 = REQUESTPARTS_I64
    · rw [read_request_packet, if_pos hwide] at hread
      simp only [hwide, decide_true, if_true, hread]
    · rw [read_request_packet, if_neg hwide] at hread
      simp only [hwide, decide_false, Bool.false_eq_true, if_false, hread]
  rw [handle_request_parts, hparse]

/-- The blocks of a linear request are blocks of the shared file. -/
theorem servable_linear (hrun : ServedRun shared_file args) (first : Nat) :
    Servable shared_file (padded_request args.file_hash (linear_ranges first args.bound)) := by
  refine ⟨hrun.hash, ?_⟩
  intro slot hslot
  have hordered := linear_slots_ordered first args.bound args.file_hash slot hslot
  refine ⟨hordered.1, hordered.2.trans hrun.bound, ?_⟩
  rw [linear_slots] at hslot
  simp only [List.mem_cons, List.not_mem_nil, or_false] at hslot
  have hlength := fun place => linear_slot_length place args.bound
  rcases hslot with rfl | rfl | rfl <;> rw [hlength] <;> generalize EMBLOCK_SIZE = size <;> omega

/-- As many pieces as a round of linear requests can be answered with. -/
def PIECES_PER_ROUND : Nat := 54

theorem most_packets_linear (file_hash : Bytes) (first bound : Nat) :
    ((padded_request file_hash (linear_ranges first bound)).slots.map fun slot => most_packets (slot.2 - slot.1)).sum ≤
      PIECES_PER_ROUND := by
  have hslot : ∀ place, most_packets ((linear_slot place bound).2 - (linear_slot place bound).1) ≤ 18 := by
    intro place
    have hshort : (linear_slot place bound).2 - (linear_slot place bound).1 ≤ EMBLOCK_SIZE := by
      rw [linear_slot_length]
      omega
    exact most_packets_mono hshort
  rw [linear_slots]
  simp only [List.map_cons, List.map_nil, List.sum_cons, List.sum_nil, Nat.add_zero]
  have hall := Nat.add_le_add (hslot first) (Nat.add_le_add (hslot (first + EMBLOCK_SIZE))
    (hslot (first + 2 * EMBLOCK_SIZE)))
  exact hall

/-- A transfer that our own engine serves goes as one that an honest peer serves. -/
theorem engine_exchange_eq {answers : Answers} (hrun : ServedRun shared_file args)
    (hhonest : HonestRun zlib.decompress shared_file.content args answers)
    (hserved : ∀ round request, Servable shared_file request → ∃ pieces : List Piece,
      answers round request = (pieces.map fun piece => (EDONKEY, piece)) ∧
      send_ranges zlib allow_compression shared_file (used_ranges request.slots) =
        ⟨pieces.flatMap (Piece.packets shared_file.file_hash), none⟩ ∧
      pieces.length ≤ (request.slots.map fun slot => most_packets (slot.2 - slot.1)).sum)
    (rounds : Nat) {round : Nat} {transfer : Transfer}
    (hround : AtRound shared_file.content args answers round transfer) :
    engine_exchange zlib allow_compression shared_file args rounds (begin_round args transfer) =
      exchange zlib.decompress args answers rounds (begin_round args transfer) := by
  induction rounds generalizing round transfer with
  | zero => rfl
  | succ rounds ih =>
    by_cases hbegins : transfer.blocks < args.max_blocks ∧ args.start_offset + transfer.received < args.bound
    · obtain ⟨next, hnext, hexchange⟩ := exchange_round hhonest hround hbegins.1 hbegins.2
      have hservable := servable_linear hrun (args.start_offset + transfer.received)
      have hslots := linear_slots_ordered (args.start_offset + transfer.received) args.bound args.file_hash
      obtain ⟨packet, hpacket, hread⟩ := request_packet_eq _ hhonest.hash (fun slot hslot => (hslots slot hslot).1)
        (fun slot hslot => Nat.lt_of_le_of_lt (hslots slot hslot).2 hhonest.offsets)
      obtain ⟨waiting, hbegin, hrequests⟩ : ∃ waiting, begin_round args transfer = .waiting waiting ∧
          waiting.requests = transfer.requests ++ [packet] := by
        refine ⟨{ transfer with
          expected_bytes := requested_bytes
            (padded_request args.file_hash (linear_ranges (args.start_offset + transfer.received) args.bound))
          requests := transfer.requests ++ [packet] }, ?_, rfl⟩
        simp only [begin_round, hpacket, hbegins, and_self, if_true]
      have hturn := hexchange 0
      rw [hbegin] at hturn
      have hstep : transfer_run zlib.decompress args (.waiting waiting) (answer_arrivals answers waiting) =
          begin_round args next := hturn
      rw [hexchange, ← ih hnext, hbegin, engine_exchange, ← hstep]
      congr 2
      obtain ⟨pieces, hpieces, hsend, _⟩ := hserved transfer.requests.length _ hservable
      simp only [engine_arrivals, answer_arrivals, hrequests, List.getLast?_concat, hread, List.length_append,
        List.length_singleton, Nat.add_sub_cancel, hpieces, engine_answer]
      rw [handle_request_packet zlib allow_compression shared_file hread, hsend, List.map_flatMap, List.flatMap_map]
      have hhash := hservable.hash
      apply List.flatMap_congr
      intro piece _
      rw [piece_arrivals, hhash]
    · rw [begin_round_over hbegins]
      rfl

/-- A transfer of a region of a file that our own engine serves ends; it is complete where the block budget has room
for the pieces of its rounds. -/
theorem served_transfer_ends (zlib : Zlib) (allow_compression : Bool) (hrun : ServedRun shared_file args) :
    ∃ rounds outcome transfer writes,
      engine_exchange zlib allow_compression shared_file args rounds (begin_transfer args) =
        .finished outcome transfer ∧
      (transfer.parts.map written).Perm writes ∧
      Tiles shared_file.content args.start_offset (args.start_offset + transfer.received) writes ∧
      args.start_offset + transfer.received ≤ args.bound ∧
      (outcome.complete = true ↔ args.start_offset + transfer.received = args.bound) ∧
      ((∀ round, args.start_offset + round * round_size < args.bound → PIECES_PER_ROUND * round < args.max_blocks) →
        outcome.complete = true) := by
  obtain ⟨answers, hanswers, hserved⟩ := exists_engine_answers zlib allow_compression hrun.length hrun.size hrun.offsets
  have hhonest : HonestRun zlib.decompress shared_file.content args answers :=
    ⟨hrun.hash ▸ hrun.length, hrun.start, hrun.bound, Nat.lt_of_le_of_lt hrun.bound hrun.offsets, hanswers⟩
  have hleft : args.bound ≤ args.start_offset + (0 + args.bound) * round_size := by
    have hsize : 1 ≤ round_size := by decide
    have hmul := Nat.mul_le_mul_left args.bound hsize
    rw [Nat.zero_add]
    omega
  obtain ⟨rounds, last, final, hlast, hbefore, hover, hfinished⟩ := exchange_ends hhonest (at_first_round hhonest)
    (fun earlier hearlier => absurd hearlier (Nat.not_lt_zero earlier)) hleft
  have hblocks : ∀ round, blocks_before args answers round ≤ PIECES_PER_ROUND * round := by
    intro round
    induction round with
    | zero => exact Nat.le_refl 0
    | succ round ih =>
      have hservable := servable_linear hrun (args.start_offset + round * round_size)
      obtain ⟨pieces, hpieces, _, hcount⟩ := hserved round _ hservable
      have hmost :=
        hcount.trans (most_packets_linear args.file_hash (args.start_offset + round * round_size) args.bound)
      rw [blocks_before, linear_request, hpieces, List.length_map, Nat.mul_succ]
      exact Nat.add_le_add ih hmost
  have hreceived := hlast.received
  obtain ⟨writes, htiles, hperm⟩ := hlast.writes
  have hcomplete : (download_outcome args final "transfer finished").complete = true ↔
      args.start_offset + final.received = args.bound := by
    simp only [download_outcome, decide_eq_true_eq]
    omega
  refine ⟨rounds, _, final, writes, ?_, hperm, htiles, by omega, hcomplete, ?_⟩
  · rw [begin_transfer, engine_exchange_eq hrun hhonest hserved rounds (at_first_round hhonest), hfinished]
  · intro hbudget
    rw [hcomplete]
    by_contra hnot
    have hfirst : args.start_offset + final.received < args.bound := by omega
    have hneeded : args.start_offset + last * round_size < args.bound := by
      rw [← hlast.first hfirst]
      exact hfirst
    have hroom := Nat.lt_of_le_of_lt (hblocks last) (hbudget last hneeded)
    rw [← hlast.blocks] at hroom
    exact hover ⟨hroom, hfirst⟩

end Serving

end amuled.peer
