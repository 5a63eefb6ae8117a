import AmuleD.Upload.Engine

open littleendian tiling

namespace amuled.upload

open amuled.peer

section Sends

variable {file_hash : Bytes}

/-- A sub-packet of a plain block is a plain packet, wide where its end needs it. -/
theorem send_plain_chunk_eq {chunk_start : Nat} {chunk : Bytes} (hhash : file_hash.length = 16)
    (hchunk : chunk ≠ []) (hfits : chunk_start + chunk.length < 2 ^ 64) :
    send_plain_chunk file_hash chunk_start (chunk_start + chunk.length) chunk =
      ⟨[plain_packet file_hash (decide (chunk_start + chunk.length > 0xFFFFFFFF)) chunk_start chunk], none⟩ := by
  have hpos := List.length_pos_iff.mpr hchunk
  rw [send_plain_chunk]
  by_cases hwide : chunk_start + chunk.length > 0xFFFFFFFF
  · rw [if_pos hwide, build_sending_part_i64_payload, if_neg (not_not.mpr hhash), if_neg (by omega),
      if_neg (by omega), if_neg (by omega), if_neg (by omega)]
    simp only [Sending.packet, plain_packet, hwide, decide_true, if_true, offset_width]
  · have hstart : chunk_start % 2 ^ 32 = chunk_start := Nat.mod_eq_of_lt (by omega)
    have hstop : (chunk_start + chunk.length) % 2 ^ 32 = chunk_start + chunk.length :=
      Nat.mod_eq_of_lt (by omega)
    rw [if_neg hwide, build_sending_part_payload, hstart, hstop, List.take_of_length_le (by omega)]
    simp only [Sending.packet, plain_packet, hwide, decide_false, Bool.false_eq_true, if_false, offset_width]

/-- A sub-packet of a compressed block is a chunk packet, wide where the block's end needs it. -/
theorem send_compressed_chunk_eq {start stop total : Nat} (hhash : file_hash.length = 16)
    (hstart : start ≤ stop) (hstop : stop < 2 ^ 64) (htotal : total < 2 ^ 32) (chunk : Bytes) :
    send_compressed_chunk file_hash start stop total chunk =
      ⟨[chunk_packet file_hash (decide (stop > 0xFFFFFFFF)) start total chunk], none⟩ := by
  have hsize : write_u32 total = .ok (encode 4 total) := write_uint_eq_ok_iff.mpr ⟨htotal, rfl⟩
  rw [send_compressed_chunk]
  by_cases hwide : stop > 0xFFFFFFFF
  · have hoffset : write_u64 start = .ok (encode 8 start) := write_uint_eq_ok_iff.mpr ⟨by omega, rfl⟩
    rw [if_pos hwide, build_compressed_part_i64_u64_payload, hoffset, ok_bind, hsize, ok_bind,
      List.take_of_length_le (by omega)]
    simp only [Sending.packet, chunk_packet, hwide, decide_true, if_true, offset_width, data_payload]
  · have hoffset : start % 2 ^ 32 = start := Nat.mod_eq_of_lt (by omega)
    rw [if_neg hwide, build_compressed_part_payload, hsize, ok_bind, hoffset,
      List.take_of_length_le (by omega)]
    simp only [Sending.packet, chunk_packet, hwide, decide_false, Bool.false_eq_true, if_false, offset_width,
      data_payload]

/-- The loop over a compressed block sends what it still has to, cut into chunks. -/
theorem send_compressed_eq {start stop : Nat} {compressed : Bytes} (hhash : file_hash.length = 16)
    (hstart : start ≤ stop) (hstop : stop < 2 ^ 64) (htotal : compressed.length < 2 ^ 32) {togo : Nat}
    (htogo : togo ≤ compressed.length) :
    ∃ chunks : List Bytes, send_compressed file_hash start stop compressed togo =
        ⟨chunks.map (chunk_packet file_hash (decide (stop > 0xFFFFFFFF)) start compressed.length), none⟩ ∧
      chunks.flatten = compressed.drop (compressed.length - togo) ∧ ∀ chunk ∈ chunks, chunk ≠ [] := by
  induction togo using Nat.strong_induction_on with
  | h togo ih =>
    rw [send_compressed]
    by_cases hdone : togo = 0
    · rw [dif_pos hdone]
      refine ⟨[], rfl, ?_, fun _ h => absurd h List.not_mem_nil⟩
      rw [hdone, Nat.sub_zero, List.drop_length]
      rfl
    · have hpos := chunk_len_pos hdone
      have hle := chunk_len_le togo
      obtain ⟨chunks, hsend, hflatten, hnonempty⟩ := ih (togo - chunk_len togo) (by omega) (by omega)
      have hoffset : compressed.length - (togo - chunk_len togo) - chunk_len togo = compressed.length - togo := by
        omega
      have hnext : compressed.length - (togo - chunk_len togo) = compressed.length - togo + chunk_len togo := by
        omega
      rw [dif_neg hdone]
      simp only [hoffset, send_compressed_chunk_eq hhash hstart hstop htotal, Sending.andThen_of_none, hsend]
      refine ⟨compressed.extract (compressed.length - togo) (compressed.length - togo + chunk_len togo) :: chunks,
        rfl, ?_, ?_⟩
      · rw [List.flatten_cons, hflatten, hnext, List.extract_eq_take_drop, Nat.add_sub_cancel_left,
          ← List.drop_drop, List.take_append_drop]
      · intro chunk hchunk
        rcases List.mem_cons.mp hchunk with rfl | hchunk
        · rw [← List.length_pos_iff, length_extract_of_le (by omega)]
          omega
        · exact hnonempty chunk hchunk

/-- Pieces that cover a range of a file, and can be sent. -/
structure Covering (decompress : Bytes → Except String Bytes) (content : Bytes) (start stop : Nat)
    (pieces : List Piece) : Prop where
  tiles : Tiles content start stop (pieces.map Piece.write)
  fits : ∀ piece ∈ pieces, piece.Fits decompress

theorem Covering.nil (decompress : Bytes → Except String Bytes) (content : Bytes) (start : Nat) :
    Covering decompress content start start [] := ⟨.nil start, fun _ h => absurd h List.not_mem_nil⟩

/-- The loop over a plain block sends what it still has to, in plain pieces. -/
theorem send_plain_eq (decompress : Bytes → Except String Bytes) {content : Bytes} {start stop : Nat}
    (hhash : file_hash.length = 16) (hstop : stop < 2 ^ 64) (hinside : stop ≤ content.length) {togo : Nat}
    (htogo : start + togo ≤ stop) :
    ∃ pieces, send_plain file_hash start stop (content.extract start stop) togo =
        ⟨pieces.flatMap (Piece.packets file_hash), none⟩ ∧
      Covering decompress content (stop - togo) stop pieces := by
  induction togo using Nat.strong_induction_on with
  | h togo ih =>
    rw [send_plain]
    by_cases hdone : togo = 0
    · rw [dif_pos hdone, hdone, Nat.sub_zero]
      exact ⟨[], rfl, .nil decompress content stop⟩
    · have hpos := chunk_len_pos hdone
      have hle := chunk_len_le togo
      obtain ⟨pieces, hsend, hcovering⟩ := ih (togo - chunk_len togo) (by omega) (by omega)
      have hchunkEnd : stop - (togo - chunk_len togo) = stop - togo + chunk_len togo := by omega
      have hchunkStart : stop - togo + chunk_len togo - chunk_len togo = stop - togo := by omega
      have hslice : (content.extract start stop).extract (stop - togo - start)
          (stop - togo + chunk_len togo - start) =
          content.extract (stop - togo) (stop - togo + chunk_len togo) := by
        rw [extract_extract content (by omega)]
        congr 1 <;> omega
      have hlength : (content.extract (stop - togo) (stop - togo + chunk_len togo)).length = chunk_len togo := by
        rw [length_extract_of_le (by omega)]
        omega
      have hnonempty : content.extract (stop - togo) (stop - togo + chunk_len togo) ≠ [] := by
        rw [← List.length_pos_iff, hlength]
        exact hpos
      have hchunkFits : stop - togo +
          (content.extract (stop - togo) (stop - togo + chunk_len togo)).length < 2 ^ 64 := by
        rw [hlength]
        omega
      have hchunk := send_plain_chunk_eq hhash hnonempty hchunkFits
      have hwidth : stop - togo + chunk_len togo <
          256 ^ offset_width (decide (stop - togo + chunk_len togo > 0xFFFFFFFF)) := by
        by_cases hwide : stop - togo + chunk_len togo > 0xFFFFFFFF
        · simp only [hwide, decide_true, offset_width, if_true]
          omega
        · simp only [hwide, decide_false, offset_width, Bool.false_eq_true, if_false]
          omega
      rw [hlength] at hchunk
      rw [dif_neg hdone]
      simp only [hchunkEnd, hchunkStart, hslice, hchunk, Sending.andThen_of_none, hsend]
      refine ⟨.plain (decide (stop - togo + chunk_len togo > 0xFFFFFFFF)) (stop - togo)
        (content.extract (stop - togo) (stop - togo + chunk_len togo)) :: pieces, rfl, ?_, ?_⟩
      · rw [hchunkEnd] at hcovering
        exact .cons (by omega) (by omega) hcovering.tiles
      · intro piece hpiece
        rcases List.mem_cons.mp hpiece with rfl | hpiece
        · exact .plain (by rw [hlength]; exact hwidth)
        · exact hcovering.fits piece hpiece

end Sends

section Requests

variable {zlib : Zlib} {shared_file : SharedFile}

/-- A block is sent as pieces that cover it. -/
theorem send_block_eq (zlib : Zlib) (allow_compression : Bool) (hhash : shared_file.file_hash.length = 16)
    (hsize : shared_file.size = shared_file.content.length) {start stop : Nat} (hstart : start < stop)
    (hinside : stop ≤ shared_file.size) (hstop : stop < 2 ^ 64)
    (hlength : stop - start ≤ EMBLOCKSIZE * MAX_REQUEST_BLOCKS) :
    ∃ pieces, send_block zlib allow_compression shared_file start stop (stop - start) =
        ⟨pieces.flatMap (Piece.packets shared_file.file_hash), none⟩ ∧
      Covering zlib.decompress shared_file.content start stop pieces := by
  have hcontent : stop ≤ shared_file.content.length := hsize ▸ hinside
  have hdata : (shared_file.content.extract start stop).length = stop - start := length_extract_of_le hcontent
  have hread : read_block shared_file start (stop - start) = .ok (shared_file.content.extract start stop) := by
    have hend : start + (stop - start) = stop := by omega
    simp only [read_block, hend]
    rw [if_neg (by omega), if_neg (by omega)]
  simp only [send_block, hread]
  split_ifs with hcompress
  · obtain ⟨-, -, hsmaller⟩ := hcompress
    rw [hdata] at hsmaller
    rw [EMBLOCKSIZE, MAX_REQUEST_BLOCKS] at hlength
    have htotal : (zlib.compress (shared_file.content.extract start stop)).length < 2 ^ 32 := by omega
    obtain ⟨chunks, hsend, hflatten, hnonempty⟩ :=
      send_compressed_eq hhash (Nat.le_of_lt hstart) hstop htotal (Nat.le_refl _)
    rw [Nat.sub_self, List.drop_zero] at hflatten
    have hchunks : chunks ≠ [] := by
      rintro rfl
      exact zlib.compress_ne_nil _ hflatten.symm
    refine ⟨[.compressed (decide (stop > 0xFFFFFFFF)) start (shared_file.content.extract start stop) chunks],
      ?_, .single hstart hcontent, ?_⟩
    · rw [hsend, List.flatMap_singleton, Piece.packets, hflatten]
    · intro piece hpiece
      obtain rfl := List.mem_singleton.mp hpiece
      refine .compressed ?_ (by rw [hflatten]; omega) hchunks hnonempty (by rw [hflatten]; exact zlib.decompress_compress _)
      by_cases hwide : stop > 0xFFFFFFFF
      · simp only [hwide, decide_true, offset_width, if_true]
        omega
      · simp only [hwide, decide_false, offset_width, Bool.false_eq_true, if_false]
        omega
  · obtain ⟨pieces, hsend, hcovering⟩ := send_plain_eq zlib.decompress hhash hstop hcontent
      (by omega : start + (stop - start) ≤ stop)
    have hfirst : stop - (stop - start) = start := by omega
    rw [hfirst] at hcovering
    exact ⟨pieces, hsend, hcovering⟩

/-- Where the range that is served ends: at its own end, at the end of the file or after three
blocks, and nowhere before its start. -/
def served_end (file_size start stop : Nat) : Nat :=
  max start (min stop (min file_size (start + EMBLOCKSIZE * MAX_REQUEST_BLOCKS)))

theorem block_end_eq (file_size start stop : Nat) :
    block_end file_size start stop =
      if start ≥ stop then none
      else if start ≥ min stop file_size then none
      else if min stop file_size - start > EMBLOCKSIZE * MAX_REQUEST_BLOCKS then
        some (start + EMBLOCKSIZE * MAX_REQUEST_BLOCKS)
      else some (min stop file_size) := by
  have hclip : (if stop > file_size then file_size else stop) = min stop file_size := by
    split_ifs <;> omega
  simp only [block_end, hclip]

theorem block_end_none {file_size start stop : Nat} (hnone : block_end file_size start stop = none) :
    served_end file_size start stop = start := by
  rw [block_end_eq] at hnone
  rw [served_end]
  split_ifs at hnone <;> omega

theorem block_end_some {file_size start stop last : Nat} (hsome : block_end file_size start stop = some last) :
    served_end file_size start stop = last ∧ start < last ∧ last ≤ file_size ∧ last ≤ stop ∧
      last - start ≤ EMBLOCKSIZE * MAX_REQUEST_BLOCKS := by
  have hblocks : 0 < EMBLOCKSIZE * MAX_REQUEST_BLOCKS := by decide
  rw [block_end_eq] at hsome
  rw [served_end]
  split_ifs at hsome <;> rw [Option.some.injEq] at hsome <;> omega

theorem used_ranges_cons_of_ne {slot : Nat × Nat} (hused : slot ≠ (0, 0)) (slots : List (Nat × Nat)) :
    used_ranges (slot :: slots) = slot :: used_ranges slots := by simp [used_ranges, hused]

theorem used_ranges_padding (slots : List (Nat × Nat)) : used_ranges ((0, 0) :: slots) = used_ranges slots := by
  simp [used_ranges]

/-- The answer to some ranges: pieces for each of them, one range after the other. -/
theorem send_ranges_eq (zlib : Zlib) (allow_compression : Bool) (hhash : shared_file.file_hash.length = 16)
    (hsize : shared_file.size = shared_file.content.length) {slots : List (Nat × Nat)}
    (hslots : ∀ slot ∈ slots, slot.2 < 2 ^ 64) :
    ∃ answers : List (List Piece), send_ranges zlib allow_compression shared_file (used_ranges slots) =
        ⟨answers.flatten.flatMap (Piece.packets shared_file.file_hash), none⟩ ∧
      List.Forall₂ (fun slot pieces => Covering zlib.decompress shared_file.content slot.1
        (served_end shared_file.size slot.1 slot.2) pieces) slots answers := by
  induction slots with
  | nil => exact ⟨[], rfl, .nil⟩
  | cons slot slots ih =>
    obtain ⟨start, stop⟩ := slot
    obtain ⟨answers, hsend, hanswers⟩ := ih fun other hother => hslots other (List.mem_cons_of_mem _ hother)
    have hstop : stop < 2 ^ 64 := hslots (start, stop) List.mem_cons_self
    cases hblock : block_end shared_file.size start stop with
    | none =>
      refine ⟨[] :: answers, ?_, .cons ?_ hanswers⟩
      · rw [List.flatten_cons, List.nil_append, ← hsend]
        by_cases hused : (start, stop) = (0, 0)
        · rw [hused, used_ranges_padding]
        · rw [used_ranges_cons_of_ne hused, send_ranges, hblock]
      · rw [block_end_none hblock]
        exact .nil zlib.decompress shared_file.content start
    | some last =>
      obtain ⟨hserved, hstart, hinside, hle, hlength⟩ := block_end_some hblock
      obtain ⟨pieces, hpieces, hcovering⟩ :=
        send_block_eq zlib allow_compression hhash hsize hstart hinside (by omega) hlength
      have hused : (start, stop) ≠ (0, 0) := by
        intro hpadding
        rw [Prod.mk.injEq] at hpadding
        omega
      refine ⟨pieces :: answers, ?_, .cons (hserved ▸ hcovering) hanswers⟩
      rw [used_ranges_cons_of_ne hused, send_ranges, hblock]
      simp only [hpieces, hsend, Sending.andThen_of_none, List.flatten_cons, List.flatMap_append]

/-- A request that fits is parsed by the engine to its ranges. -/
theorem parse_request_parts_internal_eq {request : RequestParts} {is_i64 : Bool}
    (hfits : request.Fits (offset_width is_i64)) :
    parse_request_parts_internal (request_payload (offset_width is_i64) request) is_i64 =
      .ok (request.file_hash, used_ranges request.slots) := by
  cases is_i64 with
  | false =>
    have hparse := (parse_request_built hfits "OP_REQUESTPARTS").2
    simp only [parse_request_parts_internal, Bool.false_eq_true, if_false, parse_request_parts]
    rw [offset_width, if_neg Bool.false_ne_true] at hparse ⊢
    rw [hparse]
  | true =>
    have hparse := (parse_request_built hfits "OP_REQUESTPARTS_I64").2
    simp only [parse_request_parts_internal, if_true, parse_request_parts_i64]
    rw [offset_width, if_pos rfl] at hparse ⊢
    rw [hparse]

/-- What the engine sends for a request makes the client write, for each of the three ranges
in turn, blocks that tile what is served of it. -/
theorem request_parts_reassembled (zlib : Zlib) (allow_compression : Bool) (shared_file : SharedFile)
    (is_i64 : Bool) (request : RequestParts) {pending : Pending}
    (hhash : shared_file.file_hash.length = 16) (hsize : shared_file.size = shared_file.content.length)
    (hfits : request.Fits (offset_width is_i64)) (hidle : Idle pending) :
    ∃ payload packets parts after first second third,
      build_request (offset_width is_i64) request = .ok payload ∧
      handle_request_parts zlib allow_compression shared_file payload is_i64 = ⟨packets, none⟩ ∧
      reassemble zlib.decompress pending packets = .ok (parts, after) ∧
      parts.map written = first ++ (second ++ third) ∧
      List.Forall₂ (fun slot writes => Tiles shared_file.content slot.1
        (served_end shared_file.size slot.1 slot.2) writes) request.slots [first, second, third] := by
  have hslots : ∀ slot ∈ request.slots, slot.2 < 2 ^ 64 := by
    intro slot hslot
    have hend := hfits.ends slot hslot
    have hwidth : 256 ^ offset_width is_i64 ≤ 2 ^ 64 := by cases is_i64 <;> decide
    omega
  obtain ⟨answers, hsend, hanswers⟩ := send_ranges_eq zlib allow_compression hhash hsize hslots
  simp only [RequestParts.slots] at hanswers ⊢
  rcases hanswers with _ | ⟨hfirst, _ | ⟨hsecond, _ | ⟨hthird, _ | _⟩⟩⟩
  rename_i first second third
  have hpieces : ∀ piece ∈ [first, second, third].flatten, piece.Fits zlib.decompress := by
    intro piece hpiece
    simp only [List.flatten_cons, List.flatten_nil, List.append_nil, List.mem_append] at hpiece
    rcases hpiece with hpiece | hpiece | hpiece
    · exact hfirst.fits piece hpiece
    · exact hsecond.fits piece hpiece
    · exact hthird.fits piece hpiece
  obtain ⟨after, hreassemble, -⟩ := reassemble_pieces hhash hpieces hidle
  refine ⟨request_payload (offset_width is_i64) request, _, _, after, first.map Piece.write, second.map Piece.write,
    third.map Piece.write, (parse_request_built hfits "").1, ?_, hreassemble, ?_,
    .cons hfirst.tiles (.cons hsecond.tiles (.cons hthird.tiles .nil))⟩
  · rw [handle_request_parts, parse_request_parts_internal_eq hfits]
    exact hsend
  · rw [map_written_part]
    simp

end Requests

/-- 40 zero bytes as zlib compresses them. -/
def zeros_compressed : Bytes := [0x78, 0x9c, 0x63, 0x60, 0x20, 0x0e, 0x00, 0x00, 0x00, 0x28, 0x00, 0x01]

/-- A zlib that agrees with the real one on 40 zero bytes, and only puts a byte before all else. -/
def zerosZlib : Zlib where
  compress data := if data = List.replicate 40 0 then zeros_compressed else 0 :: data
  decompress data :=
    if data = zeros_compressed then .ok (List.replicate 40 0)
    else
      match data with
      | [] => .error "Error -5 while decompressing data: incomplete or truncated stream"
      | _ :: rest => .ok rest
  decompress_compress := by
    intro data
    by_cases hzeros : data = List.replicate 40 0
    · simp only [if_true, hzeros]
    · have htagged : 0 :: data ≠ zeros_compressed := by simp [zeros_compressed]
      simp only [if_neg hzeros, if_neg htagged]
  decompress_nil := ⟨_, rfl⟩

/-- Two ranges of a file of 50 zero bytes, of which the first is compressed. -/
theorem request_parts_reassembled_zeros :
    ∃ payload packets parts after first second third,
      build_request (offset_width false) ⟨List.replicate 16 1, (0, 40, 0), (40, 60, 0)⟩ = .ok payload ∧
      handle_request_parts zerosZlib true (.unhashed (List.replicate 16 1) (List.replicate 50 0)) payload false =
        ⟨packets, none⟩ ∧
      reassemble zerosZlib.decompress Dict.empty packets = .ok (parts, after) ∧
      parts.map written = first ++ (second ++ third) ∧
      List.Forall₂ (fun slot writes => Tiles (List.replicate 50 0) slot.1 (served_end 50 slot.1 slot.2) writes)
        [(0, 40), (40, 60), (0, 0)] [first, second, third] :=
  request_parts_reassembled zerosZlib true (.unhashed (List.replicate 16 1) (List.replicate 50 0)) false
    ⟨List.replicate 16 1, (0, 40, 0), (40, 60, 0)⟩ rfl rfl ⟨rfl, by decide, by decide⟩ idle_empty

end amuled.upload
