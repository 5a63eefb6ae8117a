import AmuleD.Bytes.Bitmap
import AmuleD.Codec.WholePackets

open bitmap cursor littleendian

namespace amuled.peer

/-- An index that names no chunk. -/
def outside (chunk_count index : Int) : Bool := !(decide (0 ≤ index) && decide (index < chunk_count))

/-- `build_file_status_payload`, of integers. -/
def build_file_status_payload (file_hash : Bytes) (chunk_count : Int) (present_chunks : List Int) : Except Exc Bytes :=
  if file_hash.length ≠ 16 then .error (.PeerCodecError "file hash must contain exactly 16 bytes")
  else if ¬(0 ≤ chunk_count ∧ chunk_count ≤ 0xFFFF) then
    .error (.PeerCodecError s!"chunk_count out of UInt16 range: {chunk_count}")
  else
    match present_chunks.find? (outside chunk_count) with
    | some index =>
      .error (.PeerCodecError s!"present_chunks index {index} out of range for chunk_count {chunk_count}")
    | none => do
      let bit_array := (present_chunks.map Int.toNat).foldl setBit (List.replicate ((chunk_count.toNat + 7) / 8) 0)
      let hash ← write_hash16 file_hash
      let count ← write_u16 chunk_count.toNat
      .ok (hash ++ (count ++ bit_array))

section Status

variable {file_hash bits payload : Bytes} {count : Nat} {present_chunks : List Int} {chunk_count : Int}

/-- The indices of the chunks that a status names. -/
def present (count : Nat) (bits : Bytes) : List Nat := (List.range count).filter (bit bits)

/-- The payload of a status on the wire. -/
def status_bytes (file_hash : Bytes) (count : Nat) (bits : Bytes) : Bytes := file_hash ++ (encode 2 count ++ bits)

theorem parse_status_bytes (hhash : file_hash.length = 16) (hcount : count < 2 ^ 16)
    (hbits : bits.length = (count + 7) / 8) :
    parse_file_status (status_bytes file_hash count bits) = .ok ⟨file_hash, count, present count bits⟩ := by
  have hfield : Reads read_u16 (encode 2 count) count := reads_uint hcount
  have hread : Reads read_file_status (status_bytes file_hash count bits) (file_hash, count, bits) :=
    (reads_bytes_of_length hhash).bind (hfield.bind (reads_bytes_of_length hbits).bind_pure)
  have hwhole := hread.run []
  rw [List.append_nil] at hwhole
  have hsame : (fun i => decide (i / 8 < bits.length) && (bits.getD (i / 8) 0).toNat.testBit (i % 8)) = bit bits := by
    funext i
    by_cases hplace : i / 8 < bits.length
    · rw [decide_eq_true hplace, Bool.true_and]
      rfl
    · rw [decide_eq_false hplace, Bool.false_and, bit_of_le (by omega)]
  have hend : ¬Cursor.remaining ⟨status_bytes file_hash count bits, (status_bytes file_hash count bits).length⟩ ≠ 0 :=
    not_not.mpr (Nat.sub_self _)
  rw [parse_file_status, hwhole]
  change (if _ then _ else _) = _
  rw [if_neg hend, hsame]
  rfl

theorem of_read_file_status {hash : Bytes} {reader : BinaryReader}
    (hread : read_file_status ⟨payload, 0⟩ = .ok ((hash, count, bits), reader)) :
    ∃ rest, payload = status_bytes hash count bits ++ rest ∧ hash.length = 16 ∧ count < 2 ^ 16 ∧
      bits.length = (count + 7) / 8 ∧ reader.remaining = rest.length := by
  obtain ⟨_, between, hhash, hlater⟩ := of_bind_ok hread
  obtain ⟨_, behind, hcount, hlast⟩ := of_bind_ok hlater
  obtain ⟨_, final, hbits, hpair⟩ := of_bind_ok hlast
  cases hpair
  obtain ⟨tail, rfl, hlength, rfl⟩ := of_takeN_ok [] payload hhash
  obtain ⟨others, rfl, hfits, rfl⟩ := of_read_uint ([] ++ hash) tail hcount
  rw [← List.append_assoc ([] ++ hash) (encode 2 count) others] at hbits
  obtain ⟨rest, rfl, hbits_length, rfl⟩ := of_takeN_ok ([] ++ hash ++ encode 2 count) others hbits
  refine ⟨rest, ?_, hlength, hfits, hbits_length, ?_⟩
  · simp only [status_bytes, List.append_assoc]
  · simp only [Cursor.remaining, List.nil_append, List.length_append]
    omega

/-- What is parsed is a status on the wire. -/
theorem exists_status_bytes {status : FileStatus} (hparse : parse_file_status payload = .ok status) :
    ∃ bits, payload = status_bytes status.file_hash status.chunk_count bits ∧ status.file_hash.length = 16 ∧
      status.chunk_count < 2 ^ 16 ∧ bits.length = (status.chunk_count + 7) / 8 ∧
      status.present_chunks = present status.chunk_count bits := by
  obtain ⟨⟨⟨hash, count, bits⟩, reader⟩, hread, hrest⟩ := bind_eq_ok_iff.mp hparse
  obtain ⟨rest, rfl, hhash, hcount, hbits, hleft⟩ := of_read_file_status (malformed_eq_ok_iff.mp hread)
  dsimp only at hrest
  split_ifs at hrest with hend
  have hnone : rest = [] := by
    rw [hleft] at hend
    exact List.length_eq_zero_iff.mp (not_not.mp hend)
  have hsame := parse_status_bytes hhash hcount hbits
  rw [hnone, List.append_nil] at hparse
  rw [hsame] at hparse
  cases hparse
  exact ⟨bits, by rw [hnone, List.append_nil], hhash, hcount, hbits, rfl⟩

theorem build_eq_ok_iff {out : Bytes} : build_file_status_payload file_hash chunk_count present_chunks = .ok out ↔
    file_hash.length = 16 ∧ (0 ≤ chunk_count ∧ chunk_count ≤ 0xFFFF) ∧
      (∀ index ∈ present_chunks, 0 ≤ index ∧ index < chunk_count) ∧
      out = status_bytes file_hash chunk_count.toNat
        ((present_chunks.map Int.toNat).foldl setBit (List.replicate ((chunk_count.toNat + 7) / 8) 0)) := by
  rw [build_file_status_payload]
  by_cases hhash : file_hash.length = 16
  · rw [if_neg (not_not.mpr hhash)]
    by_cases hcount : 0 ≤ chunk_count ∧ chunk_count ≤ 0xFFFF
    · rw [if_neg (not_not.mpr hcount)]
      have hwritten : write_u16 chunk_count.toNat = .ok (encode 2 chunk_count.toNat) :=
        write_uint_eq_ok_iff.mpr ⟨by omega, rfl⟩
      cases hfind : present_chunks.find? (outside chunk_count) with
      | some index =>
        have hout : outside chunk_count index = true := List.find?_some hfind
        have hmem := List.mem_of_find?_eq_some hfind
        constructor
        · intro herror
          cases herror
        · rintro ⟨_, _, hinside, _⟩
          have hin := hinside index hmem
          simp [outside, hin.1, hin.2] at hout
      | none =>
        rw [List.find?_eq_none] at hfind
        have hinside : ∀ index ∈ present_chunks, 0 ≤ index ∧ index < chunk_count := by
          intro index hindex
          simpa [outside] using hfind index hindex
        simp only [write_hash16, if_pos hhash, hwritten, status_bytes]
        constructor
        · intro hok
          cases hok
          exact ⟨hhash, hcount, hinside, rfl⟩
        · rintro ⟨_, _, _, rfl⟩
          rfl
    · rw [if_pos hcount]
      constructor
      · intro herror
        cases herror
      · exact fun hall => absurd hall.2.1 hcount
  · rw [if_pos hhash]
    constructor
    · intro herror
      cases herror
    · exact fun hall => absurd hall.1 hhash

theorem length_status_bytes (hash : Bytes) (count : Nat) (bits : Bytes) :
    (status_bytes hash count bits).length = hash.length + 2 + bits.length := by
  rw [status_bytes, List.length_append, List.length_append, length_encode, Nat.add_assoc]

/-- The bits that the chunks of a status set. -/
theorem bit_array_eq {count : Nat} {indices : List Nat} (hindices : ∀ index ∈ indices, index < count) (i : Nat) :
    bit (indices.foldl setBit (List.replicate ((count + 7) / 8) 0)) i = decide (i ∈ indices) := by
  rw [bit_foldl_setBit, bit_replicate, Bool.or_false]
  intro index hindex
  have hbound := hindices index hindex
  rw [List.length_replicate]
  omega

/-- A status that was built is parsed with the chunks that it was built of, in their order and each once. What is parsed
is built again from what was read, byte for byte where no bit behind the last chunk is set. -/
theorem file_status_round_trip :
    (∀ file_hash chunk_count present_chunks payload,
      build_file_status_payload file_hash chunk_count present_chunks = .ok payload →
      parse_file_status payload = .ok ⟨file_hash, chunk_count.toNat,
        (List.range chunk_count.toNat).filter fun i => present_chunks.contains (Int.ofNat i)⟩) ∧
    ∀ payload status, parse_file_status payload = .ok status → ∃ built,
      build_file_status_payload status.file_hash status.chunk_count (status.present_chunks.map Int.ofNat) = .ok built ∧
      parse_file_status built = .ok status ∧ built.length = payload.length ∧
      (built = payload ↔ ∀ i, status.chunk_count ≤ i → bit (payload.drop 18) i = false) := by
  constructor
  · intro file_hash chunk_count present_chunks payload hbuilt
    obtain ⟨hhash, hcount, hinside, rfl⟩ := build_eq_ok_iff.mp hbuilt
    rw [parse_status_bytes hhash (by omega) (by simp), present]
    congr 2
    apply List.filter_congr
    intro i hi
    rw [bit_array_eq]
    · rw [List.contains_eq_mem, decide_eq_decide, List.mem_map]
      constructor
      · rintro ⟨index, hindex, rfl⟩
        have hrange := hinside index hindex
        rwa [Int.ofNat_eq_natCast, Int.toNat_of_nonneg hrange.1]
      · intro hmem
        exact ⟨Int.ofNat i, hmem, rfl⟩
    · intro index hindex
      obtain ⟨value, hvalue, rfl⟩ := List.mem_map.mp hindex
      have hrange := hinside value hvalue
      omega
  · intro payload status hparse
    obtain ⟨bits, rfl, hhash, hcount, hbits, hpresent⟩ := exists_status_bytes hparse
    have hmap : (status.present_chunks.map Int.ofNat).map Int.toNat = status.present_chunks := by
      rw [List.map_map]
      exact List.map_id _
    have hin : ∀ index ∈ status.present_chunks, index < status.chunk_count := by
      intro index hindex
      rw [hpresent, present, List.mem_filter, List.mem_range] at hindex
      exact hindex.1
    obtain ⟨built, hbuilt_eq⟩ : ∃ built, built =
        status.present_chunks.foldl setBit (List.replicate ((status.chunk_count + 7) / 8) 0) := ⟨_, rfl⟩
    have hlength : built.length = (status.chunk_count + 7) / 8 := by
      rw [hbuilt_eq, length_foldl_setBit, List.length_replicate]
    have hbit : ∀ i, bit built i = (decide (i < status.chunk_count) && bit bits i) := by
      intro i
      rw [hbuilt_eq, bit_array_eq hin, hpresent, present, ← Bool.decide_coe (bit bits i), ← Bool.decide_and,
        decide_eq_decide, List.mem_filter, List.mem_range]
    refine ⟨status_bytes status.file_hash status.chunk_count built, ?_, ?_, ?_, ?_⟩
    · rw [build_eq_ok_iff]
      refine ⟨hhash, ⟨by omega, by omega⟩, ?_, ?_⟩
      · intro index hindex
        obtain ⟨value, hvalue, rfl⟩ := List.mem_map.mp hindex
        have hbound := hin value hvalue
        rw [Int.ofNat_eq_natCast]
        omega
      · rw [hmap, Int.toNat_natCast, ← hbuilt_eq]
    · rw [parse_status_bytes hhash hcount hlength]
      have hsame : present status.chunk_count built = status.present_chunks := by
        rw [hpresent, present, present]
        apply List.filter_congr
        intro i hi
        rw [hbit, decide_eq_true (List.mem_range.mp hi), Bool.true_and]
      rw [hsame]
    · rw [length_status_bytes, length_status_bytes, hlength, hbits]
    · have hdrop : (status_bytes status.file_hash status.chunk_count bits).drop 18 = bits := by
        rw [status_bytes, ← List.append_assoc]
        exact List.drop_left' (by rw [List.length_append, hhash, length_encode])
      rw [hdrop]
      constructor
      · intro heq i hi
        have hbits_eq : built = bits := by
          rw [status_bytes, status_bytes] at heq
          exact List.append_cancel_left (List.append_cancel_left heq)
        rw [← hbits_eq, hbit, decide_eq_false (Nat.not_lt.mpr hi), Bool.false_and]
      · intro hzero
        have hbits_eq : built = bits := by
          apply ext_bit (hlength.trans hbits.symm)
          intro i
          rw [hbit]
          by_cases hi : i < status.chunk_count
          · rw [decide_eq_true hi, Bool.true_and]
          · rw [decide_eq_false hi, Bool.false_and, hzero i (Nat.le_of_not_lt hi)]
        rw [hbits_eq]

end Status

end amuled.peer
