import AmuleD.Codec.Packet

open littleendian

namespace amuled

/-- The zlib module: what is compressed comes out whole where there is room for it, and no input
is no whole stream. -/
structure ZlibCodec where
  compress : Bytes → Nat → Bytes
  decompressobj : DecompressObj
  decompress_compress : ∀ data level max_length, data.length < max_length →
    decompressobj (compress data level) max_length = .ok (data, true)
  decompress_nil : ∀ max_length, decompressobj [] max_length = .ok ([], false)

variable (zlib : ZlibCodec)

def compress_payload (data : Bytes) (level : Int) : Except Exc Bytes :=
  if 0 ≤ level ∧ level ≤ 9 then .ok (zlib.compress data level.toNat)
  else .error (.ValueError s!"invalid zlib compression level: {level}")

def packed_protocol (protocol : UInt8) : UInt8 := if protocol = KAD then KADEMLIAPACKED else PACKED

def pack_packet (packet : Packet) (compression_level : Int) : Except Exc Bytes := do
  let compressed ← compress_payload zlib packet.payload compression_level
  if compressed.length ≥ packet.payload.length then encode_packet packet
  else encode_packet ⟨packed_protocol packet.protocol, packet.opcode, compressed⟩

/-- Some packets, decoded one by one, and what is left. -/
def decode_packets : Nat → Bytes → Except Exc (List Packet × Bytes)
  | 0, data => .ok ([], data)
  | count + 1, data => do
    let (packet, remainder) ← decode_packet data
    let (packets, remainder) ← decode_packets count remainder
    .ok (packet :: packets, remainder)

/-- Whether packing puts the compressed payload into the packet. -/
def Compressed (packet : Packet) (compression_level : Int) : Prop :=
  (zlib.compress packet.payload compression_level.toNat).length < packet.payload.length

instance (packet : Packet) (compression_level : Int) : Decidable (Compressed zlib packet compression_level) :=
  inferInstanceAs (Decidable (_ < _))

section Unpacking

variable {zlib} {packet : Packet} {level : Int}

theorem compress_ne_nil (data : Bytes) (level : Nat) : zlib.compress data level ≠ [] := by
  intro hnil
  have hwhole := zlib.decompress_compress data level (data.length + 1) (Nat.lt_succ_self _)
  rw [hnil, zlib.decompress_nil, Except.ok.injEq, Prod.mk.injEq] at hwhole
  exact absurd hwhole.2 Bool.false_ne_true

theorem decompress_payload_compress {data : Bytes} (level : Nat) (hsize : data.length ≤ MAX_DECOMPRESSED_SIZE) :
    decompress_payload zlib.decompressobj (zlib.compress data level) MAX_DECOMPRESSED_SIZE = .ok data := by
  rw [decompress_payload, zlib.decompress_compress data level _ (Nat.lt_succ_of_le hsize)]
  simp only [Bool.not_true, Bool.false_eq_true, if_false, if_neg (Nat.not_lt.mpr hsize)]

/-- A packet in the plain form is unpacked as it is. -/
theorem unpack_packet_plain (hfits : packet.payload.length + 1 < 256 ^ 4)
    (hprotocol : packet.protocol ≠ PACKED ∧ packet.protocol ≠ KADEMLIAPACKED) (rest : Bytes) :
    unpack_packet zlib.decompressobj (packet_header packet ++ packet.payload ++ rest) = .ok (packet, rest) := by
  rw [unpack_packet, decode_packet_append hfits, ok_bind]
  exact if_pos hprotocol

/-- A packed packet is unpacked under the protocol of its marker. -/
theorem unpack_packet_packed {data : Bytes} {level : Nat} (hpayload : packet.payload = zlib.compress data level)
    (hfits : packet.payload.length + 1 < 256 ^ 4) (hprotocol : packet.protocol = PACKED ∨ packet.protocol = KADEMLIAPACKED)
    (hsize : data.length ≤ MAX_DECOMPRESSED_SIZE) (hdata : data ≠ []) (rest : Bytes) :
    unpack_packet zlib.decompressobj (packet_header packet ++ packet.payload ++ rest) =
      .ok (⟨unpacked_protocol packet.protocol, packet.opcode, data⟩, rest) := by
  have hmarked : ¬(packet.protocol ≠ PACKED ∧ packet.protocol ≠ KADEMLIAPACKED) := by
    rintro ⟨hpacked, hkad⟩
    exact hprotocol.elim hpacked hkad
  rw [unpack_packet, decode_packet_append hfits, ok_bind]
  simp only [if_neg hmarked, hpayload, if_neg (compress_ne_nil data level), decompress_payload_compress level hsize,
    if_neg hdata]

theorem packed_protocol_marked (protocol : UInt8) :
    packed_protocol protocol = PACKED ∨ packed_protocol protocol = KADEMLIAPACKED := by
  rw [packed_protocol]
  split_ifs
  · exact Or.inr rfl
  · exact Or.inl rfl

/-- Packets that were encoded one behind the other are decoded one by one. -/
theorem decode_packets_flatten {packets : List Packet} {raws : List Bytes}
    (hencoded : packets.mapM encode_packet = .ok raws) (rest : Bytes) :
    decode_packets packets.length (raws.flatten ++ rest) = .ok (packets, rest) := by
  have heach := mapM_eq_ok_iff.mp hencoded
  clear hencoded
  induction heach with
  | nil => rfl
  | cons hraw _ ih =>
    obtain ⟨hfits, rfl⟩ := encode_packet_eq_ok_iff.mp hraw
    rw [List.flatten_cons, List.append_assoc, List.length_cons, decode_packets, decode_packet_append hfits, ok_bind]
    simp only [ih, ok_bind]

end Unpacking

/-- What was packed is unpacked again, with what stands behind it left over; only the protocol of a
compressed EMULE packet becomes EDONKEY. Encoded packets in a row are decoded one by one. -/
theorem unpack_pack_packet (packet : Packet) {level : Int}
    (hprotocol : packet.protocol = EDONKEY ∨ packet.protocol = EMULE ∨ packet.protocol = KAD)
    (hsize : packet.payload.length ≤ MAX_DECOMPRESSED_SIZE) (hlevel : 0 ≤ level ∧ level ≤ 9) (rest : Bytes) :
    (∃ packed, pack_packet zlib packet level = .ok packed ∧
        unpack_packet zlib.decompressobj (packed ++ rest) =
          .ok (⟨if packet.protocol = EMULE ∧ Compressed zlib packet level then EDONKEY else packet.protocol,
            packet.opcode, packet.payload⟩, rest)) ∧
      ∀ (packets : List Packet) (raws : List Bytes), packets.mapM encode_packet = .ok raws →
        decode_packets packets.length (raws.flatten ++ rest) = .ok (packets, rest) := by
  refine ⟨?_, fun packets raws hencoded => decode_packets_flatten hencoded rest⟩
  have hfits : packet.payload.length + 1 < 256 ^ 4 := by
    rw [MAX_DECOMPRESSED_SIZE] at hsize
    omega
  have hplain : packet.protocol ≠ PACKED ∧ packet.protocol ≠ KADEMLIAPACKED := by
    rcases hprotocol with h | h | h <;> rw [h] <;> decide
  rw [pack_packet, compress_payload, if_pos hlevel, ok_bind]
  by_cases hcompressed : Compressed zlib packet level
  · have hdata : packet.payload ≠ [] := by
      intro hnil
      rw [Compressed, hnil] at hcompressed
      exact absurd hcompressed (Nat.not_lt_zero _)
    have hshort : (zlib.compress packet.payload level.toNat).length + 1 < 256 ^ 4 :=
      (Nat.add_lt_add_right hcompressed 1).trans hfits
    rw [if_neg (Nat.not_le.mpr hcompressed)]
    refine ⟨_, encode_packet_eq_ok_iff.mpr ⟨hshort, rfl⟩, ?_⟩
    rw [unpack_packet_packed rfl hshort (packed_protocol_marked packet.protocol) hsize hdata]
    have hrestored : unpacked_protocol (packed_protocol packet.protocol) =
        if packet.protocol = EMULE ∧ Compressed zlib packet level then EDONKEY else packet.protocol := by
      rcases hprotocol with h | h | h <;> rw [h]
      · exact (if_neg fun hemule => absurd hemule.1 (by decide)).symm
      · exact (if_pos ⟨rfl, hcompressed⟩).symm
      · exact (if_neg fun hemule => absurd hemule.1 (by decide)).symm
    rw [hrestored]
  · rw [if_pos (Nat.not_lt.mp hcompressed)]
    refine ⟨_, encode_packet_eq_ok_iff.mpr ⟨hfits, rfl⟩, ?_⟩
    rw [unpack_packet_plain hfits hplain, if_neg fun hboth => hcompressed hboth.2]

/-- 40 zero bytes as zlib compresses them at its highest level. -/
def zeros_packed : Bytes := [0x78, 0xDA, 0x63, 0x60, 0x20, 0x0E, 0x00, 0x00, 0x00, 0x28, 0x00, 0x01]

/-- A zlib that agrees with the real one on 40 zero bytes, and only puts a byte before all else. -/
def zerosZlibCodec : ZlibCodec where
  compress data level := if data = List.replicate 40 0 ∧ level = 9 then zeros_packed else 0 :: data
  decompressobj data _ :=
    if data = zeros_packed then .ok (List.replicate 40 0, true)
    else
      match data with
      | [] => .ok ([], false)
      | _ :: rest => .ok (rest, true)
  decompress_compress := by
    intro data level max_length _
    by_cases hzeros : data = List.replicate 40 0 ∧ level = 9
    · simp only [hzeros, and_self, if_true]
    · have htagged : 0 :: data ≠ zeros_packed := by simp [zeros_packed]
      simp only [if_neg hzeros, if_neg htagged]
  decompress_nil := fun _ => rfl

theorem unpack_pack_packet_zeros :
    (∃ packed, pack_packet zerosZlibCodec ⟨EMULE, 0x01, List.replicate 40 0⟩ 9 = .ok packed ∧
        unpack_packet zerosZlibCodec.decompressobj (packed ++ [5]) =
          .ok (⟨if EMULE = EMULE ∧ Compressed zerosZlibCodec ⟨EMULE, 0x01, List.replicate 40 0⟩ 9 then EDONKEY else EMULE,
            0x01, List.replicate 40 0⟩, [5])) ∧
      ∀ (packets : List Packet) (raws : List Bytes), packets.mapM encode_packet = .ok raws →
        decode_packets packets.length (raws.flatten ++ [5]) = .ok (packets, [5]) :=
  unpack_pack_packet zerosZlibCodec ⟨EMULE, 0x01, List.replicate 40 0⟩ (Or.inr (Or.inl rfl)) (by decide)
    (by decide) [5]

/-- A compressed EMULE packet is unpacked as an EDONKEY packet. -/
theorem emule_packet_unpacked_as_edonkey :
    ¬∀ (zlib : ZlibCodec) (packet : Packet) (level : Int) (rest : Bytes), packet.protocol = EMULE →
      packet.payload.length ≤ MAX_DECOMPRESSED_SIZE → 0 ≤ level ∧ level ≤ 9 →
        ∃ packed, pack_packet zlib packet level = .ok packed ∧
          unpack_packet zlib.decompressobj (packed ++ rest) = .ok (packet, rest) := by
  intro hclaim
  obtain ⟨packed, hpacked, hunpacked⟩ :=
    hclaim zerosZlibCodec ⟨EMULE, 0x01, List.replicate 40 0⟩ 9 [] rfl (by decide) (by decide)
  have hwire : pack_packet zerosZlibCodec ⟨EMULE, 0x01, List.replicate 40 0⟩ 9 =
      .ok ([0xD4, 13, 0, 0, 0, 0x01] ++ zeros_packed) := by decide
  rw [hwire, Except.ok.injEq] at hpacked
  have hreal : unpack_packet zerosZlibCodec.decompressobj (packed ++ []) =
      .ok (⟨EDONKEY, 0x01, List.replicate 40 0⟩, []) := by
    rw [← hpacked]
    decide
  rw [hreal] at hunpacked
  exact absurd hunpacked (by decide)

end amuled
