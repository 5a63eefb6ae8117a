import AmuleD.Codec.Struct

open littleendian

namespace amuled

def EDONKEY : UInt8 := 0xE3

def EMULE : UInt8 := 0xC5

def PACKED : UInt8 := 0xD4

def KAD : UInt8 := 0xE4

def KADEMLIAPACKED : UInt8 := 0xE5

def MAX_DECOMPRESSED_SIZE : Nat := 16 * 1024 * 1024

structure Packet where
  protocol : UInt8
  opcode : UInt8
  payload : Bytes
  deriving DecidableEq

/-- The header of a packet on the wire. -/
def header_bytes (protocol opcode : UInt8) (payload_size : Nat) : Except Exc Bytes :=
  if payload_size + 1 > 0xFFFFFFFF then .error (.PacketError "packet exceeds UINT32 length")
  else do
    let packet_length ← struct_pack 4 (payload_size + 1)
    .ok ([protocol] ++ packet_length ++ [opcode])

def encode_packet (packet : Packet) : Except Exc Bytes := do
  let header ← header_bytes packet.protocol packet.opcode packet.payload.length
  .ok (header ++ packet.payload)

def decode_packet (raw : Bytes) : Except Exc (Packet × Bytes) :=
  if raw.length < 6 then
    .error (.PacketError s!"insufficient data for header: have {raw.length}, need 6")
  else
    let packet_length := decode (raw.extract 1 5)
    if packet_length < 1 then
      .error (.PacketError s!"ED2K packet length cannot be less than one: {packet_length}")
    else
      let payload_size := packet_length - 1
      let stop := 6 + payload_size
      if raw.length < stop then
        .error (.PacketError (s!"payload size {payload_size} exceeds available data " ++
          s!"({raw.length - 6} bytes after header)"))
      else .ok (⟨raw.getD 0 0, raw.getD 5 0, raw.extract 6 stop⟩, raw.drop stop)

/-- What zlib's decompressor makes of some data: up to a number of output bytes, and
whether the stream came to its end. It may raise, with a message. -/
abbrev DecompressObj := Bytes → Nat → Except String (Bytes × Bool)

def decompress_payload (decompressobj : DecompressObj) (data : Bytes) (max_size : Nat) :
    Except Exc Bytes :=
  match decompressobj data (max_size + 1) with
  | .error e => .error (.ValueError s!"malformed zlib payload: {e}")
  | .ok (output, eof) =>
    if output.length > max_size then
      .error (.ValueError s!"decompressed payload exceeds maximum size: {max_size}")
    else if !eof then .error (.ValueError "truncated or malformed zlib payload")
    else .ok output

def unpacked_protocol (packed_protocol : UInt8) : UInt8 :=
  if packed_protocol = KADEMLIAPACKED then KAD else EDONKEY

def unpack_packet (decompressobj : DecompressObj) (data : Bytes) : Except Exc (Packet × Bytes) := do
  let (packet, remainder) ← decode_packet data
  if packet.protocol ≠ PACKED ∧ packet.protocol ≠ KADEMLIAPACKED then .ok (packet, remainder)
  else if packet.payload = [] then .error (.PacketError "packed packet has an empty payload")
  else
    match decompress_payload decompressobj packet.payload MAX_DECOMPRESSED_SIZE with
    | .error (.ValueError e) => .error (.PacketError s!"invalid packed payload: {e}")
    | .error e => .error e
    | .ok decompressed =>
      if decompressed = [] then
        .error (.PacketError "packed packet decompressed to an empty payload")
      else .ok (⟨unpacked_protocol packet.protocol, packet.opcode, decompressed⟩, remainder)

/-- The header of a packet that can be encoded. -/
def packet_header (packet : Packet) : Bytes :=
  [packet.protocol] ++ encode 4 (packet.payload.length + 1) ++ [packet.opcode]

theorem encode_packet_eq_ok_iff {packet : Packet} {encoded : Bytes} :
    encode_packet packet = .ok encoded ↔
      packet.payload.length + 1 < 256 ^ 4 ∧ encoded = packet_header packet ++ packet.payload := by
  rw [encode_packet, header_bytes]
  by_cases hfits : packet.payload.length + 1 > 0xFFFFFFFF
  · rw [if_pos hfits, error_bind]
    constructor
    · intro h
      cases h
    · intro h
      omega
  · have hpack : struct_pack 4 (packet.payload.length + 1) =
        .ok (encode 4 (packet.payload.length + 1)) :=
      struct_pack_eq_ok_iff.mpr ⟨by omega, rfl⟩
    rw [if_neg hfits, hpack, ok_bind, ok_bind, Except.ok.injEq, packet_header]
    constructor
    · intro h
      exact ⟨by omega, h.symm⟩
    · intro h
      exact h.2.symm

theorem length_packet_header (packet : Packet) : (packet_header packet).length = 6 := by
  simp [packet_header]

theorem decode_packet_header {packet : Packet} (hfits : packet.payload.length + 1 < 256 ^ 4)
    (rest : Bytes) :
    decode ((packet_header packet ++ rest).extract 1 5) = packet.payload.length + 1 := by
  have hslice : (packet_header packet ++ rest).extract 1 5 = encode 4 (packet.payload.length + 1) := by
    simp [packet_header, List.extract_eq_take_drop]
  rw [hslice, decode_encode hfits]

theorem getD_packet_header (packet : Packet) (rest : Bytes) :
    (packet_header packet ++ rest).getD 0 0 = packet.protocol ∧
      (packet_header packet ++ rest).getD 5 0 = packet.opcode := by
  have hshape : packet_header packet = packet.protocol ::
      UInt8.ofNat (packet.payload.length + 1) ::
      UInt8.ofNat ((packet.payload.length + 1) / 256) ::
      UInt8.ofNat ((packet.payload.length + 1) / 256 / 256) ::
      UInt8.ofNat ((packet.payload.length + 1) / 256 / 256 / 256) :: [packet.opcode] := rfl
  rw [hshape]
  exact ⟨rfl, rfl⟩

/-- An encoded packet is decoded and what stands behind it is left over. -/
theorem decode_packet_append {packet : Packet} (hfits : packet.payload.length + 1 < 256 ^ 4) (rest : Bytes) :
    decode_packet (packet_header packet ++ packet.payload ++ rest) = .ok (packet, rest) := by
  have hlength : (packet_header packet ++ (packet.payload ++ rest)).length =
      6 + packet.payload.length + rest.length := by
    rw [List.length_append, length_packet_header, List.length_append, Nat.add_assoc]
  have hpayload : (packet_header packet ++ (packet.payload ++ rest)).extract 6 (6 + packet.payload.length) =
      packet.payload := extract_piece (length_packet_header packet) rfl
  have hrest : (packet_header packet ++ (packet.payload ++ rest)).drop (6 + packet.payload.length) = rest := by
    rw [← List.append_assoc]
    apply List.drop_left'
    rw [List.length_append, length_packet_header]
  have hget := getD_packet_header packet (packet.payload ++ rest)
  have hpred : packet.payload.length + 1 - 1 = packet.payload.length := by omega
  rw [List.append_assoc, decode_packet, decode_packet_header hfits, if_neg (by omega), if_neg (by omega)]
  simp only [hpred, hget]
  rw [if_neg (by omega), hpayload, hrest]

/-- An encoded packet is decoded and nothing is left over. -/
theorem decode_packet_encoded {packet : Packet} (hfits : packet.payload.length + 1 < 256 ^ 4) :
    decode_packet (packet_header packet ++ packet.payload) = .ok (packet, []) := by
  have hdecoded := decode_packet_append hfits []
  rwa [List.append_nil] at hdecoded

theorem decompress_payload_error {decompressobj : DecompressObj} {data : Bytes} {max_size : Nat}
    {e : Exc} (herror : decompress_payload decompressobj data max_size = .error e) :
    ∃ message, e = .ValueError message := by
  rw [decompress_payload] at herror
  split at herror
  · cases herror
    exact ⟨_, rfl⟩
  · split at herror
    · cases herror
      exact ⟨_, rfl⟩
    · split at herror
      · cases herror
        exact ⟨_, rfl⟩
      · cases herror

/-- An encoded packet is unpacked with nothing left over, or `PacketError` is raised. -/
theorem unpack_packet_encoded {decompressobj : DecompressObj} {packet : Packet}
    (hfits : packet.payload.length + 1 < 256 ^ 4) :
    (∃ unpacked, unpack_packet decompressobj (packet_header packet ++ packet.payload) =
        .ok (unpacked, [])) ∨
      ∃ message, unpack_packet decompressobj (packet_header packet ++ packet.payload) =
        .error (.PacketError message) := by
  rw [unpack_packet, decode_packet_encoded hfits, ok_bind]
  simp only
  split
  · exact .inl ⟨packet, rfl⟩
  · split
    · exact .inr ⟨_, rfl⟩
    · cases hdata : decompress_payload decompressobj packet.payload MAX_DECOMPRESSED_SIZE with
      | error e =>
        obtain ⟨message, rfl⟩ := decompress_payload_error hdata
        exact .inr ⟨_, rfl⟩
      | ok decompressed =>
        simp only
        split
        · exact .inr ⟨_, rfl⟩
        · exact .inl ⟨_, rfl⟩

end amuled
