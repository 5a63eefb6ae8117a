import AmuleD.Dict
import AmuleD.Peer.PartPackets

open littleendian

namespace amuled.peer

/-- The zlib module. What is compressed is decompressed to what it was, and an empty
string is no zlib stream. -/
structure Zlib where
  compress : Bytes → Bytes
  decompress : Bytes → Except String Bytes
  decompress_compress : ∀ data, decompress (compress data) = .ok data
  decompress_nil : ∃ e, decompress [] = .error e

theorem Zlib.compress_ne_nil (zlib : Zlib) (data : Bytes) : zlib.compress data ≠ [] := by
  intro hnil
  obtain ⟨e, herror⟩ := zlib.decompress_nil
  have hok := zlib.decompress_compress data
  rw [hnil, herror] at hok
  cases hok

/-- `pending_compressed`: for a start and a compressed size, the hash and the chunks so far. -/
abbrev Pending := Dict (Nat × Nat) (Bytes × Bytes)

/-- A chunk of a compressed part, which completes the part where it brings the buffer to
the announced size. -/
def collect_chunk (decompress : Bytes → Except String Bytes) (pending : Pending) (file_hash : Bytes)
    (start total : Nat) (chunk : Bytes) : Except Exc (Option SendingPart × Pending) :=
  let slot := (pending.get (start, total)).getD (file_hash, [])
  let buf := slot.2 ++ chunk
  if buf.length < total then .ok (none, pending.set (start, total) (slot.1, buf))
  else
    match decompress buf with
    | .error e => .error (.PeerSessionError s!"compressed part reassembly failed: {e}")
    | .ok data => .ok (some ⟨slot.1, start, start + data.length, data⟩, pending.erase (start, total))

/-- The opcodes of data packets. -/
def IsData (opcode : UInt8) : Prop :=
  opcode = SENDINGPART ∨ opcode = SENDINGPART_I64 ∨ opcode = COMPRESSEDPART ∨ opcode = COMPRESSEDPART_I64

instance (opcode : UInt8) : Decidable (IsData opcode) := inferInstanceAs (Decidable (_ ∨ _))

/-- The branches of `PeerClient.transfer` for the data packets: the part that the packet
makes, or none while chunks of it are missing. -/
def read_part (decompress : Bytes → Except String Bytes) (pending : Pending) (opcode : UInt8)
    (payload : Bytes) : Except Exc (Option SendingPart × Pending) :=
  if opcode = SENDINGPART then do
    let part ← parse_sending_part payload
    .ok (some part, pending)
  else if opcode = SENDINGPART_I64 then do
    let part ← parse_sending_part_i64 payload
    .ok (some part, pending)
  else if opcode = COMPRESSEDPART then do
    let (file_hash, start, total, chunk) ← parse_compressed_part_chunk payload
    collect_chunk decompress pending file_hash start total chunk
  else do
    let (file_hash, start, total, chunk) ← parse_compressed_part_chunk_i64 payload
    collect_chunk decompress pending file_hash start total chunk

/-- The parts that data packets make one after the other. -/
def reassemble (decompress : Bytes → Except String Bytes) (pending : Pending) :
    List (UInt8 × Bytes) → Except Exc (List SendingPart × Pending)
  | [] => .ok ([], pending)
  | (opcode, payload) :: packets => do
    let (part, pending) ← read_part decompress pending opcode payload
    let (parts, pending) ← reassemble decompress pending packets
    .ok (part.toList ++ parts, pending)

/-- A part as a peer may send it: in one packet, or compressed and cut into chunks; with
offsets of 64 bits or of 32. -/
inductive Piece where
  | plain (wide : Bool) (start : Nat) (data : Bytes)
  | compressed (wide : Bool) (start : Nat) (data : Bytes) (chunks : List Bytes)

/-- The width of the offsets. -/
def offset_width (wide : Bool) : Nat := if wide then 8 else 4

def plain_packet (file_hash : Bytes) (wide : Bool) (start : Nat) (data : Bytes) : UInt8 × Bytes :=
  (if wide then SENDINGPART_I64 else SENDINGPART,
    data_payload (offset_width wide) (offset_width wide) file_hash start (start + data.length) data)

def chunk_packet (file_hash : Bytes) (wide : Bool) (start total : Nat) (chunk : Bytes) : UInt8 × Bytes :=
  (if wide then COMPRESSEDPART_I64 else COMPRESSEDPART,
    data_payload (offset_width wide) 4 file_hash start total chunk)

namespace Piece

def start : Piece → Nat
  | plain _ start _ => start
  | compressed _ start _ _ => start

def data : Piece → Bytes
  | plain _ _ data => data
  | compressed _ _ data _ => data

/-- The part that the client makes of a piece. -/
def part (file_hash : Bytes) (piece : Piece) : SendingPart :=
  ⟨file_hash, piece.start, piece.start + piece.data.length, piece.data⟩

/-- What `write_block` is given of a piece. -/
def write (piece : Piece) : Nat × Bytes := (piece.start, piece.data)

/-- The opcodes and payloads of a piece. -/
def packets (file_hash : Bytes) : Piece → List (UInt8 × Bytes)
  | plain wide start data => [plain_packet file_hash wide start data]
  | compressed wide start _ chunks => chunks.map (chunk_packet file_hash wide start chunks.flatten.length)

/-- The numbers of the piece fit their fields, and its chunks are cut from a compressed
form of its data. -/
inductive Fits (decompress : Bytes → Except String Bytes) : Piece → Prop where
  | plain {wide : Bool} {start : Nat} {data : Bytes}
      (hstop : start + data.length < 256 ^ offset_width wide) : Fits decompress (.plain wide start data)
  | compressed {wide : Bool} {start : Nat} {data : Bytes} {chunks : List Bytes}
      (hstart : start < 256 ^ offset_width wide) (htotal : chunks.flatten.length < 256 ^ 4)
      (hchunks : chunks ≠ []) (hnonempty : ∀ chunk ∈ chunks, chunk ≠ [])
      (hdecompress : decompress chunks.flatten = .ok data) :
      Fits decompress (.compressed wide start data chunks)

end Piece

theorem map_written_part (file_hash : Bytes) (pieces : List Piece) :
    (pieces.map (Piece.part file_hash)).map written = pieces.map Piece.write := by
  rw [List.map_map]
  rfl

/-- No chunks are waiting for others. -/
def Idle (pending : Pending) : Prop := ∀ key, pending.get key = none

theorem idle_empty : Idle Dict.empty := fun key => Dict.get_empty key

section Chunks

variable {decompress : Bytes → Except String Bytes} {file_hash : Bytes} {start : Nat}

/-- What is kept of a compressed part after some of its chunks. -/
def Holds (pending : Pending) (file_hash : Bytes) (start total : Nat) (buf : Bytes) : Prop :=
  (pending.get (start, total)).getD (file_hash, []) = (file_hash, buf) ∧
    ∀ key, key ≠ (start, total) → pending.get key = none

theorem Idle.holds {pending : Pending} (hidle : Idle pending) (file_hash : Bytes) (start total : Nat) :
    Holds pending file_hash start total [] := by
  refine ⟨?_, fun key _ => hidle key⟩
  rw [hidle, Option.getD_none]

theorem collect_chunk_waits (decompress : Bytes → Except String Bytes) {pending : Pending} {total : Nat} {buf chunk : Bytes}
    (hholds : Holds pending file_hash start total buf) (hmore : (buf ++ chunk).length < total) :
    ∃ after, collect_chunk decompress pending file_hash start total chunk = .ok (none, after) ∧
      Holds after file_hash start total (buf ++ chunk) := by
  refine ⟨pending.set (start, total) (file_hash, buf ++ chunk), ?_, ?_, ?_⟩
  · simp only [collect_chunk, hholds.1, if_pos hmore]
  · rw [Dict.get_set_self, Option.getD_some]
  · intro key hkey
    rw [Dict.get_set_of_ne hkey]
    exact hholds.2 key hkey

theorem collect_chunk_completes {pending : Pending} {total : Nat} {buf chunk data : Bytes}
    (hholds : Holds pending file_hash start total buf) (htotal : (buf ++ chunk).length = total)
    (hdecompress : decompress (buf ++ chunk) = .ok data) :
    ∃ after, collect_chunk decompress pending file_hash start total chunk =
        .ok (some ⟨file_hash, start, start + data.length, data⟩, after) ∧ Idle after := by
  refine ⟨pending.erase (start, total), ?_, ?_⟩
  · simp only [collect_chunk, hholds.1, hdecompress]
    rw [if_neg (by omega)]
  · intro key
    by_cases hkey : key = (start, total)
    · rw [hkey, Dict.get_erase_self]
    · rw [Dict.get_erase_of_ne hkey]
      exact hholds.2 key hkey

end Chunks

section Pieces

variable {decompress : Bytes → Except String Bytes} {file_hash : Bytes}

theorem read_part_plain (decompress : Bytes → Except String Bytes) {wide : Bool} {start : Nat} {data : Bytes} (hhash : file_hash.length = 16)
    (hstop : start + data.length < 256 ^ offset_width wide) (pending : Pending) :
    read_part decompress pending (plain_packet file_hash wide start data).1
        (plain_packet file_hash wide start data).2 =
      .ok (some ⟨file_hash, start, start + data.length, data⟩, pending) := by
  cases wide with
  | false =>
    have hparse := parse_sending_payload hhash hstop "OP_SENDINGPART"
    simp only [plain_packet, read_part, Bool.false_eq_true, if_false, if_true, parse_sending_part]
    rw [offset_width, if_neg Bool.false_ne_true] at hparse ⊢
    rw [hparse, ok_bind]
  | true =>
    have hparse := parse_sending_payload hhash hstop "OP_SENDINGPART_I64"
    have hother : SENDINGPART_I64 ≠ SENDINGPART := by decide
    simp only [plain_packet, read_part, if_true, if_neg hother, parse_sending_part_i64]
    rw [offset_width, if_pos rfl] at hparse ⊢
    rw [hparse, ok_bind]

theorem read_part_chunk (decompress : Bytes → Except String Bytes) {wide : Bool} {start total : Nat}
    {chunk : Bytes} (hhash : file_hash.length = 16) (hstart : start < 256 ^ offset_width wide) (htotal : total < 256 ^ 4) (hchunk : chunk ≠ [])
    (pending : Pending) :
    read_part decompress pending (chunk_packet file_hash wide start total chunk).1
        (chunk_packet file_hash wide start total chunk).2 =
      collect_chunk decompress pending file_hash start total chunk := by
  cases wide with
  | false =>
    have hparse := parse_chunk_payload hhash hstart htotal hchunk "OP_COMPRESSEDPART"
    have hplain : COMPRESSEDPART ≠ SENDINGPART ∧ COMPRESSEDPART ≠ SENDINGPART_I64 := by decide
    simp only [chunk_packet, read_part, Bool.false_eq_true, if_false, if_neg hplain.1, if_neg hplain.2,
      if_true, parse_compressed_part_chunk]
    rw [offset_width, if_neg Bool.false_ne_true] at hparse ⊢
    rw [hparse, ok_bind]
  | true =>
    have hparse := parse_chunk_payload hhash hstart htotal hchunk "OP_COMPRESSEDPART_I64"
    have hplain : COMPRESSEDPART_I64 ≠ SENDINGPART ∧ COMPRESSEDPART_I64 ≠ SENDINGPART_I64 ∧
        COMPRESSEDPART_I64 ≠ COMPRESSEDPART := by decide
    simp only [chunk_packet, read_part, if_true, if_neg hplain.1, if_neg hplain.2.1, if_neg hplain.2.2,
      parse_compressed_part_chunk_i64]
    rw [offset_width, if_pos rfl] at hparse ⊢
    rw [hparse, ok_bind]

/-- Packets of which the last completes a part. -/
inductive Makes (decompress : Bytes → Except String Bytes) (part : SendingPart) (after : Pending) :
    Pending → List (UInt8 × Bytes) → Prop where
  | last {pending : Pending} {packet : UInt8 × Bytes}
      (hread : read_part decompress pending packet.1 packet.2 = .ok (some part, after)) :
      Makes decompress part after pending [packet]
  | more {pending middle : Pending} {packet : UInt8 × Bytes} {packets : List (UInt8 × Bytes)}
      (hread : read_part decompress pending packet.1 packet.2 = .ok (none, middle))
      (htail : Makes decompress part after middle packets) :
      Makes decompress part after pending (packet :: packets)

theorem Makes.reassemble_append {part : SendingPart} {pending after : Pending} {packets : List (UInt8 × Bytes)}
    (hmakes : Makes decompress part after pending packets) (back : List (UInt8 × Bytes)) :
    reassemble decompress pending (packets ++ back) =
      (reassemble decompress after back).map fun read => (part :: read.1, read.2) := by
  induction hmakes with
  | last hread =>
    simp only [List.singleton_append, reassemble, hread, ok_bind]
    cases reassemble decompress after back with
    | error e => rfl
    | ok read => rfl
  | more hread _ ih =>
    simp only [List.cons_append, reassemble, hread, ok_bind, ih]
    cases reassemble decompress after back with
    | error e => rfl
    | ok read => rfl

/-- The chunks of a compressed part complete it, whatever was collected before them. -/
theorem chunks_make {wide : Bool} {start total : Nat} {data : Bytes} {chunks : List Bytes}
    (hhash : file_hash.length = 16) (hstart : start < 256 ^ offset_width wide) (hfits : total < 256 ^ 4)
    (hchunks : chunks ≠ []) (hnonempty : ∀ chunk ∈ chunks, chunk ≠ []) {pending : Pending} {buf : Bytes}
    (hholds : Holds pending file_hash start total buf) (htotal : (buf ++ chunks.flatten).length = total)
    (hdecompress : decompress (buf ++ chunks.flatten) = .ok data) :
    ∃ after, Makes decompress ⟨file_hash, start, start + data.length, data⟩ after pending
        (chunks.map (chunk_packet file_hash wide start total)) ∧ Idle after := by
  induction chunks generalizing pending buf with
  | nil => exact absurd rfl hchunks
  | cons chunk chunks ih =>
    have hread := read_part_chunk decompress hhash hstart hfits
      (hnonempty chunk List.mem_cons_self) pending
    rw [List.flatten_cons, ← List.append_assoc] at htotal hdecompress
    cases chunks with
    | nil =>
      rw [List.flatten_nil, List.append_nil] at htotal hdecompress
      obtain ⟨after, hcollect, hidle⟩ := collect_chunk_completes hholds htotal hdecompress
      rw [hcollect] at hread
      exact ⟨after, .last hread, hidle⟩
    | cons next chunks =>
      have hnext : 0 < next.length := List.length_pos_iff.mpr (hnonempty next (by simp))
      have hmore : (buf ++ chunk).length < total := by
        rw [← htotal]
        simp only [List.flatten_cons, List.length_append]
        omega
      obtain ⟨middle, hcollect, hmiddle⟩ := collect_chunk_waits decompress hholds hmore
      rw [hcollect] at hread
      obtain ⟨after, hmakes, hidle⟩ := ih (List.cons_ne_nil _ _)
        (fun other hother => hnonempty other (List.mem_cons_of_mem _ hother)) hmiddle htotal hdecompress
      exact ⟨after, .more hread hmakes, hidle⟩

/-- A piece that fits makes its part, and leaves nothing waiting. -/
theorem piece_makes {piece : Piece} (hhash : file_hash.length = 16) (hfits : piece.Fits decompress)
    {pending : Pending} (hidle : Idle pending) :
    ∃ after, Makes decompress (piece.part file_hash) after pending (piece.packets file_hash) ∧ Idle after := by
  cases hfits with
  | plain hstop => exact ⟨pending, .last (read_part_plain decompress hhash hstop pending), hidle⟩
  | compressed hstart htotal hchunks hnonempty hdecompress =>
    exact chunks_make hhash hstart htotal hchunks hnonempty (hidle.holds file_hash _ _) rfl hdecompress

theorem isData_packets (file_hash : Bytes) (piece : Piece) :
    ∀ packet ∈ piece.packets file_hash, IsData packet.1 := by
  intro packet hpacket
  cases piece with
  | plain wide start data =>
    obtain rfl := List.mem_singleton.mp hpacket
    cases wide
    · exact .inl rfl
    · exact .inr (.inl rfl)
  | compressed wide start data chunks =>
    obtain ⟨chunk, -, rfl⟩ := List.mem_map.mp hpacket
    cases wide
    · exact .inr (.inr (.inl rfl))
    · exact .inr (.inr (.inr rfl))

/-- Pieces make their parts in the order in which they come. -/
theorem reassemble_pieces {pieces : List Piece} (hhash : file_hash.length = 16)
    (hfits : ∀ piece ∈ pieces, piece.Fits decompress) {pending : Pending} (hidle : Idle pending) :
    ∃ after, reassemble decompress pending (pieces.flatMap (Piece.packets file_hash)) =
        .ok (pieces.map (Piece.part file_hash), after) ∧ Idle after := by
  induction pieces generalizing pending with
  | nil => exact ⟨pending, rfl, hidle⟩
  | cons piece pieces ih =>
    obtain ⟨middle, hmakes, hmiddle⟩ := piece_makes hhash (hfits piece List.mem_cons_self) hidle
    obtain ⟨after, hrest, hafter⟩ := ih (fun other hother => hfits other (List.mem_cons_of_mem _ hother)) hmiddle
    refine ⟨after, ?_, hafter⟩
    rw [List.flatMap_cons, hmakes.reassemble_append, hrest]
    rfl

end Pieces

end amuled.peer
