import AmuleD.Kad.RoutingBin

open littleendian

namespace amuled.kad

def KAD_PROTOCOL : UInt8 := 0xE4

def KAD_PROTOCOL_PACKED : UInt8 := 0xE5

def KADEMLIA2_BOOTSTRAP_RES : UInt8 := 0x09

def KADEMLIA2_HELLO_RES : UInt8 := 0x19

def KADEMLIA2_PONG : UInt8 := 0x61

/-- `KadUInt128(value)` of bytes, which must be sixteen. -/
def KadUInt128.of_bytes (raw : Bytes) : Except Exc KadUInt128 :=
  if hraw : raw.length = 16 then .ok (to_kad_uint128 raw hraw)
  else .error (.KadPacketError s!"KadUInt128 requires 16 bytes, got {raw.length}")

def KadUInt128.to_bytes (self : KadUInt128) : Bytes :=
  let w3 := self.value &&& 0xFFFFFFFF
  let w2 := (self.value >>> 32) &&& 0xFFFFFFFF
  let w1 := (self.value >>> 64) &&& 0xFFFFFFFF
  let w0 := (self.value >>> 96) &&& 0xFFFFFFFF
  encode 4 w0 ++ encode 4 w1 ++ encode 4 w2 ++ encode 4 w3

@[simp] theorem KadUInt128.length_to_bytes (self : KadUInt128) : self.to_bytes.length = 16 := by
  simp [KadUInt128.to_bytes]

/-- An identifier is sent as the bytes that it was made of. -/
theorem to_bytes_to_kad_uint128 {raw : Bytes} (hraw : raw.length = 16) :
    (to_kad_uint128 raw hraw).to_bytes = raw := by
  have h0 : word raw 0 < 2 ^ 32 := word_lt hraw (by omega)
  have h1 : word raw 1 < 2 ^ 32 := word_lt hraw (by omega)
  have h2 : word raw 2 < 2 ^ 32 := word_lt hraw (by omega)
  have h3 : word raw 3 < 2 ^ 32 := word_lt hraw (by omega)
  have hmask : ∀ value, value &&& 0xFFFFFFFF = value % 2 ^ 32 := fun value =>
    Nat.and_two_pow_sub_one_eq_mod value 32
  simp only [KadUInt128.to_bytes, to_kad_uint128, words_to_int_eq _ h1 h2 h3, hmask, Nat.shiftRight_eq_div_pow]
  have hw0 : (((word raw 0 * 2 ^ 32 + word raw 1) * 2 ^ 32 + word raw 2) * 2 ^ 32 + word raw 3) / 2 ^ 96 % 2 ^ 32 =
      word raw 0 := by omega
  have hw1 : (((word raw 0 * 2 ^ 32 + word raw 1) * 2 ^ 32 + word raw 2) * 2 ^ 32 + word raw 3) / 2 ^ 64 % 2 ^ 32 =
      word raw 1 := by omega
  have hw2 : (((word raw 0 * 2 ^ 32 + word raw 1) * 2 ^ 32 + word raw 2) * 2 ^ 32 + word raw 3) / 2 ^ 32 % 2 ^ 32 =
      word raw 2 := by omega
  have hw3 : (((word raw 0 * 2 ^ 32 + word raw 1) * 2 ^ 32 + word raw 2) * 2 ^ 32 + word raw 3) % 2 ^ 32 =
      word raw 3 := by omega
  rw [hw0, hw1, hw2, hw3, encode_word hraw (by omega), encode_word hraw (by omega), encode_word hraw (by omega),
    encode_word hraw (by omega), List.append_assoc, List.append_assoc]
  exact (words_join hraw).symm

/-- The protocol, the opcode and the payload of a datagram. -/
def parse_kad_packet (datagram : Bytes) : Except Exc (UInt8 × UInt8 × Bytes) :=
  match datagram with
  | protocol :: opcode :: payload => .ok (protocol, opcode, payload)
  | _ => .error (.KadPacketError s!"Kad datagram too short: have {datagram.length}, need >= 2")

def read_uint128 (data : Bytes) (offset : Nat) : Except Exc (KadUInt128 × Nat) :=
  if offset + 16 > data.length then .error (.KadPacketError s!"truncated UInt128 at offset {offset}")
  else do
    let id ← KadUInt128.of_bytes (data.extract offset (offset + 16))
    .ok (id, offset + 16)

/-- `_ip_to_str`: the dotted form of the number, its highest byte first. -/
def ip_to_str (ip : Nat) : String :=
  s!"{ip / 2 ^ 24 % 256}.{ip / 2 ^ 16 % 256}.{ip / 2 ^ 8 % 256}.{ip % 256}"

/-- The contacts from number `i` on of a `KADEMLIA2_BOOTSTRAP_RES`. -/
def read_contacts (raw : Bytes) (i offset : Nat) : Nat → Except Exc (List KadNodeInfo)
  | 0 => .ok []
  | count + 1 => do
    let (cid, offset) ← read_uint128 raw offset
    if offset + 8 > raw.length then
      .error (.KadPacketError s!"truncated bootstrap_res contact {i}")
    else if offset + 8 ≥ raw.length then
      .error (.KadPacketError s!"truncated bootstrap_res contact {i}: missing version")
    else do
      let node : KadNodeInfo := {
        kad_id := cid.to_bytes
        ip := ip_to_str (decode (raw.extract offset (offset + 4)))
        udp_port := decode (raw.extract (offset + 4) (offset + 6))
        tcp_port := decode (raw.extract (offset + 6) (offset + 8))
        contact_version := (raw.getD (offset + 8) 0).toNat
        verified := false
        udp_key := 0
        length_kad_id := cid.length_to_bytes }
      let contacts ← read_contacts raw (i + 1) (offset + 9) count
      .ok (node :: contacts)

/-- The sender and the contacts of a `KADEMLIA2_BOOTSTRAP_RES`. -/
def parse_bootstrap_res (payload : Bytes) : Except Exc (KadUInt128 × List KadNodeInfo) := do
  let (sender_id, offset) ← read_uint128 payload 0
  if offset + 3 > payload.length then
    .error (.KadPacketError "truncated bootstrap_res: missing sender tcpPort/version")
  else if payload.length - (offset + 3) < 2 then
    .error (.KadPacketError "truncated bootstrap_res: missing contact count")
  else do
    let num_contacts := decode (payload.extract (offset + 3) (offset + 5))
    let contacts ← read_contacts payload 0 (offset + 5) num_contacts
    .ok (sender_id, contacts)

structure KadHelloInfo where
  contact_id : KadUInt128
  tcp_port : Nat
  version : Nat
  tags_raw : Bytes

/-- The contact of a `KADEMLIA2_HELLO_RES`, whose tags are at least as many bytes as their count. -/
def parse_hello_res (payload : Bytes) : Except Exc KadHelloInfo := do
  let (cid, offset) ← read_uint128 payload 0
  if offset + 4 > payload.length then
    .error (.KadPacketError "truncated hello: missing tcp_port/version")
  else
    let tag_count := (payload.getD (offset + 3) 0).toNat
    let tags_raw := payload.drop (offset + 4)
    if tags_raw.length < tag_count then
      .error (.KadPacketError s!"truncated hello_res tags: count={tag_count} have={tags_raw.length}")
    else .ok ⟨cid, decode (payload.extract offset (offset + 2)), (payload.getD (offset + 2) 0).toNat, tags_raw⟩

end amuled.kad
