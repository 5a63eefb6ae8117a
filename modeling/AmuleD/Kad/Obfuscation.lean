import AmuleD.Codec.Struct
import AmuleD.Streams.Keystream

open littleendian keystream

namespace amuled.kad

def MAGICVALUE_UDP_SYNC_CLIENT : Nat := 0x395F2EC1

def CRYPT_HEADER_WITHOUTPADDING : Nat := 8

def PLAIN_PROTOCOL_BYTES : List UInt8 := [0xE3, 0xC5, 0xE4, 0xE5, 0xD4, 0xD5, 0xC0, 0xC1]

/-- An `ARC4` cipher object: its key and how much of the keystream it has used. -/
structure ARC4 where
  key : Bytes
  used : Nat

def ARC4.new (key : Bytes) : ARC4 := ⟨key, 0⟩

/-- `encrypt` and `decrypt`, where the keystream of a key is a parameter. -/
def ARC4.crypt (arc4 : Bytes → Nat → UInt8) (cipher : ARC4) (data : Bytes) : Bytes × ARC4 :=
  (keystream.crypt (arc4 cipher.key) cipher.used data, { cipher with used := cipher.used + data.length })

/-- `key & 0xFFFFFFFF`. -/
def low_word (key : Int) : Nat := (key % 2 ^ 32).toNat

/-- The keys that are tried, where no verify key is stored for a peer with key 0. -/
def key_materials (datagram own_kad_id : Bytes) (verify_key_lookup : Option (String → Int → Int))
    (peer_ip : String) (peer_port : Int) : List Bytes :=
  let stored := match verify_key_lookup with
    | some lookup => lookup peer_ip peer_port
    | none => 0
  (own_kad_id.take 16 ++ datagram.extract 1 3) ::
    if stored ≠ 0 then [encode 4 (low_word stored) ++ datagram.extract 1 3] else []

/-- What the loop returns at one of the keys, or `none` where it goes on to the next. -/
def try_material (md5 : HashFn 16) (arc4 : Bytes → Nat → UInt8) (datagram material : Bytes) :
    Option (Option (Bytes × Nat × Nat)) :=
  let magic := (ARC4.new (md5 material)).crypt arc4 (datagram.extract 3 7)
  if decode magic.1 ≠ MAGICVALUE_UDP_SYNC_CLIENT then none
  else
    let pad := magic.2.crypt arc4 (datagram.extract 7 8)
    let pad_len := (pad.1.headD 0).toNat
    if datagram.length ≤ CRYPT_HEADER_WITHOUTPADDING + pad_len + 8 then some none
    else
      -- the padding itself is not decrypted
      let receiver_key := pad.2.crypt arc4 (datagram.extract (8 + pad_len) (12 + pad_len))
      let sender_key := receiver_key.2.crypt arc4 (datagram.extract (12 + pad_len) (16 + pad_len))
      let plain := sender_key.2.crypt arc4 (datagram.drop (16 + pad_len))
      some (some (plain.1, decode receiver_key.1, decode sender_key.1))

def decode_obfuscated_kad (md5 : HashFn 16) (arc4 : Bytes → Nat → UInt8) (datagram own_kad_id : Bytes)
    (verify_key_lookup : Option (String → Int → Int)) (peer_ip : String) (peer_port : Int) :
    Option (Bytes × Nat × Nat) :=
  if datagram.length ≤ CRYPT_HEADER_WITHOUTPADDING then none
  else if datagram.headD 0 ∈ PLAIN_PROTOCOL_BYTES then none
  else
    ((key_materials datagram own_kad_id verify_key_lookup peer_ip peer_port).findSome?
      (try_material md5 arc4 datagram)).join

/-- `encode_obfuscated_kad`, of the key part and the marker that it draws. -/
def encode_obfuscated_kad (md5 : HashFn 16) (arc4 : Bytes → Nat → UInt8) (kad_datagram their_kad_id : Bytes)
    (our_sender_key their_receiver_key : Int) (key_part : Bytes) (drawn : UInt8) : Bytes :=
  let marker := (drawn &&& 0xFC) ||| 0x02
  let cipher := ARC4.new (md5 (their_kad_id.take 16 ++ key_part))
  let plain_head := encode 4 MAGICVALUE_UDP_SYNC_CLIENT ++ [0] ++ encode 4 (low_word their_receiver_key) ++
    encode 4 (low_word our_sender_key)
  [marker] ++ key_part ++ (cipher.crypt arc4 (plain_head ++ kad_datagram)).1

theorem low_word_lt (key : Int) : low_word key < 256 ^ 4 := by
  have hpositive := Int.emod_nonneg key (by decide : (2 : Int) ^ 32 ≠ 0)
  have hlt := Int.emod_lt_of_pos key (by decide : (0 : Int) < 2 ^ 32)
  unfold low_word
  omega

/-- A marker of a Kad datagram is not the first byte of a plain one. -/
theorem kad_marker_not_plain (drawn : UInt8) : (drawn &&& 0xFC) ||| 0x02 ∉ PLAIN_PROTOCOL_BYTES := by
  have hall : ∀ low : Fin 256, (UInt8.ofNat low.val &&& 0xFC) ||| 0x02 ∉ PLAIN_PROTOCOL_BYTES := by
    decide +kernel
  have hdrawn := hall ⟨drawn.toNat, drawn.toNat_lt⟩
  rw [UInt8.ofNat_toNat] at hdrawn
  exact hdrawn

section Layout

variable {md5 : HashFn 16} {arc4 : Bytes → Nat → UInt8} {head material : Bytes}

/-- A datagram whose magic is another one is not decoded with its key. -/
theorem try_material_other {magic : Bytes} (rest : Bytes) (hhead : head.length = 3) (hmagic : magic.length = 4)
    (hother : decode magic ≠ MAGICVALUE_UDP_SYNC_CLIENT) :
    try_material md5 arc4 (head ++ crypt (arc4 (md5 material)) 0 (magic ++ rest)) material = none := by
  have hread : crypt (arc4 (md5 material)) 0 ((head ++ crypt (arc4 (md5 material)) 0 (magic ++ rest)).extract 3 7) =
      magic := decrypt_piece (List.nil_append _).symm rfl hhead (by rw [hmagic])
  simp only [try_material, ARC4.new, ARC4.crypt, hread, if_pos hother]

variable (md5 arc4 material) in
/-- The layout that the decoder expects, without padding. -/
theorem try_material_layout {receiver sender payload : Bytes} (hhead : head.length = 3)
    (hreceiver : receiver.length = 4) (hsender : sender.length = 4) (hpayload : payload ≠ []) :
    try_material md5 arc4 (head ++ crypt (arc4 (md5 material)) 0
        (encode 4 MAGICVALUE_UDP_SYNC_CLIENT ++ ([0] ++ (receiver ++ (sender ++ payload))))) material =
      some (some (payload, decode receiver, decode sender)) := by
  have hmagic : (encode 4 MAGICVALUE_UDP_SYNC_CLIENT).length = 4 := length_encode 4 _
  have hvalue : decode (encode 4 MAGICVALUE_UDP_SYNC_CLIENT) = MAGICVALUE_UDP_SYNC_CLIENT :=
    decode_encode (by decide)
  have hpositive : 0 < payload.length := List.length_pos_of_ne_nil hpayload
  generalize encode 4 MAGICVALUE_UDP_SYNC_CLIENT = magic at hmagic hvalue ⊢
  obtain ⟨text, htext⟩ : ∃ text, text = magic ++ ([0] ++ (receiver ++ (sender ++ payload))) := ⟨_, rfl⟩
  obtain ⟨datagram, hdatagram⟩ : ∃ datagram, datagram = head ++ crypt (arc4 (md5 material)) 0 text := ⟨_, rfl⟩
  have hsize : datagram.length = 16 + payload.length := by
    simp only [hdatagram, htext, List.length_append, length_crypt, hhead, hmagic, hreceiver, hsender,
      List.length_singleton]
    omega
  have hmagicRead : crypt (arc4 (md5 material)) 0 (datagram.extract 3 7) = magic := by
    rw [hdatagram]
    exact decrypt_piece (htext.trans (List.nil_append _).symm) rfl hhead (by rw [hmagic])
  have hpadRead : crypt (arc4 (md5 material)) 4 (datagram.extract 7 8) = [0] := by
    rw [hdatagram]
    exact decrypt_piece htext hmagic (by rw [hhead]) rfl
  have hreceiverRead : crypt (arc4 (md5 material)) 5 (datagram.extract 8 12) = receiver := by
    have hfront : text = (magic ++ [0]) ++ (receiver ++ (sender ++ payload)) := by
      rw [htext, List.append_assoc]
    rw [hdatagram]
    exact decrypt_piece hfront (by simp [hmagic]) (by rw [hhead]) (by rw [hreceiver])
  have hsenderRead : crypt (arc4 (md5 material)) 9 (datagram.extract 12 16) = sender := by
    have hfront : text = (magic ++ ([0] ++ receiver)) ++ (sender ++ payload) := by
      simp only [htext, List.append_assoc]
    rw [hdatagram]
    exact decrypt_piece hfront (by simp [hmagic, hreceiver]) (by rw [hhead]) (by rw [hsender])
  have hplainRead : crypt (arc4 (md5 material)) 13 (datagram.drop 16) = payload := by
    have hfront : text = (magic ++ ([0] ++ (receiver ++ sender))) ++ payload := by
      simp only [htext, List.append_assoc]
    rw [hdatagram]
    exact decrypt_last hfront (by simp [hmagic, hreceiver, hsender]) (by rw [hhead])
  have hpiece : ∀ start stop, stop ≤ 16 → (datagram.extract start stop).length = stop - start :=
    fun start stop hstop => length_extract_of_le (by omega)
  have hpad : (List.headD [(0 : UInt8)] 0).toNat = 0 := rfl
  have hlong : ¬ datagram.length ≤ CRYPT_HEADER_WITHOUTPADDING + 0 + 8 := by
    simp only [hsize, CRYPT_HEADER_WITHOUTPADDING]
    omega
  rw [← htext, ← hdatagram]
  simp only [try_material, ARC4.new, ARC4.crypt, hmagicRead, hvalue, ne_eq, not_true_eq_false, if_false,
    hpiece 3 7 (by omega), hpiece 7 8 (by omega), Nat.reduceSub, Nat.zero_add, hpadRead, hpad, if_neg hlong,
    Nat.add_zero, Nat.reduceAdd, hpiece 8 12 (by omega), hpiece 12 16 (by omega), hreceiverRead,
    hsenderRead, hplainRead]

variable {marker : UInt8} {key_part body own_kad_id : Bytes}

theorem key_part_extract (marker : UInt8) (body : Bytes) (hkey_part : key_part.length = 2) :
    ([marker] ++ key_part ++ body).extract 1 3 = key_part := by
  rw [List.append_assoc]
  exact extract_piece rfl (by rw [hkey_part])

/-- A datagram that the key of the KadID opens is decoded, whatever verify key is stored. -/
theorem decode_obfuscated_kad_eq {result : Option (Bytes × Nat × Nat)} (hkey_part : key_part.length = 2)
    (hlength : 5 < body.length) (hmarker : marker ∉ PLAIN_PROTOCOL_BYTES)
    (htry : try_material md5 arc4 ([marker] ++ key_part ++ body) (own_kad_id.take 16 ++ key_part) = some result)
    (verify_key_lookup : Option (String → Int → Int)) (peer_ip : String) (peer_port : Int) :
    decode_obfuscated_kad md5 arc4 ([marker] ++ key_part ++ body) own_kad_id verify_key_lookup peer_ip peer_port =
      result := by
  have hlong : ¬ ([marker] ++ key_part ++ body).length ≤ CRYPT_HEADER_WITHOUTPADDING := by
    simp only [List.length_append, List.length_singleton, hkey_part, CRYPT_HEADER_WITHOUTPADDING]
    omega
  rw [decode_obfuscated_kad, if_neg hlong, if_neg (by exact hmarker)]
  simp only [key_materials, key_part_extract marker body hkey_part, List.findSome?_cons, htry]
  rfl

/-- A datagram that the key of the KadID does not open is not decoded without a verify key. -/
theorem decode_obfuscated_kad_none (hkey_part : key_part.length = 2)
    (htry : try_material md5 arc4 ([marker] ++ key_part ++ body) (own_kad_id.take 16 ++ key_part) = none)
    (peer_ip : String) (peer_port : Int) :
    decode_obfuscated_kad md5 arc4 ([marker] ++ key_part ++ body) own_kad_id none peer_ip peer_port = none := by
  unfold decode_obfuscated_kad
  split
  · rfl
  · split
    · rfl
    · simp only [key_materials, key_part_extract marker body hkey_part, List.findSome?_cons, htry]
      rfl

theorem encode_obfuscated_kad_eq {payload kad_id : Bytes} (our_sender_key their_receiver_key : Int)
    (drawn : UInt8) :
    encode_obfuscated_kad md5 arc4 payload kad_id our_sender_key their_receiver_key key_part drawn =
      [(drawn &&& 0xFC) ||| 0x02] ++ key_part ++ crypt (arc4 (md5 (kad_id.take 16 ++ key_part))) 0
        (encode 4 MAGICVALUE_UDP_SYNC_CLIENT ++ ([0] ++ (encode 4 (low_word their_receiver_key) ++
          (encode 4 (low_word our_sender_key) ++ payload)))) := by
  simp only [encode_obfuscated_kad, ARC4.new, ARC4.crypt, List.append_assoc]

/-- A datagram is decoded with its keys by the node that it was encoded for. -/
theorem decode_encode_obfuscated_kad {payload kad_id : Bytes} (our_sender_key their_receiver_key : Int)
    (drawn : UInt8) (hkey_part : key_part.length = 2) (hpayload : payload ≠ [])
    (verify_key_lookup : Option (String → Int → Int)) (peer_ip : String) (peer_port : Int) :
    decode_obfuscated_kad md5 arc4
        (encode_obfuscated_kad md5 arc4 payload kad_id our_sender_key their_receiver_key key_part drawn)
        kad_id verify_key_lookup peer_ip peer_port =
      some (payload, low_word their_receiver_key, low_word our_sender_key) := by
  have hhead : ([(drawn &&& 0xFC) ||| 0x02] ++ key_part).length = 3 := by simp [hkey_part]
  have htry := try_material_layout md5 arc4 (kad_id.take 16 ++ key_part) hhead
    (length_encode 4 (low_word their_receiver_key)) (length_encode 4 (low_word our_sender_key)) hpayload
  rw [decode_encode (low_word_lt their_receiver_key), decode_encode (low_word_lt our_sender_key)] at htry
  rw [encode_obfuscated_kad_eq]
  refine decode_obfuscated_kad_eq hkey_part ?_ (kad_marker_not_plain drawn) htry _ _ _
  simp only [length_crypt, List.length_append, length_encode, List.length_singleton]
  omega

end Layout

end amuled.kad
