import AmuleD.Kad.Obfuscation

open littleendian keystream

namespace amuled.peer

open kad (MAGICVALUE_UDP_SYNC_CLIENT CRYPT_HEADER_WITHOUTPADDING PLAIN_PROTOCOL_BYTES ARC4)

def MAX_PADDING_LENGTH : Nat := 16

def MAX_MARKER_RETRIES : Nat := 128

/-- The values of `mode`. -/
inductive UdpMode where
  | ed2k
  | kad_node_id
  | kad_receiver
  deriving DecidableEq

def UdpMode.name : UdpMode → String
  | .ed2k => "ed2k"
  | .kad_node_id => "kad_node_id"
  | .kad_receiver => "kad_receiver"

/-- `name.startswith("kad")` of a mode. -/
def UdpMode.is_kad : UdpMode → Bool
  | .ed2k => false
  | .kad_node_id => true
  | .kad_receiver => true

/-- `mode!r`. -/
def repr_str (text : String) : String := "'" ++ text ++ "'"

def derive_key_kad_node_id (md5 : HashFn 16) (kad_id random_key_part : Bytes) : Except Exc Bytes :=
  if kad_id.length ≠ 16 then
    .error (.UdpObfuscationError s!"kad_id must be 16 bytes, got {kad_id.length}")
  else if random_key_part.length ≠ 2 then
    .error (.UdpObfuscationError s!"random_key_part must be 2 bytes, got {random_key_part.length}")
  else .ok (md5 (kad_id.take 16 ++ random_key_part))

def endian_swap_u32 (value : Nat) : Nat :=
  (((value >>> 24) &&& 0xFF) ||| ((value >>> 8) &&& 0x00FF00) ||| ((value <<< 8) &&& 0xFF0000) |||
    ((value <<< 24) &&& 0xFF000000)) &&& 0xFFFFFFFF

/-- `_endian_swap_pack_u32`, whose value always fits the format. -/
def endian_swap_pack_u32 (value : Nat) : Bytes := encode 4 (endian_swap_u32 value)

/-- A marker of a mode from a random byte. -/
def semi_random (mode : UdpMode) (raw : UInt8) : UInt8 :=
  match mode with
  | .ed2k => raw ||| 0x01
  | .kad_node_id => raw &&& 0xFC
  | .kad_receiver => (raw &&& 0xFE) ||| 0x02

/-- `_generate_marker`, of the candidates that it draws. -/
def generate_marker (mode : UdpMode) (candidates : List UInt8) : UInt8 :=
  (((candidates.take MAX_MARKER_RETRIES).map (semi_random mode)).find? fun marker =>
    marker ∉ PLAIN_PROTOCOL_BYTES).getD 0x01

/-- What `encrypt_client_datagram` draws. -/
structure UdpDraws where
  key_part : Bytes
  candidates : List UInt8
  padding : Bytes
  length_key_part : key_part.length = 2
  length_padding : padding.length < MAX_PADDING_LENGTH

/-- The verify keys on the wire, of a Kad mode. -/
def kad_verify (mode : UdpMode) (kad_verify_keys : Option (Bytes × Bytes)) : Except Exc Bytes :=
  if mode.is_kad then
    match kad_verify_keys with
    | none => .error (.UdpObfuscationError s!"kad_verify_keys required for mode={repr_str mode.name}")
    | some (receiver_key, sender_key) =>
      if receiver_key.length ≠ 4 ∨ sender_key.length ≠ 4 then
        .error (.UdpObfuscationError "kad_verify_keys entries must be 4 bytes each")
      else .ok (endian_swap_pack_u32 (decode receiver_key) ++ endian_swap_pack_u32 (decode sender_key))
  else .ok []

def check_key_part (draws : UdpDraws) (random_key_part : Option Bytes) : Except Exc Bytes :=
  match random_key_part with
  | none => .ok draws.key_part
  | some random_key_part =>
    if random_key_part.length ≠ 2 then
      .error (.UdpObfuscationError s!"random_key_part must be 2 bytes, got {random_key_part.length}")
    else .ok random_key_part

def choose_marker (mode : UdpMode) (draws : UdpDraws) (marker : Option UInt8) : Except Exc UInt8 :=
  match marker with
  | none => .ok (generate_marker mode draws.candidates)
  | some marker =>
    if marker ∈ PLAIN_PROTOCOL_BYTES then
      .error (.UdpObfuscationError s!"marker {hex_upper 2 marker.toNat} collides with a protocol byte")
    else .ok marker

def check_marker_bits (mode : UdpMode) (marker : UInt8) : Except Exc UInt8 :=
  if mode.is_kad ∧ marker &&& 0x01 ≠ 0 then
    .error (.UdpObfuscationError s!"kad marker must have bit0=0, got {hex_upper 2 marker.toNat}")
  else if ¬ mode.is_kad ∧ marker &&& 0x01 = 0 then
    .error (.UdpObfuscationError s!"ed2k marker must have bit0=1, got {hex_upper 2 marker.toNat}")
  else .ok marker

def encrypt_client_datagram (arc4 : Bytes → Nat → UInt8) (payload : Bytes) (mode : UdpMode) (key_material : Bytes)
    (random_key_part : Option Bytes) (marker : Option UInt8) (kad_verify_keys : Option (Bytes × Bytes))
    (draws : UdpDraws) : Except Exc Bytes :=
  if key_material.length ≠ 16 then
    .error (.UdpObfuscationError s!"key_material must be 16 bytes, got {key_material.length}")
  else do
    let kad_verify ← kad_verify mode kad_verify_keys
    let random_key_part ← check_key_part draws random_key_part
    let marker ← choose_marker mode draws marker
    let marker ← check_marker_bits mode marker
    let cipher := ARC4.new key_material
    let sync_bytes := endian_swap_pack_u32 MAGICVALUE_UDP_SYNC_CLIENT
    let pad_len_byte := [UInt8.ofNat draws.padding.length]
    let body_part := kad_verify ++ payload
    .ok ([marker] ++ random_key_part ++
      (cipher.crypt arc4 (sync_bytes ++ pad_len_byte ++ draws.padding ++ body_part)).1)

/-- `name.startswith("kad_")`. -/
def is_kad_name (name : String) : Bool := "kad_".toList.isPrefixOf name.toList

/-- The loop's body behind the decrypted header: what it returns or raises, or `none` where it goes
on to the next candidate. -/
def read_body (arc4 : Bytes → Nat → UInt8) (datagram : Bytes) (name : String) (decrypted_header : Bytes)
    (cipher : ARC4) : Option (Except Exc (String × Bytes)) :=
  if endian_swap_u32 (decode (decrypted_header.extract 0 4)) ≠ MAGICVALUE_UDP_SYNC_CLIENT then none
  else
    let body_start := CRYPT_HEADER_WITHOUTPADDING + (decrypted_header.getD 4 0).toNat
    if datagram.length < body_start then
      some (.error (.UdpObfuscationError "datagram truncated after padding length"))
    else
      let padding := cipher.crypt arc4 (datagram.extract CRYPT_HEADER_WITHOUTPADDING body_start)
      let decrypted := (padding.2.crypt arc4 (datagram.drop body_start)).1
      if is_kad_name name then
        if decrypted.length ≤ 8 then
          some (.error (.UdpObfuscationError "kad datagram too short after verify keys (result <= 8)"))
        else some (.ok (name, decrypted.drop 8))
      else some (.ok (name, decrypted))

def try_candidate (arc4 : Bytes → Nat → UInt8) (datagram : Bytes) (candidate : String × Bytes) :
    Option (Except Exc (String × Bytes)) :=
  if candidate.2.length ≠ 16 then
    some (.error (.UdpObfuscationError s!"candidate key for {repr_str candidate.1} must be 16 bytes"))
  else
    let header := (ARC4.new candidate.2).crypt arc4 (datagram.extract 3 CRYPT_HEADER_WITHOUTPADDING)
    read_body arc4 datagram candidate.1 header.1 header.2

def decrypt_client_datagram (arc4 : Bytes → Nat → UInt8) (datagram : Bytes)
    (candidate_keys : List (String × Bytes)) : Except Exc (String × Bytes) :=
  if datagram.length < CRYPT_HEADER_WITHOUTPADDING then
    .error (.UdpObfuscationError "datagram shorter than obfuscation header")
  else if datagram.headD 0 ∈ PLAIN_PROTOCOL_BYTES then
    .error (.UdpObfuscationError
      s!"first byte {hex_upper 2 (datagram.headD 0).toNat} is a known plain-protocol marker")
  else
    (candidate_keys.findSome? (try_candidate arc4 datagram)).getD
      (.error (.UdpObfuscationError "no candidate key verified the sync magic"))

theorem generate_marker_not_plain (mode : UdpMode) (candidates : List UInt8) :
    generate_marker mode candidates ∉ PLAIN_PROTOCOL_BYTES := by
  unfold generate_marker
  cases hfind : ((candidates.take MAX_MARKER_RETRIES).map (semi_random mode)).find? fun marker =>
      marker ∉ PLAIN_PROTOCOL_BYTES with
  | none => decide
  | some marker =>
    have hmarker := List.find?_some hfind
    rw [decide_eq_true_eq] at hmarker
    exact hmarker

theorem choose_marker_not_plain {mode : UdpMode} {draws : UdpDraws} {given : Option UInt8} {marker : UInt8}
    (hchosen : choose_marker mode draws given = .ok marker) : marker ∉ PLAIN_PROTOCOL_BYTES := by
  cases given with
  | none =>
    cases hchosen
    exact generate_marker_not_plain mode draws.candidates
  | some given =>
    simp only [choose_marker] at hchosen
    split at hchosen
    · cases hchosen
    · rename_i hplain
      cases hchosen
      exact hplain

theorem check_marker_bits_eq {mode : UdpMode} {marker checked : UInt8}
    (hchecked : check_marker_bits mode marker = .ok checked) : checked = marker := by
  unfold check_marker_bits at hchecked
  split at hchecked
  · cases hchecked
  · split at hchecked
    · cases hchecked
    · cases hchecked
      rfl

section Layout

variable {arc4 : Bytes → Nat → UInt8} {head key payload : Bytes} {name : String}

/-- The header of a datagram is decrypted with the key that it was encrypted with. -/
theorem try_candidate_eq {magic : Bytes} (pad_len : UInt8) (rest : Bytes) (hhead : head.length = 3)
    (hkey : key.length = 16) (hmagic : magic.length = 4) {datagram : Bytes}
    (hdatagram : datagram = head ++ crypt (arc4 key) 0 (magic ++ ([pad_len] ++ rest))) :
    try_candidate arc4 datagram (name, key) = read_body arc4 datagram name (magic ++ [pad_len]) ⟨key, 5⟩ := by
  have htext : magic ++ ([pad_len] ++ rest) = [] ++ ((magic ++ [pad_len]) ++ rest) := by
    rw [List.nil_append, List.append_assoc]
  have hread : crypt (arc4 key) 0 (datagram.extract 3 CRYPT_HEADER_WITHOUTPADDING) = magic ++ [pad_len] := by
    rw [hdatagram]
    exact decrypt_piece htext rfl hhead (by simp [hmagic, CRYPT_HEADER_WITHOUTPADDING])
  have hlength := congrArg List.length hread
  rw [length_crypt, List.length_append, hmagic, List.length_singleton] at hlength
  rw [try_candidate, if_neg (not_not.mpr hkey)]
  simp only [ARC4.new, ARC4.crypt, hread, hlength, Nat.zero_add, Nat.reduceAdd]

theorem header_magic {magic : Bytes} (hmagic : magic.length = 4) (pad_len : UInt8) :
    (magic ++ [pad_len]).extract 0 4 = magic := by
  rw [← List.nil_append (magic ++ [pad_len])]
  exact extract_piece rfl (by rw [hmagic])

/-- A datagram whose magic is another one is not decrypted with its key. -/
theorem try_candidate_other {magic : Bytes} (pad_len : UInt8) (rest : Bytes) (hhead : head.length = 3)
    (hkey : key.length = 16) (hmagic : magic.length = 4)
    (hother : endian_swap_u32 (decode magic) ≠ MAGICVALUE_UDP_SYNC_CLIENT) :
    try_candidate arc4 (head ++ crypt (arc4 key) 0 (magic ++ ([pad_len] ++ rest))) (name, key) = none := by
  rw [try_candidate_eq pad_len rest hhead hkey hmagic rfl, read_body, header_magic hmagic, if_pos hother]

/-- The layout that is decrypted, of a Kad mode. -/
theorem try_candidate_layout {padding verify : Bytes} (hhead : head.length = 3) (hkey : key.length = 16)
    (hpadding : padding.length < MAX_PADDING_LENGTH) (hverify : verify.length = 8) (hpayload : payload ≠ [])
    (hname : is_kad_name name = true) :
    try_candidate arc4 (head ++ crypt (arc4 key) 0 (endian_swap_pack_u32 MAGICVALUE_UDP_SYNC_CLIENT ++
        ([UInt8.ofNat padding.length] ++ (padding ++ (verify ++ payload))))) (name, key) =
      some (.ok (name, payload)) := by
  have hmagic : (endian_swap_pack_u32 MAGICVALUE_UDP_SYNC_CLIENT).length = 4 := length_encode 4 _
  have hvalue : endian_swap_u32 (decode (endian_swap_pack_u32 MAGICVALUE_UDP_SYNC_CLIENT)) =
      MAGICVALUE_UDP_SYNC_CLIENT := by decide
  have hpositive : 0 < payload.length := List.length_pos_of_ne_nil hpayload
  have hpad : (UInt8.ofNat padding.length).toNat = padding.length := by
    rw [UInt8.toNat_ofNat']
    unfold MAX_PADDING_LENGTH at hpadding
    omega
  generalize endian_swap_pack_u32 MAGICVALUE_UDP_SYNC_CLIENT = magic at hmagic hvalue ⊢
  generalize UInt8.ofNat padding.length = pad_len at hpad ⊢
  obtain ⟨text, htext⟩ : ∃ text, text = magic ++ ([pad_len] ++ (padding ++ (verify ++ payload))) := ⟨_, rfl⟩
  obtain ⟨datagram, hdatagram⟩ : ∃ datagram, datagram = head ++ crypt (arc4 key) 0 text := ⟨_, rfl⟩
  have hsize : datagram.length = 16 + padding.length + payload.length := by
    simp only [hdatagram, htext, List.length_append, length_crypt, hhead, hmagic, hverify,
      List.length_singleton]
    omega
  have hbody : crypt (arc4 key) (5 + padding.length) (datagram.drop (CRYPT_HEADER_WITHOUTPADDING + padding.length)) =
      verify ++ payload := by
    have hfront : text = (magic ++ ([pad_len] ++ padding)) ++ (verify ++ payload) := by
      simp only [htext, List.append_assoc]
    rw [hdatagram]
    refine decrypt_last hfront ?_ ?_
    · simp only [List.length_append, hmagic, List.length_singleton]
      omega
    · simp only [hhead, CRYPT_HEADER_WITHOUTPADDING]
      omega
  have hlast : (magic ++ [pad_len]).getD 4 0 = pad_len := by
    rw [List.getD_eq_getElem?_getD, List.getElem?_append_right (by omega), hmagic]
    rfl
  have hmiddle : (datagram.extract CRYPT_HEADER_WITHOUTPADDING
      (CRYPT_HEADER_WITHOUTPADDING + padding.length)).length = padding.length := by
    rw [length_extract_of_le (by rw [hsize, CRYPT_HEADER_WITHOUTPADDING]; omega), Nat.add_sub_cancel_left]
  have hlong : ¬ datagram.length < CRYPT_HEADER_WITHOUTPADDING + padding.length := by
    rw [hsize, CRYPT_HEADER_WITHOUTPADDING]
    omega
  have hrest : ¬ (verify ++ payload).length ≤ 8 := by
    rw [List.length_append, hverify]
    omega
  have hwire : datagram = head ++ crypt (arc4 key) 0 (magic ++ ([pad_len] ++ (padding ++ (verify ++ payload)))) := by
    rw [hdatagram, htext]
  rw [← hwire, try_candidate_eq pad_len (padding ++ (verify ++ payload)) hhead hkey hmagic hwire]
  simp only [read_body, ARC4.crypt, header_magic hmagic, hvalue, hlast, hpad, hmiddle, hbody, ne_eq,
    not_true_eq_false, if_false, if_neg hlong, if_pos hname, if_neg hrest, List.drop_left' hverify]

end Layout

section Datagrams

variable {md5 : HashFn 16} {arc4 : Bytes → Nat → UInt8} {kad_id key_part receiver_key sender_key payload : Bytes}

theorem derive_key_kad_node_id_eq (hid : kad_id.length = 16) (hkey_part : key_part.length = 2) :
    derive_key_kad_node_id md5 kad_id key_part = .ok (md5 (kad_id.take 16 ++ key_part)) := by
  rw [derive_key_kad_node_id, if_neg (not_not.mpr hid), if_neg (not_not.mpr hkey_part)]

/-- A datagram of a KadID on the wire. -/
theorem encrypt_client_datagram_eq {key datagram : Bytes} {marker : Option UInt8} {draws : UdpDraws}
    (hkey_part : key_part.length = 2)
    (hbuilt : encrypt_client_datagram arc4 payload .kad_node_id key (some key_part) marker
      (some (receiver_key, sender_key)) draws = .ok datagram) :
    ∃ first verify, first ∉ PLAIN_PROTOCOL_BYTES ∧ verify.length = 8 ∧
      datagram = [first] ++ key_part ++ crypt (arc4 key) 0 (endian_swap_pack_u32 MAGICVALUE_UDP_SYNC_CLIENT ++
        ([UInt8.ofNat draws.padding.length] ++ (draws.padding ++ (verify ++ payload)))) := by
  unfold encrypt_client_datagram at hbuilt
  split at hbuilt
  · cases hbuilt
  · obtain ⟨verify, hverify, hrest⟩ := bind_eq_ok_iff.mp hbuilt
    obtain ⟨part, hpart, hrest⟩ := bind_eq_ok_iff.mp hrest
    obtain ⟨first, hfirst, hrest⟩ := bind_eq_ok_iff.mp hrest
    obtain ⟨checked, hchecked, hdatagram⟩ := bind_eq_ok_iff.mp hrest
    have hsame : part = key_part := by
      rw [check_key_part, if_neg (not_not.mpr hkey_part)] at hpart
      cases hpart
      rfl
    have hlength : verify.length = 8 := by
      simp only [kad_verify, UdpMode.is_kad, if_true] at hverify
      split at hverify
      · cases hverify
      · cases hverify
        rw [List.length_append, endian_swap_pack_u32, length_encode, endian_swap_pack_u32, length_encode]
    rw [hsame, check_marker_bits_eq hchecked] at hdatagram
    cases hdatagram
    refine ⟨first, verify, choose_marker_not_plain hfirst, hlength, ?_⟩
    simp only [ARC4.new, ARC4.crypt, List.append_assoc]

/-- A marker that is even and not plain is enough for a datagram of a KadID. -/
theorem encrypt_client_datagram_ok {key : Bytes} {first : UInt8} (draws : UdpDraws) (hkey : key.length = 16)
    (hkey_part : key_part.length = 2) (hreceiver : receiver_key.length = 4) (hsender : sender_key.length = 4)
    (hplain : first ∉ PLAIN_PROTOCOL_BYTES) (heven : first &&& 0x01 = 0) :
    ∃ datagram, encrypt_client_datagram arc4 payload .kad_node_id key (some key_part) (some first)
      (some (receiver_key, sender_key)) draws = .ok datagram := by
  have hverify : kad_verify .kad_node_id (some (receiver_key, sender_key)) =
      .ok (endian_swap_pack_u32 (decode receiver_key) ++ endian_swap_pack_u32 (decode sender_key)) := by
    simp [kad_verify, UdpMode.is_kad, hreceiver, hsender]
  have hpart : check_key_part draws (some key_part) = .ok key_part := by
    rw [check_key_part, if_neg (not_not.mpr hkey_part)]
  have hfirst : choose_marker .kad_node_id draws (some first) = .ok first := by
    rw [choose_marker, if_neg hplain]
  have hbits : check_marker_bits .kad_node_id first = .ok first := by
    simp [check_marker_bits, UdpMode.is_kad, heven]
  rw [encrypt_client_datagram, if_neg (not_not.mpr hkey), hverify, ok_bind, hpart, ok_bind, hfirst, ok_bind,
    hbits, ok_bind]
  exact ⟨_, rfl⟩

/-- A datagram with one candidate key. -/
theorem decrypt_client_datagram_one {first : UInt8} {body : Bytes} (candidate : String × Bytes)
    (hlength : 5 ≤ body.length) (hkey_part : key_part.length = 2) (hfirst : first ∉ PLAIN_PROTOCOL_BYTES) :
    decrypt_client_datagram arc4 ([first] ++ key_part ++ body) [candidate] =
      (try_candidate arc4 ([first] ++ key_part ++ body) candidate).getD
        (.error (.UdpObfuscationError "no candidate key verified the sync magic")) := by
  have hlong : ¬ ([first] ++ key_part ++ body).length < CRYPT_HEADER_WITHOUTPADDING := by
    simp only [List.length_append, List.length_singleton, hkey_part, CRYPT_HEADER_WITHOUTPADDING]
    omega
  rw [decrypt_client_datagram, if_neg hlong, if_neg (by exact hfirst), List.findSome?_cons]
  cases try_candidate arc4 ([first] ++ key_part ++ body) candidate with
  | none => rfl
  | some result => rfl

/-- The magic that one module sends is not the one that the other expects, so neither reads what the
other wrote, whatever the ids, keys, key part and padding. Each reads what it wrote itself. -/
theorem kad_datagrams_only_read_by_their_module (our_sender_key their_receiver_key : Int) (drawn : UInt8)
    (marker : Option UInt8) (draws : UdpDraws) (verify_key_lookup : Option (String → Int → Int))
    (peer_ip : String) (peer_port : Int) (hid : kad_id.length = 16) (hkey_part : key_part.length = 2)
    (hpayload : payload ≠ []) :
    ∃ key, derive_key_kad_node_id md5 kad_id key_part = .ok key ∧
      decrypt_client_datagram arc4
          (kad.encode_obfuscated_kad md5 arc4 payload kad_id our_sender_key their_receiver_key key_part drawn)
          [("kad_node_id", key)] = .error (.UdpObfuscationError "no candidate key verified the sync magic") ∧
      kad.decode_obfuscated_kad md5 arc4
          (kad.encode_obfuscated_kad md5 arc4 payload kad_id our_sender_key their_receiver_key key_part drawn)
          kad_id verify_key_lookup peer_ip peer_port =
        some (payload, kad.low_word their_receiver_key, kad.low_word our_sender_key) ∧
      ∀ datagram, encrypt_client_datagram arc4 payload .kad_node_id key (some key_part) marker
          (some (receiver_key, sender_key)) draws = .ok datagram →
        kad.decode_obfuscated_kad md5 arc4 datagram kad_id none peer_ip peer_port = none ∧
          decrypt_client_datagram arc4 datagram [("kad_node_id", key)] = .ok ("kad_node_id", payload) := by
  have hkey : (md5 (kad_id.take 16 ++ key_part)).length = 16 := md5.length_apply _
  refine ⟨_, derive_key_kad_node_id_eq hid hkey_part, ?_, ?_, ?_⟩
  · have hhead : ([(drawn &&& 0xFC) ||| 0x02] ++ key_part).length = 3 := by simp [hkey_part]
    rw [kad.encode_obfuscated_kad_eq, decrypt_client_datagram_one _ ?_ hkey_part (kad.kad_marker_not_plain drawn)]
    · rw [try_candidate_other 0 _ hhead hkey (length_encode 4 _) (by decide)]
      rfl
    · simp only [length_crypt, List.length_append, length_encode]
      omega
  · exact kad.decode_encode_obfuscated_kad our_sender_key their_receiver_key drawn hkey_part hpayload _ _ _
  · intro datagram hbuilt
    obtain ⟨first, verify, hfirst, hverify, rfl⟩ := encrypt_client_datagram_eq hkey_part hbuilt
    have hhead : ([first] ++ key_part).length = 3 := by simp [hkey_part]
    constructor
    · apply kad.decode_obfuscated_kad_none hkey_part
      exact kad.try_material_other _ hhead (length_encode 4 _) (by decide)
    · rw [decrypt_client_datagram_one _ ?_ hkey_part hfirst]
      · rw [try_candidate_layout hhead hkey draws.length_padding hverify hpayload (by decide)]
        rfl
      · simp only [length_crypt, List.length_append, endian_swap_pack_u32, length_encode]
        omega

/-- A datagram of two bytes with no keystream: each module sends one and does not read the other's. -/
theorem kad_datagrams_only_read_by_their_module_sample :
    decrypt_client_datagram (fun _ _ => 0)
        (kad.encode_obfuscated_kad (zeroHash 16) (fun _ _ => 0) [0xE4, 0x60] (List.replicate 16 7) 1 2 [3, 4] 0)
        [("kad_node_id", List.replicate 16 0)] =
          .error (.UdpObfuscationError "no candidate key verified the sync magic") ∧
      ∃ datagram, encrypt_client_datagram (fun _ _ => 0) [0xE4, 0x60] .kad_node_id (List.replicate 16 0)
          (some [3, 4]) (some 0) (some ([1, 2, 3, 4], [5, 6, 7, 8])) ⟨[3, 4], [], [9], rfl, by decide⟩ = .ok datagram ∧
        kad.decode_obfuscated_kad (zeroHash 16) (fun _ _ => 0) datagram (List.replicate 16 7) none "" 0 = none ∧
        decrypt_client_datagram (fun _ _ => 0) datagram [("kad_node_id", List.replicate 16 0)] =
          .ok ("kad_node_id", [0xE4, 0x60]) := by
  obtain ⟨key, hkey, hkadToUdp, -, hudp⟩ := @kad_datagrams_only_read_by_their_module (zeroHash 16) (fun _ _ => 0)
    (List.replicate 16 7) [3, 4] [1, 2, 3, 4] [5, 6, 7, 8] [0xE4, 0x60] 1 2 0 (some 0)
    ⟨[3, 4], [], [9], rfl, by decide⟩ none "" 0 rfl rfl (List.cons_ne_nil _ _)
  have hzero : key = List.replicate 16 0 := by
    rw [derive_key_kad_node_id_eq rfl rfl] at hkey
    exact (Except.ok.inj hkey).symm
  subst hzero
  obtain ⟨datagram, hbuilt⟩ := @encrypt_client_datagram_ok (fun _ _ => 0) [3, 4] [1, 2, 3, 4] [5, 6, 7, 8]
    [0xE4, 0x60] (List.replicate 16 0) 0 ⟨[3, 4], [], [9], rfl, by decide⟩ rfl rfl rfl rfl (by decide) rfl
  exact ⟨hkadToUdp, datagram, hbuilt, hudp datagram hbuilt⟩

/-- The decoder of one module fails on what the encoder of the other sends. -/
theorem kad_datagram_not_decrypted :
    ¬ ∀ (md5 : HashFn 16) (arc4 : Bytes → Nat → UInt8) (kad_id key_part payload : Bytes)
      (our_sender_key their_receiver_key : Int) (drawn : UInt8) (key : Bytes), kad_id.length = 16 →
      key_part.length = 2 → payload ≠ [] → derive_key_kad_node_id md5 kad_id key_part = .ok key →
        decrypt_client_datagram arc4
          (kad.encode_obfuscated_kad md5 arc4 payload kad_id our_sender_key their_receiver_key key_part drawn)
          [("kad_node_id", key)] = .ok ("kad_node_id", payload) := by
  intro hclaim
  have hsame := hclaim (zeroHash 16) (fun _ _ => 0) (List.replicate 16 7) [3, 4] [0xE4, 0x60] 1 2 0 _ rfl rfl
    (List.cons_ne_nil _ _) (derive_key_kad_node_id_eq rfl rfl)
  revert hsame
  decide

end Datagrams

end amuled.peer
