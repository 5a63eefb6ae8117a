import AmuleD.Codec.Tags

open littleendian cursor

namespace amuled.peer

/-- The digits of an integer literal, of which single underscores may separate two. -/
def literal_digits : Nat → List Char → Option Nat
  | value, [] => some value
  | value, '_' :: digit :: rest =>
    if digit.isDigit then literal_digits (value * 10 + (digit.toNat - '0'.toNat)) rest else none
  | value, digit :: rest =>
    if digit.isDigit then literal_digits (value * 10 + (digit.toNat - '0'.toNat)) rest else none

/-- The white space that `int` takes off its argument, of the ASCII characters. -/
def is_space (c : Char) : Bool := c.isWhitespace || c.toNat ∈ [0x0B, 0x0C, 0x1C, 0x1D, 0x1E, 0x1F]

def unsigned_literal (digits : List Char) : Option Nat :=
  match digits with
  | [] => none
  | digit :: _ => if digit.isDigit then literal_digits 0 digits else none

/-- Python's `int(text)` of an ASCII string. -/
def int_of_str (text : String) : Option Int :=
  let stripped := ((text.toList.dropWhile is_space).reverse.dropWhile is_space).reverse
  match stripped with
  | '-' :: digits => (unsigned_literal digits).map fun value => -(value : Int)
  | '+' :: digits => (unsigned_literal digits).map fun value => (value : Int)
  | digits => (unsigned_literal digits).map fun value => (value : Int)

/-- `int(name)` of the identifier of a tag. -/
def identifier_number : TagIdentifier → Except Exc Int
  | .name_id id => .ok id.toNat
  | .name name =>
    match int_of_str name with
    | some number => .ok number
    | none => .error (.ValueError s!"invalid literal for int() with base 10: '{name}'")

/-- The type of a tag in the old format, and its name of one byte. -/
def old_tag_head (type : Nat) (identifier : TagIdentifier) : Except Exc Bytes := do
  let type_byte ← write_uint 8 type
  let name_length ← write_u16 1
  let number ← identifier_number identifier
  let name ← write_int 8 number
  .ok (type_byte ++ (name_length ++ name))

def unsupported_value (type_name : String) : Exc :=
  .PeerCodecError s!"unsupported HELLO tag value type: {type_name}"

def write_hello_tag (tag : Ed2kTag) : Except Exc Bytes :=
  match tag.value with
  | .str text => do
    let head ← old_tag_head 0x02 tag.identifier
    let length ← write_u16 (utf8_encode text).length
    .ok (head ++ (length ++ utf8_encode text))
  | .bytes raw => do
    let head ← old_tag_head 0x01 tag.identifier
    .ok (head ++ raw)
  | .int value =>
    if 0 ≤ value ∧ value ≤ 0xFFFFFFFF then do
      let head ← old_tag_head 0x03 tag.identifier
      let number ← write_int 32 value
      .ok (head ++ number)
    else .error (.PeerCodecError s!"HELLO uint tag value out of UInt32 range: {value}")
  | .bool _ => .error (unsupported_value "bool")
  | .float32 _ => .error (unsupported_value "float")
  | .none => .error (unsupported_value "NoneType")

def cap_kad2 : Nat := 9

def cap_secident : Nat := 3

/-- Misc options 1: AICH, Unicode, compression, secure identification, source exchange and
no view of shared files. The other capabilities are zero. -/
def miso1 : Nat :=
  1 <<< 29 ||| 1 <<< 28 ||| 0 <<< 24 ||| 1 <<< 20 ||| cap_secident <<< 16 ||| 1 <<< 12 |||
    0 <<< 8 ||| 0 <<< 4 ||| 0 <<< 3 ||| 1 <<< 2 ||| 0 <<< 1 ||| 0 <<< 0

/-- Misc options 2: source exchange 2, the cipher that is requested and supported, large
files and the Kad version. -/
def miso2 : Nat :=
  0 <<< 13 ||| 0 <<< 12 ||| 0 <<< 11 ||| 1 <<< 10 ||| 0 <<< 9 ||| 1 <<< 8 ||| 1 <<< 7 |||
    0 <<< 6 ||| 0 <<< 5 ||| 1 <<< 4 ||| cap_kad2

def emule_version_tag : Nat := 0 <<< 17 ||| 50 <<< 10 ||| 0 <<< 7

def udports : Nat := 0

def build_hello_tags (nickname : String) (version : Int) : List Ed2kTag :=
  [⟨.name_id 0x01, STRING, .str nickname⟩,
   ⟨.name_id 0x11, UINT32, .int version⟩,
   ⟨.name_id 0xF9, UINT32, .int udports⟩,
   ⟨.name_id 0xFA, UINT32, .int miso1⟩,
   ⟨.name_id 0xFE, UINT32, .int miso2⟩,
   ⟨.name_id 0xFB, UINT32, .int emule_version_tag⟩]

/-- The tags one after the other. -/
def write_hello_tags : List Ed2kTag → Except Exc Bytes
  | [] => .ok []
  | tag :: tags => do
    let raw ← write_hello_tag tag
    let rest ← write_hello_tags tags
    .ok (raw ++ rest)

def check_hash (user_hash : Bytes) : Except Exc Unit :=
  if user_hash.length ≠ 16 then .error (.PeerCodecError "user hash must contain exactly 16 bytes")
  else .ok ()

def check_uint (field : String) (bits : Nat) (value : Int) : Except Exc Unit :=
  if 0 ≤ value ∧ value < 2 ^ bits then .ok ()
  else .error (.PeerCodecError s!"{field} out of UInt{bits} range: {value}")

/-- The arguments of `_write_hello_body`. -/
structure HelloBody where
  user_hash : Bytes
  client_id : Int
  client_port : Int
  tags : List Ed2kTag
  server_ip : Int
  server_port : Int

/-- What `_write_hello_body` writes once its arguments have been checked. -/
def write_fields (body : HelloBody) : Except Exc Bytes := do
  let hash_len ← write_uint 8 16
  let hash ← write_hash16 body.user_hash
  let client_id ← write_int 32 body.client_id
  let client_port ← write_int 16 body.client_port
  let tag_count ← write_u32 body.tags.length
  let tags ← write_hello_tags body.tags
  let server_ip ← write_int 32 body.server_ip
  let server_port ← write_int 16 body.server_port
  .ok (hash_len ++ (hash ++ (client_id ++ (client_port ++ (tag_count ++ tags ++ (server_ip ++ server_port))))))

def write_hello_body (user_hash : Bytes) (client_id client_port : Int) (nickname : String)
    (version server_ip server_port : Int) (extra_tags : List Ed2kTag) : Except Exc Bytes := do
  check_hash user_hash
  check_uint "client_id" 32 client_id
  check_uint "client_port" 16 client_port
  check_uint "version" 32 version
  check_uint "server_ip" 32 server_ip
  check_uint "server_port" 16 server_port
  write_fields ⟨user_hash, client_id, client_port, build_hello_tags nickname version ++ extra_tags,
    server_ip, server_port⟩

def build_hello_payload (user_hash : Bytes) (client_id client_port : Int) (nickname : String)
    (version : Int) (extra_tags : List Ed2kTag) : Except Exc Bytes :=
  write_hello_body user_hash client_id client_port nickname version 0 0 extra_tags

def build_hello_answer_payload (user_hash : Bytes) (client_id client_port : Int) (nickname : String)
    (server_ip server_port version : Int) : Except Exc Bytes := do
  check_hash user_hash
  check_uint "server_ip" 32 server_ip
  check_uint "server_port" 16 server_port
  write_hello_body user_hash client_id client_port nickname version server_ip server_port []

/-- The `except TagError` of `parse_hello_tags`. -/
def except_tag_error {α : Type} (read : BinaryRead α) : BinaryRead α := fun reader =>
  match read reader with
  | .error (.TagError e) => .error (.PeerCodecError s!"malformed HELLO tag: {e}")
  | result => result

def parse_hello_tags : BinaryRead (List Ed2kTag) := do
  let tag_count ← read_u32
  except_tag_error (repeatN read_new_tag tag_count)

/-- The fields after the user hash. -/
def read_hello_fields (user_hash : Bytes) : BinaryRead HelloBody := do
  let client_id ← read_u32
  let client_port ← read_u16
  let tags ← parse_hello_tags
  let server_ip ← read_u32
  let server_port ← read_u16
  pure ⟨user_hash, client_id, client_port, tags, server_ip, server_port⟩

/-- The user hash, which a length byte precedes in the canonical form but not in the fork's. -/
def read_user_hash (payload : Bytes) : Except Exc (Bytes × BinaryReader) := do
  let (hash_len, reader) ← read_u8 ⟨payload, 0⟩
  if hash_len = 16 then read_hash16 reader else read_bytes 16 ⟨payload, 0⟩

def parse_hello_body (payload : Bytes) (label : String) : Except Exc HelloBody := do
  let (user_hash, reader) ← read_user_hash payload
  let (body, reader) ← read_hello_fields user_hash reader
  if reader.remaining ≠ 0 then
    .error (.PeerCodecError s!"{label} has {reader.remaining} trailing bytes")
  else .ok body

/-- The value of a tag that `isinstance(value, int)` accepts: a `bool` is one too. -/
def int_value : TagValue → Option Int
  | .int value => some value
  | .bool value => some (if value then 1 else 0)
  | _ => none

/-- One turn of the loop that looks for the nickname and the version. -/
def scan_hello_tag (found : String × Int) (tag : Ed2kTag) : String × Int :=
  if tag.identifier = .name_id 0x01 then
    match tag.value with
    | .str nickname => (nickname, found.2)
    | _ => found
  else if tag.identifier = .name_id 0x11 then (found.1, (int_value tag.value).getD found.2)
  else found

def scan_hello_tags (tags : List Ed2kTag) : String × Int := tags.foldl scan_hello_tag ("", 0)

structure Hello where
  user_hash : Bytes
  client_id : Int
  client_port : Int
  nickname : String
  version : Int
  tags : List Ed2kTag

structure HelloAnswer extends Hello where
  server_ip : Int
  server_port : Int

/-- `_parse_hello_body` under the `except CodecError` of its callers. -/
def parsed_body (payload : Bytes) (label : String) : Except Exc HelloBody :=
  match parse_hello_body payload label with
  | .error (.CodecError e) => .error (.PeerCodecError s!"malformed {label}: {e}")
  | result => result

def parse_hello (payload : Bytes) : Except Exc Hello := do
  let body ← parsed_body payload "OP_HELLO"
  let (nickname, version) := scan_hello_tags body.tags
  .ok ⟨body.user_hash, body.client_id, body.client_port, nickname, version, body.tags⟩

def parse_hello_answer (payload : Bytes) : Except Exc HelloAnswer := do
  let body ← parsed_body payload "OP_HELLOANSWER"
  let (nickname, version) := scan_hello_tags body.tags
  .ok ⟨⟨body.user_hash, body.client_id, body.client_port, nickname, version, body.tags⟩,
    body.server_ip, body.server_port⟩

/-- The values that a tag in the old format keeps. -/
inductive TagValue.Plain : TagValue → Prop where
  | str (text : String) : Plain (.str text)
  | bytes (raw : Bytes) (hlength : raw.length = 16) : Plain (.bytes raw)
  | int (value : Nat) (hfits : value < 2 ^ 32) : Plain (.int value)

/-- A tag with a name of one byte and a plain value. -/
structure PlainTag (tag : Ed2kTag) : Prop where
  name_id : ∃ id, tag.identifier = .name_id id
  value : TagValue.Plain tag.value

/-- The type under which a written value is read. -/
def read_type : TagValue → Nat
  | .str _ => STRING
  | .bytes _ => HASH16
  | _ => UINT32

/-- A tag after it was written and read. -/
def read_back (tag : Ed2kTag) : Ed2kTag := ⟨tag.identifier, read_type tag.value, tag.value⟩

theorem write_uint_ok {bits value : Nat} (hfits : value < 2 ^ bits) :
    write_uint bits value = .ok (encode (bits / 8) value) := write_uint_eq_ok_iff.mpr ⟨hfits, rfl⟩

theorem old_tag_head_name_id {type : Nat} (htype : type < 2 ^ 8) (id : UInt8) :
    old_tag_head type (.name_id id) = .ok (encode 1 type ++ (encode 2 1 ++ [id])) := by
  have hid : write_int 8 id.toNat = .ok [id] := by
    have hfits : id.toNat < 2 ^ 8 := id.toNat_lt
    rw [write_int, if_pos (Int.natCast_nonneg _), Int.toNat_natCast, write_uint_ok hfits]
    simp only [Nat.reduceDiv, encode, UInt8.ofNat_toNat]
  have hone : write_u16 1 = .ok (encode 2 1) := write_uint_ok (by omega)
  rw [old_tag_head, write_uint_ok htype, ok_bind, hone, ok_bind, identifier_number, ok_bind, hid, ok_bind]

/-- A tag that could be written is read back with its name and value. -/
theorem reads_written_tag {tag : Ed2kTag} {raw : Bytes} (hplain : PlainTag tag)
    (hwrite : write_hello_tag tag = .ok raw) : Reads read_new_tag raw (read_back tag) := by
  obtain ⟨⟨id, hid⟩, hvalue⟩ := hplain
  obtain ⟨identifier, type, value⟩ := tag
  obtain rfl : identifier = .name_id id := hid
  have hhead := fun type (htype : type < 2 ^ 8) => old_tag_head_name_id htype id
  cases hvalue with
  | str text =>
    simp only [write_hello_tag, hhead 2 (by omega), ok_bind, bind_eq_ok_iff, Except.ok.injEq] at hwrite
    obtain ⟨length, hlength, rfl⟩ := hwrite
    obtain ⟨hfits, rfl⟩ := write_uint_eq_ok_iff.mp hlength
    rw [List.append_assoc]
    exact reads_old_tag (by decide) (by decide) id (reads_string_value hfits)
  | bytes digest hlength =>
    simp only [write_hello_tag, hhead 1 (by omega), ok_bind, Except.ok.injEq] at hwrite
    rw [← hwrite, List.append_assoc]
    exact reads_old_tag (by decide) (by decide) id (reads_hash_value hlength)
  | int value hfits =>
    have hrange : (0 : Int) ≤ value ∧ (value : Int) ≤ 0xFFFFFFFF := by omega
    simp only [write_hello_tag, if_pos hrange, hhead 3 (by omega), ok_bind, bind_eq_ok_iff,
      Except.ok.injEq] at hwrite
    obtain ⟨number, hnumber, rfl⟩ := hwrite
    obtain ⟨n, hn, hfits, rfl⟩ := write_int_eq_ok hnumber
    obtain rfl := Int.ofNat.inj hn
    rw [List.append_assoc]
    exact reads_old_tag (by decide) (by decide) id (reads_uint32_value hfits)

theorem reads_written_tags {tags : List Ed2kTag} {raw : Bytes} (hplain : ∀ tag ∈ tags, PlainTag tag)
    (hwrite : write_hello_tags tags = .ok raw) :
    Reads (repeatN read_new_tag tags.length) raw (tags.map read_back) := by
  induction tags generalizing raw with
  | nil =>
    obtain rfl := Except.ok.inj hwrite
    exact Reads.pure []
  | cons tag tags ih =>
    simp only [write_hello_tags, bind_eq_ok_iff, Except.ok.injEq] at hwrite
    obtain ⟨front, hfront, back, hback, rfl⟩ := hwrite
    have hrest := ih (fun other hother => hplain other (List.mem_cons_of_mem _ hother)) hback
    exact Reads.repeatN_cons (reads_written_tag (hplain tag List.mem_cons_self) hfront) hrest

theorem reads_except_tag_error {α : Type} {read : BinaryRead α} {front : Bytes} {value : α}
    (hread : Reads read front value) : Reads (except_tag_error read) front value := by
  intro before rest
  rw [except_tag_error, hread before rest]

theorem reads_hello_tags {tags : List Ed2kTag} {raw : Bytes} (hplain : ∀ tag ∈ tags, PlainTag tag)
    (hcount : tags.length < 2 ^ 32) (hwrite : write_hello_tags tags = .ok raw) :
    Reads parse_hello_tags (encode 4 tags.length ++ raw) (tags.map read_back) := by
  have hlength : Reads read_u32 (encode 4 tags.length) tags.length := reads_uint hcount
  exact hlength.bind (reads_except_tag_error (reads_written_tags hplain hwrite))

/-- What was written of the body is read back, the user hash apart. -/
theorem write_fields_eq_ok {body : HelloBody} {payload : Bytes} (hplain : ∀ tag ∈ body.tags, PlainTag tag)
    (hwrite : write_fields body = .ok payload) :
    body.user_hash.length = 16 ∧ ∃ fields, payload = encode 1 16 ++ (body.user_hash ++ fields) ∧
      Reads (read_hello_fields body.user_hash) fields { body with tags := body.tags.map read_back } := by
  obtain ⟨user_hash, client_id, client_port, tags, server_ip, server_port⟩ := body
  simp only [write_fields, bind_eq_ok_iff, Except.ok.injEq] at hwrite
  obtain ⟨_, hlen, hash, hhash, _, hid, _, hport, _, hcount, _, htags, _, hip, _, hsport, rfl⟩ := hwrite
  obtain ⟨-, rfl⟩ := write_uint_eq_ok_iff.mp hlen
  obtain ⟨hcount, rfl⟩ := write_uint_eq_ok_iff.mp hcount
  obtain ⟨id, rfl, hid, rfl⟩ := write_int_eq_ok hid
  obtain ⟨port, rfl, hport, rfl⟩ := write_int_eq_ok hport
  obtain ⟨ip, rfl, hip, rfl⟩ := write_int_eq_ok hip
  obtain ⟨sport, rfl, hsport, rfl⟩ := write_int_eq_ok hsport
  have hhash : user_hash.length = 16 ∧ hash = user_hash := by
    rw [write_hash16] at hhash
    split at hhash
    · rename_i hlength
      exact ⟨hlength, (Except.ok.inj hhash).symm⟩
    · cases hhash
  obtain ⟨hlength, rfl⟩ := hhash
  have hreadId : Reads read_u32 (encode 4 id) id := reads_uint (by assumption)
  have hreadPort : Reads read_u16 (encode 2 port) port := reads_uint (by assumption)
  have hreadTags := reads_hello_tags hplain (by assumption) htags
  have hreadIp : Reads read_u32 (encode 4 ip) ip := reads_uint (by assumption)
  have hreadServerPort : Reads read_u16 (encode 2 sport) sport := reads_uint (by assumption)
  refine ⟨hlength, _, rfl, ?_⟩
  exact hreadId.bind (hreadPort.bind (hreadTags.bind (hreadIp.bind hreadServerPort.bind_pure)))

theorem read_user_hash_ok {user_hash : Bytes} (hlength : user_hash.length = 16) (fields : Bytes) :
    read_user_hash (encode 1 16 ++ (user_hash ++ fields)) =
      .ok (user_hash, ⟨encode 1 16 ++ (user_hash ++ fields), (encode 1 16 ++ user_hash).length⟩) := by
  have hbyte : Reads read_u8 (encode 1 16) 16 := reads_uint (by omega)
  have hhash : Reads read_hash16 user_hash user_hash := reads_bytes_of_length hlength
  rw [read_user_hash, hbyte.run (user_hash ++ fields), ok_bind]
  exact hhash (encode 1 16) fields

/-- A payload whose fields can be read is parsed in the canonical form. -/
theorem parse_hello_body_ok {user_hash fields : Bytes} {body : HelloBody} (label : String)
    (hlength : user_hash.length = 16) (hfields : Reads (read_hello_fields user_hash) fields body) :
    parse_hello_body (encode 1 16 ++ (user_hash ++ fields)) label = .ok body := by
  have hread := hfields (encode 1 16 ++ user_hash) []
  rw [List.append_nil] at hread
  rw [parse_hello_body, read_user_hash_ok hlength, ok_bind, ← List.append_assoc]
  have hend : Cursor.remaining (⟨encode 1 16 ++ user_hash ++ fields,
      (encode 1 16 ++ user_hash ++ fields).length⟩ : BinaryReader) = 0 := Nat.sub_self _
  simp only [hread, ok_bind, hend, ne_eq, not_true_eq_false, if_false]

/-- The exceptions that leave `_parse_hello_body`. -/
inductive IsHelloError : Exc → Prop where
  | codec (message : String) : IsHelloError (.CodecError message)
  | peer_codec (message : String) : IsHelloError (.PeerCodecError message)

theorem raises_hello_codec {α : Type} {read : BinaryRead α} (hread : Raises read Exc.IsCodecError) :
    Raises read IsHelloError := hread.mono fun _ he => by
  cases he
  exact .codec _

theorem raises_except_tag_error {α : Type} {read : BinaryRead α} (hread : Raises read Exc.IsTagReadError) :
    Raises (except_tag_error read) IsHelloError := by
  intro reader e herror
  rw [except_tag_error] at herror
  split at herror
  · cases herror
    exact .peer_codec _
  · rename_i hother
    cases hread reader e herror with
    | codec message => exact .codec message
    | tag message => exact absurd herror (hother message)

theorem raises_hello_fields (user_hash : Bytes) : Raises (read_hello_fields user_hash) IsHelloError := by
  have hu16 := raises_hello_codec (raises_uint 2)
  have hu32 := raises_hello_codec (raises_uint 4)
  have htags : Raises parse_hello_tags IsHelloError :=
    hu32.bind fun tag_count => raises_except_tag_error (Raises.repeatN raises_new_tag tag_count)
  exact hu32.bind fun _ => hu16.bind fun _ => htags.bind fun _ => hu32.bind fun _ => hu16.bind fun _ =>
    Raises.pure _

theorem read_user_hash_error {payload : Bytes} {e : Exc} (herror : read_user_hash payload = .error e) :
    IsHelloError e := by
  have hbytes : ∀ n, Raises (read_bytes n) IsHelloError := fun n => raises_hello_codec (raises_bytes n)
  rw [read_user_hash] at herror
  cases hbyte : read_u8 ⟨payload, 0⟩ with
  | error first =>
    rw [hbyte, error_bind] at herror
    cases herror
    exact raises_hello_codec (raises_uint 1) _ _ hbyte
  | ok read =>
    obtain ⟨hash_len, reader⟩ := read
    simp only [hbyte, ok_bind] at herror
    split at herror
    · exact hbytes 16 _ _ herror
    · exact hbytes 16 _ _ herror

/-- `_parse_hello_body` fails with one of its two exceptions. -/
theorem parse_hello_body_error {payload : Bytes} {label : String} {e : Exc}
    (herror : parse_hello_body payload label = .error e) : IsHelloError e := by
  rw [parse_hello_body] at herror
  cases hhash : read_user_hash payload with
  | error first =>
    rw [hhash, error_bind] at herror
    cases herror
    exact read_user_hash_error hhash
  | ok read =>
    obtain ⟨user_hash, reader⟩ := read
    rw [hhash, ok_bind] at herror
    cases hfields : read_hello_fields user_hash reader with
    | error second =>
      simp only [hfields, error_bind, Except.error.injEq] at herror
      exact herror ▸ raises_hello_fields user_hash reader second hfields
    | ok read =>
      simp only [hfields, ok_bind] at herror
      split at herror
      · cases herror
        exact .peer_codec _
      · cases herror

/-- `parse_hello` returns or raises `PeerCodecError`, whatever it is given. -/
theorem parse_hello_total (payload : Bytes) :
    (∃ hello, parse_hello payload = .ok hello) ∨ ∃ e, parse_hello payload = .error (.PeerCodecError e) := by
  rw [parse_hello, parsed_body]
  cases hbody : parse_hello_body payload "OP_HELLO" with
  | ok body => exact .inl ⟨_, rfl⟩
  | error e =>
    cases parse_hello_body_error hbody with
    | codec message => exact .inr ⟨_, rfl⟩
    | peer_codec message => exact .inr ⟨_, rfl⟩

theorem check_uint_eq_ok {field : String} {bits : Nat} {value : Int} {checked : Unit}
    (hcheck : check_uint field bits value = .ok checked) : 0 ≤ value ∧ value < 2 ^ bits := by
  rw [check_uint] at hcheck
  split at hcheck
  · assumption
  · cases hcheck

/-- The six tags of every HELLO are plain. -/
theorem plain_build_hello_tags (nickname : String) {version : Int} (hlow : 0 ≤ version)
    (hhigh : version < 2 ^ 32) : ∀ tag ∈ build_hello_tags nickname version, PlainTag tag := by
  have hversion : TagValue.Plain (.int version) := by
    have hplain := TagValue.Plain.int version.toNat (by omega)
    rwa [Int.toNat_of_nonneg hlow] at hplain
  intro tag htag
  simp only [build_hello_tags, List.mem_cons, List.not_mem_nil, or_false] at htag
  rcases htag with rfl | rfl | rfl | rfl | rfl | rfl
  · exact ⟨⟨_, rfl⟩, .str nickname⟩
  · exact ⟨⟨_, rfl⟩, hversion⟩
  · exact ⟨⟨_, rfl⟩, .int udports (by decide)⟩
  · exact ⟨⟨_, rfl⟩, .int miso1 (by decide)⟩
  · exact ⟨⟨_, rfl⟩, .int miso2 (by decide)⟩
  · exact ⟨⟨_, rfl⟩, .int emule_version_tag (by decide)⟩

/-- What was written as a body is parsed to that body, its tags as they are read back. -/
theorem parse_hello_body_of_write {user_hash : Bytes} {client_id client_port : Int} {nickname : String}
    {version server_ip server_port : Int} {extra_tags : List Ed2kTag} {payload : Bytes} (label : String)
    (hextra : ∀ tag ∈ extra_tags, PlainTag tag)
    (hwrite : write_hello_body user_hash client_id client_port nickname version server_ip server_port
      extra_tags = .ok payload) :
    parse_hello_body payload label = .ok ⟨user_hash, client_id, client_port,
      (build_hello_tags nickname version ++ extra_tags).map read_back, server_ip, server_port⟩ := by
  simp only [write_hello_body, bind_eq_ok_iff] at hwrite
  obtain ⟨_, _, _, _, _, _, _, hversion, _, _, _, _, hwrite⟩ := hwrite
  obtain ⟨hlow, hhigh⟩ := check_uint_eq_ok hversion
  have hplain : ∀ tag ∈ build_hello_tags nickname version ++ extra_tags, PlainTag tag := by
    intro tag htag
    rcases List.mem_append.mp htag with htag | htag
    · exact plain_build_hello_tags nickname hlow hhigh tag htag
    · exact hextra tag htag
  obtain ⟨hlength, fields, rfl, hfields⟩ := write_fields_eq_ok hplain hwrite
  exact parse_hello_body_ok label hlength hfields

/-- A tag that neither carries the nickname nor the version is passed over. -/
theorem scan_hello_tag_of_other {tag : Ed2kTag} (hnickname : tag.identifier ≠ .name_id 0x01)
    (hversion : tag.identifier ≠ .name_id 0x11) (found : String × Int) :
    scan_hello_tag found tag = found := by
  rw [scan_hello_tag, if_neg hnickname, if_neg hversion]

theorem scan_hello_tags_built (nickname : String) (version : Int) {extra_tags : List Ed2kTag}
    (hextra : ∀ tag ∈ extra_tags, tag.identifier ≠ .name_id 0x01 ∧ tag.identifier ≠ .name_id 0x11) :
    scan_hello_tags ((build_hello_tags nickname version ++ extra_tags).map read_back) =
      (nickname, version) := by
  have hstandard : ((build_hello_tags nickname version).map read_back).foldl scan_hello_tag ("", 0) =
      (nickname, version) := by
    simp [build_hello_tags, read_back, scan_hello_tag, int_value]
  rw [scan_hello_tags, List.map_append, List.foldl_append, hstandard]
  induction extra_tags with
  | nil => rfl
  | cons tag tags ih =>
    have hother := hextra tag List.mem_cons_self
    have hpassed : scan_hello_tag (nickname, version) (read_back tag) = (nickname, version) :=
      scan_hello_tag_of_other hother.1 hother.2 _
    rw [List.map_cons, List.foldl_cons, hpassed]
    exact ih fun other hmem => hextra other (List.mem_cons_of_mem _ hmem)

/-- A tag that may follow the six standard ones: its name is another byte, and its value a
string, a hash or an unsigned integer of 32 bits. -/
structure ExtraTag (tag : Ed2kTag) : Prop extends PlainTag tag where
  other : ∀ nickname version, ∀ standard ∈ build_hello_tags nickname version,
    tag.identifier ≠ standard.identifier

/-- What a caller sees of tags: their identifiers and values. -/
def contents (tags : List Ed2kTag) : List (TagIdentifier × TagValue) :=
  tags.map fun tag => (tag.identifier, tag.value)

theorem contents_read_back (tags : List Ed2kTag) : contents (tags.map read_back) = contents tags := by
  rw [contents, contents, List.map_map]
  rfl

theorem ExtraTag.not_scanned {tag : Ed2kTag} (hextra : ExtraTag tag) :
    tag.identifier ≠ .name_id 0x01 ∧ tag.identifier ≠ .name_id 0x11 := by
  have hother := hextra.other "" 0
  exact ⟨hother ⟨.name_id 0x01, STRING, .str ""⟩ (by simp [build_hello_tags]),
    hother ⟨.name_id 0x11, UINT32, .int 0⟩ (by simp [build_hello_tags])⟩

/-- HELLO and HELLOANSWER payloads that could be built are parsed to what they were built
of, and `parse_hello` raises nothing but `PeerCodecError` on any bytes. -/
theorem hello_round_trips :
    (∀ user_hash client_id client_port nickname version extra_tags payload,
      (∀ tag ∈ extra_tags, ExtraTag tag) →
      build_hello_payload user_hash client_id client_port nickname version extra_tags = .ok payload →
      ∃ tags, parse_hello payload = .ok ⟨user_hash, client_id, client_port, nickname, version, tags⟩ ∧
        contents tags = contents (build_hello_tags nickname version ++ extra_tags)) ∧
    (∀ user_hash client_id client_port nickname server_ip server_port version payload,
      build_hello_answer_payload user_hash client_id client_port nickname server_ip server_port version =
        .ok payload →
      ∃ tags, parse_hello_answer payload =
          .ok ⟨⟨user_hash, client_id, client_port, nickname, version, tags⟩, server_ip, server_port⟩ ∧
        contents tags = contents (build_hello_tags nickname version)) ∧
    ∀ payload, (∃ hello, parse_hello payload = .ok hello) ∨
      ∃ e, parse_hello payload = .error (.PeerCodecError e) := by
  refine ⟨?_, ?_, parse_hello_total⟩
  · intro user_hash client_id client_port nickname version extra_tags payload hextra hbuild
    have hbody := parse_hello_body_of_write "OP_HELLO" (fun tag htag => (hextra tag htag).toPlainTag) hbuild
    have hscan := scan_hello_tags_built nickname version fun tag htag => (hextra tag htag).not_scanned
    refine ⟨_, ?_, contents_read_back _⟩
    simp only [parse_hello, parsed_body, hbody, ok_bind, hscan]
  · intro user_hash client_id client_port nickname server_ip server_port version payload hbuild
    simp only [build_hello_answer_payload, bind_eq_ok_iff] at hbuild
    obtain ⟨_, _, _, _, _, _, hbuild⟩ := hbuild
    have hbody := parse_hello_body_of_write "OP_HELLOANSWER" (fun _ hmem => absurd hmem List.not_mem_nil) hbuild
    have hscan := scan_hello_tags_built nickname version fun _ hmem => absurd hmem List.not_mem_nil
    rw [List.append_nil] at hbody hscan
    refine ⟨_, ?_, contents_read_back _⟩
    simp only [parse_hello_answer, parsed_body, hbody, ok_bind, hscan]

/-- A hash, a string and an integer after the standard tags. -/
def sampleTags : List Ed2kTag :=
  [⟨.name_id 0x20, HASH16, .bytes (List.replicate 16 7)⟩, ⟨.name_id 0x21, STRING, .str "é"⟩,
    ⟨.name_id 0x22, UINT32, .int 0xFFFFFFFF⟩]

theorem extraTag_sampleTags : ∀ tag ∈ sampleTags, ExtraTag tag := by
  have hother : ∀ tag ∈ sampleTags, ∀ nickname version, ∀ standard ∈ build_hello_tags nickname version,
      tag.identifier ≠ standard.identifier := by
    intro tag htag nickname version standard hstandard
    simp only [sampleTags, build_hello_tags, List.mem_cons, List.not_mem_nil, or_false] at htag hstandard
    rcases htag with rfl | rfl | rfl <;>
      rcases hstandard with rfl | rfl | rfl | rfl | rfl | rfl <;> simp
  intro tag htag
  refine { name_id := ?_, value := ?_, other := hother tag htag }
  · simp only [sampleTags, List.mem_cons, List.not_mem_nil, or_false] at htag
    rcases htag with rfl | rfl | rfl <;> exact ⟨_, rfl⟩
  · simp only [sampleTags, List.mem_cons, List.not_mem_nil, or_false] at htag
    rcases htag with rfl | rfl | rfl
    · exact .bytes _ rfl
    · exact .str _
    · exact .int 0xFFFFFFFF (by omega)

theorem hello_round_trips_sample :
    ∃ payload tags, build_hello_payload (List.replicate 16 1) 0x0100007F 4662 "amuled" 0x3C sampleTags =
        .ok payload ∧
      parse_hello payload = .ok ⟨List.replicate 16 1, 0x0100007F, 4662, "amuled", 0x3C, tags⟩ ∧
      contents tags = contents (build_hello_tags "amuled" 0x3C ++ sampleTags) := by
  have hsome : (build_hello_payload (List.replicate 16 1) 0x0100007F 4662 "amuled" 0x3C sampleTags).toOption.isSome
      = true := by decide +kernel
  cases hbuild : build_hello_payload (List.replicate 16 1) 0x0100007F 4662 "amuled" 0x3C sampleTags with
  | error e =>
    rw [hbuild] at hsome
    cases hsome
  | ok payload =>
    obtain ⟨tags, hparse, htags⟩ := hello_round_trips.1 _ _ _ _ _ _ payload extraTag_sampleTags hbuild
    exact ⟨payload, tags, rfl, hparse, htags⟩

end amuled.peer
