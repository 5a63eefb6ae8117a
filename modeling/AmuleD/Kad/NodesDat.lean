import AmuleD.Kad.Packets
import AmuleD.Codec.Struct

open littleendian cursor

namespace amuled.kad

/-- The exceptions of the parser, which callers expect to be `NodesDatError`. -/
inductive NodesError where
  | NodesDatError (message : String)
  | StructError (message : String)
  | IndexError
  | ValueError (message : String)
  deriving DecidableEq

abbrev NodesRead (α : Type) := StateT (Cursor UInt8) (Except NodesError) α

def unpack_from (width : Nat) : NodesRead Nat := struct_unpack_from .StructError width

def index_byte : NodesRead UInt8 := index fun _ => .IndexError

/-- `total - offset`. -/
def left : NodesRead Nat := fun cursor => .ok (cursor.remaining, cursor)

/-- The first number, whose `struct.error` is caught. -/
def read_hint : NodesRead Nat :=
  struct_unpack_from (fun message => .NodesDatError s!"truncated nodes.dat header: {message}") 4

/-- The version of the file and the number of contacts that it declares. -/
def read_header : NodesRead (Nat × Nat) := do
  let num_contacts_hint ← read_hint
  if num_contacts_hint = 0 then
    let remaining ← left
    if remaining ≥ 4 then
      let file_version ← unpack_from 4
      if file_version = 1 ∨ file_version = 2 ∨ file_version = 3 then
        let remaining ← left
        if remaining < 4 then throw (.NodesDatError "truncated nodes.dat after version")
        else
          let real_count ← unpack_from 4
          pure (file_version, real_count)
      else throw (.NodesDatError "unsupported nodes.dat version")
    else pure (0, 0)
  else pure (0, num_contacts_hint)

def record_size (file_version : Nat) : Nat := if file_version < 2 then 25 else 34

/-- The byte behind the ports: the version of the contact, or the type of a legacy one. -/
def read_contact_version (file_version : Nat) : NodesRead Nat := do
  let byte ← index_byte
  if file_version ≥ 1 then pure byte.toNat
  else
    let remaining ← left
    if remaining = 0 then throw (.NodesDatError "truncated nodes.dat in legacy record")
    else pure 0

/-- The UDP key and whether the contact was verified. -/
def read_udp_key (file_version : Nat) : NodesRead (Nat × Bool) :=
  if file_version ≥ 2 then do
    let udp_key ← unpack_from 8
    let verified_flag ← index_byte
    pure (udp_key, decide (verified_flag ≠ 0))
  else pure (0, false)

/-- A record, of which no contact is made where its UDP port is zero. Its four bytes always are an address. -/
def make_contact (kad_id : Bytes) (ip udp_port tcp_port contact_version : Nat) (key : Nat × Bool) :
    Except NodesError (Option KadNodeInfo) :=
  if udp_port = 0 then .ok none
  else if hlength : kad_id.length = 16 then
    .ok (some ⟨kad_id, ip_to_str ip, udp_port, tcp_port, contact_version, key.2, key.1, hlength⟩)
  else .error (.ValueError s!"kad_id must be 16 bytes, got {kad_id.length}")

def read_record (file_version : Nat) : NodesRead (Option KadNodeInfo) := do
  let kad_id ← sliceN 16
  let ip ← unpack_from 4
  let udp_port ← unpack_from 2
  let tcp_port ← unpack_from 2
  let contact_version ← read_contact_version file_version
  let key ← read_udp_key file_version
  StateT.lift (make_contact kad_id ip udp_port tcp_port contact_version key)

def read_nodes : NodesRead (List KadNodeInfo) := do
  let (file_version, real_count) ← read_header
  let remaining ← left
  if real_count * record_size file_version > remaining then
    throw (.NodesDatError (s!"nodes.dat truncated: need {real_count * record_size file_version} bytes " ++
      s!"for {real_count} contacts, have {remaining}"))
  else List.reduceOption <$> repeatN (read_record file_version) real_count

def _parse_nodes_dat (data : Bytes) : Except NodesError (List KadNodeInfo) :=
  match read_nodes ⟨data, 0⟩ with
  | .ok (contacts, _) => .ok contacts
  | .error e => .error e

/-- A contact as a file stores it. The legacy files have a type where the others have the contact's version, and
the files before version 2 have no UDP key. -/
structure StoredContact where
  kad_id : Bytes
  ip : UInt32
  udp_port : UInt16
  tcp_port : UInt16
  contact_version : UInt8
  udp_key : UInt64
  verified_flag : UInt8
  length_kad_id : kad_id.length = 16

namespace StoredContact

def key_bytes (file_version : Nat) (contact : StoredContact) : Bytes :=
  if file_version ≥ 2 then encode 8 contact.udp_key.toNat ++ [contact.verified_flag] else []

def record_bytes (file_version : Nat) (contact : StoredContact) : Bytes :=
  contact.kad_id ++ (encode 4 contact.ip.toNat ++ (encode 2 contact.udp_port.toNat ++
    (encode 2 contact.tcp_port.toNat ++ ([contact.contact_version] ++ contact.key_bytes file_version))))

/-- The contact that a record stands for, unless its UDP port is zero. -/
def loaded (file_version : Nat) (contact : StoredContact) : Option KadNodeInfo :=
  if contact.udp_port.toNat = 0 then none
  else some {
    kad_id := contact.kad_id
    ip := ip_to_str contact.ip.toNat
    udp_port := contact.udp_port.toNat
    tcp_port := contact.tcp_port.toNat
    contact_version := if file_version ≥ 1 then contact.contact_version.toNat else 0
    verified := if file_version ≥ 2 then decide (contact.verified_flag ≠ 0) else false
    udp_key := if file_version ≥ 2 then contact.udp_key.toNat else 0
    length_kad_id := contact.length_kad_id }

end StoredContact

def nodes_header (file_version count : Nat) : Bytes :=
  if file_version = 0 then encode 4 count else encode 4 0 ++ (encode 4 file_version ++ encode 4 count)

/-- The file of some contacts, with nothing behind the last record. -/
def nodes_image (file_version : Nat) (contacts : List StoredContact) : Bytes :=
  nodes_header file_version contacts.length ++ (contacts.map (StoredContact.record_bytes file_version)).flatten

section Image

variable {file_version : Nat}

theorem reads_unpack {width value : Nat} (hfits : value < 256 ^ width) :
    Reads (unpack_from width) (encode width value) value := reads_struct_unpack_from _ hfits

theorem reads_contact_version (hversion : 1 ≤ file_version) (byte : UInt8) :
    Reads (read_contact_version file_version) [byte] byte.toNat := by
  refine (Reads.index _ byte).bind_last ?_
  rw [if_pos hversion]
  exact Reads.pure _

theorem reads_udp_key (contact : StoredContact) :
    Reads (read_udp_key file_version) (contact.key_bytes file_version)
      (if file_version ≥ 2 then contact.udp_key.toNat else 0,
        if file_version ≥ 2 then decide (contact.verified_flag ≠ 0) else false) := by
  by_cases hkey : file_version ≥ 2
  · have hfits : contact.udp_key.toNat < 256 ^ 8 := contact.udp_key.toNat_lt
    rw [read_udp_key, StoredContact.key_bytes, if_pos hkey, if_pos hkey, if_pos hkey, if_pos hkey]
    exact (reads_unpack hfits).bind (Reads.index _ contact.verified_flag).bind_pure
  · rw [read_udp_key, StoredContact.key_bytes, if_neg hkey, if_neg hkey, if_neg hkey, if_neg hkey]
    exact Reads.pure _

variable (file_version) in
theorem make_contact_stored (contact : StoredContact) :
    make_contact contact.kad_id contact.ip.toNat contact.udp_port.toNat contact.tcp_port.toNat
      (if file_version ≥ 1 then contact.contact_version.toNat else 0)
      (if file_version ≥ 2 then contact.udp_key.toNat else 0,
        if file_version ≥ 2 then decide (contact.verified_flag ≠ 0) else false) = .ok (contact.loaded file_version) := by
  rw [make_contact, StoredContact.loaded]
  by_cases hport : contact.udp_port.toNat = 0
  · rw [if_pos hport, if_pos hport]
  · rw [if_neg hport, if_neg hport, dif_pos contact.length_kad_id]

/-- A record that has a contact version is read wherever it stands. -/
theorem reads_record (hversion : 1 ≤ file_version) (contact : StoredContact) :
    Reads (read_record file_version) (contact.record_bytes file_version) (contact.loaded file_version) := by
  have hid : Reads (sliceN 16 : NodesRead Bytes) contact.kad_id contact.kad_id := by
    have hslice : Reads (sliceN contact.kad_id.length : NodesRead Bytes) contact.kad_id contact.kad_id :=
      Reads.sliceN contact.kad_id
    rwa [contact.length_kad_id] at hslice
  have hip : contact.ip.toNat < 256 ^ 4 := contact.ip.toNat_lt
  have hudp : contact.udp_port.toNat < 256 ^ 2 := contact.udp_port.toNat_lt
  have htcp : contact.tcp_port.toNat < 256 ^ 2 := contact.tcp_port.toNat_lt
  have hmade := make_contact_stored file_version contact
  rw [if_pos hversion] at hmade
  refine hid.bind ((reads_unpack hip).bind ((reads_unpack hudp).bind ((reads_unpack htcp).bind
    ((reads_contact_version hversion contact.contact_version).bind ((reads_udp_key contact).bind_last ?_)))))
  rw [hmade]
  exact Reads.pure _

end Image

section Present

variable {data : Bytes} {pos file_version : Nat}

theorem unpack_ok (width : Nat) (hfits : pos + width ≤ data.length) :
    unpack_from width ⟨data, pos⟩ = .ok (decode (data.extract pos (pos + width)), ⟨data, pos + width⟩) :=
  struct_unpack_from_ok _ hfits

theorem index_byte_ok (hfits : pos < data.length) :
    index_byte ⟨data, pos⟩ = .ok (data[pos], ⟨data, pos + 1⟩) := index_ok hfits

variable (file_version) in
/-- The legacy type byte is refused where it is the last one of the file. -/
theorem read_contact_version_cases (hfits : pos < data.length) :
    (∃ contact_version, read_contact_version file_version ⟨data, pos⟩ = .ok (contact_version, ⟨data, pos + 1⟩) ∧
        (file_version = 0 → pos + 1 < data.length)) ∨
      file_version = 0 ∧ pos + 1 = data.length ∧
        read_contact_version file_version ⟨data, pos⟩ =
          .error (.NodesDatError "truncated nodes.dat in legacy record") := by
  rw [read_contact_version, bind_ok (index_byte_ok hfits)]
  by_cases hversion : file_version ≥ 1
  · rw [if_pos hversion]
    exact Or.inl ⟨_, rfl, fun hzero => absurd hversion (by omega)⟩
  · have hzero : file_version = 0 := by omega
    have hleft : left ⟨data, pos + 1⟩ = .ok (data.length - (pos + 1), ⟨data, pos + 1⟩) := rfl
    rw [if_neg hversion, bind_ok hleft]
    by_cases hlast : data.length - (pos + 1) = 0
    · rw [if_pos hlast]
      exact Or.inr ⟨hzero, by omega, rfl⟩
    · rw [if_neg hlast]
      exact Or.inl ⟨0, rfl, fun _ => by omega⟩

variable (file_version) in
theorem read_udp_key_ok (hfits : pos + (record_size file_version - 25) ≤ data.length) :
    ∃ key, read_udp_key file_version ⟨data, pos⟩ = .ok (key, ⟨data, pos + (record_size file_version - 25)⟩) := by
  by_cases hkey : file_version ≥ 2
  · have hsize : record_size file_version - 25 = 9 := by rw [record_size, if_neg (by omega)]
    rw [hsize] at hfits ⊢
    rw [read_udp_key, if_pos hkey, bind_ok (unpack_ok 8 (by omega)), bind_ok (index_byte_ok (by omega))]
    exact ⟨_, rfl⟩
  · have hsize : record_size file_version - 25 = 0 := by rw [record_size, if_pos (by omega)]
    rw [hsize, read_udp_key, if_neg hkey]
    exact ⟨_, rfl⟩

theorem make_contact_ok {kad_id : Bytes} (hlength : kad_id.length = 16) (ip udp_port tcp_port contact_version : Nat)
    (key : Nat × Bool) : ∃ contact, make_contact kad_id ip udp_port tcp_port contact_version key = .ok contact := by
  rw [make_contact]
  by_cases hport : udp_port = 0
  · exact ⟨none, if_pos hport⟩
  · rw [if_neg hport, dif_pos hlength]
    exact ⟨_, rfl⟩

/-- A record that is there is read, but for a legacy one at the end of the file. -/
theorem read_record_cases (hfits : pos + record_size file_version ≤ data.length) :
    (∃ contact, read_record file_version ⟨data, pos⟩ = .ok (contact, ⟨data, pos + record_size file_version⟩) ∧
        (file_version = 0 → pos + record_size file_version < data.length)) ∨
      file_version = 0 ∧ pos + record_size file_version = data.length ∧
        read_record file_version ⟨data, pos⟩ = .error (.NodesDatError "truncated nodes.dat in legacy record") := by
  have hsize : 25 ≤ record_size file_version := by
    rw [record_size]
    split_ifs <;> decide
  have hid : (sliceN 16 : NodesRead Bytes) ⟨data, pos⟩ = .ok (data.extract pos (pos + 16), ⟨data, pos + 16⟩) := rfl
  have hlength : (data.extract pos (pos + 16)).length = 16 := by
    rw [length_extract_of_le (by omega)]
    omega
  rw [read_record, bind_ok hid, bind_ok (unpack_ok 4 (by omega)),
    bind_ok (unpack_ok 2 (by omega)), bind_ok (unpack_ok 2 (by omega))]
  have hbyte : pos + 16 + 4 + 2 + 2 < data.length := by omega
  have hbehind : pos + 16 + 4 + 2 + 2 + 1 + (record_size file_version - 25) ≤ data.length := by omega
  rcases read_contact_version_cases file_version hbyte with ⟨contact_version, hread, hmore⟩ | ⟨hzero, hlast, herror⟩
  · obtain ⟨key, hkey⟩ := read_udp_key_ok file_version hbehind
    obtain ⟨contact, hcontact⟩ := make_contact_ok hlength (decode (data.extract (pos + 16) (pos + 16 + 4)))
      (decode (data.extract (pos + 16 + 4) (pos + 16 + 4 + 2)))
      (decode (data.extract (pos + 16 + 4 + 2) (pos + 16 + 4 + 2 + 2))) contact_version key
    have hend : pos + 16 + 4 + 2 + 2 + 1 + (record_size file_version - 25) = pos + record_size file_version := by omega
    refine Or.inl ⟨contact, ?_, ?_⟩
    · rw [bind_ok hread, bind_ok hkey, hcontact, hend]
      rfl
    · intro hzero
      have hlegacy : record_size file_version = 25 := by rw [hzero]; rfl
      have hrest := hmore hzero
      omega
  · have hlegacy : record_size file_version = 25 := by rw [hzero]; rfl
    exact Or.inr ⟨hzero, by omega, bind_error herror⟩

/-- Records that are there are read, or the last of them is refused as a legacy one at the end of the file. -/
theorem read_records_cases (count : Nat) (hfits : pos + count * record_size file_version ≤ data.length) :
    (∃ contacts after, repeatN (read_record file_version) count ⟨data, pos⟩ = .ok (contacts, after)) ∨
      ∃ message, repeatN (read_record file_version) count ⟨data, pos⟩ = .error (.NodesDatError message) := by
  induction count generalizing pos with
  | zero => exact Or.inl ⟨[], ⟨data, pos⟩, rfl⟩
  | succ count ih =>
    rw [Nat.succ_mul] at hfits
    have hfirst : pos + record_size file_version ≤ data.length := by omega
    rcases read_record_cases hfirst with ⟨contact, hread, _⟩ | ⟨_, _, herror⟩
    · have hrest : pos + record_size file_version + count * record_size file_version ≤ data.length := by omega
      rw [repeatN, bind_ok hread]
      rcases ih hrest with ⟨contacts, after, hcontacts⟩ | ⟨message, herror⟩
      · exact Or.inl ⟨contact :: contacts, after, by rw [bind_ok hcontacts]; rfl⟩
      · exact Or.inr ⟨message, bind_error herror⟩
    · exact Or.inr ⟨_, bind_error herror⟩

/-- Legacy records are refused where the last of them ends the file. -/
theorem read_legacy_records {count : Nat} (hcount : count ≠ 0) (hexact : pos + count * 25 = data.length) :
    ∃ message, repeatN (read_record 0) count ⟨data, pos⟩ = .error (.NodesDatError message) := by
  induction count generalizing pos with
  | zero => exact absurd rfl hcount
  | succ count ih =>
    rw [Nat.succ_mul] at hexact
    have hfirst : pos + record_size 0 ≤ data.length := by
      change pos + 25 ≤ data.length
      omega
    rcases read_record_cases hfirst with ⟨contact, hread, hmore⟩ | ⟨_, _, herror⟩
    · have hbehind : pos + 25 < data.length := hmore rfl
      have hrest : pos + record_size 0 + count * 25 = data.length := by
        change pos + 25 + count * 25 = data.length
        omega
      have hagain : count ≠ 0 := by omega
      obtain ⟨message, herror⟩ := ih hagain hrest
      refine ⟨message, ?_⟩
      rw [repeatN, bind_ok hread, bind_error herror]
    · exact ⟨_, bind_error herror⟩

theorem left_eq (cursor : Cursor UInt8) : left cursor = .ok (cursor.remaining, cursor) := rfl

/-- The header is read, or refused with `NodesDatError`. -/
theorem read_header_cases (data : Bytes) :
    (∃ header after, read_header ⟨data, 0⟩ = .ok (header, ⟨data, after⟩) ∧ after ≤ data.length) ∨
      ∃ message, read_header ⟨data, 0⟩ = .error (.NodesDatError message) := by
  by_cases hhint : 0 + 4 ≤ data.length
  · have hread : read_hint ⟨data, 0⟩ = .ok (decode (data.extract 0 (0 + 4)), ⟨data, 0 + 4⟩) :=
      struct_unpack_from_ok _ hhint
    rw [read_header, bind_ok hread]
    by_cases hzero : decode (data.extract 0 (0 + 4)) = 0
    · rw [if_pos hzero, bind_ok (left_eq _)]
      by_cases hversion : Cursor.remaining ⟨data, 0 + 4⟩ ≥ 4
      · have hword : 0 + 4 + 4 ≤ data.length := by
          change data.length - (0 + 4) ≥ 4 at hversion
          omega
        rw [if_pos hversion, bind_ok (unpack_ok 4 hword)]
        split_ifs
        · rw [bind_ok (left_eq _)]
          by_cases hshort : Cursor.remaining ⟨data, 0 + 4 + 4⟩ < 4
          · rw [if_pos hshort]
            exact Or.inr ⟨_, rfl⟩
          · have hcount : 0 + 4 + 4 + 4 ≤ data.length := by
              change ¬data.length - (0 + 4 + 4) < 4 at hshort
              omega
            rw [if_neg hshort, bind_ok (unpack_ok 4 hcount)]
            exact Or.inl ⟨_, _, rfl, hcount⟩
        · exact Or.inr ⟨_, rfl⟩
      · rw [if_neg hversion]
        exact Or.inl ⟨_, _, rfl, hhint⟩
    · rw [if_neg hzero]
      exact Or.inl ⟨_, _, rfl, hhint⟩
  · have hread : read_hint ⟨data, 0⟩ =
        .error (.NodesDatError s!"truncated nodes.dat header: {unpack_message 4 ⟨data, 0⟩}") :=
      struct_unpack_from_error _ (Nat.not_le.mp hhint)
    exact Or.inr ⟨_, bind_error hread⟩

/-- Behind the header the records are read, unless the file is too short for what it declares. -/
theorem read_nodes_of_header {version count after : Nat}
    (hheader : read_header ⟨data, 0⟩ = .ok ((version, count), ⟨data, after⟩)) (hafter : after ≤ data.length) :
    (after + count * record_size version > data.length →
        ∃ message, read_nodes ⟨data, 0⟩ = .error (.NodesDatError message)) ∧
      (after + count * record_size version ≤ data.length →
        read_nodes ⟨data, 0⟩ =
          (List.reduceOption <$> repeatN (read_record version) count : NodesRead _) ⟨data, after⟩) := by
  have hremaining : Cursor.remaining ⟨data, after⟩ = data.length - after := rfl
  rw [read_nodes, bind_ok hheader]
  dsimp only
  rw [bind_ok (left_eq _), hremaining]
  constructor
  · intro hlong
    rw [if_pos (by omega)]
    exact ⟨_, rfl⟩
  · intro hfits
    rw [if_neg (by omega)]

/-- Every byte string is parsed or refused with `NodesDatError`, and one that is too short for the records
that it declares is refused. -/
theorem parse_nodes_dat_cases (data : Bytes) :
    ((∃ contacts, _parse_nodes_dat data = .ok contacts) ∨
        ∃ message, _parse_nodes_dat data = .error (.NodesDatError message)) ∧
      ∀ version count after, read_header ⟨data, 0⟩ = .ok ((version, count), ⟨data, after⟩) →
        after + count * record_size version > data.length →
          ∃ message, _parse_nodes_dat data = .error (.NodesDatError message) := by
  rcases read_header_cases data with ⟨⟨version, count⟩, after, hheader, hafter⟩ | ⟨message, herror⟩
  · obtain ⟨hlong, hfits⟩ := read_nodes_of_header hheader hafter
    have hshort : after + count * record_size version > data.length →
        ∃ message, _parse_nodes_dat data = .error (.NodesDatError message) := by
      intro hmissing
      obtain ⟨message, herror⟩ := hlong hmissing
      exact ⟨message, by rw [_parse_nodes_dat, herror]⟩
    constructor
    · by_cases hmissing : after + count * record_size version > data.length
      · exact Or.inr (hshort hmissing)
      · have hread := hfits (Nat.not_lt.mp hmissing)
        rcases read_records_cases count (Nat.not_lt.mp hmissing) with ⟨contacts, last, hcontacts⟩ | ⟨message, herror⟩
        · refine Or.inl ⟨contacts.reduceOption, ?_⟩
          rw [_parse_nodes_dat, hread]
          simp only [Functor.map, StateT.map, hcontacts]
          rfl
        · refine Or.inr ⟨message, ?_⟩
          rw [_parse_nodes_dat, hread]
          simp only [Functor.map, StateT.map, herror]
          rfl
    · intro version' count' after' hheader'
      rw [hheader, Except.ok.injEq, Prod.mk.injEq, Prod.mk.injEq, Cursor.mk.injEq] at hheader'
      obtain ⟨⟨rfl, rfl⟩, _, rfl⟩ := hheader'
      exact hshort
  · refine ⟨Or.inr ⟨message, by rw [_parse_nodes_dat, read_nodes, bind_error herror]⟩, ?_⟩
    intro version count after hheader
    rw [herror] at hheader
    cases hheader

end Present

section Exact

variable {file_version : Nat}

theorem reads_hint {value : Nat} (hfits : value < 256 ^ 4) : Reads read_hint (encode 4 value) value :=
  reads_struct_unpack_from _ hfits

/-- The header of an image is read in front of anything. -/
theorem read_header_image {count : Nat} (hversion : file_version ≤ 3) (hcount : count < 256 ^ 4)
    (hlegacy : file_version = 0 → count ≠ 0) (rest : Bytes) :
    read_header ⟨nodes_header file_version count ++ rest, 0⟩ =
      .ok ((file_version, count), ⟨nodes_header file_version count ++ rest, (nodes_header file_version count).length⟩) := by
  by_cases hzero : file_version = 0
  · rw [nodes_header, if_pos hzero, read_header, bind_ok ((reads_hint hcount).run rest), if_neg (hlegacy hzero), hzero]
    rfl
  have hfits : file_version < 256 ^ 4 := by omega
  have hnull : (0 : Nat) < 256 ^ 4 := by decide
  have hsecond := reads_unpack hfits (encode 4 0) (encode 4 count ++ rest)
  have hthird := reads_unpack hcount (encode 4 0 ++ encode 4 file_version) rest
  rw [List.append_assoc] at hthird
  have hknown : file_version = 1 ∨ file_version = 2 ∨ file_version = 3 := by omega
  rw [nodes_header, if_neg hzero, List.append_assoc, List.append_assoc, read_header,
    bind_ok ((reads_hint hnull).run _), if_pos rfl, bind_ok (left_eq _)]
  have hbehind : Cursor.remaining
      ⟨encode 4 0 ++ (encode 4 file_version ++ (encode 4 count ++ rest)), (encode 4 0).length⟩ ≥ 4 := by
    simp only [Cursor.remaining, List.length_append, length_encode]
    omega
  have hlast : ¬Cursor.remaining ⟨encode 4 0 ++ (encode 4 file_version ++ (encode 4 count ++ rest)),
      (encode 4 0 ++ encode 4 file_version).length⟩ < 4 := by
    simp only [Cursor.remaining, List.length_append, length_encode]
    omega
  rw [if_pos hbehind, bind_ok hsecond, if_pos hknown, bind_ok (left_eq _), if_neg hlast, bind_ok hthird,
    ← List.append_assoc (encode 4 0)]
  rfl

theorem length_record_bytes (contact : StoredContact) :
    (contact.record_bytes file_version).length = record_size file_version := by
  rw [StoredContact.record_bytes, StoredContact.key_bytes, record_size]
  by_cases hkey : file_version ≥ 2
  · rw [if_pos hkey, if_neg (by omega)]
    simp [contact.length_kad_id]
  · rw [if_neg hkey, if_pos (by omega)]
    simp [contact.length_kad_id]

theorem length_records (contacts : List StoredContact) :
    (contacts.map (StoredContact.record_bytes file_version)).flatten.length = contacts.length * record_size file_version := by
  induction contacts with
  | nil => simp
  | cons contact rest ih =>
    rw [List.map_cons, List.flatten_cons, List.length_append, ih, length_record_bytes, List.length_cons, Nat.succ_mul,
      Nat.add_comm]

/-- An image is read behind its header as its records. -/
theorem read_nodes_image {contacts : List StoredContact} (hversion : file_version ≤ 3)
    (hcount : contacts.length < 256 ^ 4) (hlegacy : file_version = 0 → contacts ≠ []) :
    read_nodes ⟨nodes_image file_version contacts, 0⟩ =
      (List.reduceOption <$> repeatN (read_record file_version) contacts.length : NodesRead _)
        ⟨nodes_image file_version contacts, (nodes_header file_version contacts.length).length⟩ := by
  have hheader := read_header_image hversion hcount
    (fun hzero hnil => hlegacy hzero (List.eq_nil_of_length_eq_zero hnil))
    (contacts.map (StoredContact.record_bytes file_version)).flatten
  have hlength : (nodes_image file_version contacts).length =
      (nodes_header file_version contacts.length).length + contacts.length * record_size file_version := by
    rw [nodes_image, List.length_append, length_records]
  exact (read_nodes_of_header hheader (by rw [← nodes_image, hlength]; omega)).2
    (by rw [← nodes_image, hlength])

/-- Images from version 1 on are parsed into their contacts. -/
theorem parse_nodes_image {contacts : List StoredContact} (hpositive : 1 ≤ file_version) (hversion : file_version ≤ 3)
    (hcount : contacts.length < 256 ^ 4) :
    _parse_nodes_dat (nodes_image file_version contacts) =
      .ok (contacts.filterMap (StoredContact.loaded file_version)) := by
  have hall : Reads (repeatN (read_record file_version) contacts.length)
      (contacts.map (StoredContact.record_bytes file_version)).flatten (contacts.map (StoredContact.loaded file_version)) :=
    Reads.repeatN_map fun contact _ => reads_record hpositive contact
  have hrecords := hall.map (f := List.reduceOption) (nodes_header file_version contacts.length) []
  rw [List.append_nil] at hrecords
  have hread := read_nodes_image hversion hcount fun hzero => absurd hpositive (by omega)
  rw [nodes_image] at hread
  have hloaded : (contacts.map (StoredContact.loaded file_version)).reduceOption =
      contacts.filterMap (StoredContact.loaded file_version) := List.filterMap_map
  rw [_parse_nodes_dat, nodes_image, hread, hrecords, hloaded]

/-- Images of the legacy version are refused. -/
theorem parse_legacy_image {contacts : List StoredContact} (hcount : contacts.length < 256 ^ 4) (hcontacts : contacts ≠ []) :
    ∃ message, _parse_nodes_dat (nodes_image 0 contacts) = .error (.NodesDatError message) := by
  have hread := read_nodes_image (Nat.zero_le 3) hcount fun _ => hcontacts
  have hlength : (nodes_header 0 contacts.length).length + contacts.length * 25 = (nodes_image 0 contacts).length := by
    rw [nodes_image, List.length_append, length_records]
    rfl
  obtain ⟨message, herror⟩ :=
    read_legacy_records (fun hnil => hcontacts (List.eq_nil_of_length_eq_zero hnil)) hlength
  refine ⟨message, ?_⟩
  rw [_parse_nodes_dat, hread]
  simp only [Functor.map, StateT.map, herror]
  rfl

end Exact

/-- The image of some contacts is parsed into those with a UDP port in every version but the legacy one;
every byte string is parsed or refused with `NodesDatError`, and refused where a record is missing. -/
theorem parse_nodes_dat_image_iff {file_version : Nat} {contacts : List StoredContact} (hversion : file_version ≤ 3)
    (hcount : contacts.length < 2 ^ 32) (hlegacy : file_version = 0 → contacts ≠ []) :
    ((_parse_nodes_dat (nodes_image file_version contacts) =
          .ok (contacts.filterMap (StoredContact.loaded file_version)) ∧
        ∀ data, ((∃ nodes, _parse_nodes_dat data = .ok nodes) ∨
            ∃ message, _parse_nodes_dat data = .error (.NodesDatError message)) ∧
          ∀ version count after, read_header ⟨data, 0⟩ = .ok ((version, count), ⟨data, after⟩) →
            after + count * record_size version > data.length →
              ∃ message, _parse_nodes_dat data = .error (.NodesDatError message)) ↔
      file_version ≠ 0) := by
  constructor
  · rintro ⟨hparsed, _⟩ rfl
    obtain ⟨message, herror⟩ := parse_legacy_image hcount (hlegacy rfl)
    rw [herror] at hparsed
    cases hparsed
  · intro hpositive
    exact ⟨parse_nodes_image (by omega) hversion hcount, parse_nodes_dat_cases⟩

def sampleStored : StoredContact where
  kad_id := List.replicate 16 1
  ip := 0x01020304
  udp_port := 4672
  tcp_port := 4662
  contact_version := 8
  udp_key := 7
  verified_flag := 1
  length_kad_id := List.length_replicate

theorem parse_nodes_dat_image_iff_sample :
    ((_parse_nodes_dat (nodes_image 2 [sampleStored]) = .ok ([sampleStored].filterMap (StoredContact.loaded 2)) ∧
        ∀ data, ((∃ nodes, _parse_nodes_dat data = .ok nodes) ∨
            ∃ message, _parse_nodes_dat data = .error (.NodesDatError message)) ∧
          ∀ version count after, read_header ⟨data, 0⟩ = .ok ((version, count), ⟨data, after⟩) →
            after + count * record_size version > data.length →
              ∃ message, _parse_nodes_dat data = .error (.NodesDatError message)) ↔
      2 ≠ 0) :=
  parse_nodes_dat_image_iff (by decide) (by decide) (fun hzero => absurd hzero (by decide))

/-- A legacy file with one contact. -/
theorem legacy_image_refused :
    _parse_nodes_dat (nodes_image 0 [sampleStored]) = .error (.NodesDatError "truncated nodes.dat in legacy record") ∧
      [sampleStored].filterMap (StoredContact.loaded 0) ≠ [] := by
  constructor
  · rfl
  · decide

end amuled.kad
