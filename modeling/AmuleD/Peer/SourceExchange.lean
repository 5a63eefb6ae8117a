import Mathlib.Data.List.Forall2
import AmuleD.Codec.Struct

open littleendian

namespace amuled.peer

def MAX_ANSWER_SOURCES : Nat := 500

/-- One source of a source-exchange answer. -/
structure SXSource where
  client_id : Nat
  port : Nat
  server_ip : Nat
  server_port : Nat
  user_hash : Option Bytes
  connect_options : Nat
  deriving DecidableEq, Repr

/-- The client id on the wire: from version 3 on a high id is written in the
order of its dotted form. -/
def sx_ident (source : SXSource) (version : Nat) : Bytes :=
  if version ≥ 3 ∧ source.client_id ≥ 16000000 then
    (encode 4 (source.client_id % 2 ^ 32)).reverse
  else
    encode 4 (source.client_id % 2 ^ 32)

/-- `bytes(source.user_hash) if source.user_hash else b"\x00" * 16`. -/
def SXSource.hash_or_zeros (source : SXSource) : Bytes :=
  match source.user_hash with
  | none | some [] => List.replicate 16 0
  | some user_hash => user_hash

def sx_entry (source : SXSource) (version : Nat) : Bytes :=
  let entry := sx_ident source version ++ encode 2 (source.port % 2 ^ 16)
  let entry := entry ++ (encode 4 (source.server_ip % 2 ^ 32) ++ encode 2 (source.server_port % 2 ^ 16))
  let entry := entry ++ if version ≥ 2 then source.hash_or_zeros else []
  entry ++ if version ≥ 4 then [UInt8.ofNat (source.connect_options % 256)] else []

/-- The version that an answer is built for: `max(1, min(4, version))`. -/
def clamp_version (version : Int) : Nat := (max 1 (min 4 version)).toNat

def build_answer_sources2 (version : Int) (file_hash : Bytes) (sources : List SXSource) :
    Except Exc Bytes := do
  if file_hash.length ≠ 16 then
    throw (.PeerCodecError "file hash must be 16 bytes")
  let version := clamp_version version
  let count ← struct_pack 2 sources.length
  let entries := (sources.take MAX_ANSWER_SOURCES).map fun source => sx_entry source version
  pure (UInt8.ofNat version :: (file_hash ++ (count ++ entries.flatten)))

/-- The byte order in which `_parse_sx_entry` reads the client id. -/
def unpack_ident (version : Nat) (buffer : Bytes) : Except Exc Nat :=
  if version ≥ 3 then struct_unpack_be 4 buffer else struct_unpack 4 buffer

/-- `_parse_sx_entry`, on the payload from its offset on: the source, and the
payload from the offset it returns on. -/
def parse_sx_entry (data : Bytes) (version : Nat) : Except Exc (SXSource × Bytes) := do
  let client_id ← unpack_ident version (data.take 4)
  let port ← struct_unpack 2 ((data.drop 4).take 2)
  let server_ip ← struct_unpack 4 ((data.drop 6).take 4)
  let server_port ← struct_unpack 2 ((data.drop 10).take 2)
  let data := data.drop 12
  let user_hash := if version ≥ 2 then some (data.take 16) else none
  let data := if version ≥ 2 then data.drop 16 else data
  if version ≥ 4 then
    match data with
    | [] => throw .IndexError
    | connect_options :: data =>
      pure (⟨client_id, port, server_ip, server_port, user_hash, connect_options.toNat⟩, data)
  else
    pure (⟨client_id, port, server_ip, server_port, user_hash, 0⟩, data)

/-- The loop of `parse_answer_sources2`. -/
def parse_sx_entries (version : Nat) : Nat → Bytes → Except Exc (List SXSource)
  | 0, _ => pure []
  | count + 1, data => do
    let (source, data) ← parse_sx_entry data version
    let sources ← parse_sx_entries version count data
    pure (source :: sources)

def parse_answer_sources2 (payload : Bytes) : Except Exc (Nat × Bytes × List SXSource) :=
  match payload with
  | [] => throw (.PeerCodecError s!"malformed OP_ANSWERSOURCES2: {payload.length} bytes")
  | version :: rest => do
    if payload.length < 19 then
      throw (.PeerCodecError s!"malformed OP_ANSWERSOURCES2: {payload.length} bytes")
    let count ← struct_unpack 2 ((rest.drop 16).take 2)
    let sources ← parse_sx_entries version.toNat count (rest.drop 18)
    pure (version.toNat, rest.take 16, sources)

/-- The older answer has no version byte: the caller says for which version its entries are. -/
def parse_answer_sources (payload : Bytes) (version : Nat) : Except Exc (Nat × Bytes × List SXSource) := do
  if payload.length < 18 then
    throw (.PeerCodecError s!"malformed OP_ANSWERSOURCES: {payload.length} bytes")
  let count ← struct_unpack 2 ((payload.drop 16).take 2)
  let sources ← parse_sx_entries version count (payload.drop 18)
  pure (version, payload.take 16, sources)

/-- The source that the parser makes of an entry. -/
def received (source : SXSource) (version : Nat) : SXSource where
  client_id := if version ≥ 3 then decode (sx_ident source version).reverse
    else decode (sx_ident source version)
  port := source.port % 2 ^ 16
  server_ip := source.server_ip % 2 ^ 32
  server_port := source.server_port % 2 ^ 16
  user_hash := if version ≥ 2 then some source.hash_or_zeros else none
  connect_options := if version ≥ 4 then source.connect_options % 256 else 0

section Entries

variable {source : SXSource} {version : Nat}

@[simp] theorem length_sx_ident (source : SXSource) (version : Nat) :
    (sx_ident source version).length = 4 := by
  unfold sx_ident
  split <;> simp

/-- The user hash, where there is one, has sixteen bytes. -/
def SXSource.HashFits (source : SXSource) : Prop :=
  ∀ user_hash, source.user_hash = some user_hash → user_hash.length = 16

theorem SXSource.HashFits.length_hash_or_zeros (h : source.HashFits) :
    source.hash_or_zeros.length = 16 := by
  unfold hash_or_zeros
  split
  · exact List.length_replicate
  · exact List.length_replicate
  · rename_i user_hash _ huser
    exact h user_hash huser

/-- The slices of an entry at the offsets the parser uses. -/
theorem entry_slices {ident port server_ip server_port : Bytes} (hident : ident.length = 4)
    (hport : port.length = 2) (hserver_ip : server_ip.length = 4)
    (hserver_port : server_port.length = 2) (tail : Bytes) :
    let data := ident ++ (port ++ (server_ip ++ (server_port ++ tail)))
    data.take 4 = ident ∧ (data.drop 4).take 2 = port ∧ (data.drop 6).take 4 = server_ip ∧
      (data.drop 10).take 2 = server_port ∧ data.drop 12 = tail := by
  intro data
  have hdrop4 : data.drop 4 = port ++ (server_ip ++ (server_port ++ tail)) := List.drop_left' hident
  have hdrop6 : data.drop 6 = server_ip ++ (server_port ++ tail) := by
    rw [← List.drop_drop (i := 2) (j := 4), hdrop4, List.drop_left' hport]
  have hdrop10 : data.drop 10 = server_port ++ tail := by
    rw [← List.drop_drop (i := 4) (j := 6), hdrop6, List.drop_left' hserver_ip]
  have hdrop12 : data.drop 12 = tail := by
    rw [← List.drop_drop (i := 2) (j := 10), hdrop10, List.drop_left' hserver_port]
  rw [hdrop4, hdrop6, hdrop10]
  exact ⟨List.take_left' hident, List.take_left' hport, List.take_left' hserver_ip,
    List.take_left' hserver_port, hdrop12⟩

theorem struct_unpack_encode_mod {width bound : Nat} (hbound : bound = 256 ^ width) (value : Nat) :
    struct_unpack width (encode width (value % bound)) = .ok (value % bound) := by
  rw [struct_unpack_of_length (length_encode _ _), hbound,
    decode_encode (Nat.mod_lt _ (Nat.pow_pos (by decide)))]

/-- The parser reads one entry and stops where the entry ends. -/
theorem parse_sx_entry_append (h : source.HashFits) (rest : Bytes) :
    parse_sx_entry (sx_entry source version ++ rest) version
      = .ok (received source version, rest) := by
  have hident := length_sx_ident source version
  have hid : unpack_ident version (sx_ident source version)
      = .ok (received source version).client_id := by
    rw [unpack_ident, received, struct_unpack_be, struct_unpack_of_length (by simp),
      struct_unpack_of_length hident]
    split <;> rfl
  obtain ⟨hslice_id, hslice_port, hslice_ip, hslice_server_port, htail⟩ := entry_slices hident
    (length_encode 2 (source.port % 2 ^ 16)) (length_encode 4 (source.server_ip % 2 ^ 32))
    (length_encode 2 (source.server_port % 2 ^ 16))
    ((if version ≥ 2 then source.hash_or_zeros else []) ++
      ((if version ≥ 4 then [UInt8.ofNat (source.connect_options % 256)] else []) ++ rest))
  simp only [sx_entry, List.append_assoc, parse_sx_entry, hslice_id, hslice_port, hslice_ip,
    hslice_server_port, htail, hid, ok_bind]
  have hshort : 2 ^ 16 = 256 ^ 2 := by decide
  have hlong : 2 ^ 32 = 256 ^ 4 := by decide
  rw [struct_unpack_encode_mod hshort, ok_bind, struct_unpack_encode_mod hlong, ok_bind,
    struct_unpack_encode_mod hshort, ok_bind]
  have hhash := h.length_hash_or_zeros
  by_cases hsecond : version ≥ 2
  · simp only [if_pos hsecond, List.take_left' hhash, List.drop_left' hhash]
    by_cases hfourth : version ≥ 4
    · simp [hsecond, hfourth, received]
    · simp [hsecond, hfourth, received]
  · have hfourth : ¬ version ≥ 4 := by omega
    simp [hsecond, hfourth, received]

@[simp] theorem parse_sx_entry_nil (version : Nat) :
    parse_sx_entry [] version = .error .StructError := by
  by_cases hthird : version ≥ 3
  · simp [parse_sx_entry, unpack_ident, struct_unpack_be, struct_unpack, hthird]
  · simp [parse_sx_entry, unpack_ident, struct_unpack, hthird]

/-- The loop reads the entries of the sources and goes on behind them. -/
theorem parse_sx_entries_append {sources : List SXSource} (h : ∀ source ∈ sources, source.HashFits)
    (version extra : Nat) (rest : Bytes) :
    parse_sx_entries version (sources.length + extra)
        ((sources.map fun source => sx_entry source version).flatten ++ rest)
      = (parse_sx_entries version extra rest).map
          ((sources.map fun source => received source version) ++ ·) := by
  induction sources with
  | nil =>
    rw [List.length_nil, Nat.zero_add, List.map_nil, List.flatten_nil, List.nil_append]
    cases parse_sx_entries version extra rest <;> rfl
  | cons source sources ih =>
    rw [List.forall_mem_cons] at h
    have hcount : (source :: sources).length + extra = (sources.length + extra) + 1 := by
      rw [List.length_cons]
      omega
    rw [hcount, parse_sx_entries, List.map_cons, List.flatten_cons, List.append_assoc,
      parse_sx_entry_append h.1, ok_bind]
    simp only [ih h.2]
    cases parse_sx_entries version extra rest <;> rfl

/-- With no bytes left there is no further entry to read. -/
theorem parse_sx_entries_nil (version count : Nat) :
    parse_sx_entries version (count + 1) [] = .error .StructError := by
  rw [parse_sx_entries, parse_sx_entry_nil, error_bind]

end Entries

section RoundTrip

/-- The parsed source has the id, the port and the server of the source, and of
the rest what the version carries. -/
structure Carries (version : Nat) (source parsed : SXSource) : Prop where
  client_id : parsed.client_id = source.client_id
  port : parsed.port = source.port
  server_ip : parsed.server_ip = source.server_ip
  server_port : parsed.server_port = source.server_port
  user_hash : 2 ≤ version → parsed.user_hash = some source.hash_or_zeros
  connect_options : 4 ≤ version → parsed.connect_options = source.connect_options

/-- The fields of a source fit their widths, and its id is written in the byte
order in which it is read, or reads the same in both. -/
structure WireExact (version : Nat) (source : SXSource) : Prop where
  client_id : source.client_id < 2 ^ 32
  order : version < 3 ∨ 16000000 ≤ source.client_id ∨
    (encode 4 source.client_id).reverse = encode 4 source.client_id
  port : source.port < 2 ^ 16
  server_ip : source.server_ip < 2 ^ 32
  server_port : source.server_port < 2 ^ 16
  connect_options : 4 ≤ version → source.connect_options < 256

variable {version : Nat} {source : SXSource}

/-- A low id survives the other byte order only if its bytes are symmetric. -/
theorem decode_reverse_encode_iff {value : Nat} (hfits : value < 2 ^ 32) :
    decode (encode 4 value).reverse = value ↔ (encode 4 value).reverse = encode 4 value := by
  constructor
  · intro hdecode
    have hencode := encode_decode (encode 4 value).reverse
    rw [List.length_reverse, length_encode, hdecode] at hencode
    exact hencode.symm
  · intro hsame
    rw [hsame]
    exact decode_encode hfits

theorem received_client_id_eq_iff : (received source version).client_id = source.client_id ↔
    source.client_id < 2 ^ 32 ∧ (version < 3 ∨ 16000000 ≤ source.client_id ∨
      (encode 4 source.client_id).reverse = encode 4 source.client_id) := by
  have hmod : decode (encode 4 (source.client_id % 2 ^ 32)) = source.client_id % 2 ^ 32 :=
    decode_encode (Nat.mod_lt _ (by decide))
  by_cases hthird : version ≥ 3
  · by_cases hhigh : source.client_id ≥ 16000000
    · simp only [received, sx_ident, if_pos hthird, List.reverse_reverse, hmod, hhigh,
        true_or, or_true, and_true]
      omega
    · have hfits : source.client_id < 2 ^ 32 := by omega
      simp only [received, sx_ident, if_pos hthird, if_neg (fun h => hhigh (And.right h)),
        Nat.mod_eq_of_lt hfits, decode_reverse_encode_iff hfits, hfits, true_and]
      have hversion : ¬ version < 3 := by omega
      have hlow : ¬ 16000000 ≤ source.client_id := hhigh
      simp only [hversion, hlow, false_or]
  · simp only [received, sx_ident, if_neg hthird, if_neg (fun h => hthird (And.left h)), hmod]
    omega

theorem carries_received_iff : Carries version source (received source version) ↔
    WireExact version source := by
  constructor
  · intro h
    obtain ⟨hclient_id, horder⟩ := received_client_id_eq_iff.mp h.client_id
    have hport := h.port
    have hserver_ip := h.server_ip
    have hserver_port := h.server_port
    simp only [received] at hport hserver_ip hserver_port
    refine ⟨hclient_id, horder, by omega, by omega, by omega, ?_⟩
    intro hfourth
    have hoptions := h.connect_options hfourth
    simp only [received, if_pos hfourth] at hoptions
    omega
  · intro h
    refine ⟨received_client_id_eq_iff.mpr ⟨h.client_id, h.order⟩, Nat.mod_eq_of_lt h.port,
      Nat.mod_eq_of_lt h.server_ip, Nat.mod_eq_of_lt h.server_port, ?_, ?_⟩
    · exact fun hsecond => if_pos hsecond
    · intro hfourth
      exact (if_pos hfourth).trans (Nat.mod_eq_of_lt (h.connect_options hfourth))

/-- The answer is read back with the first 500 sources as its version carries
them. -/
def RoundTrips (version : Int) (file_hash : Bytes) (sources : List SXSource) : Prop :=
  ∃ payload parsed, build_answer_sources2 version file_hash sources = .ok payload ∧
    parse_answer_sources2 payload = .ok (clamp_version version, file_hash, parsed) ∧
    List.Forall₂ (Carries (clamp_version version)) (sources.take MAX_ANSWER_SOURCES) parsed

theorem clamp_version_lt (version : Int) : clamp_version version < 256 := by
  unfold clamp_version
  omega

theorem forall₂_carries_iff {version : Nat} {sources : List SXSource} :
    List.Forall₂ (Carries version) sources (sources.map fun source => received source version) ↔
      ∀ source ∈ sources, WireExact version source := by
  rw [List.forall₂_map_right_iff, List.forall₂_same]
  simp only [carries_received_iff]

/-- The entries of an answer stand behind its hash and their count. -/
theorem drop_entries {file_hash : Bytes} (hhash : file_hash.length = 16) (count : Nat) (entries : Bytes) :
    (file_hash ++ (encode 2 count ++ entries)).drop 18 = entries := by
  rw [← List.append_assoc]
  exact List.drop_left' (by simp [hhash])

/-- The parser reads the entries that were built, and goes on for those that were left out. -/
theorem parse_taken_entries {sources : List SXSource} (husers : ∀ source ∈ sources, source.HashFits)
    (version : Nat) :
    parse_sx_entries version sources.length ((sources.take MAX_ANSWER_SOURCES).map (sx_entry · version)).flatten =
      (parse_sx_entries version (sources.length - MAX_ANSWER_SOURCES) []).map
        ((sources.take MAX_ANSWER_SOURCES).map (received · version) ++ ·) := by
  have htaken : sources.length =
      (sources.take MAX_ANSWER_SOURCES).length + (sources.length - MAX_ANSWER_SOURCES) := by
    rw [List.length_take]
    omega
  have htaken_users : ∀ source ∈ sources.take MAX_ANSWER_SOURCES, source.HashFits :=
    fun source hsource => husers source (List.mem_of_mem_take hsource)
  have hentries := parse_sx_entries_append htaken_users version (sources.length - MAX_ANSWER_SOURCES) []
  rw [List.append_nil, ← htaken] at hentries
  exact hentries

/-- What the parser makes of an answer with a count that fits its field. -/
theorem parse_answer_sources2_build {version : Int} {file_hash payload : Bytes}
    {sources : List SXSource} (hhash : file_hash.length = 16)
    (husers : ∀ source ∈ sources, source.HashFits)
    (hbuild : build_answer_sources2 version file_hash sources = .ok payload) :
    parse_answer_sources2 payload =
      (parse_sx_entries (clamp_version version) (sources.length - MAX_ANSWER_SOURCES) []).map
        fun parsed => (clamp_version version, file_hash,
          (sources.take MAX_ANSWER_SOURCES).map (received · (clamp_version version)) ++ parsed) := by
  rw [build_answer_sources2, if_neg (not_not.mpr hhash)] at hbuild
  obtain ⟨count, hcount, hbuild⟩ := bind_eq_ok_iff.mp hbuild
  obtain ⟨hfits, rfl⟩ := struct_pack_eq_ok_iff.mp hcount
  obtain rfl := Except.ok.inj hbuild
  have hversion : (UInt8.ofNat (clamp_version version)).toNat = clamp_version version := by
    rw [UInt8.toNat_ofNat', Nat.mod_eq_of_lt (clamp_version_lt version)]
  have hlong : ¬ (UInt8.ofNat (clamp_version version) :: (file_hash ++ (encode 2 sources.length ++
      ((sources.take MAX_ANSWER_SOURCES).map (sx_entry · (clamp_version version))).flatten))).length
      < 19 := by
    simp only [List.length_cons, List.length_append, hhash, length_encode]
    omega
  have hcount_slice : struct_unpack 2 ((encode 2 sources.length ++
      ((sources.take MAX_ANSWER_SOURCES).map (sx_entry · (clamp_version version))).flatten).take 2)
      = .ok sources.length := struct_unpack_encode hfits _
  simp only [parse_answer_sources2, if_neg hlong, List.drop_left' hhash, hcount_slice, ok_bind,
    List.take_left' hhash, hversion, drop_entries hhash, parse_taken_entries husers]
  cases parse_sx_entries (clamp_version version) (sources.length - MAX_ANSWER_SOURCES) [] <;> rfl

/-- An answer that is read back has few enough sources, and exact ones. -/
theorem RoundTrips.exact {version : Int} {file_hash : Bytes} {sources : List SXSource}
    (hround : RoundTrips version file_hash sources) (hhash : file_hash.length = 16)
    (husers : ∀ source ∈ sources, source.HashFits) :
    sources.length ≤ MAX_ANSWER_SOURCES ∧
      ∀ source ∈ sources, WireExact (clamp_version version) source := by
  obtain ⟨payload, parsed, hbuild, hparse, hcarries⟩ := hround
  rw [parse_answer_sources2_build hhash husers hbuild] at hparse
  by_cases hfew : sources.length ≤ MAX_ANSWER_SOURCES
  · rw [Nat.sub_eq_zero_of_le hfew, parse_sx_entries] at hparse
    simp only [pure_eq_ok, Except.map, List.append_nil, Except.ok.injEq, Prod.mk.injEq,
      true_and] at hparse
    rw [← hparse, forall₂_carries_iff, List.take_of_length_le hfew] at hcarries
    exact ⟨hfew, hcarries⟩
  · obtain ⟨extra, hextra⟩ : ∃ extra, sources.length - MAX_ANSWER_SOURCES = extra + 1 :=
      ⟨sources.length - MAX_ANSWER_SOURCES - 1, by omega⟩
    rw [hextra, parse_sx_entries_nil] at hparse
    cases hparse

/-- The count of up to 500 sources fits its field. -/
theorem build_answer_sources2_ok (version : Int) {file_hash : Bytes} {sources : List SXSource}
    (hhash : file_hash.length = 16) (hfew : sources.length ≤ MAX_ANSWER_SOURCES) :
    ∃ payload, build_answer_sources2 version file_hash sources = .ok payload := by
  have hfits : sources.length < 256 ^ 2 := by
    rw [MAX_ANSWER_SOURCES] at hfew
    omega
  rw [build_answer_sources2, if_neg (not_not.mpr hhash), struct_pack_eq_ok_iff.mpr ⟨hfits, rfl⟩]
  exact ⟨_, rfl⟩

/-- A source-exchange answer is read back exactly when it has at most 500
sources, whose fields fit and whose ids have the parser's byte order. -/
theorem answer_sources2_round_trips_iff (version : Int) {file_hash : Bytes}
    {sources : List SXSource} (hhash : file_hash.length = 16)
    (husers : ∀ source ∈ sources, source.HashFits) :
    RoundTrips version file_hash sources ↔ sources.length ≤ MAX_ANSWER_SOURCES ∧
      ∀ source ∈ sources, WireExact (clamp_version version) source := by
  constructor
  · intro hround
    exact hround.exact hhash husers
  · rintro ⟨hfew, hexact⟩
    obtain ⟨payload, hbuild⟩ := build_answer_sources2_ok version hhash hfew
    have hparse := parse_answer_sources2_build hhash husers hbuild
    rw [Nat.sub_eq_zero_of_le hfew, parse_sx_entries] at hparse
    simp only [pure_eq_ok, Except.map, List.append_nil] at hparse
    refine ⟨payload, _, hbuild, hparse, ?_⟩
    rw [forall₂_carries_iff, List.take_of_length_le hfew]
    exact hexact

/-- A source with a given id, and without a user hash. -/
def sampleSource (client_id : Nat) : SXSource := ⟨client_id, 4662, 0, 0, none, 0⟩

theorem hashFits_sampleSource (client_id : Nat) :
    ∀ source ∈ [sampleSource client_id], source.HashFits := by
  simp [SXSource.HashFits, sampleSource]

theorem high_id_round_trips : RoundTrips 4 (List.replicate 16 0) [sampleSource 3232235777] := by
  refine (answer_sources2_round_trips_iff 4 List.length_replicate
    (hashFits_sampleSource 3232235777)).mpr ⟨by decide, ?_⟩
  intro source hsource
  obtain rfl := List.mem_singleton.mp hsource
  exact ⟨by decide, by decide, by decide, by decide, by decide, by decide⟩

/-- A low id is written in one byte order and read in the other. -/
theorem low_id_does_not_round_trip : ¬ RoundTrips 3 (List.replicate 16 0) [sampleSource 1] := by
  intro hround
  have hexact := (hround.exact List.length_replicate (hashFits_sampleSource 1)).2
  have horder := (hexact (sampleSource 1) List.mem_cons_self).order
  revert horder
  decide

end RoundTrip

end amuled.peer
