import AmuleD.Peer.PreEngine

open littleendian
open amuled.aich amuled.security
open amuled.upload (SharedFile)

namespace amuled.peer.pre_engine

/-- The requests that `run` answers with something about one file. -/
inductive Question where
  | sources2
  | sources
  | file_name
  | hash_set
  deriving DecidableEq

/-- Which request a packet answers, and for which hash. -/
def answered (packet : Packet) : Option (Question × Bytes) :=
  if packet.opcode = ANSWERSOURCES2 then some (.sources2, packet.payload.extract 1 17)
  else if packet.opcode = ANSWERSOURCES then some (.sources, packet.payload.take 16)
  else if packet.opcode = REQFILENAMEANSWER then some (.file_name, packet.payload.take 16)
  else if packet.opcode = HASHSETANSWER then some (.hash_set, packet.payload.extract 2 18)
  else none

section Asked

variable (services : Services) (surroundings : Surroundings) (tags : List Ed2kTag)

/-- The version and the hash of a request in the second version that can be answered: it comes from a peer that
exchanges sources, and there are some. -/
def asks_sources2 (payload : Bytes) : Option (Nat × Bytes) :=
  match parse_request_sources2 payload with
  | .error _ => none
  | .ok (req_version, _, req_hash) =>
    if services.has_source_provider ∧ (req_version > 0 ∨ miso1_source_exchange tags > 1) ∧
        surroundings.sources req_hash ≠ [] then some (req_version, req_hash)
    else none

/-- The hash of a legacy request that can be answered. -/
def asks_sources (payload : Bytes) : Option Bytes :=
  match parse_request_sources payload with
  | .error _ => none
  | .ok req_hash =>
    if services.has_source_provider ∧ miso1_source_exchange tags > 1 ∧
        surroundings.sources req_hash ≠ [] then some req_hash
    else none

/-- The hash of a shared file. -/
def asks_file_name (payload : Bytes) : Option Bytes :=
  match parse_file_hash_payload payload with
  | .error _ => none
  | .ok req_hash =>
    match surroundings.resolve req_hash.val with
    | .ok (some _) => some req_hash.val
    | _ => none

/-- The hash of a shared file with chunk hashes. -/
def asks_hash_set (payload : Bytes) : Option Bytes :=
  match parse_file_hash_payload payload with
  | .error _ => none
  | .ok req_hash =>
    match surroundings.resolve req_hash.val with
    | .ok (some shared) =>
      match chunk_hashes services.md4 surroundings.disk shared with
      | .ok (_ :: _) => some req_hash.val
      | _ => none
    | _ => none

/-- What a packet asks that can be answered. -/
def asked (opcode : UInt8) (payload : Bytes) : Option (Question × Bytes) :=
  if opcode = REQUESTSOURCES2 then (asks_sources2 services surroundings tags payload).map (.sources2, ·.2)
  else if opcode = REQUESTSOURCES then (asks_sources services surroundings tags payload).map (.sources, ·)
  else if opcode = REQUESTFILENAME then (asks_file_name surroundings payload).map (.file_name, ·)
  else if opcode = HASHSETREQUEST then (asks_hash_set services surroundings payload).map (.hash_set, ·)
  else none

end Asked

/-- The answers of a branch are those to its question, and the challenge of the session stays. -/
structure Replied (locals : Locals) (question : Option (Question × Bytes)) (result : Locals × List Packet) : Prop where
  challenge_out : result.1.challenge_out = locals.challenge_out
  answers : result.2.filterMap answered = question.toList

/-- An answer is written and put into one packet. -/
theorem reply_eq_ok_iff {build : Except Exc Bytes} {protocol opcode : UInt8} {locals : Locals}
    {result : Locals × List Packet} :
    (do let answer ← build
        let answer ← send protocol opcode answer
        .ok (locals, [answer])) = .ok result ↔
      ∃ answer, build = .ok answer ∧ answer.length < MAX_PACKET_SIZE ∧
        result = (locals, [⟨protocol, opcode, answer⟩]) := by
  have hpos : 0 < MAX_PACKET_SIZE := by decide
  rw [bind_eq_ok_iff]
  constructor
  · rintro ⟨answer, hanswer, hsent⟩
    obtain ⟨packet, hpacket, hresult⟩ := bind_eq_ok_iff.mp hsent
    rw [send] at hpacket
    split at hpacket
    · cases hpacket
    · cases hpacket
      cases hresult
      exact ⟨answer, hanswer, by omega, rfl⟩
  · rintro ⟨answer, hanswer, hfits, rfl⟩
    refine ⟨answer, hanswer, ?_⟩
    rw [send, if_neg (by omega)]
    rfl

section Resolver

variable {surroundings : Surroundings} {file_hash : Bytes} {shared : Shared}

/-- A row is found under its own hash. -/
theorem file_hash_of_resolve (hresolve : surroundings.resolve file_hash = .ok (some shared)) :
    shared.file_hash = file_hash := by
  rw [Surroundings.resolve] at hresolve
  split at hresolve
  · cases hresolve
  · split at hresolve
    · cases hresolve
    · split at hresolve
      · cases hresolve
      · cases hresolve
      · split at hresolve
        · cases hresolve
        · split at hresolve
          · cases hresolve
          · cases hresolve
            rfl

end Resolver

section Sources

variable {services : Services} {surroundings : Surroundings} {tags : List Ed2kTag} {locals : Locals}
  {payload : Bytes} {result : Locals × List Packet}

/-- An answer about sources that can be written: its count fits in two bytes, and with its entries it is not
longer than a packet. -/
structure SourcesFit (head : Nat) (version : Int) (sources : List SXSource) : Prop where
  count : sources.length < 256 ^ 2
  size : head + (((sources.take MAX_ANSWER_SOURCES).map fun source =>
    sx_entry source (clamp_version version)).flatten).length < MAX_PACKET_SIZE

@[simp] theorem clamp_clamp_version (version : Int) : clamp_version (clamp_version version) = clamp_version version := by
  simp only [clamp_version]
  omega

theorem build_answer_sources2_eq_ok_iff {version : Int} {file_hash answer : Bytes} {sources : List SXSource}
    (hlength : file_hash.length = 16) :
    build_answer_sources2 version file_hash sources = .ok answer ↔ sources.length < 256 ^ 2 ∧
      answer = UInt8.ofNat (clamp_version version) :: (file_hash ++ (encode 2 sources.length ++
        ((sources.take MAX_ANSWER_SOURCES).map fun source => sx_entry source (clamp_version version)).flatten)) := by
  rw [build_answer_sources2, if_neg (not_not.mpr hlength)]
  simp only [pure_eq_ok, bind_eq_ok_iff, struct_pack_eq_ok_iff, Except.ok.injEq]
  constructor
  · rintro ⟨count, ⟨hcount, rfl⟩, hanswer⟩
    exact ⟨hcount, hanswer.symm⟩
  · rintro ⟨hcount, rfl⟩
    exact ⟨_, ⟨hcount, rfl⟩, rfl⟩

theorem build_answer_sources_eq_ok_iff {entry_version : Int} {file_hash answer : Bytes} {sources : List SXSource}
    (hlength : file_hash.length = 16) :
    build_answer_sources file_hash sources entry_version = .ok answer ↔ sources.length < 256 ^ 2 ∧
      answer = file_hash ++ (encode 2 sources.length ++ ((sources.take MAX_ANSWER_SOURCES).map fun source =>
        sx_entry source (clamp_version entry_version)).flatten) := by
  rw [build_answer_sources, if_neg (not_not.mpr hlength)]
  simp only [pure_eq_ok, bind_eq_ok_iff, struct_pack_eq_ok_iff, Except.ok.injEq]
  constructor
  · rintro ⟨count, ⟨hcount, rfl⟩, hanswer⟩
    exact ⟨hcount, hanswer.symm⟩
  · rintro ⟨hcount, rfl⟩
    exact ⟨_, ⟨hcount, rfl⟩, rfl⟩

theorem on_request_sources2_none (locals : Locals) (hnone : asks_sources2 services surroundings tags payload = none) :
    ∃ peer_sx1, on_request_sources2 services surroundings tags locals payload =
      .ok ({ locals with peer_sx1 := peer_sx1 }, []) := by
  rw [asks_sources2] at hnone
  rw [on_request_sources2]
  by_cases hprovider : services.has_source_provider = true
  · rw [if_neg (by simp [hprovider])]
    cases hparse : parse_request_sources2 payload with
    | error e => exact ⟨locals.peer_sx1, rfl⟩
    | ok parsed =>
      obtain ⟨req_version, options, req_hash⟩ := parsed
      simp only [hparse, hprovider, true_and, ite_eq_right_iff, reduceCtorEq, imp_false, not_and, not_not] at hnone
      refine ⟨some (miso1_source_exchange tags), ?_⟩
      by_cases hgate : req_version > 0 ∨ miso1_source_exchange tags > 1
      · exact (if_neg (not_not.mpr hgate)).trans (if_pos (hnone hgate))
      · exact if_pos hgate
  · exact ⟨locals.peer_sx1, if_pos (by simpa using hprovider)⟩

theorem on_request_sources2_some (locals : Locals) {version : Nat} {req_hash : Bytes}
    (hsome : asks_sources2 services surroundings tags payload = some (version, req_hash)) :
    req_hash.length = 16 ∧ on_request_sources2 services surroundings tags locals payload = (do
      let answer ← build_answer_sources2 (clamp_version version) req_hash (surroundings.sources req_hash)
      let answer ← send EMULE ANSWERSOURCES2 answer
      .ok ({ locals with peer_sx1 := some (miso1_source_exchange tags) }, [answer])) := by
  rw [asks_sources2] at hsome
  rw [on_request_sources2]
  cases hparse : parse_request_sources2 payload with
  | error e => simp [hparse] at hsome
  | ok parsed =>
    obtain ⟨req_version, options, parsed_hash⟩ := parsed
    simp only [hparse, Option.ite_none_right_eq_some, Option.some.injEq, Prod.mk.injEq] at hsome
    obtain ⟨⟨hprovider, hgate, hsources⟩, rfl, rfl⟩ := hsome
    refine ⟨(parse_request_sources2_eq_ok hparse).2, ?_⟩
    rw [if_neg (by simp [hprovider])]
    exact (if_neg (not_not.mpr hgate)).trans (if_neg hsources)

theorem on_request_sources2_replied
    (hbranch : on_request_sources2 services surroundings tags locals payload = .ok result) :
    Replied locals ((asks_sources2 services surroundings tags payload).map (.sources2, ·.2)) result := by
  cases hasks : asks_sources2 services surroundings tags payload with
  | none =>
    obtain ⟨peer_sx1, hsilent⟩ := on_request_sources2_none locals hasks
    rw [hsilent, Except.ok.injEq] at hbranch
    subst hbranch
    exact ⟨rfl, rfl⟩
  | some ask =>
    obtain ⟨hlength, hreply⟩ := on_request_sources2_some locals hasks
    rw [hreply, reply_eq_ok_iff] at hbranch
    obtain ⟨answer, hanswer, -, rfl⟩ := hbranch
    obtain ⟨-, rfl⟩ := (build_answer_sources2_eq_ok_iff hlength).mp hanswer
    refine ⟨rfl, ?_⟩
    simp [answered, List.extract_eq_take_drop, List.take_left' hlength]

/-- A request for sources that can be answered needs an answer that can be written. -/
theorem on_request_sources2_ok_iff :
    (∃ result, on_request_sources2 services surroundings tags locals payload = .ok result) ↔
      ∀ version req_hash, asks_sources2 services surroundings tags payload = some (version, req_hash) →
        SourcesFit 19 version (surroundings.sources req_hash) := by
  cases hasks : asks_sources2 services surroundings tags payload with
  | none =>
    obtain ⟨peer_sx1, hsilent⟩ := on_request_sources2_none locals hasks
    simp [hsilent]
  | some ask =>
    obtain ⟨hlength, hreply⟩ := on_request_sources2_some locals hasks
    simp only [hreply, reply_eq_ok_iff, Option.some.injEq]
    constructor
    · rintro ⟨result, answer, hanswer, hfits, -⟩ version req_hash rfl
      obtain ⟨hcount, rfl⟩ := (build_answer_sources2_eq_ok_iff hlength).mp hanswer
      refine ⟨hcount, ?_⟩
      simp only [List.length_cons, List.length_append, length_encode, hlength, clamp_clamp_version] at hfits
      omega
    · intro hfit
      obtain ⟨hcount, hsize⟩ := hfit ask.1 ask.2 rfl
      refine ⟨_, _, (build_answer_sources2_eq_ok_iff hlength).mpr ⟨hcount, rfl⟩, ?_, rfl⟩
      simp only [List.length_cons, List.length_append, length_encode, hlength, clamp_clamp_version]
      omega

theorem on_request_sources_none (hnone : asks_sources services surroundings tags payload = none) :
    on_request_sources services surroundings tags locals payload = .ok (locals, []) := by
  rw [asks_sources] at hnone
  rw [on_request_sources]
  by_cases hprovider : services.has_source_provider = true
  · rw [if_neg (by simp [hprovider])]
    cases hparse : parse_request_sources payload with
    | error e => rfl
    | ok req_hash =>
      simp only [hparse, hprovider, true_and, ite_eq_right_iff, reduceCtorEq, imp_false, not_and, not_not] at hnone
      by_cases hgate : miso1_source_exchange tags > 1
      · exact (if_neg (by omega)).trans (if_pos (hnone hgate))
      · exact if_pos (by omega)
  · exact if_pos (by simpa using hprovider)

theorem on_request_sources_some (locals : Locals) {req_hash : Bytes}
    (hsome : asks_sources services surroundings tags payload = some req_hash) :
    req_hash.length = 16 ∧ on_request_sources services surroundings tags locals payload =
      match locals.peer_sx1 with
      | none => .error .UnboundLocalError
      | some peer_sx1 => (do
        let answer ← build_answer_sources req_hash (surroundings.sources req_hash) peer_sx1
        let answer ← send EMULE ANSWERSOURCES answer
        .ok (locals, [answer])) := by
  rw [asks_sources] at hsome
  rw [on_request_sources]
  cases hparse : parse_request_sources payload with
  | error e => simp [hparse] at hsome
  | ok parsed_hash =>
    simp only [hparse, Option.ite_none_right_eq_some, Option.some.injEq] at hsome
    obtain ⟨⟨hprovider, hgate, hsources⟩, rfl⟩ := hsome
    refine ⟨(parse_request_sources_eq_ok hparse).2, ?_⟩
    rw [if_neg (by simp [hprovider])]
    exact (if_neg (by omega)).trans (if_neg hsources)

theorem on_request_sources_replied
    (hbranch : on_request_sources services surroundings tags locals payload = .ok result) :
    Replied locals ((asks_sources services surroundings tags payload).map (.sources, ·)) result := by
  cases hasks : asks_sources services surroundings tags payload with
  | none =>
    rw [on_request_sources_none hasks, Except.ok.injEq] at hbranch
    subst hbranch
    exact ⟨rfl, rfl⟩
  | some req_hash =>
    obtain ⟨hlength, hreply⟩ := on_request_sources_some locals hasks
    rw [hreply] at hbranch
    cases hbound : locals.peer_sx1 with
    | none => simp [hbound] at hbranch
    | some peer_sx1 =>
      simp only [hbound, reply_eq_ok_iff] at hbranch
      obtain ⟨answer, hanswer, -, rfl⟩ := hbranch
      obtain ⟨-, rfl⟩ := (build_answer_sources_eq_ok_iff hlength).mp hanswer
      refine ⟨rfl, ?_⟩
      simp [answered, ANSWERSOURCES, ANSWERSOURCES2, List.take_left' hlength]

/-- A legacy request that can be answered needs `peer_sx1`, which only a request in the second version assigns. -/
theorem on_request_sources_ok_iff :
    (∃ result, on_request_sources services surroundings tags locals payload = .ok result) ↔
      ∀ req_hash, asks_sources services surroundings tags payload = some req_hash →
        ∃ peer_sx1 : Nat, locals.peer_sx1 = some peer_sx1 ∧ SourcesFit 18 peer_sx1 (surroundings.sources req_hash) := by
  cases hasks : asks_sources services surroundings tags payload with
  | none => simp [on_request_sources_none hasks]
  | some req_hash =>
    obtain ⟨hlength, hreply⟩ := on_request_sources_some locals hasks
    rw [hreply]
    cases hbound : locals.peer_sx1 with
    | none => simp
    | some peer_sx1 =>
      simp only [reply_eq_ok_iff, Option.some.injEq]
      constructor
      · rintro ⟨result, answer, hanswer, hfits, -⟩ other rfl
        obtain ⟨hcount, rfl⟩ := (build_answer_sources_eq_ok_iff hlength).mp hanswer
        refine ⟨peer_sx1, rfl, hcount, ?_⟩
        simp only [List.length_append, length_encode, hlength] at hfits
        omega
      · intro hfit
        obtain ⟨_, rfl, hcount, hsize⟩ := hfit req_hash rfl
        refine ⟨_, _, (build_answer_sources_eq_ok_iff hlength).mpr ⟨hcount, rfl⟩, ?_, rfl⟩
        simp only [List.length_append, length_encode, hlength]
        omega

end Sources

section Files

variable {services : Services} {surroundings : Surroundings} {locals : Locals} {payload : Bytes}
  {req_hash : Hash16} {shared : Shared} {result : Locals × List Packet}

theorem build_file_name_answer_payload_eq_ok_iff {file_hash answer : Bytes} {name : String}
    (hlength : file_hash.length = 16) :
    build_file_name_answer_payload file_hash name = .ok answer ↔ (utf8_encode name).length < 2 ^ 16 ∧
      answer = file_hash ++ (encode 2 (utf8_encode name).length ++ utf8_encode name) := by
  rw [build_file_name_answer_payload, if_neg (not_not.mpr hlength), write_hash16, if_pos hlength]
  simp only [pure_eq_ok, ok_bind, bind_eq_ok_iff, write_u16, write_uint_eq_ok_iff, Except.ok.injEq]
  constructor
  · rintro ⟨length, ⟨hfits, rfl⟩, hanswer⟩
    exact ⟨hfits, hanswer.symm⟩
  · rintro ⟨hfits, rfl⟩
    exact ⟨_, ⟨hfits, rfl⟩, rfl⟩

theorem build_hashset_answer_payload_eq_ok_iff {file_hash answer : Bytes} {hashes : List Bytes} :
    build_hashset_answer_payload file_hash hashes = .ok answer ↔ 1 + hashes.length < 2 ^ 16 ∧
      answer = encode 2 (1 + hashes.length) ++ file_hash.take 16 ++
        (hashes.map (List.take 16)).flatten := by
  simp only [build_hashset_answer_payload, pure_eq_ok, bind_eq_ok_iff, write_u16, write_uint_eq_ok_iff,
    Except.ok.injEq]
  constructor
  · rintro ⟨count, ⟨hfits, rfl⟩, hanswer⟩
    exact ⟨hfits, hanswer.symm⟩
  · rintro ⟨hfits, rfl⟩
    exact ⟨_, ⟨hfits, rfl⟩, rfl⟩

theorem length_taken_hashes_le (hashes : List Bytes) :
    (hashes.map (List.take 16)).flatten.length ≤ 16 * hashes.length := by
  induction hashes with
  | nil => exact Nat.zero_le 0
  | cons chunk_hash hashes ih =>
    rw [List.map_cons, List.flatten_cons, List.length_append, List.length_take, List.length_cons]
    omega

theorem on_request_filename_replied (hbranch : on_request_filename surroundings locals payload = .ok result) :
    Replied locals ((asks_file_name surroundings payload).map (.file_name, ·)) result := by
  rw [on_request_filename] at hbranch
  rw [asks_file_name]
  cases hparse : parse_file_hash_payload payload with
  | error e =>
    simp only [hparse] at hbranch
    cases hbranch
    exact ⟨rfl, rfl⟩
  | ok req_hash =>
    simp only [hparse] at hbranch
    obtain ⟨found, hresolve, hbranch⟩ := bind_eq_ok_iff.mp hbranch
    cases found with
    | none =>
      cases hbranch
      exact ⟨rfl, by simp [hresolve]⟩
    | some shared =>
      simp only [reply_eq_ok_iff] at hbranch
      obtain ⟨answer, hanswer, -, rfl⟩ := hbranch
      obtain ⟨-, rfl⟩ := (build_file_name_answer_payload_eq_ok_iff req_hash.property).mp hanswer
      refine ⟨rfl, ?_⟩
      simp [hresolve, answered, REQFILENAMEANSWER, ANSWERSOURCES, ANSWERSOURCES2, List.take_left' req_hash.property]

/-- A request for a name that is found needs a name of at most 65535 bytes. -/
theorem on_request_filename_ok_iff :
    (∃ result, on_request_filename surroundings locals payload = .ok result) ↔
      ∀ req_hash, parse_file_hash_payload payload = .ok req_hash →
        ∃ found, surroundings.resolve req_hash.val = .ok found ∧
          ∀ shared, found = some shared → (utf8_encode shared.name).length < 2 ^ 16 := by
  rw [on_request_filename]
  cases hparse : parse_file_hash_payload payload with
  | error e => simp
  | ok req_hash =>
    simp only [bind_eq_ok_iff, Except.ok.injEq]
    constructor
    · rintro ⟨result, found, hresolve, hbranch⟩ other rfl
      refine ⟨found, hresolve, ?_⟩
      rintro shared rfl
      simp only [reply_eq_ok_iff] at hbranch
      obtain ⟨answer, hanswer, -, -⟩ := hbranch
      exact ((build_file_name_answer_payload_eq_ok_iff req_hash.property).mp hanswer).1
    · intro hnamed
      obtain ⟨found, hresolve, hname⟩ := hnamed req_hash rfl
      cases found with
      | none => exact ⟨_, none, hresolve, rfl⟩
      | some shared =>
        have hfits := hname shared rfl
        have hanswer := (build_file_name_answer_payload_eq_ok_iff req_hash.property).mpr ⟨hfits, rfl⟩
        refine ⟨_, some shared, hresolve, reply_eq_ok_iff.mpr ⟨_, hanswer, ?_, rfl⟩⟩
        simp only [List.length_append, length_encode, req_hash.property, MAX_PACKET_SIZE]
        omega

/-- The hash set of a shared file that is there. -/
def hash_set (md4 : Md4) (shared : Shared) (content : Bytes) : List Bytes :=
  SharedFile.chunk_hashes md4 ⟨shared.file_hash, shared.size, none, content⟩

/-- A request for a hash set, by what the resolver finds. -/
theorem on_hashset_request_eq (hparse : parse_file_hash_payload payload = .ok req_hash) :
    on_hashset_request services surroundings locals payload = (do
      let shared ← surroundings.resolve req_hash.val
      match shared with
      | none => .ok (locals, [])
      | some shared =>
        match surroundings.disk shared.path with
        | .absent _ => block_source surroundings.disk shared >>= fun _ => .error .OSError
        | .unreadable _ _ => block_source surroundings.disk shared >>= fun _ => .error .OSError
        | .file content =>
          if hash_set services.md4 shared content = [] then .ok (locals, [])
          else (do
            let answer ← build_hashset_answer_payload shared.file_hash (hash_set services.md4 shared content)
            let answer ← send EDONKEY HASHSETANSWER answer
            .ok (locals, [answer]))) := by
  simp only [on_hashset_request, hparse]
  congr 1
  funext found
  cases found with
  | none => rfl
  | some shared =>
    simp only
    cases hdisk : surroundings.disk shared.path with
    | absent e => simp only [chunk_hashes, hdisk]
    | unreadable is_file e => simp only [chunk_hashes, hdisk]
    | file content =>
      have hsource : block_source surroundings.disk shared = .ok () := by
        simp only [block_source, hdisk]
      have hchunks : chunk_hashes services.md4 surroundings.disk shared =
          .ok (hash_set services.md4 shared content) := by
        simp only [chunk_hashes, hdisk, hash_set]
      rw [hsource, ok_bind, hchunks]
      simp only
      generalize hash_set services.md4 shared content = hashes
      cases hashes with
      | nil => exact (if_pos rfl).symm
      | cons first rest => exact (if_neg (List.cons_ne_nil first rest)).symm

theorem on_hashset_request_replied (hbranch : on_hashset_request services surroundings locals payload = .ok result) :
    Replied locals ((asks_hash_set services surroundings payload).map (.hash_set, ·)) result := by
  rw [asks_hash_set]
  cases hparse : parse_file_hash_payload payload with
  | error e =>
    simp only [on_hashset_request, hparse] at hbranch
    cases hbranch
    exact ⟨rfl, rfl⟩
  | ok req_hash =>
    rw [on_hashset_request_eq hparse] at hbranch
    obtain ⟨found, hresolve, hbranch⟩ := bind_eq_ok_iff.mp hbranch
    cases found with
    | none =>
      cases hbranch
      exact ⟨rfl, by simp [hresolve]⟩
    | some shared =>
      simp only at hbranch
      cases hdisk : surroundings.disk shared.path with
      | absent e => simp [hdisk, bind_eq_ok_iff] at hbranch
      | unreadable is_file e => simp [hdisk, bind_eq_ok_iff] at hbranch
      | file content =>
        have hchunks : chunk_hashes services.md4 surroundings.disk shared =
            .ok (hash_set services.md4 shared content) := by
          simp only [chunk_hashes, hdisk, hash_set]
        simp only [hdisk] at hbranch
        simp only [hresolve, hchunks]
        generalize hash_set services.md4 shared content = hashes at hbranch
        cases hashes with
        | nil =>
          rw [if_pos rfl] at hbranch
          cases hbranch
          exact ⟨rfl, rfl⟩
        | cons first rest =>
          rw [if_neg (List.cons_ne_nil first rest), reply_eq_ok_iff] at hbranch
          obtain ⟨answer, hanswer, -, rfl⟩ := hbranch
          obtain ⟨-, rfl⟩ := build_hashset_answer_payload_eq_ok_iff.mp hanswer
          have hlength := req_hash.property
          have hwhole : req_hash.val.take 16 = req_hash.val := List.take_of_length_le (by omega)
          refine ⟨rfl, ?_⟩
          rw [file_hash_of_resolve hresolve, hwhole, List.append_assoc]
          simp only [List.filterMap_cons, List.filterMap_nil, answered, HASHSETANSWER, ANSWERSOURCES2, ANSWERSOURCES,
            REQFILENAMEANSWER]
          simp [List.extract_eq_take_drop, List.take_left' hlength]

/-- A request for the hash set of a file that is found needs its bytes, and fewer chunks than two bytes count. -/
theorem on_hashset_request_ok_iff :
    (∃ result, on_hashset_request services surroundings locals payload = .ok result) ↔
      ∀ req_hash, parse_file_hash_payload payload = .ok req_hash →
        ∃ found, surroundings.resolve req_hash.val = .ok found ∧ ∀ shared, found = some shared →
          ∃ content, surroundings.disk shared.path = .file content ∧
            1 + (hash_set services.md4 shared content).length < 2 ^ 16 := by
  cases hparse : parse_file_hash_payload payload with
  | error e => simp [on_hashset_request, hparse]
  | ok req_hash =>
    rw [on_hashset_request_eq hparse]
    simp only [bind_eq_ok_iff, Except.ok.injEq]
    constructor
    · rintro ⟨result, found, hresolve, hbranch⟩ other rfl
      refine ⟨found, hresolve, ?_⟩
      rintro shared rfl
      simp only at hbranch
      cases hdisk : surroundings.disk shared.path with
      | absent e => simp [hdisk, bind_eq_ok_iff] at hbranch
      | unreadable is_file e => simp [hdisk, bind_eq_ok_iff] at hbranch
      | file content =>
        refine ⟨content, rfl, ?_⟩
        simp only [hdisk] at hbranch
        by_cases hnone : hash_set services.md4 shared content = []
        · rw [hnone]
          decide
        · rw [if_neg hnone, reply_eq_ok_iff] at hbranch
          obtain ⟨answer, hanswer, -, -⟩ := hbranch
          exact (build_hashset_answer_payload_eq_ok_iff.mp hanswer).1
    · intro hthere
      obtain ⟨found, hresolve, hfile⟩ := hthere req_hash rfl
      cases found with
      | none => exact ⟨_, none, hresolve, rfl⟩
      | some shared =>
        obtain ⟨content, hdisk, hfits⟩ := hfile shared rfl
        by_cases hnone : hash_set services.md4 shared content = []
        · refine ⟨(locals, []), some shared, hresolve, ?_⟩
          simp only [hdisk]
          exact if_pos hnone
        · obtain ⟨answer, hanswer⟩ : ∃ answer, answer = encode 2 (1 + (hash_set services.md4 shared content).length) ++
              shared.file_hash.take 16 ++ ((hash_set services.md4 shared content).map (List.take 16)).flatten :=
            ⟨_, rfl⟩
          have hhashes := length_taken_hashes_le (hash_set services.md4 shared content)
          refine ⟨(locals, [⟨EDONKEY, HASHSETANSWER, answer⟩]), some shared, hresolve, ?_⟩
          simp only [hdisk]
          rw [if_neg hnone]
          refine reply_eq_ok_iff.mpr ⟨answer, build_hashset_answer_payload_eq_ok_iff.mpr ⟨hfits, hanswer⟩, ?_, rfl⟩
          rw [hanswer]
          simp only [List.length_append, length_encode, List.length_take, MAX_PACKET_SIZE]
          omega

end Files

section Aich

variable {services : Services} {surroundings : Surroundings} {locals : Locals} {payload : Bytes}
  {disk : String → OnDisk} {shared : Shared} {req_part : Nat} {req_master : Bytes} {result : Locals × List Packet}

/-- Every file image has AICH metadata. -/
theorem exists_aich_hash_data (sha1 : HashFn 20) (content : Bytes) :
    ∃ metadata, aich_hash_data sha1 content = .ok metadata ∧ metadata.file_size = content.length := by
  by_cases hempty : content.length = 0
  · refine ⟨⟨content.length, sha1 [], [], by simp, by simp⟩, ?_, rfl⟩
    rw [aich_hash_data, hash_aich_segment.eq_def, if_pos hempty]
    simp [AichHashResult.post_init]
  · obtain ⟨metadata, hdata, hsize, -, -⟩ := aich_hash_data_spec sha1 (Nat.pos_of_ne_zero hempty)
    exact ⟨metadata, hdata, hsize⟩

/-- A part of a file of more than eight parts, asked for under the file's own master hash. -/
def Oversized (sha1 : HashFn 20) (disk : String → OnDisk) (shared : Shared) (req_part : Nat) (req_master : Bytes) :
    Prop :=
  ∃ content metadata, disk shared.path = .file content ∧ aich_hash_data sha1 content = .ok metadata ∧
    metadata.master_hash = req_master ∧ req_part < part_count shared.size ∧
    req_part * PARTSIZE < content.length ∧ 8 * PARTSIZE < content.length

theorem aich_recovery_of_oversized {sha1 : HashFn 20} (hover : Oversized sha1 disk shared req_part req_master) :
    aich_recovery sha1 disk shared req_part req_master = .error .IndexError := by
  obtain ⟨content, metadata, hdisk, hdata, hmaster, hpart, hinside, hnine⟩ := hover
  rw [aich_recovery, hdisk, aich_hash_file, hdata, ok_bind, if_neg (not_not.mpr hmaster), if_neg (by omega),
    aich_part_recovery_data_of_gt sha1 hdata hnine (part_range_natCast hinside)]
  rfl

/-- The recovery data of any other part are there, or there is a reason that the handler catches. -/
theorem aich_recovery_of_not_oversized {sha1 : HashFn 20}
    (hnot : ¬ Oversized sha1 disk shared req_part req_master) :
    (∃ recovery, aich_recovery sha1 disk shared req_part req_master = .ok recovery ∧
      ∀ blob, recovery = some blob → blob.length < 2 ^ 21) ∨
      ∃ message, aich_recovery sha1 disk shared req_part req_master = .error (.AichError message) := by
  rw [aich_recovery]
  cases hdisk : disk shared.path with
  | absent e => exact .inr ⟨_, rfl⟩
  | unreadable is_file e => exact .inr ⟨_, rfl⟩
  | file content =>
    obtain ⟨metadata, hdata, hsize⟩ := exists_aich_hash_data sha1 content
    rw [aich_hash_file, hdata, ok_bind]
    by_cases hmaster : metadata.master_hash ≠ req_master
    · exact .inl ⟨none, if_pos hmaster, by simp⟩
    rw [if_neg hmaster]
    by_cases hpart : req_part ≥ part_count shared.size
    · exact .inl ⟨none, if_pos hpart, by simp⟩
    rw [if_neg hpart]
    by_cases hsmall : metadata.file_size ≤ BLOCKSIZE
    · refine .inr ⟨"file fits in one block; no AICH recovery data", ?_⟩
      rw [aich_part_recovery_data, if_pos hsmall]
      rfl
    cases hrange : part_range req_part metadata.file_size with
    | error e =>
      obtain ⟨message, rfl⟩ := part_range_error hrange
      refine .inr ⟨message, ?_⟩
      rw [aich_part_recovery_data, if_neg hsmall, hrange]
      rfl
    | ok range =>
      rw [hsize] at hsmall hrange
      obtain ⟨hstart, -, hinside, -⟩ := part_range_eq_ok (show part_range req_part content.length =
        .ok (range.1, range.2) from hrange)
      have hheight : content.length ≤ 8 * PARTSIZE := by
        by_contra hnine
        rw [← Int.natCast_mul, Int.natCast_inj] at hstart
        exact hnot ⟨content, metadata, hdisk, hdata, not_not.mp hmaster, by omega, by omega, by omega⟩
      obtain ⟨blob, hblob⟩ := aich_part_recovery_data_exists sha1 hdata (by omega) hheight hrange
      refine .inl ⟨some blob, by rw [hblob]; rfl, ?_⟩
      rintro other ⟨⟩
      exact length_aich_part_recovery_data_lt sha1 hdata (by omega) hblob

theorem build_aich_answer_payload_ok {file_hash master : Bytes} (hlength : file_hash.length = 16)
    (hmaster : master.length = 20) (part : Nat) (recovery : Bytes) :
    build_aich_answer_payload file_hash part master recovery =
      .ok (file_hash ++ (encode 2 (part % 2 ^ 16) ++ master) ++ recovery) := by
  rw [build_aich_answer_payload, build_aich_request_payload, if_neg (by simp [hlength, hmaster])]
  rfl

theorem handle_aich_request_replied (hbranch : handle_aich_request services surroundings locals payload = .ok result) :
    Replied locals none result := by
  rw [handle_aich_request] at hbranch
  split at hbranch
  · cases hbranch
    exact ⟨rfl, rfl⟩
  · obtain ⟨found, -, hbranch⟩ := bind_eq_ok_iff.mp hbranch
    cases found with
    | none =>
      cases hbranch
      exact ⟨rfl, rfl⟩
    | some shared =>
      simp only at hbranch
      split at hbranch
      · cases hbranch
        exact ⟨rfl, rfl⟩
      · split at hbranch
        · cases hbranch
          exact ⟨rfl, rfl⟩
        · cases hbranch
        · cases hbranch
          exact ⟨rfl, rfl⟩
        · rw [reply_eq_ok_iff] at hbranch
          obtain ⟨answer, -, -, rfl⟩ := hbranch
          exact ⟨rfl, rfl⟩

/-- Only an oversized file, or the state backend, raises past the handler of a recovery request. -/
theorem handle_aich_request_ok_iff :
    (∃ result, handle_aich_request services surroundings locals payload = .ok result) ↔
      ∀ req_hash req_part req_master, parse_aich_request_payload payload = .ok (req_hash, req_part, req_master) →
        ∃ found, surroundings.resolve req_hash = .ok found ∧ ∀ shared, found = some shared → shared.path ≠ "" →
          ¬ Oversized services.sha1 surroundings.disk shared req_part req_master := by
  rw [handle_aich_request]
  cases hparse : parse_aich_request_payload payload with
  | error e => simp
  | ok request =>
    obtain ⟨req_hash, req_part, req_master⟩ := request
    obtain ⟨hlength, hmaster⟩ := parse_aich_request_payload_eq_ok hparse
    simp only [bind_eq_ok_iff, Except.ok.injEq, Prod.mk.injEq]
    constructor
    · rintro ⟨result, found, hresolve, hbranch⟩ other_hash other_part other_master ⟨rfl, rfl, rfl⟩
      refine ⟨found, hresolve, ?_⟩
      rintro shared rfl hpath hover
      simp only at hbranch
      rw [if_neg hpath, aich_recovery_of_oversized hover] at hbranch
      cases hbranch
    · intro hpart
      obtain ⟨found, hresolve, hnot⟩ := hpart req_hash req_part req_master ⟨rfl, rfl, rfl⟩
      cases found with
      | none => exact ⟨_, none, hresolve, rfl⟩
      | some shared =>
        by_cases hpath : shared.path = ""
        · exact ⟨(locals, []), some shared, hresolve, if_pos hpath⟩
        · rcases aich_recovery_of_not_oversized (hnot shared rfl hpath) with ⟨recovery, hrecovery, hsize⟩ | ⟨message, herror⟩
          · cases recovery with
            | none =>
              refine ⟨(locals, []), some shared, hresolve, ?_⟩
              simp only
              rw [if_neg hpath, hrecovery]
            | some blob =>
              obtain ⟨answer, hanswer⟩ : ∃ answer, answer =
                  req_hash ++ (encode 2 (req_part % 2 ^ 16) ++ req_master) ++ blob := ⟨_, rfl⟩
              refine ⟨(locals, [⟨EMULE, AICHANSWER, answer⟩]), some shared, hresolve, ?_⟩
              simp only
              rw [if_neg hpath, hrecovery]
              have hblob := hsize blob rfl
              have hbuilt := build_aich_answer_payload_ok hlength hmaster req_part blob
              refine reply_eq_ok_iff.mpr ⟨answer, hanswer ▸ hbuilt, ?_, rfl⟩
              rw [hanswer]
              simp only [List.length_append, length_encode, hlength, hmaster, MAX_PACKET_SIZE]
              omega
          · refine ⟨(locals, []), some shared, hresolve, ?_⟩
            simp only
            rw [if_neg hpath, herror]

end Aich

section Identification

variable {rsa : Rsa} {secure_ident : Option (SecureIdentProvider rsa)} {locals : Locals} {payload user_hash : Bytes}
  {result : Locals × List Packet}

theorem on_secident_state_replied (hbranch : on_secident_state secure_ident locals payload = .ok result) :
    Replied locals none result := by
  rw [on_secident_state] at hbranch
  obtain ⟨⟨state, challenge⟩, -, hbranch⟩ := bind_eq_ok_iff.mp hbranch
  obtain ⟨provider, -, hbranch⟩ := bind_eq_ok_iff.mp hbranch
  obtain ⟨public_blob, -, hbranch⟩ := bind_eq_ok_iff.mp hbranch
  obtain ⟨publickey, -, hbranch⟩ := bind_eq_ok_iff.mp hbranch
  obtain ⟨first, hfirst, hbranch⟩ := bind_eq_ok_iff.mp hbranch
  obtain ⟨signature, -, hbranch⟩ := bind_eq_ok_iff.mp hbranch
  obtain ⟨signed, -, hbranch⟩ := bind_eq_ok_iff.mp hbranch
  obtain ⟨second, hsecond, hbranch⟩ := bind_eq_ok_iff.mp hbranch
  cases hbranch
  rw [send] at hfirst hsecond
  split at hfirst
  · cases hfirst
  · split at hsecond
    · cases hsecond
    · cases hfirst
      cases hsecond
      exact ⟨rfl, rfl⟩

/-- A challenge is answered by a provider with keys. -/
theorem on_secident_state_ok_iff (hparse : ∃ parsed, parse_secident_state_payload payload = .ok parsed) :
    (∃ result, on_secident_state secure_ident locals payload = .ok result) ↔
      ∃ provider, secure_ident = some provider ∧ provider.has_keys = true := by
  obtain ⟨⟨state, challenge⟩, hparse⟩ := hparse
  rw [on_secident_state, hparse, ok_bind]
  simp only
  cases secure_ident with
  | none => simp [present]
  | some provider =>
    rw [present, ok_bind, SecureIdentProvider.public_blob, SecureIdentProvider.create_signature,
      SecureIdentProvider.keys]
    cases hkeys : provider._key with
    | none => simp [SecureIdentProvider.has_keys, hkeys]
    | some keys =>
      have hblob := keys.length_public_blob
      have hsigned := keys.sign_ne_nil (build_challenge_data keys.public_blob challenge 0 [])
      have hlength := keys.length_sign (build_challenge_data keys.public_blob challenge 0 [])
      have hpos := List.length_pos_of_ne_nil hsigned
      rw [MAX_PUBKEY_SIZE] at hblob
      have hpacket : 1 + 250 ≤ MAX_PACKET_SIZE - 1 := by decide
      simp only [ok_bind]
      rw [build_publickey_payload, if_pos ⟨by omega, by omega⟩, ok_bind, send,
        if_neg (by rw [List.length_cons]; omega), ok_bind, build_signature_payload, if_pos ⟨by omega, by omega⟩,
        ok_bind, send, if_neg (by simp only [if_true, List.length_append, List.length_cons, List.length_nil]; omega)]
      simp [SecureIdentProvider.has_keys, hkeys]

theorem on_publickey_replied (hbranch : on_publickey locals payload = .ok result) : Replied locals none result := by
  obtain ⟨peer_blob, -, hbranch⟩ := bind_eq_ok_iff.mp hbranch
  cases hbranch
  exact ⟨rfl, rfl⟩

theorem on_emuleinfo_ok (locals : Locals) :
    ∃ answer, on_emuleinfo locals = .ok (locals, [⟨EMULE, EMULEINFOANSWER, answer⟩]) := by
  obtain ⟨answer, hanswer, hsmall⟩ := build_emuleinfo_payload_ok
  refine ⟨answer, reply_eq_ok_iff.mpr ⟨answer, hanswer, ?_, rfl⟩⟩
  rw [MAX_PACKET_SIZE]
  omega

theorem on_emuleinfo_replied (hbranch : on_emuleinfo locals = .ok result) : Replied locals none result := by
  obtain ⟨answer, hanswer⟩ := on_emuleinfo_ok locals
  rw [hanswer, Except.ok.injEq] at hbranch
  subst hbranch
  exact ⟨rfl, rfl⟩

/-- What a signature does to the provider. -/
theorem on_signature_eq_ok (hparse : ∃ kind signature, parse_signature_payload payload = .ok (signature, kind))
    (hpresent : locals.challenge_out ≠ none → secure_ident ≠ none) :
    ∃ verified, on_signature secure_ident user_hash locals payload = .ok verified := by
  obtain ⟨kind, signature, hparse⟩ := hparse
  rw [on_signature, hparse, ok_bind]
  simp only
  by_cases hverifies : verifies rsa locals signature = true
  · rw [if_pos hverifies]
    rw [verifies] at hverifies
    cases hchallenge : locals.challenge_out with
    | none => simp [hchallenge] at hverifies
    | some challenge =>
      obtain ⟨provider, hprovider⟩ := Option.ne_none_iff_exists'.mp (hpresent (by simp [hchallenge]))
      exact ⟨_, by rw [hprovider]; rfl⟩
  · exact ⟨secure_ident, if_neg hverifies⟩

end Identification

section Dispatch

variable {rsa : Rsa} {services : Services} {surroundings : Surroundings} {tags : List Ed2kTag}
  {secure_ident : Option (SecureIdentProvider rsa)} {locals : Locals} {opcode : UInt8} {payload : Bytes}
  {result : Locals × List Packet}

/-- Each branch answers what its packet asks, and leaves the challenge alone. -/
theorem branch_replied
    (hbranch : branch services surroundings tags secure_ident locals opcode payload = .ok result) :
    Replied locals (asked services surroundings tags opcode payload) result := by
  rw [branch] at hbranch
  by_cases hsecident : opcode = SECIDENTSTATE
  · subst hsecident
    exact on_secident_state_replied hbranch
  rw [if_neg hsecident] at hbranch
  by_cases hpublickey : opcode = PUBLICKEY
  · subst hpublickey
    exact on_publickey_replied hbranch
  rw [if_neg hpublickey] at hbranch
  rw [asked]
  by_cases hsources2 : opcode = REQUESTSOURCES2
  · rw [if_pos hsources2] at hbranch ⊢
    exact on_request_sources2_replied hbranch
  rw [if_neg hsources2] at hbranch ⊢
  by_cases hsources : opcode = REQUESTSOURCES
  · rw [if_pos hsources] at hbranch ⊢
    exact on_request_sources_replied hbranch
  rw [if_neg hsources] at hbranch ⊢
  by_cases haich : opcode = AICHREQUEST
  · subst haich
    exact handle_aich_request_replied hbranch
  rw [if_neg haich] at hbranch
  by_cases hname : opcode = REQUESTFILENAME
  · rw [if_pos hname] at hbranch ⊢
    exact on_request_filename_replied hbranch
  rw [if_neg hname] at hbranch ⊢
  by_cases hhashes : opcode = HASHSETREQUEST
  · rw [if_pos hhashes] at hbranch ⊢
    exact on_hashset_request_replied hbranch
  rw [if_neg hhashes] at hbranch ⊢
  by_cases hinfo : opcode = EMULEINFO
  · rw [if_pos hinfo] at hbranch
    exact on_emuleinfo_replied hbranch
  rw [if_neg hinfo, Except.ok.injEq] at hbranch
  subst hbranch
  exact ⟨rfl, rfl⟩

end Dispatch

end amuled.peer.pre_engine
