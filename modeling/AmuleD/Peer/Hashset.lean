import AmuleD.Codec.Binary

open littleendian

namespace amuled.peer

structure HashSetAnswer where
  file_hash : Bytes
  chunk_hashes : List Bytes
  deriving DecidableEq, Repr

/-- `count` hashes of sixteen bytes from an offset on. -/
def hash_slices (payload : Bytes) (offset count : Nat) : List Bytes :=
  (List.range count).map fun i => payload.extract (offset + i * 16) (offset + (i + 1) * 16)

/-- The inner `_canonical` of `parse_hashset_answer`. -/
def canonical (data : Bytes) : Option (List Bytes) :=
  if data.length < 2 then none
  else
    let count := decode (data.take 2)
    if count > 0 ∧ data.length = 2 + 16 * count then some (hash_slices data 2 count) else none

/-- `parse_hashset_answer`: the canonical layout, else one of the two layouts
of the eMuleAI fork. -/
def parse_hashset_answer (payload : Bytes) : Except Exc HashSetAnswer :=
  let hashes :=
    match canonical payload with
    | some hashes => hashes
    | none =>
      if payload.length = 16 + 2 then [payload.take 16]
      else if payload.length > 16 + 2 then
        let fork_count := (payload.length - 16 - 2) / 16
        if fork_count ≥ 1 ∧ payload.length = 16 + 2 + fork_count * 16 ∧
            decode (payload.extract 16 18) = fork_count then
          payload.take 16 :: hash_slices payload 18 fork_count
        else []
      else []
  match hashes with
  | file_hash :: chunk_hashes => pure ⟨file_hash, chunk_hashes⟩
  | [] =>
    throw (.PeerCodecError
      s!"malformed OP_HASHSETANSWER: length {payload.length} fits no known layout")

/-- `_build_hashset_answer_payload` of the uploader. -/
def build_hashset_answer_payload (file_hash : Bytes) (chunk_hashes : List Bytes) :
    Except Exc Bytes := do
  let count ← write_u16 (1 + chunk_hashes.length)
  pure (count ++ file_hash.take 16 ++ (chunk_hashes.map fun chunk_hash => chunk_hash.take 16).flatten)

theorem build_hashset_answer_payload_ok (file_hash : Bytes) {chunk_hashes : List Bytes}
    (hfew : 1 + chunk_hashes.length < 2 ^ 16) :
    ∃ payload, build_hashset_answer_payload file_hash chunk_hashes = .ok payload := by
  rw [build_hashset_answer_payload, write_u16, write_uint_eq_ok_iff.mpr ⟨hfew, rfl⟩]
  exact ⟨_, rfl⟩

theorem hash_slices_flatten {hashes : List Bytes} (hhashes : ∀ hash ∈ hashes, hash.length = 16)
    (front back : Bytes) :
    hash_slices (front ++ (hashes.flatten ++ back)) front.length hashes.length = hashes := by
  induction hashes generalizing front with
  | nil => rfl
  | cons hash rest ih =>
    have hlength : hash.length = 16 := hhashes hash List.mem_cons_self
    have hrest := ih (fun other hother => hhashes other (List.mem_cons_of_mem _ hother)) (front ++ hash)
    rw [List.append_assoc] at hrest
    rw [List.flatten_cons, List.append_assoc, hash_slices, List.length_cons, List.range_succ_eq_map,
      List.map_cons, List.map_map]
    congr 1
    · simp [List.extract_eq_take_drop, hlength]
    · refine Eq.trans ?_ hrest
      rw [hash_slices]
      apply List.map_congr_left
      intro index _
      simp only [Function.comp_apply, List.length_append, hlength]
      congr 1 <;> omega

theorem length_flatten_hashes {hashes : List Bytes} (hhashes : ∀ hash ∈ hashes, hash.length = 16) :
    hashes.flatten.length = 16 * hashes.length := by
  induction hashes with
  | nil => rfl
  | cons hash rest ih =>
    have hrest := ih (fun other hother => hhashes other (List.mem_cons_of_mem _ hother))
    have hlength := hhashes hash List.mem_cons_self
    simp only [List.flatten_cons, List.length_append, List.length_cons]
    omega

/-- The canonical layout: the number of hashes, the file hash, the part hashes. -/
def canonical_layout (file_hash : Bytes) (chunk_hashes : List Bytes) : Bytes :=
  encode 2 (1 + chunk_hashes.length) ++ (file_hash :: chunk_hashes).flatten

/-- The layout of the eMuleAI fork: the file hash, a counter, the part hashes. -/
def fork_layout (file_hash : Bytes) (counter : Nat) (chunk_hashes : List Bytes) : Bytes :=
  file_hash ++ encode 2 counter ++ chunk_hashes.flatten

section Layouts

variable {file_hash payload : Bytes} {chunk_hashes : List Bytes} {counter : Nat}

theorem length_canonical_layout (hfile : file_hash.length = 16) (hchunks : ∀ hash ∈ chunk_hashes, hash.length = 16) :
    (canonical_layout file_hash chunk_hashes).length = 2 + 16 * (1 + chunk_hashes.length) := by
  rw [canonical_layout, List.length_append, length_encode, List.flatten_cons, List.length_append, hfile,
    length_flatten_hashes hchunks]
  omega

theorem length_fork_layout (counter : Nat) (hfile : file_hash.length = 16) (hchunks : ∀ hash ∈ chunk_hashes, hash.length = 16) :
    (fork_layout file_hash counter chunk_hashes).length = 2 + 16 * (1 + chunk_hashes.length) := by
  rw [fork_layout, List.length_append, List.length_append, length_encode, hfile, length_flatten_hashes hchunks]
  omega

/-- The canonical layout is read back hash for hash. -/
theorem parse_canonical_layout (hfile : file_hash.length = 16) (hchunks : ∀ hash ∈ chunk_hashes, hash.length = 16)
    (hfits : 1 + chunk_hashes.length < 2 ^ 16) :
    parse_hashset_answer (canonical_layout file_hash chunk_hashes) = .ok ⟨file_hash, chunk_hashes⟩ := by
  have hall : ∀ hash ∈ file_hash :: chunk_hashes, hash.length = 16 := List.forall_mem_cons.mpr ⟨hfile, hchunks⟩
  have hcanonical : canonical (canonical_layout file_hash chunk_hashes) = some (file_hash :: chunk_hashes) := by
    have hslices := hash_slices_flatten hall (encode 2 (1 + chunk_hashes.length)) []
    rw [List.append_nil, length_encode, List.length_cons, Nat.add_comm chunk_hashes.length 1] at hslices
    rw [canonical, length_canonical_layout hfile hchunks, canonical_layout, List.take_left' (length_encode _ _),
      decode_encode hfits, if_neg (by omega)]
    simp only [and_true]
    rw [if_pos (by omega), hslices]
  simp only [parse_hashset_answer, hcanonical, pure_eq_ok]

/-- What the uploader answers is read back hash for hash. -/
theorem parse_hashset_answer_build {file_hash payload : Bytes} {chunk_hashes : List Bytes}
    (hfile : file_hash.length = 16) (hchunks : ∀ hash ∈ chunk_hashes, hash.length = 16)
    (hbuild : build_hashset_answer_payload file_hash chunk_hashes = .ok payload) :
    parse_hashset_answer payload = .ok ⟨file_hash, chunk_hashes⟩ := by
  have htake : (chunk_hashes.map fun hash => hash.take 16) = chunk_hashes := by
    rw [List.map_congr_left (fun hash hhash => List.take_of_length_le (Nat.le_of_eq (hchunks hash hhash)))]
    exact List.map_id _
  rw [build_hashset_answer_payload, bind_eq_ok_iff] at hbuild
  obtain ⟨count, hcount, hbuild⟩ := hbuild
  obtain ⟨hfits, rfl⟩ := write_uint_eq_ok_iff.mp hcount
  obtain rfl := Except.ok.inj hbuild
  rw [List.take_of_length_le (Nat.le_of_eq hfile), htake, List.append_assoc, ← List.flatten_cons]
  exact parse_canonical_layout hfile hchunks hfits

/-- The layout of the fork is read back unless its first two bytes are the number of its hashes. -/
theorem parse_fork_layout (hfile : file_hash.length = 16) (hchunks : ∀ hash ∈ chunk_hashes, hash.length = 16)
    (hfits : counter < 2 ^ 16) (hcounter : counter = chunk_hashes.length ∨ chunk_hashes = [])
    (hfirst : decode (file_hash.take 2) ≠ 1 + chunk_hashes.length) :
    parse_hashset_answer (fork_layout file_hash counter chunk_hashes) = .ok ⟨file_hash, chunk_hashes⟩ := by
  have hlength := length_fork_layout counter hfile hchunks
  have htake : (fork_layout file_hash counter chunk_hashes).take 16 = file_hash := by
    rw [fork_layout, List.append_assoc, List.take_left' hfile]
  have hfront : (fork_layout file_hash counter chunk_hashes).take 2 = file_hash.take 2 := by
    rw [fork_layout, List.append_assoc, List.take_append_of_le_length (by omega)]
  have hcanonical : canonical (fork_layout file_hash counter chunk_hashes) = none := by
    rw [canonical, hlength, hfront, if_neg (by omega)]
    simp only
    rw [if_neg]
    omega
  by_cases hsingle : chunk_hashes = []
  · have hshort : (fork_layout file_hash counter chunk_hashes).length = 16 + 2 := by rw [hlength, hsingle, List.length_nil]
    simp only [parse_hashset_answer, hcanonical]
    rw [if_pos hshort, htake, hsingle]
    rfl
  · have hpos : 0 < chunk_hashes.length := List.length_pos_of_ne_nil hsingle
    have hcount := hcounter.resolve_right hsingle
    have hread : decode ((fork_layout file_hash counter chunk_hashes).extract 16 18) = chunk_hashes.length := by
      rw [List.extract_eq_take_drop, fork_layout, List.append_assoc, List.drop_left' hfile,
        List.take_left' (length_encode 2 counter), decode_encode hfits, hcount]
    have hslices : hash_slices (fork_layout file_hash counter chunk_hashes) 18 chunk_hashes.length = chunk_hashes := by
      have hlist := hash_slices_flatten hchunks (file_hash ++ encode 2 counter) []
      rwa [List.append_nil, List.length_append, hfile, length_encode] at hlist
    have hforks : ((fork_layout file_hash counter chunk_hashes).length - 16 - 2) / 16 = chunk_hashes.length := by omega
    simp only [parse_hashset_answer, hcanonical]
    rw [if_neg (by omega), if_pos (by omega), hforks, if_pos ⟨hpos, by omega, hread⟩, htake, hslices]
    rfl

/-- Otherwise it is the canonical layout of other hashes. -/
theorem fork_layout_eq_canonical_layout (counter : Nat) (hfile : file_hash.length = 16)
    (hchunks : ∀ hash ∈ chunk_hashes, hash.length = 16)
    (hfirst : decode (file_hash.take 2) = 1 + chunk_hashes.length) :
    ∃ other others, other.length = 16 ∧ (∀ hash ∈ others, hash.length = 16) ∧ others.length = chunk_hashes.length ∧
      fork_layout file_hash counter chunk_hashes = canonical_layout other others := by
  refine ⟨file_hash.drop 2 ++ encode 2 counter, chunk_hashes, ?_, hchunks, rfl, ?_⟩
  · rw [List.length_append, List.length_drop, length_encode, hfile]
  · have hencode := encode_decode (file_hash.take 2)
    rw [List.length_take, hfile, hfirst] at hencode
    rw [canonical_layout, show encode 2 (1 + chunk_hashes.length) = file_hash.take 2 from hencode, List.flatten_cons,
      fork_layout, ← List.append_assoc, ← List.append_assoc, List.take_append_drop]

/-- Both layouts are read back, except for an answer of the fork whose file hash begins with the number of its hashes:
that is the canonical answer with other hashes, and it is read as such. -/
theorem parse_hashset_answer_layouts (hfile : file_hash.length = 16)
    (hchunks : ∀ hash ∈ chunk_hashes, hash.length = 16) :
    (1 + chunk_hashes.length < 2 ^ 16 →
      parse_hashset_answer (canonical_layout file_hash chunk_hashes) = .ok ⟨file_hash, chunk_hashes⟩) ∧
    ∀ counter < 2 ^ 16, counter = chunk_hashes.length ∨ chunk_hashes = [] →
      (decode (file_hash.take 2) ≠ 1 + chunk_hashes.length →
        parse_hashset_answer (fork_layout file_hash counter chunk_hashes) = .ok ⟨file_hash, chunk_hashes⟩) ∧
      (decode (file_hash.take 2) = 1 + chunk_hashes.length →
        ∃ other others, other.length = 16 ∧ (∀ hash ∈ others, hash.length = 16) ∧
          fork_layout file_hash counter chunk_hashes = canonical_layout other others ∧
          parse_hashset_answer (fork_layout file_hash counter chunk_hashes) = .ok ⟨other, others⟩) := by
  refine ⟨parse_canonical_layout hfile hchunks, fun counter hfits hcounter => ⟨?_, fun hfirst => ?_⟩⟩
  · exact parse_fork_layout hfile hchunks hfits hcounter
  · obtain ⟨other, others, hother, hothers, hmany, hsame⟩ :=
      fork_layout_eq_canonical_layout counter hfile hchunks hfirst
    refine ⟨other, others, hother, hothers, hsame, ?_⟩
    rw [hsame]
    apply parse_canonical_layout hother hothers
    have hlow := decode_lt (file_hash.take 2)
    rw [hfirst, List.length_take, hfile] at hlow
    rw [hmany]
    exact hlow

theorem parse_hashset_answer_layouts_single :
    parse_hashset_answer (canonical_layout (List.replicate 16 7) []) = .ok ⟨List.replicate 16 7, []⟩ ∧
      parse_hashset_answer (fork_layout (List.replicate 16 7) 0 []) = .ok ⟨List.replicate 16 7, []⟩ :=
  ⟨(parse_hashset_answer_layouts (List.length_replicate) (List.forall_mem_nil _)).1 (by decide),
    ((parse_hashset_answer_layouts (List.length_replicate) (List.forall_mem_nil _)).2 0 (by decide) (.inl rfl)).1
      (by decide)⟩

/-- The file hash `01 00 07 … 07` of a file of one part, as the fork sends it: the answer reads as one canonical hash. -/
theorem fork_layout_misread :
    ¬ ∀ (file_hash : Bytes) (counter : Nat) (chunk_hashes : List Bytes), file_hash.length = 16 →
      (∀ hash ∈ chunk_hashes, hash.length = 16) → counter < 2 ^ 16 → counter = chunk_hashes.length ∨ chunk_hashes = [] →
        parse_hashset_answer (fork_layout file_hash counter chunk_hashes) = .ok ⟨file_hash, chunk_hashes⟩ := by
  intro hall
  have hread := hall (1 :: 0 :: List.replicate 14 7) 0 [] (by decide) (List.forall_mem_nil _) (by decide) (.inl rfl)
  have hother : parse_hashset_answer (fork_layout (1 :: 0 :: List.replicate 14 7) 0 []) =
      .ok ⟨List.replicate 14 7 ++ [0, 0], []⟩ := by decide
  rw [hother, Except.ok.injEq, HashSetAnswer.mk.injEq] at hread
  exact absurd hread.1 (by decide)

end Layouts

end amuled.peer
