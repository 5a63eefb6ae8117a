import AmuleD.Hashes.Aich.Agreement

open merkle littleendian

namespace amuled.aich

section Sizes

variable (sha1 : HashFn 20) {data : Bytes} {part_start part_size : Nat}

theorem length_siblingEntries_hash {path : List Bool} {steps : List Step} :
    ∀ entry ∈ siblingEntries sha1 data path steps, entry.2.length = 20 := by
  induction steps generalizing path with
  | nil => simp [siblingEntries]
  | cons step rest ih =>
    intro entry hentry
    rcases List.mem_cons.mp hentry with rfl | hrest
    · exact length_root_digestTree sha1 data _ _ _
    · exact ih entry hrest

theorem length_partEntries_hash (part_start part_size file_size : Nat) :
    ∀ entry ∈ (partEntries sha1 data part_start part_size file_size).map identEntry,
      entry.2.length = 20 := by
  intro entry hentry
  obtain ⟨item, hitem, rfl⟩ := List.mem_map.mp hentry
  rw [partEntries, List.mem_append] at hitem
  rcases hitem with hsibling | hleaf
  · exact length_siblingEntries_hash sha1 item hsibling
  · have hmem : item.2 ∈ (leafEntries _ _ _).map Prod.snd := List.mem_map.mpr ⟨item, hleaf, rfl⟩
    rw [map_snd_leafEntries] at hmem
    exact length_leaf_digestTree sha1 data _ _ _ _ hmem

/-- The paths to the entries of a part of a file of at most eight parts: three
steps to the part, its own side, and six more below it. -/
theorem length_path_partEntries {file_size : Nat} (height : file_size ≤ 8 * PARTSIZE)
    (hpos : 0 < part_size) (hsmall : part_size ≤ PARTSIZE) :
    ∀ entry ∈ partEntries sha1 data part_start part_size file_size, entry.1.length ≤ 10 := by
  have hsteps : (partSteps part_start 0 file_size true).length ≤ 3 := by
    apply length_partSteps_le
    simp only [part_count, PARTSIZE] at *
    omega
  have hcount : block_count part_size ≤ 2 ^ 6 := by
    simp only [block_count, BLOCKSIZE, PARTSIZE] at *
    omega
  intro entry hentry
  rw [partEntries, List.mem_append] at hentry
  rcases hentry with hsibling | hleaf
  · have hbounds := (length_siblingEntries sha1 data entry hsibling).2
    simp only [List.length_nil] at hbounds
    omega
  · have hmem : entry.1 ∈ (leafEntries _ _ _).map Prod.fst := List.mem_map.mpr ⟨entry, hleaf, rfl⟩
    rw [map_fst_leafEntries, digestTree, merkle.Tree.leafPaths_map] at hmem
    obtain ⟨path, hpath, heq⟩ := List.mem_map.mp hmem
    have hlength := length_leafPaths_le hpos hsmall hcount _ _ path hpath
    rw [← heq]
    simp only [List.length_append, List.length_map, List.length_cons]
    omega

/-- The identifiers and the entry count of such a part fit in 16 bits. -/
theorem partEntries_fit (data : Bytes) (part_start : Nat) {file_size : Nat} (height : file_size ≤ 8 * PARTSIZE)
    (hpos : 0 < part_size) (hsmall : part_size ≤ PARTSIZE) :
    (∀ entry ∈ (partEntries sha1 data part_start part_size file_size).map identEntry,
      entry.1 < 256 ^ ident_width false) ∧
      ((partEntries sha1 data part_start part_size file_size).map identEntry).length < 256 ^ 2 := by
  constructor
  · intro entry hentry
    obtain ⟨item, hitem, rfl⟩ := List.mem_map.mp hentry
    have hlength := length_path_partEntries sha1 height hpos hsmall item hitem
    calc
      ident item.1 < 2 ^ (item.1.length + 1) := (ident_bounds item.1).2
      _ ≤ 2 ^ 16 := Nat.pow_le_pow_right (by omega) (by omega)
      _ = 256 ^ ident_width false := rfl
  · have hsteps : (partSteps part_start 0 file_size true).length ≤ 3 := by
      apply length_partSteps_le
      simp only [part_count, PARTSIZE] at *
      omega
    have hcount : block_count part_size ≤ 53 := by
      simp only [block_count, BLOCKSIZE, PARTSIZE] at *
      omega
    have hleaves := congrArg List.length (leaves_digestTree_of_le sha1 data hpos hsmall part_start
      (partSide (partSteps part_start 0 file_size true) true))
    rw [partBlockHashes, List.length_map, length_blocks] at hleaves
    have hleafEntries := congrArg List.length (map_snd_leafEntries
      ((partSteps part_start 0 file_size true).map Step.go_left)
      (partSide (partSteps part_start 0 file_size true) true)
      (digestTree sha1 data part_start part_size
        (partSide (partSteps part_start 0 file_size true) true)))
    rw [List.length_map] at hleafEntries
    rw [List.length_map, partEntries, List.length_append, count_siblingEntries, hleafEntries, hleaves]
    omega

end Sizes

section Builder

variable (sha1 : HashFn 20) {data : Bytes} {result : AichHashResult} {part_index : Int}
  {part_start part_size : Nat}

/-- The entries the builder collects on the file's own tree. -/
theorem builder_entries (hrange : part_range part_index data.length = .ok (part_start, part_size)) :
    ∃ siblings node part_ident,
      recovery_walk part_start part_size
          (nodeOf sha1 (digestTree sha1 data 0 data.length true) 0 data.length true) 1 =
        .ok (siblings, node, part_ident) ∧
      siblings ++ emit node part_ident =
        (partEntries sha1 data part_start part_size data.length).map identEntry := by
  obtain ⟨_, haligned, hinside, rfl⟩ := part_range_eq_ok hrange
  have hwalk := recovery_walk_spec sha1 data true (OnPath.root haligned hinside) []
  rw [ident_nil, List.nil_append] at hwalk
  refine ⟨_, _, _, hwalk, ?_⟩
  rw [emit_nodeOf, partEntries, List.map_append]

/-- A blob comes only from a file of at most eight parts, so it has the 16-bit
layout; it parses to the part's entries. -/
theorem aich_part_recovery_data_parses (hresult : aich_hash_data sha1 data = .ok result)
    (hlarge : BLOCKSIZE < data.length) {blob : Bytes}
    (hblob : aich_part_recovery_data sha1 result part_index = .ok blob) :
    ∃ part_start part_size, part_range part_index data.length = .ok (part_start, part_size) ∧
      aich_parse_recovery_data blob =
        .ok (Dict.ofList ((partEntries sha1 data part_start part_size data.length).map identEntry)) := by
  obtain ⟨hsize, _, _⟩ := aich_hash_data_eq sha1 (by omega) hresult
  rw [aich_part_recovery_data, hsize, if_neg (by omega), bind_eq_ok_iff] at hblob
  obtain ⟨⟨part_start, part_size⟩, hrange, hblob⟩ := hblob
  refine ⟨part_start, part_size, hrange, ?_⟩
  have height : data.length ≤ 8 * PARTSIZE := by
    by_contra hnine
    simp only [materialize_aich_tree_of_gt sha1 (Nat.lt_of_not_le hnine) hresult] at hblob
    cases hblob
  simp only at hblob
  rw [materialize_aich_tree_of_le sha1 (by omega) height hresult, ok_bind] at hblob
  split at hblob
  · cases hblob
  · obtain ⟨siblings, node, part_ident, hwalk, hentries⟩ := builder_entries sha1 hrange
    have hsmall : decide (data.length > 0xFFFFFFFF) = false := by
      simp only [PARTSIZE, decide_eq_false_iff_not] at *
      omega
    rw [is_left_nodeOf, Bool.toNat_true, hwalk, ok_bind] at hblob
    simp only [hentries, hsmall, bind_eq_ok_iff] at hblob
    obtain ⟨count, hcount, out, hout, hblob⟩ := hblob
    obtain rfl := Except.ok.inj hblob
    exact aich_parse_recovery_data_small (length_partEntries_hash sha1 _ _ _) hcount hout

/-- Every part of a file of at most eight parts has a recovery blob. -/
theorem aich_part_recovery_data_exists (hresult : aich_hash_data sha1 data = .ok result)
    (hlarge : BLOCKSIZE < data.length) (height : data.length ≤ 8 * PARTSIZE)
    (hrange : part_range part_index data.length = .ok (part_start, part_size)) :
    ∃ blob, aich_part_recovery_data sha1 result part_index = .ok blob := by
  obtain ⟨hsize, hmaster, _⟩ := aich_hash_data_eq sha1 (by omega) hresult
  obtain ⟨siblings, node, part_ident, hwalk, hentries⟩ := builder_entries sha1 hrange
  have hsmall : decide (data.length > 0xFFFFFFFF) = false := by
    simp only [PARTSIZE, decide_eq_false_iff_not] at *
    omega
  obtain ⟨_, _, hinside, hpart⟩ := part_range_eq_ok hrange
  have hpos : 0 < part_size := by
    simp only [PARTSIZE] at *
    omega
  obtain ⟨hidents, hcount⟩ := partEntries_fit sha1 data part_start height hpos (by omega)
  obtain ⟨out, hout⟩ := pack_entries_ok hidents
  rw [aich_part_recovery_data, hsize, if_neg (by omega), hrange, ok_bind]
  simp only
  rw [materialize_aich_tree_of_le sha1 (by omega) height hresult, ok_bind]
  simp only [digest_nodeOf, hmaster, ne_eq, not_true_eq_false, if_false, is_left_nodeOf,
    Bool.toNat_true, hwalk, ok_bind, hentries, hsmall,
    struct_pack_eq_ok_iff.mpr ⟨hcount, rfl⟩, hout, Bool.false_eq_true]
  exact ⟨_, rfl⟩

/-- The parts of a larger file have none: the rebuilding runs out of leaves. -/
theorem aich_part_recovery_data_of_gt (hresult : aich_hash_data sha1 data = .ok result)
    (hnine : 8 * PARTSIZE < data.length)
    (hrange : part_range part_index data.length = .ok (part_start, part_size)) :
    aich_part_recovery_data sha1 result part_index = .error .IndexError := by
  have hblock : BLOCKSIZE < data.length := by
    simp only [PARTSIZE, BLOCKSIZE] at *
    omega
  obtain ⟨hsize, _, _⟩ := aich_hash_data_eq sha1 (by omega) hresult
  rw [aich_part_recovery_data, hsize, if_neg (by omega), hrange, ok_bind]
  simp only
  rw [materialize_aich_tree_of_gt sha1 hnine hresult, error_bind]

/-- A recovery blob fits in a packet. -/
theorem length_aich_part_recovery_data_lt (hresult : aich_hash_data sha1 data = .ok result)
    (hlarge : BLOCKSIZE < data.length) {blob : Bytes}
    (hblob : aich_part_recovery_data sha1 result part_index = .ok blob) : blob.length < 2 ^ 21 := by
  obtain ⟨hsize, _, _⟩ := aich_hash_data_eq sha1 (by omega) hresult
  rw [aich_part_recovery_data, hsize, if_neg (by omega)] at hblob
  obtain ⟨⟨part_start, part_size⟩, hrange, hblob⟩ := bind_eq_ok_iff.mp hblob
  have height : data.length ≤ 8 * PARTSIZE := by
    by_contra hnine
    simp only [materialize_aich_tree_of_gt sha1 (Nat.lt_of_not_le hnine) hresult] at hblob
    cases hblob
  simp only at hblob
  rw [materialize_aich_tree_of_le sha1 (by omega) height hresult, ok_bind] at hblob
  split at hblob
  · cases hblob
  · obtain ⟨siblings, node, part_ident, hwalk, hentries⟩ := builder_entries sha1 hrange
    have hsmall : decide (data.length > 0xFFFFFFFF) = false := by
      simp only [PARTSIZE, decide_eq_false_iff_not] at *
      omega
    rw [is_left_nodeOf, Bool.toNat_true, hwalk, ok_bind] at hblob
    simp only [hentries, hsmall, bind_eq_ok_iff] at hblob
    obtain ⟨count, hcount, out, hout, hblob⟩ := hblob
    obtain rfl := Except.ok.inj hblob
    have hlength := length_pack_entries (length_partEntries_hash sha1 part_start part_size data.length) hout
    obtain ⟨hfew, rfl⟩ := struct_pack_eq_ok_iff.mp hcount
    simp only [Bool.false_eq_true, if_false, List.length_append, length_encode, hlength, ident_width]
    omega

end Builder

section Consumers

variable (sha1 : HashFn 20) {data : Bytes} {part_index : Int} {part_start part_size : Nat}
  {recovery : Bytes}

/-- A blob with the part's own entries authenticates the part's block hashes. -/
theorem aich_verified_part_blocks_of_parses
    (hrange : part_range part_index data.length = .ok (part_start, part_size))
    (hparse : aich_parse_recovery_data recovery =
      .ok (Dict.ofList ((partEntries sha1 data part_start part_size data.length).map identEntry))) :
    aich_verified_part_blocks sha1 recovery part_index data.length
        ((digestTree sha1 data 0 data.length true).root sha1) =
      .ok (partBlockHashes sha1 data part_start part_size) := by
  obtain ⟨hstart, haligned, hinside, hpart⟩ := part_range_eq_ok hrange
  have hpath := OnPath.root haligned hinside
  have hpos : 0 < part_size := by
    simp only [PARTSIZE] at *
    omega
  have hsmall : part_size ≤ PARTSIZE := by omega
  have htoNat : (part_index * (PARTSIZE : Int)).toNat = part_start := by
    rw [← hstart, Int.toNat_natCast]
  have hchain := sibling_chain_spec true hpath [] (by simp)
  have hroot := root_digestTree_climb sha1 data true hpath
  rw [ident_nil, ← hpart] at hchain
  rw [← hpart] at hroot
  have hleaves : collect_blocks (Dict.ofList ((partEntries sha1 data part_start part_size
        data.length).map identEntry))
      ((leafEntries ((partSteps part_start 0 data.length true).map Step.go_left)
        (partSide (partSteps part_start 0 data.length true) true)
        (digestTree sha1 data part_start part_size
          (partSide (partSteps part_start 0 data.length true) true))).map fun item => ident item.1) =
      .ok (partBlockHashes sha1 data part_start part_size) := by
    rw [← leaves_digestTree_of_le sha1 data hpos hsmall part_start
      (partSide (partSteps part_start 0 data.length true) true), ← map_snd_leafEntries]
    apply collect_blocks_spec
    intro item hitem
    exact get_partEntries sha1 data (List.mem_append_right _ hitem)
  have hidents := subtree_emit_spec hpos hsmall part_start
    (partSide (partSteps part_start 0 data.length true) true)
    ((partSteps part_start 0 data.length true).map Step.go_left)
  have hkeys := congrArg (List.map ident) (map_fst_leafEntries
    ((partSteps part_start 0 data.length true).map Step.go_left)
    (partSide (partSteps part_start 0 data.length true) true)
    (digestTree sha1 data part_start part_size
      (partSide (partSteps part_start 0 data.length true) true)))
  rw [digestTree, merkle.Tree.leafPaths_map, List.map_map, List.map_map] at hkeys
  have hsiblings : HasSiblings sha1 data (Dict.ofList ((partEntries sha1 data part_start part_size
      data.length).map identEntry)) [] (partSteps part_start 0 data.length true) :=
    fun item hitem => get_partEntries sha1 data (List.mem_append_left _ hitem)
  rw [aich_verified_part_blocks, aich_part_path_ident_spec hrange, ok_bind]
  simp only
  rw [hparse, ok_bind, aich_subtree_leaf_idents, hidents, ok_bind]
  simp only [Function.comp_def] at hkeys
  rw [← hkeys, ← digestTree, hleaves, ok_bind]
  simp only [htoNat]
  rw [build_tree_part sha1 data hpos hsmall, ok_bind, hchain, ok_bind, digest_nodeOf,
    combine_spec sha1 data hsiblings, ok_bind, ← hroot, if_neg (not_not_intro rfl)]
  rfl

/-- Together with the part's bytes it rebuilds the file's master hash. -/
theorem aich_rebuild_master_of_parses
    (hrange : part_range part_index data.length = .ok (part_start, part_size))
    (hparse : aich_parse_recovery_data recovery =
      .ok (Dict.ofList ((partEntries sha1 data part_start part_size data.length).map identEntry))) :
    aich_rebuild_master_from_part sha1 (data.extract part_start (part_start + part_size)) part_index
        recovery data.length =
      .ok ((digestTree sha1 data 0 data.length true).root sha1) := by
  obtain ⟨_, haligned, hinside, hpart⟩ := part_range_eq_ok hrange
  have hpath := OnPath.root haligned hinside
  have hpos : 0 < part_size := by
    simp only [PARTSIZE] at *
    omega
  have hsmall : part_size ≤ PARTSIZE := by omega
  have hlength : (data.extract part_start (part_start + part_size)).length = part_size := by
    rw [length_extract_of_le (by omega)]
    omega
  obtain ⟨part_result, hresult, _, _, hblocks⟩ := aich_hash_data_spec sha1
    (show 0 < (data.extract part_start (part_start + part_size)).length by omega)
  rw [hlength, leaves_digestTree_of_le sha1 _ hpos hsmall, partBlockHashes_extract] at hblocks
  have hsiblings : HasSiblings sha1 data (Dict.ofList ((partEntries sha1 data part_start part_size
      data.length).map identEntry)) [] (partSteps part_start 0 data.length true) :=
    fun item hitem => get_partEntries sha1 data (List.mem_append_left _ hitem)
  have hresolve := resolve_spec sha1 true hpath (hblocks.trans (by rw [hpart]))
    (show 0 <<< 1 ||| true.toNat = ident [] from rfl) hsiblings
    (fun ancestor hancestor => get_partEntries_above sha1 data (by simpa using hancestor))
  rw [aich_rebuild_master_from_part, hrange, ok_bind]
  simp only [hlength, ne_eq, not_true_eq_false, if_false]
  rw [← hpart] at hresolve
  rw [hparse, ok_bind, hresult, ok_bind, hresolve, ok_bind]
  rfl

end Consumers

/-- Both consumers accept the blob the builder makes for a part: one returns the
hashes of the part's blocks, the other rebuilds the master hash from the part's
bytes. -/
theorem aich_part_recovery_data_round_trip (sha1 : HashFn 20) {data : Bytes}
    {result : AichHashResult} (hresult : aich_hash_data sha1 data = .ok result)
    (hlarge : BLOCKSIZE < data.length) {part : Nat} (hpart : part * PARTSIZE < data.length)
    {blob : Bytes} (hblob : aich_part_recovery_data sha1 result part = .ok blob) :
    aich_verified_part_blocks sha1 blob part data.length result.master_hash =
        .ok (partBlockHashes sha1 data (part * PARTSIZE)
          (min PARTSIZE (data.length - part * PARTSIZE))) ∧
      aich_rebuild_master_from_part sha1
          (data.extract (part * PARTSIZE) (min ((part + 1) * PARTSIZE) data.length)) part blob
          data.length =
        .ok result.master_hash := by
  obtain ⟨part_start, part_size, hrange, hparse⟩ :=
    aich_part_recovery_data_parses sha1 hresult hlarge hblob
  obtain ⟨rfl, rfl⟩ := Prod.mk.inj (Except.ok.inj ((part_range_natCast hpart).symm.trans hrange))
  obtain ⟨_, hmaster, _⟩ := aich_hash_data_eq sha1 (by omega) hresult
  have hend : min ((part + 1) * PARTSIZE) data.length =
      part * PARTSIZE + min PARTSIZE (data.length - part * PARTSIZE) := by
    rw [Nat.succ_mul]
    omega
  rw [hmaster, hend]
  exact ⟨aich_verified_part_blocks_of_parses sha1 hrange hparse,
    aich_rebuild_master_of_parses sha1 hrange hparse⟩

/-- The smallest file that has a blob: one block and one byte. -/
theorem aich_part_recovery_data_round_trip_two_blocks :
    ∃ result blob,
      aich_hash_data (zeroHash 20) (List.replicate (BLOCKSIZE + 1) 7) = .ok result ∧
      aich_part_recovery_data (zeroHash 20) result (0 : Nat) = .ok blob ∧
      aich_verified_part_blocks (zeroHash 20) blob (0 : Nat) (BLOCKSIZE + 1) result.master_hash =
        .ok [List.replicate 20 0, List.replicate 20 0] := by
  have hlength : (List.replicate (BLOCKSIZE + 1) (7 : UInt8)).length = BLOCKSIZE + 1 :=
    List.length_replicate
  have hpart : 0 * PARTSIZE < (List.replicate (BLOCKSIZE + 1) (7 : UInt8)).length := by
    rw [hlength]
    omega
  obtain ⟨result, hresult, _⟩ := aich_hash_data_spec (zeroHash 20)
    (show 0 < (List.replicate (BLOCKSIZE + 1) (7 : UInt8)).length by omega)
  obtain ⟨blob, hblob⟩ := aich_part_recovery_data_exists (zeroHash 20) hresult (by omega)
    (by rw [hlength]; simp only [BLOCKSIZE, PARTSIZE]; omega) (part_range_natCast hpart)
  have hround :=
    (aich_part_recovery_data_round_trip (zeroHash 20) hresult (by omega) hpart hblob).1
  refine ⟨result, blob, hresult, hblob, ?_⟩
  rw [hlength] at hround
  rw [hround]
  rfl

end amuled.aich
