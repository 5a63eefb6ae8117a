import AmuleD.Hashes.Aich.BuildTree

open merkle

namespace amuled.aich

theorem countsAgree_of_le_part {size : Nat} (hpos : 0 < size) (hsmall : size ≤ PARTSIZE)
    (start : Nat) (is_left : Bool) : CountsAgree start size is_left := by
  induction start, size, is_left using splitTree.induct with
  | case1 start size is_left hblock => exact .leaf hblock
  | case2 start size is_left hblock ihl ihr =>
    have hlarge := Nat.lt_of_not_le hblock
    have hbounds := split_left_size_bounds hlarge is_left
    refine .node hlarge ?_ (ihl (by omega) (by omega)) (ihr (by omega) (by omega))
    rw [leaves_splitTree_of_le (by omega) (by omega), length_blocks]

/-- The blocks of a run of parts, against the 53 leaves of each of them. -/
theorem block_count_parts_eq_iff (parts : Nat) :
    53 * parts = block_count (parts * PARTSIZE) ↔ parts ≤ 4 := by
  simp only [block_count, PARTSIZE, BLOCKSIZE]
  omega

/-- A left branch of at most four parts is cut at the right leaf. -/
theorem countsAgree_of_left_share {size : Nat} {is_left : Bool} (hlarge : PARTSIZE < size)
    (hshare : leftShare (part_count size) is_left ≤ 4) (start : Nat)
    (hleft : CountsAgree start (split_left_size size is_left) true)
    (hright : CountsAgree (start + split_left_size size is_left)
      (size - split_left_size size is_left) false) : CountsAgree start size is_left := by
  have hparts : 2 ≤ part_count size := by
    simp only [part_count, PARTSIZE] at *
    omega
  refine .node (by simp only [PARTSIZE, BLOCKSIZE] at *; omega) ?_ hleft hright
  rw [split_left_size_of_gt hlarge, length_leaves_parts (leftShare_pos hparts is_left)]
  exact (block_count_parts_eq_iff _).mpr hshare

theorem countsAgree_of_le_four_parts {size : Nat} (hpos : 0 < size) (hfour : size ≤ 4 * PARTSIZE)
    (start : Nat) (is_left : Bool) : CountsAgree start size is_left := by
  induction start, size, is_left using splitTree.induct with
  | case1 start size is_left hblock => exact .leaf hblock
  | case2 start size is_left hblock ihl ihr =>
    by_cases hsmall : size ≤ PARTSIZE
    · exact countsAgree_of_le_part hpos hsmall start is_left
    · have hbounds := split_left_size_bounds (Nat.lt_of_not_le hblock) is_left
      have hparts : 2 ≤ part_count size ∧ part_count size ≤ 4 := by
        simp only [part_count, PARTSIZE] at *
        omega
      have hshare := leftShare_lt hparts.1 is_left
      exact countsAgree_of_left_share (by omega) (by omega) start (ihl (by omega) (by omega))
        (ihr (by omega) (by omega))

/-- Up to eight parts both halves of the root have at most four. -/
theorem countsAgree_of_le_eight_parts {size : Nat} (hpos : 0 < size)
    (height : size ≤ 8 * PARTSIZE) (start : Nat) : CountsAgree start size true := by
  by_cases hsmall : size ≤ PARTSIZE
  · exact countsAgree_of_le_part hpos hsmall start true
  · have hlarge := Nat.lt_of_not_le hsmall
    have hbounds := split_left_size_bounds
      (show BLOCKSIZE < size by simp only [PARTSIZE, BLOCKSIZE] at *; omega) true
    have hsize := split_left_size_of_gt hlarge true
    have hshare : leftShare (part_count size) true ≤ 4 := by
      simp only [leftShare, if_true, part_count, PARTSIZE] at *
      omega
    refine countsAgree_of_left_share hlarge hshare start ?_ ?_
    · exact countsAgree_of_le_four_parts hbounds.1 (by rw [hsize]; exact Nat.mul_le_mul_right _ hshare) _ _
    · refine countsAgree_of_le_four_parts (by omega) ?_ _ _
      rw [hsize]
      simp only [leftShare, if_true, part_count, PARTSIZE] at *
      omega

/-- From the ninth part on the left half of the root gets fewer leaves than it
has, and the rebuilding runs out of them. -/
theorem build_tree_of_gt_eight_parts (sha1 : HashFn 20) {size : Nat} (hlarge : 8 * PARTSIZE < size)
    (start : Nat) {leaves : List Bytes}
    (hlength : leaves.length = (splitTree start size true).leaves.length) :
    build_tree sha1 leaves start size true = .error .IndexError := by
  have hpart : PARTSIZE < size := by
    simp only [PARTSIZE] at *
    omega
  have hblock : BLOCKSIZE < size := by
    simp only [PARTSIZE, BLOCKSIZE] at *
    omega
  have hbounds := split_left_size_bounds hblock true
  have hshare : 5 ≤ leftShare (part_count size) true := by
    simp only [leftShare, if_true, part_count, PARTSIZE] at *
    omega
  have hleaves := length_leaves_parts (show 0 < leftShare (part_count size) true by omega) start true
  have hcount := block_count_le_length_leaves start (split_left_size size true) true
  have hne := (block_count_parts_eq_iff (leftShare (part_count size) true)).not.mpr (by omega)
  rw [split_left_size_of_gt hpart, hleaves] at hcount
  have hshort : (leaves.take (block_count (split_left_size size true))).length <
      (splitTree start (split_left_size size true) true).leaves.length := by
    rw [List.length_take, split_left_size_of_gt hpart, hleaves]
    omega
  rw [build_tree.eq_def, if_neg (by omega)]
  simp only
  rw [if_neg (by omega), build_tree_short sha1 _ _ _ hshort, error_bind]

/-- The tree rebuilt from a file of at most eight parts is the file's own. -/
theorem materialize_aich_tree_of_le (sha1 : HashFn 20) {data : Bytes} (hpos : 0 < data.length)
    (height : data.length ≤ 8 * PARTSIZE) {result : AichHashResult}
    (hresult : aich_hash_data sha1 data = .ok result) :
    materialize_aich_tree sha1 result =
      .ok (nodeOf sha1 (digestTree sha1 data 0 data.length true) 0 data.length true) := by
  obtain ⟨hsize, _, hblocks⟩ := aich_hash_data_eq sha1 hpos hresult
  rw [materialize_aich_tree, hsize, hblocks,
    build_tree_spec sha1 (countsAgree_of_le_eight_parts hpos height 0)
      (by rw [digestTree, merkle.Tree.leaves_map, List.length_map]),
    digestTree, merkle.Tree.fill_leaves_map]

theorem materialize_aich_tree_of_gt (sha1 : HashFn 20) {data : Bytes}
    (hlarge : 8 * PARTSIZE < data.length) {result : AichHashResult}
    (hresult : aich_hash_data sha1 data = .ok result) :
    materialize_aich_tree sha1 result = .error .IndexError := by
  obtain ⟨hsize, _, hblocks⟩ := aich_hash_data_eq sha1 (by omega) hresult
  rw [materialize_aich_tree, hsize, hblocks]
  exact build_tree_of_gt_eight_parts sha1 hlarge 0
    (by rw [digestTree, merkle.Tree.leaves_map, List.length_map])

/-- The tree rebuilt from a hash result is the tree of the bytes: it exists,
its leaves carry the hashes of their own bytes and are the stored block hashes
in order, and its root is the master hash. -/
def RebuiltTreeAgrees (sha1 : HashFn 20) (data : Bytes) (result : AichHashResult) : Prop :=
  ∃ root, materialize_aich_tree sha1 result = .ok root ∧
    (∀ leaf ∈ root.leafNodes,
      leaf.digest = sha1 (data.extract leaf.start (leaf.start + leaf.size))) ∧
    root.leafNodes.map AichNode.digest = result.block_hashes ∧
    root.digest = result.master_hash

/-- The rebuilt tree agrees with the hashed one exactly up to eight parts. A
part has 53 leaves but only 52.8 blocks, so the leaf count that `_build_tree`
takes for a left branch of five parts or more is too small. -/
theorem materialize_aich_tree_agrees_iff (sha1 : HashFn 20) (data : Bytes) (hpos : 0 < data.length) :
    ∃ result, aich_hash_data sha1 data = .ok result ∧
      (RebuiltTreeAgrees sha1 data result ↔ data.length ≤ 8 * PARTSIZE) := by
  obtain ⟨result, hresult, _, hmaster, hblocks⟩ := aich_hash_data_spec sha1 hpos
  refine ⟨result, hresult, ?_, ?_⟩
  · rintro ⟨root, hroot, _⟩
    by_contra hlarge
    rw [materialize_aich_tree_of_gt sha1 (Nat.lt_of_not_le hlarge) hresult] at hroot
    cases hroot
  · intro height
    refine ⟨_, materialize_aich_tree_of_le sha1 hpos height hresult,
      leafNodes_digestTree sha1 data 0 data.length true, ?_, ?_⟩
    · rw [leafNodes_nodeOf, hblocks]
    · rw [digest_nodeOf, hmaster]

theorem materialize_aich_tree_agrees_iff_one_byte :
    ∃ result, aich_hash_data (zeroHash 20) [7] = .ok result ∧
      (RebuiltTreeAgrees (zeroHash 20) [7] result ↔ [(7 : UInt8)].length ≤ 8 * PARTSIZE) :=
  materialize_aich_tree_agrees_iff (zeroHash 20) [7] (by decide)

/-- The first file that is too large: one byte more than eight parts. -/
theorem materialize_aich_tree_nine_parts :
    ∃ result, aich_hash_data (zeroHash 20) (List.replicate (8 * PARTSIZE + 1) 0) = .ok result ∧
      materialize_aich_tree (zeroHash 20) result = .error .IndexError ∧
      ¬ RebuiltTreeAgrees (zeroHash 20) (List.replicate (8 * PARTSIZE + 1) 0) result := by
  have hlength : (List.replicate (8 * PARTSIZE + 1) (0 : UInt8)).length = 8 * PARTSIZE + 1 :=
    List.length_replicate
  obtain ⟨result, hresult, _⟩ := aich_hash_data_spec (zeroHash 20)
    (show 0 < (List.replicate (8 * PARTSIZE + 1) (0 : UInt8)).length by omega)
  have herror := materialize_aich_tree_of_gt (zeroHash 20) (by omega) hresult
  refine ⟨result, hresult, herror, ?_⟩
  rintro ⟨root, hroot, _⟩
  rw [herror] at hroot
  cases hroot

end amuled.aich
