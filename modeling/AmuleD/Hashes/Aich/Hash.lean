import AmuleD.Hashes.Aich.Split

open merkle

namespace amuled.aich

/-- AICH metadata of one immutable file image. The fields' proofs are the
checks of `__post_init__`. -/
structure AichHashResult where
  file_size : Nat
  master_hash : Bytes
  block_hashes : List Bytes
  length_master_hash : master_hash.length = 20
  length_block_hash : ∀ block_hash ∈ block_hashes, block_hash.length = 20

/-- The dataclass constructor with its `__post_init__`. -/
def AichHashResult.post_init (file_size : Nat) (master_hash : Bytes) (block_hashes : List Bytes) :
    Except Exc AichHashResult :=
  if hmaster : master_hash.length = 20 then
    if hblocks : ∀ block_hash ∈ block_hashes, block_hash.length = 20 then
      .ok ⟨file_size, master_hash, block_hashes, hmaster, hblocks⟩
    else
      let index := block_hashes.findIdx (fun block_hash => block_hash.length ≠ 20)
      let got := (block_hashes.getD index []).length
      throw (.AichError s!"AICH block hash {index} must contain 20 bytes, got {got}")
  else throw (.AichError "AICH master hash must contain 20 bytes")

def read_segment (handle : Bytes) (start size : Nat) : Except Exc Bytes :=
  let data := handle.extract start (start + size)
  let got := data.length
  if got ≠ size then
    throw (.AichError s!"unexpected end of AICH input: start={start}, expected={size}, got={got}")
  else pure data

theorem read_segment_of_le {handle : Bytes} {start size : Nat}
    (hbound : start + size ≤ handle.length) :
    read_segment handle start size = .ok (handle.extract start (start + size)) := by
  have hlength : (handle.extract start (start + size)).length = size := by
    rw [length_extract_of_le hbound]
    omega
  simp only [read_segment, hlength, ne_eq, not_true_eq_false, if_false, pure_eq_ok]

def invalid_split (size left right : Nat) : Exc :=
  let base := if size ≤ PARTSIZE then BLOCKSIZE else PARTSIZE
  .AichError s!"invalid AICH split: size={size}, base={base}, left={left}, right={right}"

/-- `_hash_aich_segment`: the digest of a segment, and the leaf list after the
segment's leaves were appended to it. -/
def hash_aich_segment (sha1 : HashFn 20) (handle : Bytes) (start size : Nat)
    (is_left_branch : Bool) (leaves : List Bytes) : Except Exc (Bytes × List Bytes) :=
  if size = 0 then pure (sha1 [], leaves)
  else if size ≤ BLOCKSIZE then do
    let data ← read_segment handle start size
    pure (sha1 data, leaves ++ [sha1 data])
  else
    let left_size := split_left_size size is_left_branch
    let right_size := size - left_size
    if left_size = 0 ∨ right_size = 0 then throw (invalid_split size left_size right_size)
    else do
      let (left_hash, leaves) ← hash_aich_segment sha1 handle start left_size true leaves
      let (right_hash, leaves) ←
        hash_aich_segment sha1 handle (start + left_size) right_size false leaves
      pure (sha1 (left_hash ++ right_hash), leaves)
termination_by size
decreasing_by all_goals omega

/-- `aich_hash_data`, and `aich_hash_file` on a file that holds `data`. -/
def aich_hash_data (sha1 : HashFn 20) (data : Bytes) : Except Exc AichHashResult := do
  let (master, leaves) ← hash_aich_segment sha1 data 0 data.length true []
  AichHashResult.post_init data.length master leaves

/-- The bytes of a segment. -/
def Segment.bytes (data : Bytes) (segment : Segment) : Bytes :=
  data.extract segment.start (segment.start + segment.size)

/-- The tree of leaf digests below one segment of the file. -/
def digestTree (sha1 : HashFn 20) (data : Bytes) (start size : Nat) (is_left : Bool) : merkle.Tree Bytes :=
  (splitTree start size is_left).map (fun segment => sha1 (segment.bytes data))

theorem digestTree_of_le (sha1 : HashFn 20) (data : Bytes) {size : Nat} (hsmall : size ≤ BLOCKSIZE)
    (start : Nat) (is_left : Bool) :
    digestTree sha1 data start size is_left = .leaf (sha1 (data.extract start (start + size))) := by
  rw [digestTree, splitTree_of_le hsmall]
  rfl

theorem digestTree_of_gt (sha1 : HashFn 20) (data : Bytes) {size : Nat} (hlarge : BLOCKSIZE < size)
    (start : Nat) (is_left : Bool) :
    digestTree sha1 data start size is_left =
      .node (digestTree sha1 data start (split_left_size size is_left) true)
        (digestTree sha1 data (start + split_left_size size is_left)
          (size - split_left_size size is_left) false) := by
  rw [digestTree, splitTree_of_gt hlarge, merkle.Tree.map]
  rfl

theorem length_leaf_digestTree (sha1 : HashFn 20) (data : Bytes) (start size : Nat)
    (is_left : Bool) :
    ∀ value ∈ (digestTree sha1 data start size is_left).leaves, value.length = 20 := by
  intro value hvalue
  rw [digestTree, merkle.Tree.leaves_map] at hvalue
  obtain ⟨segment, _, rfl⟩ := List.mem_map.mp hvalue
  exact sha1.length_apply _

theorem length_root_digestTree (sha1 : HashFn 20) (data : Bytes) (start size : Nat)
    (is_left : Bool) : ((digestTree sha1 data start size is_left).root sha1).length = 20 :=
  merkle.Tree.length_root _ sha1.length_apply _ (length_leaf_digestTree sha1 data start size is_left)

/-- Hashing a segment of the file computes the Merkle root of its tree and
appends the tree's leaves. -/
theorem hash_aich_segment_spec (sha1 : HashFn 20) (data : Bytes) {start size : Nat}
    (hpos : 0 < size) (hbound : start + size ≤ data.length) (is_left : Bool) (leaves : List Bytes) :
    hash_aich_segment sha1 data start size is_left leaves =
      .ok ((digestTree sha1 data start size is_left).root sha1,
        leaves ++ (digestTree sha1 data start size is_left).leaves) := by
  induction start, size, is_left using splitTree.induct generalizing leaves with
  | case1 start size is_left hblock =>
    rw [hash_aich_segment, if_neg (by omega), if_pos hblock, read_segment_of_le hbound, ok_bind,
      digestTree_of_le sha1 data hblock]
    rfl
  | case2 start size is_left hblock ihl ihr =>
    have hbounds := split_left_size_bounds (Nat.lt_of_not_le hblock) is_left
    rw [hash_aich_segment, if_neg (by omega), if_neg hblock]
    simp only
    rw [if_neg (by omega), ihl (by omega) (by omega), ok_bind]
    simp only
    rw [ihr (by omega) (by omega), ok_bind, digestTree_of_gt sha1 data (Nat.lt_of_not_le hblock)]
    simp [merkle.Tree.root, merkle.Tree.leaves]

/-- The hash result of a non-empty image exists and holds the root and the
leaves of the image's tree. -/
theorem aich_hash_data_spec (sha1 : HashFn 20) {data : Bytes} (hpos : 0 < data.length) :
    ∃ result, aich_hash_data sha1 data = .ok result ∧ result.file_size = data.length ∧
      result.master_hash = (digestTree sha1 data 0 data.length true).root sha1 ∧
      result.block_hashes = (digestTree sha1 data 0 data.length true).leaves := by
  have hmaster := length_root_digestTree sha1 data 0 data.length true
  have hblocks := length_leaf_digestTree sha1 data 0 data.length true
  refine ⟨⟨data.length, _, _, hmaster, hblocks⟩, ?_, rfl, rfl, rfl⟩
  rw [aich_hash_data, hash_aich_segment_spec sha1 data hpos (by omega), ok_bind]
  simp only [List.nil_append, AichHashResult.post_init]
  rw [dif_pos hmaster, dif_pos hblocks]

/-- Hashing bytes in memory never fails, the empty string included. -/
theorem aich_hash_data_ok (sha1 : HashFn 20) (data : Bytes) : ∃ result, aich_hash_data sha1 data = .ok result := by
  obtain hzero | hpos := Nat.eq_zero_or_pos data.length
  · refine ⟨⟨0, sha1 [], [], sha1.length_digest [], by simp⟩, ?_⟩
    rw [aich_hash_data, hzero, hash_aich_segment.eq_def, if_pos rfl, pure_eq_ok, ok_bind]
    simp only [AichHashResult.post_init]
    rw [dif_pos (sha1.length_digest []), dif_pos (by simp)]
  · obtain ⟨result, hresult, _⟩ := aich_hash_data_spec sha1 hpos
    exact ⟨result, hresult⟩

theorem aich_hash_data_eq (sha1 : HashFn 20) {data : Bytes} (hpos : 0 < data.length)
    {result : AichHashResult} (hresult : aich_hash_data sha1 data = .ok result) :
    result.file_size = data.length ∧
      result.master_hash = (digestTree sha1 data 0 data.length true).root sha1 ∧
      result.block_hashes = (digestTree sha1 data 0 data.length true).leaves := by
  obtain ⟨actual, hactual, hfields⟩ := aich_hash_data_spec sha1 hpos
  rw [hactual] at hresult
  obtain rfl := Except.ok.inj hresult
  exact hfields

end amuled.aich
