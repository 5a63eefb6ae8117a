import AmuleD.Basic
import AmuleD.Merkle.Tree

open merkle

namespace amuled.aich

/-- The size of a segment's left branch. `_hash_aich_segment`, `_build_tree`,
`aich_part_path_ident`, `aich_verified_part_blocks` and
`aich_rebuild_master_from_part` all write this computation out. -/
def split_left_size (size : Nat) (is_left : Bool) : Nat :=
  let base_size := if size ≤ PARTSIZE then BLOCKSIZE else PARTSIZE
  let block_count := (size + base_size - 1) / base_size
  let left_block_count := if is_left then (block_count + 1) / 2 else block_count / 2
  let left_size := left_block_count * base_size
  if left_size ≥ size then block_count / 2 * base_size else left_size

/-- The number of blocks in a segment that starts on a block boundary. -/
def block_count (size : Nat) : Nat := (size + BLOCKSIZE - 1) / BLOCKSIZE

/-- The number of parts in a segment that starts on a part boundary. -/
def part_count (size : Nat) : Nat := (size + PARTSIZE - 1) / PARTSIZE

/-- The half of a count that goes to the left branch: a left branch takes the
odd block itself. -/
def leftShare (count : Nat) (is_left : Bool) : Nat := if is_left then (count + 1) / 2 else count / 2

theorem leftShare_pos {count : Nat} (hcount : 2 ≤ count) (is_left : Bool) :
    0 < leftShare count is_left := by
  cases is_left <;> simp only [leftShare, if_true, Bool.false_eq_true, if_false] <;> omega

theorem leftShare_lt {count : Nat} (hcount : 2 ≤ count) (is_left : Bool) :
    leftShare count is_left < count := by
  cases is_left <;> simp only [leftShare, if_true, Bool.false_eq_true, if_false] <;> omega

/-- Below one part a segment is split by whole blocks. The source's fallback
for a left branch that would swallow the segment never applies. -/
theorem split_left_size_of_le {size : Nat} (hlarge : BLOCKSIZE < size) (hsmall : size ≤ PARTSIZE)
    (is_left : Bool) :
    split_left_size size is_left = leftShare (block_count size) is_left * BLOCKSIZE := by
  have hcount : 2 ≤ block_count size := by
    unfold block_count
    simp only [BLOCKSIZE] at *
    omega
  have hlt := leftShare_lt hcount is_left
  have hfit : ¬ leftShare (block_count size) is_left * BLOCKSIZE ≥ size := by
    unfold block_count at *
    simp only [BLOCKSIZE] at *
    omega
  simp only [split_left_size, if_pos hsmall]
  exact if_neg hfit

/-- Above one part a segment is split by whole parts. -/
theorem split_left_size_of_gt {size : Nat} (hlarge : PARTSIZE < size) (is_left : Bool) :
    split_left_size size is_left = leftShare (part_count size) is_left * PARTSIZE := by
  have hcount : 2 ≤ part_count size := by
    unfold part_count
    simp only [PARTSIZE] at *
    omega
  have hlt := leftShare_lt hcount is_left
  have hfit : ¬ leftShare (part_count size) is_left * PARTSIZE ≥ size := by
    unfold part_count at *
    simp only [PARTSIZE] at *
    omega
  simp only [split_left_size, if_neg (Nat.not_le.mpr hlarge)]
  exact if_neg hfit

/-- Both branches of a split are non-empty. -/
theorem split_left_size_bounds {size : Nat} (hlarge : BLOCKSIZE < size) (is_left : Bool) :
    0 < split_left_size size is_left ∧ split_left_size size is_left < size := by
  by_cases hsmall : size ≤ PARTSIZE
  · rw [split_left_size_of_le hlarge hsmall]
    have hcount : 2 ≤ block_count size := by
      unfold block_count
      simp only [BLOCKSIZE] at *
      omega
    have hpos := leftShare_pos hcount is_left
    have hlt := leftShare_lt hcount is_left
    unfold block_count at *
    simp only [BLOCKSIZE] at *
    omega
  · rw [split_left_size_of_gt (by omega)]
    have hcount : 2 ≤ part_count size := by
      unfold part_count
      simp only [PARTSIZE] at *
      omega
    have hpos := leftShare_pos hcount is_left
    have hlt := leftShare_lt hcount is_left
    unfold part_count at *
    simp only [PARTSIZE] at *
    omega

/-- A range of the file, `[start, start + size)`. -/
structure Segment where
  start : Nat
  size : Nat
  deriving DecidableEq, Repr

/-- The ranges of the AICH tree below one segment: what the source's walks
all split alike, without any hash. -/
def splitTree (start size : Nat) (is_left : Bool) : merkle.Tree Segment :=
  if size ≤ BLOCKSIZE then .leaf ⟨start, size⟩
  else
    .node (splitTree start (split_left_size size is_left) true)
      (splitTree (start + split_left_size size is_left)
        (size - split_left_size size is_left) false)
termination_by size
decreasing_by
  · exact (split_left_size_bounds (by omega) is_left).2
  · rename_i hlarge
    have hbounds := split_left_size_bounds (Nat.lt_of_not_le hlarge) is_left
    omega

theorem splitTree_of_le {size : Nat} (hsmall : size ≤ BLOCKSIZE) (start : Nat) (is_left : Bool) :
    splitTree start size is_left = .leaf ⟨start, size⟩ := by
  rw [splitTree, if_pos hsmall]

theorem splitTree_of_gt {size : Nat} (hlarge : BLOCKSIZE < size) (start : Nat) (is_left : Bool) :
    splitTree start size is_left =
      .node (splitTree start (split_left_size size is_left) true)
        (splitTree (start + split_left_size size is_left)
          (size - split_left_size size is_left) false) := by
  rw [splitTree, if_neg (by omega)]

theorem leaves_splitTree_of_gt {size : Nat} (hlarge : BLOCKSIZE < size) (start : Nat) (is_left : Bool) :
    (splitTree start size is_left).leaves =
      (splitTree start (split_left_size size is_left) true).leaves ++
        (splitTree (start + split_left_size size is_left)
          (size - split_left_size size is_left) false).leaves := by
  rw [splitTree_of_gt hlarge, merkle.Tree.leaves]

/-- The blocks of a segment, left to right; the last one may be short. -/
def blocks (start size : Nat) : List Segment :=
  (List.range (block_count size)).map fun index =>
    ⟨start + index * BLOCKSIZE, min BLOCKSIZE (size - index * BLOCKSIZE)⟩

@[simp] theorem length_blocks (start size : Nat) : (blocks start size).length = block_count size := by
  simp [blocks]

theorem blocks_of_le {size : Nat} (hpos : 0 < size) (hsmall : size ≤ BLOCKSIZE) (start : Nat) :
    blocks start size = [⟨start, size⟩] := by
  have hcount : block_count size = 1 := by
    unfold block_count
    simp only [BLOCKSIZE] at *
    omega
  simp [blocks, hcount, hsmall]

/-- Blocks of a segment cut at a block boundary are those of its two sides. -/
theorem blocks_split {size count : Nat} (hcut : count * BLOCKSIZE < size) (start : Nat) :
    blocks start size = blocks start (count * BLOCKSIZE) ++
      blocks (start + count * BLOCKSIZE) (size - count * BLOCKSIZE) := by
  have hleft : block_count (count * BLOCKSIZE) = count := by
    unfold block_count
    simp only [BLOCKSIZE] at *
    omega
  have hright : block_count size = count + block_count (size - count * BLOCKSIZE) := by
    unfold block_count
    simp only [BLOCKSIZE] at *
    omega
  unfold blocks
  rw [hleft, hright, List.range_add, List.map_append, List.map_map]
  congr 1
  · apply List.map_congr_left
    intro index hindex
    rw [List.mem_range] at hindex
    simp only [BLOCKSIZE, Segment.mk.injEq, true_and] at *
    omega
  · apply List.map_congr_left
    intro index _
    simp only [Function.comp_apply, BLOCKSIZE, Segment.mk.injEq] at *
    omega

/-- Within one part the leaves of the tree are its blocks, whatever side the
segment is on. -/
theorem leaves_splitTree_of_le {size : Nat} (hpos : 0 < size) (hsmall : size ≤ PARTSIZE)
    (start : Nat) (is_left : Bool) : (splitTree start size is_left).leaves = blocks start size := by
  induction start, size, is_left using splitTree.induct with
  | case1 start size is_left hblock =>
    rw [splitTree_of_le hblock, blocks_of_le hpos hblock]
    rfl
  | case2 start size is_left hblock ihl ihr =>
    have hbounds := split_left_size_bounds (Nat.lt_of_not_le hblock) is_left
    rw [leaves_splitTree_of_gt (by omega), ihl (by omega) (by omega), ihr (by omega) (by omega)]
    have hsize := split_left_size_of_le (by omega) hsmall is_left
    rw [hsize] at hbounds ⊢
    exact (blocks_split hbounds.2 start).symm

/-- The tree of a segment has at least one leaf for each of its blocks. -/
theorem block_count_le_length_leaves (start size : Nat) (is_left : Bool) :
    block_count size ≤ (splitTree start size is_left).leaves.length := by
  induction start, size, is_left using splitTree.induct with
  | case1 start size is_left hblock =>
    rw [splitTree_of_le hblock]
    simp only [block_count, merkle.Tree.leaves, List.length_singleton, BLOCKSIZE] at *
    omega
  | case2 start size is_left hblock ihl ihr =>
    have hbounds := split_left_size_bounds (Nat.lt_of_not_le hblock) is_left
    rw [leaves_splitTree_of_gt (by omega), List.length_append]
    simp only [block_count, BLOCKSIZE] at *
    omega

theorem block_count_partSize : block_count PARTSIZE = 53 := by
  simp only [block_count, PARTSIZE, BLOCKSIZE, Nat.reduceAdd, Nat.reduceSub, Nat.reduceDiv]

/-- A run of whole parts has 53 leaves for each part, one more than its blocks
from five parts on. -/
theorem length_leaves_parts {parts : Nat} (hpos : 0 < parts) (start : Nat) (is_left : Bool) :
    (splitTree start (parts * PARTSIZE) is_left).leaves.length = 53 * parts := by
  induction parts using Nat.strongRecOn generalizing start is_left with
  | _ parts ih =>
    by_cases hone : parts = 1
    · subst hone
      rw [Nat.one_mul, leaves_splitTree_of_le partSize_pos (Nat.le_refl _), length_blocks,
        block_count_partSize]
    · have htwo : 2 ≤ parts := by omega
      have hlarge : PARTSIZE < parts * PARTSIZE := by
        simp only [PARTSIZE]
        omega
      have hcount : part_count (parts * PARTSIZE) = parts := by
        unfold part_count
        simp only [PARTSIZE]
        omega
      have hblock : BLOCKSIZE < parts * PARTSIZE := by
        simp only [PARTSIZE, BLOCKSIZE] at *
        omega
      have hshare := leftShare_pos htwo is_left
      have hless := leftShare_lt htwo is_left
      have hsplit := leaves_splitTree_of_gt hblock start is_left
      rw [split_left_size_of_gt hlarge, hcount, ← Nat.sub_mul] at hsplit
      rw [hsplit, List.length_append, ih _ hless hshare, ih _ (by omega) (by omega)]
      omega

end amuled.aich
