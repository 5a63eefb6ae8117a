import AmuleD.Hashes.Aich.Split
import AmuleD.Merkle.Tree

open merkle

namespace amuled.aich

/-- The range check with which every recovery function starts: the byte range
of a part, as its start and its size. -/
def part_range (part_index : Int) (file_size : Nat) : Except Exc (Nat × Nat) :=
  let part_start := part_index * PARTSIZE
  if part_start < 0 ∨ part_start ≥ file_size then
    throw (.AichError s!"part index out of range: {part_index}")
  else pure (part_start.toNat, min PARTSIZE (file_size - part_start.toNat))

theorem part_range_eq_ok {part_index : Int} {file_size part_start part_size : Nat}
    (hrange : part_range part_index file_size = .ok (part_start, part_size)) :
    (part_start : Int) = part_index * PARTSIZE ∧ PARTSIZE ∣ part_start ∧ part_start < file_size ∧
      part_size = min PARTSIZE (file_size - part_start) := by
  simp only [part_range] at hrange
  split at hrange
  · cases hrange
  · rename_i hinside
    obtain ⟨rfl, rfl⟩ := Prod.mk.inj (Except.ok.inj hrange)
    refine ⟨?_, ?_, ?_, rfl⟩ <;> simp only [PARTSIZE] at * <;> omega

theorem part_range_error {part_index : Int} {file_size : Nat} {e : Exc}
    (hrange : part_range part_index file_size = .error e) : ∃ message, e = .AichError message := by
  simp only [part_range] at hrange
  split at hrange
  · cases hrange
    exact ⟨_, rfl⟩
  · cases hrange

theorem part_range_natCast {part file_size : Nat} (hinside : part * PARTSIZE < file_size) :
    part_range part file_size =
      .ok (part * PARTSIZE, min PARTSIZE (file_size - part * PARTSIZE)) := by
  have htoNat : ((part : Int) * (PARTSIZE : Int)).toNat = part * PARTSIZE := by
    rw [← Int.natCast_mul, Int.toNat_natCast]
  simp only [part_range]
  rw [if_neg (by rw [← Int.natCast_mul]; omega), htoNat]
  rfl

/-- The loop of `aich_part_path_ident`. A step that does not shrink the node
would repeat for ever. -/
def path_ident_loop (part_start part_size node_start node_size ident : Nat) : Except Exc Nat :=
  if node_start = part_start ∧ node_size = part_size then pure ident
  else
    let left_size := split_left_size node_size (ident &&& 1 = 1)
    if part_start < node_start + left_size then
      if hshrinks : left_size < node_size then
        path_ident_loop part_start part_size node_start left_size (ident <<< 1 ||| 1)
      else throw .NonTermination
    else
      if hshrinks : node_size - left_size < node_size then
        path_ident_loop part_start part_size (node_start + left_size) (node_size - left_size)
          (ident <<< 1 ||| 0)
      else throw .NonTermination
termination_by node_size
decreasing_by all_goals exact hshrinks

def aich_part_path_ident (part_index : Int) (file_size : Nat) : Except Exc (Nat × Nat × Bool) := do
  let (part_start, part_size) ← part_range part_index file_size
  let ident ← path_ident_loop part_start part_size 0 file_size 1
  pure (ident, part_size, decide (ident &&& 1 = 1))

/-- The inner `_emit` of `aich_subtree_leaf_idents`; a count of zero recurses
for ever. -/
def subtree_emit (cur_ident cur_count : Nat) (cur_is_left : Bool) : Except Exc (List Nat) :=
  let cur_ident := cur_ident <<< 1 ||| cur_is_left.toNat
  if cur_count = 1 then pure [cur_ident]
  else
    let left_count := if cur_is_left then (cur_count + 1) / 2 else cur_count / 2
    if left_count < cur_count ∧ cur_count - left_count < cur_count then do
      let left ← subtree_emit cur_ident left_count true
      let right ← subtree_emit cur_ident (cur_count - left_count) false
      pure (left ++ right)
    else throw .RecursionError
termination_by cur_count
decreasing_by all_goals omega

def aich_subtree_leaf_idents (part_ident part_size : Nat) (part_is_left : Bool) :
    Except Exc (List Nat) :=
  subtree_emit part_ident (block_count part_size) part_is_left

/-- One step of the descent to a part: the side taken and the segment left
aside. -/
structure Step where
  go_left : Bool
  sibling : Segment

/-- The descent from a segment to the part that starts at `part_start`. -/
def partSteps (part_start start size : Nat) (is_left : Bool) : List Step :=
  if size ≤ PARTSIZE then []
  else if part_start < start + split_left_size size is_left then
    ⟨true, start + split_left_size size is_left, size - split_left_size size is_left⟩ ::
      partSteps part_start start (split_left_size size is_left) true
  else
    ⟨false, start, split_left_size size is_left⟩ ::
      partSteps part_start (start + split_left_size size is_left)
        (size - split_left_size size is_left) false
termination_by size
decreasing_by
  · rename_i hlarge _
    exact (split_left_size_bounds (by simp only [PARTSIZE, BLOCKSIZE] at *; omega) is_left).2
  · rename_i hlarge _
    have hbounds := split_left_size_bounds
      (show BLOCKSIZE < size by simp only [PARTSIZE, BLOCKSIZE] at *; omega) is_left
    omega

/-- The side of the node a descent ends at. -/
def partSide : List Step → Bool → Bool
  | [], is_left => is_left
  | step :: rest, _ => partSide rest step.go_left

/-- The segment is an ancestor of the part, or the part itself: it starts on a
part boundary and ends on one or at the end of the file. -/
structure OnPath (file_size part_start start size : Nat) : Prop where
  aligned : PARTSIZE ∣ start
  part_aligned : PARTSIZE ∣ part_start
  start_le : start ≤ part_start
  lt_end : part_start < start + size
  ends : PARTSIZE ∣ size ∧ start + size ≤ file_size ∨ start + size = file_size

namespace OnPath

variable {file_size part_start start size : Nat} {is_left : Bool}

theorem root (haligned : PARTSIZE ∣ part_start) (hinside : part_start < file_size) :
    OnPath file_size part_start 0 file_size :=
  ⟨Nat.dvd_zero _, haligned, by omega, by omega, .inr (by omega)⟩

theorem left (h : OnPath file_size part_start start size) (hlarge : PARTSIZE < size)
    (hgo : part_start < start + split_left_size size is_left) :
    OnPath file_size part_start start (split_left_size size is_left) := by
  have hbounds := split_left_size_bounds
    (show BLOCKSIZE < size by simp only [PARTSIZE, BLOCKSIZE] at *; omega) is_left
  have hsize := split_left_size_of_gt hlarge is_left
  obtain ⟨haligned, hpart, hle, _, hends⟩ := h
  refine ⟨haligned, hpart, hle, hgo, .inl ⟨?_, ?_⟩⟩
  · exact ⟨leftShare (part_count size) is_left, by rw [hsize, Nat.mul_comm]⟩
  · omega

theorem right (h : OnPath file_size part_start start size) (hlarge : PARTSIZE < size)
    (hgo : ¬ part_start < start + split_left_size size is_left) :
    OnPath file_size part_start (start + split_left_size size is_left)
      (size - split_left_size size is_left) := by
  have hbounds := split_left_size_bounds
    (show BLOCKSIZE < size by simp only [PARTSIZE, BLOCKSIZE] at *; omega) is_left
  have hdvd : PARTSIZE ∣ split_left_size size is_left :=
    ⟨leftShare (part_count size) is_left, by rw [split_left_size_of_gt hlarge, Nat.mul_comm]⟩
  obtain ⟨haligned, hpart, _, hlt, hends⟩ := h
  refine ⟨Nat.dvd_add haligned hdvd, hpart, by omega, by omega, ?_⟩
  rcases hends with ⟨hsize, hend⟩ | hend
  · exact .inl ⟨Nat.dvd_sub hsize hdvd, by omega⟩
  · exact .inr (by omega)

/-- A segment on the path that fits in a part is the part. -/
theorem eq_part (h : OnPath file_size part_start start size) (hsmall : size ≤ PARTSIZE) :
    start = part_start ∧ size = min PARTSIZE (file_size - part_start) := by
  obtain ⟨haligned, hpart, hle, hlt, hends⟩ := h
  simp only [PARTSIZE] at *
  omega

theorem ne_part (hlarge : PARTSIZE < size) :
    ¬ (start = part_start ∧ size = min PARTSIZE (file_size - part_start)) := by
  rintro ⟨_, hsize⟩
  omega

end OnPath

section Descent

variable {file_size part_start start size : Nat}

theorem partSteps_of_le (hsmall : size ≤ PARTSIZE) (part_start start : Nat) (is_left : Bool) :
    partSteps part_start start size is_left = [] := by
  rw [partSteps, if_pos hsmall]

theorem partSteps_left {is_left : Bool} (hlarge : ¬ size ≤ PARTSIZE)
    (hgo : part_start < start + split_left_size size is_left) :
    partSteps part_start start size is_left =
      ⟨true, start + split_left_size size is_left, size - split_left_size size is_left⟩ ::
        partSteps part_start start (split_left_size size is_left) true := by
  rw [partSteps, if_neg hlarge, if_pos hgo]

theorem partSteps_right {is_left : Bool} (hlarge : ¬ size ≤ PARTSIZE)
    (hgo : ¬ part_start < start + split_left_size size is_left) :
    partSteps part_start start size is_left =
      ⟨false, start, split_left_size size is_left⟩ ::
        partSteps part_start (start + split_left_size size is_left)
          (size - split_left_size size is_left) false := by
  rw [partSteps, if_neg hlarge, if_neg hgo]

/-- The identifier walk follows the descent to the part. The branch bit it
reads off the identifier is the side of the node. -/
theorem path_ident_loop_spec (is_left : Bool) (hpath : OnPath file_size part_start start size)
    (path : List Bool) (hside : ident path &&& 1 = is_left.toNat) :
    path_ident_loop part_start (min PARTSIZE (file_size - part_start)) start size (ident path) =
      .ok (ident (path ++ (partSteps part_start start size is_left).map Step.go_left)) := by
  induction start, size, is_left using partSteps.induct part_start generalizing path with
  | case1 start size is_left hsmall =>
    rw [path_ident_loop, if_pos (hpath.eq_part hsmall), partSteps_of_le hsmall, List.map_nil,
      List.append_nil]
    rfl
  | case2 start size is_left hlarge hgo ih =>
    have hbit : (decide (ident path &&& 1 = 1)) = is_left := by cases is_left <;> simp [hside]
    have hlt := split_left_size_bounds
      (show BLOCKSIZE < size by simp only [PARTSIZE, BLOCKSIZE] at *; omega) is_left
    rw [path_ident_loop, if_neg (OnPath.ne_part (by omega)), partSteps_left hlarge hgo]
    simp only [hbit]
    rw [if_pos hgo, dif_pos hlt.2]
    have hident : ident path <<< 1 ||| 1 = ident (path ++ [true]) := (ident_concat path true).symm
    rw [hident, ih (hpath.left (by omega) hgo) _ (by simp [ident_concat_mod_two])]
    simp
  | case3 start size is_left hlarge hgo ih =>
    have hbit : (decide (ident path &&& 1 = 1)) = is_left := by cases is_left <;> simp [hside]
    have hlt := split_left_size_bounds
      (show BLOCKSIZE < size by simp only [PARTSIZE, BLOCKSIZE] at *; omega) is_left
    rw [path_ident_loop, if_neg (OnPath.ne_part (by omega)), partSteps_right hlarge hgo]
    simp only [hbit]
    rw [if_neg hgo, dif_pos (by omega)]
    have hident : ident path <<< 1 ||| 0 = ident (path ++ [false]) := (ident_concat path false).symm
    rw [hident, ih (hpath.right (by omega) hgo) _ (by simp [ident_concat_mod_two])]
    simp

theorem ident_partSteps_mod_two (steps : List Step) (is_left : Bool) (path : List Bool)
    (hside : ident path &&& 1 = is_left.toNat) :
    ident (path ++ steps.map Step.go_left) &&& 1 = (partSide steps is_left).toNat := by
  induction steps generalizing is_left path with
  | nil => simpa [partSide] using hside
  | cons step rest ih =>
    have h := ih step.go_left (path ++ [step.go_left]) (by simp [ident_concat_mod_two])
    simpa [partSide] using h

/-- The path identifier of a part, its size and its side. -/
theorem aich_part_path_ident_spec {part_index : Int} {file_size part_start part_size : Nat}
    (hrange : part_range part_index file_size = .ok (part_start, part_size)) :
    aich_part_path_ident part_index file_size =
      .ok (ident ((partSteps part_start 0 file_size true).map Step.go_left), part_size,
        partSide (partSteps part_start 0 file_size true) true) := by
  obtain ⟨_, haligned, hinside, hsize⟩ := part_range_eq_ok hrange
  have hloop := path_ident_loop_spec true (OnPath.root haligned hinside) [] (by simp)
  have hside := ident_partSteps_mod_two (partSteps part_start 0 file_size true) true [] (by simp)
  rw [List.nil_append, ident_nil, ← hsize] at hloop
  rw [List.nil_append] at hside
  rw [aich_part_path_ident, hrange, ok_bind]
  simp only
  rw [hloop, ok_bind, hside]
  cases partSide (partSteps part_start 0 file_size true) true <;> rfl

end Descent

section LeafIdents

variable {size : Nat}

theorem block_count_split (hlarge : BLOCKSIZE < size) (hsmall : size ≤ PARTSIZE) (is_left : Bool) :
    block_count (split_left_size size is_left) = leftShare (block_count size) is_left ∧
      block_count (size - split_left_size size is_left) =
        block_count size - leftShare (block_count size) is_left := by
  have hbounds := split_left_size_bounds hlarge is_left
  have hsize := split_left_size_of_le hlarge hsmall is_left
  simp only [block_count, BLOCKSIZE] at *
  omega

/-- The counted walk emits the identifiers of the segment's leaves, in order.
Entering a node appends its own side once more. -/
theorem subtree_emit_spec (hpos : 0 < size) (hsmall : size ≤ PARTSIZE) (start : Nat)
    (is_left : Bool) (path : List Bool) :
    subtree_emit (ident path) (block_count size) is_left =
      .ok ((splitTree start size is_left).leafPaths.map fun leaf => ident (path ++ is_left :: leaf)) := by
  induction start, size, is_left using splitTree.induct generalizing path with
  | case1 start size is_left hblock =>
    have hcount : block_count size = 1 := by
      simp only [block_count, BLOCKSIZE] at *
      omega
    rw [subtree_emit, hcount, splitTree_of_le hblock]
    simp only [if_true, pure_eq_ok, merkle.Tree.leafPaths, List.map_cons, List.map_nil, ident_concat]
  | case2 start size is_left hblock ihl ihr =>
    have hlarge := Nat.lt_of_not_le hblock
    have hbounds := split_left_size_bounds hlarge is_left
    obtain ⟨hleft, hright⟩ := block_count_split hlarge hsmall is_left
    have hcount : 2 ≤ block_count size := by
      simp only [block_count, BLOCKSIZE] at *
      omega
    have hpos' := leftShare_pos hcount is_left
    have hlt := leftShare_lt hcount is_left
    have hshare : (if is_left then (block_count size + 1) / 2 else block_count size / 2) =
        leftShare (block_count size) is_left := rfl
    have htree := congrArg merkle.Tree.leafPaths (splitTree_of_gt hlarge start is_left)
    rw [merkle.Tree.leafPaths] at htree
    rw [subtree_emit]
    simp only [hshare]
    rw [if_neg (by omega), if_pos (by omega), ← ident_concat, ← hleft,
      ihl (by omega) (by omega), ok_bind, hleft, ← hright, ihr (by omega) (by omega), ok_bind, htree]
    simp [Function.comp_def]

theorem part_count_split (hlarge : PARTSIZE < size) (is_left : Bool) :
    part_count (split_left_size size is_left) = leftShare (part_count size) is_left ∧
      part_count (size - split_left_size size is_left) =
        part_count size - leftShare (part_count size) is_left := by
  have hbounds := split_left_size_bounds
    (show BLOCKSIZE < size by simp only [PARTSIZE, BLOCKSIZE] at *; omega) is_left
  have hsize := split_left_size_of_gt hlarge is_left
  simp only [part_count, PARTSIZE] at *
  omega

theorem leftShare_halves {count depth : Nat} (hcount : count ≤ 2 ^ depth * 2) (is_left : Bool) :
    leftShare count is_left ≤ 2 ^ depth ∧ count - leftShare count is_left ≤ 2 ^ depth := by
  cases is_left <;> simp only [leftShare, if_true, Bool.false_eq_true, if_false] <;> omega

/-- A segment of at most `2 ^ depth` blocks has paths of at most `depth` bits. -/
theorem length_leafPaths_le {depth : Nat} (hpos : 0 < size) (hsmall : size ≤ PARTSIZE)
    (hcount : block_count size ≤ 2 ^ depth) (start : Nat) (is_left : Bool) :
    ∀ path ∈ (splitTree start size is_left).leafPaths, path.length ≤ depth := by
  induction start, size, is_left using splitTree.induct generalizing depth with
  | case1 start size is_left hblock =>
    rw [splitTree_of_le hblock]
    intro path hpath
    obtain rfl := List.mem_singleton.mp hpath
    exact Nat.zero_le _
  | case2 start size is_left hblock ihl ihr =>
    have hlarge := Nat.lt_of_not_le hblock
    have hbounds := split_left_size_bounds hlarge is_left
    obtain ⟨hleft, hright⟩ := block_count_split hlarge hsmall is_left
    have htwo : 2 ≤ block_count size := by
      simp only [block_count, BLOCKSIZE] at *
      omega
    have htree := congrArg merkle.Tree.leafPaths (splitTree_of_gt hlarge start is_left)
    rw [merkle.Tree.leafPaths] at htree
    cases depth with
    | zero => omega
    | succ depth =>
      rw [Nat.pow_succ] at hcount
      have hhalf : leftShare (block_count size) is_left ≤ 2 ^ depth ∧
          block_count size - leftShare (block_count size) is_left ≤ 2 ^ depth :=
        leftShare_halves hcount is_left
      intro path hpath
      rw [htree, List.mem_append] at hpath
      rcases hpath with hpath | hpath
      · obtain ⟨rest, hrest, rfl⟩ := List.mem_map.mp hpath
        have hrestLength : rest.length ≤ depth :=
          ihl (by omega) (by omega) (by omega) rest hrest
        simpa using hrestLength
      · obtain ⟨rest, hrest, rfl⟩ := List.mem_map.mp hpath
        have hrestLength : rest.length ≤ depth :=
          ihr (by omega) (by omega) (by omega) rest hrest
        simpa using hrestLength

/-- A file of at most `2 ^ depth` parts is at most `depth` steps above them. -/
theorem length_partSteps_le {depth : Nat} (hcount : part_count size ≤ 2 ^ depth)
    (part_start start : Nat) (is_left : Bool) :
    (partSteps part_start start size is_left).length ≤ depth := by
  induction start, size, is_left using partSteps.induct part_start generalizing depth with
  | case1 start size is_left hsmall =>
    rw [partSteps_of_le hsmall]
    exact Nat.zero_le _
  | case2 start size is_left hlarge hgo ih =>
    obtain ⟨hleft, _⟩ := part_count_split (Nat.lt_of_not_le hlarge) is_left
    have htwo : 2 ≤ part_count size := by
      simp only [part_count, PARTSIZE] at *
      omega
    rw [partSteps_left hlarge hgo, List.length_cons]
    cases depth with
    | zero => omega
    | succ depth =>
      rw [Nat.pow_succ] at hcount
      have hhalf := leftShare_halves hcount is_left
      exact Nat.succ_le_succ (ih (by omega))
  | case3 start size is_left hlarge hgo ih =>
    obtain ⟨_, hright⟩ := part_count_split (Nat.lt_of_not_le hlarge) is_left
    have htwo : 2 ≤ part_count size := by
      simp only [part_count, PARTSIZE] at *
      omega
    rw [partSteps_right hlarge hgo, List.length_cons]
    cases depth with
    | zero => omega
    | succ depth =>
      rw [Nat.pow_succ] at hcount
      have hhalf := leftShare_halves hcount is_left
      exact Nat.succ_le_succ (ih (by omega))

end LeafIdents

end amuled.aich
