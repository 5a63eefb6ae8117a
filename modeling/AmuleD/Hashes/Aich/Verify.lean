import AmuleD.Hashes.Aich.Recovery

open merkle

namespace amuled.aich

/-- The loop of `aich_verified_part_blocks` that reads the part's leaves out of
the parsed blob. -/
def collect_blocks (entries : Dict Nat Bytes) : List Nat → Except Exc (List Bytes)
  | [] => pure []
  | leaf_ident :: rest =>
    match entries.get leaf_ident with
    | none => throw (.AichError s!"recovery blob misses part leaf ident {hex leaf_ident}")
    | some digest => do
      let part_blocks ← collect_blocks entries rest
      pure (digest :: part_blocks)

/-- The second walk of `aich_verified_part_blocks`: the side the part is on at
each level and the sibling's identifier, from the root down. -/
def sibling_chain (part_start part_size node_start node_size ident : Nat) :
    Except Exc (List (Bool × Nat)) :=
  if node_start = part_start ∧ node_size = part_size then pure []
  else
    let left_size := split_left_size node_size (ident &&& 1 = 1)
    if part_start < node_start + left_size then
      if hshrinks : left_size < node_size then do
        let chain ← sibling_chain part_start part_size node_start left_size (ident <<< 1 ||| 1)
        pure ((true, ident <<< 1 ||| 0) :: chain)
      else throw .NonTermination
    else
      if hshrinks : node_size - left_size < node_size then do
        let chain ← sibling_chain part_start part_size (node_start + left_size)
          (node_size - left_size) (ident <<< 1 ||| 0)
        pure ((false, ident <<< 1 ||| 1) :: chain)
      else throw .NonTermination
termination_by node_size
decreasing_by all_goals exact hshrinks

/-- The loop over `reversed(chain)`: the deepest sibling is combined first. -/
def combine (sha1 : HashFn 20) (entries : Dict Nat Bytes) (part_hash : Bytes) :
    List (Bool × Nat) → Except Exc Bytes
  | [] => pure part_hash
  | (part_side_left, sibling_ident) :: rest => do
    let combined ← combine sha1 entries part_hash rest
    match entries.get sibling_ident with
    | none => throw (.AichError s!"recovery blob misses sibling ident {hex sibling_ident}")
    | some sibling_hash =>
      pure (if part_side_left then sha1 (combined ++ sibling_hash)
        else sha1 (sibling_hash ++ combined))

def aich_verified_part_blocks (sha1 : HashFn 20) (recovery : Bytes) (part_index : Int)
    (file_size : Nat) (expected_master : Bytes) : Except Exc (List Bytes) := do
  let (part_ident, part_size, part_is_left) ← aich_part_path_ident part_index file_size
  let entries ← aich_parse_recovery_data recovery
  let leaf_idents ← aich_subtree_leaf_idents part_ident part_size part_is_left
  let part_blocks ← collect_blocks entries leaf_idents
  let part_start := (part_index * PARTSIZE).toNat
  let part_node ← build_tree sha1 part_blocks part_start part_size part_is_left
  let chain ← sibling_chain part_start part_size 0 file_size 1
  let combined ← combine sha1 entries part_node.digest chain
  if combined ≠ expected_master then
    throw (.AichError "recovery blob does not rebuild the trusted master")
  else pure part_blocks

/-- The inner `resolve` of `aich_rebuild_master_from_part`; `none` means that
the recovery data does not cover the segment. -/
def resolve (sha1 : HashFn 20) (entries : Dict Nat Bytes) (part_start part_size : Nat)
    (block_hashes : List Bytes) (start size : Nat) (is_left : Bool) (ident : Nat) :
    Except Exc (Option Bytes) :=
  let found := entries.get (ident <<< 1 ||| is_left.toNat)
  if found.isSome ∧ size ≤ BLOCKSIZE then pure found
  else if start ≥ part_start ∧ start + size ≤ part_start + part_size then do
    let rel := start - part_start
    let sub_leaves :=
      block_hashes.extract (rel / BLOCKSIZE) ((rel + size + BLOCKSIZE - 1) / BLOCKSIZE)
    let node ← build_tree sha1 sub_leaves start size is_left
    pure (some node.digest)
  else if found.isSome then pure found
  else if size ≤ BLOCKSIZE then pure none
  else do
    let left_size := split_left_size size is_left
    let left ← resolve sha1 entries part_start part_size block_hashes start left_size true
      (ident <<< 1 ||| is_left.toNat)
    let right ← resolve sha1 entries part_start part_size block_hashes (start + left_size)
      (size - left_size) false (ident <<< 1 ||| is_left.toNat)
    match left, right with
    | some left, some right => pure (some (sha1 (left ++ right)))
    | _, _ => pure none
termination_by size
decreasing_by
  · rename_i hlarge
    exact (split_left_size_bounds (Nat.lt_of_not_le hlarge) is_left).2
  · rename_i hlarge
    have hbounds := split_left_size_bounds (Nat.lt_of_not_le hlarge) is_left
    omega

def aich_rebuild_master_from_part (sha1 : HashFn 20) (part_data : Bytes) (part_index : Int)
    (recovery : Bytes) (file_size : Nat) : Except Exc Bytes := do
  let (part_start, part_size) ← part_range part_index file_size
  let got := part_data.length
  if got ≠ part_size then
    throw (.AichError s!"part data size mismatch: got {got}, expected {part_size}")
  else do
    let entries ← aich_parse_recovery_data recovery
    let part_result ← aich_hash_data sha1 part_data
    let master ←
      resolve sha1 entries part_start part_size part_result.block_hashes 0 file_size true 0
    match master with
    | none => throw (.AichError "recovery data does not cover the whole tree")
    | some master => pure master

section Walks

variable {file_size part_start start size : Nat}

/-- The sibling identifiers along a descent below `path`. -/
def chainIdents (path : List Bool) : List Step → List (Bool × Nat)
  | [] => []
  | step :: rest =>
    (step.go_left, ident (path ++ [!step.go_left])) :: chainIdents (path ++ [step.go_left]) rest

theorem sibling_chain_spec (is_left : Bool) (hpath : OnPath file_size part_start start size)
    (path : List Bool) (hside : ident path &&& 1 = is_left.toNat) :
    sibling_chain part_start (min PARTSIZE (file_size - part_start)) start size (ident path) =
      .ok (chainIdents path (partSteps part_start start size is_left)) := by
  induction start, size, is_left using partSteps.induct part_start generalizing path with
  | case1 start size is_left hsmall =>
    rw [sibling_chain, if_pos (hpath.eq_part hsmall), partSteps_of_le hsmall]
    rfl
  | case2 start size is_left hlarge hgo ih =>
    have hbit : (decide (ident path &&& 1 = 1)) = is_left := by cases is_left <;> simp [hside]
    have hlt := split_left_size_bounds
      (show BLOCKSIZE < size by simp only [PARTSIZE, BLOCKSIZE] at *; omega) is_left
    rw [sibling_chain, if_neg (OnPath.ne_part (by omega)), partSteps_left hlarge hgo]
    simp only [hbit]
    rw [if_pos hgo, dif_pos hlt.2]
    have hident : ident path <<< 1 ||| 1 = ident (path ++ [true]) := (ident_concat path true).symm
    have hsibling : ident path <<< 1 ||| 0 = ident (path ++ [false]) := (ident_concat path false).symm
    rw [hident, ih (hpath.left (by omega) hgo) _ (by simp [ident_concat_mod_two]), ok_bind, hsibling]
    rfl
  | case3 start size is_left hlarge hgo ih =>
    have hbit : (decide (ident path &&& 1 = 1)) = is_left := by cases is_left <;> simp [hside]
    have hlt := split_left_size_bounds
      (show BLOCKSIZE < size by simp only [PARTSIZE, BLOCKSIZE] at *; omega) is_left
    rw [sibling_chain, if_neg (OnPath.ne_part (by omega)), partSteps_right hlarge hgo]
    simp only [hbit]
    rw [if_neg hgo, dif_pos (by omega)]
    have hident : ident path <<< 1 ||| 0 = ident (path ++ [false]) := (ident_concat path false).symm
    have hsibling : ident path <<< 1 ||| 1 = ident (path ++ [true]) := (ident_concat path true).symm
    rw [hident, ih (hpath.right (by omega) hgo) _ (by simp [ident_concat_mod_two]), ok_bind, hsibling]
    rfl

end Walks

section Honest

variable (sha1 : HashFn 20) (data : Bytes)

/-- The sides and sibling roots along a descent. -/
def siblingRoots (steps : List Step) : List (Bool × Bytes) :=
  steps.map fun step => (step.go_left,
    (digestTree sha1 data step.sibling.start step.sibling.size (!step.go_left)).root sha1)

/-- The file's own tree is the part's tree below its siblings. -/
theorem root_digestTree_climb {file_size part_start start size : Nat} (is_left : Bool)
    (hpath : OnPath file_size part_start start size) :
    (digestTree sha1 data start size is_left).root sha1 =
      climb sha1 ((digestTree sha1 data part_start (min PARTSIZE (file_size - part_start))
          (partSide (partSteps part_start start size is_left) is_left)).root sha1)
        (siblingRoots sha1 data (partSteps part_start start size is_left)) := by
  induction start, size, is_left using partSteps.induct part_start with
  | case1 start size is_left hsmall =>
    obtain ⟨rfl, hsize⟩ := hpath.eq_part hsmall
    rw [← hsize, partSteps_of_le hsmall]
    rfl
  | case2 start size is_left hlarge hgo ih =>
    have hblock : BLOCKSIZE < size := by
      simp only [PARTSIZE, BLOCKSIZE] at *
      omega
    rw [digestTree_of_gt sha1 data hblock, merkle.Tree.root, ih (hpath.left (by omega) hgo),
      partSteps_left hlarge hgo]
    rfl
  | case3 start size is_left hlarge hgo ih =>
    have hblock : BLOCKSIZE < size := by
      simp only [PARTSIZE, BLOCKSIZE] at *
      omega
    rw [digestTree_of_gt sha1 data hblock, merkle.Tree.root, ih (hpath.right (by omega) hgo),
      partSteps_right hlarge hgo]
    rfl

/-- A parsed blob holds the sibling roots of a descent. -/
def HasSiblings (entries : Dict Nat Bytes) (path : List Bool) (steps : List Step) : Prop :=
  ∀ entry ∈ siblingEntries sha1 data path steps, entries.get (ident entry.1) = some entry.2

theorem combine_spec {entries : Dict Nat Bytes} {path : List Bool} {steps : List Step}
    (hsiblings : HasSiblings sha1 data entries path steps) (part_hash : Bytes) :
    combine sha1 entries part_hash (chainIdents path steps) =
      .ok (climb sha1 part_hash (siblingRoots sha1 data steps)) := by
  induction steps generalizing path with
  | nil => rfl
  | cons step rest ih =>
    have hread := hsiblings _ List.mem_cons_self
    have hrest := ih (fun entry hentry => hsiblings entry (List.mem_cons_of_mem _ hentry))
    rw [chainIdents, combine, hrest, ok_bind]
    simp only at hread ⊢
    rw [hread]
    obtain ⟨go_left, sibling⟩ := step
    cases go_left <;> rfl

theorem collect_blocks_spec {entries : Dict Nat Bytes} {items : List (List Bool × Bytes)}
    (hread : ∀ item ∈ items, entries.get (ident item.1) = some item.2) :
    collect_blocks entries (items.map fun item => ident item.1) = .ok (items.map Prod.snd) := by
  induction items with
  | nil => rfl
  | cons item rest ih =>
    rw [List.map_cons, collect_blocks, hread item List.mem_cons_self,
      ih (fun item hitem => hread item (List.mem_cons_of_mem _ hitem))]
    rfl

end Honest

end amuled.aich
