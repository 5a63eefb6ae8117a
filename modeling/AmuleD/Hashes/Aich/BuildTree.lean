import AmuleD.Hashes.Aich.Hash

open merkle

namespace amuled.aich

/-- `_AichNode`: a node has both children or none. -/
inductive AichNode where
  | leaf (start size : Nat) (is_left : Bool) (digest : Bytes)
  | inner (start size : Nat) (is_left : Bool) (digest : Bytes) (left right : AichNode)
  deriving DecidableEq, Repr

namespace AichNode

def start : AichNode → Nat
  | leaf start _ _ _ => start
  | inner start _ _ _ _ _ => start

def size : AichNode → Nat
  | leaf _ size _ _ => size
  | inner _ size _ _ _ _ => size

def is_left : AichNode → Bool
  | leaf _ _ is_left _ => is_left
  | inner _ _ is_left _ _ _ => is_left

/-- The source's field `hash`. -/
def digest : AichNode → Bytes
  | leaf _ _ _ digest => digest
  | inner _ _ _ digest _ _ => digest

/-- The leaf nodes below a node, left to right. -/
def leafNodes : AichNode → List AichNode
  | leaf start size is_left digest => [leaf start size is_left digest]
  | inner _ _ _ _ left right => left.leafNodes ++ right.leafNodes

end AichNode

/-- `_build_tree`: the splitting tree rebuilt from precomputed leaf hashes. -/
def build_tree (sha1 : HashFn 20) (leaves : List Bytes) (start size : Nat) (is_left : Bool) :
    Except Exc AichNode :=
  if size ≤ BLOCKSIZE then
    match leaves with
    | [] => throw .IndexError
    | first :: _ => pure (.leaf start size is_left first)
  else
    let left_size := split_left_size size is_left
    let right_size := size - left_size
    if left_size = 0 ∨ right_size = 0 then throw (invalid_split size left_size right_size)
    else do
      let left_leaf_count := block_count left_size
      let left ← build_tree sha1 (leaves.take left_leaf_count) start left_size true
      let right ←
        build_tree sha1 (leaves.drop left_leaf_count) (start + left_size) right_size false
      pure (.inner start size is_left (sha1 (left.digest ++ right.digest)) left right)
termination_by size
decreasing_by all_goals omega

def materialize_aich_tree (sha1 : HashFn 20) (result : AichHashResult) : Except Exc AichNode :=
  build_tree sha1 result.block_hashes 0 result.file_size true

/-- The nodes over a tree of leaf digests whose root covers a given segment. -/
def nodeOf (sha1 : HashFn 20) : merkle.Tree Bytes → Nat → Nat → Bool → AichNode
  | .leaf value, start, size, is_left => .leaf start size is_left value
  | .node left right, start, size, is_left =>
    .inner start size is_left (sha1 (left.root sha1 ++ right.root sha1))
      (nodeOf sha1 left start (split_left_size size is_left) true)
      (nodeOf sha1 right (start + split_left_size size is_left)
        (size - split_left_size size is_left) false)

section NodeOf

variable (sha1 : HashFn 20) (digests : merkle.Tree Bytes) (start size : Nat) (is_left : Bool)

@[simp] theorem start_nodeOf : (nodeOf sha1 digests start size is_left).start = start := by
  cases digests <;> rfl

@[simp] theorem size_nodeOf : (nodeOf sha1 digests start size is_left).size = size := by
  cases digests <;> rfl

@[simp] theorem is_left_nodeOf : (nodeOf sha1 digests start size is_left).is_left = is_left := by
  cases digests <;> rfl

@[simp] theorem digest_nodeOf :
    (nodeOf sha1 digests start size is_left).digest = digests.root sha1 := by
  cases digests <;> rfl

theorem leafNodes_nodeOf :
    (nodeOf sha1 digests start size is_left).leafNodes.map AichNode.digest = digests.leaves := by
  induction digests generalizing start size is_left with
  | leaf value => rfl
  | node left right ihl ihr => simp [nodeOf, AichNode.leafNodes, merkle.Tree.leaves, ihl, ihr]

end NodeOf

/-- Every leaf node of the file's own tree carries the hash of its bytes. -/
theorem leafNodes_digestTree (sha1 : HashFn 20) (data : Bytes) (start size : Nat) (is_left : Bool) :
    ∀ node ∈ (nodeOf sha1 (digestTree sha1 data start size is_left) start size is_left).leafNodes,
      node.digest = sha1 (data.extract node.start (node.start + node.size)) := by
  induction start, size, is_left using splitTree.induct with
  | case1 start size is_left hblock =>
    rw [digestTree_of_le sha1 data hblock]
    intro node hnode
    obtain rfl := List.mem_singleton.mp hnode
    rfl
  | case2 start size is_left hblock ihl ihr =>
    rw [digestTree_of_gt sha1 data (Nat.lt_of_not_le hblock)]
    intro node hnode
    rcases List.mem_append.mp hnode with hleft | hright
    · exact ihl node hleft
    · exact ihr node hright

/-- `_build_tree` cuts the leaf list by the block count of the left branch.
This says that the cut is right everywhere below a segment: each left branch
has as many leaves as blocks. -/
inductive CountsAgree : Nat → Nat → Bool → Prop where
  | leaf {start size : Nat} {is_left : Bool} (hsmall : size ≤ BLOCKSIZE) :
      CountsAgree start size is_left
  | node {start size : Nat} {is_left : Bool} (hlarge : BLOCKSIZE < size)
      (hcount : (splitTree start (split_left_size size is_left) true).leaves.length =
        block_count (split_left_size size is_left))
      (hleft : CountsAgree start (split_left_size size is_left) true)
      (hright : CountsAgree (start + split_left_size size is_left)
        (size - split_left_size size is_left) false) :
      CountsAgree start size is_left

/-- Where the counts agree, a leaf list of the right length is distributed
over the tree in order. -/
theorem build_tree_spec (sha1 : HashFn 20) {start size : Nat} {is_left : Bool}
    (hagree : CountsAgree start size is_left) {leaves : List Bytes}
    (hlength : leaves.length = (splitTree start size is_left).leaves.length) :
    build_tree sha1 leaves start size is_left =
      .ok (nodeOf sha1 ((splitTree start size is_left).fill [] leaves) start size is_left) := by
  induction hagree generalizing leaves with
  | @leaf start size is_left hsmall =>
    rw [splitTree_of_le hsmall] at hlength ⊢
    obtain ⟨first, rfl⟩ := List.length_eq_one_iff.mp hlength
    rw [build_tree.eq_def, if_pos hsmall]
    rfl
  | @node start size is_left hlarge hcount _ _ ihl ihr =>
    have hbounds := split_left_size_bounds hlarge is_left
    rw [leaves_splitTree_of_gt hlarge, List.length_append] at hlength
    rw [build_tree.eq_def, if_neg (by omega)]
    simp only
    rw [if_neg (by omega), ← hcount, ihl (by rw [List.length_take]; omega), ok_bind,
      ihr (by rw [List.length_drop]; omega), ok_bind, splitTree_of_gt hlarge, merkle.Tree.fill, nodeOf]
    simp only [digest_nodeOf, pure_eq_ok]

/-- A split is never empty, so running out of leaves is the only way to fail. -/
theorem build_tree_error (sha1 : HashFn 20) (leaves : List Bytes) (start size : Nat) (is_left : Bool)
    {e : Exc} (herror : build_tree sha1 leaves start size is_left = .error e) : e = .IndexError := by
  induction start, size, is_left using splitTree.induct generalizing leaves with
  | case1 start size is_left hblock =>
    rw [build_tree.eq_def, if_pos hblock] at herror
    cases leaves with
    | nil => exact (Except.error.inj herror).symm
    | cons first rest => cases herror
  | case2 start size is_left hblock ihl ihr =>
    have hbounds := split_left_size_bounds (Nat.lt_of_not_le hblock) is_left
    rw [build_tree.eq_def, if_neg hblock] at herror
    simp only at herror
    rw [if_neg (by omega)] at herror
    cases hleft : build_tree sha1 (leaves.take (block_count (split_left_size size is_left))) start
        (split_left_size size is_left) true with
    | error e' =>
      rw [hleft, error_bind] at herror
      obtain rfl := Except.error.inj herror
      exact ihl _ hleft
    | ok left =>
      cases hright : build_tree sha1 (leaves.drop (block_count (split_left_size size is_left)))
          (start + split_left_size size is_left) (size - split_left_size size is_left) false with
      | error e' =>
        rw [hleft, ok_bind, hright, error_bind] at herror
        obtain rfl := Except.error.inj herror
        exact ihr _ hright
      | ok right =>
        rw [hleft, ok_bind, hright] at herror
        cases herror

/-- A leaf list that is too short runs out, whatever the counts: some leaf
finds nothing left to take. -/
theorem build_tree_short (sha1 : HashFn 20) (start size : Nat) (is_left : Bool) {leaves : List Bytes}
    (hshort : leaves.length < (splitTree start size is_left).leaves.length) :
    build_tree sha1 leaves start size is_left = .error .IndexError := by
  induction start, size, is_left using splitTree.induct generalizing leaves with
  | case1 start size is_left hblock =>
    rw [splitTree_of_le hblock] at hshort
    have hempty : leaves = [] := by
      simp only [merkle.Tree.leaves, List.length_singleton] at hshort
      exact List.length_eq_zero_iff.mp (by omega)
    rw [hempty, build_tree.eq_def, if_pos hblock]
    rfl
  | case2 start size is_left hblock ihl ihr =>
    have hlarge := Nat.lt_of_not_le hblock
    have hbounds := split_left_size_bounds hlarge is_left
    have hcount := block_count_le_length_leaves start (split_left_size size is_left) true
    rw [leaves_splitTree_of_gt hlarge, List.length_append] at hshort
    rw [build_tree.eq_def, if_neg hblock]
    simp only
    rw [if_neg (by omega)]
    by_cases hleft : (leaves.take (block_count (split_left_size size is_left))).length <
        (splitTree start (split_left_size size is_left) true).leaves.length
    · rw [ihl hleft, error_bind]
    · -- The left branch got enough, so its count was right and the right one is short.
      rw [List.length_take] at hleft
      have hright : (leaves.drop (block_count (split_left_size size is_left))).length <
          (splitTree (start + split_left_size size is_left)
            (size - split_left_size size is_left) false).leaves.length := by
        rw [List.length_drop]
        omega
      cases hleft : build_tree sha1 (leaves.take (block_count (split_left_size size is_left))) start
          (split_left_size size is_left) true with
      | error e => rw [error_bind, build_tree_error sha1 _ _ _ _ hleft]
      | ok left => rw [ok_bind, ihr hright, error_bind]

end amuled.aich
