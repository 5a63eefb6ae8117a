import AmuleD.Hashes.Aich.RoundTrip
import Mathlib.Data.Set.Function

open merkle littleendian

namespace amuled.aich

/-- The strings `_build_tree` hashes: the pair of digests of every inner node. -/
def AichNode.strings : AichNode → List Bytes
  | leaf _ _ _ _ => []
  | inner _ _ _ _ left right => (left.digest ++ right.digest) :: (left.strings ++ right.strings)

/-- The strings hashed by the loop over `reversed(chain)`. -/
def combine_strings (sha1 : HashFn 20) (entries : Dict Nat Bytes) (part_hash : Bytes) :
    List (Bool × Nat) → Except Exc (List Bytes)
  | [] => pure []
  | (part_side_left, sibling_ident) :: rest => do
    let strings ← combine_strings sha1 entries part_hash rest
    let combined ← combine sha1 entries part_hash rest
    match entries.get sibling_ident with
    | none => throw (.AichError s!"recovery blob misses sibling ident {hex sibling_ident}")
    | some sibling_hash =>
      pure ((if part_side_left then combined ++ sibling_hash else sibling_hash ++ combined) :: strings)

/-- The strings `aich_verified_part_blocks` hashes until it compares the master
hash. -/
def verifier_strings (sha1 : HashFn 20) (recovery : Bytes) (part_index : Int) (file_size : Nat) :
    Except Exc (List Bytes) := do
  let (part_ident, part_size, part_is_left) ← aich_part_path_ident part_index file_size
  let entries ← aich_parse_recovery_data recovery
  let leaf_idents ← aich_subtree_leaf_idents part_ident part_size part_is_left
  let part_blocks ← collect_blocks entries leaf_idents
  let part_start := (part_index * PARTSIZE).toNat
  let part_node ← build_tree sha1 part_blocks part_start part_size part_is_left
  let chain ← sibling_chain part_start part_size 0 file_size 1
  let strings ← combine_strings sha1 entries part_node.digest chain
  pure (part_node.strings ++ strings)

/-- The strings hashed for the file: its blocks, and the pair of digests of
every inner node. -/
def file_strings (sha1 : HashFn 20) (data : Bytes) : List Bytes :=
  (splitTree 0 data.length true).leaves.map (Segment.bytes data) ++
    (digestTree sha1 data 0 data.length true).messages sha1

/-- Every string hashed for a file and for a blob checked against it. -/
def HashedStrings (sha1 : HashFn 20) (data recovery : Bytes) (part_index : Int) : Set Bytes :=
  {string | string ∈ file_strings sha1 data ∨
    ∃ strings, verifier_strings sha1 recovery part_index data.length = .ok strings ∧ string ∈ strings}

section Parsed

/-- The hashes of a parsed blob are slices of twenty bytes, short ones at its
end. -/
def ShortHashes (entries : Dict Nat Bytes) : Prop :=
  ∀ key hash, entries.get key = some hash → hash.length ≤ 20

theorem shortHashes_set {entries : Dict Nat Bytes} (hshort : ShortHashes entries) (key : Nat)
    {hash : Bytes} (hhash : hash.length ≤ 20) : ShortHashes (entries.set key hash) := by
  intro other found hfound
  by_cases hkey : other = key
  · rw [hkey, Dict.get_set_self] at hfound
    obtain rfl := Option.some.inj hfound
    exact hhash
  · rw [Dict.get_set_of_ne hkey] at hfound
    exact hshort other found hfound

theorem shortHashes_parse_entries {width count : Nat} {rest rest' : Bytes}
    {entries entries' : Dict Nat Bytes} (hshort : ShortHashes entries)
    (hparse : parse_entries width count rest entries = .ok (rest', entries')) :
    ShortHashes entries' := by
  induction count generalizing rest entries with
  | zero =>
    obtain ⟨rfl, rfl⟩ := Prod.mk.inj (Except.ok.inj hparse)
    exact hshort
  | succ count ih =>
    rw [parse_entries, bind_eq_ok_iff] at hparse
    obtain ⟨key, _, hparse⟩ := hparse
    exact ih (shortHashes_set hshort key (List.length_take_le _ _)) hparse

theorem shortHashes_aich_parse_recovery_data {recovery : Bytes} {entries : Dict Nat Bytes}
    (hparse : aich_parse_recovery_data recovery = .ok entries) : ShortHashes entries := by
  rw [aich_parse_recovery_data, bind_eq_ok_iff] at hparse
  obtain ⟨count16, _, hparse⟩ := hparse
  rw [bind_eq_ok_iff] at hparse
  obtain ⟨⟨rest, entries16⟩, hentries16, hparse⟩ := hparse
  rw [bind_eq_ok_iff] at hparse
  obtain ⟨count32, _, hparse⟩ := hparse
  rw [bind_eq_ok_iff] at hparse
  obtain ⟨⟨rest', entries32⟩, hentries32, hparse⟩ := hparse
  obtain rfl := Except.ok.inj hparse
  have hempty : ShortHashes .empty := by
    intro key hash hfound
    rw [Dict.get_empty] at hfound
    cases hfound
  exact shortHashes_parse_entries (shortHashes_parse_entries hempty hentries16) hentries32

variable {entries : Dict Nat Bytes}

theorem collect_blocks_ok {leaf_idents : List Nat} {part_blocks : List Bytes}
    (hcollect : collect_blocks entries leaf_idents = .ok part_blocks) :
    part_blocks.length = leaf_idents.length ∧
      ∀ block_hash ∈ part_blocks, ∃ leaf_ident, entries.get leaf_ident = some block_hash := by
  induction leaf_idents generalizing part_blocks with
  | nil =>
    obtain rfl := Except.ok.inj hcollect
    simp
  | cons leaf_ident rest ih =>
    rw [collect_blocks] at hcollect
    split at hcollect
    · cases hcollect
    · rename_i digest hfound
      rw [bind_eq_ok_iff] at hcollect
      obtain ⟨tail, htail, hcollect⟩ := hcollect
      obtain rfl := Except.ok.inj hcollect
      obtain ⟨hlength, hread⟩ := ih htail
      refine ⟨by simp [hlength], ?_⟩
      intro block_hash hmem
      rcases List.mem_cons.mp hmem with rfl | hmem
      · exact ⟨leaf_ident, hfound⟩
      · exact hread block_hash hmem

/-- A sibling chain that could be combined was climbed along hashes of the blob. -/
theorem combine_ok {sha1 : HashFn 20} {part_hash combined : Bytes} {chain : List (Bool × Nat)}
    (hcombine : combine sha1 entries part_hash chain = .ok combined) :
    ∃ links : List (Bool × Bytes), links.map Prod.fst = chain.map Prod.fst ∧
      (∀ hash ∈ links.map Prod.snd, ∃ sibling_ident, entries.get sibling_ident = some hash) ∧
      combined = climb sha1 part_hash links ∧
      combine_strings sha1 entries part_hash chain = .ok (climbMessages sha1 part_hash links) := by
  induction chain generalizing combined with
  | nil =>
    obtain rfl := Except.ok.inj hcombine
    exact ⟨[], rfl, by simp, rfl, rfl⟩
  | cons link rest ih =>
    obtain ⟨side, sibling_ident⟩ := link
    rw [combine, bind_eq_ok_iff] at hcombine
    obtain ⟨lower, hlower, hcombine⟩ := hcombine
    obtain ⟨links, hsides, hread, rfl, hstrings⟩ := ih hlower
    split at hcombine
    · cases hcombine
    · rename_i sibling_hash hfound
      obtain rfl := Except.ok.inj hcombine
      refine ⟨(side, sibling_hash) :: links, by simp [hsides], ?_, ?_, ?_⟩
      · intro hash hhash
        rcases List.mem_cons.mp hhash with rfl | hhash
        · exact ⟨sibling_ident, hfound⟩
        · exact hread hash hhash
      · cases side <;> rfl
      · rw [combine_strings, hstrings, ok_bind, hlower, ok_bind, hfound]
        cases side <;> rfl

end Parsed

section Accepted

variable (sha1 : HashFn 20) {data : Bytes}

theorem strings_nodeOf (digests : merkle.Tree Bytes) (start size : Nat) (is_left : Bool) :
    (nodeOf sha1 digests start size is_left).strings = digests.messages sha1 := by
  induction digests generalizing start size is_left with
  | leaf value => rfl
  | node left right ihl ihr => simp [nodeOf, AichNode.strings, merkle.Tree.messages, ihl, ihr]

/-- The part's tree below the siblings of its descent: the file's tree with
every subtree beside the path cut down to its root. -/
def prunedTree (data : Bytes) (part_start part_size : Nat) (side : Bool) (steps : List Step) :
    merkle.Tree Bytes :=
  (digestTree sha1 data part_start part_size side).attach (siblingRoots sha1 data steps)

/-- Pruning hashes no string that the file's own tree does not. -/
theorem messages_prunedTree (data : Bytes) {file_size part_start start size : Nat} (is_left : Bool)
    (hpath : OnPath file_size part_start start size) :
    ∀ message ∈ (prunedTree sha1 data part_start (min PARTSIZE (file_size - part_start))
        (partSide (partSteps part_start start size is_left) is_left)
        (partSteps part_start start size is_left)).messages sha1,
      message ∈ (digestTree sha1 data start size is_left).messages sha1 := by
  induction start, size, is_left using partSteps.induct part_start with
  | case1 start size is_left hsmall =>
    obtain ⟨rfl, hsize⟩ := hpath.eq_part hsmall
    rw [← hsize, partSteps_of_le hsmall]
    exact fun message hmessage => hmessage
  | case2 start size is_left hlarge hgo ih =>
    have hblock : BLOCKSIZE < size := by
      simp only [PARTSIZE, BLOCKSIZE] at *
      omega
    have hleft := hpath.left (by omega) hgo
    have hroot := root_digestTree_climb sha1 data true hleft
    rw [← merkle.Tree.root_attach] at hroot
    intro message hmessage
    rw [partSteps_left hlarge hgo] at hmessage
    rw [digestTree_of_gt sha1 data hblock, merkle.Tree.messages, hroot]
    rcases List.mem_cons.mp hmessage with rfl | hmessage
    · exact List.mem_cons_self
    · rw [List.mem_append] at hmessage
      rcases hmessage with hmessage | hmessage
      · exact List.mem_cons_of_mem _ (List.mem_append_left _ (ih hleft message hmessage))
      · cases hmessage
  | case3 start size is_left hlarge hgo ih =>
    have hblock : BLOCKSIZE < size := by
      simp only [PARTSIZE, BLOCKSIZE] at *
      omega
    have hright := hpath.right (by omega) hgo
    have hroot := root_digestTree_climb sha1 data false hright
    rw [← merkle.Tree.root_attach] at hroot
    intro message hmessage
    rw [partSteps_right hlarge hgo] at hmessage
    rw [digestTree_of_gt sha1 data hblock, merkle.Tree.messages, hroot]
    rcases List.mem_cons.mp hmessage with rfl | hmessage
    · exact List.mem_cons_self
    · rw [List.mem_append] at hmessage
      rcases hmessage with hmessage | hmessage
      · cases hmessage
      · exact List.mem_cons_of_mem _ (List.mem_append_right _ (ih hright message hmessage))

/-- The tree an accepted blob claims: its block hashes at the leaves of the
part, and its sibling hashes beside the path to the part. -/
def claimedTree (part_start part_size : Nat) (side : Bool) (part_blocks : List Bytes)
    (links : List (Bool × Bytes)) : merkle.Tree Bytes :=
  ((splitTree part_start part_size side).fill [] part_blocks).attach links

theorem map_fst_chainIdents (path : List Bool) (steps : List Step) :
    (chainIdents path steps).map Prod.fst = steps.map Step.go_left := by
  induction steps generalizing path with
  | nil => rfl
  | cons step rest ih => simp [chainIdents, ih]

/-- An accepted blob claims a tree whose root is the expected master hash, with
hashes of at most twenty bytes; the verifier hashes the strings of that tree. -/
theorem aich_verified_part_blocks_ok {recovery master : Bytes} {part_index : Int} {file_size : Nat}
    {part_blocks : List Bytes}
    (haccept : aich_verified_part_blocks sha1 recovery part_index file_size master = .ok part_blocks) :
    ∃ part_start part_size links strings,
      part_range part_index file_size = .ok (part_start, part_size) ∧
      part_blocks.length = block_count part_size ∧
      (∀ hash ∈ part_blocks, hash.length ≤ 20) ∧
      links.map Prod.fst = (partSteps part_start 0 file_size true).map Step.go_left ∧
      (∀ hash ∈ links.map Prod.snd, hash.length ≤ 20) ∧
      (claimedTree part_start part_size (partSide (partSteps part_start 0 file_size true) true)
        part_blocks links).root sha1 = master ∧
      verifier_strings sha1 recovery part_index file_size = .ok strings ∧
      ∀ message, message ∈ (claimedTree part_start part_size
        (partSide (partSteps part_start 0 file_size true) true) part_blocks links).messages sha1 ↔
        message ∈ strings := by
  rw [aich_verified_part_blocks, bind_eq_ok_iff] at haccept
  obtain ⟨⟨part_ident, part_size, part_is_left⟩, hident, haccept⟩ := haccept
  obtain ⟨⟨part_start, size⟩, hrange, _⟩ := bind_eq_ok_iff.mp hident
  have hspec := aich_part_path_ident_spec hrange
  rw [hident] at hspec
  obtain ⟨rfl, hrest⟩ := Prod.mk.inj (Except.ok.inj hspec)
  obtain ⟨rfl, rfl⟩ := Prod.mk.inj hrest
  obtain ⟨hstart, haligned, hinside, hpart⟩ := part_range_eq_ok hrange
  have hpos : 0 < part_size := by
    simp only [PARTSIZE] at *
    omega
  have hsmall : part_size ≤ PARTSIZE := by omega
  have htoNat : (part_index * (PARTSIZE : Int)).toNat = part_start := by
    rw [← hstart, Int.toNat_natCast]
  have hchain := sibling_chain_spec true (OnPath.root haligned hinside) [] (by simp)
  rw [ident_nil, ← hpart] at hchain
  have hidents := subtree_emit_spec hpos hsmall part_start
    (partSide (partSteps part_start 0 file_size true) true)
    ((partSteps part_start 0 file_size true).map Step.go_left)
  simp only at haccept
  rw [bind_eq_ok_iff] at haccept
  obtain ⟨entries, hparse, haccept⟩ := haccept
  have hshort := shortHashes_aich_parse_recovery_data hparse
  rw [aich_subtree_leaf_idents, hidents, ok_bind, bind_eq_ok_iff] at haccept
  obtain ⟨blocks, hcollect, haccept⟩ := haccept
  obtain ⟨hlength, hread⟩ := collect_blocks_ok hcollect
  rw [List.length_map, merkle.Tree.length_leafPaths] at hlength
  have htree := build_tree_spec sha1 (countsAgree_of_le_part hpos hsmall part_start _) hlength
  simp only [htoNat] at haccept
  rw [htree, ok_bind, hchain, ok_bind, bind_eq_ok_iff] at haccept
  obtain ⟨combined, hcombine, haccept⟩ := haccept
  rw [digest_nodeOf] at hcombine
  obtain ⟨links, hsides, hlinks, hclimb, hstrings⟩ := combine_ok hcombine
  split at haccept
  · cases haccept
  · rename_i hmaster
    obtain rfl := Except.ok.inj haccept
    let part_tree := (splitTree part_start part_size
      (partSide (partSteps part_start 0 file_size true) true)).fill [] blocks
    refine ⟨part_start, part_size, links,
      part_tree.messages sha1 ++ climbMessages sha1 (part_tree.root sha1) links,
      hrange, ?_, ?_, ?_, ?_, ?_, ?_, ?_⟩
    · rw [hlength, leaves_splitTree_of_le hpos hsmall, length_blocks]
    · intro hash hhash
      obtain ⟨key, hfound⟩ := hread hash hhash
      exact hshort key hash hfound
    · rw [hsides, map_fst_chainIdents]
    · intro hash hhash
      obtain ⟨key, hfound⟩ := hlinks hash hhash
      exact hshort key hash hfound
    · rw [claimedTree, merkle.Tree.root_attach, ← hclimb]
      exact not_not.mp hmaster
    · rw [verifier_strings, hident, ok_bind]
      simp only
      rw [hparse, ok_bind, aich_subtree_leaf_idents, hidents, ok_bind, hcollect, ok_bind]
      simp only [htoNat]
      rw [htree, ok_bind, hchain, ok_bind, digest_nodeOf, hstrings, ok_bind, strings_nodeOf]
      rfl
    · intro message
      rw [claimedTree, merkle.Tree.mem_messages_attach, List.mem_append]
      exact or_comm

end Accepted

/-- Where no two of the strings hashed collide, a blob that passes against the
master hash of the file carries the file's own block hashes, whatever the peer
put into it. -/
theorem aich_verified_part_blocks_sound (sha1 : HashFn 20) {data recovery : Bytes}
    {result : AichHashResult} (hresult : aich_hash_data sha1 data = .ok result) {part_index : Int}
    (hfree : Set.InjOn sha1 (HashedStrings sha1 data recovery part_index)) {part_blocks : List Bytes}
    (haccept : aich_verified_part_blocks sha1 recovery part_index data.length result.master_hash =
      .ok part_blocks) :
    ∃ part_start part_size, part_range part_index data.length = .ok (part_start, part_size) ∧
      part_blocks = partBlockHashes sha1 data part_start part_size := by
  obtain ⟨part_start, part_size, links, strings, hrange, hlength, hblocks, hsides, hlinks, hroot,
    hstrings, hmessages⟩ := aich_verified_part_blocks_ok sha1 haccept
  refine ⟨part_start, part_size, hrange, ?_⟩
  obtain ⟨_, haligned, hinside, hpart⟩ := part_range_eq_ok hrange
  have hpath := OnPath.root haligned hinside
  have hpos : 0 < part_size := by
    simp only [PARTSIZE] at *
    omega
  have hsmall : part_size ≤ PARTSIZE := by omega
  obtain ⟨_, hmaster, _⟩ := aich_hash_data_eq sha1 (by omega) hresult
  have hpruned := messages_prunedTree sha1 data true hpath
  have hclimb := root_digestTree_climb sha1 data true hpath
  rw [← hpart] at hpruned hclimb
  rw [← merkle.Tree.root_attach] at hclimb
  have hcount : part_blocks.length = (splitTree part_start part_size
      (partSide (partSteps part_start 0 data.length true) true)).leaves.length := by
    rw [leaves_splitTree_of_le hpos hsmall, length_blocks, hlength]
  have hfill := merkle.Tree.leaves_fill [] (splitTree part_start part_size
    (partSide (partSteps part_start 0 data.length true) true)) hcount
  have hpathSides : (siblingRoots sha1 data (partSteps part_start 0 data.length true)).map Prod.fst =
      links.map Prod.fst := by
    rw [hsides, siblingRoots, List.map_map]
    rfl
  have hequal : prunedTree sha1 data part_start part_size
      (partSide (partSteps part_start 0 data.length true) true)
        (partSteps part_start 0 data.length true) =
      claimedTree part_start part_size (partSide (partSteps part_start 0 data.length true) true)
        part_blocks links := by
    refine merkle.Tree.binding sha1 sha1.length_apply ?_ ?_ ?_ ?_ ?_
    · refine merkle.Tree.shape_attach ?_ hpathSides
      rw [digestTree, merkle.Tree.shape_map, merkle.Tree.shape_fill]
    · intro value hvalue
      rcases merkle.Tree.mem_leaves_attach hvalue with hleaf | hsibling
      · exact length_leaf_digestTree sha1 data _ _ _ value hleaf
      · rw [siblingRoots, List.map_map] at hsibling
        obtain ⟨step, _, rfl⟩ := List.mem_map.mp hsibling
        exact length_root_digestTree sha1 data _ _ _
    · intro value hvalue
      rcases merkle.Tree.mem_leaves_attach hvalue with hleaf | hlink
      · rw [hfill] at hleaf
        exact hblocks value hleaf
      · exact hlinks value hlink
    · intro first hfirst second hsecond heq
      exact hfree (.inl (List.mem_append_right _ (hpruned first hfirst)))
        (.inr ⟨strings, hstrings, (hmessages second).mp hsecond⟩) heq
    · rw [hroot, prunedTree, ← hclimb, hmaster]
  have hbottom := congrArg merkle.Tree.leaves (merkle.Tree.bottom_eq_of_attach_eq hpathSides hequal)
  rw [hfill, leaves_digestTree_of_le sha1 data hpos hsmall] at hbottom
  exact hbottom.symm

section TwoBlocks

variable (sha1 : HashFn 20) {data recovery : Bytes}

theorem splitTree_two_blocks {size : Nat} (hlarge : BLOCKSIZE < size) (hsmall : size ≤ 2 * BLOCKSIZE) :
    splitTree 0 size true = .node (.leaf ⟨0, BLOCKSIZE⟩) (.leaf ⟨BLOCKSIZE, size - BLOCKSIZE⟩) := by
  have hpart : size ≤ PARTSIZE := by
    simp only [BLOCKSIZE, PARTSIZE] at *
    omega
  have hcount : block_count size = 2 := by
    simp only [block_count, BLOCKSIZE] at *
    omega
  rw [splitTree_of_gt hlarge, split_left_size_of_le hlarge hpart, hcount,
    show leftShare 2 true = 1 from rfl, Nat.one_mul, Nat.zero_add,
    splitTree_of_le (Nat.le_refl _), splitTree_of_le (by omega)]

/-- A file of two blocks and an accepted blob with its own hashes take three
strings: the two blocks and the pair of their hashes. -/
theorem hashedStrings_two_blocks (hlarge : BLOCKSIZE < data.length)
    (hsmall : data.length ≤ 2 * BLOCKSIZE) {master : Bytes}
    (haccept : aich_verified_part_blocks sha1 recovery (0 : Nat) data.length master =
      .ok (partBlockHashes sha1 data 0 data.length)) :
    ∀ string ∈ HashedStrings sha1 data recovery (0 : Nat),
      string = data.extract 0 BLOCKSIZE ∨ string = data.extract BLOCKSIZE data.length ∨
        string = sha1 (data.extract 0 BLOCKSIZE) ++ sha1 (data.extract BLOCKSIZE data.length) := by
  have htree := splitTree_two_blocks hlarge hsmall
  have hend : BLOCKSIZE + (data.length - BLOCKSIZE) = data.length := by omega
  have hpart : data.length ≤ PARTSIZE := by
    simp only [BLOCKSIZE, PARTSIZE] at *
    omega
  rintro string (hfile | ⟨strings, hstrings, hmem⟩)
  · rw [file_strings, digestTree, htree] at hfile
    simp only [merkle.Tree.leaves, merkle.Tree.map, merkle.Tree.messages, merkle.Tree.root, Segment.bytes,
      List.cons_append, List.nil_append, List.append_nil, List.map_cons, List.map_nil, List.mem_cons,
      List.not_mem_nil, or_false, Nat.zero_add, hend] at hfile
    exact hfile
  · obtain ⟨part_start, part_size, links, strings', hrange, _, _, hsides, _, _, hstrings', hmessages⟩ :=
      aich_verified_part_blocks_ok sha1 haccept
    rw [hstrings] at hstrings'
    obtain rfl := Except.ok.inj hstrings'
    have hzero : 0 * PARTSIZE < data.length := by omega
    obtain ⟨rfl, rfl⟩ := Prod.mk.inj (Except.ok.inj ((part_range_natCast hzero).symm.trans hrange))
    rw [partSteps_of_le hpart] at hsides hmessages
    obtain rfl := List.map_eq_nil_iff.mp hsides
    have hhashes := leaves_digestTree_of_le sha1 data (by omega) hpart 0 true
    rw [digestTree, htree] at hhashes
    simp only [merkle.Tree.leaves, merkle.Tree.map, Segment.bytes, List.cons_append, List.nil_append, Nat.zero_add,
      hend] at hhashes
    have hclaimed := (hmessages string).mpr hmem
    rw [Nat.zero_mul, Nat.sub_zero, Nat.min_eq_right hpart, partSide, claimedTree, htree,
      ← hhashes] at hclaimed
    simp only [merkle.Tree.attach, merkle.Tree.fill, merkle.Tree.leaves, merkle.Tree.messages, merkle.Tree.root,
      List.length_singleton, List.take_succ_cons, List.take_zero, List.drop_succ_cons, List.drop_zero,
      List.headD_cons, List.append_nil, List.mem_singleton] at hclaimed
    exact .inr (.inr hclaimed)

/-- A hash that tells strings apart by their length. -/
def lengthHash (width : Nat) : HashFn width :=
  ⟨fun data => encode width data.length, fun data => length_encode width data.length⟩

/-- The two blocks and the pair of digests have different lengths, so this hash
has no collision among them. -/
theorem aich_verified_part_blocks_sound_two_blocks :
    ∃ result blob part_blocks,
      aich_hash_data (lengthHash 20) (List.replicate (BLOCKSIZE + 1) 7) = .ok result ∧
      aich_verified_part_blocks (lengthHash 20) blob (0 : Nat)
        (List.replicate (BLOCKSIZE + 1) (7 : UInt8)).length result.master_hash = .ok part_blocks ∧
      ∃ part_start part_size,
        part_range (0 : Nat) (List.replicate (BLOCKSIZE + 1) (7 : UInt8)).length =
          .ok (part_start, part_size) ∧
        part_blocks = partBlockHashes (lengthHash 20) (List.replicate (BLOCKSIZE + 1) 7)
          part_start part_size := by
  have hlength : (List.replicate (BLOCKSIZE + 1) (7 : UInt8)).length = BLOCKSIZE + 1 :=
    List.length_replicate
  generalize List.replicate (BLOCKSIZE + 1) (7 : UInt8) = data at hlength ⊢
  have hlarge : BLOCKSIZE < data.length := by omega
  have hzero : 0 * PARTSIZE < data.length := by omega
  have height : data.length ≤ 8 * PARTSIZE := by
    rw [hlength]
    simp only [BLOCKSIZE, PARTSIZE]
    omega
  obtain ⟨result, hresult, _, hmaster, _⟩ := aich_hash_data_spec (lengthHash 20)
    (show 0 < data.length by omega)
  obtain ⟨blob, hblob⟩ := aich_part_recovery_data_exists (lengthHash 20) hresult hlarge height
    (part_range_natCast hzero)
  obtain ⟨part_start, part_size, hrange, hparse⟩ :=
    aich_part_recovery_data_parses (lengthHash 20) hresult hlarge hblob
  have haccept := aich_verified_part_blocks_of_parses (lengthHash 20) hrange hparse
  rw [← hmaster] at haccept
  have hfree : Set.InjOn (lengthHash 20) (HashedStrings (lengthHash 20) data blob (0 : Nat)) := by
    obtain ⟨rfl, rfl⟩ := Prod.mk.inj (Except.ok.inj ((part_range_natCast hzero).symm.trans hrange))
    have hpart : data.length ≤ PARTSIZE := by
      rw [hlength]
      simp only [BLOCKSIZE, PARTSIZE]
      omega
    rw [Nat.zero_mul, Nat.sub_zero, Nat.min_eq_right hpart] at haccept
    have hcases := hashedStrings_two_blocks (lengthHash 20) hlarge
      (by rw [hlength]; simp only [BLOCKSIZE]; omega) haccept
    have hfirst : (data.extract 0 BLOCKSIZE).length = 184320 := by
      rw [length_extract_of_le (by omega)]
      rfl
    have hsecond : (data.extract BLOCKSIZE data.length).length = 1 := by
      rw [length_extract_of_le (by omega), hlength]
      omega
    have hpair : ((lengthHash 20) (data.extract 0 BLOCKSIZE) ++
        (lengthHash 20) (data.extract BLOCKSIZE data.length)).length = 40 := by
      rw [List.length_append, HashFn.length_apply, HashFn.length_apply]
    have hknown : ∀ string ∈ HashedStrings (lengthHash 20) data blob (0 : Nat),
        string.length ≤ 184320 ∧ (string = data.extract 0 BLOCKSIZE ∧ string.length = 184320 ∨
          string = data.extract BLOCKSIZE data.length ∧ string.length = 1 ∨
          string = (lengthHash 20) (data.extract 0 BLOCKSIZE) ++
            (lengthHash 20) (data.extract BLOCKSIZE data.length) ∧ string.length = 40) := by
      intro string hstring
      rcases hcases string hstring with heq | heq | heq
      · exact ⟨by rw [heq, hfirst], .inl ⟨heq, by rw [heq, hfirst]⟩⟩
      · exact ⟨by rw [heq, hsecond]; decide, .inr (.inl ⟨heq, by rw [heq, hsecond]⟩)⟩
      · exact ⟨by rw [heq, hpair]; decide, .inr (.inr ⟨heq, by rw [heq, hpair]⟩)⟩
    have hfits : 184320 < 256 ^ 20 := by decide
    intro first hfirstMem second hsecondMem heq
    obtain ⟨hfirstBound, hone⟩ := hknown first hfirstMem
    obtain ⟨hsecondBound, htwo⟩ := hknown second hsecondMem
    have hsame : first.length = second.length := by
      rw [← decode_encode (Nat.lt_of_le_of_lt hfirstBound hfits),
        ← decode_encode (Nat.lt_of_le_of_lt hsecondBound hfits)]
      exact congrArg decode heq
    rcases hone with ⟨hone, hl⟩ | ⟨hone, hl⟩ | ⟨hone, hl⟩ <;>
      rcases htwo with ⟨htwo, hr⟩ | ⟨htwo, hr⟩ | ⟨htwo, hr⟩ <;>
      first
      | exact absurd (hl.symm.trans (hsame.trans hr)) (by decide)
      | rw [hone, htwo]
  exact ⟨result, blob, _, hresult, haccept,
    aich_verified_part_blocks_sound (lengthHash 20) hresult hfree haccept⟩

end TwoBlocks

end amuled.aich
