import AmuleD.Hashes.Aich.Verify

open merkle

namespace amuled.aich

section Keys

variable (sha1 : HashFn 20) (data : Bytes)

theorem length_siblingEntries {path : List Bool} {steps : List Step} :
    ∀ entry ∈ siblingEntries sha1 data path steps,
      path.length < entry.1.length ∧ entry.1.length ≤ path.length + steps.length := by
  induction steps generalizing path with
  | nil => simp [siblingEntries]
  | cons step rest ih =>
    intro entry hentry
    rcases List.mem_cons.mp hentry with rfl | hrest
    · simp
    · have hbounds := ih entry hrest
      simp only [List.length_append, List.length_cons, List.length_nil] at *
      omega

theorem count_siblingEntries (path : List Bool) (steps : List Step) :
    (siblingEntries sha1 data path steps).length = steps.length := by
  induction steps generalizing path with
  | nil => rfl
  | cons step rest ih => simp [siblingEntries, ih]

theorem nodup_siblingEntries (path : List Bool) (steps : List Step) :
    ((siblingEntries sha1 data path steps).map Prod.fst).Nodup := by
  induction steps generalizing path with
  | nil => simp [siblingEntries]
  | cons step rest ih =>
    rw [siblingEntries, List.map_cons, List.nodup_cons]
    refine ⟨?_, ih _⟩
    intro hmem
    obtain ⟨entry, hentry, heq⟩ := List.mem_map.mp hmem
    have hlonger := (length_siblingEntries sha1 data entry hentry).1
    rw [heq] at hlonger
    simp at hlonger

/-- No ancestor of the part, nor the part itself, is a sibling. -/
theorem not_mem_siblingEntries_above {path : List Bool} {steps : List Step} {ancestor : List Bool}
    (hancestor : ancestor <+: path ++ steps.map Step.go_left) :
    ancestor ∉ (siblingEntries sha1 data path steps).map Prod.fst := by
  induction steps generalizing path with
  | nil => simp [siblingEntries]
  | cons step rest ih =>
    rw [siblingEntries, List.map_cons, List.mem_cons, not_or]
    constructor
    · rintro rfl
      rw [List.map_cons, List.prefix_append_right_inj, List.cons_prefix_cons] at hancestor
      simp at hancestor
    · exact ih (by simpa using hancestor)

variable {digests : merkle.Tree Bytes} {path : List Bool} {side : Bool}

theorem map_fst_leafEntries (path : List Bool) (side : Bool) (digests : merkle.Tree Bytes) :
    (leafEntries path side digests).map Prod.fst =
      digests.leafPaths.map fun leaf => path ++ side :: leaf := by
  have hzip : (digests.leafPaths.zip digests.leaves).map Prod.fst = digests.leafPaths :=
    List.map_fst_zip (by rw [merkle.Tree.length_leafPaths])
  calc
    _ = ((digests.leafPaths.zip digests.leaves).map Prod.fst).map fun leaf => path ++ side :: leaf := by
      simp [leafEntries, Function.comp_def]
    _ = _ := by rw [hzip]

theorem map_snd_leafEntries (path : List Bool) (side : Bool) (digests : merkle.Tree Bytes) :
    (leafEntries path side digests).map Prod.snd = digests.leaves := by
  have hzip : (digests.leafPaths.zip digests.leaves).map Prod.snd = digests.leaves :=
    List.map_snd_zip (by rw [merkle.Tree.length_leafPaths])
  rw [leafEntries, List.map_map]
  exact hzip

/-- Everything the builder emits for a part: the siblings on the way down, then
the part's own leaves. -/
def partEntries (part_start part_size file_size : Nat) : List (List Bool × Bytes) :=
  siblingEntries sha1 data [] (partSteps part_start 0 file_size true) ++
    leafEntries ((partSteps part_start 0 file_size true).map Step.go_left)
      (partSide (partSteps part_start 0 file_size true) true)
      (digestTree sha1 data part_start part_size
        (partSide (partSteps part_start 0 file_size true) true))

theorem nodup_partEntries (part_start part_size file_size : Nat) :
    ((partEntries sha1 data part_start part_size file_size).map Prod.fst).Nodup := by
  rw [partEntries, List.map_append]
  refine List.Nodup.append (nodup_siblingEntries sha1 data _ _) ?_ ?_
  · rw [map_fst_leafEntries]
    refine (merkle.Tree.nodup_leafPaths _).map ?_
    intro first second heq
    exact (List.cons.inj (List.append_cancel_left heq)).2
  · intro key hsibling hleaf
    obtain ⟨entry, hentry, rfl⟩ := List.mem_map.mp hsibling
    have hshort := (length_siblingEntries sha1 data entry hentry).2
    rw [map_fst_leafEntries] at hleaf
    obtain ⟨leaf, _, heq⟩ := List.mem_map.mp hleaf
    rw [← heq] at hshort
    simp only [List.length_append, List.length_map, List.length_cons, List.length_nil] at hshort
    omega

theorem not_mem_partEntries_above {part_start part_size file_size : Nat} {ancestor : List Bool}
    (hancestor : ancestor <+: (partSteps part_start 0 file_size true).map Step.go_left) :
    ancestor ∉ (partEntries sha1 data part_start part_size file_size).map Prod.fst := by
  rw [partEntries, List.map_append, List.mem_append, not_or]
  refine ⟨not_mem_siblingEntries_above sha1 data (by simpa using hancestor), ?_⟩
  rw [map_fst_leafEntries]
  intro hleaf
  obtain ⟨leaf, _, rfl⟩ := List.mem_map.mp hleaf
  have hlength := hancestor.length_le
  simp only [List.length_append, List.length_map, List.length_cons] at hlength
  omega

theorem map_fst_identEntry (items : List (List Bool × Bytes)) :
    (items.map identEntry).map Prod.fst = (items.map Prod.fst).map ident := by
  simp [identEntry, Function.comp_def]

/-- The parsed blob of a part reads back every entry of the part. -/
theorem get_partEntries {part_start part_size file_size : Nat} {item : List Bool × Bytes}
    (hitem : item ∈ partEntries sha1 data part_start part_size file_size) :
    (Dict.ofList ((partEntries sha1 data part_start part_size file_size).map identEntry)).get
      (ident item.1) = some item.2 := by
  apply Dict.get_ofList_of_mem
  · rw [map_fst_identEntry]
    exact (nodup_partEntries sha1 data part_start part_size file_size).map ident_injective
  · exact List.mem_map.mpr ⟨item, hitem, rfl⟩

theorem get_partEntries_above {part_start part_size file_size : Nat} {ancestor : List Bool}
    (hancestor : ancestor <+: (partSteps part_start 0 file_size true).map Step.go_left) :
    (Dict.ofList ((partEntries sha1 data part_start part_size file_size).map identEntry)).get
      (ident ancestor) = none := by
  apply Dict.get_ofList_of_not_mem
  rw [map_fst_identEntry]
  intro hmem
  obtain ⟨path, hpath, heq⟩ := List.mem_map.mp hmem
  obtain rfl := ident_injective heq
  exact not_mem_partEntries_above sha1 data hancestor hpath

end Keys

section Parts

variable (sha1 : HashFn 20) {data : Bytes} {part_start part_size : Nat}

/-- The block hashes of a part, left to right. -/
def partBlockHashes (data : Bytes) (part_start part_size : Nat) : List Bytes :=
  (blocks part_start part_size).map fun segment => sha1 (segment.bytes data)

theorem leaves_digestTree_of_le (data : Bytes) (hpos : 0 < part_size) (hsmall : part_size ≤ PARTSIZE)
    (part_start : Nat) (side : Bool) :
    (digestTree sha1 data part_start part_size side).leaves =
      partBlockHashes sha1 data part_start part_size := by
  rw [digestTree, merkle.Tree.leaves_map, leaves_splitTree_of_le hpos hsmall]
  rfl

/-- A part taken out of the file has the block hashes it has inside the file. -/
theorem partBlockHashes_extract (data : Bytes) (part_start part_size : Nat) :
    partBlockHashes sha1 (data.extract part_start (part_start + part_size)) 0 part_size =
      partBlockHashes sha1 data part_start part_size := by
  simp only [partBlockHashes, blocks, List.map_map]
  apply List.map_congr_left
  intro index hindex
  rw [List.mem_range] at hindex
  simp only [Function.comp_apply, Segment.bytes]
  rw [extract_extract]
  · congr 2 <;> omega
  · simp only [block_count, BLOCKSIZE] at *
    omega

/-- The part's tree built from the hashes of its blocks. -/
theorem build_tree_part (data : Bytes) (hpos : 0 < part_size) (hsmall : part_size ≤ PARTSIZE)
    (part_start : Nat) (side : Bool) :
    build_tree sha1 (partBlockHashes sha1 data part_start part_size) part_start part_size side =
      .ok (nodeOf sha1 (digestTree sha1 data part_start part_size side) part_start part_size side) := by
  rw [← leaves_digestTree_of_le sha1 data hpos hsmall part_start side,
    build_tree_spec sha1 (countsAgree_of_le_part hpos hsmall part_start side)
      (by rw [digestTree, merkle.Tree.leaves_map, List.length_map]),
    digestTree, merkle.Tree.fill_leaves_map]

/-- A segment that lies beside the part resolves to its entry. -/
theorem resolve_of_found {entries : Dict Nat Bytes} {block_hashes : List Bytes}
    {start size : Nat} {is_left : Bool} {ident : Nat} {hash : Bytes}
    (hbeside : ¬ (start ≥ part_start ∧ start + size ≤ part_start + part_size))
    (hfound : entries.get (ident <<< 1 ||| is_left.toNat) = some hash) :
    resolve sha1 entries part_start part_size block_hashes start size is_left ident =
      .ok (some hash) := by
  rw [resolve]
  simp only [hfound, Option.isSome_some, true_and, if_true]
  rw [if_neg hbeside]
  split <;> rfl

/-- With the siblings of the descent at hand, and no entry for an ancestor of
the part, every ancestor resolves to the root of its tree. `parent` is the
identifier `resolve` is called with; the node's own side completes it. -/
theorem resolve_spec {file_size start size : Nat} (is_left : Bool)
    {entries : Dict Nat Bytes} {block_hashes : List Bytes}
    (hpath : OnPath file_size part_start start size)
    (hblocks : block_hashes =
      partBlockHashes sha1 data part_start (min PARTSIZE (file_size - part_start)))
    {path : List Bool} {parent : Nat} (hparent : parent <<< 1 ||| is_left.toNat = ident path)
    (hsiblings : HasSiblings sha1 data entries path (partSteps part_start start size is_left))
    (hancestors : ∀ ancestor,
      ancestor <+: path ++ (partSteps part_start start size is_left).map Step.go_left →
        entries.get (ident ancestor) = none) :
    resolve sha1 entries part_start (min PARTSIZE (file_size - part_start)) block_hashes start size
      is_left parent = .ok (some ((digestTree sha1 data start size is_left).root sha1)) := by
  induction start, size, is_left using partSteps.induct part_start generalizing path parent with
  | case1 start size is_left hsmall =>
    obtain ⟨hstart, hsize⟩ := hpath.eq_part hsmall
    subst hstart
    have hpos : 0 < size := by
      have := hpath.lt_end
      omega
    have hnone : entries.get (ident path) = none := hancestors path (List.prefix_append _ _)
    rw [← hsize] at hblocks ⊢
    have hall : block_hashes.extract 0 ((0 + size + BLOCKSIZE - 1) / BLOCKSIZE) = block_hashes := by
      have hlength : block_hashes.length = block_count size := by
        rw [hblocks, partBlockHashes, List.length_map, length_blocks]
      rw [List.extract_eq_take_drop, List.drop_zero, List.take_of_length_le]
      simp only [hlength, block_count, Nat.zero_add, Nat.sub_zero, Nat.le_refl]
    rw [resolve]
    simp only [hparent, hnone, Option.isSome_none, Bool.false_eq_true, false_and, if_false]
    rw [if_pos (by omega), Nat.sub_self, Nat.zero_div, hall, hblocks,
      build_tree_part sha1 data hpos hsmall, ok_bind, digest_nodeOf]
    rfl
  | case2 start size is_left hlarge hgo ih =>
    have hbig := Nat.lt_of_not_le hlarge
    have hblock : BLOCKSIZE < size := by
      simp only [PARTSIZE, BLOCKSIZE] at *
      omega
    have hleft := hpath.left hbig hgo
    have hnone : entries.get (ident path) = none := hancestors path (List.prefix_append _ _)
    rw [partSteps_left hlarge hgo] at hsiblings hancestors
    have hread := hsiblings _ List.mem_cons_self
    simp only [ident_concat, Bool.not_true] at hread
    have hsubtree := ih hleft (ident_concat path true).symm
      (fun entry hentry => hsiblings entry (List.mem_cons_of_mem _ hentry))
      (fun ancestor h => hancestors ancestor (by simpa using h))
    have hbeside : ¬ (start + split_left_size size is_left ≥ part_start ∧
        start + split_left_size size is_left + (size - split_left_size size is_left) ≤
          part_start + min PARTSIZE (file_size - part_start)) := by
      have hbounds := split_left_size_bounds hblock is_left
      have hpart := hpath.part_aligned
      have haligned := hpath.aligned
      have hsize := split_left_size_of_gt hbig is_left
      simp only [PARTSIZE] at *
      omega
    rw [resolve]
    simp only [hparent, hnone, Option.isSome_none, Bool.false_eq_true, false_and, if_false]
    have hstart := hpath.start_le
    rw [if_neg (by omega), if_neg (by omega), hsubtree, ok_bind,
      resolve_of_found sha1 hbeside hread, ok_bind, digestTree_of_gt sha1 data hblock]
    rfl
  | case3 start size is_left hlarge hgo ih =>
    have hbig := Nat.lt_of_not_le hlarge
    have hblock : BLOCKSIZE < size := by
      simp only [PARTSIZE, BLOCKSIZE] at *
      omega
    have hright := hpath.right hbig hgo
    have hnone : entries.get (ident path) = none := hancestors path (List.prefix_append _ _)
    rw [partSteps_right hlarge hgo] at hsiblings hancestors
    have hread := hsiblings _ List.mem_cons_self
    simp only [Bool.not_false, ident_concat] at hread
    have hsubtree := ih hright (ident_concat path false).symm
      (fun entry hentry => hsiblings entry (List.mem_cons_of_mem _ hentry))
      (fun ancestor h => hancestors ancestor (by simpa using h))
    have hbounds := split_left_size_bounds hblock is_left
    have hbeside : ¬ (start ≥ part_start ∧ start + split_left_size size is_left ≤
        part_start + min PARTSIZE (file_size - part_start)) := by
      omega
    rw [resolve]
    simp only [hparent, hnone, Option.isSome_none, Bool.false_eq_true, false_and, if_false]
    have hstart := hpath.start_le
    rw [if_neg (by omega), if_neg (by omega), resolve_of_found sha1 hbeside hread, ok_bind,
      hsubtree, ok_bind, digestTree_of_gt sha1 data hblock]
    rfl

end Parts

end amuled.aich
