import AmuleD.Hashes.Aich.RoundTrip

open merkle

namespace amuled.aich

/-- The identifiers of a part's entries: those of the siblings on the path to the part, and those of its
leaves. -/
def part_identifiers (part_index : Int) (file_size : Nat) : Except Exc (List Nat) := do
  let (part_ident, part_size, part_is_left) ← aich_part_path_ident part_index file_size
  let leaf_idents ← aich_subtree_leaf_idents part_ident part_size part_is_left
  let chain ← sibling_chain (part_index * PARTSIZE).toNat part_size 0 file_size 1
  pure (chain.map Prod.snd ++ leaf_idents)

section Paths

variable (sha1 : HashFn 20) (data : Bytes) {part_index : Int} {file_size part_start part_size : Nat}

theorem map_snd_chainIdents (path : List Bool) (steps : List Step) :
    (chainIdents path steps).map Prod.snd =
      ((siblingEntries sha1 data path steps).map Prod.fst).map ident := by
  induction steps generalizing path with
  | nil => rfl
  | cons step rest ih => simp only [chainIdents, siblingEntries, List.map_cons, ih]

/-- The identifiers are those of the entries that the builder collects. -/
theorem part_identifiers_eq (hrange : part_range part_index file_size = .ok (part_start, part_size)) :
    part_identifiers part_index file_size =
      .ok (((partEntries sha1 data part_start part_size file_size).map Prod.fst).map ident) := by
  obtain ⟨hstart, haligned, hinside, hsize⟩ := part_range_eq_ok hrange
  have hpos : 0 < part_size := by
    simp only [PARTSIZE] at *
    omega
  have hchain := sibling_chain_spec true (OnPath.root haligned hinside) [] (by simp)
  have hleaves := subtree_emit_spec hpos (by omega) part_start (partSide (partSteps part_start 0 file_size true) true)
    ((partSteps part_start 0 file_size true).map Step.go_left)
  rw [ident_nil, ← hsize] at hchain
  rw [part_identifiers, aich_part_path_ident_spec hrange, ok_bind, ← hstart, Int.toNat_natCast]
  simp only [aich_subtree_leaf_idents, hleaves, hchain, ok_bind]
  rw [partEntries, List.map_append, List.map_append, map_fst_leafEntries, digestTree, merkle.Tree.leafPaths_map,
    map_snd_chainIdents sha1 data]
  simp only [List.map_map, Function.comp_def, pure_eq_ok]

/-- The longest paths lead to the leaves: the steps to the part, its own side once more, and a path below it that
its blocks make necessary. -/
theorem length_partEntries_lt_iff (hpos : 0 < part_size) (hsmall : part_size ≤ PARTSIZE) (width : Nat) :
    (∀ entry ∈ partEntries sha1 data part_start part_size file_size, entry.1.length < width) ↔
      2 ^ ((partSteps part_start 0 file_size true).length + 2) * block_count part_size ≤ 2 ^ width := by
  have hcount : 0 < block_count part_size := by
    simp only [block_count, BLOCKSIZE]
    omega
  have hleaves := congrArg List.length (leaves_splitTree_of_le hpos hsmall part_start
    (partSide (partSteps part_start 0 file_size true) true))
  rw [length_blocks] at hleaves
  have hkeys : ∀ entry ∈ leafEntries ((partSteps part_start 0 file_size true).map Step.go_left)
      (partSide (partSteps part_start 0 file_size true) true)
      (digestTree sha1 data part_start part_size (partSide (partSteps part_start 0 file_size true) true)),
      ∃ leaf ∈ (splitTree part_start part_size (partSide (partSteps part_start 0 file_size true) true)).leafPaths,
        entry.1.length = (partSteps part_start 0 file_size true).length + 1 + leaf.length := by
    intro entry hentry
    have hmem := List.mem_map_of_mem (f := Prod.fst) hentry
    rw [map_fst_leafEntries, digestTree, merkle.Tree.leafPaths_map] at hmem
    obtain ⟨leaf, hleaf, heq⟩ := List.mem_map.mp hmem
    refine ⟨leaf, hleaf, ?_⟩
    rw [← heq, List.length_append, List.length_map, List.length_cons]
    omega
  constructor
  · intro hshort
    have hbelow : ∀ leaf ∈ (splitTree part_start part_size
        (partSide (partSteps part_start 0 file_size true) true)).leafPaths,
        (partSteps part_start 0 file_size true).length + 1 + leaf.length < width := by
      intro leaf hleaf
      have hmem : (partSteps part_start 0 file_size true).map Step.go_left ++
          partSide (partSteps part_start 0 file_size true) true :: leaf ∈
          (partEntries sha1 data part_start part_size file_size).map Prod.fst := by
        rw [partEntries, List.map_append, List.mem_append, map_fst_leafEntries, digestTree,
          merkle.Tree.leafPaths_map]
        exact .inr (List.mem_map_of_mem hleaf)
      obtain ⟨entry, hentry, heq⟩ := List.mem_map.mp hmem
      have hlength := hshort entry hentry
      rw [heq, List.length_append, List.length_map, List.length_cons] at hlength
      omega
    have hfew : (splitTree part_start part_size
        (partSide (partSteps part_start 0 file_size true) true)).leaves.length ≤
          2 ^ (width - ((partSteps part_start 0 file_size true).length + 2)) := by
      apply merkle.Tree.length_leaves_le
      intro leaf hleaf
      have hleafBelow := hbelow leaf hleaf
      omega
    have hsome : 0 < (splitTree part_start part_size
        (partSide (partSteps part_start 0 file_size true) true)).leafPaths.length := by
      rw [merkle.Tree.length_leafPaths, hleaves]
      exact hcount
    obtain ⟨leaf, hleaf⟩ := List.exists_mem_of_length_pos hsome
    have hroom := hbelow leaf hleaf
    calc
      _ ≤ 2 ^ ((partSteps part_start 0 file_size true).length + 2) *
          2 ^ (width - ((partSteps part_start 0 file_size true).length + 2)) :=
        Nat.mul_le_mul_left _ (hleaves ▸ hfew)
      _ = 2 ^ width := by
        rw [← Nat.pow_add]
        congr 1
        omega
  · intro hfits
    have hroom : (partSteps part_start 0 file_size true).length + 2 ≤ width :=
      (Nat.pow_le_pow_iff_right Nat.one_lt_two).mp ((Nat.le_mul_of_pos_right _ hcount).trans hfits)
    have hfew : block_count part_size ≤ 2 ^ (width - ((partSteps part_start 0 file_size true).length + 2)) := by
      have hsplit : 2 ^ width = 2 ^ ((partSteps part_start 0 file_size true).length + 2) *
          2 ^ (width - ((partSteps part_start 0 file_size true).length + 2)) := by
        rw [← Nat.pow_add, Nat.add_sub_cancel' hroom]
      exact Nat.le_of_mul_le_mul_left (hsplit ▸ hfits) (Nat.two_pow_pos _)
    intro entry hentry
    rw [partEntries, List.mem_append] at hentry
    rcases hentry with hsibling | hleaf
    · have hbounds := (length_siblingEntries sha1 data entry hsibling).2
      rw [List.length_nil] at hbounds
      omega
    · obtain ⟨leaf, hmem, hlength⟩ := hkeys entry hleaf
      have hbound := length_leafPaths_le hpos hsmall hfew part_start _ leaf hmem
      omega

/-- The identifiers of a part fit a width exactly if the number of its blocks, doubled at each step to the part
and twice more, fits. -/
theorem identifiers_lt_iff (hrange : part_range part_index file_size = .ok (part_start, part_size)) (width : Nat) :
    (∀ identifier ∈ ((partEntries sha1 data part_start part_size file_size).map Prod.fst).map ident,
      identifier < 2 ^ width) ↔
        2 ^ ((partSteps part_start 0 file_size true).length + 2) * block_count part_size ≤ 2 ^ width := by
  obtain ⟨-, -, hinside, hsize⟩ := part_range_eq_ok hrange
  have hpos : 0 < part_size := by
    simp only [PARTSIZE] at *
    omega
  rw [← length_partEntries_lt_iff sha1 data hpos (by omega) width]
  simp only [List.forall_mem_map, ident_lt_iff]

end Paths

/-- The identifiers that the builder tags the entries of a part with, and the requester looks up, fit the field
of the file's size exactly for the parts that are near enough to the root for their number of blocks. The part's
own side stands twice in the identifiers of its leaves, which is one bit more than they need. -/
theorem part_identifiers_fit_iff {part_index : Int} {file_size part_start part_size : Nat}
    (hrange : part_range part_index file_size = .ok (part_start, part_size)) :
    ∃ identifiers, part_identifiers part_index file_size = .ok identifiers ∧
      (∀ (sha1 : HashFn 20) (data : Bytes), data.length = file_size → ∃ siblings node part_ident,
        recovery_walk part_start part_size
            (nodeOf sha1 (digestTree sha1 data 0 file_size true) 0 file_size true) 1 =
          .ok (siblings, node, part_ident) ∧
        (siblings ++ emit node part_ident).map Prod.fst = identifiers) ∧
      ((∀ identifier ∈ identifiers, identifier < 2 ^ (8 * ident_width (decide (file_size > 0xFFFFFFFF)))) ↔
        2 ^ ((partSteps part_start 0 file_size true).length + 2) * block_count part_size ≤
          2 ^ (8 * ident_width (decide (file_size > 0xFFFFFFFF)))) := by
  refine ⟨_, part_identifiers_eq (zeroHash 20) [] hrange, ?_, identifiers_lt_iff (zeroHash 20) [] hrange _⟩
  rintro sha1 data rfl
  obtain ⟨siblings, node, part_ident, hwalk, hentries⟩ := builder_entries sha1 hrange
  refine ⟨siblings, node, part_ident, hwalk, ?_⟩
  have hsame := (part_identifiers_eq sha1 data hrange).symm.trans (part_identifiers_eq (zeroHash 20) [] hrange)
  rw [hentries, map_fst_identEntry, Except.ok.inj hsame]

theorem part_identifiers_fit_iff_one_part :
    part_range 0 200000 = .ok (0, 200000) ∧
      ∃ identifiers, part_identifiers 0 200000 = .ok identifiers ∧
        (∀ (sha1 : HashFn 20) (data : Bytes), data.length = 200000 → ∃ siblings node part_ident,
          recovery_walk 0 200000 (nodeOf sha1 (digestTree sha1 data 0 200000 true) 0 200000 true) 1 =
            .ok (siblings, node, part_ident) ∧
          (siblings ++ emit node part_ident).map Prod.fst = identifiers) ∧
        ((∀ identifier ∈ identifiers, identifier < 2 ^ (8 * ident_width (decide (200000 > 0xFFFFFFFF)))) ↔
          2 ^ ((partSteps 0 0 200000 true).length + 2) * block_count 200000 ≤
            2 ^ (8 * ident_width (decide (200000 > 0xFFFFFFFF)))) := by
  have hrange : part_range 0 200000 = .ok (0, 200000) := by decide
  exact ⟨hrange, part_identifiers_fit_iff hrange⟩

/-- The first part of the largest file whose identifiers are written in 16 bits lies nine steps below the root,
and its leaves another six below it. -/
theorem identifiers_exceed_16_bits :
    ¬ ∀ (part_index : Int) (file_size : Nat) (identifiers : List Nat), BLOCKSIZE < file_size →
      file_size ≤ 0xFFFFFFFF → part_identifiers part_index file_size = .ok identifiers →
        ∀ identifier ∈ identifiers, identifier ≤ 0xFFFF := by
  intro hall
  have hrange : part_range 0 0xFFFFFFFF = .ok (0, PARTSIZE) := by decide
  have hsteps : (partSteps 0 0 0xFFFFFFFF true).length = 9 := by
    simp [partSteps, split_left_size, PARTSIZE]
  have hfits := hall 0 0xFFFFFFFF _ (by decide) (le_refl _) (part_identifiers_eq (zeroHash 20) [] hrange)
  have hbound := (identifiers_lt_iff (zeroHash 20) [] hrange 16).mp
    fun identifier hmem => Nat.lt_succ_of_le (hfits identifier hmem)
  rw [hsteps, block_count_partSize] at hbound
  omega

end amuled.aich
