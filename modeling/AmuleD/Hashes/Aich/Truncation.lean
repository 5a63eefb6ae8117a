import AmuleD.Hashes.Aich.Soundness
import AmuleD.Hashes.Aich.Agreement

open merkle littleendian

namespace amuled.aich

/-- The only exception is `AichError`, the one that the salvage of corrupt parts catches. -/
def OnlyAichError {α : Type} (outcome : Except Exc α) : Prop :=
  ∀ exc, outcome = .error exc → ∃ message, exc = .AichError message

section OnlyAichError

variable {α β : Type}

theorem onlyAichError_ok (value : α) : OnlyAichError (.ok value) := by
  intro exc herror
  cases herror

theorem onlyAichError_throw (message : String) : OnlyAichError (.error (.AichError message) : Except Exc α) := by
  intro exc herror
  cases herror
  exact ⟨message, rfl⟩

theorem OnlyAichError.bind {outcome : Except Exc α} {rest : α → Except Exc β} (h : OnlyAichError outcome)
    (hrest : ∀ value, outcome = .ok value → OnlyAichError (rest value)) :
    OnlyAichError (outcome >>= rest) := by
  cases outcome with
  | error exc =>
    obtain ⟨message, rfl⟩ := h exc rfl
    exact onlyAichError_throw message
  | ok value => exact hrest value rfl

end OnlyAichError

section Parsing

variable {width count : Nat} {rest : Bytes}

/-- The identifiers of a section are unpacked; of its hashes only slices are taken. -/
def SectionFits (width count : Nat) (rest : Bytes) : Prop :=
  count = 0 ∨ (count - 1) * (width + 20) + width ≤ rest.length

theorem parse_entries_of_fits (hfits : SectionFits width count rest) (entries : Dict Nat Bytes) :
    ∃ entries', parse_entries width count rest entries = .ok (rest.drop (count * (width + 20)), entries') := by
  induction count generalizing rest entries with
  | zero => exact ⟨entries, by rw [Nat.zero_mul, List.drop_zero]; rfl⟩
  | succ count ih =>
    have hlength := hfits.resolve_left (Nat.succ_ne_zero count)
    rw [Nat.add_sub_cancel] at hlength
    have hident := struct_unpack_slice rest 0 width (by omega)
    rw [List.drop_zero] at hident
    have hlater : SectionFits width count (rest.drop (width + 20)) := by
      obtain hzero | hmore := Nat.eq_zero_or_pos count
      · exact .inl hzero
      · right
        have hsplit : count * (width + 20) = (count - 1) * (width + 20) + (width + 20) := by
          rw [← Nat.succ_mul, Nat.succ_eq_add_one, Nat.sub_add_cancel hmore]
        rw [List.length_drop]
        omega
    obtain ⟨entries', hparse⟩ := ih hlater
      (entries.set (decode (rest.take width)) ((rest.drop width).take 20))
    refine ⟨entries', ?_⟩
    rw [parse_entries, hident, ok_bind, hparse, List.drop_drop, Nat.succ_mul, Nat.add_comm]

theorem parse_entries_of_not_fits (hwidth : 0 < width) (hcut : ¬ SectionFits width count rest)
    (entries : Dict Nat Bytes) : parse_entries width count rest entries = .error .StructError := by
  rw [SectionFits, not_or, not_le] at hcut
  induction count generalizing rest entries with
  | zero => exact absurd rfl hcut.1
  | succ count ih =>
    obtain ⟨_, hlength⟩ := hcut
    rw [Nat.add_sub_cancel] at hlength
    rw [parse_entries]
    by_cases hshort : rest.length < width
    · have hident := struct_unpack_slice_short rest 0 width (by omega) hwidth
      rw [List.drop_zero] at hident
      rw [hident, error_bind]
    · have hident := struct_unpack_slice rest 0 width (by omega)
      rw [List.drop_zero] at hident
      rw [hident, ok_bind]
      have hmore : 0 < count := by
        apply Nat.pos_of_ne_zero
        rintro rfl
        omega
      have hsplit : count * (width + 20) = (count - 1) * (width + 20) + (width + 20) := by
        rw [← Nat.succ_mul, Nat.succ_eq_add_one, Nat.sub_add_cancel hmore]
      have hlater : (rest.drop (width + 20)).length < (count - 1) * (width + 20) + width := by
        rw [List.length_drop]
        omega
      exact ih ⟨by omega, hlater⟩ _

/-- The two counts of a blob and the identifiers of both sections lie inside it. -/
def Framed (recovery : Bytes) : Prop :=
  let behind := 2 + 22 * decode (recovery.take 2)
  behind + 2 ≤ recovery.length ∧
    SectionFits 4 (decode ((recovery.drop behind).take 2)) (recovery.drop (behind + 2))

theorem aich_parse_recovery_data_of_framed {recovery : Bytes} (hframed : Framed recovery) :
    ∃ entries, aich_parse_recovery_data recovery = .ok entries := by
  obtain ⟨hbehind, hfits⟩ := hframed
  have hcount := struct_unpack_slice recovery 0 2 (by omega)
  rw [List.drop_zero] at hcount
  have hfits16 : SectionFits 2 (decode (recovery.take 2)) (recovery.drop 2) := by
    right
    rw [List.length_drop]
    omega
  obtain ⟨entries, hparse⟩ := parse_entries_of_fits hfits16 .empty
  rw [List.drop_drop, Nat.mul_comm] at hparse
  have hcount32 := struct_unpack_slice recovery (2 + 22 * decode (recovery.take 2)) 2 hbehind
  obtain ⟨entries', hparse32⟩ := parse_entries_of_fits hfits entries
  refine ⟨entries', ?_⟩
  rw [aich_parse_recovery_data, hcount, ok_bind, hparse, ok_bind]
  simp only [hcount32, ok_bind, List.drop_drop, hparse32]
  rfl

theorem aich_parse_recovery_data_of_not_framed {recovery : Bytes} (hcut : ¬ Framed recovery) :
    aich_parse_recovery_data recovery = .error .StructError := by
  rw [aich_parse_recovery_data]
  by_cases hempty : recovery.length < 2
  · have hcount := struct_unpack_slice_short recovery 0 2 (by omega)
      (by decide)
    rw [List.drop_zero] at hcount
    rw [hcount, error_bind]
  have hcount := struct_unpack_slice recovery 0 2 (by omega)
  rw [List.drop_zero] at hcount
  rw [hcount, ok_bind]
  by_cases hfits : SectionFits 2 (decode (recovery.take 2)) (recovery.drop 2)
  · obtain ⟨entries, hparse⟩ := parse_entries_of_fits hfits .empty
    rw [List.drop_drop, Nat.mul_comm] at hparse
    rw [hparse, ok_bind]
    simp only
    by_cases hbehind : 2 + 22 * decode (recovery.take 2) + 2 ≤ recovery.length
    · rw [struct_unpack_slice _ _ _ hbehind, ok_bind, List.drop_drop,
        parse_entries_of_not_fits (by decide) fun hsecond => hcut ⟨hbehind, hsecond⟩, error_bind]
    · rw [struct_unpack_slice_short _ _ _ (by omega) (by decide), error_bind]
  · rw [parse_entries_of_not_fits (by decide) hfits, error_bind]

end Parsing

section Stages

variable (sha1 : HashFn 20) {entries : Dict Nat Bytes}

theorem onlyAichError_part_range (part_index : Int) (file_size : Nat) :
    OnlyAichError (part_range part_index file_size) := fun _ => part_range_error

theorem onlyAichError_collect_blocks (leaf_idents : List Nat) :
    OnlyAichError (collect_blocks entries leaf_idents) := by
  induction leaf_idents with
  | nil => exact onlyAichError_ok []
  | cons leaf_ident rest ih =>
    rw [collect_blocks]
    split
    · exact onlyAichError_throw _
    · exact ih.bind fun blocks _ => onlyAichError_ok _

theorem onlyAichError_combine (part_hash : Bytes) (chain : List (Bool × Nat)) :
    OnlyAichError (combine sha1 entries part_hash chain) := by
  induction chain with
  | nil => exact onlyAichError_ok part_hash
  | cons link rest ih =>
    obtain ⟨side, sibling_ident⟩ := link
    rw [combine]
    refine ih.bind fun combined _ => ?_
    split
    · exact onlyAichError_throw _
    · exact onlyAichError_ok _

/-- Where the counts agree, a leaf list that is long enough is enough. -/
theorem build_tree_of_enough {start size : Nat} {is_left : Bool} (hagree : CountsAgree start size is_left)
    {leaves : List Bytes} (henough : (splitTree start size is_left).leaves.length ≤ leaves.length) :
    ∃ node, build_tree sha1 leaves start size is_left = .ok node := by
  induction hagree generalizing leaves with
  | @leaf start size is_left hsmall =>
    rw [splitTree_of_le hsmall] at henough
    cases leaves with
    | nil => simp [merkle.Tree.leaves] at henough
    | cons first rest =>
      rw [build_tree.eq_def, if_pos hsmall]
      exact ⟨_, rfl⟩
  | @node start size is_left hlarge hcount _ _ ihl ihr =>
    have hbounds := split_left_size_bounds hlarge is_left
    rw [leaves_splitTree_of_gt hlarge, List.length_append] at henough
    obtain ⟨left, hleft⟩ := @ihl (leaves.take (block_count (split_left_size size is_left)))
      (by rw [List.length_take]; omega)
    obtain ⟨right, hright⟩ := @ihr (leaves.drop (block_count (split_left_size size is_left)))
      (by rw [List.length_drop]; omega)
    rw [build_tree.eq_def, if_neg (by omega)]
    simp only
    rw [if_neg (by omega), hleft, ok_bind, hright, ok_bind]
    exact ⟨_, rfl⟩

theorem build_tree_of_blocks {start size : Nat} (is_left : Bool) (hpos : 0 < size) (hsmall : size ≤ PARTSIZE)
    {leaves : List Bytes} (henough : block_count size ≤ leaves.length) :
    ∃ node, build_tree sha1 leaves start size is_left = .ok node := by
  apply build_tree_of_enough sha1 (countsAgree_of_le_part hpos hsmall start is_left)
  rw [leaves_splitTree_of_le hpos hsmall, length_blocks]
  exact henough

section Resolve

variable {part_start part_size : Nat} {block_hashes : List Bytes}

/-- A segment inside the part finds as many block hashes as it has blocks. -/
theorem build_tree_inside (hpart : part_size ≤ PARTSIZE) (hblocks : block_hashes.length = block_count part_size)
    {start size : Nat} (is_left : Bool) (hpos : 0 < size) (hstart : part_start ≤ start)
    (hstop : start + size ≤ part_start + part_size) :
    ∃ node, build_tree sha1 (block_hashes.extract ((start - part_start) / BLOCKSIZE)
      ((start - part_start + size + BLOCKSIZE - 1) / BLOCKSIZE)) start size is_left = .ok node := by
  have hbound : (start - part_start + size + BLOCKSIZE - 1) / BLOCKSIZE ≤ block_hashes.length := by
    rw [hblocks, block_count]
    exact Nat.div_le_div_right (by omega)
  apply build_tree_of_blocks sha1 is_left hpos (by omega)
  rw [length_extract_of_le hbound]
  simp only [block_count, BLOCKSIZE]
  omega

/-- Inside the part the blocks of a segment are there; beside it nothing is built. -/
theorem resolve_ok (hpart : part_size ≤ PARTSIZE) (hblocks : block_hashes.length = block_count part_size)
    {start size : Nat} (is_left : Bool) (ident : Nat) (hpos : 0 < size) :
    ∃ found, resolve sha1 entries part_start part_size block_hashes start size is_left ident = .ok found := by
  induction start, size, is_left using splitTree.induct generalizing ident with
  | case1 start size is_left hblock =>
    rw [resolve]
    simp only
    split
    · exact ⟨_, rfl⟩
    · split
      · rename_i hinside
        obtain ⟨node, hnode⟩ := build_tree_inside sha1 hpart hblocks is_left hpos hinside.1 hinside.2
        rw [hnode, ok_bind]
        exact ⟨_, rfl⟩
      · split
        · exact ⟨_, rfl⟩
        · exact ⟨none, rfl⟩
  | case2 start size is_left hblock ihl ihr =>
    have hbounds := split_left_size_bounds (Nat.lt_of_not_le hblock) is_left
    obtain ⟨left, hleft⟩ := ihl (ident <<< 1 ||| is_left.toNat) hbounds.1
    obtain ⟨right, hright⟩ := ihr (ident <<< 1 ||| is_left.toNat) (by omega)
    rw [resolve]
    simp only
    split
    · exact ⟨_, rfl⟩
    · split
      · rename_i hinside
        obtain ⟨node, hnode⟩ := build_tree_inside sha1 hpart hblocks is_left hpos hinside.1 hinside.2
        rw [hnode, ok_bind]
        exact ⟨_, rfl⟩
      · split
        · exact ⟨_, rfl⟩
        · rw [hleft, ok_bind, hright, ok_bind]
          cases left with
          | none => exact ⟨none, rfl⟩
          | some left =>
            cases right with
            | none => exact ⟨none, rfl⟩
            | some right => exact ⟨_, rfl⟩

end Resolve

end Stages

section Consumers

variable (sha1 : HashFn 20) {recovery : Bytes} {part_index : Int} {file_size : Nat}

/-- A framed blob makes no stage of the authentication raise anything but `AichError`. -/
theorem onlyAichError_verified (hframed : Framed recovery) (expected_master : Bytes) :
    OnlyAichError (aich_verified_part_blocks sha1 recovery part_index file_size expected_master) := by
  cases hrange : part_range part_index file_size with
  | error exc =>
    rw [aich_verified_part_blocks, aich_part_path_ident, hrange, error_bind, error_bind]
    obtain ⟨message, rfl⟩ := part_range_error hrange
    exact onlyAichError_throw message
  | ok range =>
    obtain ⟨part_start, part_size⟩ := range
    obtain ⟨hstart, haligned, hinside, hsize⟩ := part_range_eq_ok hrange
    have hpos : 0 < part_size := by
      simp only [PARTSIZE] at *
      omega
    have hsmall : part_size ≤ PARTSIZE := by omega
    have htoNat : (part_index * (PARTSIZE : Int)).toNat = part_start := by
      rw [← hstart, Int.toNat_natCast]
    obtain ⟨entries, hparse⟩ := aich_parse_recovery_data_of_framed hframed
    have hidents := subtree_emit_spec hpos hsmall part_start
      (partSide (partSteps part_start 0 file_size true) true)
      ((partSteps part_start 0 file_size true).map Step.go_left)
    have hchain := sibling_chain_spec true (OnPath.root haligned hinside) [] (by simp)
    rw [ident_nil, ← hsize] at hchain
    rw [aich_verified_part_blocks, aich_part_path_ident_spec hrange, ok_bind]
    simp only
    rw [hparse, ok_bind, aich_subtree_leaf_idents, hidents, ok_bind]
    refine (onlyAichError_collect_blocks _).bind fun part_blocks hcollect => ?_
    have hlength := (collect_blocks_ok hcollect).1
    rw [List.length_map, merkle.Tree.length_leafPaths, leaves_splitTree_of_le hpos hsmall, length_blocks] at hlength
    simp only [htoNat]
    obtain ⟨part_node, hnode⟩ : ∃ node, build_tree sha1 part_blocks part_start part_size
        (partSide (partSteps part_start 0 file_size true) true) = .ok node :=
      build_tree_of_blocks sha1 _ hpos hsmall (Nat.le_of_eq hlength.symm)
    rw [hnode, ok_bind, hchain, ok_bind]
    refine (onlyAichError_combine sha1 _ _).bind fun combined _ => ?_
    split
    · exact onlyAichError_throw _
    · exact onlyAichError_ok _

theorem onlyAichError_rebuild (hframed : Framed recovery) (part_data : Bytes) :
    OnlyAichError (aich_rebuild_master_from_part sha1 part_data part_index recovery file_size) := by
  rw [aich_rebuild_master_from_part]
  refine (onlyAichError_part_range part_index file_size).bind fun range hrange => ?_
  obtain ⟨part_start, part_size⟩ := range
  obtain ⟨_, haligned, hinside, hsize⟩ := part_range_eq_ok hrange
  simp only
  split
  · exact onlyAichError_throw _
  · rename_i hgot
    have hlength : part_data.length = part_size := not_not.mp hgot
    have hpos : 0 < part_size := by
      simp only [PARTSIZE] at *
      omega
    have hsmall : part_size ≤ PARTSIZE := by omega
    obtain ⟨entries, hparse⟩ := aich_parse_recovery_data_of_framed hframed
    obtain ⟨part_result, hresult, _, _, hblocks⟩ := aich_hash_data_spec sha1
      (show 0 < part_data.length by omega)
    have hcount : part_result.block_hashes.length = block_count part_size := by
      rw [hblocks, digestTree, merkle.Tree.leaves_map, List.length_map, hlength,
        leaves_splitTree_of_le hpos hsmall, length_blocks]
    obtain ⟨found, hfound⟩ : ∃ found, resolve sha1 entries part_start part_size part_result.block_hashes 0 file_size
        true 0 = .ok found := resolve_ok sha1 hsmall hcount true 0 (by omega)
    rw [hparse, ok_bind, hresult, ok_bind, hfound, ok_bind]
    cases found with
    | none => exact onlyAichError_throw _
    | some master => exact onlyAichError_ok master

/-- The parser raises before anything is authenticated. -/
theorem aich_verified_part_blocks_of_not_framed {part file_size : Nat} (hpart : part * PARTSIZE < file_size)
    (hcut : ¬ Framed recovery) (expected_master : Bytes) :
    aich_verified_part_blocks sha1 recovery part file_size expected_master = .error .StructError := by
  rw [aich_verified_part_blocks, aich_part_path_ident_spec (part_range_natCast hpart), ok_bind]
  simp only
  rw [aich_parse_recovery_data_of_not_framed hcut, error_bind]

/-- Exactly the framed blobs leave the salvage of a corrupt part with `AichError` as the
only exception to expect. -/
theorem aich_consumers_only_aich_error_iff {part file_size : Nat} (hpart : part * PARTSIZE < file_size) :
    ((∀ expected_master, OnlyAichError
          (aich_verified_part_blocks sha1 recovery part file_size expected_master)) ∧
        ∀ part_data, OnlyAichError
          (aich_rebuild_master_from_part sha1 part_data part recovery file_size)) ↔ Framed recovery := by
  constructor
  · rintro ⟨hverified, _⟩
    by_contra hcut
    have hraised := aich_verified_part_blocks_of_not_framed sha1 hpart hcut []
    obtain ⟨message, hmessage⟩ := hverified [] _ hraised
    cases hmessage
  · intro hframed
    exact ⟨onlyAichError_verified sha1 hframed, onlyAichError_rebuild sha1 hframed⟩

/-- A blob with two empty sections. -/
theorem aich_consumers_only_aich_error_empty_sections :
    (∀ expected_master, OnlyAichError
        (aich_verified_part_blocks (zeroHash 20) [0, 0, 0, 0] (0 : Nat) 1 expected_master)) ∧
      ∀ part_data, OnlyAichError
        (aich_rebuild_master_from_part (zeroHash 20) part_data (0 : Nat) [0, 0, 0, 0] 1) := by
  have hframed : Framed [0, 0, 0, 0] := ⟨by decide, .inl rfl⟩
  exact (aich_consumers_only_aich_error_iff (zeroHash 20) (by decide)).mpr hframed

/-- An empty blob. -/
theorem aich_consumers_struct_error :
    ¬ ∀ (sha1 : HashFn 20) (recovery : Bytes) (part file_size : Nat), part * PARTSIZE < file_size →
      (∀ expected_master, OnlyAichError
          (aich_verified_part_blocks sha1 recovery part file_size expected_master)) ∧
        ∀ part_data, OnlyAichError
          (aich_rebuild_master_from_part sha1 part_data part recovery file_size) := by
  intro hall
  have hcut : ¬ Framed [] := by
    rintro ⟨hbehind, _⟩
    exact absurd hbehind (by decide)
  have hraised : aich_verified_part_blocks (zeroHash 20) [] (0 : Nat) 1 [] = .error .StructError :=
    aich_verified_part_blocks_of_not_framed (zeroHash 20) (by decide) hcut []
  obtain ⟨message, hmessage⟩ := (hall (zeroHash 20) [] 0 1 (by decide)).1 [] _ hraised
  cases hmessage

end Consumers

end amuled.aich
