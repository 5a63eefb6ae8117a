import AmuleD.Codec.Struct
import AmuleD.Dict
import AmuleD.Hashes.Aich.Materialize
import AmuleD.Hashes.Aich.Path

open merkle littleendian

namespace amuled.aich

/-- The walk of `aich_part_recovery_data` from the root to the part node: the
sibling entries it collects, the part node, and the part's identifier. -/
def recovery_walk (part_start part_size : Nat) :
    AichNode → Nat → Except Exc (List (Nat × Bytes) × AichNode × Nat)
  | .leaf start size is_left digest, ident =>
    if start = part_start ∧ size = part_size then pure ([], .leaf start size is_left digest, ident)
    else throw (.AichError "AICH tree walk hit a leaf before the part node")
  | .inner start size is_left digest left right, ident =>
    if start = part_start ∧ size = part_size then
      pure ([], .inner start size is_left digest left right, ident)
    else if part_start < left.start + left.size then do
      let (entries, node, part_ident) ←
        recovery_walk part_start part_size left (ident <<< 1 ||| left.is_left.toNat)
      pure ((ident <<< 1 ||| right.is_left.toNat, right.digest) :: entries, node, part_ident)
    else do
      let (entries, node, part_ident) ←
        recovery_walk part_start part_size right (ident <<< 1 ||| right.is_left.toNat)
      pure ((ident <<< 1 ||| left.is_left.toNat, left.digest) :: entries, node, part_ident)

/-- The inner `_emit` of `aich_part_recovery_data`. -/
def emit : AichNode → Nat → List (Nat × Bytes)
  | .leaf _ _ is_left digest, leaf_ident => [(leaf_ident <<< 1 ||| is_left.toNat, digest)]
  | .inner _ _ is_left _ left right, leaf_ident =>
    emit left (leaf_ident <<< 1 ||| is_left.toNat) ++ emit right (leaf_ident <<< 1 ||| is_left.toNat)

/-- The width of an identifier on the wire. -/
def ident_width (use_32bit : Bool) : Nat := if use_32bit then 4 else 2

def pack_entries (use_32bit : Bool) : List (Nat × Bytes) → Except Exc Bytes
  | [] => pure []
  | (entry_ident, entry_hash) :: rest =>
    if use_32bit = false ∧ entry_ident > 0xFFFF then
      throw (.AichError s!"AICH identifier exceeds 16 bits: {hex entry_ident}")
    else do
      let packed ← struct_pack (ident_width use_32bit) entry_ident
      let out ← pack_entries use_32bit rest
      pure (packed ++ entry_hash ++ out)

/-- `CreatePartRecoveryData`: the recovery blob of one part. -/
def aich_part_recovery_data (sha1 : HashFn 20) (result : AichHashResult) (part_index : Int) :
    Except Exc Bytes :=
  if result.file_size ≤ BLOCKSIZE then
    throw (.AichError "file fits in one block; no AICH recovery data")
  else do
    let (part_start, part_size) ← part_range part_index result.file_size
    let root ← materialize_aich_tree sha1 result
    if root.digest ≠ result.master_hash then
      throw (.AichError "materialized tree master hash mismatch")
    else do
      let (siblings, node, ident) ← recovery_walk part_start part_size root root.is_left.toNat
      let entries := siblings ++ emit node ident
      let use_32bit := decide (result.file_size > 0xFFFFFFFF)
      let count ← struct_pack 2 entries.length
      let out ← pack_entries use_32bit entries
      pure (if use_32bit then encode 2 0 ++ count ++ out else count ++ out ++ encode 2 0)

/-- One of the two loops of `aich_parse_recovery_data`; `rest` is
`recovery[offset:]`. The hash is a slice, which may come out short. -/
def parse_entries (width : Nat) :
    Nat → Bytes → Dict Nat Bytes → Except Exc (Bytes × Dict Nat Bytes)
  | 0, rest, entries => pure (rest, entries)
  | count + 1, rest, entries => do
    let ident ← struct_unpack width (rest.take width)
    parse_entries width count (rest.drop (width + 20))
      (entries.set ident ((rest.drop width).take 20))

def aich_parse_recovery_data (recovery : Bytes) : Except Exc (Dict Nat Bytes) := do
  let count16 ← struct_unpack 2 (recovery.take 2)
  let (rest, entries) ← parse_entries 2 count16 (recovery.drop 2) .empty
  let count32 ← struct_unpack 2 (rest.take 2)
  let (_, entries) ← parse_entries 4 count32 (rest.drop 2) entries
  pure entries

section Blob

variable {use_32bit : Bool} {entries : List (Nat × Bytes)} {out : Bytes}

/-- What was packed is read back, entry for entry. -/
theorem parse_entries_pack_entries (hhash : ∀ entry ∈ entries, entry.2.length = 20)
    (hpack : pack_entries use_32bit entries = .ok out) (rest : Bytes)
    (table : Dict Nat Bytes) :
    parse_entries (ident_width use_32bit) entries.length (out ++ rest) table =
      .ok (rest, table.assign entries) := by
  induction entries generalizing out table with
  | nil =>
    obtain rfl := Except.ok.inj hpack
    rfl
  | cons entry tail ih =>
    obtain ⟨entry_ident, entry_hash⟩ := entry
    rw [pack_entries] at hpack
    split at hpack
    · cases hpack
    · rw [bind_eq_ok_iff] at hpack
      obtain ⟨packed, hpacked, hpack⟩ := hpack
      rw [bind_eq_ok_iff] at hpack
      obtain ⟨tailOut, htail, hout⟩ := hpack
      obtain rfl := Except.ok.inj hout
      obtain ⟨hfits, rfl⟩ := struct_pack_eq_ok_iff.mp hpacked
      have hlength : entry_hash.length = 20 := hhash _ List.mem_cons_self
      have hdrop : (encode (ident_width use_32bit) entry_ident ++
          (entry_hash ++ (tailOut ++ rest))).drop (ident_width use_32bit + 20) = tailOut ++ rest := by
        rw [← List.drop_drop, drop_encode_append, List.drop_left' hlength]
      rw [List.length_cons, parse_entries, List.append_assoc, List.append_assoc,
        struct_unpack_encode hfits, ok_bind, hdrop, drop_encode_append, List.take_left' hlength]
      exact ih (fun entry hentry => hhash entry (List.mem_cons_of_mem _ hentry)) htail _

theorem pack_entries_ok (hfits : ∀ entry ∈ entries, entry.1 < 256 ^ ident_width use_32bit) :
    ∃ out, pack_entries use_32bit entries = .ok out := by
  induction entries with
  | nil => exact ⟨[], rfl⟩
  | cons entry tail ih =>
    obtain ⟨entry_ident, entry_hash⟩ := entry
    have hentry : entry_ident < 256 ^ ident_width use_32bit := hfits _ List.mem_cons_self
    obtain ⟨tailOut, htail⟩ := ih (fun entry h => hfits entry (List.mem_cons_of_mem _ h))
    have hsmall : ¬ (use_32bit = false ∧ entry_ident > 0xFFFF) := by
      rintro ⟨rfl, hbig⟩
      simp only [ident_width, Bool.false_eq_true, if_false] at hentry
      omega
    refine ⟨encode (ident_width use_32bit) entry_ident ++ entry_hash ++ tailOut, ?_⟩
    rw [pack_entries, if_neg hsmall, struct_pack_eq_ok_iff.mpr ⟨hentry, rfl⟩, ok_bind, htail, ok_bind]
    rfl

theorem length_pack_entries (hhash : ∀ entry ∈ entries, entry.2.length = 20)
    (hpack : pack_entries use_32bit entries = .ok out) :
    out.length = entries.length * (ident_width use_32bit + 20) := by
  induction entries generalizing out with
  | nil =>
    obtain rfl := Except.ok.inj hpack
    exact (Nat.zero_mul _).symm
  | cons entry tail ih =>
    obtain ⟨entry_ident, entry_hash⟩ := entry
    rw [pack_entries] at hpack
    split at hpack
    · cases hpack
    · obtain ⟨packed, hpacked, hpack⟩ := bind_eq_ok_iff.mp hpack
      obtain ⟨tailOut, htail, hout⟩ := bind_eq_ok_iff.mp hpack
      obtain rfl := Except.ok.inj hout
      obtain ⟨-, rfl⟩ := struct_pack_eq_ok_iff.mp hpacked
      have hrest := ih (fun entry hentry => hhash entry (List.mem_cons_of_mem _ hentry)) htail
      have hlength : entry_hash.length = 20 := hhash _ List.mem_cons_self
      rw [List.length_append, List.length_append, length_encode, hlength, hrest, List.length_cons,
        Nat.succ_mul, Nat.add_comm]

/-- The blob of the 16-bit layout parses to the dictionary of its entries. -/
theorem aich_parse_recovery_data_small (hhash : ∀ entry ∈ entries, entry.2.length = 20)
    {count : Bytes} (hcount : struct_pack 2 entries.length = .ok count)
    (hpack : pack_entries false entries = .ok out) :
    aich_parse_recovery_data (count ++ out ++ encode 2 0) = .ok (Dict.ofList entries) := by
  obtain ⟨hfits, rfl⟩ := struct_pack_eq_ok_iff.mp hcount
  have hentries := parse_entries_pack_entries hhash hpack (encode 2 0) .empty
  have hzero := struct_unpack_encode (show 0 < 256 ^ 2 by decide) []
  rw [List.append_nil] at hzero
  rw [aich_parse_recovery_data, List.append_assoc, struct_unpack_encode hfits, ok_bind,
    drop_encode_append]
  simp only [ident_width, Bool.false_eq_true, if_false] at hentries
  rw [hentries, ok_bind]
  simp only
  rw [hzero, ok_bind]
  rfl

end Blob

section Entries

variable (sha1 : HashFn 20) (data : Bytes)

/-- The siblings along a descent below `path`, each with its own path and the
root of its tree. -/
def siblingEntries (path : List Bool) : List Step → List (List Bool × Bytes)
  | [] => []
  | step :: rest =>
    (path ++ [!step.go_left],
      (digestTree sha1 data step.sibling.start step.sibling.size (!step.go_left)).root sha1) ::
      siblingEntries (path ++ [step.go_left]) rest

/-- The leaves below a node at `path`. On the wire the node's own side is
appended once more before the path inside it. -/
def leafEntries (path : List Bool) (side : Bool) (digests : merkle.Tree Bytes) : List (List Bool × Bytes) :=
  (digests.leafPaths.zip digests.leaves).map fun leaf => (path ++ side :: leaf.1, leaf.2)

def identEntry (entry : List Bool × Bytes) : Nat × Bytes := (ident entry.1, entry.2)

theorem recovery_walk_here (node : AichNode) (ident : Nat) :
    recovery_walk node.start node.size node ident = .ok ([], node, ident) := by
  cases node <;> simp [recovery_walk, AichNode.start, AichNode.size]

/-- On the file's own tree the builder's walk follows the descent to the part
and collects the roots of the siblings. -/
theorem recovery_walk_spec {file_size part_start start size : Nat} (is_left : Bool)
    (hpath : OnPath file_size part_start start size) (path : List Bool) :
    recovery_walk part_start (min PARTSIZE (file_size - part_start))
        (nodeOf sha1 (digestTree sha1 data start size is_left) start size is_left) (ident path) =
      .ok ((siblingEntries sha1 data path (partSteps part_start start size is_left)).map identEntry,
        nodeOf sha1 (digestTree sha1 data part_start (min PARTSIZE (file_size - part_start))
            (partSide (partSteps part_start start size is_left) is_left))
          part_start (min PARTSIZE (file_size - part_start))
          (partSide (partSteps part_start start size is_left) is_left),
        ident (path ++ (partSteps part_start start size is_left).map Step.go_left)) := by
  induction start, size, is_left using partSteps.induct part_start generalizing path with
  | case1 start size is_left hsmall =>
    obtain ⟨rfl, hsize⟩ := hpath.eq_part hsmall
    rw [← hsize, partSteps_of_le hsmall]
    simpa [siblingEntries, partSide] using recovery_walk_here
      (nodeOf sha1 (digestTree sha1 data start size is_left) start size is_left) (ident path)
  | case2 start size is_left hlarge hgo ih =>
    have hblock : BLOCKSIZE < size := by
      simp only [PARTSIZE, BLOCKSIZE] at *
      omega
    rw [digestTree_of_gt sha1 data hblock, nodeOf, recovery_walk, if_neg (OnPath.ne_part (by omega)),
      partSteps_left hlarge hgo]
    simp only [start_nodeOf, size_nodeOf, is_left_nodeOf, digest_nodeOf]
    rw [if_pos hgo, ← ident_concat, ih (hpath.left (by omega) hgo), ok_bind]
    simp [siblingEntries, identEntry, partSide, ident_concat]
  | case3 start size is_left hlarge hgo ih =>
    have hblock : BLOCKSIZE < size := by
      simp only [PARTSIZE, BLOCKSIZE] at *
      omega
    rw [digestTree_of_gt sha1 data hblock, nodeOf, recovery_walk, if_neg (OnPath.ne_part (by omega)),
      partSteps_right hlarge hgo]
    simp only [start_nodeOf, size_nodeOf, is_left_nodeOf, digest_nodeOf]
    rw [if_neg hgo, ← ident_concat, ih (hpath.right (by omega) hgo), ok_bind]
    simp [siblingEntries, identEntry, partSide, ident_concat]

theorem emit_nodeOf (digests : merkle.Tree Bytes) (start size : Nat) (side : Bool) (path : List Bool) :
    emit (nodeOf sha1 digests start size side) (ident path) =
      (leafEntries path side digests).map identEntry := by
  induction digests generalizing start size side path with
  | leaf value => simp [nodeOf, emit, leafEntries, merkle.Tree.leafPaths, merkle.Tree.leaves, identEntry, ident_concat]
  | node left right ihl ihr =>
    have hzip : (left.node right).leafPaths.zip (left.node right).leaves =
        (left.leafPaths.map (true :: ·)).zip left.leaves ++
          (right.leafPaths.map (false :: ·)).zip right.leaves :=
      List.zip_append (by simp)
    rw [nodeOf, emit, ← ident_concat, ihl, ihr]
    simp only [leafEntries, hzip, List.map_append, List.zip_map_left, List.map_map]
    simp [Function.comp_def, identEntry]

end Entries

end amuled.aich
