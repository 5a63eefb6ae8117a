import AmuleD.Peer.Hashset
import AmuleD.Upload.BlockSource
import Mathlib.Data.List.GetD
import Mathlib.Data.Set.Function

open chunking littleendian

namespace amuled.download

open ed2k peer

/-- The hashes the runner takes out of a parsed answer: the list without its
first element, or for one part the only element. -/
def expected_hashes (parts : Nat) (hashset : HashSetAnswer) : List Bytes :=
  let expected := hashset.chunk_hashes.drop 1
  if expected = [] ∧ parts = 1 ∧ hashset.chunk_hashes ≠ [] then [hashset.chunk_hashes.headD []]
  else expected

/-- The number of parts the runner checks. -/
def part_count (size : Nat) : Nat := (size + PARTSIZE - 1) / PARTSIZE

/-- `_verify_parts_against_hashset`; `part_file` is the file of the queue's entry,
if there is one. The argument `file_hash_bytes` of the source is not used there
either. -/
def verify_parts_against_hashset (md4 : HashFn 16) (part_file : Option Bytes) (size : Nat)
    (hashset : HashSetAnswer) : List (Nat × Nat) :=
  let parts := part_count size
  let expected := expected_hashes parts hashset
  if expected.length ≠ parts then []
  else
    match part_file with
    | none => []
    | some handle =>
      (List.range parts).filterMap fun index =>
        let start := index * PARTSIZE
        let data := handle.extract start (start + min PARTSIZE (size - start))
        if md4 data ≠ expected.getD index [] then some (start, start + data.length) else none

/-- The bytes of one part. -/
def partBytes (data : Bytes) (index : Nat) : Bytes :=
  data.extract (index * PARTSIZE) (min ((index + 1) * PARTSIZE) data.length)

section Parts

variable {truth image : Bytes}

theorem start_lt_of_lt_part_count {size index : Nat} (hindex : index < part_count size) :
    index * PARTSIZE < size := by
  simp only [part_count, PARTSIZE] at *
  omega

/-- The runner reads the whole part. -/
theorem read_part (hsize : image.length = truth.length) {index : Nat}
    (hindex : index < part_count truth.length) :
    image.extract (index * PARTSIZE)
        (index * PARTSIZE + min PARTSIZE (truth.length - index * PARTSIZE)) = partBytes image index := by
  have hstart := start_lt_of_lt_part_count hindex
  rw [partBytes, hsize]
  congr 1
  rw [Nat.succ_mul]
  omega

theorem length_partBytes (data : Bytes) (index : Nat) :
    (partBytes data index).length = min ((index + 1) * PARTSIZE) data.length - index * PARTSIZE :=
  length_extract_of_le (Nat.min_le_right _ _)

theorem mem_verify_parts_iff (md4 : HashFn 16) (hsize : image.length = truth.length)
    (hashset : HashSetAnswer) (range : Nat × Nat) :
    range ∈ verify_parts_against_hashset md4 (some image) truth.length hashset ↔
      (expected_hashes (part_count truth.length) hashset).length = part_count truth.length ∧
        ∃ index < part_count truth.length,
          md4 (partBytes image index) ≠
              (expected_hashes (part_count truth.length) hashset).getD index [] ∧
            range = (index * PARTSIZE, min ((index + 1) * PARTSIZE) truth.length) := by
  have hend : ∀ index, index < part_count truth.length →
      index * PARTSIZE + (partBytes image index).length =
        min ((index + 1) * PARTSIZE) truth.length := by
    intro index hindex
    have hstart := start_lt_of_lt_part_count hindex
    rw [length_partBytes, hsize, Nat.succ_mul]
    omega
  rw [verify_parts_against_hashset]
  simp only
  by_cases hcount : (expected_hashes (part_count truth.length) hashset).length = part_count truth.length
  · rw [if_neg (not_not_intro hcount), List.mem_filterMap]
    simp only [hcount, true_and]
    constructor
    · rintro ⟨index, hindex, hrange⟩
      rw [List.mem_range] at hindex
      rw [read_part hsize hindex, hend index hindex] at hrange
      split at hrange
      · rename_i hdiffers
        exact ⟨index, hindex, hdiffers, (Option.some.inj hrange).symm⟩
      · cases hrange
    · rintro ⟨index, hindex, hdiffers, rfl⟩
      refine ⟨index, List.mem_range.mpr hindex, ?_⟩
      rw [read_part hsize hindex, hend index hindex, if_pos hdiffers]
  · rw [if_pos hcount]
    simp [hcount]

end Parts

section OwnAnswer

open upload

/-- The ranges of the parts of an image whose MD4 is not the true part's. -/
def corruptParts (md4 : HashFn 16) (truth image : Bytes) : List (Nat × Nat) :=
  (List.range (part_count truth.length)).filterMap fun index =>
    if md4 (partBytes image index) ≠ md4 (partBytes truth index) then
      some (index * PARTSIZE, min ((index + 1) * PARTSIZE) truth.length)
    else none

theorem length_chunks (data : Bytes) : (chunks PARTSIZE data).length = part_count data.length := by
  rw [chunks, List.length_map, List.length_range, part_count]

theorem getElem_chunks (data : Bytes) {index : Nat} (hindex : index < (chunks PARTSIZE data).length) :
    (chunks PARTSIZE data)[index] = partBytes data index := by
  simp only [chunks, List.getElem_map, List.getElem_range, partBytes]

theorem corruptParts_eq_nil_iff (md4 : HashFn 16) (truth image : Bytes) :
    corruptParts md4 truth image = [] ↔
      ∀ index < part_count truth.length, md4 (partBytes image index) = md4 (partBytes truth index) := by
  rw [corruptParts, List.filterMap_eq_nil_iff]
  constructor
  · intro hnone index hindex
    have hpart := hnone index (List.mem_range.mpr hindex)
    by_contra hdiffers
    rw [if_pos hdiffers] at hpart
    cases hpart
  · intro hsame index hindex
    rw [if_neg (not_not_intro (hsame index (List.mem_range.mp hindex)))]

/-- Given the true part hashes, the check finds exactly the corrupt parts. -/
theorem verify_parts_of_expected (md4 : HashFn 16) {truth image : Bytes}
    (hsize : image.length = truth.length) {hashset : HashSetAnswer}
    (hexpected : expected_hashes (part_count truth.length) hashset =
      (chunks PARTSIZE truth).map md4) :
    verify_parts_against_hashset md4 (some image) truth.length hashset = corruptParts md4 truth image := by
  have hcount : ((chunks PARTSIZE truth).map md4).length = part_count truth.length := by
    rw [List.length_map, length_chunks]
  rw [verify_parts_against_hashset]
  simp only [hexpected]
  rw [if_neg (not_not_intro hcount), corruptParts]
  apply List.filterMap_congr
  intro index hindex
  rw [List.mem_range] at hindex
  have hstart := start_lt_of_lt_part_count hindex
  have hlisted : ((chunks PARTSIZE truth).map md4).getD index [] = md4 (partBytes truth index) := by
    rw [List.getD_eq_getElem _ _ (by omega), List.getElem_map, getElem_chunks]
  have hend : index * PARTSIZE + (partBytes image index).length =
      min ((index + 1) * PARTSIZE) truth.length := by
    rw [length_partBytes, hsize, Nat.succ_mul]
    omega
  rw [read_part hsize hindex, hlisted, hend]

variable (md4 : Md4) {truth image payload : Bytes} {shared_file : SharedFile}

/-- The uploader's own answer parses to the part hashes without the file hash. -/
theorem parse_own_answer (hshared : shared_file.Describes md4 truth) (hpos : 0 < truth.length)
    (hbuild : build_hashset_answer_payload shared_file.file_hash (shared_file.chunk_hashes md4) =
      .ok payload) :
    parse_hashset_answer payload =
      .ok ⟨shared_file.file_hash, (chunks PARTSIZE truth).map md4.hash⟩ := by
  rw [hshared.chunk_hashes_eq hpos] at hbuild
  refine parse_hashset_answer_build hshared.length_file_hash ?_ hbuild
  intro hash hhash
  obtain ⟨chunk, _, rfl⟩ := List.mem_map.mp hhash
  exact md4.hash.length_apply chunk

/-- With one part the only hash of the list is compared. -/
theorem verify_own_answer_one_part (hsize : image.length = truth.length) (hpos : 0 < truth.length)
    (hone : truth.length ≤ PARTSIZE) (file_hash : Bytes) :
    verify_parts_against_hashset md4.hash (some image) truth.length
        ⟨file_hash, (chunks PARTSIZE truth).map md4.hash⟩ =
      corruptParts md4.hash truth image := by
  apply verify_parts_of_expected _ hsize
  have hcount : part_count truth.length = 1 := by
    simp only [part_count, PARTSIZE] at *
    omega
  have hchunks : (chunks PARTSIZE truth).length = 1 := by
    rw [length_chunks, hcount]
  obtain ⟨chunk, hchunk⟩ := List.length_eq_one_iff.mp hchunks
  simp [expected_hashes, hcount, hchunk]

/-- With more parts a hash is missing, and nothing is compared. -/
theorem verify_own_answer_many_parts (hmany : PARTSIZE < truth.length) (file_hash : Bytes) :
    verify_parts_against_hashset md4.hash (some image) truth.length
        ⟨file_hash, (chunks PARTSIZE truth).map md4.hash⟩ = [] := by
  have hcount : 2 ≤ part_count truth.length := by
    simp only [part_count, PARTSIZE] at *
    omega
  have hshort : (expected_hashes (part_count truth.length)
      ⟨file_hash, (chunks PARTSIZE truth).map md4.hash⟩).length ≠ part_count truth.length := by
    rw [expected_hashes]
    simp only
    rw [if_neg (by omega), List.length_drop, List.length_map, length_chunks]
    omega
  rw [verify_parts_against_hashset]
  simp only
  rw [if_pos hshort]

/-- The uploader's own hashset answer finds exactly the corrupt parts if and
only if the file has one part, or there is nothing to find. The parser already
takes the file hash off the list; the check drops another element as if it were
still there. -/
theorem verify_own_answer_iff (hshared : shared_file.Describes md4 truth) (hpos : 0 < truth.length)
    (hsize : image.length = truth.length)
    (hbuild : build_hashset_answer_payload shared_file.file_hash (shared_file.chunk_hashes md4) =
      .ok payload) :
    ∃ hashset, parse_hashset_answer payload = .ok hashset ∧
      (verify_parts_against_hashset md4.hash (some image) truth.length hashset =
          corruptParts md4.hash truth image ↔
        truth.length ≤ PARTSIZE ∨ ∀ index < part_count truth.length,
          md4.hash (partBytes image index) = md4.hash (partBytes truth index)) := by
  refine ⟨_, parse_own_answer md4 hshared hpos hbuild, ?_⟩
  by_cases hone : truth.length ≤ PARTSIZE
  · simp only [hone, true_or, iff_true]
    exact verify_own_answer_one_part md4 hsize hpos hone shared_file.file_hash
  · simp only [hone, false_or]
    rw [verify_own_answer_many_parts md4 (Nat.lt_of_not_le hone), eq_comm, corruptParts_eq_nil_iff]

/-- Below 65535 parts the answer can be built. -/
theorem ofData_answer_ok {data : Bytes} (hpos : 0 < data.length)
    (hfew : part_count data.length < 65535) :
    ∃ payload, build_hashset_answer_payload (SharedFile.ofData md4 data).file_hash
      ((SharedFile.ofData md4 data).chunk_hashes md4) = .ok payload := by
  apply build_hashset_answer_payload_ok
  rw [(SharedFile.describes_ofData md4 data).chunk_hashes_eq hpos, List.length_map, length_chunks]
  omega

theorem verify_own_answer_iff_one_byte :
    ∃ payload hashset,
      build_hashset_answer_payload (SharedFile.ofData (Md4.buffered (zeroHash 16)) [7]).file_hash
        ((SharedFile.ofData (Md4.buffered (zeroHash 16)) [7]).chunk_hashes (Md4.buffered (zeroHash 16))) =
          .ok payload ∧
      parse_hashset_answer payload = .ok hashset ∧
      (verify_parts_against_hashset (Md4.buffered (zeroHash 16)).hash (some [8]) [(7 : UInt8)].length
            hashset =
          corruptParts (Md4.buffered (zeroHash 16)).hash [7] [8] ↔
        [(7 : UInt8)].length ≤ PARTSIZE ∨ ∀ index < part_count [(7 : UInt8)].length,
          (Md4.buffered (zeroHash 16)).hash (partBytes [8] index) =
            (Md4.buffered (zeroHash 16)).hash (partBytes [7] index)) := by
  have hshared := SharedFile.describes_ofData (Md4.buffered (zeroHash 16)) [7]
  have hcount : part_count [(7 : UInt8)].length = 1 := by
    simp only [part_count, PARTSIZE, List.length_singleton, Nat.reduceAdd, Nat.reduceSub, Nat.reduceDiv]
  obtain ⟨payload, hbuild⟩ := ofData_answer_ok (Md4.buffered (zeroHash 16))
    (show 0 < [(7 : UInt8)].length from Nat.one_pos) (by omega)
  obtain ⟨hashset, hparse, hiff⟩ := verify_own_answer_iff (Md4.buffered (zeroHash 16)) hshared
    Nat.one_pos (show [(8 : UInt8)].length = [(7 : UInt8)].length from rfl) hbuild
  exact ⟨payload, hashset, hbuild, hparse, hiff⟩

/-- A hash that repeats the first byte. -/
def headHash (width : Nat) : HashFn width :=
  ⟨fun data => List.replicate width (data.headD 0), fun _ => List.length_replicate⟩

theorem partBytes_second {front : Bytes} (hfront : front.length = PARTSIZE) (last : UInt8) :
    partBytes (front ++ [last]) 1 = [last] := by
  have hend : min ((1 + 1) * PARTSIZE) (front ++ [last]).length = front.length + 1 := by
    rw [List.length_append, List.length_singleton, hfront]
    simp only [PARTSIZE]
    omega
  rw [partBytes, hend, Nat.one_mul, ← hfront, List.extract_eq_take_drop, List.drop_left,
    Nat.add_sub_cancel_left]
  rfl

/-- The second of two parts is corrupt, and the check finds nothing. -/
theorem verify_own_answer_two_parts :
    ∃ payload hashset,
      build_hashset_answer_payload
          (SharedFile.ofData (Md4.buffered (headHash 16)) (List.replicate PARTSIZE 0 ++ [0])).file_hash
          ((SharedFile.ofData (Md4.buffered (headHash 16)) (List.replicate PARTSIZE 0 ++ [0])).chunk_hashes
            (Md4.buffered (headHash 16))) =
        .ok payload ∧
      parse_hashset_answer payload = .ok hashset ∧
      verify_parts_against_hashset (Md4.buffered (headHash 16)).hash
          (some (List.replicate PARTSIZE 0 ++ [1])) (List.replicate PARTSIZE (0 : UInt8) ++ [0]).length
          hashset = [] ∧
      corruptParts (Md4.buffered (headHash 16)).hash (List.replicate PARTSIZE 0 ++ [0])
        (List.replicate PARTSIZE 0 ++ [1]) ≠ [] := by
  have hfront : (List.replicate PARTSIZE (0 : UInt8)).length = PARTSIZE := List.length_replicate
  generalize List.replicate PARTSIZE (0 : UInt8) = front at hfront ⊢
  have hlength : (front ++ [(0 : UInt8)]).length = PARTSIZE + 1 := by
    rw [List.length_append, hfront, List.length_singleton]
  have hpos : 0 < (front ++ [(0 : UInt8)]).length := by omega
  have hcount : part_count (front ++ [(0 : UInt8)]).length = 2 := by
    rw [hlength]
    simp only [part_count, PARTSIZE, Nat.reduceAdd, Nat.reduceSub, Nat.reduceDiv]
  have hshared := SharedFile.describes_ofData (Md4.buffered (headHash 16)) (front ++ [0])
  obtain ⟨payload, hbuild⟩ := ofData_answer_ok (Md4.buffered (headHash 16)) hpos (by omega)
  refine ⟨payload, _, hbuild, parse_own_answer _ hshared hpos hbuild, ?_, ?_⟩
  · exact verify_own_answer_many_parts _ (by omega) _
  · rw [ne_eq, corruptParts_eq_nil_iff]
    intro hsame
    have hsecond := hsame 1 (by omega)
    rw [partBytes_second hfront, partBytes_second hfront] at hsecond
    exact absurd hsecond (by decide)

end OwnAnswer

section Hostile

/-- The range lies in a part whose bytes are not those of the true file. -/
def InDifferingPart (truth image : Bytes) (range : Nat × Nat) : Prop :=
  ∃ index, index * PARTSIZE ≤ range.1 ∧ range.1 < range.2 ∧ range.2 ≤ (index + 1) * PARTSIZE ∧
    partBytes image index ≠ partBytes truth index

/-- Whatever the runner reads out of a payload, it punches only parts that
differ from the true file. -/
def PunchesOnlyDiffering (md4 : HashFn 16) (truth image payload : Bytes) : Prop :=
  ∀ hashset, parse_hashset_answer payload = .ok hashset →
    ∀ range ∈ verify_parts_against_hashset md4 (some image) truth.length hashset,
      InDifferingPart truth image range

/-- The list in the payload is too short or too long to be compared, or holds
the true hash of every part that is intact on disk. -/
def TrueWhereIntact (md4 : HashFn 16) (truth image payload : Bytes) : Prop :=
  ∀ hashset, parse_hashset_answer payload = .ok hashset →
    (expected_hashes (part_count truth.length) hashset).length = part_count truth.length →
      ∀ index < part_count truth.length, partBytes image index = partBytes truth index →
        (expected_hashes (part_count truth.length) hashset).getD index [] = md4 (partBytes truth index)

/-- The check spares an intact part only if the peer lists its true hash: the
list is never tied to the known hash of the file. -/
theorem punches_only_differing_iff (md4 : HashFn 16) {truth image : Bytes}
    (hsize : image.length = truth.length) (payload : Bytes) :
    PunchesOnlyDiffering md4 truth image payload ↔ TrueWhereIntact md4 truth image payload := by
  constructor
  · intro hsafe hashset hparse hcount index hindex hintact
    have hstart := start_lt_of_lt_part_count hindex
    by_contra hwrong
    have hmem : (index * PARTSIZE, min ((index + 1) * PARTSIZE) truth.length) ∈
        verify_parts_against_hashset md4 (some image) truth.length hashset := by
      refine (mem_verify_parts_iff md4 hsize hashset _).mpr ⟨hcount, index, hindex, ?_, rfl⟩
      rw [hintact]
      exact fun heq => hwrong heq.symm
    obtain ⟨other, hlow, hrange, hhigh, hdiffers⟩ := hsafe hashset hparse _ hmem
    simp only [Nat.succ_mul] at hlow hrange hhigh
    have hsame : other = index := by
      simp only [PARTSIZE] at *
      omega
    rw [hsame] at hdiffers
    exact hdiffers hintact
  · intro htrue hashset hparse range hmem
    obtain ⟨hcount, index, hindex, hdiffers, rfl⟩ := (mem_verify_parts_iff md4 hsize hashset _).mp hmem
    have hstart := start_lt_of_lt_part_count hindex
    refine ⟨index, Nat.le_refl _, ?_, Nat.min_le_left _ _, ?_⟩
    · simp only [Nat.succ_mul, PARTSIZE] at *
      omega
    · intro hintact
      apply hdiffers
      rw [hintact, htrue hashset hparse hcount index hindex hintact]

/-- An answer that lists two zero hashes for a file of one byte. -/
theorem punches_only_differing_iff_one_byte :
    PunchesOnlyDiffering (zeroHash 16) [7] [7] (encode 2 2 ++ List.replicate 32 0) ↔
      TrueWhereIntact (zeroHash 16) [7] [7] (encode 2 2 ++ List.replicate 32 0) :=
  punches_only_differing_iff (zeroHash 16) rfl (encode 2 2 ++ List.replicate 32 0)

/-- A file of one byte is complete and intact on disk. A peer lists a wrong hash
for its only part, and the part is punched. Nothing but the one byte is hashed,
so no collision is involved. -/
theorem punches_intact_part :
    parse_hashset_answer (encode 2 2 ++ List.replicate 16 0 ++ List.replicate 16 1) =
        .ok ⟨List.replicate 16 0, [List.replicate 16 1]⟩ ∧
      verify_parts_against_hashset (zeroHash 16) (some [7]) 1
          ⟨List.replicate 16 0, [List.replicate 16 1]⟩ = [(0, 1)] ∧
      Set.InjOn (zeroHash 16) {[7]} ∧
      ¬ PunchesOnlyDiffering (zeroHash 16) [7] [7]
        (encode 2 2 ++ List.replicate 16 0 ++ List.replicate 16 1) := by
  have hparse : parse_hashset_answer (encode 2 2 ++ List.replicate 16 0 ++ List.replicate 16 1) =
      .ok ⟨List.replicate 16 0, [List.replicate 16 1]⟩ := by decide
  have hverify : verify_parts_against_hashset (zeroHash 16) (some [7]) 1
      ⟨List.replicate 16 0, [List.replicate 16 1]⟩ = [(0, 1)] := by
    have hcount : part_count 1 = 1 := by
      simp only [part_count, PARTSIZE, Nat.reduceAdd, Nat.reduceSub, Nat.reduceDiv]
    rw [verify_parts_against_hashset, hcount]
    simp [expected_hashes, zeroHash, PARTSIZE]
  refine ⟨hparse, hverify, Set.injOn_singleton _ _, ?_⟩
  intro hsafe
  obtain ⟨index, _, _, _, hdiffers⟩ := hsafe _ hparse (0, 1) (by
    rw [List.length_singleton, hverify]
    exact List.mem_singleton_self _)
  exact hdiffers rfl

end Hostile

end amuled.download
