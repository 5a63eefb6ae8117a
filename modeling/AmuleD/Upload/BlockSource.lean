import AmuleD.Hashes.Ed2k

open chunking

namespace amuled.upload

open ed2k

/-- A shared file: its metadata and the bytes at its path. -/
structure SharedFile where
  file_hash : Bytes
  size : Nat
  hash_result : Option Ed2kHashResult
  content : Bytes

namespace SharedFile

/-- `BlockSource.chunk_count` for a source with the default chunk size. -/
def chunk_count (shared_file : SharedFile) : Nat :=
  if shared_file.size = 0 then 1 else (shared_file.size + PARTSIZE - 1) / PARTSIZE

/-- `BlockSource.chunk_hashes`: the terminating hash of an exact multiple is cut
off. -/
def chunk_hashes (md4 : Md4) (shared_file : SharedFile) : List Bytes :=
  let hash_result := match shared_file.hash_result with
    | none => ed2k_hash_file md4 shared_file.content PARTSIZE partSize_pos
    | some hash_result => hash_result
  let chunk_list := hash_result.chunk_hashes
  if chunk_list.length = shared_file.chunk_count + 1 then chunk_list.dropLast else chunk_list

/-- The metadata are those of the bytes: the file was hashed when it was shared,
or is hashed on demand. -/
structure Describes (md4 : Md4) (shared_file : SharedFile) (data : Bytes) : Prop where
  content : shared_file.content = data
  size : shared_file.size = data.length
  file_hash : shared_file.file_hash = (reference md4 PARTSIZE data).file_hash
  hash_result : shared_file.hash_result = none ∨
    shared_file.hash_result = some (reference md4 PARTSIZE data)

/-- A file shared under a given hash, with nothing hashed in advance. -/
def unhashed (file_hash data : Bytes) : SharedFile := ⟨file_hash, data.length, none, data⟩

theorem describes_unhashed {md4 : Md4} {file_hash data : Bytes}
    (hhash : file_hash = (reference md4 PARTSIZE data).file_hash) :
    Describes md4 (unhashed file_hash data) data := ⟨rfl, rfl, hhash, .inl rfl⟩

/-- A file shared under its own hash. -/
def ofData (md4 : Md4) (data : Bytes) : SharedFile :=
  unhashed (reference md4 PARTSIZE data).file_hash data

theorem describes_ofData (md4 : Md4) (data : Bytes) : Describes md4 (ofData md4 data) data :=
  describes_unhashed (Eq.refl (reference md4 PARTSIZE data).file_hash)

variable {md4 : Md4} {shared_file : SharedFile} {data : Bytes}

theorem Describes.length_file_hash (h : Describes md4 shared_file data) :
    shared_file.file_hash.length = 16 := by
  rw [h.file_hash, ed2k.length_file_hash partSize_pos]

/-- The chunk hashes of a shared file are the MD4 of its parts, without the
terminating hash. -/
theorem Describes.chunk_hashes_eq (h : Describes md4 shared_file data) (hpos : 0 < data.length) :
    shared_file.chunk_hashes md4 = (chunks PARTSIZE data).map md4.md4_digest := by
  have hresult : (match shared_file.hash_result with
      | none => ed2k_hash_file md4 shared_file.content PARTSIZE partSize_pos
      | some hash_result => hash_result).chunk_hashes = referenceChunkHashes md4 PARTSIZE data := by
    rcases h.hash_result with hnone | hsome
    · rw [hnone, h.content]
      simp only
      rw [ed2k_hash_file_eq, reference_eq]
      rfl
    · rw [hsome, reference_eq]
      rfl
  have hcount : shared_file.chunk_count = ((chunks PARTSIZE data).map md4.md4_digest).length := by
    rw [chunk_count, h.size, if_neg (by omega), List.length_map, chunks, List.length_map, List.length_range]
  rw [chunk_hashes, hresult, referenceChunkHashes, hcount]
  by_cases hzero : data.length % PARTSIZE = 0
  · simp [hzero]
  · simp [hzero]

end SharedFile

end amuled.upload
