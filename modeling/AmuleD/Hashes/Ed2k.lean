import AmuleD.Chunks
import AmuleD.Basic

namespace amuled

/-- PyCryptodome's MD4 object. It is an incremental hash: feeding a string in
two pieces is feeding it whole. -/
structure Md4 where
  State : Type
  new : State
  feed : State → Bytes → State
  read : State → Bytes
  length_read : ∀ state, (read state).length = 16
  feed_feed : ∀ state first second, feed (feed state first) second = feed state (first ++ second)

namespace Md4

variable (md4 : Md4)

/-- `MD4.update` of the adapter, which passes no empty string on. -/
def update (state : md4.State) (data : Bytes) : md4.State :=
  if data = [] then state else md4.feed state data

def digest (state : md4.State) : Bytes := md4.read state

/-- `MD4(data)`. -/
def ofData (data : Bytes) : md4.State := if data = [] then md4.new else md4.update md4.new data

def md4_digest (data : Bytes) : Bytes := md4.digest (md4.ofData data)

theorem update_ofData (first second : Bytes) :
    md4.update (md4.ofData first) second = md4.ofData (first ++ second) := by
  by_cases hfirst : first = [] <;> by_cases hsecond : second = [] <;>
    simp [update, ofData, hfirst, hsecond, md4.feed_feed]

/-- The one-shot digest as a hash function. -/
def hash : HashFn 16 := ⟨md4.md4_digest, fun data => md4.length_read (md4.ofData data)⟩

/-- An MD4 that collects what it is fed and hashes it at the end. -/
def buffered (hash : HashFn 16) : Md4 where
  State := Bytes
  new := []
  feed := fun state data => state ++ data
  read := fun state => hash state
  length_read := hash.length_apply
  feed_feed := List.append_assoc

theorem md4_digest_buffered (hash : HashFn 16) (data : Bytes) : (buffered hash).md4_digest data = hash data := by
  by_cases hdata : data = []
  · rw [hdata]
    rfl
  · rw [md4_digest, ofData, if_neg hdata, update, if_neg hdata]
    rfl

end Md4

end amuled

open chunking

namespace amuled.ed2k

structure Ed2kHashResult where
  file_hash : Bytes
  file_size : Nat
  chunk_hashes : List Bytes
  deriving DecidableEq, Repr

/-- The streaming hasher. The source never checks its chunk size; with zero
every non-empty update divides by zero. -/
structure Ed2kHasher (md4 : Md4) where
  chunk_size : Nat
  size : Nat
  state : md4.State
  chunk_hashes : List Bytes
  chunk_size_pos : 0 < chunk_size

namespace Ed2kHasher

variable {md4 : Md4}

def new (md4 : Md4) (chunk_size : Nat) (hpos : 0 < chunk_size) : Ed2kHasher md4 :=
  ⟨chunk_size, 0, md4.new, [], hpos⟩

/-- The body of the loop of `update`, for the piece it takes. -/
def take_piece (hasher : Ed2kHasher md4) (piece : Bytes) : Ed2kHasher md4 :=
  let state := md4.update hasher.state piece
  let size := hasher.size + piece.length
  if size % hasher.chunk_size = 0 then
    { hasher with size := size, state := md4.new,
                  chunk_hashes := hasher.chunk_hashes ++ [md4.digest state] }
  else { hasher with size := size, state := state }

def update_loop (hasher : Ed2kHasher md4) (data : Bytes) (offset : Nat) : Ed2kHasher md4 :=
  if offset < data.length then
    let take := min (data.length - offset) (hasher.chunk_size - hasher.size % hasher.chunk_size)
    update_loop (hasher.take_piece (data.extract offset (offset + take))) data (offset + take)
  else hasher
termination_by data.length - offset
decreasing_by
  have hmod := Nat.mod_lt hasher.size hasher.chunk_size_pos
  omega

def update (hasher : Ed2kHasher md4) (data : Bytes) : Ed2kHasher md4 := hasher.update_loop data 0

/-- `_finalize`, which closes the open chunk in place. -/
def finalize (hasher : Ed2kHasher md4) : Ed2kHasher md4 :=
  let remaining := hasher.size % hasher.chunk_size
  let at_exact_boundary := remaining = 0 ∧ hasher.size ≠ 0
  if remaining ≠ 0 ∨ at_exact_boundary ∨ hasher.chunk_hashes = [] then
    { hasher with state := md4.new,
                  chunk_hashes := hasher.chunk_hashes ++ [md4.digest hasher.state] }
  else hasher

/-- The value a list of chunk hashes and a size make. -/
def resultOf (md4 : Md4) (chunk_hashes : List Bytes) (file_size : Nat) : Ed2kHashResult where
  file_hash := if chunk_hashes.length = 1 then chunk_hashes.headD []
    else md4.md4_digest chunk_hashes.flatten
  file_size := file_size
  chunk_hashes := chunk_hashes

/-- `result`, with the hasher it leaves behind. -/
def result (hasher : Ed2kHasher md4) : Ed2kHashResult × Ed2kHasher md4 :=
  (resultOf md4 hasher.finalize.chunk_hashes hasher.finalize.size, hasher.finalize)

end Ed2kHasher

def ed2k_hash_data (md4 : Md4) (data : Bytes) (chunk_size : Nat) (hpos : 0 < chunk_size) :
    Ed2kHashResult :=
  ((Ed2kHasher.new md4 chunk_size hpos).update data).result.1

/-- `ed2k_hash_file` on a file that holds `data`, read in blocks of 64 KiB. -/
def ed2k_hash_file (md4 : Md4) (data : Bytes) (chunk_size : Nat) (hpos : 0 < chunk_size) :
    Ed2kHashResult :=
  ((chunks 65536 data).foldl Ed2kHasher.update (Ed2kHasher.new md4 chunk_size hpos)).result.1

section Reference

/-- The MD4 of the consecutive chunks; an empty string, or one that ends with a
chunk, has the MD4 of the empty string behind them. -/
def referenceChunkHashes (md4 : Md4) (chunk_size : Nat) (data : Bytes) : List Bytes :=
  (chunks chunk_size data).map md4.md4_digest ++
    if data.length % chunk_size = 0 then [md4.md4_digest []] else []

/-- The ED2K digest of a string as the protocol defines it. -/
def reference (md4 : Md4) (chunk_size : Nat) (data : Bytes) : Ed2kHashResult :=
  match referenceChunkHashes md4 chunk_size data with
  | [sole] => ⟨sole, data.length, [sole]⟩
  | hashes => ⟨md4.md4_digest hashes.flatten, data.length, hashes⟩

variable {md4 : Md4} {chunk_size : Nat}

theorem referenceChunkHashes_eq (hpos : 0 < chunk_size) (data : Bytes) :
    referenceChunkHashes md4 chunk_size data =
      (whole chunk_size data).map md4.md4_digest ++ [md4.md4_digest (rest chunk_size data)] := by
  rw [referenceChunkHashes, chunks_eq hpos, List.map_append, List.append_assoc]
  by_cases hzero : data.length % chunk_size = 0
  · have hrest : rest chunk_size data = [] := List.length_eq_zero_iff.mp ((length_rest data).trans hzero)
    simp [hzero, hrest]
  · simp [hzero]

theorem reference_eq (data : Bytes) :
    reference md4 chunk_size data =
      Ed2kHasher.resultOf md4 (referenceChunkHashes md4 chunk_size data) data.length := by
  rw [reference, Ed2kHasher.resultOf]
  split
  · rename_i hsole
    rw [hsole]
    rfl
  · rename_i hother
    rw [if_neg]
    intro hlength
    obtain ⟨sole, hsole⟩ := List.length_eq_one_iff.mp hlength
    exact hother sole hsole

/-- The hash of a file is as long as an MD4, whether it is a chunk hash or the hash of several. -/
theorem length_file_hash (hpos : 0 < chunk_size) (data : Bytes) :
    (reference md4 chunk_size data).file_hash.length = 16 := by
  rw [reference]
  split
  · rename_i sole hsole
    have hmem : sole ∈ referenceChunkHashes md4 chunk_size data := by
      rw [hsole]
      exact List.mem_singleton_self sole
    rw [referenceChunkHashes_eq hpos, ← List.map_singleton, ← List.map_append] at hmem
    obtain ⟨chunk, _, rfl⟩ := List.mem_map.mp hmem
    exact md4.hash.length_apply chunk
  · exact md4.hash.length_apply _

end Reference

namespace Ed2kHasher

variable {md4 : Md4}

/-- The hasher has taken exactly these bytes: its chunk hashes are those of the
complete chunks, and the MD4 object holds the open one. -/
structure Fed (hasher : Ed2kHasher md4) (data : Bytes) : Prop where
  size : hasher.size = data.length
  chunk_hashes : hasher.chunk_hashes = (whole hasher.chunk_size data).map md4.md4_digest
  state : hasher.state = md4.ofData (rest hasher.chunk_size data)

theorem fed_new (md4 : Md4) (chunk_size : Nat) (hpos : 0 < chunk_size) : Fed (new md4 chunk_size hpos) [] := by
  refine ⟨rfl, ?_, ?_⟩
  · simp [new]
  · simp [new, Md4.ofData]

@[simp] theorem chunk_size_take_piece (hasher : Ed2kHasher md4) (piece : Bytes) :
    (hasher.take_piece piece).chunk_size = hasher.chunk_size := by
  rw [take_piece]
  split <;> rfl

theorem chunk_size_update_loop (hasher : Ed2kHasher md4) (data : Bytes) (offset : Nat) :
    (hasher.update_loop data offset).chunk_size = hasher.chunk_size := by
  induction hasher, offset using update_loop.induct data with
  | case1 hasher offset hmore take ih =>
    rw [update_loop, if_pos hmore]
    exact ih.trans (chunk_size_take_piece _ _)
  | case2 hasher offset hdone => rw [update_loop, if_neg hdone]

theorem chunk_size_foldl_update (pieces : List Bytes) (hasher : Ed2kHasher md4) :
    (pieces.foldl update hasher).chunk_size = hasher.chunk_size := by
  induction pieces generalizing hasher with
  | nil => rfl
  | cons piece pieces ih =>
    rw [List.foldl_cons, ih]
    exact chunk_size_update_loop hasher piece 0

/-- A piece that does not cross the end of the open chunk. -/
theorem Fed.take_piece {hasher : Ed2kHasher md4} {data piece : Bytes} (hfed : Fed hasher data)
    (hpiece : 0 < piece.length)
    (hfits : data.length % hasher.chunk_size + piece.length ≤ hasher.chunk_size) :
    Fed (hasher.take_piece piece) (data ++ piece) := by
  have hpos := hasher.chunk_size_pos
  have hlength := Nat.div_add_mod data.length hasher.chunk_size
  have hmod : (hasher.size + piece.length) % hasher.chunk_size =
      (data.length % hasher.chunk_size + piece.length) % hasher.chunk_size := by
    rw [hfed.size, Nat.mod_add_mod]
  have hstate : md4.update hasher.state piece = md4.ofData (rest hasher.chunk_size data ++ piece) := by
    rw [hfed.state, md4.update_ofData]
  by_cases hclosed : data.length % hasher.chunk_size + piece.length = hasher.chunk_size
  · obtain ⟨hwhole, hrest⟩ := append_of_eq hpos hclosed
    rw [Ed2kHasher.take_piece, if_pos (by rw [hmod, hclosed, Nat.mod_self])]
    refine ⟨by simp [hfed.size], ?_, ?_⟩
    · simp only [hwhole, List.map_append, List.map_singleton, hfed.chunk_hashes, hstate]
      rfl
    · simp only [hrest]
      rfl
  · obtain ⟨hwhole, hrest⟩ := append_of_lt (Nat.lt_of_le_of_ne hfits hclosed)
    have hopen : ¬ (hasher.size + piece.length) % hasher.chunk_size = 0 := by
      rw [hmod, Nat.mod_eq_of_lt (Nat.lt_of_le_of_ne hfits hclosed)]
      omega
    rw [Ed2kHasher.take_piece, if_neg hopen]
    refine ⟨by simp [hfed.size], ?_, ?_⟩
    · simp only [hwhole, hfed.chunk_hashes]
    · simp only [hrest, hstate]

theorem Fed.update_loop {hasher : Ed2kHasher md4} {fed data : Bytes} {offset : Nat}
    (hoffset : offset ≤ data.length) (hfed : Fed hasher (fed ++ data.take offset)) :
    Fed (hasher.update_loop data offset) (fed ++ data) := by
  induction hasher, offset using Ed2kHasher.update_loop.induct data with
  | case1 hasher offset hmore take ih =>
    have hmod := Nat.mod_lt hasher.size hasher.chunk_size_pos
    have htake : take ≤ data.length - offset := Nat.min_le_left _ _
    have hpiece : (data.extract offset (offset + take)).length = take := by
      rw [length_extract_of_le (by omega)]
      omega
    have hsplit : data.take (offset + take) = data.take offset ++ data.extract offset (offset + take) := by
      rw [List.extract_eq_take_drop, Nat.add_sub_cancel_left, List.take_add]
    have hfits : (fed ++ data.take offset).length % hasher.chunk_size +
        (data.extract offset (offset + take)).length ≤ hasher.chunk_size := by
      rw [← hfed.size, hpiece]
      have := Nat.min_le_right (data.length - offset) (hasher.chunk_size - hasher.size % hasher.chunk_size)
      omega
    rw [Ed2kHasher.update_loop, if_pos hmore]
    apply ih (by omega)
    rw [hsplit, ← List.append_assoc]
    exact hfed.take_piece (by omega) hfits
  | case2 hasher offset hdone =>
    rw [Ed2kHasher.update_loop, if_neg hdone]
    rw [List.take_of_length_le (Nat.le_of_not_lt hdone)] at hfed
    exact hfed

theorem Fed.update {hasher : Ed2kHasher md4} {fed : Bytes} (hfed : Fed hasher fed) (data : Bytes) :
    Fed (hasher.update data) (fed ++ data) := by
  apply Fed.update_loop (Nat.zero_le _)
  rw [List.take_zero, List.append_nil]
  exact hfed

/-- However the string was cut, the hasher has taken all of it. -/
theorem Fed.foldl_update {hasher : Ed2kHasher md4} {fed : Bytes} (hfed : Fed hasher fed)
    (pieces : List Bytes) : Fed (pieces.foldl Ed2kHasher.update hasher) (fed ++ pieces.flatten) := by
  induction pieces generalizing hasher fed with
  | nil => simpa using hfed
  | cons piece pieces ih =>
    have hrest := ih (hfed.update piece)
    rw [List.append_assoc] at hrest
    exact hrest

/-- The first `result` closes the open chunk and returns the reference digest. -/
theorem Fed.result {hasher : Ed2kHasher md4} {data : Bytes} (hfed : Fed hasher data) :
    hasher.result.1 = reference md4 hasher.chunk_size data ∧
      hasher.finalize = { hasher with
        state := md4.new
        chunk_hashes := referenceChunkHashes md4 hasher.chunk_size data } := by
  have hcloses : hasher.size % hasher.chunk_size ≠ 0 ∨
      (hasher.size % hasher.chunk_size = 0 ∧ hasher.size ≠ 0) ∨ hasher.chunk_hashes = [] := by
    by_cases hzero : hasher.size = 0
    · have hempty : data = [] := List.length_eq_zero_iff.mp (hfed.size.symm.trans hzero)
      refine .inr (.inr ?_)
      rw [hfed.chunk_hashes, hempty, whole_nil]
      rfl
    · by_cases hmod : hasher.size % hasher.chunk_size = 0
      · exact .inr (.inl ⟨hmod, hzero⟩)
      · exact .inl hmod
  have hfinal : hasher.finalize = { hasher with
      state := md4.new
      chunk_hashes := referenceChunkHashes md4 hasher.chunk_size data } := by
    rw [referenceChunkHashes_eq hasher.chunk_size_pos, ← hfed.chunk_hashes, Ed2kHasher.finalize,
      if_pos hcloses, hfed.state]
    rfl
  refine ⟨?_, hfinal⟩
  rw [Ed2kHasher.result, hfinal, reference_eq, hfed.size]

/-- A later `result` closes a chunk again, which now is empty: it adds the MD4 of
the empty string unless the size is zero. -/
theorem Fed.finalize_finalize {hasher : Ed2kHasher md4} {data : Bytes} (hfed : Fed hasher data) :
    hasher.finalize.finalize.chunk_hashes = referenceChunkHashes md4 hasher.chunk_size data ++
      if data = [] then [] else [md4.md4_digest []] := by
  have hsome : referenceChunkHashes md4 hasher.chunk_size data ≠ [] := by
    rw [referenceChunkHashes_eq hasher.chunk_size_pos]
    simp
  rw [hfed.result.2]
  by_cases hempty : data = []
  · have hzero : hasher.size = 0 := hfed.size.trans (by rw [hempty]; rfl)
    rw [Ed2kHasher.finalize, if_neg (by simp [hzero, hsome]), if_pos hempty, List.append_nil]
  · have hne : hasher.size ≠ 0 := by
      rw [hfed.size]
      exact fun h => hempty (List.length_eq_zero_iff.mp h)
    have hcloses : hasher.size % hasher.chunk_size ≠ 0 ∨
        (hasher.size % hasher.chunk_size = 0 ∧ hasher.size ≠ 0) ∨
        referenceChunkHashes md4 hasher.chunk_size data = [] := by
      by_cases hmod : hasher.size % hasher.chunk_size = 0
      · exact .inr (.inl ⟨hmod, hne⟩)
      · exact .inl hmod
    rw [Ed2kHasher.finalize, if_pos hcloses, if_neg hempty]
    rfl

/-- The value of the `result` that follows `calls` earlier ones. -/
def resultAfter (hasher : Ed2kHasher md4) : Nat → Ed2kHashResult
  | 0 => hasher.result.1
  | calls + 1 => hasher.result.2.resultAfter calls

theorem resultAfter_of_nil {hasher : Ed2kHasher md4} (hfed : Fed hasher []) (calls : Nat) :
    hasher.resultAfter calls = hasher.result.1 := by
  cases calls with
  | zero => rfl
  | succ calls =>
    have hstable : hasher.finalize.finalize = hasher.finalize := by
      have hzero : hasher.size = 0 := hfed.size
      have hsome : referenceChunkHashes md4 hasher.chunk_size [] ≠ [] := by
        rw [referenceChunkHashes_eq hasher.chunk_size_pos]
        simp
      rw [hfed.result.2, Ed2kHasher.finalize, if_neg (by simp [hzero, hsome])]
    have hsame : ∀ calls, hasher.finalize.resultAfter calls = hasher.result.1 := by
      intro calls
      induction calls with
      | zero => rw [resultAfter, Ed2kHasher.result, hstable]; rfl
      | succ calls ih => rw [resultAfter, Ed2kHasher.result, hstable]; exact ih
    exact hsame calls

/-- For every cutting of a string the first `result` is the reference digest.
All later ones are only if the string is empty: `result` closes the open chunk
in place, so the next one closes an empty chunk once more. -/
theorem result_eq_reference_iff (md4 : Md4) (chunk_size : Nat) (hpos : 0 < chunk_size)
    (pieces : List Bytes) :
    (pieces.foldl update (new md4 chunk_size hpos)).result.1 =
        reference md4 chunk_size pieces.flatten ∧
      ((∀ calls, (pieces.foldl update (new md4 chunk_size hpos)).resultAfter calls =
        reference md4 chunk_size pieces.flatten) ↔ pieces.flatten = []) := by
  have hfed := (fed_new md4 chunk_size hpos).foldl_update pieces
  have hsize : (pieces.foldl update (new md4 chunk_size hpos)).chunk_size = chunk_size :=
    chunk_size_foldl_update pieces (new md4 chunk_size hpos)
  rw [List.nil_append] at hfed
  have hfirst := hfed.result.1
  rw [hsize] at hfirst
  refine ⟨hfirst, ?_, ?_⟩
  · intro hall
    by_contra hsome
    have hsecond := congrArg (fun value => value.chunk_hashes.length) ((hall 1).trans hfirst.symm)
    simp only [resultAfter, result, resultOf] at hsecond
    rw [hfed.finalize_finalize, hfed.result.2, if_neg hsome, List.length_append] at hsecond
    simp at hsecond
  · intro hnil calls
    rw [hnil] at hfed
    rw [resultAfter_of_nil hfed, hfirst]

theorem result_eq_reference_iff_two_pieces :
    0 < 4 ∧
      (([[1, 2, 3], [4, 5]].foldl update (new (Md4.buffered (zeroHash 16)) 4 (by decide))).result.1 =
          reference (Md4.buffered (zeroHash 16)) 4 [[1, 2, 3], [4, 5]].flatten ∧
        ((∀ calls, ([[1, 2, 3], [4, 5]].foldl update
            (new (Md4.buffered (zeroHash 16)) 4 (by decide))).resultAfter calls =
          reference (Md4.buffered (zeroHash 16)) 4 [[1, 2, 3], [4, 5]].flatten) ↔
            [[1, 2, 3], [4, 5]].flatten = ([] : Bytes))) :=
  ⟨by decide, result_eq_reference_iff (Md4.buffered (zeroHash 16)) 4 (by decide) [[1, 2, 3], [4, 5]]⟩

/-- Asked twice about one byte, the hasher gives two answers, the second with
a chunk hash more. -/
theorem result_twice_one_byte :
    ((new (Md4.buffered (zeroHash 16)) PARTSIZE (by decide)).update [7]).resultAfter 1 ≠
      ((new (Md4.buffered (zeroHash 16)) PARTSIZE (by decide)).update [7]).resultAfter 0 := by
  have hfed := (fed_new (Md4.buffered (zeroHash 16)) PARTSIZE (by decide)).update [7]
  intro heq
  have hlength := congrArg (fun value => value.chunk_hashes.length) heq
  simp only [resultAfter, result, resultOf] at hlength
  rw [hfed.finalize_finalize, hfed.result.2] at hlength
  simp at hlength

end Ed2kHasher

/-- The one-shot hash is the reference digest. -/
theorem ed2k_hash_data_eq (md4 : Md4) (data : Bytes) (chunk_size : Nat) (hpos : 0 < chunk_size) :
    ed2k_hash_data md4 data chunk_size hpos = reference md4 chunk_size data := by
  have hfed := (Ed2kHasher.fed_new md4 chunk_size hpos).update data
  have hsize := Ed2kHasher.chunk_size_update_loop (Ed2kHasher.new md4 chunk_size hpos) data 0
  rw [ed2k_hash_data, hfed.result.1, Ed2kHasher.update, hsize, List.nil_append]
  rfl

/-- So is the hash of a file read block by block. -/
theorem ed2k_hash_file_eq (md4 : Md4) (data : Bytes) (chunk_size : Nat) (hpos : 0 < chunk_size) :
    ed2k_hash_file md4 data chunk_size hpos = reference md4 chunk_size data := by
  have hfed := (Ed2kHasher.fed_new md4 chunk_size hpos).foldl_update (chunks 65536 data)
  have hsize := Ed2kHasher.chunk_size_foldl_update (chunks 65536 data)
    (Ed2kHasher.new md4 chunk_size hpos)
  rw [ed2k_hash_file, hfed.result.1, hsize, List.nil_append, flatten_chunks (by decide)]
  rfl

end amuled.ed2k
