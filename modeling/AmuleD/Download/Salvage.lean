import AmuleD.Download.VerifyParts
import AmuleD.Hashes.Aich.Truncation
import AmuleD.Hashes.Aich.RoundTrip

namespace amuled.download

open aich

/-- What the salvage of a file's corrupt parts reads: the size, the file of the queue's entry
(if there is an entry and the file opens), the stored master and what `request_aich` answers for
each part index. -/
structure Salvage where
  size : Nat
  entry : Option (Option Bytes)
  stored : Option Bytes
  request_aich : Nat → Except Exc Bytes

/-- The part that starts at `part_start`, as the range of a whole-part punch. -/
def whole_part (size part_start : Nat) : Nat × Nat :=
  (part_start, part_start + min PARTSIZE (size - part_start))

/-- The ranges of the blocks whose two hashes differ. -/
def differing_blocks (part_start part_size : Nat) (ours verified : List Bytes) : List (Nat × Nat) :=
  (ours.zip verified).zipIdx.filterMap fun ((ours_h, verified_h), block_index) =>
    let block_start := part_start + block_index * BLOCKSIZE
    if ours_h ≠ verified_h then some (block_start, min (block_start + BLOCKSIZE) (part_start + part_size))
    else none

section Salvage

variable (sha1 : HashFn 20) (salvage : Salvage)

/-- The `try` block for one part: the ranges found so far with those of its differing blocks, and
`narrowed`. The request has its own handler, for every exception. -/
def narrow_part (part_file : Option Bytes) (stored : Bytes) (ranges : List (Nat × Nat)) (part_start : Nat) :
    Except Exc (List (Nat × Nat) × Bool) := do
  let part_index := part_start / PARTSIZE
  let part_size := min PARTSIZE (salvage.size - part_start)
  let handle ← match part_file with
    | none => throw .OSError
    | some handle => pure handle
  let part_data := handle.extract part_start (part_start + part_size)
  let recovery := match salvage.request_aich part_index with
    | .error _ => []
    | .ok recovery => recovery
  if recovery = [] then pure (ranges, false)
  else do
    let verified ← aich_verified_part_blocks sha1 recovery part_index salvage.size stored
    let ours ← aich_hash_data sha1 part_data
    let ranges := ranges ++ differing_blocks part_start part_size ours.block_hashes verified
    -- the list of all parts so far, not of this one
    pure (ranges, decide (ranges ≠ []))

/-- One turn of the loop over the corrupt parts. -/
def salvage_part (part_file : Option Bytes) (ranges : List (Nat × Nat)) (part : Nat × Nat) :
    Except Exc (List (Nat × Nat)) :=
  let whole := whole_part salvage.size part.1
  match salvage.stored with
  | none => .ok (ranges ++ [whole])
  | some stored =>
    match narrow_part sha1 salvage part_file stored ranges part.1 with
    | .ok (ranges, true) => .ok ranges
    | .ok (ranges, false) => .ok (ranges ++ [whole])
    | .error (.AichError _) => .ok (ranges ++ [whole])
    | .error exc => .error exc

/-- `_aich_narrow_corrupt` -/
def aich_narrow_corrupt (corrupt_parts : List (Nat × Nat)) : Except Exc (List (Nat × Nat)) :=
  match salvage.entry with
  | none => .ok corrupt_parts
  | some part_file => corrupt_parts.foldlM (salvage_part sha1 salvage part_file) []

/-- The peer's data for a part authenticates: these are our block hashes and the verified ones. -/
def Compared (part_start : Nat) (ours verified : List Bytes) : Prop :=
  ∃ stored image recovery result,
    salvage.stored = some stored ∧ salvage.entry = some (some image) ∧
      salvage.request_aich (part_start / PARTSIZE) = .ok recovery ∧ recovery ≠ [] ∧
      aich_verified_part_blocks sha1 recovery (part_start / PARTSIZE : Nat) salvage.size stored = .ok verified ∧
      aich_hash_data sha1 (image.extract part_start (whole_part salvage.size part_start).2) = .ok result ∧
      result.block_hashes = ours

/-- The part was narrowed to some of its blocks. -/
def Differs (part_start : Nat) : Prop :=
  ∃ ours verified, Compared sha1 salvage part_start ours verified ∧
    ∃ pair ∈ ours.zip verified, pair.1 ≠ pair.2

/-- The peer's data authenticates and shows no corrupt block. -/
def Agrees (part_start : Nat) : Prop :=
  ∃ ours verified, Compared sha1 salvage part_start ours verified ∧
    ∀ pair ∈ ours.zip verified, pair.1 = pair.2

/-- A non-empty range inside the part. -/
def InsidePart (size part_start : Nat) (range : Nat × Nat) : Prop :=
  range.1 < range.2 ∧ part_start ≤ range.1 ∧ range.2 ≤ (whole_part size part_start).2

/-- Every corrupt part is punched, as a whole where it was not narrowed. -/
def PunchesEveryPart (corrupt_parts ranges : List (Nat × Nat)) : Prop :=
  ∀ part ∈ corrupt_parts, (∃ range ∈ ranges, InsidePart salvage.size part.1 range) ∧
    (¬ Differs sha1 salvage part.1 → whole_part salvage.size part.1 ∈ ranges)

/-- What the check of the parts hands over: each part once, by the range it was read from. -/
structure CorruptParts (size : Nat) (corrupt_parts : List (Nat × Nat)) : Prop where
  start : ∀ part ∈ corrupt_parts, PARTSIZE ∣ part.1 ∧ part.1 < size
  distinct : (corrupt_parts.map Prod.fst).Nodup

/-- The salvage of a part raises nothing that is not caught. -/
def Guarded (part_file : Option Bytes) (part_start : Nat) : Prop :=
  salvage.stored = none ∨ part_file ≠ none ∧
    ∀ recovery, salvage.request_aich (part_start / PARTSIZE) = .ok recovery → recovery = [] ∨ Framed recovery

/-- Without an entry the parts are given in full; with one, nothing escapes the salvage and no part
but the first is shown intact by the peer's data. -/
def Salvageable (corrupt_parts : List (Nat × Nat)) : Prop :=
  match salvage.entry with
  | none => ∀ part ∈ corrupt_parts, part = whole_part salvage.size part.1
  | some part_file => (∀ part ∈ corrupt_parts, Guarded salvage part_file part.1) ∧
      ∀ part ∈ corrupt_parts.tail, ¬ Agrees sha1 salvage part.1

section Blocks

variable {part_start part_size : Nat} {ours verified : List Bytes}

theorem mem_differing_blocks {range : Nat × Nat} :
    range ∈ differing_blocks part_start part_size ours verified ↔
      ∃ block_index ours_h verified_h, (ours.zip verified)[block_index]? = some (ours_h, verified_h) ∧
        ours_h ≠ verified_h ∧
        range = (part_start + block_index * BLOCKSIZE,
          min (part_start + block_index * BLOCKSIZE + BLOCKSIZE) (part_start + part_size)) := by
  rw [differing_blocks, List.mem_filterMap]
  constructor
  · rintro ⟨⟨⟨ours_h, verified_h⟩, block_index⟩, hmem, hrange⟩
    simp only at hrange
    split at hrange
    · rename_i hne
      exact ⟨block_index, ours_h, verified_h, List.mem_zipIdx_iff_getElem?.mp hmem, hne,
        (Option.some.inj hrange).symm⟩
    · cases hrange
  · rintro ⟨block_index, ours_h, verified_h, hget, hne, rfl⟩
    refine ⟨((ours_h, verified_h), block_index), List.mem_zipIdx_iff_getElem?.mpr hget, ?_⟩
    simp only
    rw [if_pos hne]

theorem differing_blocks_eq_nil_iff :
    differing_blocks part_start part_size ours verified = [] ↔ ∀ pair ∈ ours.zip verified, pair.1 = pair.2 := by
  rw [List.eq_nil_iff_forall_not_mem]
  constructor
  · intro hnone pair hpair
    by_contra hne
    obtain ⟨block_index, hget⟩ := List.mem_iff_getElem?.mp hpair
    exact hnone _ (mem_differing_blocks.mpr ⟨block_index, pair.1, pair.2, hget, hne, rfl⟩)
  · intro hequal range hmem
    obtain ⟨block_index, ours_h, verified_h, hget, hne, _⟩ := mem_differing_blocks.mp hmem
    exact hne (hequal _ (List.mem_of_getElem? hget))

/-- With no more verified hashes than the part has blocks. -/
theorem differing_blocks_inside {size : Nat}
    (hblocks : verified.length ≤ block_count (min PARTSIZE (size - part_start))) {range : Nat × Nat}
    (hmem : range ∈ differing_blocks part_start (min PARTSIZE (size - part_start)) ours verified) :
    InsidePart size part_start range := by
  obtain ⟨block_index, ours_h, verified_h, hget, _, rfl⟩ := mem_differing_blocks.mp hmem
  have hindex := (List.getElem?_eq_some_iff.mp hget).1
  rw [List.length_zip] at hindex
  have hstart : block_index * BLOCKSIZE < min PARTSIZE (size - part_start) := by
    simp only [block_count, BLOCKSIZE] at *
    omega
  have hblock : 0 < BLOCKSIZE := by decide
  refine ⟨?_, ?_, ?_⟩ <;> simp only [whole_part] <;> omega

theorem insidePart_whole {size : Nat} (hstart : part_start < size) :
    InsidePart size part_start (whole_part size part_start) := by
  refine ⟨?_, Nat.le_refl _, Nat.le_refl _⟩
  simp only [whole_part, PARTSIZE]
  omega

/-- No range lies inside two parts. -/
theorem insidePart_unique {size other : Nat} {range : Nat × Nat} (hpart : PARTSIZE ∣ part_start)
    (hother : PARTSIZE ∣ other) (hinside : InsidePart size part_start range)
    (hinside' : InsidePart size other range) : part_start = other := by
  obtain ⟨index, rfl⟩ := hpart
  obtain ⟨index', rfl⟩ := hother
  obtain ⟨hpos, hlow, hhigh⟩ := hinside
  obtain ⟨_, hlow', hhigh'⟩ := hinside'
  simp only [whole_part, PARTSIZE] at *
  omega

end Blocks

section Compared

variable {sha1 : HashFn 20} {salvage : Salvage} {part_start : Nat}

theorem compared_unique {ours ours' verified verified' : List Bytes}
    (hcompared : Compared sha1 salvage part_start ours verified)
    (hcompared' : Compared sha1 salvage part_start ours' verified') : ours = ours' ∧ verified = verified' := by
  obtain ⟨stored, image, recovery, result, hstored, hentry, hrequest, _, hverified, hresult, rfl⟩ := hcompared
  obtain ⟨stored', image', recovery', result', hstored', hentry', hrequest', _, hverified', hresult', rfl⟩ :=
    hcompared'
  obtain rfl := Option.some.inj (hstored.symm.trans hstored')
  obtain rfl := Option.some.inj (Option.some.inj (hentry.symm.trans hentry'))
  obtain rfl := Except.ok.inj (hrequest.symm.trans hrequest')
  obtain rfl := Except.ok.inj (hresult.symm.trans hresult')
  exact ⟨rfl, Except.ok.inj (hverified.symm.trans hverified')⟩

theorem not_differs_of_agrees (hagrees : Agrees sha1 salvage part_start) : ¬ Differs sha1 salvage part_start := by
  rintro ⟨ours', verified', hcompared', pair, hpair, hne⟩
  obtain ⟨ours, verified, hcompared, hequal⟩ := hagrees
  obtain ⟨rfl, rfl⟩ := compared_unique hcompared hcompared'
  exact hne (hequal pair hpair)

end Compared

section Turns

variable {sha1 : HashFn 20} {salvage : Salvage} {part_file : Option Bytes} {ranges : List (Nat × Nat)}
  {part : Nat × Nat}

/-- What one turn of the loop appends. -/
structure Appended (sha1 : HashFn 20) (salvage : Salvage) (ranges : List (Nat × Nat)) (part_start : Nat)
    (blocks : List (Nat × Nat)) : Prop where
  inside : ∀ range ∈ blocks, InsidePart salvage.size part_start range
  narrowed : Differs sha1 salvage part_start → blocks ≠ []
  whole : ¬ Differs sha1 salvage part_start → ranges = [] ∨ ¬ Agrees sha1 salvage part_start →
    whole_part salvage.size part_start ∈ blocks
  nothing : Agrees sha1 salvage part_start → ranges ≠ [] → blocks = []

/-- A turn that punches the part as a whole, which an agreeing part allows only in front. -/
theorem appended_whole (hstart : part.1 < salvage.size) (hfirst : Agrees sha1 salvage part.1 → ranges = []) :
    Appended sha1 salvage ranges part.1 [whole_part salvage.size part.1] where
  inside := by
    intro range hrange
    obtain rfl := List.mem_singleton.mp hrange
    exact insidePart_whole hstart
  narrowed := fun _ => List.cons_ne_nil _ _
  whole := fun _ _ => List.mem_singleton_self _
  nothing := fun hagrees hranges => absurd (hfirst hagrees) hranges

theorem not_agrees_of_not_compared (hcompared : ∀ ours verified, ¬ Compared sha1 salvage part.1 ours verified) :
    ¬ Agrees sha1 salvage part.1 :=
  fun ⟨ours, verified, hagrees, _⟩ => hcompared ours verified hagrees

theorem appended_differing {ours verified : List Bytes}
    (hcompared : Compared sha1 salvage part.1 ours verified)
    (hblocks : verified.length ≤ block_count (min PARTSIZE (salvage.size - part.1)))
    (hdiffers : ∃ pair ∈ ours.zip verified, pair.1 ≠ pair.2) :
    Appended sha1 salvage ranges part.1
      (differing_blocks part.1 (min PARTSIZE (salvage.size - part.1)) ours verified) where
  inside := fun _ hrange => differing_blocks_inside hblocks hrange
  narrowed := by
    obtain ⟨pair, hpair, hne⟩ := hdiffers
    exact fun _ hnone => hne (differing_blocks_eq_nil_iff.mp hnone pair hpair)
  whole := fun hnot => absurd ⟨ours, verified, hcompared, hdiffers⟩ hnot
  nothing := fun hagrees => absurd ⟨ours, verified, hcompared, hdiffers⟩ (not_differs_of_agrees hagrees)

theorem appended_agreeing (hranges : ranges ≠ []) (hagrees : Agrees sha1 salvage part.1) :
    Appended sha1 salvage ranges part.1 [] where
  inside := by simp
  narrowed := fun hdiffers => absurd hdiffers (not_differs_of_agrees hagrees)
  whole := fun _ hwhole => absurd hwhole (not_or.mpr ⟨hranges, not_not.mpr hagrees⟩)
  nothing := fun _ _ => rfl

theorem narrow_part_no_recovery {image stored : Bytes}
    (hnone : ∀ recovery, salvage.request_aich (part.1 / PARTSIZE) = .ok recovery → recovery = []) :
    narrow_part sha1 salvage (some image) stored ranges part.1 = .ok (ranges, false) := by
  simp only [narrow_part, pure_eq_ok, ok_bind]
  cases hrequest : salvage.request_aich (part.1 / PARTSIZE) with
  | error exc => rfl
  | ok recovery =>
    obtain rfl := hnone recovery hrequest
    rfl

theorem narrow_part_recovery {image stored recovery : Bytes}
    (hrequest : salvage.request_aich (part.1 / PARTSIZE) = .ok recovery) (hrecovery : recovery ≠ []) :
    narrow_part sha1 salvage (some image) stored ranges part.1 = (do
      let verified ← aich_verified_part_blocks sha1 recovery (part.1 / PARTSIZE : Nat) salvage.size stored
      let ours ← aich_hash_data sha1 (image.extract part.1 (whole_part salvage.size part.1).2)
      let blocks := differing_blocks part.1 (min PARTSIZE (salvage.size - part.1)) ours.block_hashes verified
      pure (ranges ++ blocks, decide (ranges ++ blocks ≠ []))) := by
  rw [narrow_part]
  simp only [pure_eq_ok, ok_bind]
  rw [hrequest]
  simp only
  rw [if_neg hrecovery, whole_part]

/-- Where the peer's data authenticates. -/
theorem salvage_part_compared {image stored recovery : Bytes} {verified : List Bytes} {result : AichHashResult}
    (hstored : salvage.stored = some stored)
    (hrequest : salvage.request_aich (part.1 / PARTSIZE) = .ok recovery) (hrecovery : recovery ≠ [])
    (hverified : aich_verified_part_blocks sha1 recovery (part.1 / PARTSIZE : Nat) salvage.size stored =
      .ok verified)
    (hresult : aich_hash_data sha1 (image.extract part.1 (whole_part salvage.size part.1).2) = .ok result) :
    salvage_part sha1 salvage (some image) ranges part =
      (let found := ranges ++
        differing_blocks part.1 (min PARTSIZE (salvage.size - part.1)) result.block_hashes verified
      if found = [] then .ok (found ++ [whole_part salvage.size part.1]) else .ok found) := by
  rw [salvage_part, hstored]
  simp only
  rw [narrow_part_recovery hrequest hrecovery, hverified, ok_bind, hresult, ok_bind, pure_eq_ok]
  split
  · rename_i found hfound
    obtain ⟨rfl, hne⟩ := Prod.mk.inj (Except.ok.inj hfound)
    rw [if_neg (of_decide_eq_true hne)]
  · rename_i found hfound
    obtain ⟨rfl, hnil⟩ := Prod.mk.inj (Except.ok.inj hfound)
    rw [if_pos (not_not.mp (of_decide_eq_false hnil))]
  · cases ‹Except.ok _ = Except.error _›
  · cases ‹Except.ok _ = Except.error _›

theorem length_verified_part_blocks {size : Nat} {recovery stored : Bytes} {verified : List Bytes}
    (haligned : PARTSIZE ∣ part.1)
    (hverified : aich_verified_part_blocks sha1 recovery (part.1 / PARTSIZE : Nat) size stored = .ok verified) :
    verified.length = block_count (min PARTSIZE (size - part.1)) := by
  obtain ⟨part_start, part_size, _, _, hrange, hlength, _⟩ := aich_verified_part_blocks_ok sha1 hverified
  obtain ⟨hpart, _, _, rfl⟩ := part_range_eq_ok hrange
  rw [← Int.natCast_mul, Nat.div_mul_cancel haligned, Int.natCast_inj] at hpart
  rw [hlength, hpart]

variable (sha1 ranges) in
theorem appended_of_verified {image stored recovery : Bytes} {verified : List Bytes}
    (hentry : salvage.entry = some (some image)) (haligned : PARTSIZE ∣ part.1) (hstart : part.1 < salvage.size)
    (hstored : salvage.stored = some stored)
    (hrequest : salvage.request_aich (part.1 / PARTSIZE) = .ok recovery) (hrecovery : recovery ≠ [])
    (hverified : aich_verified_part_blocks sha1 recovery (part.1 / PARTSIZE : Nat) salvage.size stored =
      .ok verified) :
    ∃ blocks, salvage_part sha1 salvage (some image) ranges part = .ok (ranges ++ blocks) ∧
      Appended sha1 salvage ranges part.1 blocks := by
  obtain ⟨result, hresult⟩ := aich_hash_data_ok sha1 (image.extract part.1 (whole_part salvage.size part.1).2)
  have hcompared : Compared sha1 salvage part.1 result.block_hashes verified :=
    ⟨stored, image, recovery, result, hstored, hentry, hrequest, hrecovery, hverified, hresult, rfl⟩
  rw [salvage_part_compared hstored hrequest hrecovery hverified hresult]
  by_cases hequal : ∀ pair ∈ result.block_hashes.zip verified, pair.1 = pair.2
  · rw [differing_blocks_eq_nil_iff.mpr hequal, List.append_nil]
    by_cases hranges : ranges = []
    · rw [hranges]
      exact ⟨[whole_part salvage.size part.1], rfl, appended_whole hstart fun _ => rfl⟩
    · simp only [if_neg hranges]
      exact ⟨[], by rw [List.append_nil], appended_agreeing hranges ⟨_, _, hcompared, hequal⟩⟩
  · have hdiffers : ∃ pair ∈ result.block_hashes.zip verified, pair.1 ≠ pair.2 := by
      simpa only [not_forall, exists_prop] using hequal
    have hblocks := Nat.le_of_eq (length_verified_part_blocks haligned hverified)
    have happended : Appended sha1 salvage ranges part.1 _ := appended_differing hcompared hblocks hdiffers
    have hfound : ranges ++ differing_blocks part.1 (min PARTSIZE (salvage.size - part.1))
        result.block_hashes verified ≠ [] :=
      List.append_ne_nil_of_right_ne_nil _ (happended.narrowed ⟨_, _, hcompared, hdiffers⟩)
    simp only [if_neg hfound]
    exact ⟨_, rfl, happended⟩

variable (sha1 ranges) in
theorem salvage_part_guarded (hentry : salvage.entry = some part_file) (haligned : PARTSIZE ∣ part.1)
    (hstart : part.1 < salvage.size) (hguarded : Guarded salvage part_file part.1) :
    ∃ blocks, salvage_part sha1 salvage part_file ranges part = .ok (ranges ++ blocks) ∧
      Appended sha1 salvage ranges part.1 blocks := by
  have hunnarrowed : (∀ ours verified, ¬ Compared sha1 salvage part.1 ours verified) →
      Appended sha1 salvage ranges part.1 [whole_part salvage.size part.1] := fun hcompared =>
    appended_whole hstart fun hagrees => absurd hagrees (not_agrees_of_not_compared hcompared)
  cases hstored : salvage.stored with
  | none =>
    refine ⟨[whole_part salvage.size part.1], by rw [salvage_part, hstored], hunnarrowed ?_⟩
    rintro ours verified ⟨stored, _, _, _, hsome, _⟩
    cases hstored.symm.trans hsome
  | some stored =>
    obtain hnone | ⟨hopens, hframed⟩ := hguarded
    · cases hstored.symm.trans hnone
    obtain ⟨image, rfl⟩ := Option.ne_none_iff_exists'.mp hopens
    by_cases hnone : ∀ recovery, salvage.request_aich (part.1 / PARTSIZE) = .ok recovery → recovery = []
    · refine ⟨[whole_part salvage.size part.1], ?_, hunnarrowed ?_⟩
      · rw [salvage_part, hstored]
        simp only
        rw [narrow_part_no_recovery hnone]
      · rintro ours verified ⟨_, _, recovery, _, _, _, hrequest, hrecovery, _⟩
        exact hrecovery (hnone recovery hrequest)
    obtain ⟨recovery, hnone⟩ := not_forall.mp hnone
    obtain ⟨hrequest, hrecovery⟩ := Classical.not_imp.mp hnone
    have hframed := (hframed recovery hrequest).resolve_left hrecovery
    cases hverified : aich_verified_part_blocks sha1 recovery (part.1 / PARTSIZE : Nat) salvage.size stored with
    | error exc =>
      obtain ⟨message, rfl⟩ := onlyAichError_verified sha1 hframed stored exc hverified
      refine ⟨[whole_part salvage.size part.1], ?_, hunnarrowed ?_⟩
      · rw [salvage_part, hstored]
        simp only
        rw [narrow_part_recovery hrequest hrecovery, hverified, error_bind]
      · rintro ours verified ⟨stored', _, recovery', _, hstored', _, hrequest', _, hverified', _⟩
        obtain rfl := Option.some.inj (hstored.symm.trans hstored')
        obtain rfl := Except.ok.inj (hrequest.symm.trans hrequest')
        cases hverified.symm.trans hverified'
    | ok verified =>
      exact appended_of_verified sha1 ranges hentry haligned hstart hstored hrequest hrecovery hverified

/-- A turn that does not raise was guarded. -/
theorem guarded_of_salvage_part_ok {result : List (Nat × Nat)} (haligned : PARTSIZE ∣ part.1)
    (hstart : part.1 < salvage.size) (hok : salvage_part sha1 salvage part_file ranges part = .ok result) :
    Guarded salvage part_file part.1 := by
  cases hstored : salvage.stored with
  | none => exact .inl hstored
  | some stored =>
    rw [salvage_part, hstored] at hok
    simp only at hok
    cases part_file with
    | none => cases hok
    | some image =>
      refine .inr ⟨Option.some_ne_none image, fun recovery hrequest => ?_⟩
      by_contra hraises
      obtain ⟨hrecovery, hcut⟩ := not_or.mp hraises
      have hinside : part.1 / PARTSIZE * PARTSIZE < salvage.size := by rwa [Nat.div_mul_cancel haligned]
      rw [narrow_part_recovery hrequest hrecovery, aich_verified_part_blocks_of_not_framed sha1 hinside hcut,
        error_bind] at hok
      cases hok

theorem appended_of_salvage_part_ok {result : List (Nat × Nat)} (hentry : salvage.entry = some part_file)
    (haligned : PARTSIZE ∣ part.1) (hstart : part.1 < salvage.size)
    (hok : salvage_part sha1 salvage part_file ranges part = .ok result) :
    ∃ blocks, result = ranges ++ blocks ∧ Appended sha1 salvage ranges part.1 blocks := by
  obtain ⟨blocks, hblocks, happended⟩ := salvage_part_guarded sha1 ranges hentry haligned hstart
    (guarded_of_salvage_part_ok haligned hstart hok)
  exact ⟨blocks, Except.ok.inj (hok.symm.trans hblocks), happended⟩

end Turns

section Loop

variable {sha1 : HashFn 20} {salvage : Salvage} {part_file : Option Bytes} {ranges result : List (Nat × Nat)}
  {parts : List (Nat × Nat)}

theorem punchesEveryPart_cons {part : Nat × Nat}
    (hwhole : (∃ range ∈ result, InsidePart salvage.size part.1 range) ∧
      (¬ Differs sha1 salvage part.1 → whole_part salvage.size part.1 ∈ result))
    (hpunched : PunchesEveryPart sha1 salvage parts result) :
    PunchesEveryPart sha1 salvage (part :: parts) result := by
  intro other hother
  obtain rfl | hother := List.mem_cons.mp hother
  · exact hwhole
  · exact hpunched other hother

/-- A part punched by its own turn stays punched. -/
theorem Appended.punched {part_start : Nat} {blocks more : List (Nat × Nat)} (hstart : part_start < salvage.size)
    (happended : Appended sha1 salvage ranges part_start blocks)
    (hturn : ranges = [] ∨ ¬ Agrees sha1 salvage part_start) :
    (∃ range ∈ ranges ++ blocks ++ more, InsidePart salvage.size part_start range) ∧
      (¬ Differs sha1 salvage part_start → whole_part salvage.size part_start ∈ ranges ++ blocks ++ more) := by
  have hwhole : ¬ Differs sha1 salvage part_start →
      whole_part salvage.size part_start ∈ ranges ++ blocks ++ more := by
    intro hnot
    have hmem := happended.whole hnot hturn
    simp [hmem]
  refine ⟨?_, hwhole⟩
  by_cases hdiffers : Differs sha1 salvage part_start
  · obtain ⟨range, hrange⟩ := List.exists_mem_of_ne_nil blocks (happended.narrowed hdiffers)
    exact ⟨range, by simp [hrange], happended.inside range hrange⟩
  · exact ⟨_, hwhole hdiffers, insidePart_whole hstart⟩

/-- Every turn behind the first, with a list that is no longer empty. -/
theorem salvage_loop_punches (hentry : salvage.entry = some part_file)
    (hstarts : ∀ part ∈ parts, PARTSIZE ∣ part.1 ∧ part.1 < salvage.size)
    (hguarded : ∀ part ∈ parts, Guarded salvage part_file part.1)
    (hturns : ∀ part ∈ parts, ranges = [] ∨ ¬ Agrees sha1 salvage part.1)
    (hlater : ∀ part ∈ parts.tail, ¬ Agrees sha1 salvage part.1) :
    ∃ more, parts.foldlM (salvage_part sha1 salvage part_file) ranges = .ok (ranges ++ more) ∧
      PunchesEveryPart sha1 salvage parts (ranges ++ more) := by
  induction parts generalizing ranges with
  | nil => exact ⟨[], by rw [List.append_nil]; rfl, by simp [PunchesEveryPart]⟩
  | cons part parts ih =>
    have hhead : part ∈ part :: parts := List.mem_cons_self
    obtain ⟨haligned, hstart⟩ := hstarts part hhead
    obtain ⟨blocks, hturn, happended⟩ :=
      salvage_part_guarded sha1 ranges hentry haligned hstart (hguarded part hhead)
    obtain ⟨more, hfold, hpunched⟩ := @ih (ranges ++ blocks)
      (fun other hother => hstarts other (List.mem_cons_of_mem _ hother))
      (fun other hother => hguarded other (List.mem_cons_of_mem _ hother))
      (fun other hother => .inr (hlater other hother))
      (fun other hother => hlater other (List.mem_of_mem_tail hother))
    refine ⟨blocks ++ more, ?_, ?_⟩
    · rw [List.foldlM_cons, hturn, ok_bind, hfold, List.append_assoc]
    · rw [← List.append_assoc]
      exact punchesEveryPart_cons (happended.punched hstart (hturns part hhead)) hpunched

/-- Every range of the list lies inside one of the parts that were worked on. -/
theorem mem_salvage_loop (hentry : salvage.entry = some part_file)
    (hstarts : ∀ part ∈ parts, PARTSIZE ∣ part.1 ∧ part.1 < salvage.size)
    (hfold : parts.foldlM (salvage_part sha1 salvage part_file) ranges = .ok result) {range : Nat × Nat}
    (hrange : range ∈ result) : range ∈ ranges ∨ ∃ part ∈ parts, InsidePart salvage.size part.1 range := by
  induction parts generalizing ranges with
  | nil =>
    obtain rfl := Except.ok.inj hfold
    exact .inl hrange
  | cons part parts ih =>
    have hhead : part ∈ part :: parts := List.mem_cons_self
    obtain ⟨haligned, hstart⟩ := hstarts part hhead
    rw [List.foldlM_cons, bind_eq_ok_iff] at hfold
    obtain ⟨found, hturn, hfold⟩ := hfold
    obtain ⟨blocks, rfl, happended⟩ := appended_of_salvage_part_ok hentry haligned hstart hturn
    obtain hfound | ⟨other, hother, hinside⟩ :=
      ih (fun other hother => hstarts other (List.mem_cons_of_mem _ hother)) hfold
    · obtain hfound | hfound := List.mem_append.mp hfound
      · exact .inl hfound
      · exact .inr ⟨part, hhead, happended.inside range hfound⟩
    · exact .inr ⟨other, List.mem_cons_of_mem _ hother, hinside⟩

theorem guarded_of_salvage_loop_ok (hstarts : ∀ part ∈ parts, PARTSIZE ∣ part.1 ∧ part.1 < salvage.size)
    (hfold : parts.foldlM (salvage_part sha1 salvage part_file) ranges = .ok result) :
    ∀ part ∈ parts, Guarded salvage part_file part.1 := by
  induction parts generalizing ranges with
  | nil => simp
  | cons part parts ih =>
    obtain ⟨haligned, hstart⟩ := hstarts part List.mem_cons_self
    rw [List.foldlM_cons, bind_eq_ok_iff] at hfold
    obtain ⟨found, hturn, hfold⟩ := hfold
    intro other hother
    obtain rfl | hother := List.mem_cons.mp hother
    · exact guarded_of_salvage_part_ok haligned hstart hturn
    · exact ih (fun other hother => hstarts other (List.mem_cons_of_mem _ hother)) hfold other hother

/-- From the first part on the shared list is not empty. -/
theorem salvage_loop_ne_nil (hentry : salvage.entry = some part_file)
    (hstarts : ∀ part ∈ parts, PARTSIZE ∣ part.1 ∧ part.1 < salvage.size)
    (hfold : parts.foldlM (salvage_part sha1 salvage part_file) ranges = .ok result)
    (hsome : parts ≠ [] ∨ ranges ≠ []) : result ≠ [] := by
  induction parts generalizing ranges with
  | nil =>
    obtain rfl := Except.ok.inj hfold
    exact hsome.resolve_left (not_not.mpr rfl)
  | cons part parts ih =>
    obtain ⟨haligned, hstart⟩ := hstarts part List.mem_cons_self
    rw [List.foldlM_cons, bind_eq_ok_iff] at hfold
    obtain ⟨found, hturn, hfold⟩ := hfold
    obtain ⟨blocks, rfl, happended⟩ := appended_of_salvage_part_ok hentry haligned hstart hturn
    refine ih (fun other hother => hstarts other (List.mem_cons_of_mem _ hother)) hfold (.inr ?_)
    by_cases hranges : ranges = []
    · have hpunched : ∃ range ∈ ranges ++ blocks ++ [], InsidePart salvage.size part.1 range :=
        (happended.punched hstart (.inl hranges)).1
      obtain ⟨range, hrange, _⟩ := hpunched
      rw [List.append_nil] at hrange
      exact List.ne_nil_of_mem hrange
    · exact List.append_ne_nil_of_left_ne_nil hranges _

/-- A part behind the first that agrees is left out. -/
theorem not_mem_of_agrees {corrupt_parts : List (Nat × Nat)} (hcorrupt : CorruptParts salvage.size corrupt_parts)
    (hentry : salvage.entry = some part_file)
    (hfold : corrupt_parts.foldlM (salvage_part sha1 salvage part_file) [] = .ok result)
    {part : Nat × Nat} (hpart : part ∈ corrupt_parts.tail) (hagrees : Agrees sha1 salvage part.1) :
    whole_part salvage.size part.1 ∉ result := by
  obtain ⟨hstarts, hdistinct⟩ := hcorrupt
  cases corrupt_parts with
  | nil => cases hpart
  | cons first later =>
    obtain ⟨front, back, hlater⟩ := List.append_of_mem hpart
    rw [List.tail_cons] at hlater
    obtain rfl := hlater
    rw [← List.cons_append] at hfold hdistinct hstarts
    rw [List.foldlM_append, bind_eq_ok_iff] at hfold
    obtain ⟨found, hfront, hfold⟩ := hfold
    rw [List.foldlM_cons, bind_eq_ok_iff] at hfold
    obtain ⟨found', hturn, hback⟩ := hfold
    have hstarts_front := fun other hother => hstarts other (List.mem_append_left (part :: back) hother)
    have hstarts_back := fun other hother => hstarts other
      (List.mem_append_right (first :: front) (List.mem_cons_of_mem part hother))
    obtain ⟨haligned, hstart⟩ := hstarts part (List.mem_append_right _ List.mem_cons_self)
    have hfound := salvage_loop_ne_nil hentry hstarts_front hfront (.inl (List.cons_ne_nil _ _))
    obtain ⟨blocks, rfl, happended⟩ := appended_of_salvage_part_ok hentry haligned hstart hturn
    obtain rfl := happended.nothing hagrees hfound
    -- every range comes from the turn of another part
    have hother : ∀ other ∈ first :: front ++ back,
        ¬ InsidePart salvage.size other.1 (whole_part salvage.size part.1) := by
      intro other hother hinside
      rw [List.map_append, List.map_cons (a := part), List.nodup_middle, ← List.map_append] at hdistinct
      have hmem : other ∈ first :: front ++ part :: back := by
        obtain hother | hother := List.mem_append.mp hother
        · exact List.mem_append_left _ hother
        · exact List.mem_append_right _ (List.mem_cons_of_mem part hother)
      have hsame := insidePart_unique (hstarts other hmem).1 haligned hinside (insidePart_whole hstart)
      exact (List.nodup_cons.mp hdistinct).1 (hsame ▸ List.mem_map_of_mem hother)
    intro hwhole
    obtain hwhole | ⟨other, hmem, hinside⟩ := mem_salvage_loop hentry hstarts_back hback hwhole
    · rw [List.append_nil] at hwhole
      obtain hwhole | ⟨other, hmem, hinside⟩ := mem_salvage_loop hentry hstarts_front hfront hwhole
      · cases hwhole
      · exact hother other (List.mem_append_left _ hmem) hinside
    · exact hother other (List.mem_append_right _ hmem) hinside

end Loop

/-- The check of the parts hands over each part once. -/
theorem corruptParts_verify_parts (md4 : HashFn 16) (part_file : Option Bytes) (size : Nat)
    (hashset : peer.HashSetAnswer) :
    CorruptParts size (verify_parts_against_hashset md4 part_file size hashset) := by
  have hnil : CorruptParts size [] := ⟨by simp, List.nodup_nil⟩
  simp only [verify_parts_against_hashset]
  split
  · exact hnil
  cases part_file with
  | none => exact hnil
  | some handle =>
    simp only
    constructor
    · intro part hpart
      obtain ⟨index, hindex, hsome⟩ := List.mem_filterMap.mp hpart
      split at hsome
      · obtain rfl := Option.some.inj hsome
        exact ⟨Nat.dvd_mul_left PARTSIZE index, start_lt_of_lt_part_count (List.mem_range.mp hindex)⟩
      · cases hsome
    · rw [List.map_filterMap]
      refine List.nodup_range.filterMap fun index other start hstart hother => ?_
      obtain ⟨part, hpart, rfl⟩ := Option.map_eq_some_iff.mp hstart
      obtain ⟨part', hpart', hsame⟩ := Option.map_eq_some_iff.mp hother
      split at hpart
      · split at hpart'
        · obtain rfl := Option.some.inj hpart
          obtain rfl := Option.some.inj hpart'
          exact (Nat.eq_of_mul_eq_mul_right (by decide : 0 < PARTSIZE) hsame).symm
        · cases hpart'
      · cases hpart

section Punches

variable (sha1 : HashFn 20) {salvage : Salvage} {corrupt_parts : List (Nat × Nat)}

theorem punchesEveryPart_whole (hcorrupt : CorruptParts salvage.size corrupt_parts) {ranges : List (Nat × Nat)}
    (hwhole : ∀ part ∈ corrupt_parts, whole_part salvage.size part.1 ∈ ranges) :
    PunchesEveryPart sha1 salvage corrupt_parts ranges :=
  fun part hpart =>
    ⟨⟨_, hwhole part hpart, insidePart_whole (hcorrupt.start part hpart).2⟩, fun _ => hwhole part hpart⟩

theorem not_differs_of_no_entry (hentry : salvage.entry = none) (part_start : Nat) :
    ¬ Differs sha1 salvage part_start := by
  rintro ⟨_, _, ⟨_, _, _, _, _, hsome, _⟩, _⟩
  cases hentry.symm.trans hsome

/-- Every corrupt part is punched, as a whole where it was not narrowed, exactly when no part behind
the first is one that the peer's data shows intact, and nothing escapes the salvage. -/
theorem aich_narrow_corrupt_punches_iff (hcorrupt : CorruptParts salvage.size corrupt_parts) :
    (∃ ranges, aich_narrow_corrupt sha1 salvage corrupt_parts = .ok ranges ∧
        PunchesEveryPart sha1 salvage corrupt_parts ranges) ↔ Salvageable sha1 salvage corrupt_parts := by
  rw [aich_narrow_corrupt, Salvageable]
  cases hentry : salvage.entry with
  | none =>
    simp only [Except.ok.injEq, exists_eq_left']
    constructor
    · intro hpunched part hpart
      have hwhole := (hpunched part hpart).2 (not_differs_of_no_entry sha1 hentry part.1)
      exact List.inj_on_of_nodup_map hcorrupt.distinct hpart hwhole rfl
    · intro hfull
      exact punchesEveryPart_whole sha1 hcorrupt fun part hpart => hfull part hpart ▸ hpart
  | some part_file =>
    simp only
    constructor
    · rintro ⟨ranges, hfold, hpunched⟩
      refine ⟨guarded_of_salvage_loop_ok hcorrupt.start hfold, fun part hpart hagrees => ?_⟩
      exact not_mem_of_agrees hcorrupt hentry hfold hpart hagrees
        ((hpunched part (List.mem_of_mem_tail hpart)).2 (not_differs_of_agrees hagrees))
    · rintro ⟨hguarded, hlater⟩
      obtain ⟨more, hfold, hpunched⟩ :=
        salvage_loop_punches hentry hcorrupt.start hguarded (fun _ _ => .inl rfl) hlater
      exact ⟨[] ++ more, hfold, hpunched⟩

/-- A file of one byte, without a stored master. -/
theorem aich_narrow_corrupt_punches_one_byte :
    ∃ ranges, aich_narrow_corrupt (zeroHash 20) ⟨1, some (some [7]), none, fun _ => .error .OSError⟩ [(0, 1)] =
        .ok ranges ∧
      PunchesEveryPart (zeroHash 20) ⟨1, some (some [7]), none, fun _ => .error .OSError⟩ [(0, 1)] ranges := by
  have hcorrupt : CorruptParts 1 [(0, 1)] := by
    refine ⟨fun part hpart => ?_, List.nodup_singleton 0⟩
    obtain rfl := List.mem_singleton.mp hpart
    exact ⟨Nat.dvd_zero _, Nat.one_pos⟩
  exact (@aich_narrow_corrupt_punches_iff (zeroHash 20) ⟨1, some (some [7]), none, fun _ => .error .OSError⟩
    [(0, 1)] hcorrupt).mpr ⟨fun _ _ => .inl rfl, by simp⟩

/-- The blob of the very bytes that the file holds shows every block of the part intact. -/
theorem agrees_of_own_blob {data blob : Bytes} {result : AichHashResult} {index : Nat}
    {request_aich : Nat → Except Exc Bytes} (hresult : aich_hash_data sha1 data = .ok result)
    (hlarge : BLOCKSIZE < data.length) (hpart : index * PARTSIZE < data.length)
    (hblob : aich_part_recovery_data sha1 result index = .ok blob) (hrequest : request_aich index = .ok blob) :
    Agrees sha1 ⟨data.length, some (some data), some result.master_hash, request_aich⟩ (index * PARTSIZE) := by
  have hindex : index * PARTSIZE / PARTSIZE = index := Nat.mul_div_cancel index (by decide)
  obtain ⟨hverified, _⟩ := aich_part_recovery_data_round_trip sha1 hresult hlarge hpart hblob
  have hblob : blob ≠ [] := by
    rintro rfl
    have hcut : ¬ Framed [] := by
      rintro ⟨hbehind, _⟩
      exact absurd hbehind (by decide)
    cases (aich_verified_part_blocks_of_not_framed sha1 hpart hcut result.master_hash).symm.trans hverified
  have hwhole : (whole_part data.length (index * PARTSIZE)).2 =
      index * PARTSIZE + min PARTSIZE (data.length - index * PARTSIZE) := rfl
  have hpos : 0 < min PARTSIZE (data.length - index * PARTSIZE) := by
    simp only [PARTSIZE] at *
    omega
  have hlength : (data.extract (index * PARTSIZE) (whole_part data.length (index * PARTSIZE)).2).length =
      min PARTSIZE (data.length - index * PARTSIZE) := by
    rw [hwhole, length_extract_of_le (by omega)]
    omega
  obtain ⟨part_result, hpart_result, _, _, hours⟩ := aich_hash_data_spec sha1 (show
    0 < (data.extract (index * PARTSIZE) (whole_part data.length (index * PARTSIZE)).2).length by omega)
  rw [hlength, leaves_digestTree_of_le sha1 _ hpos (Nat.min_le_left _ _), hwhole, partBlockHashes_extract] at hours
  refine ⟨part_result.block_hashes,
    partBlockHashes sha1 data (index * PARTSIZE) (min PARTSIZE (data.length - index * PARTSIZE)),
    ⟨_, data, blob, part_result, rfl, rfl, ?_, hblob, ?_, hpart_result, rfl⟩, ?_⟩
  · rw [hindex]
    exact hrequest
  · rw [hindex]
    exact hverified
  · intro pair hpair
    rw [hours] at hpair
    obtain ⟨block_index, hget⟩ := List.mem_iff_getElem?.mp hpair
    obtain ⟨hours_h, hverified_h⟩ := List.getElem?_zip_eq_some.mp hget
    exact Option.some.inj (hours_h.symm.trans hverified_h)

/-- Two parts: the peer does not answer for the first, and its data shows the second intact. -/
theorem aich_narrow_corrupt_skips_second :
    ¬ ∀ (sha1 : HashFn 20) (salvage : Salvage) (corrupt_parts : List (Nat × Nat)),
      CorruptParts salvage.size corrupt_parts →
      ∃ ranges, aich_narrow_corrupt sha1 salvage corrupt_parts = .ok ranges ∧
        PunchesEveryPart sha1 salvage corrupt_parts ranges := by
  intro hall
  obtain ⟨data, hlength⟩ : ∃ data : Bytes, data.length = PARTSIZE + 1 :=
    ⟨List.replicate (PARTSIZE + 1) 7, List.length_replicate⟩
  have hlarge : BLOCKSIZE < data.length := by
    rw [hlength]
    decide
  have hpart : 1 * PARTSIZE < data.length := by
    rw [hlength]
    decide
  have height : data.length ≤ 8 * PARTSIZE := by
    rw [hlength]
    decide
  obtain ⟨result, hresult, _⟩ := aich_hash_data_spec (zeroHash 20) (Nat.zero_lt_of_lt hlarge)
  obtain ⟨blob, hblob⟩ := aich_part_recovery_data_exists (zeroHash 20) hresult hlarge height
    (part_range_natCast hpart)
  -- the first answer is an exception, as of a peer that does not reply in time
  let request_aich : Nat → Except Exc Bytes := fun index => if index = 0 then .error .OSError else .ok blob
  have hrequest : request_aich 1 = .ok blob := rfl
  have hagrees := agrees_of_own_blob (zeroHash 20) hresult hlarge hpart hblob hrequest
  have hcorrupt : CorruptParts data.length [(0, PARTSIZE), (1 * PARTSIZE, data.length)] := by
    refine ⟨fun part hmem => ?_, by simp [PARTSIZE]⟩
    obtain rfl | hmem := List.mem_cons.mp hmem
    · exact ⟨Nat.dvd_zero _, Nat.zero_lt_of_lt hpart⟩
    · obtain rfl := List.mem_singleton.mp hmem
      exact ⟨Nat.dvd_mul_left _ _, hpart⟩
  let salvage : Salvage := ⟨data.length, some (some data), some result.master_hash, request_aich⟩
  obtain ⟨ranges, hfold, hpunched⟩ := hall (zeroHash 20) salvage _ hcorrupt
  have hskipped : whole_part salvage.size (1 * PARTSIZE) ∉ ranges :=
    not_mem_of_agrees hcorrupt rfl hfold List.mem_cons_self hagrees
  have hmem : (1 * PARTSIZE, data.length) ∈ [(0, PARTSIZE), (1 * PARTSIZE, data.length)] :=
    List.mem_cons_of_mem _ List.mem_cons_self
  exact hskipped ((hpunched _ hmem).2 (not_differs_of_agrees hagrees))

end Punches

end Salvage

end amuled.download
