import AmuleD.Download.GapHistory
import AmuleD.Download.Ics.Sessions
import AmuleD.Download.Ics.Sound
import AmuleD.Download.Incoming

open halfopen intervals leasing

namespace amuled.download.ics

section Windows

variable {total_size : Int} {gaps : List Range} {taken : Range → Prop}

/-- A range that is taken holds a window of a part as a whole or no byte of it. -/
def WindowsWhole (total_size : Int) (gaps : List Range) (taken : Range → Prop) : Prop :=
  ∀ part window, IsWindow total_size gaps part window → ∀ range, taken range → ∀ x, InRange window x →
    InRange range x → ∀ y, InRange window y → InRange range y

theorem WindowsWhole.contiguous {requested : List Range}
    (h : WindowsWhole total_size gaps fun range => range ∈ requested) (available : List Nat) :
    FreeWindowsContiguous total_size gaps available requested := by
  intro part _ _ window hwindow x y z hx hxy hyz hz hfree _ hcovered
  obtain ⟨range, hrange, hin⟩ := hcovered
  have hxin := h part window hwindow range hrange y ⟨by omega, by omega⟩ hin x ⟨hx, by omega⟩
  exact hfree ⟨range, hrange, hxin⟩

/-- Gaps that lie inside the old ones have their windows inside the old windows. -/
theorem WindowsWhole.shrink (h : WindowsWhole total_size gaps taken) {left : List Range}
    (hinside : ∀ gap ∈ left, ∃ outer ∈ gaps, outer.1 ≤ gap.1 ∧ gap.2 ≤ outer.2) :
    WindowsWhole total_size left taken := by
  rintro part window ⟨gap, hgap, index, rfl, hnonempty⟩ range hrange x hx hin y hy
  obtain ⟨outer, houter, hlow, hhigh⟩ := hinside gap hgap
  have hinto : ∀ point, InRange (max gap.1 ((part_bounds part total_size).1 + index * EMBLOCK_SIZE),
      min gap.2 (min (part_bounds part total_size).2
        ((part_bounds part total_size).1 + (index + 1) * EMBLOCK_SIZE - 1))) point →
      InRange (max outer.1 ((part_bounds part total_size).1 + index * EMBLOCK_SIZE),
        min outer.2 (min (part_bounds part total_size).2
          ((part_bounds part total_size).1 + (index + 1) * EMBLOCK_SIZE - 1))) point := by
    intro point hpoint
    exact ⟨Int.le_trans (max_le_max_right _ hlow) hpoint.1, Int.le_trans hpoint.2 (min_le_min_right _ hhigh)⟩
  refine h part _ ⟨outer, houter, index, rfl, ?_⟩ range hrange x (hinto x hx) hin y (hinto y hy)
  exact Int.le_trans (hinto x hx).1 (hinto x hx).2

theorem WindowsWhole.select_step {catalog : Catalog}
    (hgaps : catalog.gaps.Pairwise fun first second => first.2 < second.1) {turn : Nat} {sel next : Selection}
    (h : WindowsWhole catalog.total_size catalog.gaps fun range => range ∈ sel.req)
    (hstep : catalog.select_step turn sel = some next) :
    WindowsWhole catalog.total_size catalog.gaps fun range => range ∈ next.req := by
  obtain ⟨chosen, _, _, ⟨_, rfl⟩ | ⟨block, hblock, rfl⟩⟩ := select_step_eq_some hstep
  · exact h
  · obtain ⟨window, hwindow, htrimmed⟩ := next_block_in_part_some hblock
    intro part other hother range hrange x hx hin y hy
    rcases List.mem_append.mp hrange with hold | hnew
    · exact h part other hother range hold x hx hin y hy
    · -- The block begins at a free byte, so no byte of its window is requested and it takes them all.
      obtain rfl := List.mem_singleton.mp hnew
      obtain rfl := hother.unique hgaps hwindow hx (htrimmed.inWindow hin)
      refine htrimmed.inRange hy ?_
      rintro ⟨requested, hrequested, hyin⟩
      have hfirst := htrimmed.inWindow ⟨Int.le_refl _, htrimmed.nonempty⟩
      exact htrimmed.start_free ⟨requested, hrequested, h part other hother requested hrequested y hy hyin _ hfirst⟩

theorem WindowsWhole.select_loop {catalog : Catalog}
    (hgaps : catalog.gaps.Pairwise fun first second => first.2 < second.1) (rounds turn : Nat) {sel : Selection}
    (h : WindowsWhole catalog.total_size catalog.gaps fun range => range ∈ sel.req) :
    WindowsWhole catalog.total_size catalog.gaps fun range => range ∈ (catalog.select_loop rounds turn sel).req := by
  induction rounds generalizing turn sel with
  | zero => exact h
  | succ rounds ih =>
    rw [Catalog.select_loop]
    split
    · exact h
    · rename_i next hstep
      exact ih (turn + 1) (h.select_step hgaps hstep)

/-- What a selection adds to the requested ranges where these hold every window as a whole or not at all. -/
theorem WindowsWhole.select_blocks {catalog : Catalog}
    (hgaps : catalog.gaps.Pairwise fun first second => first.2 < second.1) {requested : List Range}
    (h : WindowsWhole catalog.total_size catalog.gaps fun range => range ∈ requested) (last_part : Option Nat)
    (max_blocks : Nat) :
    let issued := (catalog.select_blocks last_part requested max_blocks).1
    SoundSelection catalog.total_size catalog.gaps catalog.available requested max_blocks issued ∧
      WindowsWhole catalog.total_size catalog.gaps fun range => range ∈ requested ++ issued := by
  have hcontiguous := h.contiguous catalog.available
  have hinv := (selectionInv_initial last_part hcontiguous).loop hgaps max_blocks 0
  refine ⟨select_blocks_sound catalog hgaps hcontiguous last_part max_blocks, ?_⟩
  rw [fst_select_blocks, ← hinv.req]
  exact WindowsWhole.select_loop hgaps max_blocks 0 h

end Windows

section Gaps

open DownloadQueue

variable {queue next : DownloadQueue} {file_hash : String}

/-- A part file is opened with the gaps of its sidecar, brought into order. -/
theorem resume_part_cases {path : Path} {part : PartFile} {disk : Disk}
    (hresume : queue.resume_part path = .ok (part, disk)) :
    ∃ sidecar, queue.sidecars.get path = some sidecar ∧ 0 < part.total_size ∧
      part.total_size = sidecar.total_size ∧ part.gaps = normalize_gaps sidecar.gaps part.total_size := by
  obtain ⟨resumed, hpart, hopened⟩ := bind_eq_ok_iff.mp hresume
  have hsame : resumed = part := by
    cases hfile : queue.files.get path with
    | none =>
      rw [hfile] at hopened
      cases hopened
    | some file =>
      rw [hfile] at hopened
      cases hopened
      rfl
  subst hsame
  simp only [PartFile.resume] at hpart
  cases hsidecar : queue.sidecars.get path with
  | none =>
    rw [hsidecar] at hpart
    cases hpart
  | some sidecar =>
    rw [hsidecar] at hpart
    obtain ⟨fresh, hnew, hgaps⟩ := bind_eq_ok_iff.mp hpart
    unfold PartFile.new at hnew
    split_ifs at hnew with hsize
    cases hnew
    cases hgaps
    exact ⟨sidecar, rfl, not_le.mp hsize, rfl, rfl⟩

theorem gap_ranges_cases {raw_gaps : List (Int × Int)} (hgaps : queue.gap_ranges file_hash = .ok raw_gaps) :
    ∃ hash row part disk, normalize_hash file_hash = .ok hash ∧ queue.rows.get hash = some row ∧
      queue.resume_part row.part_path = .ok (part, disk) ∧
      raw_gaps = part.gaps.map fun gap => (gap.start, gap.stop) := by
  obtain ⟨hash, hhash, hafter⟩ := bind_eq_ok_iff.mp hgaps
  obtain ⟨row, hfind, hafter⟩ := bind_eq_ok_iff.mp hafter
  obtain ⟨⟨part, disk⟩, hresume, hmap⟩ := bind_eq_ok_iff.mp hafter
  cases hmap
  exact ⟨hash, row, part, disk, hhash, find_eq_ok_iff.mp hfind, hresume, rfl⟩

theorem inclusive_gaps_of_canonical {gaps : List Gap} (hgaps : Canonical gaps) :
    inclusive_gaps (gaps.map fun gap => (gap.start, gap.stop)) = gaps.map fun gap => (gap.start, gap.stop - 1) := by
  rw [inclusive_gaps, List.filter_eq_self.mpr, List.map_map]
  · rfl
  · intro pair hpair
    obtain ⟨gap, hgap, rfl⟩ := List.mem_map.mp hpair
    exact decide_eq_true (hgaps.nonempty gap hgap)

/-- The gaps of the queue are in order. -/
theorem pairwise_inclusive_gaps {raw_gaps : List (Int × Int)} (hgaps : queue.gap_ranges file_hash = .ok raw_gaps) :
    (inclusive_gaps raw_gaps).Pairwise fun first second => first.2 < second.1 := by
  obtain ⟨hash, row, part, disk, _, _, hresume, rfl⟩ := gap_ranges_cases hgaps
  obtain ⟨sidecar, _, _, _, hnormal⟩ := resume_part_cases hresume
  have hcanonical : Canonical part.gaps := hnormal ▸ canonical_normalize_gaps _ _
  rw [inclusive_gaps_of_canonical hcanonical, List.pairwise_map]
  refine hcanonical.apart.imp ?_
  intro first second hbefore
  omega

theorem gap_ranges_of_part {hash : String} {row : Download} {part : PartFile} {disk : Disk}
    (hhash : normalize_hash file_hash = .ok hash) (hrow : queue.rows.get hash = some row)
    (hresume : queue.resume_part row.part_path = .ok (part, disk)) :
    queue.gap_ranges file_hash = .ok (part.gaps.map fun gap => (gap.start, gap.stop)) := by
  rw [gap_ranges, hhash]
  refine bind_eq_ok_iff.mpr ⟨hash, rfl, bind_eq_ok_iff.mpr ⟨row, find_eq_ok_iff.mpr hrow, ?_⟩⟩
  exact bind_eq_ok_iff.mpr ⟨(part, disk), hresume, rfl⟩

variable (queue) in
/-- A part file with its sidecar and its data file opens. -/
theorem resume_part_of_saved (path : Path) {sidecar : Sidecar} {file : Bytes}
    (hsidecar : queue.sidecars.get path = some sidecar) (hfile : queue.files.get path = some file)
    (hpositive : 0 < sidecar.total_size) :
    ∃ part disk, queue.resume_part path = .ok (part, disk) ∧ part.total_size = sidecar.total_size ∧
      part.gaps = normalize_gaps sidecar.gaps sidecar.total_size := by
  have hnew : PartFile.new path.text sidecar.total_size =
      .ok ⟨path.text, sidecar.total_size, [⟨0, sidecar.total_size⟩]⟩ := by
    rw [PartFile.new, if_neg (not_le.mpr hpositive)]
  refine ⟨⟨path.text, sidecar.total_size, normalize_gaps sidecar.gaps sidecar.total_size⟩, ⟨file, some sidecar⟩, ?_, rfl, rfl⟩
  rw [resume_part]
  refine bind_eq_ok_iff.mpr
    ⟨⟨path.text, sidecar.total_size, normalize_gaps sidecar.gaps sidecar.total_size⟩, ?_, ?_⟩
  · simp only [PartFile.resume, hsidecar]
    exact bind_eq_ok_iff.mpr ⟨_, hnew, rfl⟩
  · simp only [hfile, hsidecar]

/-- What a block that arrives leaves of the gaps. -/
theorem record_block_gaps {start : Int} {data : Bytes}
    (hrecord : queue.record_block file_hash start data = .ok next) :
    ∃ gaps left : List Gap, Canonical gaps ∧ Canonical left ∧
      queue.gap_ranges file_hash = .ok (gaps.map fun gap => (gap.start, gap.stop)) ∧
      next.gap_ranges file_hash = .ok (left.map fun gap => (gap.start, gap.stop)) ∧
      ∀ x, Covers left x ↔ Covers gaps x ∧ ¬ (start ≤ x ∧ x < start + data.length) := by
  obtain ⟨hash, row, part, disk, remaining, filled, disk', hhash, hrow, hresume, hwrite, rfl⟩ :=
    record_block_cases hrecord
  obtain ⟨sidecar, _, hpositive, _, hnormal⟩ := resume_part_cases hresume
  have hfilled : filled = part.apply_gap_fill start (start + data.length) := by
    unfold PartFile.write_block at hwrite
    split_ifs at hwrite
    cases hwrite
    rfl
  have htotal : filled.total_size = part.total_size := by rw [hfilled, PartFile.apply_gap_fill]
  obtain ⟨again, diskAgain, hagain, _, hnormalAgain⟩ := resume_part_of_saved
    (queue.save_part hash row filled disk'.file (if filled.is_complete then .COMPLETE else .DOWNLOADING))
    row.part_path (Dict.get_set_self _ _ _) (Dict.get_set_self _ _ _) (htotal ▸ hpositive)
  refine ⟨part.gaps, again.gaps, hnormal ▸ canonical_normalize_gaps _ _, hnormalAgain ▸ canonical_normalize_gaps _ _,
    gap_ranges_of_part hhash hrow hresume, ?_, ?_⟩
  · exact gap_ranges_of_part hhash (Dict.get_set_self _ _ _) hagain
  · intro x
    have hinside : Covers part.gaps x → 0 ≤ x ∧ x < part.total_size := by
      rw [hnormal, covers_normalize_gaps (le_of_lt hpositive)]
      exact And.right
    rw [hnormalAgain, htotal, covers_normalize_gaps (le_of_lt hpositive), hfilled, PartFile.apply_gap_fill,
      covers_normalize_gaps (le_of_lt hpositive), covers_fill]
    exact ⟨fun hleft => hleft.1.1, fun hleft => ⟨⟨hleft, hinside hleft.1⟩, hinside hleft.1⟩⟩

theorem covered_inclusive_gaps {gaps : List Gap} (hgaps : Canonical gaps) (x : Int) :
    Covered (inclusive_gaps (gaps.map fun gap => (gap.start, gap.stop))) x ↔ Covers gaps x := by
  rw [inclusive_gaps_of_canonical hgaps]
  constructor
  · rintro ⟨range, hrange, hlow, hhigh⟩
    obtain ⟨gap, hgap, rfl⟩ := List.mem_map.mp hrange
    exact ⟨gap, hgap, hlow, Int.lt_of_le_sub_one hhigh⟩
  · rintro ⟨gap, hgap, hlow, hhigh⟩
    exact ⟨(gap.start, gap.stop - 1), List.mem_map.mpr ⟨gap, hgap, rfl⟩, hlow, Int.le_sub_one_of_lt hhigh⟩

/-- A block of missing bytes is recorded. -/
theorem exists_record_block {raw_gaps : List (Int × Int)} (hgaps : queue.gap_ranges file_hash = .ok raw_gaps)
    {start : Int} {data : Bytes} (hdata : data ≠ [])
    (hmissing : ∀ x, InRange (start, start + data.length - 1) x → Covered (inclusive_gaps raw_gaps) x) :
    ∃ next, queue.record_block file_hash start data = .ok next := by
  obtain ⟨hash, row, part, disk, hhash, hrow, hresume, rfl⟩ := gap_ranges_cases hgaps
  obtain ⟨sidecar, _, hpositive, _, hnormal⟩ := resume_part_cases hresume
  have hcanonical : Canonical part.gaps := hnormal ▸ canonical_normalize_gaps _ _
  have hlength : 0 < data.length := List.length_pos_of_ne_nil hdata
  have hinside : ∀ x, InRange (start, start + data.length - 1) x → 0 ≤ x ∧ x < part.total_size := by
    intro x hx
    have hcovers := (covered_inclusive_gaps hcanonical x).mp (hmissing x hx)
    rw [hnormal, covers_normalize_gaps (le_of_lt hpositive)] at hcovers
    exact hcovers.2
  have hfirst := hinside start ⟨le_refl _, by simp only; omega⟩
  have hlast := hinside (start + data.length - 1) ⟨by simp only; omega, le_refl _⟩
  let filled := part.apply_gap_fill start (start + data.length)
  let written : Disk := { disk with file := PartFile.write_at disk.file start.toNat data }
  have hwrite : part.write_block disk start data = .ok (filled.remaining_bytes, filled, written) := by
    rw [PartFile.write_block, if_neg]
    omega
  refine ⟨queue.save_part hash row filled written.file (if filled.is_complete then .COMPLETE else .DOWNLOADING), ?_⟩
  refine bind_eq_ok_iff.mpr ⟨hash, hhash, bind_eq_ok_iff.mpr ⟨row, find_eq_ok_iff.mpr hrow, ?_⟩⟩
  exact bind_eq_ok_iff.mpr ⟨(part, disk), hresume, bind_eq_ok_iff.mpr ⟨(filled.remaining_bytes, filled, written), hwrite, rfl⟩⟩

/-- The missing bytes after a block that arrives. -/
theorem covered_gaps_of_record_block {raw_gaps : List (Int × Int)} {start : Int} {data : Bytes}
    (hgaps : queue.gap_ranges file_hash = .ok raw_gaps)
    (hrecord : queue.record_block file_hash start data = .ok next) :
    ∃ left, next.gap_ranges file_hash = .ok left ∧ ∀ x, Covered (inclusive_gaps left) x ↔
      Covered (inclusive_gaps raw_gaps) x ∧ ¬ InRange (start, start + data.length - 1) x := by
  obtain ⟨gaps, rest, hcanonical, hrest, hbefore, hnext, hcovers⟩ := record_block_gaps hrecord
  obtain rfl := Except.ok.inj (hbefore.symm.trans hgaps)
  refine ⟨_, hnext, fun x => ?_⟩
  rw [covered_inclusive_gaps hcanonical, covered_inclusive_gaps hrest, hcovers, InRange]
  simp only
  have hsame : start ≤ x ∧ x < start + data.length ↔ start ≤ x ∧ x ≤ start + data.length - 1 := by omega
  rw [hsame]

/-- A block that arrives leaves gaps inside the ones before. -/
theorem inside_of_record_block {start : Int} {data : Bytes}
    (hrecord : queue.record_block file_hash start data = .ok next) {left : List (Int × Int)}
    (hleft : next.gap_ranges file_hash = .ok left) :
    ∃ raw_gaps, queue.gap_ranges file_hash = .ok raw_gaps ∧
      ∀ gap ∈ inclusive_gaps left, ∃ outer ∈ inclusive_gaps raw_gaps, outer.1 ≤ gap.1 ∧ gap.2 ≤ outer.2 := by
  obtain ⟨gaps, rest, hcanonical, hrest, hgaps, hnext, hcovers⟩ := record_block_gaps hrecord
  obtain rfl : rest.map _ = left := Except.ok.inj (hnext.symm.trans hleft)
  refine ⟨_, hgaps, ?_⟩
  rw [inclusive_gaps_of_canonical hcanonical, inclusive_gaps_of_canonical hrest]
  intro range hrange
  obtain ⟨gap, hgap, rfl⟩ := List.mem_map.mp hrange
  obtain ⟨outer, houter, hlow, hhigh⟩ := hcanonical.outer (hrest.nonempty gap hgap)
    fun x hx => ((hcovers x).mp ⟨gap, hgap, hx⟩).1
  exact ⟨(outer.start, outer.stop - 1), List.mem_map.mpr ⟨outer, houter, rfl⟩, hlow, Int.sub_le_sub_right hhigh 1⟩

end Gaps

section Registry

variable {requested_ranges : Dict Bytes (Finset Range)} {file_hash : Bytes} {ranges : List Range}

theorem get_register_ranges :
    (register_ranges requested_ranges file_hash ranges).get file_hash =
      some ((requested_ranges.get file_hash).getD ∅ ∪ ranges.toFinset) := by
  simp only [register_ranges]
  rw [Dict.get_set_self, foldl_insert]

theorem getD_release_ranges :
    ((release_ranges requested_ranges file_hash ranges).get file_hash).getD ∅ =
      (requested_ranges.get file_hash).getD ∅ \ ranges.toFinset := by
  unfold release_ranges
  cases hbucket : requested_ranges.get file_hash with
  | none => rw [hbucket, Option.getD_none, Finset.empty_sdiff]
  | some bucket =>
    simp only [foldl_erase]
    by_cases hempty : bucket \ ranges.toFinset = ∅
    · rw [if_pos hempty, Dict.get_erase_self, Option.getD_none, Option.getD_some, hempty]
    · rw [if_neg hempty, Dict.get_set_self, Option.getD_some, Option.getD_some]

/-- The entry of a file is dropped with its last range. -/
theorem release_ranges_ne_empty (hstored : requested_ranges.get file_hash ≠ some ∅) :
    (release_ranges requested_ranges file_hash ranges).get file_hash ≠ some ∅ := by
  unfold release_ranges
  cases hbucket : requested_ranges.get file_hash with
  | none => exact hstored
  | some bucket =>
    simp only
    split_ifs with hempty
    · rw [Dict.get_erase_self]
      exact (Option.some_ne_none _).symm
    · rw [Dict.get_set_self, ne_eq, Option.some.injEq]
      exact hempty

theorem release_ranges_other {other : Bytes} (hother : other ≠ file_hash) :
    (release_ranges requested_ranges file_hash ranges).get other = requested_ranges.get other := by
  unfold release_ranges
  split
  · rfl
  · simp only
    split_ifs
    · exact Dict.get_erase_of_ne hother _
    · exact Dict.get_set_of_ne hother _ _

end Registry

/-- The ranges that a session has issued, none for a session that is not live. -/
def Swarm.held (swarm : Swarm) (id : Nat) : Finset Range :=
  match swarm.sessions.get id with
  | none => ∅
  | some session => session.issued_ranges.toFinset

/-- What holds of the registry between any two events. -/
structure Swarm.Tracked (target : Target) (others : Dict Bytes (Finset Range)) (swarm : Swarm) : Prop where
  leased : Leased Apart (swarm.bucket target) swarm.held
  own : ∀ id session, swarm.sessions.get id = some session → session.own_issued = session.issued_ranges.toFinset
  stored : swarm.requested_ranges.get target.file_hash_bytes ≠ some ∅
  nonempty : ∀ range ∈ swarm.bucket target, range.1 ≤ range.2
  whole : ∀ raw_gaps, swarm.queue.gap_ranges target.file_hash = .ok raw_gaps →
    WindowsWhole target.size (inclusive_gaps raw_gaps) fun range => range ∈ swarm.bucket target
  frame : ∀ other, other ≠ target.file_hash_bytes → swarm.requested_ranges.get other = others.get other

namespace Swarm

section Steps

variable {target : Target} {others : Dict Bytes (Finset Range)} {swarm : Swarm} {id : Nat} {session : Session}

theorem held_of_get (hsession : swarm.sessions.get id = some session) :
    swarm.held id = session.issued_ranges.toFinset := by
  rw [held, hsession]

theorem held_of_none (hsession : swarm.sessions.get id = none) : swarm.held id = ∅ := by rw [held, hsession]

theorem held_set (queue : DownloadQueue) (requested_ranges : Dict Bytes (Finset Range)) :
    held ⟨queue, requested_ranges, swarm.sessions.set id session⟩ =
      Function.update swarm.held id session.issued_ranges.toFinset := by
  funext other
  by_cases hother : other = id
  · rw [hother, Function.update_self, held, Dict.get_set_self]
  · rw [Function.update_of_ne hother, held, Dict.get_set_of_ne hother, held]

theorem held_erase (queue : DownloadQueue) (requested_ranges : Dict Bytes (Finset Range)) :
    held ⟨queue, requested_ranges, swarm.sessions.erase id⟩ = Function.update swarm.held id ∅ := by
  funext other
  by_cases hother : other = id
  · rw [hother, Function.update_self, held, Dict.get_erase_self]
  · rw [Function.update_of_ne hother, held, Dict.get_erase_of_ne hother, held]

theorem tracked_idle (target : Target) (queue : DownloadQueue) (others : Dict Bytes (Finset Range)) :
    (idle target queue others).Tracked target others := by
  have hget : (idle target queue others).requested_ranges.get target.file_hash_bytes = none :=
    Dict.get_erase_self _ _
  have hbucket : (idle target queue others).bucket target = ∅ := by rw [bucket, hget, Option.getD_none]
  have hheld : (idle target queue others).held = fun _ => ∅ := by
    funext id
    exact held_of_none (Dict.get_empty id)
  refine ⟨?_, ?_, ?_, ?_, ?_, fun other hother => Dict.get_erase_of_ne hother _⟩
  · rw [hbucket, hheld]
    exact leased_empty Apart
  · intro id session hsession
    rw [idle, Dict.get_empty] at hsession
    cases hsession
  · rw [hget]
    exact (Option.some_ne_none _).symm
  · rw [hbucket]
    exact fun range hrange => absurd hrange (Finset.notMem_empty range)
  · rw [hbucket]
    exact fun _ _ _ _ _ range hrange => absurd hrange (Finset.notMem_empty range)

/-- No range of the registry is apart from itself. -/
theorem Tracked.not_apart_self (h : swarm.Tracked target others) :
    ∀ range ∈ swarm.bucket target, ¬ Apart range range := by
  intro range hrange hapart
  have hfirst : InRange range range.1 := ⟨Int.le_refl _, h.nonempty range hrange⟩
  exact hapart range.1 ⟨hfirst, hfirst⟩

theorem Tracked.record_block (h : swarm.Tracked target others) {start : Int} {data : Bytes} {queue : DownloadQueue}
    (hrecord : swarm.queue.record_block target.file_hash start data = .ok queue) :
    Tracked target others { swarm with queue := queue } := by
  refine ⟨h.leased, h.own, h.stored, h.nonempty, ?_, h.frame⟩
  intro left hleft
  obtain ⟨raw_gaps, hbefore, hinside⟩ := inside_of_record_block hrecord hleft
  exact (h.whole raw_gaps hbefore).shrink hinside

theorem own_set {sessions : Dict Nat Session} {next : Session}
    (h : ∀ id session, sessions.get id = some session → session.own_issued = session.issued_ranges.toFinset)
    (hown : next.own_issued = next.issued_ranges.toFinset) :
    ∀ other session, (sessions.set id next).get other = some session →
      session.own_issued = session.issued_ranges.toFinset := by
  intro other found hfound
  by_cases hother : other = id
  · rw [hother, Dict.get_set_self, Option.some.injEq] at hfound
    rwa [← hfound]
  · rw [Dict.get_set_of_ne hother] at hfound
    exact h other found hfound

/-- A session goes on with the ranges it has issued. -/
theorem Tracked.set (h : swarm.Tracked target others) {next : Session}
    (hown : next.own_issued = next.issued_ranges.toFinset) (hissued : next.issued_ranges.toFinset = swarm.held id) :
    Tracked target others { swarm with sessions := swarm.sessions.set id next } := by
  refine ⟨?_, own_set h.own hown, h.stored, h.nonempty, h.whole, h.frame⟩
  rw [held_set, hissued, Function.update_eq_self]
  exact h.leased

theorem sessions_close {other : Nat} (hother : other ≠ id) :
    (swarm.close target id).sessions.get other = swarm.sessions.get other := by
  unfold Swarm.close
  cases swarm.sessions.get id with
  | none => rfl
  | some session => exact Dict.get_erase_of_ne hother _

theorem Tracked.close (h : swarm.Tracked target others) (id : Nat) : (swarm.close target id).Tracked target others := by
  unfold Swarm.close
  cases hsession : swarm.sessions.get id with
  | none => exact h
  | some session =>
    simp only
    have hheld := held_of_get hsession
    have hbucket : bucket target ⟨swarm.queue, if session.issued_ranges = [] then swarm.requested_ranges
          else release_ranges swarm.requested_ranges target.file_hash_bytes session.issued_ranges,
        swarm.sessions.erase id⟩ = swarm.bucket target \ swarm.held id := by
      rw [hheld, bucket, bucket]
      split_ifs with hempty
      · rw [hempty, List.toFinset_nil, Finset.sdiff_empty]
      · exact getD_release_ranges
    refine ⟨?_, ?_, ?_, ?_, ?_, ?_⟩
    · rw [hbucket, held_erase]
      exact h.leased.release h.not_apart_self id
    · intro other found hfound
      have hother : other ≠ id := by
        rintro rfl
        rw [Dict.get_erase_self] at hfound
        cases hfound
      rw [Dict.get_erase_of_ne hother] at hfound
      exact h.own other found hfound
    · split_ifs
      · exact h.stored
      · exact release_ranges_ne_empty h.stored
    · rw [hbucket]
      exact fun range hrange => h.nonempty range (Finset.mem_sdiff.mp hrange).1
    · rw [hbucket]
      exact fun raw_gaps hgaps part window hwindow range hrange =>
        h.whole raw_gaps hgaps part window hwindow range (Finset.mem_sdiff.mp hrange).1
    · intro other hother
      split_ifs
      · exact h.frame other hother
      · exact (release_ranges_other hother).trans (h.frame other hother)

theorem length_selected_le (swarm : Swarm) (session : Session) (peers : Peers) (raw_gaps : List (Int × Int)) (n : Nat) :
    (swarm.selected target session peers raw_gaps n).length ≤ n := by
  have hlength := length_issued_select_loop (swarm.catalog target session peers raw_gaps) n 0
    ((swarm.catalog target session peers raw_gaps).initial session.last_part_box (peers.order.list (swarm.bucket target)))
  rw [selected, fst_select_blocks]
  exact le_of_le_of_eq hlength (Nat.zero_add n)

variable (target id session) in
/-- A session with nothing to ask for returns; another one registers what it asks for. -/
theorem select_round_cases {raw_gaps : List (Int × Int)} (peers : Peers)
    (hgaps : swarm.queue.gap_ranges target.file_hash = .ok raw_gaps) :
    let ranges := swarm.selected target session peers raw_gaps 3
    ranges = [] ∧ swarm.select_round target id session peers = swarm.close target id ∨
      ranges ≠ [] ∧ ∃ last_new, swarm.select_round target id session peers =
        { swarm with
          requested_ranges := register_ranges swarm.requested_ranges target.file_hash_bytes ranges
          sessions := swarm.sessions.set id { session with
            own_issued := ranges.foldl (fun own_issued range => insert range own_issued) session.own_issued
            last_part_box := last_new
            issued_ranges := session.issued_ranges ++ ranges
            expected_bytes := round_bytes target ranges } } := by
  intro ranges
  have hlength : ranges.length ≤ 3 := length_selected_le swarm session peers raw_gaps 3
  by_cases hempty : ranges = []
  · refine .inl ⟨hempty, ?_⟩
    have hselect : swarm.selector target session peers 3 = .ok ([], swarm.requested_ranges, session) :=
      bind_eq_ok_iff.mpr ⟨raw_gaps, hgaps, if_pos hempty⟩
    rw [select_round, hselect]
  · refine .inr ⟨hempty, ((swarm.catalog target session peers raw_gaps).select_blocks session.last_part_box
      (peers.order.list (swarm.bucket target)) 3).2, ?_⟩
    have hselect : swarm.selector target session peers 3 = .ok (ranges,
        register_ranges swarm.requested_ranges target.file_hash_bytes ranges, { session with
          own_issued := ranges.foldl (fun own_issued range => insert range own_issued) session.own_issued
          last_part_box := ((swarm.catalog target session peers raw_gaps).select_blocks session.last_part_box
            (peers.order.list (swarm.bucket target)) 3).2 }) :=
      bind_eq_ok_iff.mpr ⟨raw_gaps, hgaps, if_neg hempty⟩
    rw [select_round, hselect]
    obtain ⟨first, rest, hcons⟩ := List.exists_cons_of_ne_nil hempty
    rw [hcons] at hlength ⊢
    simp only
    rw [List.take_of_length_le hlength]

/-- What the registry promises to a call of the selector. -/
theorem Tracked.selected (h : swarm.Tracked target others) (session : Session) (peers : Peers)
    {raw_gaps : List (Int × Int)} (hgaps : swarm.queue.gap_ranges target.file_hash = .ok raw_gaps) (n : Nat) :
    let requested := peers.order.list (swarm.bucket target)
    let ranges := swarm.selected target session peers raw_gaps n
    SoundSelection target.size (inclusive_gaps raw_gaps) (peers.client.available target.size) requested n ranges ∧
      WindowsWhole target.size (inclusive_gaps raw_gaps) fun range => range ∈ requested ++ ranges := by
  have hlist : WindowsWhole target.size (inclusive_gaps raw_gaps)
      fun range => range ∈ peers.order.list (swarm.bucket target) := by
    intro part window hwindow range hrange
    exact h.whole raw_gaps hgaps part window hwindow range ((peers.order.mem_list _ _).mp hrange)
  have hpairwise : (swarm.catalog target session peers raw_gaps).gaps.Pairwise fun first second => first.2 < second.1 :=
    pairwise_inclusive_gaps hgaps
  exact WindowsWhole.select_blocks hpairwise hlist session.last_part_box n

theorem Tracked.select_round (h : swarm.Tracked target others) (hsession : swarm.sessions.get id = some session)
    (peers : Peers) : (swarm.select_round target id session peers).Tracked target others := by
  cases hgaps : swarm.queue.gap_ranges target.file_hash with
  | error e =>
    have hselect : swarm.selector target session peers 3 = .error e := by
      rw [Swarm.selector, hgaps]
      rfl
    rw [Swarm.select_round, hselect]
    exact h.close id
  | ok raw_gaps =>
    obtain ⟨hsound, hwhole⟩ := h.selected session peers hgaps 3
    obtain ⟨_, hclosed⟩ | ⟨hnonempty, last_new, hnext⟩ :=
      select_round_cases target id session peers hgaps
    · rw [hclosed]
      exact h.close id
    · rw [hnext]
      generalize swarm.selected target session peers raw_gaps 3 = raw_ranges at hsound hwhole hnonempty
      have hbucket : ∀ sessions, bucket target ⟨swarm.queue,
          register_ranges swarm.requested_ranges target.file_hash_bytes raw_ranges, sessions⟩ =
            swarm.bucket target ∪ raw_ranges.toFinset := by
        intro sessions
        rw [bucket, get_register_ranges, Option.getD_some, bucket]
      refine ⟨?_, ?_, ?_, ?_, ?_, ?_⟩
      · rw [hbucket, held_set, List.toFinset_append, ← held_of_get hsession]
        refine h.leased.issue (fun _ _ hapart => hapart.symm) ?_ id
        intro range hrange taken htaken
        exact hsound.fresh range (List.mem_toFinset.mp hrange) taken ((peers.order.mem_list _ _).mpr htaken)
      · refine own_set h.own ?_
        simp only [foldl_insert, List.toFinset_append]
        rw [h.own id session hsession]
      · rw [get_register_ranges, ne_eq, Option.some.injEq, Finset.union_eq_empty, not_and, List.toFinset_eq_empty_iff]
        exact fun _ => hnonempty
      · rw [hbucket]
        intro range hrange
        rcases Finset.mem_union.mp hrange with hold | hnew
        · exact h.nonempty range hold
        · exact (hsound.placed range (List.mem_toFinset.mp hnew)).1
      · rw [hbucket]
        intro again hagain part window hwindow range hrange
        obtain rfl : raw_gaps = again := Except.ok.inj (hgaps.symm.trans hagain)
        refine hwhole part window hwindow range (List.mem_append.mpr ?_)
        exact (Finset.mem_union.mp hrange).imp (peers.order.mem_list _ _).mpr List.mem_toFinset.mp
      · intro other hother
        simp only [register_ranges]
        rw [Dict.get_set_of_ne hother]
        exact h.frame other hother

theorem Tracked.begin_round_within (h : swarm.Tracked target others) (hsession : swarm.sessions.get id = some session)
    (max_blocks : Nat) (peers : Peers) :
    (swarm.begin_round_within target max_blocks id session peers).Tracked target others := by
  unfold Swarm.begin_round_within
  split_ifs
  · exact h.close id
  · exact h.select_round hsession peers

theorem Tracked.on_packet (h : swarm.Tracked target others) (hsession : swarm.sessions.get id = some session)
    (packet : Packet) : (swarm.on_packet target id session packet).Tracked target others := by
  have hown := h.own id session hsession
  have hissued := (held_of_get hsession).symm
  cases packet with
  | part start data =>
    let next : Session := { session with
      received := session.received + data.length
      blocks := session.blocks + 1
      expected_bytes := session.expected_bytes - data.length }
    have hnext : Tracked target others { swarm with sessions := swarm.sessions.set id next } := h.set hown hissued
    simp only [Swarm.on_packet]
    split_ifs
    · exact hnext
    · split
      · exact h.close id
      · rename_i queue hrecord
        exact hnext.record_block hrecord
  | end_of_download => exact h.set hown hissued
  | out_of_part_reqs =>
    simp only [Swarm.on_packet]
    split_ifs
    · exact h.close id
    · exact h.set hown hissued
  | other => exact h

theorem Tracked.step (h : swarm.Tracked target others) (event : Event) :
    (swarm.step target event).Tracked target others := by
  cases event with
  | join id =>
    simp only [Swarm.step]
    split
    · exact h
    · rename_i hnone
      exact h.set rfl (held_of_none hnone).symm
  | round id peers =>
    simp only [Swarm.step]
    split
    · exact h
    · rename_i session hsession
      split_ifs
      · exact h
      · rw [begin_round_eq]
        exact h.begin_round_within hsession MAX_BLOCKS peers
  | packet id packet =>
    simp only [Swarm.step]
    split
    · exact h
    · rename_i session hsession
      split_ifs
      · exact h.on_packet hsession packet
      · exact h
  | stop id => exact h.close id
  | write start data =>
    simp only [Swarm.step]
    split
    · exact h
    · rename_i queue hrecord
      exact h.record_block hrecord

theorem Tracked.run (h : swarm.Tracked target others) (events : List Event) :
    (swarm.run target events).Tracked target others := by
  induction events generalizing swarm with
  | nil => exact h
  | cons event rest ih => exact ih (h.step event)

end Steps

end Swarm

end amuled.download.ics
