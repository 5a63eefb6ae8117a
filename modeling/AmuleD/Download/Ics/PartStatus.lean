import AmuleD.Download.Ics.Exhausted
import AmuleD.Download.Ics.NeededParts
import AmuleD.Peer.Ladder
import AmuleD.Streams.Scanning

open intervals

namespace amuled.peer

open cursor littleendian

theorem read_uint_lt {width value : Nat} {reader after : BinaryReader}
    (hread : read_uint width reader = .ok (value, after)) : value < 256 ^ width := by
  obtain ⟨raw, hraw, rfl⟩ := map_eq_ok_iff.mp hread
  have hlength := (took_of_takeN hraw).2
  rw [← hlength]
  exact decode_lt raw

/-- A file status has a 16-bit count of parts, and names parts below it. -/
theorem parse_file_status_bounds {payload : Bytes} {status : FileStatus}
    (hparse : parse_file_status payload = .ok status) :
    status.chunk_count < 2 ^ 16 ∧ ∀ part ∈ status.present_chunks, part < status.chunk_count := by
  obtain ⟨⟨⟨file_hash, chunk_count, bit_array⟩, reader⟩, hread, hstatus⟩ := amuled.bind_eq_ok_iff.mp hparse
  have hread : read_file_status ⟨payload, 0⟩ = .ok ((file_hash, chunk_count, bit_array), reader) := by
    unfold malformed at hread
    split at hread
    · cases hread
    · exact hread
  obtain ⟨hash, _, _, hread⟩ := cursor.bind_eq_ok_iff.mp hread
  obtain ⟨count, _, hcount, hread⟩ := cursor.bind_eq_ok_iff.mp hread
  obtain ⟨bits, _, _, hread⟩ := cursor.bind_eq_ok_iff.mp hread
  cases hread
  dsimp only at hstatus
  split at hstatus
  · cases hstatus
  · cases hstatus
    exact ⟨read_uint_lt hcount, fun part hpart => List.mem_range.mp (List.mem_of_mem_filter hpart)⟩

theorem present_chunks_eq_nil {payload : Bytes} {status : FileStatus} (hparse : parse_file_status payload = .ok status)
    (hzero : status.chunk_count = 0) : status.present_chunks = [] := by
  refine List.eq_nil_iff_forall_not_mem.mpr fun part hpart => ?_
  have hlt := (parse_file_status_bounds hparse).2 part hpart
  rw [hzero] at hlt
  exact Nat.not_lt_zero part hlt

section store

variable {known : FileStatuses} {status : FileStatus}

theorem part_status_store_self (hzero : status.chunk_count = 0 → status.present_chunks = []) :
    (known.store status).part_status.get status.file_hash = some status.present_chunks := by
  unfold FileStatuses.store
  split
  · rename_i hcount
    rw [Dict.get_set_self, hzero hcount]
  · exact Dict.get_set_self ..

theorem part_status_store_of_ne {file_hash : Bytes} (hhash : status.file_hash ≠ file_hash) :
    (known.store status).part_status.get file_hash = known.part_status.get file_hash := by
  unfold FileStatuses.store
  split <;> exact Dict.get_set_of_ne hhash.symm ..

theorem complete_store_iff {file_hash : Bytes} :
    file_hash ∈ (known.store status).complete_sources ↔
      file_hash ∈ known.complete_sources ∨ status.file_hash = file_hash ∧ status.chunk_count = 0 := by
  unfold FileStatuses.store
  split
  · rename_i hcount
    rw [List.mem_cons, or_comm, and_iff_left hcount, eq_comm]
  · rename_i hcount
    exact (or_iff_left fun hstatus => hcount hstatus.2).symm

end store

/-- What a packet tells of a file, if it is well formed and about that file. -/
def told (file_hash : Bytes) (payload : Bytes) : Option FileStatus :=
  match parse_file_status payload with
  | .error _ => none
  | .ok status => if status.file_hash = file_hash then some status else none

/-- What a peer is known to have once its packets are captured, in a session that begins with nothing known. -/
def heard (payloads : List Bytes) : PeerClient :=
  payloads.foldl PeerClient.capture_file_status ⟨⟨Dict.empty, []⟩, []⟩

/-- The well-formed statuses of a file, in the order of their arrival. -/
def statuses (file_hash : Bytes) (payloads : List Bytes) : List FileStatus := payloads.filterMap (told file_hash)

theorem mem_statuses {file_hash : Bytes} {payloads : List Bytes} {status : FileStatus}
    (hstatus : status ∈ statuses file_hash payloads) :
    ∃ payload, parse_file_status payload = .ok status ∧ status.file_hash = file_hash := by
  obtain ⟨payload, _, htold⟩ := List.mem_filterMap.mp hstatus
  unfold told at htold
  split at htold
  · cases htold
  · rename_i parsed hparse
    split at htold
    · rename_i hhash
      obtain rfl := Option.some.inj htold
      exact ⟨payload, hparse, hhash⟩
    · cases htold

section heard

variable (file_hash : Bytes) (payloads : List Bytes)

theorem heard_append_singleton (payload : Bytes) :
    heard (payloads ++ [payload]) = (heard payloads).capture_file_status payload := by
  rw [heard, List.foldl_append]
  rfl

theorem statuses_append_singleton (payload : Bytes) :
    statuses file_hash (payloads ++ [payload]) = statuses file_hash payloads ++ (told file_hash payload).toList := by
  rw [statuses, List.filterMap_append]
  cases hstatus : told file_hash payload <;> simp [hstatus, statuses]

/-- The parts of a file are those of its last status. -/
theorem part_status_heard :
    (heard payloads).part_status.get file_hash =
      (statuses file_hash payloads).getLast?.map FileStatus.present_chunks := by
  induction payloads using List.reverseRecOn with
  | nil => exact Dict.get_empty file_hash
  | append_singleton payloads payload ih =>
    rw [heard_append_singleton, statuses_append_singleton, PeerClient.capture_file_status, told]
    cases hparse : parse_file_status payload with
    | error e =>
      rw [Option.toList_none, List.append_nil]
      exact ih
    | ok status =>
      by_cases hhash : status.file_hash = file_hash
      · subst hhash
        dsimp only
        rw [if_pos rfl, Option.toList_some, List.getLast?_concat]
        exact part_status_store_self (present_chunks_eq_nil hparse)
      · dsimp only
        rw [if_neg hhash, Option.toList_none, List.append_nil, part_status_store_of_ne hhash]
        exact ih

/-- A source is complete where any status of the file said so. -/
theorem complete_heard :
    file_hash ∈ (heard payloads).complete_sources ↔
      ∃ status ∈ statuses file_hash payloads, status.chunk_count = 0 := by
  induction payloads using List.reverseRecOn with
  | nil => simp [heard, statuses]
  | append_singleton payloads payload ih =>
    rw [heard_append_singleton, statuses_append_singleton, PeerClient.capture_file_status, told]
    cases hparse : parse_file_status payload with
    | error e =>
      rw [Option.toList_none, List.append_nil]
      exact ih
    | ok status =>
      dsimp only
      rw [complete_store_iff, ih]
      by_cases hhash : status.file_hash = file_hash
      · rw [if_pos hhash, Option.toList_some, and_iff_right hhash]
        simp only [List.mem_append, List.mem_singleton, or_and_right, exists_or, exists_eq_left]
      · rw [if_neg hhash, Option.toList_none, List.append_nil]
        exact or_iff_left fun hstatus => hhash hstatus.1

end heard

end amuled.peer

namespace amuled.download.ics

/-- What a peer has told of a file. -/
def source (client : peer.PeerClient) (file_hash : Bytes) : Source where
  complete := client.complete_sources.any fun known => decide (known = file_hash)
  part_status := client.part_status.get file_hash

/-- The parts of the last status of a file; all of them where there is none, or one that counts no parts. -/
def Announced (last : Option peer.FileStatus) (part : Nat) : Prop :=
  ∀ status, last = some status → status.chunk_count ≠ 0 → part ∈ status.present_chunks

/-- What the selector asks for, what the gate finds needed and what the frequencies count are the announced parts. -/
structure Judged (target : Target) (client : Source) (last : Option peer.FileStatus) : Prop where
  selected : ∀ (swarm : Swarm) (session : Session) (peers : Peers) (raw_gaps : List (Int × Int)) (n : Nat),
    peers.client = client → ∀ range ∈ swarm.selected target session peers raw_gaps n,
      ∃ part, Announced last part ∧ ∀ x, InRange range x → InRange (part_bounds part target.size) x
  needed : ∀ gaps : List (Int × Int), gaps ≠ [] →
    (∀ gap ∈ gaps, 0 ≤ gap.1 ∧ gap.1 < gap.2 ∧ gap.2 ≤ target.size) →
      (a4af_needed_parts gaps client = none ↔ last = none) ∧
        (a4af_needed_parts gaps client = some true ↔
          last ≠ none ∧ ∃ part, Announced last part ∧ (part : Int) ∈ gate_gap_parts gaps)
  counted : ∀ (clients : List Source) (i : Nat), i < part_count target.size →
    ∃ count, (part_frequencies clients target.size)[i]? = some count ∧
      (Announced last i → (part_frequencies (client :: clients) target.size)[i]? = some (count + 1)) ∧
        (¬Announced last i → (part_frequencies (client :: clients) target.size)[i]? = some count)

/-- The last status of a file that counts parts has one of them, and all where an earlier status said the source
was complete. -/
def Kept (size : Int) (statuses : List peer.FileStatus) : Prop :=
  ∀ status, statuses.getLast? = some status → status.chunk_count ≠ 0 →
    (0 < size → status.present_chunks ≠ []) ∧
      ((∃ earlier ∈ statuses, earlier.chunk_count = 0) →
        ∀ part : Nat, part * PART_SIZE < max 1 size → part ∈ status.present_chunks)

section part_count

variable {size : Int} {part : Nat}

/-- Below `2 ^ 52` bytes the double that `part_count` rounds up makes no part up. -/
theorem mul_lt_of_lt_part_count (hsize : size < 2 ^ 52) (hpart : part < part_count size) :
    part * PART_SIZE < max 1 size := by
  simp only [PART_SIZE]
  by_cases hpos : 0 < size
  · rw [part_count_eq hsize hpos] at hpart
    omega
  · rw [part_count, if_pos (not_lt.mp hpos)] at hpart
    omega

end part_count

section frequencies

variable (client : Source) (clients : List Source) {size : Int} {i : Nat}

theorem part_frequencies_cons (hi : i < part_count size) :
    ∃ count, (part_frequencies clients size)[i]? = some count ∧
      (part_frequencies (client :: clients) size)[i]? =
        some (if i ∈ client.parts (part_count size) then count + 1 else count) := by
  unfold part_frequencies
  refine ⟨_, by rw [List.getElem?_map, List.getElem?_range hi, Option.map_some], ?_⟩
  rw [List.getElem?_map, List.getElem?_range hi, Option.map_some, List.filter_cons]
  by_cases hmem : i ∈ client.parts (part_count size)
  · simp [hmem]
  · simp [hmem]

end frequencies

section source

variable {client : peer.PeerClient} {payloads : List Bytes} {file_hash : Bytes} {status : peer.FileStatus}

theorem source_eq (client : peer.PeerClient) (file_hash : Bytes) :
    source client file_hash =
      ⟨decide (file_hash ∈ client.complete_sources), client.part_status.get file_hash⟩ := by
  rw [source, Source.mk.injEq, Bool.eq_iff_iff, List.any_eq_true, decide_eq_true_iff]
  simp

theorem source_of_none (hlast : (peer.statuses file_hash payloads).getLast? = none) :
    source (peer.heard payloads) file_hash = ⟨false, none⟩ := by
  have hnone := List.getLast?_eq_none_iff.mp hlast
  have hcomplete := peer.complete_heard file_hash payloads
  rw [hnone] at hcomplete
  rw [source_eq, peer.part_status_heard, hlast, Option.map_none, decide_eq_false]
  rw [hcomplete]
  exact fun ⟨_, hmem, _⟩ => List.not_mem_nil hmem

theorem source_of_some (hlast : (peer.statuses file_hash payloads).getLast? = some status) :
    source (peer.heard payloads) file_hash =
      ⟨decide (∃ earlier ∈ peer.statuses file_hash payloads, earlier.chunk_count = 0), some status.present_chunks⟩ := by
  rw [source_eq, peer.part_status_heard, hlast, Option.map_some]
  simp only [peer.complete_heard]

end source

section judged

variable {target : Target} {client : Source} {last : Option peer.FileStatus}

/-- The selector asks for ranges within the parts that it takes the peer to have. -/
theorem exists_part_of_selected {swarm : Swarm} {session : Session} {peers : Peers} {raw_gaps : List (Int × Int)}
    {n : Nat} {range : Range} (hrange : range ∈ swarm.selected target session peers raw_gaps n) :
    ∃ part ∈ peers.client.available target.size, part < part_count target.size ∧ range.1 ≤ range.2 ∧
      ∀ x, InRange range x → InRange (part_bounds part target.size) x := by
  rw [Swarm.selected, fst_select_blocks] at hrange
  obtain hnone | ⟨part, hpart, havailable, window, req, hwindow, htrimmed⟩ := exists_part_of_issued n 0 hrange
  · cases hnone
  · exact ⟨part, havailable, (mem_initial_gap_parts.mp hpart).1, htrimmed.nonempty,
      fun x hx => (hwindow.inRange (htrimmed.inWindow hx)).2⟩

/-- A gap of the file reaches into the part of its first byte. -/
theorem exists_gate_part {gaps : List (Int × Int)} {size : Int} (hgaps : gaps ≠ [])
    (hinside : ∀ gap ∈ gaps, 0 ≤ gap.1 ∧ gap.1 < gap.2 ∧ gap.2 ≤ size) :
    ∃ part : Nat, (part : Int) ∈ gate_gap_parts gaps ∧ part * PART_SIZE < max 1 size := by
  obtain ⟨gap, hgap⟩ := List.exists_mem_of_ne_nil gaps hgaps
  obtain ⟨hstart, hnonempty, hstop⟩ := hinside gap hgap
  refine ⟨(gap.1 / PART_SIZE).toNat, mem_gate_gap_parts.mpr ⟨gap, hgap, .inl ?_⟩, ?_⟩
  · simp only [PART_SIZE]
    omega
  · simp only [PART_SIZE]
    omega

/-- A peer that is taken to have the whole file is judged right where it has announced all of it. -/
theorem judged_of_all (hcomplete : client.complete = true ∧ last ≠ none ∨ client = ⟨false, none⟩ ∧ last = none)
    (hcounted : ∀ part < part_count target.size, Announced last part)
    (hall : ∀ part : Nat, part * PART_SIZE < max 1 target.size → Announced last part) :
    Judged target client last := by
  have hparts : client.parts (part_count target.size) = List.range (part_count target.size) := by
    obtain ⟨hclient, -⟩ | ⟨rfl, -⟩ := hcomplete
    · exact if_pos hclient
    · rfl
  refine ⟨fun swarm session peers raw_gaps n _ range hrange => ?_, fun gaps hgaps hinside => ?_, fun clients i hi => ?_⟩
  · obtain ⟨part, _, hpart, _, hbounds⟩ := exists_part_of_selected hrange
    exact ⟨part, hcounted part hpart, hbounds⟩
  · rw [a4af_needed_parts, if_neg hgaps]
    obtain ⟨part, hgate, hpart⟩ := exists_gate_part hgaps hinside
    obtain ⟨hclient, hlast⟩ | ⟨rfl, hlast⟩ := hcomplete
    · rw [if_pos hclient]
      exact ⟨iff_of_false (Option.some_ne_none true) hlast, iff_of_true rfl ⟨hlast, part, hall part hpart, hgate⟩⟩
    · rw [if_neg Bool.false_ne_true]
      exact ⟨iff_of_true rfl hlast, iff_of_false (Option.some_ne_none true).symm fun htrue => htrue.1 hlast⟩
  · obtain ⟨count, hothers, hcount⟩ := part_frequencies_cons client clients hi
    rw [hparts, if_pos (List.mem_range.mpr hi)] at hcount
    exact ⟨count, hothers, fun _ => hcount, fun hnot => absurd (hcounted i hi) hnot⟩

/-- A peer of which a status with parts is known is judged right unless it has none of them. -/
theorem judged_of_parts {status : peer.FileStatus} (hcount : status.chunk_count ≠ 0)
    (hparts : 0 < target.size → status.present_chunks ≠ []) :
    Judged target ⟨false, some status.present_chunks⟩ (some status) := by
  have hannounced : ∀ part, Announced (some status) part ↔ part ∈ status.present_chunks := by
    refine fun part => ⟨fun h => h status rfl hcount, fun hpart status' hstatus' _ => ?_⟩
    exact Option.some.inj hstatus' ▸ hpart
  refine ⟨fun swarm session peers raw_gaps n hclient range hrange => ?_, fun gaps hgaps _ => ?_, fun clients i hi => ?_⟩
  · obtain ⟨part, havailable, _, hrange, hbounds⟩ := exists_part_of_selected hrange
    obtain ⟨hlow, hhigh⟩ := hbounds range.1 ⟨le_refl _, hrange⟩
    have hsize : 0 < target.size := by
      simp only [part_bounds, PART_SIZE] at hlow hhigh
      omega
    refine ⟨part, (hannounced part).mpr ?_, hbounds⟩
    rw [hclient, Source.available] at havailable
    dsimp only at havailable
    rwa [if_neg Bool.false_ne_true, Option.getD_some, if_neg (hparts hsize)] at havailable
  · rw [a4af_needed_parts, if_neg hgaps, if_neg Bool.false_ne_true]
    refine ⟨iff_of_false (Option.some_ne_none _) (Option.some_ne_none _), ?_⟩
    dsimp only
    rw [Option.some.injEq, List.any_eq_true, and_iff_right (Option.some_ne_none _)]
    exact exists_congr fun part => and_congr (hannounced part).symm decide_eq_true_iff
  · obtain ⟨count, hothers, hcounted⟩ := part_frequencies_cons ⟨false, some status.present_chunks⟩ clients hi
    have hmem : i ∈ Source.parts ⟨false, some status.present_chunks⟩ (part_count target.size) ↔
        Announced (some status) i := (hannounced i).symm
    refine ⟨count, hothers, fun hi => ?_, fun hi => ?_⟩
    · rwa [if_pos (hmem.mpr hi)] at hcounted
    · rwa [if_neg (hmem.not.mpr hi)] at hcounted

/-- A source that is complete from an earlier status is judged right only where the last one has all parts. -/
theorem mem_of_judged_complete {status : peer.FileStatus} (hcount : status.chunk_count ≠ 0)
    (hjudged : Judged target ⟨true, some status.present_chunks⟩ (some status)) {part : Nat}
    (hpart : part * PART_SIZE < max 1 target.size) : part ∈ status.present_chunks := by
  by_cases hsize : 0 < target.size
  · have hinside : ∀ gap ∈ [((part * PART_SIZE, part * PART_SIZE + 1) : Int × Int)],
        0 ≤ gap.1 ∧ gap.1 < gap.2 ∧ gap.2 ≤ target.size := by
      simp only [List.mem_singleton, forall_eq, PART_SIZE] at hpart ⊢
      omega
    obtain ⟨-, other, hother, hgate⟩ := (hjudged.needed _ (List.cons_ne_nil _ _) hinside).2.mp rfl
    have hsame : other = part := by
      obtain ⟨gap, hgap, hends⟩ := mem_gate_gap_parts.mp hgate
      obtain rfl := List.mem_singleton.mp hgap
      simp only [PART_SIZE] at hends
      omega
    exact hsame ▸ hother status rfl hcount
  · have hzero : part = 0 := by
      simp only [PART_SIZE] at hpart
      omega
    have hone : part_count target.size = 1 := by
      rw [part_count, if_pos (not_lt.mp hsize)]
    subst hzero
    by_contra hmissing
    have hnot : ¬Announced (some status) 0 := fun hannounced => hmissing (hannounced status rfl hcount)
    have hi : 0 < part_count target.size := hone ▸ Nat.zero_lt_one
    obtain ⟨count, hothers, -, hsame⟩ := hjudged.counted [] 0 hi
    obtain ⟨count', hothers', hcounted⟩ := part_frequencies_cons ⟨true, some status.present_chunks⟩ [] hi
    rw [hsame hnot, Option.some.injEq] at hcounted
    obtain rfl := Option.some.inj (hothers.symm.trans hothers')
    have hmem : 0 ∈ Source.parts ⟨true, some status.present_chunks⟩ (part_count target.size) := List.mem_range.mpr hi
    rw [if_pos hmem] at hcounted
    omega

/-- A peer whose last status has no part is asked for all of them. -/
theorem not_judged_of_empty (hsize : 0 < target.size) {status : peer.FileStatus} (hcount : status.chunk_count ≠ 0)
    (hempty : status.present_chunks = []) : ¬Judged target ⟨false, some status.present_chunks⟩ (some status) := by
  intro hjudged
  let order : SetOrder := ⟨Finset.toList, fun ranges range => Finset.mem_toList, Finset.nodup_toList⟩
  let swarm : Swarm := ⟨⟨Dict.empty, Dict.empty, Dict.empty, []⟩, Dict.empty, Dict.empty⟩
  let peers : Peers := ⟨[], ⟨false, some status.present_chunks⟩, order, fun _ => 0⟩
  have hrequested : ∀ x, ¬Covered (order.list (swarm.bucket target)) x := by
    rintro x ⟨range, hrange, -⟩
    rw [order.mem_list, Swarm.bucket, Dict.get_empty] at hrange
    exact Finset.notMem_empty range hrange
  have hcountPos : 0 < part_count target.size := by
    unfold part_count
    split <;> omega
  have hwanted : Wanted target.size (peers.client.available target.size) (inclusive_gaps [(0, 1)]) 0 := by
    refine ⟨0, ?_, hcountPos, ?_, (0, 0), List.mem_singleton_self _, le_refl _, le_refl _⟩
    · show 0 ∈ Source.available ⟨false, some status.present_chunks⟩ target.size
      rw [hempty]
      exact List.mem_range.mpr hcountPos
    · simp only [InRange, part_bounds, PART_SIZE]
      omega
  have hselected : swarm.selected target Session.new peers [(0, 1)] 1 ≠ [] := by
    intro hnil
    refine hrequested 0 (covered_of_not_starved (not_starved_of_free Nat.zero_lt_one fun x _ => hrequested x) hnil ?_)
    exact hwanted
  obtain ⟨range, hrange⟩ := List.exists_mem_of_ne_nil _ hselected
  obtain ⟨part, hpart, -⟩ := hjudged.selected swarm Session.new peers [(0, 1)] 1 rfl range hrange
  have hmem := hpart status rfl hcount
  rw [hempty] at hmem
  cases hmem

end judged

/-- Everywhere a peer is judged by its last status of the file, exactly where that status, if it counts parts, has one
of them, and has all where an earlier status said that the source was complete. -/
theorem judged_iff (target : Target) (payloads : List Bytes) :
    Judged target (source (peer.heard payloads) target.file_hash_bytes)
        (peer.statuses target.file_hash_bytes payloads).getLast? ↔
      Kept target.size (peer.statuses target.file_hash_bytes payloads) := by
  cases hlast : (peer.statuses target.file_hash_bytes payloads).getLast? with
  | none =>
    rw [source_of_none hlast]
    refine iff_of_true (judged_of_all (.inr ⟨rfl, rfl⟩) ?_ ?_) fun status hstatus => ?_
    · exact fun _ _ _ hstatus => absurd hstatus (Option.some_ne_none _).symm
    · exact fun _ _ _ hstatus => absurd hstatus (Option.some_ne_none _).symm
    · rw [hlast] at hstatus
      cases hstatus
  | some status =>
    rw [source_of_some hlast]
    have hkept : Kept target.size (peer.statuses target.file_hash_bytes payloads) ↔ (status.chunk_count ≠ 0 →
        (0 < target.size → status.present_chunks ≠ []) ∧
          ((∃ earlier ∈ peer.statuses target.file_hash_bytes payloads, earlier.chunk_count = 0) →
            ∀ part : Nat, part * PART_SIZE < max 1 target.size → part ∈ status.present_chunks)) := by
      unfold Kept
      rw [hlast]
      exact ⟨fun h => h status rfl, fun h other hother => Option.some.inj hother ▸ h⟩
    rw [hkept]
    have hmem := List.mem_of_getLast? hlast
    by_cases hcount : status.chunk_count = 0
    · have hall : ∀ part, Announced (some status) part :=
        fun part other hother hother0 => absurd (Option.some.inj hother ▸ hcount) hother0
      refine iff_of_true (judged_of_all (.inl ⟨?_, Option.some_ne_none _⟩) (fun part _ => hall part)
        fun part _ => hall part) fun hne => absurd hcount hne
      exact decide_eq_true ⟨status, hmem, hcount⟩
    by_cases hever : ∃ earlier ∈ peer.statuses target.file_hash_bytes payloads, earlier.chunk_count = 0
    · rw [decide_eq_true hever]
      constructor
      · refine fun hjudged _ => ⟨fun hsize => ?_, fun _ part hpart => mem_of_judged_complete hcount hjudged hpart⟩
        have hfirst : 0 ∈ status.present_chunks := mem_of_judged_complete hcount hjudged (by omega)
        exact List.ne_nil_of_mem hfirst
      · intro h
        have hpresent := (h hcount).2 hever
        obtain ⟨payload, hparse, -⟩ := peer.mem_statuses hmem
        obtain ⟨hfits, hbelow⟩ := peer.parse_file_status_bounds hparse
        have hsize : target.size < 2 ^ 52 := by
          by_contra hlarge
          have hlast : (65535 : Nat) * PART_SIZE < max 1 target.size := by
            simp only [PART_SIZE]
            omega
          have hlt := hbelow _ (hpresent 65535 hlast)
          omega
        have hannounced : ∀ part : Nat, part * PART_SIZE < max 1 target.size → Announced (some status) part :=
          fun part hpart other hother _ => Option.some.inj hother ▸ hpresent part hpart
        exact judged_of_all (.inl ⟨rfl, Option.some_ne_none _⟩)
          (fun part hpart => hannounced part (mul_lt_of_lt_part_count hsize hpart)) hannounced
    · rw [decide_eq_false hever]
      constructor
      · refine fun hjudged _ => ⟨fun hsize hempty => ?_, fun hcomplete => absurd hcomplete hever⟩
        exact not_judged_of_empty hsize hcount hempty hjudged
      · exact fun h => judged_of_parts hcount (h hcount).1

/-- A file of two parts. -/
def sampleFile : Target := ⟨"", List.replicate 16 0xAB, 19456000, 0⟩

/-- A complete source, which then has the first of two parts alone. -/
def samplePayloads : List Bytes :=
  [List.replicate 16 0xAB ++ [0x00, 0x00], List.replicate 16 0xAB ++ [0x02, 0x00, 0x01]]

theorem samplePayloads_forgotten :
    ¬∀ (target : Target) (payloads : List Bytes),
      Judged target (source (peer.heard payloads) target.file_hash_bytes)
        (peer.statuses target.file_hash_bytes payloads).getLast? := by
  intro hall
  have hjudged := hall sampleFile samplePayloads
  have hstatuses : peer.statuses sampleFile.file_hash_bytes samplePayloads =
      [⟨sampleFile.file_hash_bytes, 0, []⟩, ⟨sampleFile.file_hash_bytes, 2, [0]⟩] := rfl
  have hlast : (peer.statuses sampleFile.file_hash_bytes samplePayloads).getLast? =
      some ⟨sampleFile.file_hash_bytes, 2, [0]⟩ := by
    rw [hstatuses]
    rfl
  rw [source_of_some hlast, hlast, hstatuses, decide_eq_true ⟨_, List.mem_cons_self, rfl⟩] at hjudged
  have hsecond : 1 ∈ [0] := mem_of_judged_complete (by decide) hjudged (by decide)
  exact absurd hsecond (by decide)

end amuled.download.ics
