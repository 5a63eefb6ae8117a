import AmuleD.Download.Lifecycle
import AmuleD.Download.Paused
import AmuleD.Download.Regions
import AmuleD.Download.VerifyParts
import AmuleD.Peer.OwnEngine

open halfopen tiling

namespace amuled.download

open DownloadQueue PartFile

section WriteAt

variable {file data : Bytes} {start : Nat}

theorem write_at_eq (file : Bytes) (start : Nat) (hdata : data ≠ []) :
    write_at file start data = (file ++ List.replicate (start - file.length) 0).take start ++
      (data ++ file.drop (start + data.length)) := by
  rw [write_at, if_neg hdata, List.append_assoc]

theorem length_front (file : Bytes) (start : Nat) :
    ((file ++ List.replicate (start - file.length) (0 : UInt8)).take start).length = start := by
  rw [List.length_take, List.length_append, List.length_replicate]
  omega

theorem length_write_at_le {bound : Nat} (hfile : file.length ≤ bound) (hend : start + data.length ≤ bound) :
    (write_at file start data).length ≤ bound := by
  by_cases hdata : data = []
  · rw [write_at, if_pos hdata]
    exact hfile
  · rw [write_at_eq file start hdata, List.length_append, length_front, List.length_append, List.length_drop]
    omega

/-- A byte that is written. -/
theorem getElem?_write_at_inside {i : Nat} (hstart : start ≤ i) (hstop : i < start + data.length) :
    (write_at file start data)[i]? = data[i - start]? := by
  have hdata : data ≠ [] := by
    rintro rfl
    rw [List.length_nil] at hstop
    omega
  have hfront := length_front file start
  rw [write_at_eq file start hdata, List.getElem?_append_right (by omega), hfront, List.getElem?_append_left (by omega)]

/-- A byte of the file that is not written over. -/
theorem getElem?_write_at_outside {i : Nat} (hfile : i < file.length)
    (houtside : ¬(start ≤ i ∧ i < start + data.length)) :
    (write_at file start data)[i]? = file[i]? := by
  by_cases hdata : data = []
  · rw [write_at, if_pos hdata]
  · have hfront := length_front file start
    rw [write_at_eq file start hdata]
    by_cases hbefore : i < start
    · rw [List.getElem?_append_left (by omega), List.getElem?_take_of_lt hbefore, List.getElem?_append_left hfile]
    · rw [List.getElem?_append_right (by omega), hfront, List.getElem?_append_right (by omega), List.getElem?_drop]
      congr 1
      omega

end WriteAt

/-- An entry whose part file has the bytes of a file outside of its gaps. -/
structure Fetched (queue : DownloadQueue) (hash : String) (content : Bytes) (row : Download) (part : PartFile)
    (disk : Disk) : Prop where
  found : queue.rows.get hash = some row
  resumed : queue.resume_part row.part_path = .ok (part, disk)
  size : part.total_size = content.length
  short : disk.file.length ≤ content.length
  bytes : ∀ i < content.length, ¬Covers part.gaps (i : Int) → disk.file[i]? = content[i]?

/-- Blocks that are recorded one after the other. -/
def DownloadQueue.record_blocks (file_hash : String) : DownloadQueue → List (Nat × Bytes) → Except Exc DownloadQueue
  | queue, [] => .ok queue
  | queue, (start, data) :: rest => do
    let next ← queue.record_block file_hash start data
    record_blocks file_hash next rest

section Record

variable {queue : DownloadQueue} {file_hash hash : String} {content : Bytes} {row : Download} {part : PartFile}
  {disk : Disk}

theorem Fetched.inside (h : Fetched queue hash content row part disk) {x : Int} (hx : Covers part.gaps x) :
    0 ≤ x ∧ x < content.length := by
  have hstable := stable_resume_part h.resumed
  rw [← hstable.normal, covers_normalize_gaps hstable.positive.le, h.size] at hx
  exact hx.2

theorem Fetched.not_covers_iff (h : Fetched queue hash content row part disk) :
    part.gaps = [] ↔ ∀ x, ¬Covers part.gaps x := by
  constructor
  · intro hgaps x
    rw [hgaps]
    exact not_covers_nil x
  · intro hnone
    have hstable := stable_resume_part h.resumed
    have hcanonical := canonical_normalize_gaps part.gaps part.total_size
    rw [hstable.normal] at hcanonical
    apply hcanonical.ext canonical_nil
    intro x
    exact iff_of_false (hnone x) (not_covers_nil x)

/-- A part file without gaps holds the file. -/
theorem Fetched.whole (h : Fetched queue hash content row part disk) (hgaps : part.gaps = []) :
    disk.file = content := by
  apply List.ext_getElem?
  intro i
  by_cases hi : i < content.length
  · rw [h.bytes i hi]
    rw [hgaps]
    exact not_covers_nil _
  · have hshort := h.short
    rw [List.getElem?_eq_none (by omega), List.getElem?_eq_none (by omega)]

/-- A part file that was saved is found again. -/
theorem resume_part_save_part (hstable : Stable part) (file : Bytes) (status : DownloadStatus) :
    (queue.save_part hash row part file status).resume_part row.part_path =
      .ok (⟨row.part_path.text, part.total_size, part.gaps⟩, ⟨file, some ⟨part.total_size, part.gaps⟩⟩) := by
  unfold resume_part save_part
  simp only [Dict.get_set_self, PartFile.resume, PartFile.new]
  rw [if_neg (Int.not_le.mpr hstable.positive), ok_bind, ok_bind, hstable.normal]

/-- What the record of a block changes. -/
structure RowAfter (queue next : DownloadQueue) (hash : String) (row after : Download) (complete : Prop)
    [Decidable complete] : Prop where
  name : after.name = row.name
  part_path : after.part_path = row.part_path
  status : after.status = if complete then .COMPLETE else .DOWNLOADING
  others : ∀ other, other ≠ hash → next.rows.get other = queue.rows.get other

/-- A slice of the file is recorded, and its bytes are no longer missing. -/
theorem Fetched.record_block (h : Fetched queue hash content row part disk)
    (hnormal : normalize_hash file_hash = .ok hash) {start : Nat} {data : Bytes} (hslice : Slice content (start, data)) :
    ∃ next after filled written, queue.record_block file_hash start data = .ok next ∧
      Fetched next hash content after filled written ∧
      (∀ x, Covers filled.gaps x ↔ Covers part.gaps x ∧ ¬(start ≤ x ∧ x < start + data.length)) ∧
      RowAfter queue next hash row after (filled.gaps = []) := by
  obtain ⟨hend, hdata⟩ := hslice
  dsimp only at hend hdata
  have hstable := stable_resume_part h.resumed
  have hsize := h.size
  have hinside : ¬((start : Int) < 0 ∨ start + data.length > part.total_size) := by omega
  obtain ⟨filled, hfilled⟩ : ∃ filled, filled = part.apply_gap_fill start (start + data.length) := ⟨_, rfl⟩
  have hwrite : part.write_block disk start data =
      .ok (filled.remaining_bytes, filled, { disk with file := write_at disk.file start data }) := by
    rw [PartFile.write_block, if_neg hinside, hfilled]
    rfl
  have htotal : filled.total_size = part.total_size := total_size_write_block hwrite
  have hcovers : ∀ x, Covers filled.gaps x ↔ Covers part.gaps x ∧ ¬(start ≤ x ∧ x < start + data.length) := by
    intro x
    rw [hfilled, PartFile.apply_gap_fill, covers_normalize_gaps hstable.positive.le, covers_fill]
    constructor
    · exact fun hleft => hleft.1
    · intro hleft
      have hplace := h.inside hleft.1
      rw [h.size]
      exact ⟨hleft, hplace⟩
  have hrecord : queue.record_block file_hash start data =
      .ok (queue.save_part hash row filled (write_at disk.file start data)
        (if filled.is_complete then .COMPLETE else .DOWNLOADING)) := by
    unfold DownloadQueue.record_block
    rw [hnormal, ok_bind, find_eq_ok_iff.mpr h.found, ok_bind, h.resumed, ok_bind]
    dsimp only
    rw [hwrite, ok_bind]
  refine ⟨_, _, _, _, hrecord, ⟨Dict.get_set_self _ _ _, resume_part_save_part (hstable.write_block hwrite) _ _,
    htotal.trans hsize, length_write_at_le h.short hend, ?_⟩, hcovers, ⟨rfl, rfl, ?_, ?_⟩⟩
  · intro i hi hmissing
    dsimp only at hmissing ⊢
    rw [hcovers] at hmissing
    by_cases hwritten : start ≤ i ∧ i < start + data.length
    · rw [getElem?_write_at_inside hwritten.1 hwritten.2]
      have hbyte : data[i - start]? = (content.extract start (start + data.length))[i - start]? :=
        congrArg (fun bytes : Bytes => bytes[i - start]?) hdata
      have hplace : start + (i - start) = i := by omega
      rw [hbyte, List.extract_eq_take_drop, List.getElem?_take_of_lt (by omega), List.getElem?_drop, hplace]
    · have hthere : ¬Covers part.gaps (i : Int) := by
        intro hgap
        apply hmissing
        refine ⟨hgap, ?_⟩
        omega
      have hbytes := h.bytes i hi hthere
      have hfile : i < disk.file.length := by
        rw [List.getElem?_eq_getElem hi] at hbytes
        exact (List.getElem?_eq_some_iff.mp hbytes).1
      rw [getElem?_write_at_outside hfile hwritten, hbytes]
  · dsimp only
    by_cases hgaps : filled.gaps = []
    · rw [if_pos ((is_complete_iff filled).mpr hgaps), if_pos hgaps]
    · rw [if_neg (mt (is_complete_iff filled).mp hgaps), if_neg hgaps]
  · intro other hother
    exact Dict.get_set_of_ne hother _ _

/-- Slices of the file are recorded in any order, and what is missing is what none of them brought. -/
theorem Fetched.record_blocks (hnormal : normalize_hash file_hash = .ok hash) {writes : List (Nat × Bytes)}
    (hslices : ∀ write ∈ writes, Slice content write) (h : Fetched queue hash content row part disk) :
    ∃ next after filled written, DownloadQueue.record_blocks file_hash queue writes = .ok next ∧
      Fetched next hash content after filled written ∧
      (∀ x : Int, Covers filled.gaps x ↔
        Covers part.gaps x ∧ ¬∃ write ∈ writes, (write.1 : Int) ≤ x ∧ x < write.1 + write.2.length) ∧
      after.name = row.name ∧ after.part_path = row.part_path ∧
      (writes ≠ [] → after.status = if filled.gaps = [] then .COMPLETE else .DOWNLOADING) ∧
      ∀ other, other ≠ hash → next.rows.get other = queue.rows.get other := by
  induction writes generalizing queue row part disk with
  | nil =>
    refine ⟨queue, row, part, disk, rfl, h, ?_, rfl, rfl, fun hne => absurd rfl hne, fun _ _ => rfl⟩
    intro x
    simp only [List.not_mem_nil, false_and, exists_false, not_false_eq_true, and_true]
  | cons write rest ih =>
    obtain ⟨start, data⟩ := write
    rw [List.forall_mem_cons] at hslices
    obtain ⟨middle, row', part', disk', hrecord, hmiddle, hcovers, hrow⟩ := h.record_block hnormal hslices.1
    obtain ⟨next, after, filled, written, hrest, hnext, hmissing, hname, hpath, hstatus, hothers⟩ :=
      ih hslices.2 hmiddle
    refine ⟨next, after, filled, written, ?_, hnext, ?_, hname.trans hrow.name, hpath.trans hrow.part_path, ?_, ?_⟩
    · rw [DownloadQueue.record_blocks, hrecord, ok_bind, hrest]
    · intro x
      rw [hmissing, hcovers, List.exists_mem_cons_iff, not_or, and_assoc]
    · intro _
      by_cases hmore : rest = []
      · subst hmore
        cases hrest
        have hsame : row' = after := by
          have hfound := hmiddle.found
          rw [hnext.found, Option.some.injEq] at hfound
          exact hfound.symm
        subst hsame
        rw [hrow.status]
        have hgaps : part'.gaps = [] ↔ filled.gaps = [] := by
          rw [hmiddle.not_covers_iff, hnext.not_covers_iff]
          apply forall_congr'
          intro x
          rw [hmissing]
          simp only [List.not_mem_nil, false_and, exists_false, not_false_eq_true, and_true]
        by_cases hnone : filled.gaps = []
        · rw [if_pos hnone, if_pos (hgaps.mpr hnone)]
        · rw [if_neg hnone, if_neg (mt hgaps.mp hnone)]
      · exact hstatus hmore
    · intro other hother
      rw [hothers other hother, hrow.others other hother]

/-- A part file that holds the file of its hash passes every check of `finalize`. -/
theorem Fetched.finalize_eq {config : QueueConfig} (h : Fetched queue hash content row part disk)
    (hnormal : normalize_hash file_hash = .ok hash) (hgaps : part.gaps = []) (hstatus : row.status = .COMPLETE)
    (hhash : DownloadQueue.file_hash config content = hash) {free : Nat} (hfree : content.length < free) :
    queue.finalize config file_hash true free = queue.move_named config hash row content := by
  have hfile := files_of_resume_part h.resumed
  rw [h.whole hgaps] at hfile
  have hverify : queue.verify_file config hash row.part_path content = .ok () := by
    unfold verify_file
    rw [h.resumed, ok_bind]
    dsimp only
    rw [(is_complete_iff part).mpr hgaps, if_neg nofun, if_neg (not_not.mpr hhash)]
  unfold DownloadQueue.finalize
  rw [hnormal, ok_bind, find_eq_ok_iff.mpr h.found, ok_bind, if_neg (not_not.mpr hstatus), hfile]
  dsimp only
  rw [if_neg (Nat.not_le.mpr hfree), if_pos rfl, hverify, ok_bind]

/-- A new download has all of its file to fetch. -/
theorem fetched_add {config : QueueConfig} {name : String} {free : Nat} {added : DownloadQueue}
    (hnormal : normalize_hash file_hash = .ok hash) (hfresh : queue.rows.get hash = none)
    (hadd : queue.add config file_hash name content.length free = .ok added) :
    ∃ row part disk, Fetched added hash content row part disk ∧ row.name = name := by
  unfold DownloadQueue.add at hadd
  rw [hnormal, ok_bind, hfresh] at hadd
  obtain ⟨part, hpart, hafter⟩ := bind_eq_ok_iff.mp hadd
  obtain ⟨opened, hopened, hnext⟩ := bind_eq_ok_iff.mp hafter
  cases hnext
  unfold PartFile.new at hpart
  split at hpart
  · cases hpart
  rename_i hpositive
  cases hpart
  have hsize : (0 : Int) < content.length := Int.not_le.mp hpositive
  have hfile : ∃ file, opened.files.get (part_path config hash) = some file ∧ file.length ≤ content.length ∧
      opened.sidecars.get (part_path config hash) = some ⟨content.length, [⟨0, content.length⟩]⟩ := by
    unfold open_new at hopened
    dsimp only at hopened
    split_ifs at hopened with hsame
    · cases hopened
      obtain ⟨file, hfile, hlength⟩ := Option.map_eq_some_iff.mp hsame
      exact ⟨file, hfile, by omega, Dict.get_set_self _ _ _⟩
    · cases hopened
      exact ⟨[], Dict.get_set_self _ _ _, Nat.zero_le _, Dict.get_set_self _ _ _⟩
    · cases hopened
      refine ⟨_, Dict.get_set_self _ _ _, ?_, Dict.get_set_self _ _ _⟩
      rw [List.length_replicate, Int.toNat_natCast]
  obtain ⟨file, hfile, hlength, hsidecar⟩ := hfile
  have hnew : PartFile.resume (part_path config hash).text ⟨[], some ⟨content.length, [⟨0, content.length⟩]⟩⟩ =
      .ok ⟨(part_path config hash).text, content.length, [⟨0, content.length⟩]⟩ :=
    resume_eq hsize rfl (faithful_new hsize)
  refine ⟨_, ⟨(part_path config hash).text, content.length, [⟨0, content.length⟩]⟩,
    ⟨file, some ⟨content.length, [⟨0, content.length⟩]⟩⟩, ⟨Dict.get_set_self _ _ _, ?_, rfl, hlength, ?_⟩, rfl⟩
  · unfold resume_part
    simp only [hsidecar, hnew, ok_bind, hfile]
  · intro i hi hnot
    apply absurd _ hnot
    rw [covers_cons]
    exact .inl ⟨by simp only; omega, by simp only; omega⟩

end Record

section Regions

theorem fill_budget_inside (gap : Gap) {pos : Int} (hpos : pos ≤ gap.stop) (budget : Int) :
    (fill_budget [gap] pos budget).1 = [gap] ∧ (fill_budget [gap] pos budget).2 ≤ gap.stop := by
  induction hleft : budget.toNat using Nat.strong_induction_on generalizing pos budget with
  | h left ih =>
    subst hleft
    rw [fill_budget.eq_def]
    dsimp only
    split_ifs with hbudget htake
    · exact ⟨rfl, hpos⟩
    · have hless : (budget - min (gap.stop - pos) budget).toNat < budget.toNat := by omega
      have hnext : pos + min (gap.stop - pos) budget ≤ gap.stop := by omega
      exact ih _ hless hnext _ rfl
    · exact ⟨rfl, hpos⟩

theorem fill_regions_inside (gap : Gap) (per : Int) (peers : Nat) {pos : Int} (hpos : pos ≤ gap.stop) :
    ∀ region ∈ fill_regions per peers [gap] pos, region.stop ≤ gap.stop := by
  induction peers generalizing pos with
  | zero => exact fun _ hregion => absurd hregion List.not_mem_nil
  | succ peers ih =>
    obtain ⟨hgaps, hstop⟩ := fill_budget_inside gap hpos per
    rw [fill_regions, if_neg (List.cons_ne_nil _ _)]
    dsimp only
    rw [hgaps]
    split_ifs with hmoved
    · rw [List.forall_mem_cons]
      exact ⟨hstop, ih hstop⟩
    · exact fun _ hregion => absurd hregion List.not_mem_nil

/-- The regions of the first round lie in the file, and share out its bytes. -/
theorem regions_of_file {size peers : Int} (hsize : 0 < size) (hpeers : 1 ≤ peers) :
    (∀ region ∈ regions_from_gaps [⟨0, size⟩] peers,
      0 ≤ region.start ∧ region.start < region.stop ∧ region.stop ≤ size) ∧
    ∀ x, 0 ≤ x → x < size → Covers (regions_from_gaps [⟨0, size⟩] peers) x := by
  have hspaced : Spaced [(⟨0, size⟩ : Gap)] := by
    refine ⟨?_, List.pairwise_singleton _ _⟩
    intro gap hgap
    rw [List.mem_singleton.mp hgap]
    exact hsize
  have hcursor : Cursor [⟨0, size⟩] 0 := ⟨hspaced, ⟨0, size⟩, [], rfl, le_refl 0, .inl hsize⟩
  have hper : 0 < (size + peers - 1) / peers := (Int.le_ediv_iff_mul_le (by omega)).mpr (by omega)
  have hleft : gap_bytes_left [⟨0, size⟩] 0 = size := by
    simp only [gap_bytes_left, List.map_nil, List.sum_nil]
    omega
  have hfits : gap_bytes_left [⟨0, size⟩] 0 ≤ peers.toNat * ((size + peers - 1) / peers) := by
    rw [hleft, Int.toNat_of_nonneg (by omega)]
    have hmul := Int.lt_mul_ediv_self_add (x := size + peers - 1) (show 0 < peers by omega)
    omega
  have hcut := cut_fill_regions hper peers.toNat hcursor hfits
  have hregions : regions_from_gaps [⟨0, size⟩] peers =
      fill_regions ((size + peers - 1) / peers) peers.toNat [⟨0, size⟩] 0 := by
    have htotal : (([⟨0, size⟩] : List Gap).map Gap.length).sum = size := by
      simp only [List.map_cons, List.map_nil, List.sum_cons, List.sum_nil, Gap.length]
      omega
    simp only [regions_from_gaps, htotal]
    rw [if_neg (by omega)]
  rw [hregions]
  constructor
  · intro region hregion
    exact ⟨hcut.behind region hregion, hcut.spaced.nonempty region hregion,
      fill_regions_inside ⟨0, size⟩ _ _ hsize.le region hregion⟩
  · intro x hstart hstop
    exact hcut.covers x hstart (covers_cons.mpr (.inl ⟨hstart, hstop⟩))

end Regions

open peer (Zlib TransferArgs Transfer ServedRun engine_exchange begin_transfer served_transfer_ends written round_size
  build_hashset_answer_payload parse_hashset_answer)
open upload (SharedFile)

/-- The attempt at a peer that is an upload session of our own, for one of the regions of a round. -/
structure Session where
  allow_compression : Bool
  start : Nat
  stop : Nat

namespace Session

def region (session : Session) : Region := ⟨session.start, session.stop⟩

/-- What the attempt passes to `transfer`. -/
def args (session : Session) (shared_file : SharedFile) : TransferArgs where
  file_hash := shared_file.file_hash
  total_size := shared_file.size
  start_offset := session.start
  end_offset := some session.stop

/-- The transfer of a session returns, and reports that it is complete. -/
def Delivers (zlib : Zlib) (shared_file : SharedFile) (session : Session) (transfer : Transfer) : Prop :=
  ∃ rounds outcome, engine_exchange zlib session.allow_compression shared_file (session.args shared_file) rounds
    (begin_transfer (session.args shared_file)) = .finished outcome transfer ∧ outcome.complete = true

end Session

section Race

variable {zlib : Zlib} {shared_file : SharedFile} {content : Bytes} {session : Session}

/-- A session delivers its region of a file of one part. -/
theorem exists_delivery (zlib : Zlib) (hlength : shared_file.file_hash.length = 16)
    (hcontent : shared_file.content = content) (hsize : shared_file.size = content.length)
    (hone : content.length ≤ PARTSIZE) (hstart : session.start ≤ session.stop) (hstop : session.stop ≤ content.length) :
    ∃ transfer writes, session.Delivers zlib shared_file transfer ∧ (transfer.parts.map written).Perm writes ∧
      Tiles content session.start session.stop writes := by
  subst hcontent
  have hshort : shared_file.content.length < 2 ^ 64 := Nat.lt_of_le_of_lt hone (by decide)
  have hrun : ServedRun shared_file (session.args shared_file) := ⟨rfl, hlength, hsize, hstart, hstop, hshort⟩
  obtain ⟨rounds, outcome, transfer, writes, hfinished, hperm, htiles, _, hcomplete, hbudget⟩ :=
    served_transfer_ends zlib session.allow_compression hrun
  have hdone : outcome.complete = true := by
    apply hbudget
    intro round hround
    have hplace : session.start + round * round_size < session.stop := hround
    have hfew : round * round_size < PARTSIZE := by omega
    have hless : round < 18 := by
      by_contra hmany
      have hmul := Nat.mul_le_mul_right round_size (Nat.not_lt.mp hmany)
      have hpart : PARTSIZE ≤ 18 * round_size := by decide
      omega
    have hmax : (session.args shared_file).max_blocks = 100000 := rfl
    rw [hmax, peer.PIECES_PER_ROUND]
    omega
  have hreached : session.start + transfer.received = session.stop := hcomplete.mp hdone
  refine ⟨transfer, writes, ⟨rounds, outcome, hfinished, hdone⟩, hperm, ?_⟩
  rw [← hreached]
  exact htiles

/-- Every session of a round delivers its region, in slices of the file that leave none of it out. -/
theorem exists_deliveries (zlib : Zlib) (hlength : shared_file.file_hash.length = 16)
    (hcontent : shared_file.content = content) (hsize : shared_file.size = content.length)
    (hone : content.length ≤ PARTSIZE) {sessions : List Session}
    (hsessions : ∀ session ∈ sessions, session.start ≤ session.stop ∧ session.stop ≤ content.length) :
    ∃ transfers, List.Forall₂ (Session.Delivers zlib shared_file) sessions transfers ∧
      (∀ write ∈ transfers.flatMap fun transfer => transfer.parts.map written, Slice content write) ∧
      ∀ x : Int, Covers (sessions.map Session.region) x →
        ∃ write ∈ transfers.flatMap fun transfer => transfer.parts.map written,
          (write.1 : Int) ≤ x ∧ x < write.1 + write.2.length := by
  induction sessions with
  | nil => exact ⟨[], .nil, fun _ hwrite => absurd hwrite List.not_mem_nil, fun x hx => absurd hx (not_covers_nil x)⟩
  | cons session sessions ih =>
    rw [List.forall_mem_cons] at hsessions
    obtain ⟨transfers, hdelivers, hslices, hcovers⟩ := ih hsessions.2
    obtain ⟨transfer, writes, hfirst, hperm, htiles⟩ :=
      exists_delivery zlib hlength hcontent hsize hone hsessions.1.1 hsessions.1.2
    refine ⟨transfer :: transfers, .cons hfirst hdelivers, ?_, ?_⟩
    · intro write hwrite
      rw [List.flatMap_cons, List.mem_append] at hwrite
      rcases hwrite with hwrite | hwrite
      · exact htiles.slice write (hperm.mem_iff.mp hwrite)
      · exact hslices write hwrite
    · intro x hx
      simp only [List.flatMap_cons, List.mem_append]
      rw [List.map_cons, covers_cons] at hx
      rcases hx with hx | hx
      · obtain ⟨hstart, hstop⟩ : (session.start : Int) ≤ x ∧ x < session.stop := hx
        obtain ⟨write, hwrite, hholds⟩ := (htiles.mem_piece_iff x.toNat).mpr ⟨by omega, by omega⟩
        exact ⟨write, .inl (hperm.mem_iff.mpr hwrite), by omega, by omega⟩
      · obtain ⟨write, hwrite, hholds⟩ := hcovers x hx
        exact ⟨write, .inr hwrite, hholds⟩

end Race

/-- A file of one part that our own upload sessions share arrives: in the first round every transfer returns complete,
the blocks of all of them are recorded in whatever order they arrive, and the part file that they leave is the file,
which passes the check of the part against the hashset of an uploader and every check of `finalize`. -/
theorem shared_file_downloaded {config : QueueConfig} {queue : DownloadQueue} (zlib : Zlib) {shared_file : SharedFile}
    {content : Bytes} {file_hash : String} {row : Download} {part : PartFile} {disk : Disk} {peers : Int}
    {sessions : List Session} (hdescribes : shared_file.Describes config.md4 content)
    (hnormal : normalize_hash file_hash = .ok (hex_lower shared_file.file_hash)) (hone : content.length ≤ PARTSIZE)
    (hentry : Fetched queue (hex_lower shared_file.file_hash) content row part disk) (hpeers : 1 ≤ peers)
    (hsessions : sessions.map Session.region = regions_from_gaps [⟨0, content.length⟩] peers) :
    ∃ transfers, List.Forall₂ (Session.Delivers zlib shared_file) sessions transfers ∧
      ∀ writes, writes.Perm (transfers.flatMap fun transfer => transfer.parts.map written) →
        ∃ next after, queue.record_blocks file_hash writes = .ok next ∧
          next.rows.get (hex_lower shared_file.file_hash) = some after ∧ after.name = row.name ∧
          after.status = .COMPLETE ∧ next.files.get after.part_path = some content ∧
          (∀ other, other ≠ hex_lower shared_file.file_hash → next.rows.get other = queue.rows.get other) ∧
          (∀ payload hashset, build_hashset_answer_payload shared_file.file_hash (shared_file.chunk_hashes config.md4) =
            .ok payload → parse_hashset_answer payload = .ok hashset →
            verify_parts_against_hashset config.md4.hash (some content) content.length hashset = []) ∧
          ∀ free, content.length < free → next.finalize config file_hash true free =
            next.move_named config (hex_lower shared_file.file_hash) after content := by
  have hpositive : (0 : Int) < content.length := by
    rw [← hentry.size]
    exact (stable_resume_part hentry.resumed).positive
  obtain ⟨hinside, hshared⟩ := regions_of_file hpositive hpeers
  have hplaced : ∀ session ∈ sessions, session.start ≤ session.stop ∧ session.stop ≤ content.length := by
    intro session hsession
    have hregion : session.region ∈ regions_from_gaps [⟨0, (content.length : Int)⟩] peers := by
      rw [← hsessions]
      exact List.mem_map_of_mem hsession
    obtain ⟨_, hlt, hle⟩ := hinside _ hregion
    simp only [Session.region] at hlt hle
    omega
  obtain ⟨transfers, hdelivers, hslices, hcovers⟩ :=
    exists_deliveries zlib hdescribes.length_file_hash hdescribes.content hdescribes.size hone hplaced
  refine ⟨transfers, hdelivers, ?_⟩
  intro writes hperm
  have hbytes : ∀ x, 0 ≤ x → x < (content.length : Int) →
      ∃ write ∈ writes, (write.1 : Int) ≤ x ∧ x < write.1 + write.2.length := by
    intro x hstart hstop
    have hregion := hshared x hstart hstop
    rw [← hsessions] at hregion
    obtain ⟨write, hwrite, hholds⟩ := hcovers x hregion
    exact ⟨write, hperm.mem_iff.mpr hwrite, hholds⟩
  obtain ⟨next, after, filled, image, hrecord, hnext, hmissing, hname, _, hstatus, hothers⟩ :=
    hentry.record_blocks hnormal fun write hwrite => hslices write (hperm.mem_iff.mp hwrite)
  have hgaps : filled.gaps = [] := by
    rw [hnext.not_covers_iff]
    intro x hx
    have hplace := hnext.inside hx
    exact ((hmissing x).mp hx).2 (hbytes x hplace.1 hplace.2)
  have hsome : writes ≠ [] := by
    rintro rfl
    obtain ⟨write, hwrite, _⟩ := hbytes 0 (le_refl 0) hpositive
    exact List.not_mem_nil hwrite
  have hcomplete : after.status = .COMPLETE := by rw [hstatus hsome, if_pos hgaps]
  have hhash : DownloadQueue.file_hash config content = hex_lower shared_file.file_hash := by
    rw [DownloadQueue.file_hash, ed2k.ed2k_hash_file_eq, hdescribes.file_hash]
  have hfile := files_of_resume_part hnext.resumed
  rw [hnext.whole hgaps] at hfile
  refine ⟨next, after, hrecord, hnext.found, hname, hcomplete, hfile, hothers, ?_, ?_⟩
  · intro payload hashset hbuild hparse
    have hpos : 0 < content.length := by omega
    rw [parse_own_answer config.md4 hdescribes hpos hbuild, Except.ok.injEq] at hparse
    rw [← hparse, verify_own_answer_one_part config.md4 rfl hpos hone, corruptParts_eq_nil_iff]
    exact fun _ _ => rfl
  · intro free hfree
    exact hnext.finalize_eq hnormal hgaps hcomplete hhash hfree

section Samples

/-- A shared file of two bytes. -/
def sampleShared : SharedFile := .ofData sampleQueueConfig.md4 [1, 2]

theorem hash_sampleShared : hex_lower sampleShared.file_hash = sampleHash '0' := by
  rw [← file_hash_sample [1, 2], DownloadQueue.file_hash, ed2k.ed2k_hash_file_eq]
  rfl

/-- One peer sends both bytes. -/
theorem shared_file_downloaded_two_bytes :
    ∃ transfers, List.Forall₂ (Session.Delivers upload.zerosZlib sampleShared) [⟨true, 0, 2⟩] transfers ∧
      ∀ writes, writes.Perm (transfers.flatMap fun transfer => transfer.parts.map written) →
        ∃ next after, sampleAdded.record_blocks (sampleHash '0') writes = .ok next ∧
          next.rows.get (hex_lower sampleShared.file_hash) = some after ∧ after.name = "a" ∧
          after.status = .COMPLETE ∧ next.files.get after.part_path = some [1, 2] := by
  have hnormal : normalize_hash (sampleHash '0') = .ok (hex_lower sampleShared.file_hash) := by
    rw [hash_sampleShared, normalize_sampleHash]
  have hfresh : emptyQueue.rows.get (hex_lower sampleShared.file_hash) = none := Dict.get_empty _
  obtain ⟨row, part, disk, hentry, hname⟩ := fetched_add hnormal hfresh
    (show emptyQueue.add sampleQueueConfig (sampleHash '0') "a" ([1, 2] : Bytes).length 100 = .ok sampleAdded from
      add_sampleAdded)
  have hregions : [(⟨true, 0, 2⟩ : Session)].map Session.region =
      regions_from_gaps [⟨0, ([1, 2] : Bytes).length⟩] 1 := by
    simp [regions_from_gaps, fill_regions, fill_budget.eq_def, next_gap, Gap.length, Session.region]
  obtain ⟨transfers, hdelivers, hall⟩ := shared_file_downloaded upload.zerosZlib
    (upload.SharedFile.describes_ofData sampleQueueConfig.md4 [1, 2]) hnormal (by decide) hentry (le_refl 1) hregions
  refine ⟨transfers, hdelivers, ?_⟩
  intro writes hperm
  obtain ⟨next, after, hrecord, hfound, hafter, hstatus, hfile, _⟩ := hall writes hperm
  exact ⟨next, after, hrecord, hfound, hafter.trans hname, hstatus, hfile⟩

end Samples

end amuled.download
