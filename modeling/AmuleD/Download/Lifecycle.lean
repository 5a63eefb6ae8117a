import AmuleD.Download.Incoming

namespace amuled.download

open DownloadQueue ed2k

/-- How `DownloadRunner.run` begins: it answers for a complete entry, or goes on to fetch the file. -/
inductive RunAnswer where
  | already_complete
  | fetch
  deriving DecidableEq

def DownloadQueue.run_answer (queue : DownloadQueue) (file_hash : String) : Except Exc RunAnswer := do
  let normalized ← normalize_hash file_hash
  match queue.rows.get normalized with
  | none => .error (.DownloadQueueError s!"download not found: {file_hash}")
  | some row => .ok (if row.status = .COMPLETE then .already_complete else .fetch)

/-- A call about one entry. What `run` does after its answer are calls of the other kinds, by its attempts
and at the end of them. -/
inductive EntryCall where
  | add (name : String) (size : Int) (free : Nat)
  | start
  | pause
  | resume
  | record_block (start : Int) (data : Bytes)
  | punch_gaps (ranges : List (Int × Int))
  | finalize (free : Nat)
  | run

/-- The call on the queue, unless it is the first step of `run`. -/
def EntryCall.call (file_hash : String) : EntryCall → Option QueueCall
  | .add name size free => some (.add file_hash name size free)
  | .start => some (.start file_hash)
  | .pause => some (.pause file_hash)
  | .resume => some (.resume file_hash)
  | .record_block offset data => some (.record_block file_hash offset data)
  | .punch_gaps ranges => some (.punch_gaps file_hash ranges)
  | .finalize free => some (.finalize file_hash true free)
  | .run => none

namespace DownloadQueue

variable (config : QueueConfig)

def afterEntry (queue : DownloadQueue) (file_hash : String) (call : EntryCall) : DownloadQueue :=
  match call.call file_hash with
  | none => queue
  | some call => queue.after config call

def runEntry (queue : DownloadQueue) (file_hash : String) (calls : List EntryCall) : DownloadQueue :=
  calls.foldl (fun queue call => queue.afterEntry config file_hash call) queue

/-- A block that leaves the part file of a download without gaps. -/
def fills (queue : DownloadQueue) (hash : String) (start : Int) (data : Bytes) : Bool :=
  match queue.rows.get hash with
  | none => false
  | some row =>
    match queue.resume_part row.part_path with
    | .error _ => false
    | .ok (part, disk) =>
      match part.write_block disk start data with
      | .error _ => false
      | .ok (_, filled, _) => filled.is_complete

/-- A block has filled the part file, and no `start`, `pause`, `punch_gaps` or `finalize` came after it. -/
def filledAfter (queue : DownloadQueue) (hash : String) (filled : Bool) : EntryCall → Bool
  | .record_block start data => filled || queue.fills hash start data
  | .add _ _ _ => filled
  | .resume => filled
  | .run => filled
  | _ => false

/-- The part file holds the file of the hash, and it can be moved to the name of the download. -/
structure Genuine (queue : DownloadQueue) (hash : String) (row : Download) (content : Bytes) (free : Nat) : Prop where
  hash : file_hash config content = hash
  room : content.length < free
  name : '\x00' ∉ row.name.toList
  target : ∃ target, target_of config row.name = some target ∧
    (config.is_dir target = true → queue.files.get (target ++ [row.part_path.getLastD ""]) = none ∧
      config.is_dir (target ++ [row.part_path.getLastD ""]) = false)

/-- While a filled part file waits, `run` is not called, and a `finalize` finds the file of the hash. -/
def FitsFilled (queue : DownloadQueue) (hash : String) (filled : Bool) : EntryCall → Prop
  | .run => filled = false
  | .finalize free => filled = true → ∀ row content, queue.rows.get hash = some row →
      queue.files.get row.part_path = some content → queue.Genuine config hash row content free
  | _ => True

def MeetsFilled (file_hash hash : String) (queue : DownloadQueue) (filled : Bool) : List EntryCall → Prop
  | [] => True
  | call :: rest => queue.FitsFilled config hash filled call ∧
      MeetsFilled file_hash hash (queue.afterEntry config file_hash call) (queue.filledAfter hash filled call) rest

/-- The file of an entry was finalized, with the hash of the entry. -/
def Verified (queue : DownloadQueue) (hash : String) : Prop :=
  ∃ file ∈ queue.moved, file.hash = hash ∧ file_hash config file.content = hash

/-- The part file of an entry is there and has no gaps. -/
def Whole (queue : DownloadQueue) (hash : String) : Prop :=
  ∃ row part disk, queue.rows.get hash = some row ∧ queue.resume_part row.part_path = .ok (part, disk) ∧
    part.gaps = []

/-- An entry is complete only while a filled part file waits, or after its file was verified. -/
structure Settled (queue : DownloadQueue) (hash : String) (filled : Bool) : Prop where
  whole : filled = true → queue.Whole hash
  verified : filled = false → ∀ row, queue.rows.get hash = some row → row.status = .COMPLETE →
    queue.Verified config hash

section Steps

variable {config : QueueConfig} {queue next : DownloadQueue} {file_hash hash : String} {filled : Bool}

theorem is_complete_iff (part : PartFile) : part.is_complete = true ↔ part.gaps = [] := List.isEmpty_iff

/-- A part file without gaps is found again as it was saved. -/
theorem whole_save_part {row : Download} {part filledPart : PartFile} {disk : Disk} {file : Bytes}
    {status : DownloadStatus} (hresume : queue.resume_part row.part_path = .ok (part, disk))
    (hsize : filledPart.total_size = part.total_size) (hgaps : filledPart.gaps = []) :
    (queue.save_part hash row filledPart file status).Whole hash := by
  obtain ⟨resumed, hpart, hopened⟩ := bind_eq_ok_iff.mp hresume
  have hpositive : ¬ part.total_size ≤ 0 := by
    have hsame : resumed = part := by
      cases hfile : queue.files.get row.part_path with
      | none =>
        rw [hfile] at hopened
        cases hopened
      | some file =>
        rw [hfile] at hopened
        cases hopened
        rfl
    subst hsame
    unfold PartFile.resume at hpart
    split at hpart
    · cases hpart
    · obtain ⟨new, hnew, hsame⟩ := bind_eq_ok_iff.mp hpart
      cases hsame
      unfold PartFile.new at hnew
      split at hnew
      · cases hnew
      · rename_i hpositive
        cases hnew
        exact hpositive
  refine ⟨_, ⟨row.part_path.text, filledPart.total_size, []⟩,
    ⟨file, some ⟨filledPart.total_size, filledPart.gaps⟩⟩, Dict.get_set_self _ _ _, ?_, rfl⟩
  unfold resume_part save_part
  simp only [Dict.get_set_self, PartFile.resume, PartFile.new]
  rw [hsize, if_neg hpositive, hgaps]
  rfl

theorem total_size_write_block {part filledPart : PartFile} {disk disk' : Disk} {start remaining : Int} {data : Bytes}
    (hwrite : part.write_block disk start data = .ok (remaining, filledPart, disk')) :
    filledPart.total_size = part.total_size := by
  unfold PartFile.write_block at hwrite
  split at hwrite
  · cases hwrite
  · cases hwrite
    rfl

/-- Any block that is accepted leaves a part file without gaps as it is. -/
theorem gaps_write_block {part filledPart : PartFile} {disk disk' : Disk} {start remaining : Int} {data : Bytes}
    (hgaps : part.gaps = []) (hwrite : part.write_block disk start data = .ok (remaining, filledPart, disk')) :
    filledPart.gaps = [] := by
  unfold PartFile.write_block at hwrite
  split at hwrite
  · cases hwrite
  · cases hwrite
    unfold PartFile.apply_gap_fill
    rw [hgaps]
    rfl

theorem fills_eq {row : Download} {part : PartFile} {disk : Disk} {start : Int} {data : Bytes}
    (hrow : queue.rows.get hash = some row) (hresume : queue.resume_part row.part_path = .ok (part, disk)) :
    queue.fills hash start data = match part.write_block disk start data with
      | .error _ => false
      | .ok (_, filledPart, _) => filledPart.is_complete := by
  simp only [fills, hrow, hresume]

/-- A block that is refused fills nothing. -/
theorem fills_of_error (hnormal : normalize_hash file_hash = .ok hash) {start : Int} {data : Bytes} {e : Exc}
    (hrecord : queue.record_block file_hash start data = .error e) : queue.fills hash start data = false := by
  cases hfills : queue.fills hash start data with
  | false => rfl
  | true =>
    unfold fills at hfills
    cases hrow : queue.rows.get hash with
    | none =>
      rw [hrow] at hfills
      cases hfills
    | some row =>
      simp only [hrow] at hfills
      cases hresume : queue.resume_part row.part_path with
      | error e =>
        rw [hresume] at hfills
        cases hfills
      | ok opened =>
        obtain ⟨part, disk⟩ := opened
        simp only [hresume] at hfills
        cases hwrite : part.write_block disk start data with
        | error e =>
          rw [hwrite] at hfills
          cases hfills
        | ok written =>
          unfold record_block at hrecord
          rw [hnormal, ok_bind, find_eq_ok_iff.mpr hrow, ok_bind, hresume, ok_bind] at hrecord
          dsimp only at hrecord
          rw [hwrite, ok_bind] at hrecord
          cases hrecord

theorem Whole.row (h : queue.Whole hash) : queue.rows.get hash ≠ none := by
  obtain ⟨row, _, _, hrow, _⟩ := h
  rw [hrow]
  exact Option.some_ne_none row

/-- The status of a row says that it is not complete. -/
theorem settled_of_status {row : Download} (hrow : queue.rows.get hash = some row) (hstatus : row.status ≠ .COMPLETE) :
    queue.Settled config hash false := by
  refine ⟨nofun, ?_⟩
  intro _ other hother hcomplete
  rw [hrow, Option.some.injEq] at hother
  exact absurd (hother ▸ hcomplete) hstatus

/-- The queue after a call with this result is settled; one that raises has changed nothing. -/
def SettledAfter (config : QueueConfig) (queue : DownloadQueue) (hash : String) (filled : Bool) :
    Except Exc DownloadQueue → Prop
  | .error _ => queue.Settled config hash filled
  | .ok next => next.Settled config hash filled

theorem settled_afterEntry {entry : EntryCall} {call : QueueCall} (hcall : entry.call file_hash = some call)
    (hsettled : ∀ result, queue.call config call = result → SettledAfter config queue hash filled result) :
    (queue.afterEntry config file_hash entry).Settled config hash filled := by
  have hafter := hsettled _ rfl
  rw [DownloadQueue.afterEntry, hcall]
  dsimp only
  rw [DownloadQueue.after]
  cases hresult : queue.call config call with
  | error e =>
    rw [hresult] at hafter
    exact hafter
  | ok next =>
    rw [hresult] at hafter
    exact hafter

theorem settled_of_no_row (hrow : queue.rows.get hash = none) : queue.Settled config hash false := by
  refine ⟨nofun, ?_⟩
  intro _ other hother
  rw [hrow] at hother
  cases hother

theorem Settled.error (h : queue.Settled config hash filled) (hfilled : filled = false) :
    queue.Settled config hash false := hfilled ▸ h

theorem Settled.add (h : queue.Settled config hash filled) (hnormal : normalize_hash file_hash = .ok hash)
    {name : String} {size : Int} {free : Nat} (hadd : queue.add config file_hash name size free = .ok next) :
    next.Settled config hash filled := by
  unfold DownloadQueue.add at hadd
  rw [hnormal, ok_bind] at hadd
  cases hrow : queue.rows.get hash with
  | some row =>
    rw [hrow] at hadd
    cases hadd
    exact h
  | none =>
    rw [hrow] at hadd
    obtain ⟨part, _, hafter⟩ := bind_eq_ok_iff.mp hadd
    obtain ⟨opened, _, hnext⟩ := bind_eq_ok_iff.mp hafter
    cases hnext
    have hfilled : filled = false := by
      cases filled with
      | false => rfl
      | true => exact absurd hrow (Whole.row (h.whole rfl))
    rw [hfilled]
    exact settled_of_status (Dict.get_set_self _ _ _) nofun

theorem set_status_eq (hnormal : normalize_hash file_hash = .ok hash) (status : DownloadStatus) :
    (∃ row, queue.rows.get hash = some row ∧ queue.set_status file_hash status =
      .ok { queue with rows := queue.rows.set hash { row with status := status } }) ∨
    queue.rows.get hash = none ∧ ∃ e, queue.set_status file_hash status = .error e := by
  unfold set_status
  rw [hnormal, ok_bind]
  cases hrow : queue.rows.get hash with
  | none =>
    refine .inr ⟨rfl, .DownloadQueueError s!"download not found: {hash}", ?_⟩
    rw [find, hrow]
    rfl
  | some row =>
    refine .inl ⟨row, rfl, ?_⟩
    rw [find_eq_ok_iff.mpr hrow, ok_bind]

theorem settled_set_status (hnormal : normalize_hash file_hash = .ok hash) {status : DownloadStatus}
    (hstatus : status ≠ .COMPLETE) {result : Except Exc DownloadQueue}
    (hset : queue.set_status file_hash status = result) : SettledAfter config queue hash false result := by
  rcases set_status_eq hnormal status with ⟨row, _, hstored⟩ | ⟨hrow, e, hmissing⟩
  · rw [← hset, hstored]
    exact settled_of_status (Dict.get_set_self _ _ _) hstatus
  · rw [← hset, hmissing]
    exact settled_of_no_row hrow

theorem Settled.resume (h : queue.Settled config hash filled) (hnormal : normalize_hash file_hash = .ok hash)
    (hresume : queue.resume file_hash = .ok next) : next.Settled config hash filled := by
  unfold DownloadQueue.resume at hresume
  rw [hnormal, ok_bind] at hresume
  cases hrow : queue.rows.get hash with
  | none =>
    rw [hrow] at hresume
    cases hresume
  | some row =>
    simp only [hrow] at hresume
    split at hresume
    · cases hresume
    · rcases set_status_eq hnormal .DOWNLOADING with ⟨row', hrow', hset⟩ | ⟨hnone, _⟩
      · rw [hset] at hresume
        cases hresume
        refine ⟨?_, ?_⟩
        · intro hfilled
          obtain ⟨found, part, disk, hfound, hopened, hgaps⟩ := h.whole hfilled
          rw [hrow', Option.some.injEq] at hfound
          subst hfound
          exact ⟨_, part, disk, Dict.get_set_self _ _ _, hopened, hgaps⟩
        · have hstatus : DownloadStatus.DOWNLOADING ≠ .COMPLETE := nofun
          exact fun _ => (settled_of_status (Dict.get_set_self _ _ _) hstatus).verified rfl
      · rw [hrow] at hnone
        cases hnone

theorem Settled.record_block (h : queue.Settled config hash filled) (hnormal : normalize_hash file_hash = .ok hash)
    {start : Int} {data : Bytes} (hrecord : queue.record_block file_hash start data = .ok next) :
    next.Settled config hash (filled || queue.fills hash start data) := by
  obtain ⟨found, row, part, disk, remaining, filledPart, disk', hfound, hrow, hresume, hwrite, rfl⟩ :=
    record_block_cases hrecord
  rw [hnormal, Except.ok.injEq] at hfound
  subst hfound
  have hfills : queue.fills hash start data = filledPart.is_complete := by
    rw [fills_eq hrow hresume, hwrite]
  rw [hfills]
  refine ⟨?_, ?_⟩
  · intro hwhole
    have hgaps : filledPart.gaps = [] := by
      cases hcomplete : filledPart.is_complete with
      | true => exact (is_complete_iff filledPart).mp hcomplete
      | false =>
        rw [hcomplete, Bool.or_false] at hwhole
        obtain ⟨row', part', disk', hrow', hresume', hgaps⟩ := h.whole hwhole
        rw [hrow, Option.some.injEq] at hrow'
        subst hrow'
        rw [hresume, Except.ok.injEq, Prod.mk.injEq] at hresume'
        exact gaps_write_block (hresume'.1 ▸ hgaps) hwrite
    exact whole_save_part hresume (total_size_write_block hwrite) hgaps
  · intro hopen
    have hcomplete := (Bool.or_eq_false_iff.mp hopen).2
    have hstatus : (if filledPart.is_complete = true then DownloadStatus.COMPLETE else .DOWNLOADING) ≠ .COMPLETE := by
      rw [hcomplete, if_neg Bool.false_ne_true]
      exact nofun
    exact (settled_of_status (Dict.get_set_self _ _ _) hstatus).verified rfl

theorem settled_punch_gaps (h : queue.Settled config hash filled) (hnormal : normalize_hash file_hash = .ok hash)
    {ranges : List (Int × Int)} {result : Except Exc DownloadQueue}
    (hpunch : queue.punch_gaps file_hash ranges = result) : SettledAfter config queue hash false result := by
  cases result with
  | ok next =>
    obtain ⟨found, row, part, disk, hfound, _, _, rfl⟩ := punch_gaps_cases hpunch
    rw [hnormal, Except.ok.injEq] at hfound
    subst hfound
    exact settled_of_status (Dict.get_set_self _ _ _) nofun
  | error e =>
    apply h.error
    cases filled with
    | false => rfl
    | true =>
      obtain ⟨row, part, disk, hrow, hresume, _⟩ := h.whole rfl
      unfold punch_gaps at hpunch
      rw [hnormal, ok_bind, find_eq_ok_iff.mpr hrow, ok_bind, hresume, ok_bind] at hpunch
      cases hpunch

/-- A `finalize` that finds the file of the hash succeeds. -/
theorem finalize_genuine (hnormal : normalize_hash file_hash = .ok hash) {row : Download} {part : PartFile}
    {disk : Disk} {free : Nat} (hrow : queue.rows.get hash = some row) (hstatus : row.status = .COMPLETE)
    (hresume : queue.resume_part row.part_path = .ok (part, disk)) (hgaps : part.gaps = [])
    (hgenuine : queue.Genuine config hash row disk.file free) :
    ∃ next, queue.finalize config file_hash true free = .ok next := by
  have hfile := files_of_resume_part hresume
  have hverify : queue.verify_file config hash row.part_path disk.file = .ok () := by
    unfold verify_file
    rw [hresume, ok_bind]
    dsimp only
    rw [(is_complete_iff part).mpr hgaps, if_neg nofun, if_neg (not_not.mpr hgenuine.hash)]
  obtain ⟨target, htarget, hinto⟩ := hgenuine.target
  have hmove : ∃ moved, queue.move config row.part_path disk.file target = .ok moved := by
    unfold DownloadQueue.move
    dsimp only
    by_cases hdir : config.is_dir target = true
    · obtain ⟨hfree, hnot⟩ := hinto hdir
      rw [if_pos hdir, if_neg]
      · exact ⟨_, rfl⟩
      · rw [hfree, hnot]
        exact fun hused => hused.elim (fun hfound => hfound rfl) nofun
    · rw [if_neg hdir]
      exact ⟨_, rfl⟩
  obtain ⟨moved, hmoved⟩ := hmove
  unfold DownloadQueue.finalize
  rw [hnormal, ok_bind, find_eq_ok_iff.mpr hrow, ok_bind, if_neg (not_not.mpr hstatus), hfile]
  dsimp only
  rw [if_neg (Nat.not_le.mpr hgenuine.room), if_pos rfl, hverify, ok_bind]
  unfold move_named
  rw [if_neg hgenuine.name, htarget]
  dsimp only
  rw [hmoved, ok_bind]
  exact ⟨_, rfl⟩

theorem settled_finalize (h : queue.Settled config hash filled) (hnormal : normalize_hash file_hash = .ok hash)
    {free : Nat} (hfits : queue.FitsFilled config hash filled (.finalize free)) {result : Except Exc DownloadQueue}
    (hfinalize : queue.finalize config file_hash true free = result) :
    SettledAfter config queue hash false result := by
  cases result with
  | ok next =>
    obtain ⟨found, row, content, target, placed, hfound, _, _, _, hverify, _, _, rfl⟩ := finalize_cases hfinalize
    rw [hnormal, Except.ok.injEq] at hfound
    subst hfound
    refine ⟨nofun, fun _ _ _ _ => ⟨⟨hash, row.name, placed, content⟩, ?_, rfl, ?_⟩⟩
    · exact List.mem_append_right _ (List.mem_singleton_self _)
    · obtain ⟨⟨part, disk⟩, _, hchecked⟩ := bind_eq_ok_iff.mp (hverify rfl)
      dsimp only at hchecked
      split at hchecked
      · cases hchecked
      · split at hchecked
        · cases hchecked
        · rename_i hsame
          exact not_not.mp hsame
  | error e =>
    cases filled with
    | false => exact h
    | true =>
      obtain ⟨row, part, disk, hrow, hresume, hgaps⟩ := h.whole rfl
      apply settled_of_status hrow
      intro hstatus
      have hgenuine := hfits rfl row disk.file hrow (files_of_resume_part hresume)
      obtain ⟨next, hnext⟩ := finalize_genuine hnormal hrow hstatus hresume hgaps hgenuine
      rw [hfinalize] at hnext
      cases hnext

theorem Settled.afterEntry (h : queue.Settled config hash filled) (hnormal : normalize_hash file_hash = .ok hash)
    {call : EntryCall} (hfits : queue.FitsFilled config hash filled call) :
    (queue.afterEntry config file_hash call).Settled config hash (queue.filledAfter hash filled call) := by
  cases call with
  | run => exact h
  | start =>
    have hstatus : DownloadStatus.DOWNLOADING ≠ .COMPLETE := nofun
    exact settled_afterEntry rfl fun _ hset => settled_set_status hnormal hstatus hset
  | pause =>
    have hstatus : DownloadStatus.PAUSED ≠ .COMPLETE := nofun
    exact settled_afterEntry rfl fun _ hset => settled_set_status hnormal hstatus hset
  | punch_gaps ranges => exact settled_afterEntry rfl fun _ hpunch => settled_punch_gaps h hnormal hpunch
  | finalize free => exact settled_afterEntry rfl fun _ hfinalize => settled_finalize h hnormal hfits hfinalize
  | add name size free =>
    apply settled_afterEntry rfl
    intro result hadd
    cases result with
    | error e => exact h
    | ok next => exact h.add hnormal hadd
  | resume =>
    apply settled_afterEntry rfl
    intro result hresume
    cases result with
    | error e => exact h
    | ok next => exact h.resume hnormal hresume
  | record_block start data =>
    apply settled_afterEntry rfl
    intro result hrecord
    rw [filledAfter]
    cases result with
    | error e =>
      rw [fills_of_error hnormal hrecord, Bool.or_false]
      exact h
    | ok next => exact h.record_block hnormal hrecord

end Steps

/-- The queue before each call of a run is settled, and the call fits it. -/
theorem Settled.run {config : QueueConfig} {queue : DownloadQueue} {file_hash hash : String} {filled : Bool}
    (h : queue.Settled config hash filled) (hnormal : normalize_hash file_hash = .ok hash)
    {before rest : List EntryCall} {call : EntryCall}
    (hfits : queue.MeetsFilled config file_hash hash filled (before ++ call :: rest)) :
    ∃ filled, (queue.runEntry config file_hash before).Settled config hash filled ∧
      (queue.runEntry config file_hash before).FitsFilled config hash filled call := by
  induction before generalizing queue filled with
  | nil => exact ⟨filled, h, hfits.1⟩
  | cons first before ih => exact ih (h.afterEntry hnormal hfits.1) hfits.2

end DownloadQueue

section Samples

/-- An MD4 that is constant is the hash of every file. -/
theorem file_hash_of_constant {md4 : Md4} {digest : Bytes} (hdigest : ∀ data, md4.md4_digest data = digest)
    {chunk_size : Nat} (hpos : 0 < chunk_size) (content : Bytes) :
    (ed2k_hash_file md4 content chunk_size hpos).file_hash = digest := by
  rw [ed2k_hash_file_eq, reference_eq, Ed2kHasher.resultOf, referenceChunkHashes_eq hpos]
  dsimp only
  by_cases hsole : ((chunking.whole chunk_size content).map md4.md4_digest ++
      [md4.md4_digest (chunking.rest chunk_size content)]).length = 1
  · rw [if_pos hsole]
    rw [List.length_append, List.length_singleton, Nat.add_eq_right, List.length_eq_zero_iff] at hsole
    rw [hsole, List.nil_append, List.headD_cons, hdigest]
  · rw [if_neg hsole, hdigest]

theorem file_hash_sample (content : Bytes) : file_hash sampleQueueConfig content = sampleHash '0' := by
  have hzeros : hex_lower (List.replicate 16 0) = sampleHash '0' := by decide +kernel
  have hdigest : ∀ data, sampleQueueConfig.md4.md4_digest data = List.replicate 16 0 := fun _ => rfl
  rw [file_hash, file_hash_of_constant hdigest, hzeros]

/-- A download of one byte that is finalized before `run` is called. -/
def finalizedCalls : List EntryCall := [.add "a" 1 100, .record_block 0 [7], .finalize 100, .run]

end Samples

end amuled.download
