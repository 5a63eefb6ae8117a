import Mathlib.Tactic.Tauto
import AmuleD.Download.GapHistory
import AmuleD.Download.Lifecycle
import AmuleD.Runs

open runs halfopen

namespace amuled.download

/-- What the user and the peers in flight do to one download. -/
inductive DownloadCall where
  | start
  | pause
  | resume
  | record_block (start : Int) (data : Bytes)
  | punch_gaps (ranges : List (Int × Int))

def DownloadCall.call (file_hash : String) : DownloadCall → QueueCall
  | .start => .start file_hash
  | .pause => .pause file_hash
  | .resume => .resume file_hash
  | .record_block offset data => .record_block file_hash offset data
  | .punch_gaps ranges => .punch_gaps file_hash ranges

/-- A block inside the file, or ranges that are to be fetched again. -/
def DownloadCall.Late (size : Int) : DownloadCall → Prop
  | .record_block offset data => 0 ≤ offset ∧ offset + data.length ≤ size
  | .punch_gaps _ => True
  | _ => False

namespace DownloadQueue

def afterDownload (config : QueueConfig) (file_hash : String) (queue : DownloadQueue) (call : DownloadCall) :
    DownloadQueue :=
  queue.after config (call.call file_hash)

def status_of (queue : DownloadQueue) (hash : String) : Option DownloadStatus := (queue.rows.get hash).map Download.status

/-- A call that is neither `start` nor `resume` leaves a paused download paused. -/
def StaysPaused (config : QueueConfig) (file_hash hash : String) (queue : DownloadQueue) (call : DownloadCall) : Prop :=
  queue.status_of hash = some .PAUSED → call ≠ .start → call ≠ .resume →
    (queue.afterDownload config file_hash call).status_of hash = some .PAUSED

/-- No block and no range to fetch again finds the download paused. -/
def NoneLate (hash : String) (size : Int) (queue : DownloadQueue) (call : DownloadCall) : Prop :=
  queue.status_of hash = some .PAUSED → ¬call.Late size

/-- The stored progress of a download is what its part file has no gaps for. -/
def Agrees (hash : String) (size : Int) (queue : DownloadQueue) : Prop :=
  ∃ row part disk, queue.rows.get hash = some row ∧ row.size = size ∧
    queue.resume_part row.part_path = .ok (part, disk) ∧ part.total_size = size ∧
    row.downloaded = size - part.remaining_bytes

section Parts

variable {queue next : DownloadQueue} {hash file_hash : String} {size : Int} {row : Download} {part : PartFile}
  {disk : Disk}

theorem normalize_gaps_idem (gaps : List Gap) {total_size : Int} (htotal : 0 ≤ total_size) :
    normalize_gaps (normalize_gaps gaps total_size) total_size = normalize_gaps gaps total_size := by
  apply (canonical_normalize_gaps _ total_size).ext (canonical_normalize_gaps gaps total_size)
  intro x
  rw [covers_normalize_gaps htotal, covers_normalize_gaps htotal]
  tauto

/-- A part file that `resume` finds again as it is. -/
structure Stable (part : PartFile) : Prop where
  positive : 0 < part.total_size
  normal : normalize_gaps part.gaps part.total_size = part.gaps

theorem stable_resume {path : String} (hresume : PartFile.resume path disk = .ok part) : Stable part := by
  unfold PartFile.resume at hresume
  split at hresume
  · cases hresume
  · obtain ⟨new, hnew, hpart⟩ := bind_eq_ok_iff.mp hresume
    cases hpart
    unfold PartFile.new at hnew
    split at hnew
    · cases hnew
    · rename_i hpositive
      cases hnew
      exact ⟨Int.not_le.mp hpositive, normalize_gaps_idem _ (Int.not_le.mp hpositive).le⟩

theorem stable_resume_part {path : Path} (hresume : queue.resume_part path = .ok (part, disk)) : Stable part := by
  obtain ⟨resumed, hpart, hopened⟩ := bind_eq_ok_iff.mp hresume
  have hsame : resumed = part := by
    cases hfile : queue.files.get path with
    | none =>
      rw [hfile] at hopened
      cases hopened
    | some file =>
      rw [hfile] at hopened
      cases hopened
      rfl
  exact stable_resume (hsame ▸ hpart)

theorem Stable.write_block (h : Stable part) {filled : PartFile} {disk' : Disk} {start remaining : Int} {data : Bytes}
    (hwrite : part.write_block disk start data = .ok (remaining, filled, disk')) : Stable filled := by
  unfold PartFile.write_block at hwrite
  split at hwrite
  · cases hwrite
  · cases hwrite
    exact ⟨h.positive, normalize_gaps_idem _ h.positive.le⟩

theorem Stable.punch (h : Stable part) (start stop : Int) :
    Stable (part.punch start stop) ∧ (part.punch start stop).total_size = part.total_size := by
  unfold PartFile.punch
  dsimp only
  split_ifs
  · exact ⟨h, rfl⟩
  · exact ⟨⟨h.positive, normalize_gaps_idem _ h.positive.le⟩, rfl⟩

theorem Stable.punch_all (h : Stable part) (ranges : List (Int × Int)) :
    Stable (ranges.foldl (fun part range => part.punch range.1 range.2) part) ∧
      (ranges.foldl (fun part range => part.punch range.1 range.2) part).total_size = part.total_size := by
  induction ranges generalizing part with
  | nil => exact ⟨h, rfl⟩
  | cons range rest ih =>
    obtain ⟨hstable, htotal⟩ := h.punch range.1 range.2
    obtain ⟨hrest, hsize⟩ := ih hstable
    exact ⟨hrest, hsize.trans htotal⟩

/-- A part file that was saved is found again, and its progress is stored with it. -/
theorem agrees_save_part (h : Stable part) (htotal : part.total_size = size) (hsize : row.size = size) (file : Bytes)
    (status : DownloadStatus) : (queue.save_part hash row part file status).Agrees hash size := by
  refine ⟨_, ⟨row.part_path.text, part.total_size, part.gaps⟩, ⟨file, some ⟨part.total_size, part.gaps⟩⟩,
    Dict.get_set_self _ _ _, hsize, ?_, htotal, ?_⟩
  · unfold resume_part save_part
    simp only [Dict.get_set_self, PartFile.resume, PartFile.new]
    rw [if_neg (Int.not_le.mpr h.positive), ok_bind, ok_bind, h.normal]
  · rw [← htotal]
    rfl

theorem Agrees.set_status (h : queue.Agrees hash size) (hnormal : normalize_hash file_hash = .ok hash)
    {status : DownloadStatus} (hset : queue.set_status file_hash status = .ok next) :
    next.Agrees hash size ∧ next.status_of hash = some status := by
  obtain ⟨row, part, disk, hrow, hsize, hresume, htotal, hdownloaded⟩ := h
  rcases set_status_eq hnormal status with ⟨row', hrow', hstored⟩ | ⟨hnone, _⟩
  · rw [hstored] at hset
    cases hset
    rw [hrow, Option.some.injEq] at hrow'
    subst hrow'
    refine ⟨⟨_, part, disk, Dict.get_set_self _ _ _, hsize, hresume, htotal, hdownloaded⟩, ?_⟩
    rw [status_of, Dict.get_set_self]
    rfl
  · rw [hrow] at hnone
    cases hnone

theorem Agrees.record_block (h : queue.Agrees hash size) (hnormal : normalize_hash file_hash = .ok hash)
    {start : Int} {data : Bytes} (hrecord : queue.record_block file_hash start data = .ok next) :
    next.Agrees hash size ∧ next.status_of hash ≠ some .PAUSED ∧ 0 ≤ start ∧ start + data.length ≤ size := by
  obtain ⟨row, part, disk, hrow, hsize, hresume, htotal, _⟩ := h
  obtain ⟨found, row', part', disk', remaining, filled, after, hfound, hrow', hresume', hwrite, rfl⟩ :=
    record_block_cases hrecord
  rw [hnormal, Except.ok.injEq] at hfound
  subst hfound
  rw [hrow, Option.some.injEq] at hrow'
  subst hrow'
  rw [hresume, Except.ok.injEq, Prod.mk.injEq] at hresume'
  obtain ⟨rfl, rfl⟩ := hresume'
  have hstable := (stable_resume_part hresume).write_block hwrite
  have hfilled := (total_size_write_block hwrite).trans htotal
  refine ⟨agrees_save_part hstable hfilled hsize _ _, ?_, ?_⟩
  · rw [status_of, save_part, Dict.get_set_self, Option.map_some]
    split_ifs <;> nofun
  · unfold PartFile.write_block at hwrite
    split at hwrite
    · cases hwrite
    · omega

theorem Agrees.punch_gaps (h : queue.Agrees hash size) (hnormal : normalize_hash file_hash = .ok hash)
    {ranges : List (Int × Int)} (hpunch : queue.punch_gaps file_hash ranges = .ok next) :
    next.Agrees hash size ∧ next.status_of hash = some .DOWNLOADING := by
  obtain ⟨row, part, disk, hrow, hsize, hresume, htotal, _⟩ := h
  obtain ⟨found, row', part', disk', hfound, hrow', hresume', rfl⟩ := punch_gaps_cases hpunch
  rw [hnormal, Except.ok.injEq] at hfound
  subst hfound
  rw [hrow, Option.some.injEq] at hrow'
  subst hrow'
  rw [hresume, Except.ok.injEq, Prod.mk.injEq] at hresume'
  obtain ⟨rfl, rfl⟩ := hresume'
  obtain ⟨hstable, hpunched⟩ := (stable_resume_part hresume).punch_all ranges
  refine ⟨agrees_save_part hstable (hpunched.trans htotal) hsize _ _, ?_⟩
  rw [status_of, save_part, Dict.get_set_self]
  rfl

theorem Agrees.resume (h : queue.Agrees hash size) (hnormal : normalize_hash file_hash = .ok hash)
    (hresume : queue.resume file_hash = .ok next) : next.Agrees hash size := by
  unfold DownloadQueue.resume at hresume
  rw [hnormal, ok_bind] at hresume
  cases hrow : queue.rows.get hash with
  | none =>
    rw [hrow] at hresume
    cases hresume
  | some row =>
    simp only [hrow] at hresume
    split at hresume
    · cases hresume
    · exact (h.set_status hnormal hresume).1

/-- A call that a download has room for goes through. -/
theorem Agrees.record_block_ok (h : queue.Agrees hash size) (hnormal : normalize_hash file_hash = .ok hash)
    {start : Int} {data : Bytes} (hstart : 0 ≤ start) (hstop : start + data.length ≤ size) :
    ∃ next, queue.record_block file_hash start data = .ok next := by
  obtain ⟨row, part, disk, hrow, _, hresume, htotal, _⟩ := h
  have hinside : ¬(start < 0 ∨ start + data.length > part.total_size) := by omega
  unfold DownloadQueue.record_block
  rw [hnormal, ok_bind, find_eq_ok_iff.mpr hrow, ok_bind, hresume, ok_bind]
  dsimp only
  rw [PartFile.write_block, if_neg hinside]
  exact ⟨_, rfl⟩

theorem Agrees.punch_gaps_ok (h : queue.Agrees hash size) (hnormal : normalize_hash file_hash = .ok hash)
    (ranges : List (Int × Int)) : ∃ next, queue.punch_gaps file_hash ranges = .ok next := by
  obtain ⟨row, part, disk, hrow, _, hresume, _, _⟩ := h
  unfold DownloadQueue.punch_gaps
  rw [hnormal, ok_bind, find_eq_ok_iff.mpr hrow, ok_bind, hresume, ok_bind]
  exact ⟨_, rfl⟩

/-- A download that was added agrees with its new part file. -/
theorem agrees_add {config : QueueConfig} {name : String} {free : Nat} (hnormal : normalize_hash file_hash = .ok hash)
    (hfresh : queue.rows.get hash = none) (hadd : queue.add config file_hash name size free = .ok next) :
    next.Agrees hash size := by
  unfold DownloadQueue.add at hadd
  rw [hnormal, ok_bind, hfresh] at hadd
  obtain ⟨part, hpart, hafter⟩ := bind_eq_ok_iff.mp hadd
  obtain ⟨opened, hopened, hnext⟩ := bind_eq_ok_iff.mp hafter
  cases hnext
  unfold PartFile.new at hpart
  split at hpart
  · cases hpart
  rename_i hpositive
  cases hpart
  have hsize : 0 < size := Int.not_le.mp hpositive
  have hsidecar : opened.sidecars.get (part_path config hash) = some ⟨size, [⟨0, size⟩]⟩ := by
    unfold open_new at hopened
    dsimp only at hopened
    split_ifs at hopened <;> cases hopened <;> exact Dict.get_set_self _ _ _
  have hfile : ∃ file, opened.files.get (part_path config hash) = some file := by
    unfold open_new at hopened
    dsimp only at hopened
    split_ifs at hopened with hsame
    · cases hopened
      obtain ⟨file, hfile, _⟩ := Option.map_eq_some_iff.mp hsame
      exact ⟨file, hfile⟩
    · cases hopened
      exact ⟨_, Dict.get_set_self _ _ _⟩
    · cases hopened
      exact ⟨_, Dict.get_set_self _ _ _⟩
  obtain ⟨file, hfile⟩ := hfile
  have hnew : PartFile.resume (part_path config hash).text ⟨[], some ⟨size, [⟨0, size⟩]⟩⟩ =
      .ok ⟨(part_path config hash).text, size, [⟨0, size⟩]⟩ := resume_eq hsize rfl (faithful_new hsize)
  refine ⟨_, ⟨(part_path config hash).text, size, [⟨0, size⟩]⟩, ⟨file, some ⟨size, [⟨0, size⟩]⟩⟩,
    Dict.get_set_self _ _ _, rfl, ?_, rfl, ?_⟩
  · unfold resume_part
    simp only [hsidecar, hnew, ok_bind, hfile]
  · simp [PartFile.remaining_bytes, Gap.length]

end Parts

section Calls

variable {config : QueueConfig} {queue : DownloadQueue} {hash file_hash : String} {size : Int}

theorem after_of_ok {call : QueueCall} {next : DownloadQueue} (hcall : queue.call config call = .ok next) :
    queue.after config call = next := by
  rw [DownloadQueue.after, hcall]

theorem after_of_error {call : QueueCall} {e : Exc} (hcall : queue.call config call = .error e) :
    queue.after config call = queue := by
  rw [DownloadQueue.after, hcall]

/-- Every call keeps the stored progress in agreement with the part file. -/
theorem Agrees.afterDownload (h : queue.Agrees hash size) (hnormal : normalize_hash file_hash = .ok hash)
    (call : DownloadCall) : (queue.afterDownload config file_hash call).Agrees hash size := by
  cases hcall : queue.call config (call.call file_hash) with
  | error e =>
    rw [DownloadQueue.afterDownload, after_of_error hcall]
    exact h
  | ok next =>
    rw [DownloadQueue.afterDownload, after_of_ok hcall]
    cases call with
    | start => exact (h.set_status hnormal hcall).1
    | pause => exact (h.set_status hnormal hcall).1
    | resume => exact h.resume hnormal hcall
    | record_block offset data => exact (h.record_block hnormal hcall).1
    | punch_gaps ranges => exact (h.punch_gaps hnormal hcall).1

/-- A paused download is restarted by blocks and punched ranges only. -/
theorem Agrees.staysPaused_iff (h : queue.Agrees hash size) (hnormal : normalize_hash file_hash = .ok hash)
    (call : DownloadCall) : StaysPaused config file_hash hash queue call ↔ NoneLate hash size queue call := by
  apply forall_congr'
  intro hpaused
  cases call with
  | start => exact iff_of_true (fun hstart => absurd rfl hstart) id
  | resume => exact iff_of_true (fun _ hresume => absurd rfl hresume) id
  | pause =>
    refine iff_of_true (fun _ _ => ?_) id
    cases hcall : queue.call config (.pause file_hash) with
    | error e =>
      rw [DownloadQueue.afterDownload, DownloadCall.call, after_of_error hcall]
      exact hpaused
    | ok next =>
      rw [DownloadQueue.afterDownload, DownloadCall.call, after_of_ok hcall]
      exact (h.set_status hnormal hcall).2
  | record_block offset data =>
    constructor
    · rintro hstays ⟨hstart, hstop⟩
      obtain ⟨next, hnext⟩ := h.record_block_ok hnormal hstart hstop
      have hcall : queue.call config (.record_block file_hash offset data) = .ok next := hnext
      have hstatus := hstays nofun nofun
      rw [DownloadQueue.afterDownload, DownloadCall.call, after_of_ok hcall] at hstatus
      exact (h.record_block hnormal hnext).2.1 hstatus
    · intro hnone _ _
      cases hcall : queue.call config (.record_block file_hash offset data) with
      | error e =>
        rw [DownloadQueue.afterDownload, DownloadCall.call, after_of_error hcall]
        exact hpaused
      | ok next => exact absurd (h.record_block hnormal hcall).2.2 hnone
  | punch_gaps ranges =>
    constructor
    · intro hstays _
      obtain ⟨next, hnext⟩ := h.punch_gaps_ok hnormal ranges
      have hcall : queue.call config (.punch_gaps file_hash ranges) = .ok next := hnext
      have hstatus := hstays nofun nofun
      rw [DownloadQueue.afterDownload, DownloadCall.call, after_of_ok hcall, (h.punch_gaps hnormal hnext).2] at hstatus
      cases hstatus
    · intro hnone
      exact absurd trivial hnone

end Calls

/-- In every run of calls on a download that was added, it stays paused from `pause` to `resume` or
`start` exactly if no block and no punched range comes in between; its progress agrees with its part
file in either case. -/
theorem stays_paused_iff (config : QueueConfig) {queue added : DownloadQueue} {file_hash hash name : String} {size : Int}
    {free : Nat} (hnormal : normalize_hash file_hash = .ok hash) (hfresh : queue.rows.get hash = none)
    (hadd : queue.add config file_hash name size free = .ok added) (calls : List DownloadCall) :
    (AllSteps (afterDownload config file_hash) added (StaysPaused config file_hash hash) calls ↔
      AllSteps (afterDownload config file_hash) added (NoneLate hash size) calls) ∧
      (calls.foldl (afterDownload config file_hash) added).Agrees hash size := by
  have hstart := agrees_add hnormal hfresh hadd
  constructor
  · exact allSteps_iff_of_invariant hstart (fun _ call hagrees _ => hagrees.afterDownload hnormal call)
      (fun _ call hagrees => hagrees.staysPaused_iff hnormal call) calls
  · exact invariant hstart (fun _ call hagrees => hagrees.afterDownload hnormal call) calls

section Samples

/-- A download of two bytes. -/
def sampleAdded : DownloadQueue := emptyQueue.after sampleQueueConfig (.add (sampleHash '0') "a" 2 100)

theorem normalize_sampleHash : normalize_hash (sampleHash '0') = .ok (sampleHash '0') := by decide +kernel

theorem add_sampleAdded : emptyQueue.add sampleQueueConfig (sampleHash '0') "a" 2 100 = .ok sampleAdded := by
  have hok : (emptyQueue.add sampleQueueConfig (sampleHash '0') "a" 2 100).isOk = true := by decide +kernel
  cases hadd : emptyQueue.call sampleQueueConfig (.add (sampleHash '0') "a" 2 100) with
  | ok next =>
    rw [sampleAdded, after_of_ok hadd]
    exact hadd
  | error e =>
    have hcall : emptyQueue.add sampleQueueConfig (sampleHash '0') "a" 2 100 = .error e := hadd
    rw [hcall] at hok
    cases hok

theorem stays_paused_iff_one :
    (AllSteps (afterDownload sampleQueueConfig (sampleHash '0')) sampleAdded
        (StaysPaused sampleQueueConfig (sampleHash '0') (sampleHash '0')) [.pause, .record_block 1 [7, 8]] ↔
      AllSteps (afterDownload sampleQueueConfig (sampleHash '0')) sampleAdded (NoneLate (sampleHash '0') 2)
        [.pause, .record_block 1 [7, 8]]) ∧
      ([.pause, .record_block 1 [7, 8]].foldl (afterDownload sampleQueueConfig (sampleHash '0')) sampleAdded).Agrees
        (sampleHash '0') 2 :=
  stays_paused_iff sampleQueueConfig normalize_sampleHash (Dict.get_empty _) add_sampleAdded _

/-- A block that arrives after `pause` restarts the download, and `resume` then refuses it. -/
theorem late_block_restarts :
    (¬∀ calls, AllSteps (afterDownload sampleQueueConfig (sampleHash '0')) sampleAdded
        (StaysPaused sampleQueueConfig (sampleHash '0') (sampleHash '0')) calls) ∧
      (sampleAdded.afterDownload sampleQueueConfig (sampleHash '0') .pause).status_of (sampleHash '0') = some .PAUSED ∧
      (([.pause, .record_block 0 [7]] : List DownloadCall).foldl (afterDownload sampleQueueConfig (sampleHash '0'))
        sampleAdded).status_of (sampleHash '0') = some .DOWNLOADING := by
  have hpaused : (sampleAdded.afterDownload sampleQueueConfig (sampleHash '0') .pause).status_of (sampleHash '0') =
      some .PAUSED := by decide +kernel
  have hlate : (([.pause, .record_block 0 [7]] : List DownloadCall).foldl
      (afterDownload sampleQueueConfig (sampleHash '0')) sampleAdded).status_of (sampleHash '0') =
        some .DOWNLOADING := by decide +kernel
  refine ⟨?_, hpaused, hlate⟩
  intro hclaim
  have hstep := hclaim [.pause, .record_block 0 [7]] [.pause] (.record_block 0 [7]) List.prefix_rfl
  have hstays := hstep hpaused nofun nofun
  have hchanged := hlate.symm.trans hstays
  cases hchanged

end Samples

end DownloadQueue

end amuled.download
