import AmuleD.Download.Queue

namespace amuled.download

open DownloadQueue

variable {config : QueueConfig} {queue next : DownloadQueue}

theorem part_path_inj {hash other : String} (hsame : part_path config hash = part_path config other) :
    hash = other := by
  have hlast := List.append_cancel_left hsame
  rw [List.cons.injEq] at hlast
  exact String.append_left_inj ".part" |>.mp hlast.1

/-- Every row has the part file of its hash. -/
def PartPlaced (config : QueueConfig) (queue : DownloadQueue) : Prop :=
  ∀ hash row, queue.rows.get hash = some row → row.part_path = part_path config hash

theorem PartPlaced.set {hash : String} {row : Download} (h : PartPlaced config queue)
    (hrows : next.rows = queue.rows.set hash row) (hrow : row.part_path = part_path config hash) :
    PartPlaced config next := by
  intro other found hfound
  rw [hrows] at hfound
  by_cases hsame : other = hash
  · subst hsame
    rw [Dict.get_set_self] at hfound
    cases hfound
    exact hrow
  · rw [Dict.get_set_of_ne hsame] at hfound
    exact h other found hfound

/-- What a call other than `finalize` changes: the part file of a download that is new or still has one. -/
structure Worked (config : QueueConfig) (queue next : DownloadQueue) : Prop where
  moved : next.moved = queue.moved
  placed : PartPlaced config next
  rows : ∀ hash, queue.rows.get hash ≠ none → next.rows.get hash ≠ none
  files : ∀ path, next.files.get path = queue.files.get path ∨
    ∃ hash, path = part_path config hash ∧ (queue.rows.get hash = none ∨ queue.files.get path ≠ none)

theorem Worked.refl (h : PartPlaced config queue) : Worked config queue queue :=
  ⟨rfl, h, fun _ hrow => hrow, fun _ => .inl rfl⟩

theorem get_set_ne_none {κ ν : Type} [DecidableEq κ] {dict : Dict κ ν} {key other : κ} (value : ν)
    (hkey : dict.get other ≠ none) : (dict.set key value).get other ≠ none := by
  by_cases hsame : other = key
  · rw [hsame, Dict.get_set_self]
    exact Option.some_ne_none value
  · rwa [Dict.get_set_of_ne hsame]

theorem find_eq_ok_iff {hash : String} {row : Download} :
    queue.find hash = .ok row ↔ queue.rows.get hash = some row := by
  unfold find
  cases queue.rows.get hash with
  | none => simp
  | some found => simp

theorem files_of_resume_part {path : Path} {part : PartFile} {disk : Disk}
    (hresume : queue.resume_part path = .ok (part, disk)) : queue.files.get path = some disk.file := by
  obtain ⟨resumed, _, hopened⟩ := bind_eq_ok_iff.mp hresume
  cases hfile : queue.files.get path with
  | none =>
    rw [hfile] at hopened
    cases hopened
  | some file =>
    rw [hfile] at hopened
    cases hopened
    rfl

theorem worked_set_status (h : PartPlaced config queue) {file_hash : String} {status : DownloadStatus}
    (hset : queue.set_status file_hash status = .ok next) : Worked config queue next := by
  obtain ⟨hash, _, hafter⟩ := bind_eq_ok_iff.mp hset
  obtain ⟨row, hfind, hnext⟩ := bind_eq_ok_iff.mp hafter
  have hrow := find_eq_ok_iff.mp hfind
  cases hnext
  exact ⟨rfl, h.set rfl (h hash row hrow), fun _ hother => get_set_ne_none _ hother, fun _ => .inl rfl⟩

theorem worked_save_part (h : PartPlaced config queue) {hash : String} {row : Download} {part : PartFile}
    {file : Bytes} {status : DownloadStatus} (hrow : queue.rows.get hash = some row)
    (hfile : queue.files.get row.part_path ≠ none) :
    Worked config queue (queue.save_part hash row part file status) := by
  refine ⟨rfl, h.set rfl (h hash row hrow), fun _ hother => get_set_ne_none _ hother, ?_⟩
  intro path
  by_cases hpath : path = row.part_path
  · refine .inr ⟨hash, ?_, .inr ?_⟩
    · rw [hpath, h hash row hrow]
    · rwa [hpath]
  · exact .inl (Dict.get_set_of_ne hpath _ _)

/-- A block is written into the part file of a row. -/
theorem record_block_cases {file_hash : String} {start : Int} {data : Bytes}
    (hrecord : queue.record_block file_hash start data = .ok next) :
    ∃ hash row part disk remaining filled disk', normalize_hash file_hash = .ok hash ∧
      queue.rows.get hash = some row ∧ queue.resume_part row.part_path = .ok (part, disk) ∧
      part.write_block disk start data = .ok (remaining, filled, disk') ∧
      next = queue.save_part hash row filled disk'.file (if filled.is_complete then .COMPLETE else .DOWNLOADING) := by
  obtain ⟨hash, hhash, hafter⟩ := bind_eq_ok_iff.mp hrecord
  obtain ⟨row, hfind, hafter⟩ := bind_eq_ok_iff.mp hafter
  obtain ⟨⟨part, disk⟩, hresume, hafter⟩ := bind_eq_ok_iff.mp hafter
  obtain ⟨⟨remaining, filled, disk'⟩, hwrite, hnext⟩ := bind_eq_ok_iff.mp hafter
  cases hnext
  exact ⟨hash, row, part, disk, remaining, filled, disk', hhash, find_eq_ok_iff.mp hfind, hresume, hwrite, rfl⟩

theorem punch_gaps_cases {file_hash : String} {ranges : List (Int × Int)}
    (hpunch : queue.punch_gaps file_hash ranges = .ok next) :
    ∃ hash row part disk, normalize_hash file_hash = .ok hash ∧ queue.rows.get hash = some row ∧
      queue.resume_part row.part_path = .ok (part, disk) ∧
      next = queue.save_part hash row (ranges.foldl (fun part range => part.punch range.1 range.2) part) disk.file
        .DOWNLOADING := by
  obtain ⟨hash, hhash, hafter⟩ := bind_eq_ok_iff.mp hpunch
  obtain ⟨row, hfind, hafter⟩ := bind_eq_ok_iff.mp hafter
  obtain ⟨⟨part, disk⟩, hresume, hnext⟩ := bind_eq_ok_iff.mp hafter
  cases hnext
  exact ⟨hash, row, part, disk, hhash, find_eq_ok_iff.mp hfind, hresume, rfl⟩

/-- A new part file touches nothing but its own path. -/
theorem open_new_cases {path : Path} {part : PartFile} {free : Nat}
    (hopen : queue.open_new config path part free = .ok next) :
    next.rows = queue.rows ∧ next.moved = queue.moved ∧
      ∀ other, other ≠ path → next.files.get other = queue.files.get other := by
  unfold open_new at hopen
  dsimp only at hopen
  split_ifs at hopen
  · cases hopen
    exact ⟨rfl, rfl, fun _ _ => rfl⟩
  · cases hopen
    exact ⟨rfl, rfl, fun _ hother => Dict.get_set_of_ne hother _ _⟩
  · cases hopen
    exact ⟨rfl, rfl, fun _ hother => Dict.get_set_of_ne hother _ _⟩

theorem worked_add (h : PartPlaced config queue) {file_hash name : String} {size : Int} {free : Nat}
    (hadd : queue.add config file_hash name size free = .ok next) : Worked config queue next := by
  obtain ⟨hash, _, hafter⟩ := bind_eq_ok_iff.mp hadd
  cases hrow : queue.rows.get hash with
  | some row =>
    rw [hrow] at hafter
    cases hafter
    exact Worked.refl h
  | none =>
    rw [hrow] at hafter
    obtain ⟨part, _, hafter⟩ := bind_eq_ok_iff.mp hafter
    obtain ⟨opened, hopen, hnext⟩ := bind_eq_ok_iff.mp hafter
    obtain ⟨hrows, hmoved, hfiles⟩ := open_new_cases hopen
    cases hnext
    have hset : opened.rows.set hash ⟨name, size, part_path config hash, .QUEUED, 0⟩ =
        queue.rows.set hash ⟨name, size, part_path config hash, .QUEUED, 0⟩ := by rw [hrows]
    refine ⟨hmoved, h.set hset rfl, ?_, ?_⟩
    · intro other hother
      apply get_set_ne_none
      rwa [hrows]
    · intro path
      by_cases hpath : path = part_path config hash
      · exact .inr ⟨hash, hpath, .inl hrow⟩
      · exact .inl (hfiles path hpath)

/-- Every call but `finalize` works on part files only. -/
theorem worked_call (h : PartPlaced config queue) {call : QueueCall}
    (hother : ∀ file_hash verify free, call ≠ .finalize file_hash verify free)
    (hcall : queue.call config call = .ok next) : Worked config queue next := by
  cases call with
  | add file_hash name size free => exact worked_add h hcall
  | start file_hash => exact worked_set_status h hcall
  | pause file_hash => exact worked_set_status h hcall
  | resume file_hash =>
    obtain ⟨hash, _, hafter⟩ := bind_eq_ok_iff.mp hcall
    cases hrow : queue.rows.get hash with
    | none =>
      rw [hrow] at hafter
      cases hafter
    | some row =>
      rw [hrow] at hafter
      by_cases hpaused : row.status ≠ .PAUSED
      · simp only [if_pos hpaused] at hafter
        cases hafter
      · simp only [if_neg hpaused] at hafter
        exact worked_set_status h hafter
  | record_block file_hash start data =>
    obtain ⟨hash, row, part, disk, _, filled, disk', _, hrow, hresume, _, rfl⟩ := record_block_cases hcall
    exact worked_save_part h hrow (by rw [files_of_resume_part hresume]; exact Option.some_ne_none _)
  | punch_gaps file_hash ranges =>
    obtain ⟨hash, row, part, disk, _, hrow, hresume, rfl⟩ := punch_gaps_cases hcall
    exact worked_save_part h hrow (by rw [files_of_resume_part hresume]; exact Option.some_ne_none _)
  | finalize file_hash verify free => exact absurd rfl (hother file_hash verify free)

/-- A name that does not lead out of the directory that it is joined to. -/
def Plain (name : String) : Prop := is_absolute name = false ∧ ".." ∉ components name

/-- Where the file of a download with such a name is put: a name of a directory leads into it. -/
def place (config : QueueConfig) (hash name : String) : Path :=
  if config.is_dir (config.incoming_dir ++ components name) then
    config.incoming_dir ++ components name ++ [hash ++ ".part"]
  else config.incoming_dir ++ components name

/-- A path below `incoming_dir`. -/
def Inside (config : QueueConfig) (path : Path) : Prop := ∃ rest ≠ [], path = config.incoming_dir ++ rest

theorem inside_place (config : QueueConfig) (hash name : String) : Inside config (place config hash name) := by
  unfold place
  split
  · exact ⟨components name ++ [hash ++ ".part"], by simp, List.append_assoc _ _ _⟩
  · rename_i hnot
    refine ⟨components name, ?_, rfl⟩
    intro hempty
    rw [hempty, List.append_nil, config.incoming_is_dir] at hnot
    exact hnot rfl

theorem lookup_plain {directory target : Path} {rest : List String} (hplain : ".." ∉ rest)
    (hlookup : lookup config directory rest = some target) : target = directory ++ rest := by
  induction rest generalizing directory with
  | nil =>
    rw [List.append_nil]
    exact (Option.some.inj hlookup).symm
  | cons component rest ih =>
    rw [List.mem_cons, not_or] at hplain
    rw [lookup, if_neg (Ne.symm hplain.1)] at hlookup
    by_cases hlast : rest = []
    · rw [if_pos hlast] at hlookup
      rw [hlast]
      exact (Option.some.inj hlookup).symm
    · rw [if_neg hlast] at hlookup
      split at hlookup
      · rw [ih hplain.2 hlookup, List.append_assoc, List.singleton_append]
      · cases hlookup

/-- What a successful `finalize` does. -/
theorem finalize_cases {file_hash : String} {verify : Bool} {free : Nat}
    (hfinalize : queue.finalize config file_hash verify free = .ok next) :
    ∃ hash row content target placed, normalize_hash file_hash = .ok hash ∧ queue.rows.get hash = some row ∧
      row.status = .COMPLETE ∧ queue.files.get row.part_path = some content ∧
      (verify = true → queue.verify_file config hash row.part_path content = .ok ()) ∧
      target_of config row.name = some target ∧
      placed = (if config.is_dir target then target ++ [row.part_path.getLastD ""] else target) ∧
      next = ⟨queue.rows.set hash { row with status := .COMPLETE },
        (queue.files.erase row.part_path).set placed content, queue.sidecars,
        queue.moved ++ [⟨hash, row.name, placed, content⟩]⟩ := by
  obtain ⟨hash, hhash, hafter⟩ := bind_eq_ok_iff.mp hfinalize
  obtain ⟨row, hfind, hafter⟩ := bind_eq_ok_iff.mp hafter
  have hrow := find_eq_ok_iff.mp hfind
  by_cases hstatus : row.status ≠ .COMPLETE
  · rw [if_pos hstatus] at hafter
    cases hafter
  rw [if_neg hstatus] at hafter
  cases hfile : queue.files.get row.part_path with
  | none =>
    rw [hfile] at hafter
    cases hafter
  | some content =>
    simp only [hfile] at hafter
    by_cases hfree : free ≤ content.length
    · rw [if_pos hfree] at hafter
      cases hafter
    rw [if_neg hfree] at hafter
    have hmoved : (verify = true → queue.verify_file config hash row.part_path content = .ok ()) ∧
        queue.move_named config hash row content = .ok next := by
      cases verify with
      | false => exact ⟨nofun, hafter⟩
      | true =>
        obtain ⟨⟨⟩, hverify, hmove⟩ := bind_eq_ok_iff.mp hafter
        exact ⟨fun _ => hverify, hmove⟩
    obtain ⟨hverify, hmove⟩ := hmoved
    unfold move_named at hmove
    split at hmove
    · cases hmove
    cases htarget : target_of config row.name with
    | none =>
      rw [htarget] at hmove
      cases hmove
    | some target =>
      rw [htarget] at hmove
      obtain ⟨⟨placed, after⟩, hplaced, hnext⟩ := bind_eq_ok_iff.mp hmove
      refine ⟨hash, row, content, target, placed, hhash, hrow, not_not.mp hstatus, hfile, hverify, htarget, ?_⟩
      unfold move at hplaced
      dsimp only at hplaced
      by_cases hdir : config.is_dir target = true
      · rw [if_pos hdir] at hplaced
        split at hplaced
        · cases hplaced
        · cases hplaced
          cases hnext
          exact ⟨(if_pos hdir).symm, rfl⟩
      · rw [if_neg hdir] at hplaced
        cases hplaced
        cases hnext
        exact ⟨(if_neg hdir).symm, rfl⟩

/-- The files that were moved are there, each under the place of its name, and the part files of their
downloads are gone. -/
structure Filed (config : QueueConfig) (queue : DownloadQueue) : Prop where
  placed : PartPlaced config queue
  target : ∀ file ∈ queue.moved, file.target = place config file.hash file.name
  content : ∀ file ∈ queue.moved, queue.files.get file.target = some file.content
  row : ∀ file ∈ queue.moved, queue.rows.get file.hash ≠ none
  gone : ∀ file ∈ queue.moved, queue.files.get (part_path config file.hash) = none

/-- A `finalize` of a complete download takes a name that does not lead out of `incoming_dir`, and to another
place than the names of the downloads that were finalized under other hashes. -/
def Fits (config : QueueConfig) (queue : DownloadQueue) : QueueCall → Prop
  | .finalize file_hash _ _ => ∀ hash row, normalize_hash file_hash = .ok hash →
      queue.rows.get hash = some row → row.status = .COMPLETE →
        Plain row.name ∧ ∀ file ∈ queue.moved, file.hash ≠ hash →
          place config file.hash file.name ≠ place config hash row.name
  | _ => True

theorem Filed.worked (h : Filed config queue) (hworked : Worked config queue next)
    (happart : ∀ hash, ¬ Inside config (part_path config hash)) : Filed config next := by
  have hfiles : ∀ path, Inside config path → next.files.get path = queue.files.get path := by
    intro path hinside
    rcases hworked.files path with hsame | ⟨hash, rfl, _⟩
    · exact hsame
    · exact absurd hinside (happart hash)
  refine ⟨hworked.placed, ?_, ?_, ?_, ?_⟩
  · rw [hworked.moved]
    exact h.target
  · rw [hworked.moved]
    intro file hfile
    rw [hfiles file.target (h.target file hfile ▸ inside_place config _ _)]
    exact h.content file hfile
  · rw [hworked.moved]
    exact fun file hfile => hworked.rows _ (h.row file hfile)
  · rw [hworked.moved]
    intro file hfile
    rcases hworked.files (part_path config file.hash) with hsame | ⟨hash, hpath, hnew⟩
    · rw [hsame]
      exact h.gone file hfile
    · rw [← part_path_inj hpath] at hnew
      rcases hnew with hrow | hopen
      · exact absurd hrow (h.row file hfile)
      · exact absurd (h.gone file hfile) hopen

/-- What a `finalize` that fits does. -/
theorem Filed.finalize (h : Filed config queue) {file_hash : String} {verify : Bool} {free : Nat}
    (hfits : Fits config queue (.finalize file_hash verify free))
    (hfinalize : queue.finalize config file_hash verify free = .ok next)
    (happart : ∀ hash, ¬ Inside config (part_path config hash)) :
    Filed config next ∧ ∀ path, next.files.get path ≠ queue.files.get path →
      (∃ hash, path = part_path config hash) ∨ Inside config path := by
  obtain ⟨hash, row, content, target, placed, hhash, hrow, hstatus, hfile, _, htarget, hplaced, rfl⟩ :=
    finalize_cases hfinalize
  obtain ⟨hplain, hclash⟩ := hfits hash row hhash hrow hstatus
  have hsource := h.placed hash row hrow
  have hplace : placed = place config hash row.name := by
    unfold target_of at htarget
    rw [hplain.1] at htarget
    rw [hplaced, lookup_plain hplain.2 htarget, place, hsource, part_path, List.getLastD_concat]
    rfl
  have hinside : Inside config placed := hplace ▸ inside_place config hash row.name
  have hne : ∀ other, part_path config other ≠ placed := fun other hsame => happart other (hsame ▸ hinside)
  have hhashes : ∀ file ∈ queue.moved, file.hash ≠ hash := by
    rintro file hmem rfl
    have hgone := h.gone file hmem
    rw [← hsource, hfile] at hgone
    cases hgone
  rw [hsource]
  refine ⟨⟨h.placed.set rfl rfl, ?_, ?_, ?_, ?_⟩, ?_⟩
  · intro file hmem
    rcases List.mem_append.mp hmem with hold | hnew
    · exact h.target file hold
    · rw [List.mem_singleton.mp hnew]
      exact hplace
  · intro file hmem
    rcases List.mem_append.mp hmem with hold | hnew
    · have hother : file.target ≠ placed := by
        rw [h.target file hold, hplace]
        exact hclash file hold (hhashes file hold)
      have hpart : file.target ≠ part_path config hash := by
        intro hsame
        exact happart hash (hsame ▸ h.target file hold ▸ inside_place config _ _)
      rw [Dict.get_set_of_ne hother, Dict.get_erase_of_ne hpart]
      exact h.content file hold
    · rw [List.mem_singleton.mp hnew]
      exact Dict.get_set_self _ _ _
  · intro file hmem
    apply get_set_ne_none
    rcases List.mem_append.mp hmem with hold | hnew
    · exact h.row file hold
    · rw [List.mem_singleton.mp hnew, hrow]
      exact Option.some_ne_none row
  · intro file hmem
    dsimp only
    rw [Dict.get_set_of_ne (hne file.hash)]
    rcases List.mem_append.mp hmem with hold | hnew
    · by_cases hsame : part_path config file.hash = part_path config hash
      · rw [hsame]
        exact Dict.get_erase_self _ _
      · rw [Dict.get_erase_of_ne hsame]
        exact h.gone file hold
    · rw [List.mem_singleton.mp hnew]
      exact Dict.get_erase_self _ _
  · intro path hchanged
    by_cases hsame : path = placed
    · exact .inr (hsame ▸ hinside)
    · dsimp only at hchanged
      rw [Dict.get_set_of_ne hsame] at hchanged
      by_cases hpart : path = part_path config hash
      · exact .inl ⟨hash, hpart⟩
      · rw [Dict.get_erase_of_ne hpart] at hchanged
        exact absurd rfl hchanged

theorem Filed.after (h : Filed config queue) {call : QueueCall} (hfits : Fits config queue call)
    (happart : ∀ hash, ¬ Inside config (part_path config hash)) : Filed config (queue.after config call) := by
  unfold DownloadQueue.after
  cases hcall : queue.call config call with
  | error e => exact h
  | ok next =>
    by_cases hfinalize : ∃ file_hash verify free, call = .finalize file_hash verify free
    · obtain ⟨file_hash, verify, free, rfl⟩ := hfinalize
      exact (h.finalize hfits hcall happart).1
    · apply h.worked _ happart
      apply worked_call h.placed _ hcall
      exact fun file_hash verify free hsame => hfinalize ⟨file_hash, verify, free, hsame⟩

/-- Every call of a run fits the queue that it finds. -/
def MeetsFits (config : QueueConfig) (queue : DownloadQueue) : List QueueCall → Prop
  | [] => True
  | call :: rest => Fits config queue call ∧ MeetsFits config (queue.after config call) rest

theorem Filed.run {calls : List QueueCall} (h : Filed config queue) (hfits : MeetsFits config queue calls)
    (happart : ∀ hash, ¬ Inside config (part_path config hash)) : Filed config (queue.run config calls) := by
  induction calls generalizing queue with
  | nil => exact h
  | cons call rest ih => exact ih (h.after hfits.1 happart) hfits.2

/-- In a run whose names fit, every `finalize` writes below `incoming_dir` only, and the file of every
download that was finalized stays where it was put, with its content. -/
theorem finalized_files_stay (config : QueueConfig)
    (happart : ∀ hash, ¬ Inside config (part_path config hash)) (files : Dict Path Bytes)
    (sidecars : Dict Path Sidecar) (calls : List QueueCall)
    (hfits : MeetsFits config ⟨.empty, files, sidecars, []⟩ calls) :
    let queue := DownloadQueue.run config ⟨.empty, files, sidecars, []⟩ calls
    (∀ file ∈ queue.moved, Inside config file.target ∧ queue.files.get file.target = some file.content) ∧
    ∀ (file_hash : String) (verify : Bool) (free : Nat) (next : DownloadQueue),
      Fits config queue (.finalize file_hash verify free) →
        queue.finalize config file_hash verify free = .ok next →
          ∀ path, next.files.get path ≠ queue.files.get path →
            (∃ hash, path = part_path config hash) ∨ Inside config path := by
  intro queue
  have hstart : Filed config ⟨.empty, files, sidecars, []⟩ := by
    refine ⟨?_, nofun, nofun, nofun, nofun⟩
    intro hash row hrow
    rw [Dict.get_empty] at hrow
    cases hrow
  have hfiled : Filed config queue := hstart.run hfits happart
  refine ⟨?_, ?_⟩
  · intro file hfile
    exact ⟨hfiled.target file hfile ▸ inside_place config _ _, hfiled.content file hfile⟩
  · intro file_hash verify free next hnext hfinalize
    exact (hfiled.finalize hnext hfinalize happart).2

section Samples

/-- The two directories below the root. -/
def sampleQueueConfig : QueueConfig where
  md4 := Md4.buffered (zeroHash 16)
  temp_dir := ["temp"]
  incoming_dir := ["incoming"]
  sparse_part_files := false
  is_dir := fun path => path = [] ∨ path = ["temp"] ∨ path = ["incoming"]
  incoming_is_dir := rfl

/-- A text of thirty-two equal digits. -/
def sampleHash (digit : Char) : String := String.ofList (List.replicate 32 digit)

/-- A download of one byte that is finalized. -/
def sampleDownload (digit : Char) (name : String) (byte : UInt8) : List QueueCall :=
  [.add (sampleHash digit) name 1 100, .record_block (sampleHash digit) 0 [byte],
    .finalize (sampleHash digit) false 100]

def emptyQueue : DownloadQueue := ⟨.empty, .empty, .empty, []⟩

theorem apart_sampleQueueConfig (hash : String) : ¬ Inside sampleQueueConfig (part_path sampleQueueConfig hash) := by
  rintro ⟨rest, _, hpath⟩
  have hhead : "temp" = "incoming" := (List.cons.inj hpath).1
  exact absurd hhead (by decide)

theorem finalized_files_stay_one :
    (emptyQueue.run sampleQueueConfig (sampleDownload '0' "a" 7)).moved.length = 1 ∧
      ∀ file ∈ (emptyQueue.run sampleQueueConfig (sampleDownload '0' "a" 7)).moved,
        Inside sampleQueueConfig file.target ∧
          (emptyQueue.run sampleQueueConfig (sampleDownload '0' "a" 7)).files.get file.target =
            some file.content := by
  have hfits : MeetsFits sampleQueueConfig emptyQueue (sampleDownload '0' "a" 7) := by
    refine ⟨trivial, trivial, ?_, trivial⟩
    intro hash row hhash hrow _
    have hnormal : normalize_hash (sampleHash '0') = .ok (sampleHash '0') := by decide +kernel
    rw [hnormal, Except.ok.injEq] at hhash
    subst hhash
    have hname : (((emptyQueue.after sampleQueueConfig (.add (sampleHash '0') "a" 1 100)).after sampleQueueConfig
        (.record_block (sampleHash '0') 0 [7])).rows.get (sampleHash '0')).map Download.name = some "a" := by
      decide +kernel
    rw [hrow, Option.map_some, Option.some.injEq] at hname
    rw [hname]
    exact ⟨⟨by decide, by decide⟩, nofun⟩
  refine ⟨by decide +kernel, ?_⟩
  exact (finalized_files_stay sampleQueueConfig apart_sampleQueueConfig .empty .empty _ hfits).1

/-- A name leads out of `incoming_dir`, and of two downloads of one name the second takes the place of the
first. -/
theorem finalized_files_lost :
    (¬ ∀ (config : QueueConfig) (calls : List QueueCall),
      (∀ hash, ¬ Inside config (part_path config hash)) →
        ∀ file ∈ (emptyQueue.run config calls).moved, Inside config file.target) ∧
    ¬ ∀ (config : QueueConfig) (calls : List QueueCall),
      (∀ hash, ¬ Inside config (part_path config hash)) →
        ∀ file ∈ (emptyQueue.run config calls).moved,
          (emptyQueue.run config calls).files.get file.target = some file.content := by
  constructor
  · intro hclaim
    have hinside := hclaim sampleQueueConfig (sampleDownload '0' "../a" 7) apart_sampleQueueConfig
    have htargets : (emptyQueue.run sampleQueueConfig (sampleDownload '0' "../a" 7)).moved.map Moved.target =
        [["a"]] := by decide +kernel
    have hmem : ["a"] ∈ (emptyQueue.run sampleQueueConfig (sampleDownload '0' "../a" 7)).moved.map Moved.target := by
      rw [htargets]
      exact List.mem_singleton_self _
    obtain ⟨file, hfile, htarget⟩ := List.mem_map.mp hmem
    obtain ⟨rest, _, hpath⟩ := hinside file hfile
    rw [htarget] at hpath
    have hhead : "a" = "incoming" := (List.cons.inj hpath).1
    exact absurd hhead (by decide)
  · intro hclaim
    have hkept := hclaim sampleQueueConfig (sampleDownload '0' "a" 7 ++ sampleDownload '1' "a" 8)
      apart_sampleQueueConfig
    have hmoved : (emptyQueue.run sampleQueueConfig (sampleDownload '0' "a" 7 ++ sampleDownload '1' "a" 8)).moved.map
        (fun file => (file.target, file.content)) = [(["incoming", "a"], [7]), (["incoming", "a"], [8])] := by
      decide +kernel
    have hfile : (emptyQueue.run sampleQueueConfig (sampleDownload '0' "a" 7 ++ sampleDownload '1' "a" 8)).files.get
        ["incoming", "a"] = some [8] := by decide +kernel
    have hmem : (["incoming", "a"], [(7 : UInt8)]) ∈ (emptyQueue.run sampleQueueConfig
        (sampleDownload '0' "a" 7 ++ sampleDownload '1' "a" 8)).moved.map fun file => (file.target, file.content) := by
      rw [hmoved]
      exact List.mem_cons_self
    obtain ⟨file, hmem, hsame⟩ := List.mem_map.mp hmem
    rw [Prod.mk.injEq] at hsame
    have hcontent := hkept file hmem
    rw [hsame.1, hsame.2, hfile] at hcontent
    exact absurd hcontent (by decide)

end Samples

end amuled.download
