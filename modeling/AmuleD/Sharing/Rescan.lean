import AmuleD.Sharing.SharedTables

namespace amuled.sharing

namespace Platform

variable (platform : Platform)

def separator : Char := if platform.windows then '\\' else '/'

/-- Paths that differ only in case are one path on Windows. -/
def fold (text : String) : String := if platform.windows then platform.lower text else text

/-- What the paths below a directory begin with. The root of a file system ends in a separator. -/
def directory_prefix (root_text : String) : String :=
  if root_text.toList.getLast? = some platform.separator then root_text
  else String.ofList (root_text.toList ++ [platform.separator])

/-- The path of a row lies below a directory. -/
def under (root_text : String) (row : SharedRow) : Bool :=
  match row.path with
  | none => false
  | some path => starts_with (platform.fold path) (platform.fold (platform.directory_prefix root_text))

/-- The row of a record. An empty path is none. -/
def row (record : SharedFile) : SharedRow where
  name := record.name
  size := record.size
  path := (record.path.filter fun path => path ≠ "").map platform.normalize_path
  priority := record.priority
  imported := record.imported

/-- The rows of the records under their hashes. -/
def rows (records : List SharedFile) : List (String × SharedRow) :=
  records.map fun record => (record.hash_hex, platform.row record)

/-- The lower-case path of a record with a path. -/
def lower_path (record : SharedFile) : Option String :=
  record.path.map fun path => platform.lower (platform.normalize_path path)

/-- The lower-case paths that the second loop over the records collects. -/
def scanned (records : Records) : List String :=
  ((if records.one_shot then [] else records.records).filterMap platform.lower_path).reverse

/-- The tables after a scan that goes through. -/
def rescanned (root_text : String) (records : Records) (tables : SharedTables) : SharedTables :=
  let saved := tables.shared_files.assign (platform.rows records.records)
  ⟨saved.eraseAll (saved.keysWhere (platform.stale root_text (platform.scanned records))),
    (save_directory tables root_text).shared_directories⟩

/-- The table of files after the removal of a directory. -/
def remaining (root_text : String) (files : Dict String SharedRow) : Dict String SharedRow :=
  files.eraseAll (files.keysWhere (platform.selected root_text))

end Platform

section Statements

variable {platform : Platform} {strikes : Point → Option Exc}

theorem stored_path_eq_ok {index : Nat} {record : SharedFile} {path : Option String}
    (hpath : stored_path platform strikes index record.path = .ok path) : path = (platform.row record).path := by
  rw [Platform.row]
  cases hrecord : record.path with
  | none =>
    rw [hrecord] at hpath
    cases hpath
    rfl
  | some text =>
    rw [hrecord, stored_path] at hpath
    by_cases hempty : text = ""
    · rw [if_pos hempty] at hpath
      cases hpath
      simp [hempty]
    · rw [if_neg hempty] at hpath
      obtain ⟨_, _, hpath⟩ := bind_eq_ok_iff.mp hpath
      cases hpath
      simp [hempty]

theorem stored_path_quiet (index : Nat) (record : SharedFile) :
    stored_path platform (fun _ => none) index record.path = .ok (platform.row record).path := by
  rw [Platform.row]
  cases hrecord : record.path with
  | none => rfl
  | some text =>
    rw [stored_path]
    by_cases hempty : text = ""
    · simp [hempty]
    · simp [hempty, strike]

theorem save_turn_eq_ok {tables after : SharedTables} {entry : SharedFile × Nat}
    (hturn : save_turn platform strikes tables entry = .ok after) : entry.1.Storable ∧
      after = { tables with
        shared_files := tables.shared_files.set entry.1.hash_hex (platform.row entry.1) } := by
  rw [save_turn] at hturn
  obtain ⟨_, _, hturn⟩ := bind_eq_ok_iff.mp hturn
  obtain ⟨path, hpath, hturn⟩ := bind_eq_ok_iff.mp hturn
  obtain ⟨_, _, hsave⟩ := bind_eq_ok_iff.mp hturn
  rw [save_file] at hsave
  split_ifs at hsave with hstorable
  cases hsave
  rw [stored_path_eq_ok hpath]
  exact ⟨hstorable, rfl⟩

theorem save_turn_quiet {entry : SharedFile × Nat} (hstorable : entry.1.Storable) (tables : SharedTables) :
    save_turn platform (fun _ => none) tables entry = .ok { tables with
      shared_files := tables.shared_files.set entry.1.hash_hex (platform.row entry.1) } := by
  rw [save_turn, stored_path_quiet]
  simp only [strike, ok_bind, save_file, if_pos hstorable]
  rfl

theorem save_loop_eq_ok {records : List SharedFile} {start : Nat} {tables after : SharedTables}
    (hloop : (records.zipIdx start).foldlM (save_turn platform strikes) tables = .ok after) :
    (∀ record ∈ records, record.Storable) ∧
      after = { tables with shared_files := tables.shared_files.assign (platform.rows records) } := by
  induction records generalizing start tables with
  | nil =>
    cases hloop
    exact ⟨fun record hmem => absurd hmem List.not_mem_nil, rfl⟩
  | cons record rest ih =>
    rw [List.zipIdx_cons, List.foldlM_cons] at hloop
    obtain ⟨next, hturn, hrest⟩ := bind_eq_ok_iff.mp hloop
    obtain ⟨hstorable, rfl⟩ := save_turn_eq_ok hturn
    obtain ⟨hall, hafter⟩ := ih hrest
    exact ⟨List.forall_mem_cons.mpr ⟨hstorable, hall⟩, hafter⟩

theorem save_loop_quiet {records : List SharedFile} (hstorable : ∀ record ∈ records, record.Storable) (start : Nat)
    (tables : SharedTables) :
    (records.zipIdx start).foldlM (save_turn platform fun _ => none) tables =
      .ok { tables with shared_files := tables.shared_files.assign (platform.rows records) } := by
  induction records generalizing start tables with
  | nil => rfl
  | cons record rest ih =>
    obtain ⟨hfirst, hrest⟩ := List.forall_mem_cons.mp hstorable
    rw [List.zipIdx_cons, List.foldlM_cons, save_turn_quiet hfirst, ok_bind, ih hrest]
    rfl

theorem scan_loop_eq_ok {records : List SharedFile} {start : Nat} {scanned after : List String}
    (hloop : (records.zipIdx start).foldlM (scan_turn platform strikes) scanned = .ok after) :
    after = (records.filterMap platform.lower_path).reverse ++ scanned := by
  induction records generalizing start scanned with
  | nil =>
    cases hloop
    rfl
  | cons record rest ih =>
    rw [List.zipIdx_cons, List.foldlM_cons] at hloop
    obtain ⟨next, hturn, hrest⟩ := bind_eq_ok_iff.mp hloop
    rw [ih hrest, List.filterMap_cons, Platform.lower_path]
    rw [scan_turn] at hturn
    obtain ⟨_, _, hturn⟩ := bind_eq_ok_iff.mp hturn
    cases hpath : record.path with
    | none =>
      simp only [hpath] at hturn
      cases hturn
      rfl
    | some path =>
      simp only [hpath] at hturn
      obtain ⟨_, _, hturn⟩ := bind_eq_ok_iff.mp hturn
      cases hturn
      simp

theorem scan_loop_quiet (records : List SharedFile) (start : Nat) (scanned : List String) :
    (records.zipIdx start).foldlM (scan_turn platform fun _ => none) scanned =
      .ok ((records.filterMap platform.lower_path).reverse ++ scanned) := by
  induction records generalizing start scanned with
  | nil => rfl
  | cons record rest ih =>
    rw [List.zipIdx_cons, List.foldlM_cons, List.filterMap_cons, scan_turn, Platform.lower_path]
    cases hpath : record.path with
    | none =>
      simp only [strike, ok_bind, ih]
      rfl
    | some path =>
      simp only [strike, ok_bind, ih]
      simp

theorem delete_loop_eq_ok {stale : List String} {start : Nat} {tables after : SharedTables}
    (hloop : (stale.zipIdx start).foldlM (delete_turn strikes) tables = .ok after) :
    after = { tables with shared_files := tables.shared_files.eraseAll stale } := by
  induction stale generalizing start tables with
  | nil =>
    cases hloop
    rfl
  | cons file_hash rest ih =>
    rw [List.zipIdx_cons, List.foldlM_cons] at hloop
    obtain ⟨next, hturn, hrest⟩ := bind_eq_ok_iff.mp hloop
    obtain ⟨_, _, hturn⟩ := bind_eq_ok_iff.mp hturn
    cases hturn
    exact ih hrest

theorem delete_loop_quiet (stale : List String) (start : Nat) (tables : SharedTables) :
    (stale.zipIdx start).foldlM (delete_turn fun _ => none) tables =
      .ok { tables with shared_files := tables.shared_files.eraseAll stale } := by
  induction stale generalizing start tables with
  | nil => rfl
  | cons file_hash rest ih =>
    rw [List.zipIdx_cons, List.foldlM_cons, delete_turn, strike, ok_bind, ok_bind, ih]
    rfl

@[simp] theorem save_directory_shared_files (tables : SharedTables) (path : String) :
    (save_directory tables path).shared_files = tables.shared_files := by
  rw [save_directory]
  split <;> rfl

theorem mem_save_directory (tables : SharedTables) (path : String) :
    path ∈ (save_directory tables path).shared_directories := by
  rw [save_directory]
  split
  · rename_i hmem
    exact hmem
  · exact List.mem_append_right _ List.mem_cons_self

/-- A scan that goes through has saved all records. -/
theorem rescan_eq_ok {root_text : String} {records : Records} {tables after : SharedTables} {result : ScanResult}
    (hscan : rescan platform strikes root_text records tables = .ok (result, after)) :
    (∀ record ∈ records.records, record.Storable) ∧ after = platform.rescanned root_text records tables := by
  rw [rescan] at hscan
  obtain ⟨_, _, hscan⟩ := bind_eq_ok_iff.mp hscan
  obtain ⟨saved, hsaved, hscan⟩ := bind_eq_ok_iff.mp hscan
  obtain ⟨_, _, hscan⟩ := bind_eq_ok_iff.mp hscan
  obtain ⟨_, _, hscan⟩ := bind_eq_ok_iff.mp hscan
  obtain ⟨scanned, hscanned, hscan⟩ := bind_eq_ok_iff.mp hscan
  obtain ⟨_, _, hscan⟩ := bind_eq_ok_iff.mp hscan
  obtain ⟨deleted, hdeleted, hscan⟩ := bind_eq_ok_iff.mp hscan
  obtain ⟨_, _, hscan⟩ := bind_eq_ok_iff.mp hscan
  cases hscan
  obtain ⟨hstorable, rfl⟩ := save_loop_eq_ok hsaved
  refine ⟨hstorable, ?_⟩
  rw [delete_loop_eq_ok hdeleted, scan_loop_eq_ok hscanned, List.append_nil, Platform.rescanned,
    save_directory_shared_files]
  rfl

theorem rescan_quiet (platform : Platform) {records : Records} (hstorable : ∀ record ∈ records.records, record.Storable)
    (root_text : String) (tables : SharedTables) :
    ∃ result, rescan platform (fun _ => none) root_text records tables =
      .ok (result, platform.rescanned root_text records tables) := by
  rw [rescan]
  simp only [strike, ok_bind, save_loop_quiet hstorable, scan_loop_quiet, delete_loop_quiet, List.append_nil]
  simp only [Platform.rescanned, Platform.scanned, save_directory_shared_files]
  exact ⟨_, rfl⟩

theorem transaction_eq_error {α : Type} {statements : SharedTables → Except Exc (α × SharedTables)}
    {tables : SharedTables} {e : Exc} (herror : (transaction statements tables).1 = .error e) :
    (transaction statements tables).2 = tables := by
  rw [transaction] at herror ⊢
  cases hrun : statements tables with
  | error e => rfl
  | ok changed =>
    rw [hrun] at herror
    cases herror

theorem transaction_eq_ok {α : Type} {statements : SharedTables → Except Exc (α × SharedTables)}
    {tables : SharedTables} {result : α} (hok : (transaction statements tables).1 = .ok result) :
    statements tables = .ok (result, (transaction statements tables).2) := by
  rw [transaction] at hok ⊢
  cases hrun : statements tables with
  | error e =>
    rw [hrun] at hok
    cases hok
  | ok changed =>
    rw [hrun] at hok
    cases hok
    rfl

variable {directory : String} {records : Records} {tables : SharedTables}

/-- A scan that raises leaves the tables as they were. -/
theorem replace_eq_error {e : Exc}
    (herror : (replace_shared_directory_scan platform strikes directory records tables).1 = .error e) :
    (replace_shared_directory_scan platform strikes directory records tables).2 = tables := by
  rw [replace_shared_directory_scan] at herror ⊢
  cases hbegin : (do strike strikes .resolve_root; strike strikes .begin_transaction) with
  | error e => rfl
  | ok _ =>
    rw [hbegin] at herror
    exact transaction_eq_error herror

theorem replace_eq_ok {result : ScanResult}
    (hok : (replace_shared_directory_scan platform strikes directory records tables).1 = .ok result) :
    (∀ record ∈ records.records, record.Storable) ∧
      (replace_shared_directory_scan platform strikes directory records tables).2 =
        platform.rescanned (platform.normalize_path directory) records tables := by
  rw [replace_shared_directory_scan] at hok ⊢
  cases hbegin : (do strike strikes .resolve_root; strike strikes .begin_transaction) with
  | error e =>
    rw [hbegin] at hok
    cases hok
  | ok _ =>
    rw [hbegin] at hok
    have hscan := rescan_eq_ok (transaction_eq_ok hok)
    rw [platform.normalize_idem] at hscan
    simp only [platform.normalize_idem]
    exact hscan

theorem replace_quiet (platform : Platform) (hstorable : ∀ record ∈ records.records, record.Storable) (directory : String)
    (tables : SharedTables) : ∃ result,
    replace_shared_directory_scan platform (fun _ => none) directory records tables =
      (.ok result, platform.rescanned (platform.normalize_path directory) records tables) := by
  obtain ⟨result, hscan⟩ := rescan_quiet platform hstorable (platform.normalize_path directory) tables
  refine ⟨result, ?_⟩
  rw [replace_shared_directory_scan, platform.normalize_idem]
  simp only [strike, ok_bind, transaction, hscan]

theorem remove_eq_ok {result : RemovalResult}
    (hok : (remove_shared_directory platform strikes directory true tables).1 = .ok result) :
    (remove_shared_directory platform strikes directory true tables).2.shared_files =
      platform.remaining (platform.normalize_path directory) tables.shared_files := by
  rw [remove_shared_directory] at hok ⊢
  cases hbegin : (do strike strikes .resolve_root; strike strikes .begin_transaction) with
  | error e =>
    rw [hbegin] at hok
    cases hok
  | ok _ =>
    rw [hbegin] at hok
    have hrows := transaction_eq_ok hok
    rw [remove_rows] at hrows
    obtain ⟨⟨removed, files⟩, hfiles, hrows⟩ := bind_eq_ok_iff.mp hrows
    obtain ⟨_, _, hrows⟩ := bind_eq_ok_iff.mp hrows
    obtain ⟨_, _, hrows⟩ := bind_eq_ok_iff.mp hrows
    obtain ⟨_, _, hrows⟩ := bind_eq_ok_iff.mp hrows
    rw [remove_files_under, if_pos rfl] at hfiles
    obtain ⟨_, _, hfiles⟩ := bind_eq_ok_iff.mp hfiles
    obtain ⟨_, _, hfiles⟩ := bind_eq_ok_iff.mp hfiles
    cases hfiles
    have hafter := congrArg (fun changed => changed.2.shared_files) (Except.ok.inj hrows)
    exact hafter.symm

theorem remove_quiet (platform : Platform) (directory : String) (tables : SharedTables) :
    ∃ result, (remove_shared_directory platform (fun _ => none) directory true tables).1 = .ok result := by
  rw [remove_shared_directory]
  simp only [strike, ok_bind, transaction, remove_rows, remove_files_under, if_true]
  exact ⟨_, rfl⟩

end Statements

end amuled.sharing
