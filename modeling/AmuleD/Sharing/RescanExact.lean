import AmuleD.Sharing.Rescan

namespace amuled.sharing

/-- Below a directory there are the rows of the records, and the other rows are those that were there. -/
structure Replaced (platform : Platform) (root_text : String) (records : List SharedFile)
    (before after : SharedTables) : Prop where
  rows : ∀ file_hash row, after.shared_files.get file_hash = some row ↔
    (before.shared_files.get file_hash = some row ∧ platform.under root_text row = false) ∨
      ∃ record ∈ records, record.hash_hex = file_hash ∧ platform.row record = row
  registered : root_text ∈ after.shared_directories

/-- The rows below a directory are gone, and the other ones are there. -/
def Removed (platform : Platform) (root_text : String) (before after : Dict String SharedRow) : Prop :=
  ∀ file_hash row, after.get file_hash = some row ↔
    before.get file_hash = some row ∧ platform.under root_text row = false

/-- Wherever it is struck: a scan that raises changes nothing, and one that returns has replaced the rows below its
root, so that a removal afterwards finds them. -/
def RescanKept (platform : Platform) (directory : String) (records : Records) (tables : SharedTables) : Prop :=
  ∀ strikes, let scan := replace_shared_directory_scan platform strikes directory records tables
    (∀ e, scan.1 = .error e → scan.2 = tables) ∧
    ∀ result, scan.1 = .ok result →
      Replaced platform (platform.normalize_path directory) records.records tables scan.2 ∧
      ∀ strikes' removed, (remove_shared_directory platform strikes' directory true scan.2).1 = .ok removed →
        Removed platform (platform.normalize_path directory) scan.2.shared_files
          (remove_shared_directory platform strikes' directory true scan.2).2.shared_files

/-- What the statements take for granted. -/
structure Clean (platform : Platform) (root_text : String) (records : Records) (files : Dict String SharedRow) :
    Prop where
  /-- A generator yields nothing the second time. -/
  again : records.one_shot = true → records.records = []
  /-- Rows are keyed by hash, so equal files of a scan are one row, -/
  consistent : ∀ record ∈ records.records, ∀ other ∈ records.records,
    record.hash_hex = other.hash_hex → platform.row record = platform.row other
  /-- and a file outside with the hash of a scanned one would lose its row. -/
  inside : ∀ record ∈ records.records, ∀ row, files.get record.hash_hex = some row →
    platform.under root_text row = true
  /-- The prefix selects the rows below the root, and no other ones. -/
  selected : ∀ record ∈ records.records, platform.selected root_text (platform.row record) = true
  outside : ∀ file_hash row, files.get file_hash = some row → platform.under root_text row = false →
    platform.selected root_text row = false
  /-- An old row below the root is selected and its path is not scanned again under another hash. -/
  old : ∀ file_hash row, files.get file_hash = some row → platform.under root_text row = true →
    (∀ record ∈ records.records, record.hash_hex ≠ file_hash) →
    platform.selected root_text row = true ∧
      platform.lower (row.path.getD "") ∉ records.records.filterMap platform.lower_path

variable {platform : Platform} {root_text : String} {records : Records} {tables : SharedTables}

theorem get_rescanned {file_hash : String} {row : SharedRow} :
    (platform.rescanned root_text records tables).shared_files.get file_hash = some row ↔
      (tables.shared_files.assign (platform.rows records.records)).get file_hash = some row ∧
        platform.stale root_text (platform.scanned records) row = false := Dict.get_eraseAll_keysWhere_iff

theorem get_remaining {files : Dict String SharedRow} {file_hash : String} {row : SharedRow} :
    (platform.remaining root_text files).get file_hash = some row ↔
      files.get file_hash = some row ∧ platform.selected root_text row = false := Dict.get_eraseAll_keysWhere_iff

theorem stale_eq_true_iff {scanned : List String} {row : SharedRow} : platform.stale root_text scanned row = true ↔
    platform.selected root_text row = true ∧ platform.lower (row.path.getD "") ∉ scanned := by
  rw [Platform.stale, Bool.and_eq_true, decide_eq_true_iff]

/-- A row that no record replaces is the one that was there. -/
theorem get_saved_of_fresh {file_hash : String} (hfresh : ∀ record ∈ records.records, record.hash_hex ≠ file_hash) :
    (tables.shared_files.assign (platform.rows records.records)).get file_hash =
      tables.shared_files.get file_hash := by
  apply Dict.get_assign_of_not_mem
  rw [Platform.rows, List.map_map, List.mem_map]
  rintro ⟨record, hmem, hhash⟩
  exact hfresh record hmem hhash

theorem get_saved_of_mem (hconsistent : ∀ record ∈ records.records, ∀ other ∈ records.records,
    record.hash_hex = other.hash_hex → platform.row record = platform.row other) {record : SharedFile}
    (hmem : record ∈ records.records) :
    (tables.shared_files.assign (platform.rows records.records)).get record.hash_hex =
      some (platform.row record) := by
  apply Dict.get_assign_of_consistent
  · intro item hitem other hother hhash
    obtain ⟨one, hone, rfl⟩ := List.mem_map.mp hitem
    obtain ⟨two, htwo, rfl⟩ := List.mem_map.mp hother
    exact hconsistent one hone two htwo hhash
  · exact List.mem_map_of_mem hmem

/-- A record whose row lies below a directory has a path, and the second loop collects it. -/
theorem lower_path_of_under {record : SharedFile} (hunder : platform.under root_text (platform.row record) = true) :
    platform.lower_path record = some (platform.lower ((platform.row record).path.getD "")) := by
  have hpath : (platform.row record).path =
      (record.path.filter fun path => path ≠ "").map platform.normalize_path := rfl
  rw [Platform.under, hpath] at hunder
  rw [Platform.lower_path, hpath]
  cases hrecord : record.path with
  | none =>
    rw [hrecord] at hunder
    cases hunder
  | some path =>
    by_cases hempty : path = ""
    · rw [hrecord, Option.filter_some, hempty] at hunder
      cases hunder
    · simp [Option.filter_some, hempty]

theorem scanned_of_list (hlist : records.one_shot = false) :
    platform.scanned records = (records.records.filterMap platform.lower_path).reverse := by
  rw [Platform.scanned, hlist]
  rfl

theorem starts_with_iff {text front : String} : starts_with text front = true ↔ front.toList <+: text.toList :=
  List.isPrefixOf_iff_prefix

/-- On Windows the prefix selects what is below the root. -/
theorem selected_eq_under (hwindows : platform.windows = true) (hlower : platform.sql_lower = platform.lower)
    (hstarts : shared_prefix root_text = platform.directory_prefix root_text) (row : SharedRow) :
    platform.selected root_text row = platform.under root_text row := by
  rw [Platform.selected, Platform.under]
  cases row.path with
  | none => rfl
  | some path => simp only [Platform.fold, hwindows, hlower, hstarts, if_true]

/-- Elsewhere it selects nothing that is below the root, since it always ends in a backslash. -/
theorem selected_eq_false_of_under (hposix : platform.windows = false) {lower : Char → Char}
    (hlower : ∀ text, (platform.sql_lower text).toList = text.toList.map lower) (hslash : lower '\\' ≠ lower '/')
    {front : List Char} {last : Char} (hroot : root_text.toList = front ++ [last]) (hsep : last ≠ '/')
    (hback : last ≠ '\\') {row : SharedRow} (hunder : platform.under root_text row = true) :
    platform.selected root_text row = false := by
  have hstrip : (rstrip_separators root_text).toList = root_text.toList := by
    rw [rstrip_separators, String.toList_ofList, hroot, List.reverse_append, List.reverse_singleton,
      List.singleton_append, List.dropWhile_cons_of_neg (by simp [hsep, hback]), List.reverse_cons,
      List.reverse_reverse]
  have hstarts : (platform.directory_prefix root_text).toList = root_text.toList ++ ['/'] := by
    have hseparator : platform.separator = '/' := by
      rw [Platform.separator, hposix]
      rfl
    have hopen : ¬ root_text.toList.getLast? = some platform.separator := by
      rw [hroot, List.getLast?_concat, hseparator]
      simpa using hsep
    rw [Platform.directory_prefix, if_neg hopen, hseparator, String.toList_ofList]
  rw [Platform.under] at hunder
  rw [Platform.selected]
  cases hpath : row.path with
  | none => rfl
  | some path =>
    rw [hpath] at hunder
    simp only [Platform.fold, hposix, Bool.false_eq_true, if_false] at hunder
    obtain ⟨rest, hrest⟩ := starts_with_iff.mp hunder
    rw [hstarts, List.append_assoc] at hrest
    refine Bool.eq_false_of_not_eq_true fun hselected => ?_
    have hfront := starts_with_iff.mp hselected
    rw [hlower, hlower, shared_prefix, String.toList_append, hstrip, ← hrest, List.map_append, List.map_append,
      List.prefix_append_right_inj] at hfront
    obtain ⟨hsame, _⟩ := List.cons_prefix_cons.mp hfront
    exact hslash hsame

section Exact

variable (hunder : ∀ record ∈ records.records, platform.under root_text (platform.row record) = true)

include hunder

theorem replaced_of_clean (hclean : Clean platform root_text records tables.shared_files) :
    Replaced platform root_text records.records tables (platform.rescanned root_text records tables) := by
  refine ⟨fun file_hash row => ?_, mem_save_directory tables root_text⟩
  rw [get_rescanned]
  constructor
  · rintro ⟨hsaved, hkept⟩
    by_cases hscanned : ∃ record ∈ records.records, record.hash_hex = file_hash
    · obtain ⟨record, hmem, rfl⟩ := hscanned
      rw [get_saved_of_mem hclean.consistent hmem] at hsaved
      exact Or.inr ⟨record, hmem, rfl, Option.some.inj hsaved⟩
    · have hfresh : ∀ record ∈ records.records, record.hash_hex ≠ file_hash :=
        fun record hmem hhash => hscanned ⟨record, hmem, hhash⟩
      rw [get_saved_of_fresh hfresh] at hsaved
      refine Or.inl ⟨hsaved, ?_⟩
      by_contra hinside
      obtain ⟨hselected, hnew⟩ := hclean.old file_hash row hsaved (Bool.eq_true_of_not_eq_false hinside) hfresh
      have hstale : platform.stale root_text (platform.scanned records) row = true := by
        refine stale_eq_true_iff.mpr ⟨hselected, ?_⟩
        rw [Platform.scanned, List.mem_reverse]
        split
        · exact List.not_mem_nil
        · exact hnew
      rw [hkept] at hstale
      cases hstale
  · rintro (⟨hbefore, houtside⟩ | ⟨record, hmem, rfl, rfl⟩)
    · have hfresh : ∀ record ∈ records.records, record.hash_hex ≠ file_hash := by
        rintro record hmem rfl
        rw [hclean.inside record hmem row hbefore] at houtside
        cases houtside
      rw [get_saved_of_fresh hfresh]
      refine ⟨hbefore, ?_⟩
      rw [Platform.stale, hclean.outside file_hash row hbefore houtside]
      rfl
    · refine ⟨get_saved_of_mem hclean.consistent hmem, Bool.eq_false_of_not_eq_true fun hstale => ?_⟩
      refine (stale_eq_true_iff.mp hstale).2 ?_
      have hlist : records.one_shot = false := by
        by_contra hshot
        rw [hclean.again (Bool.eq_true_of_not_eq_false hshot)] at hmem
        cases hmem
      rw [scanned_of_list hlist, List.mem_reverse, List.mem_filterMap]
      exact ⟨record, hmem, lower_path_of_under (hunder record hmem)⟩

theorem removed_of_clean (hclean : Clean platform root_text records tables.shared_files) :
    Removed platform root_text (platform.rescanned root_text records tables).shared_files
      (platform.remaining root_text (platform.rescanned root_text records tables).shared_files) := by
  intro file_hash row
  rw [get_remaining]
  apply and_congr_right
  intro hget
  obtain ⟨hbefore, houtside⟩ | ⟨record, hmem, _, rfl⟩ :=
    ((replaced_of_clean hunder hclean).rows file_hash row).mp hget
  · rw [houtside, hclean.outside file_hash row hbefore houtside]
  · rw [hclean.selected record hmem, hunder record hmem]

/-- Where a scan has replaced the rows and a removal finds them, all was as the statements take it. -/
theorem clean_of_exact
    (hreplaced : Replaced platform root_text records.records tables (platform.rescanned root_text records tables))
    (hremoved : Removed platform root_text (platform.rescanned root_text records tables).shared_files
      (platform.remaining root_text (platform.rescanned root_text records tables).shared_files)) :
    Clean platform root_text records tables.shared_files := by
  have hrecord : ∀ record ∈ records.records,
      (platform.rescanned root_text records tables).shared_files.get record.hash_hex = some (platform.row record) :=
    fun record hmem => (hreplaced.rows _ _).mpr (Or.inr ⟨record, hmem, rfl, rfl⟩)
  have houtside : ∀ file_hash row, tables.shared_files.get file_hash = some row →
      platform.under root_text row = false →
      (platform.rescanned root_text records tables).shared_files.get file_hash = some row :=
    fun file_hash row hbefore houter => (hreplaced.rows _ _).mpr (Or.inl ⟨hbefore, houter⟩)
  have hconsistent : ∀ record ∈ records.records, ∀ other ∈ records.records,
      record.hash_hex = other.hash_hex → platform.row record = platform.row other := by
    intro record hmem other hother hhash
    have hrow := hrecord record hmem
    rw [hhash, hrecord other hother] at hrow
    exact (Option.some.inj hrow).symm
  have hselected : ∀ record ∈ records.records, platform.selected root_text (platform.row record) = true := by
    intro record hmem
    by_contra hother
    have hkept := get_remaining.mpr ⟨hrecord record hmem, Bool.eq_false_of_not_eq_true hother⟩
    have hgone := ((hremoved _ _).mp hkept).2
    rw [hunder record hmem] at hgone
    cases hgone
  have hagain : records.one_shot = true → records.records = [] := by
    intro hshot
    by_contra hsome
    obtain ⟨record, hmem⟩ := List.exists_mem_of_ne_nil _ hsome
    have hfresh := (get_rescanned.mp (hrecord record hmem)).2
    have hscanned : platform.scanned records = [] := by
      rw [Platform.scanned, hshot]
      rfl
    rw [hscanned, Platform.stale, hselected record hmem] at hfresh
    cases hfresh
  refine ⟨hagain, hconsistent, ?_, hselected, ?_, ?_⟩
  · intro record hmem row hbefore
    by_contra houter
    have hkept := houtside _ row hbefore (Bool.eq_false_of_not_eq_true houter)
    rw [hrecord record hmem] at hkept
    rw [← Option.some.inj hkept, hunder record hmem] at houter
    exact houter rfl
  · intro file_hash row hbefore houter
    exact (get_remaining.mp ((hremoved _ _).mpr ⟨houtside file_hash row hbefore houter, houter⟩)).2
  · intro file_hash row hbefore hinner hfresh
    have hgone : (platform.rescanned root_text records tables).shared_files.get file_hash ≠ some row := by
      intro hkept
      obtain ⟨_, houter⟩ | ⟨record, hmem, hhash, _⟩ := (hreplaced.rows _ _).mp hkept
      · rw [hinner] at houter
        cases houter
      · exact hfresh record hmem hhash
    have hstale : platform.stale root_text (platform.scanned records) row = true := by
      by_contra hkept
      apply hgone
      rw [get_rescanned, get_saved_of_fresh hfresh]
      exact ⟨hbefore, Bool.eq_false_of_not_eq_true hkept⟩
    obtain ⟨hselected, hnew⟩ := stale_eq_true_iff.mp hstale
    refine ⟨hselected, fun hscanned => hnew ?_⟩
    have hlist : records.one_shot = false := by
      by_contra hshot
      rw [hagain (Bool.eq_true_of_not_eq_false hshot)] at hscanned
      cases hscanned
    rw [scanned_of_list hlist, List.mem_reverse]
    exact hscanned

end Exact

/-- A rescan does what is wanted exactly if one of its records does not fit into the table, or all is as its
statements take it. -/
theorem rescan_kept_iff {directory : String} (hunder : ∀ record ∈ records.records,
      platform.under (platform.normalize_path directory) (platform.row record) = true) :
    RescanKept platform directory records tables ↔ ((∀ record ∈ records.records, record.Storable) →
      Clean platform (platform.normalize_path directory) records tables.shared_files) := by
  constructor
  · intro hkept hstorable
    obtain ⟨result, hscan⟩ := replace_quiet platform hstorable directory tables
    obtain ⟨_, hreturns⟩ := hkept fun _ => none
    rw [hscan] at hreturns
    obtain ⟨hreplaced, hremoved⟩ := hreturns result rfl
    obtain ⟨removed, hremove⟩ := remove_quiet platform directory
      (platform.rescanned (platform.normalize_path directory) records tables)
    have hgone := hremoved (fun _ => none) removed hremove
    rw [remove_eq_ok hremove] at hgone
    exact clean_of_exact hunder hreplaced hgone
  · intro hclean strikes
    refine ⟨fun e herror => replace_eq_error herror, fun result hok => ?_⟩
    obtain ⟨hstorable, hscan⟩ := replace_eq_ok hok
    have hclean := hclean hstorable
    rw [hscan]
    refine ⟨replaced_of_clean hunder hclean, fun strikes' removed hremove => ?_⟩
    rw [remove_eq_ok hremove]
    exact removed_of_clean hunder hclean

/-- Where separators are slashes, only an empty scan of a root without rows is clean. -/
theorem empty_of_clean (hposix : platform.windows = false) {lower : Char → Char}
    (hlower : ∀ text, (platform.sql_lower text).toList = text.toList.map lower) (hslash : lower '\\' ≠ lower '/')
    {front : List Char} {last : Char} (hroot : root_text.toList = front ++ [last]) (hsep : last ≠ '/')
    (hback : last ≠ '\\')
    (hunder : ∀ record ∈ records.records, platform.under root_text (platform.row record) = true)
    (hclean : Clean platform root_text records tables.shared_files) :
    records.records = [] ∧ ∀ file_hash row, tables.shared_files.get file_hash = some row →
      platform.under root_text row = false := by
  have hnone : records.records = [] := by
    by_contra hsome
    obtain ⟨record, hmem⟩ := List.exists_mem_of_ne_nil _ hsome
    have hselected := hclean.selected record hmem
    rw [selected_eq_false_of_under hposix hlower hslash hroot hsep hback (hunder record hmem)] at hselected
    cases hselected
  refine ⟨hnone, fun file_hash row hget => Bool.eq_false_of_not_eq_true fun hinside => ?_⟩
  have hfresh : ∀ record ∈ records.records, record.hash_hex ≠ file_hash := by
    rw [hnone]
    exact fun record hmem => absurd hmem List.not_mem_nil
  have hselected := (hclean.old file_hash row hget hinside hfresh).1
  rw [selected_eq_false_of_under hposix hlower hslash hroot hsep hback hinside] at hselected
  cases hselected

/-- A platform on which all paths are normal and in lower case. -/
def samplePlatform (windows : Bool) : Platform := ⟨windows, id, id, id, fun _ => rfl⟩

/-- A scanned file. -/
def sampleFile (path : String) : SharedFile := ⟨List.replicate 16 1, "a", 9, some path, 1, false, rfl⟩

theorem rescan_kept_windows :
    RescanKept (samplePlatform true) "c:\\s" ⟨[sampleFile "c:\\s\\a"], false⟩ ⟨.empty, []⟩ := by
  refine (rescan_kept_iff ?_).mpr fun _ => ?_
  · intro record hmem
    rw [List.mem_singleton.mp hmem]
    decide +kernel
  · constructor
    · intro hshot
      cases hshot
    · intro record hmem other hother _
      rw [List.mem_singleton.mp hmem, List.mem_singleton.mp hother]
    · intro record _ row hget
      rw [Dict.get_empty] at hget
      cases hget
    · intro record hmem
      rw [List.mem_singleton.mp hmem]
      decide +kernel
    · intro file_hash row hget
      rw [Dict.get_empty] at hget
      cases hget
    · intro file_hash row hget
      rw [Dict.get_empty] at hget
      cases hget

/-- The row of a file that is gone. -/
def goneRow : SharedRow := ⟨"b", 5, some "/s/b", 1, false⟩

/-- Where separators are slashes, the row of a file that is gone stays. -/
theorem gone_file_stays :
    ¬ RescanKept (samplePlatform false) "/s" ⟨[sampleFile "/s/a"], false⟩ ⟨Dict.empty.set "B" goneRow, []⟩ := by
  intro hkept
  have hstorable : ∀ record ∈ (⟨[sampleFile "/s/a"], false⟩ : Records).records, record.Storable := by decide
  obtain ⟨result, hscan⟩ :=
    replace_quiet (samplePlatform false) hstorable "/s" ⟨Dict.empty.set "B" goneRow, []⟩
  obtain ⟨_, hreturns⟩ := hkept fun _ => none
  rw [hscan] at hreturns
  obtain ⟨hreplaced, _⟩ := hreturns result rfl
  have hstays : ((samplePlatform false).rescanned ((samplePlatform false).normalize_path "/s")
      ⟨[sampleFile "/s/a"], false⟩ ⟨Dict.empty.set "B" goneRow, []⟩).shared_files.get "B" = some goneRow := by
    decide +kernel
  obtain ⟨_, houtside⟩ | ⟨record, hmem, hhash, _⟩ := (hreplaced.rows _ _).mp hstays
  · have hinside : (samplePlatform false).under "/s" goneRow = true := by decide +kernel
    rw [show (samplePlatform false).normalize_path "/s" = "/s" from rfl, hinside] at houtside
    cases houtside
  · rw [List.mem_singleton.mp hmem] at hhash
    revert hhash
    decide +kernel

end amuled.sharing
