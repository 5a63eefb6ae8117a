import AmuleD.Download.Dial
import AmuleD.Rounding.Binary
import AmuleD.Runs
import AmuleD.State.FileSources

open rounding
open amuled.download.dials (HIGH_ID_THRESHOLD)

namespace amuled.state

/-- A `datetime` of the local clock, in microseconds since the year 1. -/
structure Datetime where
  us : ℤ
  in_range : 0 ≤ us ∧ us < 3652059 * 86400000000

inductive PruneError where
  | ValueError (message : String)
  | OverflowError
  | DuckDBError
  deriving DecidableEq

/-- A positive or negative number of hours, or the infinity. -/
inductive AgeHours where
  | finite (hours : ℚ)
  | inf
  deriving DecidableEq

/-- A row of `file_sources` with its times. -/
structure SourceRow where
  source : FileSource
  first_seen : ℤ
  last_seen : ℤ

abbrev SourceTable : Type := Dict SourceKey SourceRow

/-- What the state backend uses of DuckDB: a statement with its parameters returns the number that is fetched first and
leaves the table, and the time that an upsert made at a time of the local clock stores. -/
structure DuckDB where
  execute : String → List Datetime → SourceTable → Except PruneError (Nat × SourceTable)
  get_current_timestamp : Datetime → ℤ

structure PruneSummary where
  matched : Nat
  pruned : Nat
  dry_run : Bool
  max_age_hours : AgeHours
  dead_only : Bool

/-- The placeholders of a statement: the question marks outside its string literals. -/
def placeholders_from (quoted : Bool) : List Char → Nat
  | [] => 0
  | c :: rest =>
    if c = '\'' then placeholders_from (!quoted) rest
    else (if c = '?' ∧ quoted = false then 1 else 0) + placeholders_from quoted rest

def placeholders (sql : String) : Nat := placeholders_from false sql.toList

/-- A statement in which nothing but string literals is quoted or commented out. -/
def plain_sql (sql : String) : Bool :=
  sql.toList.all fun c => c ∉ ['"', '$', '-', '/', '#', '\\']

namespace AgeHours

def not_positive : AgeHours → Bool
  | .finite hours => hours ≤ 0
  | .inf => false

/-- `timedelta(hours=age_hours)`, in microseconds. -/
def timedelta : AgeHours → Except PruneError ℤ
  | .finite hours =>
    let us := half_even (hours * 3600000000)
    if -999999999 ≤ us / 86400000000 ∧ us / 86400000000 ≤ 999999999 then .ok us else .error .OverflowError
  | .inf => .error .OverflowError

end AgeHours

/-- `now - delta`. -/
def Datetime.sub (now : Datetime) (delta : ℤ) : Except PruneError Datetime :=
  if h : 0 ≤ now.us - delta ∧ now.us - delta < 3652059 * 86400000000 then .ok ⟨now.us - delta, h⟩
  else .error .OverflowError

/-- How a tuple of one plain string is formatted. -/
def format_tuple (item : String) : String := "('" ++ item ++ "',)"

section Pruning

variable (db : DuckDB)

def prune_file_sources (now : Datetime) (max_age_hours : Option AgeHours) (dead_only dry_run : Bool)
    (table : SourceTable) : Except PruneError (PruneSummary × SourceTable) :=
  let age_hours := max_age_hours.getD (.finite (24 * 7))
  if age_hours.not_positive then .error (.ValueError "max_age_hours must be positive")
  else do
    let cutoff ← now.sub (← age_hours.timedelta)
    -- the parentheses with a comma make a tuple of the conditions
    let conditions := if dead_only then format_tuple "last_seen < ? AND client_id < 16000000" else "last_seen < ?"
    let (counted, table) ← db.execute ("SELECT COUNT(*) FROM file_sources WHERE " ++ conditions) [cutoff] table
    if dry_run ∨ counted = 0 then
      return (⟨counted, if dry_run then 0 else counted, dry_run, age_hours, dead_only⟩, table)
    else
      let (_, table) ← db.execute ("DELETE FROM file_sources WHERE " ++ conditions) [cutoff] table
      return (⟨counted, counted, false, age_hours, dead_only⟩, table)

/-- `INSERT INTO file_sources … ON CONFLICT … DO UPDATE SET`. -/
def upsert (now : Datetime) (key : SourceKey) (source : FileSource) (table : SourceTable) : SourceTable :=
  let seen := db.get_current_timestamp now
  match table.get key with
  | none => table.set key ⟨source, seen, seen⟩
  | some row => table.set key ⟨source, row.first_seen, seen⟩

/-- A call of `save_found_sources`, with the local clock at each of its statements. -/
structure SourceSave where
  record : FoundSources
  server_ip : String
  server_port : Nat
  source_type : String
  clock : Nat → Datetime

/-- `save_found_sources` on the table with its times. -/
def SourceSave.run (table : SourceTable) (save : SourceSave) : SourceTable :=
  save.record.sources.zipIdx.foldl (fun table entry =>
    upsert db (save.clock entry.2) (entry.1.key save.source_type save.record.file_hash)
      (entry.1.row save.server_ip save.server_port save.source_type) table) table

/-- What a pruning is to remove. -/
def Expired (cutoff : Datetime) (dead_only : Bool) (key : SourceKey) (row : SourceRow) : Prop :=
  row.last_seen < cutoff.us ∧ (dead_only = true → key.client_id < HIGH_ID_THRESHOLD)

instance (cutoff : Datetime) (dead_only : Bool) (key : SourceKey) (row : SourceRow) :
    Decidable (Expired cutoff dead_only key row) := inferInstanceAs (Decidable (_ ∧ _))

/-- A pruning reports the number of the expired rows and removes exactly those, none at a dry run, and never a row that
was saved after the cutoff. -/
structure Prunes (cutoff : Datetime) (dead_only dry_run : Bool) (table : SourceTable) (summary : PruneSummary)
    (after : SourceTable) : Prop where
  matched : summary.matched = (table.items.filter fun entry => Expired cutoff dead_only entry.1 entry.2).length
  removed : dry_run = false → ∀ key row,
    after.get key = some row ↔ table.get key = some row ∧ ¬ Expired cutoff dead_only key row
  dry : dry_run = true → after = table
  fresh : ∀ (before : SourceTable) (saves : List SourceSave),
    (∀ save ∈ saves, ∀ i, cutoff.us ≤ (save.clock i).us) → table = saves.foldl (SourceSave.run db) before →
      ∀ save ∈ saves, ∀ source ∈ save.record.sources, ∃ row,
        table.get (source.key save.source_type save.record.file_hash) = some row ∧
          after.get (source.key save.source_type save.record.file_hash) = some row

/-- The documented behaviour of DuckDB: a statement takes as many parameters as it has placeholders, the two statements
mean what they say, and an upsert stores the time of the local clock. -/
structure DuckDB.Documented : Prop where
  parameters : ∀ sql params table, plain_sql sql = true → placeholders sql ≠ params.length →
    db.execute sql params table = .error .DuckDBError
  select_count : ∀ cutoff table, db.execute "SELECT COUNT(*) FROM file_sources WHERE last_seen < ?" [cutoff] table =
    .ok ((table.items.filter fun entry => entry.2.last_seen < cutoff.us).length, table)
  delete : ∀ cutoff table, db.execute "DELETE FROM file_sources WHERE last_seen < ?" [cutoff] table =
    .ok ((table.items.filter fun entry => entry.2.last_seen < cutoff.us).length,
      table.eraseAll (table.keysWhere fun row => row.last_seen < cutoff.us))
  local_time : ∀ now, db.get_current_timestamp now = now.us

end Pruning

/-- The age reaches back no further than the year 1. -/
def AgeHours.Within (now : Datetime) : AgeHours → Prop
  | .finite hours => half_even (hours * 3600000000) ≤ now.us
  | .inf => False

section Proofs

variable {db : DuckDB} {now cutoff : Datetime}

/-- A row was seen at the cutoff or later. -/
def Fresh (cutoff : Datetime) (key : SourceKey) (table : SourceTable) : Prop :=
  ∃ row, table.get key = some row ∧ cutoff.us ≤ row.last_seen

theorem get_upsert (db : DuckDB) (now : Datetime) (key : SourceKey) (source : FileSource) (table : SourceTable) :
    ∃ row, (upsert db now key source table).get key = some row ∧ row.source = source ∧
      row.last_seen = db.get_current_timestamp now := by
  rw [upsert]
  cases hget : table.get key with
  | none => exact ⟨_, Dict.get_set_self _ _ _, rfl, rfl⟩
  | some row => exact ⟨_, Dict.get_set_self _ _ _, rfl, rfl⟩

theorem get_upsert_of_ne {key other : SourceKey} (hne : other ≠ key) (source : FileSource) (table : SourceTable) :
    (upsert db now key source table).get other = table.get other := by
  rw [upsert]
  cases hget : table.get key with
  | none => exact Dict.get_set_of_ne hne _ _
  | some row => exact Dict.get_set_of_ne hne _ _

theorem fresh_upsert_self (hdb : db.Documented) (hnow : cutoff.us ≤ now.us) (key : SourceKey) (source : FileSource)
    (table : SourceTable) : Fresh cutoff key (upsert db now key source table) := by
  obtain ⟨row, hget, -, hseen⟩ := get_upsert db now key source table
  exact ⟨row, hget, by rwa [hseen, hdb.local_time]⟩

theorem Fresh.upsert {key other : SourceKey} {table : SourceTable} (h : Fresh cutoff key table)
    (hdb : db.Documented) (hnow : cutoff.us ≤ now.us) (source : FileSource) :
    Fresh cutoff key (state.upsert db now other source table) := by
  by_cases hkey : key = other
  · rw [hkey]
    exact fresh_upsert_self hdb hnow other source table
  · obtain ⟨row, hget, hseen⟩ := h
    exact ⟨row, by rwa [get_upsert_of_ne hkey], hseen⟩

theorem Fresh.run {key : SourceKey} {table : SourceTable} {save : SourceSave} (h : Fresh cutoff key table)
    (hdb : db.Documented) (hclock : ∀ i, cutoff.us ≤ (save.clock i).us) : Fresh cutoff key (save.run db table) :=
  runs.invariant h (fun _ entry hfresh => hfresh.upsert hdb (hclock entry.2) _) _

theorem fresh_run {save : SourceSave} {source : FoundSource} (hdb : db.Documented)
    (hclock : ∀ i, cutoff.us ≤ (save.clock i).us) (hsource : source ∈ save.record.sources) (table : SourceTable) :
    Fresh cutoff (source.key save.source_type save.record.file_hash) (save.run db table) := by
  obtain ⟨i, hi⟩ := List.mem_iff_getElem?.mp hsource
  refine runs.invariant_of_mem (List.mk_mem_zipIdx_iff_getElem?.mpr hi) ?_ ?_
  · exact fun before => fresh_upsert_self hdb (hclock i) _ _ before
  · exact fun before entry _ hfresh => hfresh.upsert hdb (hclock entry.2) _

/-- What was saved after the cutoff is fresh however many saves follow. -/
theorem fresh_saves {before : SourceTable} {saves : List SourceSave} {save : SourceSave} {source : FoundSource}
    (hdb : db.Documented) (hclock : ∀ save ∈ saves, ∀ i, cutoff.us ≤ (save.clock i).us) (hsave : save ∈ saves)
    (hsource : source ∈ save.record.sources) :
    Fresh cutoff (source.key save.source_type save.record.file_hash) (saves.foldl (SourceSave.run db) before) := by
  refine runs.invariant_of_mem hsave ?_ ?_
  · exact fun table => fresh_run hdb (hclock save hsave) hsource table
  · exact fun table other hother hfresh => hfresh.run hdb (hclock other hother)

/-- The rows without their times are those that `save_found_sources` makes. -/
theorem source_run (save : SourceSave) (table : SourceTable) (sources : Dict SourceKey FileSource)
    (hsame : ∀ key, (table.get key).map SourceRow.source = sources.get key) (key : SourceKey) :
    ((save.run db table).get key).map SourceRow.source =
      (save_found_sources sources save.record save.server_ip save.server_port save.source_type).1.get key := by
  rw [SourceSave.run, save_found_sources, Dict.assign, List.foldl_map]
  generalize save.record.sources = found
  generalize 0 = count
  induction found generalizing table sources count with
  | nil => exact hsame key
  | cons source found ih =>
    rw [List.zipIdx_cons, List.foldl_cons, List.foldl_cons]
    apply ih
    intro other
    by_cases hkey : other = source.key save.source_type save.record.file_hash
    · obtain ⟨row, hget, hsource, -⟩ := get_upsert db (save.clock count)
        (source.key save.source_type save.record.file_hash)
        (source.row save.server_ip save.server_port save.source_type) table
      rw [hkey, hget, Dict.get_set_self, Option.map_some, hsource]
    · rw [get_upsert_of_ne hkey, Dict.get_set_of_ne hkey, hsame]

/-- The cutoff exists exactly for an age that reaches back no further than the year 1. -/
theorem exists_cutoff_iff {age : AgeHours} (hpositive : age.not_positive = false) :
    (∃ cutoff, (do now.sub (← age.timedelta)) = .ok cutoff) ↔ age.Within now := by
  cases age with
  | inf => exact iff_of_false (by rintro ⟨cutoff, h⟩; cases h) id
  | finite hours =>
    have hhours : 0 ≤ hours * 3600000000 := by
      have hneg := of_decide_eq_false hpositive
      linarith
    have hdelta : 0 ≤ half_even (hours * 3600000000) := by
      have hmono := half_even_mono hhours
      have hzero := half_even_intCast 0
      rw [Int.cast_zero] at hzero
      rwa [hzero] at hmono
    have hnow := now.in_range
    rw [AgeHours.Within, AgeHours.timedelta]
    generalize half_even (hours * 3600000000) = us at hdelta ⊢
    constructor
    · rintro ⟨cutoff, hcutoff⟩
      split at hcutoff
      · simp only [bind, Except.bind] at hcutoff
        rw [Datetime.sub] at hcutoff
        split at hcutoff
        · rename_i hrange
          exact Int.sub_nonneg.mp hrange.1
        · cases hcutoff
      · cases hcutoff
    · intro hwithin
      have hdays : -999999999 ≤ us / 86400000000 ∧ us / 86400000000 ≤ 999999999 := by omega
      have hrange : 0 ≤ now.us - us ∧ now.us - us < 3652059 * 86400000000 := by omega
      refine ⟨⟨now.us - us, hrange⟩, ?_⟩
      rw [if_pos hdays]
      change now.sub us = _
      rw [Datetime.sub, dif_pos hrange]

theorem expired_iff {key : SourceKey} {row : SourceRow} :
    Expired cutoff false key row ↔ row.last_seen < cutoff.us := by
  rw [Expired]
  exact and_iff_left nofun

/-- The rows that a deletion leaves. -/
theorem get_deleted_iff {table : SourceTable} {key : SourceKey} {row : SourceRow} :
    (table.eraseAll (table.keysWhere fun row => row.last_seen < cutoff.us)).get key = some row ↔
      table.get key = some row ∧ ¬ Expired cutoff false key row := by
  rw [Dict.get_eraseAll_keysWhere_iff, decide_eq_false_iff_not, expired_iff]

/-- What a pruning leaves is pruned, where it is the table itself or what a deletion leaves of it. -/
theorem prunes_of_left {dry_run : Bool} {table after : SourceTable} {summary : PruneSummary} (hdb : db.Documented)
    (hmatched : summary.matched = (table.items.filter fun entry => entry.2.last_seen < cutoff.us).length)
    (hleft : dry_run = true ∧ after = table ∨ dry_run = false ∧ ∀ key row,
      after.get key = some row ↔ table.get key = some row ∧ ¬ Expired cutoff false key row) :
    Prunes db cutoff false dry_run table summary after := by
  have hfresh : ∀ key, Fresh cutoff key table → ∃ row, table.get key = some row ∧ after.get key = some row := by
    rintro key ⟨row, hget, hseen⟩
    rcases hleft with ⟨-, rfl⟩ | ⟨-, hremoved⟩
    · exact ⟨row, hget, hget⟩
    · exact ⟨row, hget, (hremoved key row).mpr ⟨hget, fun hexpired => (expired_iff.mp hexpired).not_ge hseen⟩⟩
  constructor
  · simpa only [expired_iff] using hmatched
  · intro hwet
    exact (hleft.resolve_left fun h => by rw [hwet] at h; cases h.1).2
  · intro hdry
    exact (hleft.resolve_right fun h => by rw [hdry] at h; cases h.1).2
  · rintro before saves hclock rfl save hsave source hsource
    exact hfresh _ (fresh_saves hdb hclock hsave hsource)

/-- With the conditions as text, the pruning is done. -/
theorem prune_file_sources_spec (hdb : db.Documented) {max_age_hours : Option AgeHours} {dry_run : Bool}
    {table : SourceTable} (hpositive : (max_age_hours.getD (.finite (24 * 7))).not_positive = false)
    (hcutoff : (do now.sub (← (max_age_hours.getD (.finite (24 * 7))).timedelta)) = .ok cutoff) :
    ∃ summary after, prune_file_sources db now max_age_hours false dry_run table = .ok (summary, after) ∧
      Prunes db cutoff false dry_run table summary after := by
  simp only [prune_file_sources, hpositive]
  cases hdelta : (max_age_hours.getD (.finite (24 * 7))).timedelta with
  | error e =>
    rw [hdelta] at hcutoff
    cases hcutoff
  | ok delta =>
    rw [hdelta] at hcutoff
    have hsub : now.sub delta = .ok cutoff := hcutoff
    have hselect : "SELECT COUNT(*) FROM file_sources WHERE " ++ "last_seen < ?" =
      "SELECT COUNT(*) FROM file_sources WHERE last_seen < ?" := by decide
    have hdelete : "DELETE FROM file_sources WHERE " ++ "last_seen < ?" =
      "DELETE FROM file_sources WHERE last_seen < ?" := by decide
    simp only [bind, Except.bind, pure, Except.pure, hsub, Bool.false_eq_true, if_false, hselect, hdelete,
      hdb.select_count, hdb.delete]
    split
    · rename_i hleft
      refine ⟨_, _, rfl, prunes_of_left hdb rfl ?_⟩
      cases dry_run with
      | true => exact .inl ⟨rfl, rfl⟩
      | false =>
        have hnone := List.length_eq_zero_iff.mp (hleft.resolve_left nofun)
        refine .inr ⟨rfl, fun key row => (and_iff_left_of_imp fun hget hexpired => ?_).symm⟩
        exact List.filter_eq_nil_iff.mp hnone (key, row) (Dict.mem_items_iff.mpr hget)
          (decide_eq_true (expired_iff.mp hexpired))
    · rename_i hleft
      refine ⟨_, _, rfl, prunes_of_left hdb rfl (.inr ⟨?_, fun key row => get_deleted_iff⟩)⟩
      exact Bool.eq_false_iff.mpr fun hdry => hleft (.inl hdry)

/-- With a tuple of the conditions, DuckDB refuses the statement. -/
theorem prune_file_sources_dead_only (hdb : db.Documented) {max_age_hours : Option AgeHours} {dry_run : Bool}
    {table : SourceTable} (result : PruneSummary × SourceTable) :
    prune_file_sources db now max_age_hours true dry_run table ≠ .ok result := by
  have hrefused : ∀ cutoff, db.execute ("SELECT COUNT(*) FROM file_sources WHERE " ++
      format_tuple "last_seen < ? AND client_id < 16000000") [cutoff] table = .error .DuckDBError := by
    intro cutoff
    -- the placeholder stands inside a string literal
    have hnone : placeholders ("SELECT COUNT(*) FROM file_sources WHERE " ++
      format_tuple "last_seen < ? AND client_id < 16000000") = 0 := by decide
    refine hdb.parameters _ _ _ (by decide) ?_
    rw [hnone]
    exact Nat.zero_ne_one
  intro h
  rw [prune_file_sources] at h
  split at h
  · cases h
  · simp only [bind, Except.bind] at h
    split at h
    · cases h
    split at h
    · cases h
    simp only [if_true, hrefused] at h
    cases h

/-- A pruning does what it should exactly where it is not for dead sources only and the age reaches back no further than
the year 1. -/
theorem prunes_iff (db : DuckDB) (hdb : db.Documented) (now : Datetime) (max_age_hours : Option AgeHours)
    (hpositive : (max_age_hours.getD (.finite (24 * 7))).not_positive = false) (dead_only dry_run : Bool)
    (table : SourceTable) :
    (∃ cutoff summary after, (do now.sub (← (max_age_hours.getD (.finite (24 * 7))).timedelta)) = .ok cutoff ∧
      prune_file_sources db now max_age_hours dead_only dry_run table = .ok (summary, after) ∧
        Prunes db cutoff dead_only dry_run table summary after) ↔
      dead_only = false ∧ (max_age_hours.getD (.finite (24 * 7))).Within now := by
  rw [← exists_cutoff_iff hpositive]
  constructor
  · rintro ⟨cutoff, summary, after, hcutoff, hprune, -⟩
    refine ⟨?_, cutoff, hcutoff⟩
    cases dead_only with
    | false => rfl
    | true => exact absurd hprune (prune_file_sources_dead_only hdb _)
  · rintro ⟨rfl, cutoff, hcutoff⟩
    obtain ⟨summary, after, hprune, hprunes⟩ := prune_file_sources_spec hdb hpositive hcutoff
    exact ⟨cutoff, summary, after, hcutoff, hprune, hprunes⟩

end Proofs

section Samples

/-- A DuckDB that knows the two statements. -/
def sampleDuckDB : DuckDB where
  execute sql params table :=
    if placeholders sql ≠ params.length then .error .DuckDBError
    else
      match params with
      | [cutoff] =>
        let expired := (table.items.filter fun entry => entry.2.last_seen < cutoff.us).length
        if sql = "SELECT COUNT(*) FROM file_sources WHERE last_seen < ?" then .ok (expired, table)
        else if sql = "DELETE FROM file_sources WHERE last_seen < ?" then
          .ok (expired, table.eraseAll (table.keysWhere fun row => row.last_seen < cutoff.us))
        else .error .DuckDBError
      | _ => .error .DuckDBError
  get_current_timestamp now := now.us

theorem sampleDuckDB_documented : sampleDuckDB.Documented := by
  constructor
  · intro sql params table _ hparameters
    exact if_pos hparameters
  · intro cutoff table
    have hone : placeholders "SELECT COUNT(*) FROM file_sources WHERE last_seen < ?" = 1 := by decide
    simp only [sampleDuckDB, hone, List.length_singleton, ne_eq, not_true_eq_false, if_false, if_true]
  · intro cutoff table
    have hone : placeholders "DELETE FROM file_sources WHERE last_seen < ?" = 1 := by decide
    have hother : "DELETE FROM file_sources WHERE last_seen < ?" ≠
      "SELECT COUNT(*) FROM file_sources WHERE last_seen < ?" := by decide
    simp only [sampleDuckDB, hone, List.length_singleton, ne_eq, not_true_eq_false, if_false, hother, if_true]
  · exact fun now => rfl

theorem sampleNow_in_range : 0 ≤ (63871200000000000 : ℤ) ∧ (63871200000000000 : ℤ) < 3652059 * 86400000000 := by
  decide

/-- A day of the year 2024. -/
def sampleNow : Datetime := ⟨63871200000000000, sampleNow_in_range⟩

/-- A table with one old source of a low id. -/
def sampleFileSources : SourceTable :=
  Dict.empty.set ⟨"00112233445566778899AABBCCDDEEFF", 999, 4662, "ed2k"⟩
    ⟨⟨"176.123.5.89", 4725, none, none, none, none, none⟩, 0, 0⟩

/-- Without `dead_only` and with the default age. -/
theorem prunes_iff_default :
    ∃ cutoff summary after, (do sampleNow.sub (← (AgeHours.finite (24 * 7)).timedelta)) = .ok cutoff ∧
      prune_file_sources sampleDuckDB sampleNow none false false sampleFileSources = .ok (summary, after) ∧
        Prunes sampleDuckDB cutoff false false sampleFileSources summary after := by
  refine (prunes_iff sampleDuckDB sampleDuckDB_documented sampleNow none ?_ false false sampleFileSources).mpr ⟨rfl, ?_⟩
  · exact decide_eq_false (by norm_num)
  · have hweek : ((24 * 7 : ℚ) * 3600000000) = ((604800000000 : ℤ) : ℚ) := by norm_num
    change half_even ((24 * 7 : ℚ) * 3600000000) ≤ 63871200000000000
    rw [hweek, half_even_intCast]
    decide

/-- With `dead_only` the old source of a low id stays. -/
theorem sampleFileSources_not_pruned :
    ¬ ∃ cutoff summary after, (do sampleNow.sub (← (AgeHours.finite (24 * 7)).timedelta)) = .ok cutoff ∧
      prune_file_sources sampleDuckDB sampleNow none true false sampleFileSources = .ok (summary, after) ∧
        Prunes sampleDuckDB cutoff true false sampleFileSources summary after := by
  rintro ⟨cutoff, summary, after, -, hprune, -⟩
  exact prune_file_sources_dead_only sampleDuckDB_documented _ hprune

end Samples

end amuled.state
