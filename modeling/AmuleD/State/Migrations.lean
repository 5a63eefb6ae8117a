import AmuleD.Dict
import AmuleD.Runs
import AmuleD.Scripts

open scripts

namespace amuled.migrations

inductive TableName where
  | schema_migrations
  | kv_meta
  | servers
  | static_servers
  | shared_files
  | shared_directories
  | file_sources
  | search_results
  | search_sessions
  | downloads
  | server_blacklist
  | client_credits
  | seen_clients
  | aich_masters
  deriving DecidableEq

structure Column where
  name : String
  type : String

structure TableLayout where
  columns : List Column
  primary_key : List String

/-- The statements of the migrations. -/
inductive Statement where
  /-- `CREATE TABLE IF NOT EXISTS` -/
  | create_table (name : TableName) (layout : TableLayout)
  /-- `ALTER TABLE … ADD COLUMN IF NOT EXISTS` -/
  | add_column (name : TableName) (column : Column)
  /-- `INSERT OR IGNORE INTO schema_migrations (version)` -/
  | insert_version (version : Nat)

namespace Statement

/-- The version that a statement enters. -/
def version : Statement → Option Nat
  | insert_version version => some version
  | _ => none

end Statement

structure Table (Row : Type) where
  layout : TableLayout
  rows : List Row

/-- A database file. The rows of `schema_migrations` are its versions; a column that a row was written without is
`NULL` there. -/
structure Database (Row : Type) where
  tables : Dict TableName (Table Row)
  versions : List Nat

/-- What a migration can change: the layouts of the tables and the versions. -/
structure Schema where
  tables : TableName → Option TableLayout
  versions : List Nat

namespace TableLayout

def has (layout : TableLayout) (column : Column) : Bool := layout.columns.any fun old => old.name = column.name

def add (layout : TableLayout) (column : Column) : TableLayout := ⟨layout.columns ++ [column], layout.primary_key⟩

end TableLayout

def catalog_error : String := "Catalog Error: Table does not exist!"

namespace Database

variable {Row : Type}

/-- A new file. -/
def empty : Database Row := ⟨.empty, []⟩

def execute (statement : Statement) (db : Database Row) : Except String (Database Row) :=
  match statement with
  | .create_table name layout =>
    match db.tables.get name with
    | some _ => .ok db
    | none => .ok { db with tables := db.tables.set name ⟨layout, []⟩ }
  | .add_column name column =>
    match db.tables.get name with
    | some table =>
      if table.layout.has column then .ok db
      else .ok { db with tables := db.tables.set name ⟨table.layout.add column, table.rows⟩ }
    | none => .error catalog_error
  | .insert_version version =>
    match db.tables.get .schema_migrations with
    | some _ => if version ∈ db.versions then .ok db else .ok { db with versions := db.versions ++ [version] }
    | none => .error catalog_error

/-- `SELECT MAX(version)`, or 0 where there is none. -/
def current (db : Database Row) : Nat := db.versions.foldr max 0

def schema (db : Database Row) : Schema := ⟨fun name => (db.tables.get name).map Table.layout, db.versions⟩

def rows (db : Database Row) (name : TableName) : List Row := ((db.tables.get name).map Table.rows).getD []

/-- What the repository methods make of the rows of a table. -/
def write (db : Database Row) (change : TableName × List Row) : Database Row :=
  match db.tables.get change.1 with
  | some table => { db with tables := db.tables.set change.1 ⟨table.layout, change.2⟩ }
  | none => db

end Database

def _migrate_v1 : List Statement := [
  .create_table .schema_migrations ⟨[
    ⟨"version", "INTEGER"⟩,
    ⟨"applied_at", "TIMESTAMP DEFAULT CURRENT_TIMESTAMP"⟩], ["version"]⟩,
  .create_table .kv_meta ⟨[
    ⟨"key", "VARCHAR"⟩,
    ⟨"value", "VARCHAR"⟩], ["key"]⟩,
  .insert_version 1]

def _migrate_v2 : List Statement := [
  .create_table .servers ⟨[
    ⟨"ip", "UINTEGER NOT NULL"⟩,
    ⟨"port", "UINTEGER NOT NULL"⟩,
    ⟨"address", "VARCHAR NOT NULL"⟩,
    ⟨"name", "VARCHAR NOT NULL"⟩,
    ⟨"description", "VARCHAR NOT NULL"⟩,
    ⟨"priority", "INTEGER NOT NULL"⟩,
    ⟨"version", "VARCHAR NOT NULL"⟩,
    ⟨"users", "BIGINT NOT NULL"⟩,
    ⟨"files", "BIGINT NOT NULL"⟩,
    ⟨"aux_ports", "VARCHAR NOT NULL"⟩,
    ⟨"is_static", "BOOLEAN NOT NULL"⟩], ["ip", "port"]⟩,
  .create_table .static_servers ⟨[
    ⟨"host", "VARCHAR NOT NULL"⟩,
    ⟨"port", "UINTEGER NOT NULL"⟩,
    ⟨"name", "VARCHAR NOT NULL"⟩,
    ⟨"priority", "INTEGER NOT NULL"⟩], ["host", "port"]⟩,
  .create_table .shared_files ⟨[
    ⟨"file_hash", "VARCHAR"⟩,
    ⟨"name", "VARCHAR NOT NULL"⟩,
    ⟨"size", "BIGINT NOT NULL"⟩,
    ⟨"path", "VARCHAR"⟩,
    ⟨"priority", "INTEGER NOT NULL"⟩,
    ⟨"imported", "BOOLEAN NOT NULL"⟩], ["file_hash"]⟩,
  .create_table .shared_directories ⟨[
    ⟨"path", "VARCHAR"⟩], ["path"]⟩,
  .insert_version 2]

def _migrate_v3 : List Statement := [
  .create_table .file_sources ⟨[
    ⟨"file_hash", "VARCHAR NOT NULL"⟩,
    ⟨"client_id", "UINTEGER NOT NULL"⟩,
    ⟨"client_port", "UINTEGER NOT NULL"⟩,
    ⟨"source_type", "VARCHAR NOT NULL"⟩,
    ⟨"server_ip", "VARCHAR NOT NULL"⟩,
    ⟨"server_port", "UINTEGER NOT NULL"⟩,
    ⟨"user_hash", "VARCHAR"⟩,
    ⟨"first_seen", "TIMESTAMP DEFAULT CURRENT_TIMESTAMP"⟩,
    ⟨"last_seen", "TIMESTAMP DEFAULT CURRENT_TIMESTAMP"⟩], ["file_hash", "client_id", "client_port", "source_type"]⟩,
  .insert_version 3]

def _migrate_v4 : List Statement := [
  .create_table .search_results ⟨[
    ⟨"query", "VARCHAR NOT NULL"⟩,
    ⟨"channel", "VARCHAR NOT NULL"⟩,
    ⟨"file_hash", "VARCHAR NOT NULL"⟩,
    ⟨"name", "VARCHAR NOT NULL"⟩,
    ⟨"size", "BIGINT NOT NULL"⟩,
    ⟨"sources", "INTEGER NOT NULL"⟩,
    ⟨"complete_sources", "INTEGER NOT NULL"⟩,
    ⟨"server", "VARCHAR NOT NULL"⟩,
    ⟨"tags", "VARCHAR"⟩,
    ⟨"client_id", "UINTEGER"⟩,
    ⟨"client_port", "UINTEGER"⟩,
    ⟨"first_seen", "TIMESTAMP DEFAULT CURRENT_TIMESTAMP"⟩,
    ⟨"last_seen", "TIMESTAMP DEFAULT CURRENT_TIMESTAMP"⟩], ["query", "channel", "file_hash"]⟩,
  .create_table .search_sessions ⟨[
    ⟨"session_id", "VARCHAR"⟩,
    ⟨"query", "VARCHAR NOT NULL"⟩,
    ⟨"channel", "VARCHAR NOT NULL"⟩,
    ⟨"server", "VARCHAR NOT NULL"⟩,
    ⟨"started_at", "TIMESTAMP DEFAULT CURRENT_TIMESTAMP"⟩,
    ⟨"last_activity", "TIMESTAMP DEFAULT CURRENT_TIMESTAMP"⟩,
    ⟨"result_count", "INTEGER NOT NULL DEFAULT 0"⟩,
    ⟨"active", "BOOLEAN NOT NULL DEFAULT TRUE"⟩], ["session_id"]⟩,
  .insert_version 4]

def _migrate_v5 : List Statement := [
  .create_table .downloads ⟨[
    ⟨"file_hash", "VARCHAR"⟩,
    ⟨"name", "VARCHAR NOT NULL"⟩,
    ⟨"size", "BIGINT NOT NULL"⟩,
    ⟨"part_path", "VARCHAR NOT NULL"⟩,
    ⟨"status", "VARCHAR NOT NULL"⟩,
    ⟨"downloaded", "BIGINT NOT NULL DEFAULT 0"⟩,
    ⟨"created_at", "TIMESTAMP DEFAULT CURRENT_TIMESTAMP"⟩,
    ⟨"updated_at", "TIMESTAMP DEFAULT CURRENT_TIMESTAMP"⟩], ["file_hash"]⟩,
  .insert_version 5]

def _migrate_v6 : List Statement := [
  .create_table .server_blacklist ⟨[
    ⟨"ip", "VARCHAR NOT NULL"⟩,
    ⟨"port", "UINTEGER NOT NULL"⟩,
    ⟨"failures", "INTEGER NOT NULL DEFAULT 0"⟩,
    ⟨"last_error", "VARCHAR"⟩,
    ⟨"blacklisted_at", "TIMESTAMP"⟩,
    ⟨"blacklisted_until", "TIMESTAMP"⟩,
    ⟨"updated_at", "TIMESTAMP DEFAULT CURRENT_TIMESTAMP"⟩], ["ip", "port"]⟩,
  .insert_version 6]

def _migrate_v7 : List Statement := [
  .create_table .client_credits ⟨[
    ⟨"user_hash", "VARCHAR"⟩,
    ⟨"uploaded", "BIGINT NOT NULL DEFAULT 0"⟩,
    ⟨"downloaded", "BIGINT NOT NULL DEFAULT 0"⟩,
    ⟨"last_seen", "TIMESTAMP"⟩,
    ⟨"updated_at", "TIMESTAMP DEFAULT CURRENT_TIMESTAMP"⟩], ["user_hash"]⟩,
  .create_table .seen_clients ⟨[
    ⟨"user_hash", "VARCHAR"⟩,
    ⟨"first_seen", "TIMESTAMP DEFAULT CURRENT_TIMESTAMP"⟩,
    ⟨"last_seen", "TIMESTAMP DEFAULT CURRENT_TIMESTAMP"⟩,
    ⟨"hellos", "BIGINT NOT NULL DEFAULT 0"⟩], ["user_hash"]⟩,
  .insert_version 7]

def _migrate_v8 : List Statement := [
  .add_column .file_sources ⟨"kad_udp_port", "UINTEGER"⟩,
  .insert_version 8]

def _migrate_v9 : List Statement := [
  .add_column .file_sources ⟨"buddy_id", "VARCHAR"⟩,
  .insert_version 9]

def _migrate_v10 : List Statement := [
  .create_table .aich_masters ⟨[
    ⟨"file_hash", "VARCHAR"⟩,
    ⟨"master_hash", "VARCHAR NOT NULL"⟩,
    ⟨"first_seen", "TIMESTAMP NOT NULL DEFAULT get_current_timestamp()"⟩,
    ⟨"last_seen", "TIMESTAMP NOT NULL DEFAULT get_current_timestamp()"⟩], ["file_hash"]⟩,
  .insert_version 10]

def _migrate_v11 : List Statement := [
  .add_column .file_sources ⟨"ipv6", "VARCHAR"⟩,
  .add_column .file_sources ⟨"buddy_ipv6", "VARCHAR"⟩,
  .insert_version 11]

/-- The migrations that depend on the version, in the order in which `_init_duckdb` comes to them. -/
def later_migrations : List (Nat × List Statement) := [
  (2, _migrate_v2), (3, _migrate_v3), (4, _migrate_v4), (5, _migrate_v5), (6, _migrate_v6), (7, _migrate_v7),
  (8, _migrate_v8), (9, _migrate_v9), (10, _migrate_v10), (11, _migrate_v11)]

/-- All statements that there are. -/
def script : List Statement := ofBlocks ((1, _migrate_v1) :: later_migrations)

variable {Row : Type}

/-- One `if current < version` behind the other. -/
def migrate : List (Nat × List Statement) → Nat → Database Row → Except String Unit × Database Row
  | [], _, db => (.ok (), db)
  | (version, statements) :: later, current, db =>
    if current < version then
      match exec Database.execute statements db with
      | (.error e, db) => (.error e, db)
      | (.ok _, db) => migrate later version db
    else migrate later current db

def _init_duckdb (db : Database Row) : Except String Unit × Database Row :=
  match exec Database.execute _migrate_v1 db with
  | (.error e, db) => (.error e, db)
  | (.ok _, db) => migrate later_migrations db.current db

/-- The statements that `_init_duckdb` comes to where no statement fails. -/
def issued (current : Nat) : List Statement :=
  _migrate_v1 ++ ofBlocks (later_migrations.filter fun migration => max 1 current < migration.1)

/-- One use of the file: how many statements of `_init_duckdb` were run, where it broke off or an earlier release had
no more of them, and what was written to the rows afterwards. -/
structure Session (Row : Type) where
  statements : Option Nat
  writes : List (TableName × List Row)

namespace Session

def start (session : Session Row) (db : Database Row) : Database Row :=
  match session.statements with
  | some count => (exec Database.execute ((issued db.current).take count) db).2
  | none => (_init_duckdb db).2

def run (db : Database Row) (session : Session Row) : Database Row :=
  session.writes.foldl Database.write (session.start db)

end Session

namespace Schema

def empty : Schema := ⟨fun _ => none, []⟩

def current (schema : Schema) : Nat := schema.versions.foldr max 0

theorem le_foldr_max {versions : List Nat} {version : Nat} (hversion : version ∈ versions) :
    version ≤ versions.foldr max 0 := by
  induction versions with
  | nil => cases hversion
  | cons first versions ih =>
    rw [List.foldr_cons]
    rcases List.mem_cons.mp hversion with rfl | hlater
    · exact Nat.le_max_left _ _
    · exact (ih hlater).trans (Nat.le_max_right _ _)

theorem foldr_max_concat (versions : List Nat) (version : Nat) :
    (versions ++ [version]).foldr max 0 = max (versions.foldr max 0) version := by
  induction versions with
  | nil => exact Nat.max_comm version 0
  | cons first versions ih =>
    rw [List.cons_append, List.foldr_cons, List.foldr_cons, ih, max_assoc]

/-- What a statement does to the layouts and the versions. -/
def apply (statement : Statement) (schema : Schema) : Except String Schema :=
  match statement with
  | .create_table name layout =>
    match schema.tables name with
    | some _ => .ok schema
    | none => .ok { schema with tables := fun other => if other = name then some layout else schema.tables other }
  | .add_column name column =>
    match schema.tables name with
    | some layout =>
      if layout.has column then .ok schema
      else .ok { schema with
        tables := fun other => if other = name then some (layout.add column) else schema.tables other }
    | none => .error catalog_error
  | .insert_version version =>
    match schema.tables .schema_migrations with
    | some _ =>
      if version ∈ schema.versions then .ok schema
      else .ok { schema with versions := schema.versions ++ [version] }
    | none => .error catalog_error

/-- What a statement brings about is there. -/
def Done : Statement → Schema → Prop
  | .create_table name _, schema => schema.tables name ≠ none
  | .add_column name column, schema => ∃ layout, schema.tables name = some layout ∧ layout.has column = true
  | .insert_version version, schema => schema.tables .schema_migrations ≠ none ∧ version ∈ schema.versions

variable {statement other : Statement} {schema next : Schema}

theorem apply_of_done (hdone : Done statement schema) : apply statement schema = .ok schema := by
  cases statement with
  | create_table name layout =>
    obtain ⟨there, hthere⟩ := Option.ne_none_iff_exists'.mp hdone
    rw [apply, hthere]
  | add_column name column =>
    obtain ⟨layout, hlayout, hcolumn⟩ := hdone
    rw [apply, hlayout]
    exact if_pos hcolumn
  | insert_version version =>
    obtain ⟨there, hthere⟩ := Option.ne_none_iff_exists'.mp hdone.1
    rw [apply, hthere]
    exact if_pos hdone.2

/-- A statement that succeeds takes no table, no column and no version away, and brings about its own. -/
structure Grows (statement : Statement) (schema next : Schema) : Prop where
  tables : ∀ name layout, schema.tables name = some layout →
    ∃ grown, next.tables name = some grown ∧ ∀ column, layout.has column = true → grown.has column = true
  versions : schema.versions ⊆ next.versions
  done : Done statement next

theorem has_add (layout : TableLayout) (column : Column) : (layout.add column).has column = true := by
  simp [TableLayout.has, TableLayout.add]

theorem has_add_of_has {layout : TableLayout} {column added : Column} (hhas : layout.has column = true) :
    (layout.add added).has column = true := by
  rw [TableLayout.has, TableLayout.add, List.any_append, Bool.or_eq_true]
  exact .inl hhas

theorem grows_of_done (hdone : Done statement schema) : Grows statement schema schema :=
  ⟨fun _ layout hlayout => ⟨layout, hlayout, fun _ hcolumn => hcolumn⟩, List.Subset.refl _, hdone⟩

theorem grows_apply (happly : apply statement schema = .ok next) : Grows statement schema next := by
  cases statement with
  | create_table name layout =>
    rw [apply] at happly
    cases hname : schema.tables name with
    | some there =>
      rw [hname] at happly
      cases happly
      exact grows_of_done (by simp [Done, hname])
    | none =>
      rw [hname] at happly
      cases happly
      refine ⟨fun old found hfound => ⟨found, ?_, fun _ hcolumn => hcolumn⟩, List.Subset.refl _, by simp [Done]⟩
      have hne : old ≠ name := by
        rintro rfl
        rw [hname] at hfound
        cases hfound
      exact (if_neg hne).trans hfound
  | add_column name column =>
    rw [apply] at happly
    cases hname : schema.tables name with
    | none =>
      rw [hname] at happly
      cases happly
    | some layout =>
      simp only [hname] at happly
      by_cases hcolumn : layout.has column = true
      · rw [if_pos hcolumn] at happly
        cases happly
        exact grows_of_done ⟨layout, hname, hcolumn⟩
      · rw [if_neg hcolumn] at happly
        cases happly
        refine ⟨fun old found hfound => ?_, List.Subset.refl _, layout.add column, if_pos rfl, has_add layout column⟩
        by_cases hsame : old = name
        · subst hsame
          rw [hname] at hfound
          cases hfound
          exact ⟨layout.add column, if_pos rfl, fun _ hhas => has_add_of_has hhas⟩
        · exact ⟨found, (if_neg hsame).trans hfound, fun _ hhas => hhas⟩
  | insert_version version =>
    rw [apply] at happly
    cases hname : schema.tables .schema_migrations with
    | none =>
      rw [hname] at happly
      cases happly
    | some layout =>
      simp only [hname] at happly
      by_cases hversion : version ∈ schema.versions
      · rw [if_pos hversion] at happly
        cases happly
        exact grows_of_done ⟨by simp [hname], hversion⟩
      · rw [if_neg hversion] at happly
        cases happly
        refine ⟨fun old found hfound => ⟨found, hfound, fun _ hhas => hhas⟩, List.subset_append_left _ _, ?_, ?_⟩
        · simp [hname]
        · exact List.mem_append_right _ List.mem_cons_self

theorem Grows.keeps (hgrows : Grows statement schema next) (hdone : Done other schema) : Done other next := by
  have hthere : ∀ name, schema.tables name ≠ none → next.tables name ≠ none := by
    intro name hname
    obtain ⟨layout, hlayout⟩ := Option.ne_none_iff_exists'.mp hname
    obtain ⟨grown, hgrown, -⟩ := hgrows.tables name layout hlayout
    simp [hgrown]
  cases other with
  | create_table name layout => exact hthere name hdone
  | add_column name column =>
    obtain ⟨layout, hlayout, hcolumn⟩ := hdone
    obtain ⟨grown, hgrown, hcolumns⟩ := hgrows.tables name layout hlayout
    exact ⟨grown, hgrown, hcolumns column hcolumn⟩
  | insert_version version => exact ⟨hthere _ hdone.1, hgrows.versions hdone.2⟩

theorem resumable_apply : Resumable apply Done where
  unchanged _ _ hdone := apply_of_done hdone
  makes _ _ _ happly := (grows_apply happly).done
  keeps _ _ _ _ happly hdone := (grows_apply happly).keeps hdone

/-- A schema's version is the highest one that was entered. -/
theorem current_apply (happly : apply statement schema = .ok next) :
    next.current = max schema.current (latest Statement.version [statement]) := by
  cases statement with
  | create_table name layout =>
    have hsame : next.versions = schema.versions := by
      rw [apply] at happly
      cases hname : schema.tables name <;> rw [hname] at happly <;> cases happly <;> rfl
    rw [current, hsame]
    exact (Nat.max_zero _).symm
  | add_column name column =>
    have hsame : next.versions = schema.versions := by
      rw [apply] at happly
      cases hname : schema.tables name with
      | none =>
        rw [hname] at happly
        cases happly
      | some layout =>
        simp only [hname] at happly
        split at happly <;> cases happly <;> rfl
    rw [current, hsame]
    exact (Nat.max_zero _).symm
  | insert_version version =>
    have hone : latest Statement.version [Statement.insert_version version] = version := Nat.max_zero version
    rw [hone]
    rw [apply] at happly
    cases hname : schema.tables .schema_migrations with
    | none =>
      rw [hname] at happly
      cases happly
    | some layout =>
      simp only [hname] at happly
      by_cases hversion : version ∈ schema.versions
      · rw [if_pos hversion] at happly
        cases happly
        exact (Nat.max_eq_left (le_foldr_max hversion)).symm
      · rw [if_neg hversion] at happly
        cases happly
        exact foldr_max_concat schema.versions version

theorem current_exec {front : List Statement} (hfront : exec apply front schema = (.ok (), next)) :
    next.current = max schema.current (latest Statement.version front) := by
  induction front generalizing schema with
  | nil =>
    cases hfront
    exact (Nat.max_zero _).symm
  | cons statement front ih =>
    cases happly : apply statement schema with
    | error e =>
      rw [exec, happly] at hfront
      cases hfront
    | ok after =>
      rw [exec_cons_ok happly] at hfront
      rw [ih hfront, current_apply happly, max_assoc, ← latest_append, List.singleton_append]

/-- What a part of the script makes of a new file. -/
def Reached (front : List Statement) (schema : Schema) : Prop :=
  front <+: script ∧ exec apply front empty = (.ok (), schema)

theorem sorted_migrations : ((1, _migrate_v1) :: later_migrations).Pairwise fun first second => first.1 < second.1 := by
  simp [later_migrations]

theorem marked_migrations : ∀ migration ∈ (1, _migrate_v1) :: later_migrations, Marked Statement.version migration := by
  have hmaps : ∀ migration ∈ (1, _migrate_v1) :: later_migrations, migration.2.map Statement.version =
      List.replicate (migration.2.length - 1) none ++ [some migration.1] := by decide
  exact fun migration hmem => marked_of_map (hmaps migration hmem)

theorem exec_script : (exec apply script empty).1 = .ok () := by rfl

/-- From wherever the script broke off, the statements that are issued repeat some that were run and go on with those
that were not. -/
theorem Reached.issued_eq {front : List Statement} (hreached : Reached front schema) :
    ∃ again back, issued schema.current = again ++ back ∧ again ⊆ front ∧ front ++ back = script := by
  obtain ⟨⟨back, hback⟩, hexec⟩ := hreached
  have hcurrent : schema.current = latest Statement.version front := by
    rw [current_exec hexec]
    exact Nat.zero_max _
  have hpositive : ∀ migration ∈ (1, _migrate_v1) :: later_migrations, 0 < migration.1 := by simp [later_migrations]
  obtain ⟨part, hpart⟩ := exists_part hpositive sorted_migrations marked_migrations ⟨back, hback⟩
  rw [Nat.zero_max, ← hcurrent] at hpart
  have hsplit := ofBlocks_filter sorted_migrations schema.current
  have hpending : part ++ back =
      ofBlocks (((1, _migrate_v1) :: later_migrations).filter fun migration => schema.current < migration.1) := by
    have hwhole : front ++ back = ofBlocks ((1, _migrate_v1) :: later_migrations) := hback
    rw [hpart, ← hsplit, List.append_assoc] at hwhole
    exact List.append_cancel_left hwhole
  by_cases hzero : schema.current = 0
  · -- not even the first migration was run to its end
    have hnone : ((1, _migrate_v1) :: later_migrations).filter (fun migration => decide (migration.1 ≤ 0)) = [] := rfl
    rw [hzero, hnone] at hpart
    refine ⟨front, back, ?_, List.Subset.refl front, hback⟩
    rw [hzero, hback]
    rfl
  · have hfirst :
        ((1, _migrate_v1) :: later_migrations).filter (fun migration => decide (migration.1 ≤ schema.current)) =
          (1, _migrate_v1) :: later_migrations.filter fun migration => decide (migration.1 ≤ schema.current) :=
      List.filter_cons_of_pos (decide_eq_true (Nat.pos_of_ne_zero hzero))
    have hrest :
        ((1, _migrate_v1) :: later_migrations).filter (fun migration => decide (schema.current < migration.1)) =
          later_migrations.filter fun migration => decide (schema.current < migration.1) :=
      List.filter_cons_of_neg (by simpa using hzero)
    rw [hrest] at hpending
    refine ⟨_migrate_v1 ++ part, back, ?_, ?_, hback⟩
    · rw [issued, Nat.max_eq_right (Nat.pos_of_ne_zero hzero), ← hpending, List.append_assoc]
    · rw [hpart, hfirst]
      intro statement hmem
      rw [List.mem_append] at hmem ⊢
      exact hmem.imp_left fun hfirst => List.mem_append_left _ hfirst

/-- What a part of the script makes of a new file is reached. -/
theorem reached_exec {front : List Statement} (hfront : front <+: script) :
    Reached front (exec apply front empty).2 := by
  obtain ⟨back, hback⟩ := hfront
  have hscript : exec apply (front ++ back) empty = (.ok (), (exec apply script empty).2) := by
    rw [hback, ← exec_script]
  obtain ⟨next, hnext, -⟩ := exists_of_exec_append hscript
  rw [hnext]
  exact ⟨⟨back, hback⟩, hnext⟩

/-- A start that breaks off anywhere leaves what some part of the script makes of a new file. -/
theorem Reached.take {front : List Statement} (hreached : Reached front schema) (count : Nat) :
    ∃ further, Reached further (exec apply ((issued schema.current).take count) schema).2 := by
  obtain ⟨again, back, hissued, hagain, hscript⟩ := hreached.issued_eq
  have hfurther : front ++ back.take (count - again.length) <+: script := by
    rw [← hscript, List.prefix_append_right_inj]
    exact List.take_prefix _ back
  refine ⟨front ++ back.take (count - again.length), ?_⟩
  rw [hissued, resumable_apply.exec_take_again hreached.2 hagain, ← exec_append hreached.2]
  exact reached_exec hfurther

/-- A start that is not broken off completes the script. -/
theorem Reached.all {front : List Statement} (hreached : Reached front schema) :
    exec apply (issued schema.current) schema = (.ok (), (exec apply script empty).2) := by
  obtain ⟨again, back, hissued, hagain, hscript⟩ := hreached.issued_eq
  rw [hissued, resumable_apply.exec_again hreached.2 hagain, ← exec_append hreached.2, hscript, ← exec_script]

end Schema

namespace Database

variable {statement : Statement} {db next : Database Row}

theorem schema_set (name : TableName) (table : Table Row) :
    (⟨db.tables.set name table, db.versions⟩ : Database Row).schema =
      ⟨fun other => if other = name then some table.layout else db.schema.tables other, db.versions⟩ := by
  rw [schema, Schema.mk.injEq]
  refine ⟨funext fun other => ?_, rfl⟩
  by_cases hname : other = name
  · rw [hname, Dict.get_set_self, if_pos rfl]
    rfl
  · rw [Dict.get_set_of_ne hname, if_neg hname]
    rfl

theorem rows_set {name : TableName} {table : Table Row} (hrows : table.rows = db.rows name) :
    (⟨db.tables.set name table, db.versions⟩ : Database Row).rows = db.rows := by
  funext other
  by_cases hname : other = name
  · rw [rows, hname, Dict.get_set_self, ← hrows]
    rfl
  · rw [rows, Dict.get_set_of_ne hname]
    rfl

theorem tables_schema (db : Database Row) (name : TableName) :
    db.schema.tables name = (db.tables.get name).map Table.layout := rfl

/-- A statement does to the layouts of a file what it does to layouts. -/
theorem apply_schema (statement : Statement) (db : Database Row) :
    Schema.apply statement db.schema = (db.execute statement).map schema := by
  cases statement with
  | create_table name layout =>
    rw [Schema.apply, execute, tables_schema]
    cases hname : db.tables.get name with
    | some table => rfl
    | none => exact congrArg Except.ok (schema_set name ⟨layout, []⟩).symm
  | add_column name column =>
    rw [Schema.apply, execute, tables_schema]
    cases hname : db.tables.get name with
    | none => rfl
    | some table =>
      simp only [Option.map_some]
      by_cases hcolumn : table.layout.has column = true
      · rw [if_pos hcolumn, if_pos hcolumn]
        rfl
      · rw [if_neg hcolumn, if_neg hcolumn]
        exact congrArg Except.ok (schema_set name ⟨table.layout.add column, table.rows⟩).symm
  | insert_version version =>
    rw [Schema.apply, execute, tables_schema]
    cases hname : db.tables.get .schema_migrations with
    | none => rfl
    | some table =>
      have hversions : db.schema.versions = db.versions := rfl
      simp only [Option.map_some, hversions]
      split <;> rfl

theorem execute_of_done (hdone : Schema.Done statement db.schema) : db.execute statement = .ok db := by
  cases statement with
  | create_table name layout =>
    obtain ⟨there, hthere⟩ := Option.ne_none_iff_exists'.mp hdone
    obtain ⟨table, htable, -⟩ := Option.map_eq_some_iff.mp hthere
    rw [execute, htable]
  | add_column name column =>
    obtain ⟨layout, hlayout, hcolumn⟩ := hdone
    obtain ⟨table, htable, rfl⟩ := Option.map_eq_some_iff.mp hlayout
    rw [execute, htable]
    exact if_pos hcolumn
  | insert_version version =>
    obtain ⟨there, hthere⟩ := Option.ne_none_iff_exists'.mp hdone.1
    obtain ⟨table, htable, -⟩ := Option.map_eq_some_iff.mp hthere
    rw [execute, htable]
    exact if_pos hdone.2

/-- No statement touches a row. -/
theorem rows_execute (hrun : db.execute statement = .ok next) : next.rows = db.rows := by
  cases statement with
  | create_table name layout =>
    rw [execute] at hrun
    cases hname : db.tables.get name with
    | some table =>
      rw [hname] at hrun
      cases hrun
      rfl
    | none =>
      rw [hname] at hrun
      cases hrun
      exact rows_set (by rw [rows, hname]; rfl)
  | add_column name column =>
    rw [execute] at hrun
    cases hname : db.tables.get name with
    | none =>
      rw [hname] at hrun
      cases hrun
    | some table =>
      simp only [hname] at hrun
      split at hrun
      · cases hrun
        rfl
      · cases hrun
        exact rows_set (by rw [rows, hname]; rfl)
  | insert_version version =>
    rw [execute] at hrun
    cases hname : db.tables.get .schema_migrations with
    | none =>
      rw [hname] at hrun
      cases hrun
    | some table =>
      simp only [hname] at hrun
      split at hrun <;> cases hrun <;> rfl

theorem schema_write (db : Database Row) (change : TableName × List Row) : (db.write change).schema = db.schema := by
  rw [write]
  cases hname : db.tables.get change.1 with
  | none => rfl
  | some table =>
    refine (schema_set change.1 ⟨table.layout, change.2⟩).trans ?_
    rw [schema, Schema.mk.injEq]
    refine ⟨funext fun other => ?_, rfl⟩
    by_cases hother : other = change.1
    · rw [if_pos hother, hother, hname]
      rfl
    · exact if_neg hother

theorem schema_exec (statements : List Statement) (db : Database Row) :
    exec Schema.apply statements db.schema = ((exec execute statements db).1, (exec execute statements db).2.schema) :=
  exec_map apply_schema statements db

end Database

theorem migrate_eq {migrations : List (Nat × List Statement)}
    (hsorted : migrations.Pairwise fun first second => first.1 < second.1) (current : Nat) (db : Database Row) :
    migrate migrations current db =
      exec Database.execute (ofBlocks (migrations.filter fun migration => current < migration.1)) db := by
  induction migrations generalizing current db with
  | nil => rfl
  | cons migration later ih =>
    obtain ⟨hlater, hrest⟩ := List.pairwise_cons.mp hsorted
    rw [migrate]
    by_cases hless : current < migration.1
    · have hall : later.filter (fun other => decide (migration.1 < other.1)) =
          later.filter fun other => decide (current < other.1) := by
        refine List.filter_congr fun other hother => ?_
        have := hlater other hother
        rw [decide_eq_true this, decide_eq_true (hless.trans this)]
      have hcons : ofBlocks (migration :: later.filter fun other => decide (current < other.1)) =
          migration.2 ++ ofBlocks (later.filter fun other => decide (current < other.1)) := rfl
      rw [if_pos hless, List.filter_cons_of_pos (by simpa using hless), hcons, exec_append_eq]
      cases exec Database.execute migration.2 db with
      | mk result after =>
        cases result with
        | error e => rfl
        | ok done => exact (ih hrest migration.1 after).trans (by rw [hall])
    · rw [if_neg hless, List.filter_cons_of_neg (by simpa using hless)]
      exact ih hrest current db

/-- `_init_duckdb` runs the statements that the version of the file calls for. -/
theorem _init_duckdb_eq (db : Database Row) : _init_duckdb db = exec Database.execute (issued db.current) db := by
  have hsorted := (List.pairwise_cons.mp Schema.sorted_migrations).2
  rw [_init_duckdb, issued, exec_append_eq]
  cases hfirst : exec Database.execute _migrate_v1 db with
  | mk result after =>
    cases result with
    | error e => rfl
    | ok done =>
      have hschema := db.schema_exec _migrate_v1
      rw [hfirst] at hschema
      have hcurrent : after.current = max 1 db.current := by
        refine (Schema.current_exec hschema).trans ?_
        exact Nat.max_comm _ _
      exact (migrate_eq hsorted after.current after).trans (by rw [hcurrent])

theorem issued_subset (current : Nat) : issued current ⊆ script := by
  intro statement hmem
  have hscript : script = _migrate_v1 ++ ofBlocks later_migrations := rfl
  rw [issued, List.mem_append] at hmem
  rw [hscript, List.mem_append]
  refine hmem.imp_right fun hlater => ?_
  obtain ⟨migration, hmigration, hstatement⟩ := List.mem_flatMap.mp hlater
  exact List.mem_flatMap.mpr ⟨migration, List.mem_of_mem_filter hmigration, hstatement⟩

/-- The state that a list of uses leaves a new file in. -/
def used (sessions : List (Session Row)) : Database Row := sessions.foldl Session.run .empty

theorem schema_writes (writes : List (TableName × List Row)) (db : Database Row) :
    (writes.foldl Database.write db).schema = db.schema := by
  induction writes generalizing db with
  | nil => rfl
  | cons change writes ih => exact (ih (db.write change)).trans (db.schema_write change)

/-- The layouts are those that a part of the script makes. -/
def Database.Begun (db : Database Row) : Prop := ∃ front, Schema.Reached front db.schema

/-- Every use leaves the layouts that a part of the script makes. -/
theorem begun_used (sessions : List (Session Row)) : (used sessions).Begun := by
  have hempty : (Database.empty : Database Row).Begun := ⟨[], List.nil_prefix, rfl⟩
  have hrun : ∀ (db : Database Row) (session : Session Row), db.Begun → (session.run db).Begun := by
    intro db session hreached
    obtain ⟨front, hfront⟩ := hreached
    rw [Database.Begun, Session.run, schema_writes, Session.start]
    cases session.statements with
    | some count =>
      have hschema := db.schema_exec ((issued db.current).take count)
      have hthere := hfront.take count
      rw [show db.schema.current = db.current from rfl, hschema] at hthere
      exact hthere
    | none =>
      have hschema := db.schema_exec (issued db.current)
      have hall := hfront.all
      rw [show db.schema.current = db.current from rfl, hschema] at hall
      have hafter : (_init_duckdb db).2.schema = (exec Schema.apply script Schema.empty).2 := by
        rw [_init_duckdb_eq]
        exact congrArg Prod.snd hall
      rw [hafter]
      exact ⟨script, Schema.reached_exec List.prefix_rfl⟩
  exact runs.invariant hempty hrun sessions

/-- However often starts broke off, at whatever statements, and whatever was written in between, a start that is not
broken off succeeds, leaves the layouts and the versions of a new installation and all rows as they were, and the next
one changes nothing. -/
theorem schema_survives_interruptions (sessions : List (Session Row)) :
    ∃ upgraded, _init_duckdb (used sessions) = (.ok (), upgraded) ∧
      upgraded.schema = (_init_duckdb (Database.empty : Database Row)).2.schema ∧
      upgraded.versions = List.range' 1 11 ∧ upgraded.rows = (used sessions).rows ∧
      _init_duckdb upgraded = (.ok (), upgraded) := by
  have hcompletes : ∀ {db : Database Row} {front}, Schema.Reached front db.schema →
      (_init_duckdb db).1 = .ok () ∧ (_init_duckdb db).2.schema = (exec Schema.apply script Schema.empty).2 := by
    intro db front hfront
    have hall := hfront.all
    rw [show db.schema.current = db.current from rfl, db.schema_exec] at hall
    rw [_init_duckdb_eq]
    exact ⟨congrArg Prod.fst hall, congrArg Prod.snd hall⟩
  obtain ⟨front, hfront⟩ := begun_used sessions
  obtain ⟨hok, hschema⟩ := hcompletes hfront
  have hnew : Schema.Reached [] (Database.empty : Database Row).schema := ⟨List.nil_prefix, rfl⟩
  refine ⟨(_init_duckdb (used sessions)).2, ?_, ?_, ?_, ?_, ?_⟩
  · rw [← hok]
  · rw [hschema, (hcompletes hnew).2]
  · exact congrArg Schema.versions hschema
  · rw [_init_duckdb_eq]
    exact exec_keeps (fun _ _ _ hrun hkept => (Database.rows_execute hrun).trans hkept) _ rfl
  · rw [_init_duckdb_eq (_init_duckdb (used sessions)).2]
    refine exec_of_done fun statement hmem => Database.execute_of_done ?_
    rw [hschema]
    exact Schema.resumable_apply.done_exec (Schema.reached_exec List.prefix_rfl).2 statement (issued_subset _ hmem)

end amuled.migrations
