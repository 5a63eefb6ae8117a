import AmuleD.Download.Queue

open amuled.download (fromhex_ok)
open amuled.upload (strip)

namespace amuled.ownership

/-- What another process does with the database file. -/
inductive OtherProcess where
  | opens (pid : Nat)
  | closes (pid : Nat)

/-- Who has the database file open: the kernel with one of its connections, or another process. -/
inductive Holder where
  | kernel (con : Nat)
  | other (pid : Nat)
  deriving DecidableEq

/-- The database file, which one process at a time may open, and the number of connections the kernel was given. -/
structure Database where
  path : String
  holder : Option Holder
  handed_out : Nat

namespace Database

def act (database : Database) : OtherProcess → Database
  | .opens pid => if database.holder = none then { database with holder := some (.other pid) } else database
  | .closes pid => if database.holder = some (.other pid) then { database with holder := none } else database

/-- `duckdb.connect`. -/
def connect (database : Database) : Except String Nat × Database :=
  if database.holder = none then
    (.ok database.handed_out,
      ⟨database.path, some (.kernel database.handed_out), database.handed_out + 1⟩)
  else (.error "IO Error: Could not set lock on file", database)

/-- `close` of a connection. -/
def close (database : Database) (con : Nat) : Database :=
  if database.holder = some (.kernel con) then { database with holder := none } else database

end Database

/-- `_open_duckdb_with_retry`, with what the other processes do while it sleeps after each failure. -/
def open_duckdb_with_retry : Nat → List (List OtherProcess) → Database → Except String Nat × Database
  | 0, _, database => (.error s!"cannot open DuckDB state {database.path}: None", database)
  | attempts + 1, waits, database =>
    match database.connect with
    | (.ok con, opened) => (.ok con, opened)
    | (.error last_error, refused) =>
      if attempts = 0 then (.error s!"cannot open DuckDB state {database.path}: {last_error}", refused)
      else open_duckdb_with_retry attempts waits.tail ((waits.headD []).foldl Database.act refused)

inductive Backend where
  | duckdb
  | json_fallback
  deriving DecidableEq

inductive Connection where
  | duckdb (con : Nat)
  | json_store
  deriving DecidableEq

structure StateBackend where
  backend : Backend
  _con : Option Connection

/-- The kernel's state backend and the database file. What raises comes with the text of its exception. -/
structure Kernel where
  state : StateBackend
  database : Database

namespace Kernel

variable (waits : List (List OtherProcess)) (kernel : Kernel)

/-- `connect`. The migrations of a schema that is current change nothing. -/
def connect : Except String Unit × Kernel :=
  match kernel.state._con with
  | some _ => (.ok (), kernel)
  | none =>
    match kernel.state.backend with
    | .duckdb =>
      match open_duckdb_with_retry 20 waits kernel.database with
      | (.error e, database) => (.error e, { kernel with database := database })
      | (.ok con, database) => (.ok (), ⟨{ kernel.state with _con := some (.duckdb con) }, database⟩)
    | .json_fallback => (.ok (), { kernel with state := { kernel.state with _con := some .json_store } })

def require_duckdb : Except String Connection × Kernel :=
  match kernel.connect waits with
  | (.error e, kernel) => (.error e, kernel)
  | (.ok _, kernel) =>
    match kernel.state.backend, kernel.state._con with
    | .duckdb, some con => (.ok con, kernel)
    | _, _ => (.error "repository operations require the DuckDB backend", kernel)

def close : Kernel :=
  match kernel.state.backend, kernel.state._con with
  | .duckdb, some (.duckdb con) => ⟨{ kernel.state with _con := none }, kernel.database.close con⟩
  | _, _ => { kernel with state := { kernel.state with _con := none } }

/-- A repository method: it checks its arguments, asks for the connection and runs its statements on it. -/
def call {α : Type} (check : Except String Unit) (statements : Except String α) : Except String α × Kernel :=
  match check with
  | .error e => (.error e, kernel)
  | .ok _ =>
    match kernel.require_duckdb waits with
    | (.error e, kernel) => (.error e, kernel)
    | (.ok _, kernel) => (statements, kernel)

end Kernel

/-- The check of a hash in hexadecimal, of a file or of a user. -/
def check_hash (owner text : String) : Except String Unit :=
  let normalized := (strip text.toList).map Char.toLower
  if normalized.length ≠ 32 then .error s!"{owner} hash must contain 32 hexadecimal digits"
  else if fromhex_ok normalized then .ok ()
  else .error "non-hexadecimal number found in fromhex() arg"

/-- The repository methods that the kernel's tasks call, with the arguments that they check. -/
inductive Method where
  | save_found_sources
  | save_aich_master
  | get_aich_master
  | list_file_sources
  | add_download
  | get_download
  | list_downloads
  | set_download_status
  | update_download_progress
  | remove_download
  | record_server_failure
  | record_server_success
  | list_blacklisted_servers
  | list_server_failures
  | save_shared_files
  | list_shared_files
  | get_shared_file (file_hash : String)
  | list_search_results
  | get_search_result_tags (file_hash : String)
  | clear_search_results
  | record_traffic (user_hash : String) (uploaded downloaded : Int)
  | get_credits (user_hash : String)
  | list_credits (limit : Int)

def Method.check : Method → Except String Unit
  | .get_shared_file file_hash => check_hash "file" file_hash
  | .get_search_result_tags file_hash => check_hash "file" file_hash
  | .record_traffic user_hash uploaded downloaded =>
    if uploaded < 0 ∨ downloaded < 0 then .error "uploaded/downloaded must be non-negative"
    else check_hash "user" user_hash
  | .get_credits user_hash => check_hash "user" user_hash
  | .list_credits limit => if limit < 0 then .error "limit must be non-negative" else .ok ()
  | _ => .ok ()

end amuled.ownership
