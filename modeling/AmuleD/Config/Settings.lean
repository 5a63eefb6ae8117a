import AmuleD.Json.Loads
import AmuleD.PosixPath
import AmuleD.SortedDict

open pystr json sorteddict

namespace amuled.config

/-- A dictionary of the configuration. -/
abbrev Section (F : Type) := List (PyStr × Document F)

/-- What the configuration is loaded with: floats, `6.0`, the project's root and `str(value)` of what is no string. -/
structure Host (F : Type) where
  floats : Floats F
  six : F
  PROJECT_ROOT : posixpath.Path
  str : Document F → PyStr

/-- What `config/amuled.jsonc` is: not there, nothing that `load_jsonc_file` takes, or a value. -/
inductive ConfigFile (F : Type) where
  | missing
  | unreadable
  | holds (value : Document F)

variable {F : Type} (host : Host F) (limit : Nat)

section Defaults

/-- The literals of `DEFAULT_CONFIG`. -/
def default_sections : List (String × List (String × Document F)) :=
  [("app", [("name", .str (lit "AmuleD"))]),
    ("network", [("client_tcp_port", .int 8089), ("client_udp_port", .int 8089), ("enable_ed2k", .bool true),
      ("enable_kad", .bool true), ("bind_ip", .null), ("max_connections", .int 250), ("max_half_connections", .int 50),
      ("max_conn_per_5s", .int 60), ("max_download_bytes_per_sec", .int 0), ("crypt_layer_required", .bool false)]),
    ("download", [("max_sources_per_file", .int 400), ("sparse_part_files", .bool false)]),
    ("paths", [("incoming", .null), ("temp", .null), ("shared", .null)]),
    ("kademlia", [("nodes_dat", .str (lit "assets/v1/nodes.dat")), ("bootstrap_nodes", .array []), ("udp_key", .null),
      ("reask_interval_s", .int 300)]),
    ("servers", [("server_met", .str (lit "assets/v1/server.met")),
      ("static_servers", .str (lit "assets/v1/staticservers.dat")), ("autoconnect", .bool true),
      ("retry_interval_s", .int 300), ("connect_timeout_s", .int 10), ("keepalive_timeout_s", .int 60)]),
    ("sharing", [("shared_files_json", .null), ("shareddir_dat", .null)]),
    ("ipfilter", [("ipfilter_dat", .str (lit "assets/v1/ipfilter.dat")),
      ("ipfilter_static_dat", .str (lit "assets/v1/ipfilter_static.dat")), ("level", .int 127),
      ("auto_update", .bool false), ("update_url", .null), ("update_period_days", .int 7)]),
    ("geoip", [("geoip_dat", .str (lit "assets/v1/GeoIP.dat")), ("enabled", .bool false)]),
    ("proxy", [("enabled", .bool false), ("host", .null), ("port", .null), ("username", .null), ("password", .null)]),
    ("identity", [("user_hash", .null), ("nick", .str (lit "AmuleD")), ("tcp_port", .int 0), ("client_id", .int 0)]),
    ("serve", [("bind_host", .str (lit "0.0.0.0")), ("max_sessions", .int 64), ("upload_slots", .int 4),
      ("throttle_bytes_per_sec", .int 0), ("republish_hours", .float host.six), ("publish_limit", .int 0)]),
    ("storage", [("backend", .str (lit "duckdb"))]),
    ("logging", [("level", .str (lit "INFO")), ("file", .str (lit "logs/amuled.jsonl"))])]

/-- A literal of a dictionary. -/
def dict {ν : Type} (items : List (String × ν)) : List (PyStr × ν) :=
  ofList (items.map fun item => (lit item.1, item.2))

@[irreducible] def DEFAULT_CONFIG : Section F :=
  dict ((default_sections host).map fun item => (item.1, .object (dict item.2)))

end Defaults

section Loading

/-- `_deep_merge`, from where the merged dictionary has taken up the first values. -/
def _deep_merge (merged : Section F) (values : Section F) : Section F :=
  match values with
  | [] => merged
  | (key, .object inner) :: rest =>
    match find merged key with
    | some (.object held) => _deep_merge (insert merged key (.object (_deep_merge held inner))) rest
    | _ => _deep_merge (insert merged key (.object inner)) rest
  | (key, value) :: rest => _deep_merge (insert merged key value) rest
termination_by sizeOf values

/-- A path of the settings that is null or missing becomes the directory of its name below the root. -/
def default_dir (paths : Section F) (name : String) : Section F :=
  match find paths (lit name) with
  | none => insert paths (lit name) (.str (posixpath.text (host.PROJECT_ROOT ++ [lit name])))
  | some .null => insert paths (lit name) (.str (posixpath.text (host.PROJECT_ROOT ++ [lit name])))
  | some _ => paths

/-- `cfg.get(key, {})` where it then is used as a dictionary, which raises where it is another value. -/
def section_of (cfg : Section F) (key : String) : Option (Section F) :=
  match find cfg (lit key) with
  | none => some []
  | some (.object inner) => some inner
  | some _ => none

/-- `str(value)`. -/
def text_of (value : Document F) : PyStr :=
  match value with
  | .str text => text
  | value => host.str value

/-- `Path(text).parts` of a relative path. -/
def relative_parts (text : PyStr) : List PyStr :=
  (split posixpath.sep text).filter fun part => decide (part ≠ []) && decide (part ≠ posixpath.curdir)

/-- A relative file of the log, below the root where it begins with the directory of the logs, else below that. -/
def log_file (text : PyStr) : PyStr :=
  let parts := relative_parts text
  if parts.head?.map lower = some (lit "logs") then posixpath.text (host.PROJECT_ROOT ++ parts)
  else posixpath.text (host.PROJECT_ROOT ++ lit "logs" :: parts)

/-- What the file of the log becomes. -/
def normal_file (value : Document F) : Document F :=
  if value.truthy host.floats && !posixpath.isabs (text_of host value) then .str (log_file host (text_of host value))
  else value

def normal_logging (logging : Section F) : Section F :=
  match find logging (lit "file") with
  | some file => insert logging (lit "file") (normal_file host file)
  | none => logging

def _normalize_paths (cfg : Section F) : Option (Section F) := do
  let paths ← section_of cfg "paths"
  let cfg := insert cfg (lit "paths") (.object (["incoming", "temp", "shared"].foldl (default_dir host) paths))
  let logging ← section_of cfg "logging"
  return insert cfg (lit "logging") (.object (normal_logging host logging))

end Loading

section Saving

/-- No lone surrogate is in a text, so it has a form in UTF-8. -/
def encodable (text : PyStr) : Bool := text.all fun point => !(decide (0xD800 ≤ point) && decide (point ≤ 0xDFFF))

/-- `json.dumps` ends within its recursion limit, and what it gives can be encoded. -/
def writable : Nat → Document F → Bool
  | _, .str text => encodable text
  | 0, .array _ => false
  | 0, .object _ => false
  | depth + 1, .array items => items.all (writable depth)
  | depth + 1, .object entries => entries.all fun entry => encodable entry.1 && writable depth entry.2
  | _, _ => true

def save_config (cfg : Section F) : Option (ConfigFile F) :=
  if writable limit (.object cfg) then some (.holds (.object cfg)) else none

/-- `load_config`, with the file that it leaves; `none` is an exception. -/
def load_config (file : ConfigFile F) : Option (Section F × ConfigFile F) :=
  match file with
  | .holds (.object user_cfg) => do
    let cfg ← _normalize_paths host (_deep_merge (DEFAULT_CONFIG host) user_cfg)
    return (cfg, file)
  | .missing => do
    let cfg ← _normalize_paths host (DEFAULT_CONFIG host)
    let saved ← save_config limit cfg
    return (cfg, saved)
  | _ => none

end Saving

section Keys

def _resolve_dotted (cfg : Document F) (parts : List PyStr) : Option (Document F) :=
  match parts with
  | [] => some cfg
  | part :: rest =>
    match cfg with
    | .object entries => (find entries part).bind fun inner => _resolve_dotted inner rest
    | _ => none

/-- The dictionary under a key; a new one where it has none. -/
def subsection (cfg : Section F) (part : PyStr) : Section F :=
  match find cfg part with
  | some (.object inner) => inner
  | _ => []

def _set_dotted (cfg : Section F) (parts : List PyStr) (value : Document F) : Section F :=
  match parts with
  | [] => cfg
  | [last] => insert cfg last value
  | part :: rest => insert cfg part (.object (_set_dotted (subsection cfg part) rest value))

def _infer_type (raw : PyStr) : Document F :=
  if lower raw = lit "true" then .bool true
  else if lower raw = lit "false" then .bool false
  else if lower raw = lit "null" ∨ lower raw = lit "none" then .null
  else
    match int_of raw with
    | some number => .int number
    | none =>
      match host.floats.of_str raw with
      | some number => .float number
      | none => .str raw

/-- The parts of a dotted key. -/
def parts_of (dotted_key : PyStr) : List PyStr := split 0x2E dotted_key

def config_set (file : ConfigFile F) (dotted_key raw_value : PyStr) : Option (ConfigFile F) := do
  let loaded ← load_config host limit file
  save_config limit (_set_dotted loaded.1 (parts_of dotted_key) (_infer_type host raw_value))

end Keys

end amuled.config
