import AmuleD.Download.Dial
import AmuleD.Sorting.Stable
import AmuleD.State.FileSources
import Mathlib.Data.Prod.Lex
import Mathlib.Data.String.Basic

open sorting (sorted mem_sorted)
open amuled.state

namespace amuled.download.reask

open amuled.download.dials (client_id_to_ip)

/-- One source entry of a search result. -/
structure KadFileSource where
  file_hash : Bytes
  source_id : Bytes
  source_type : Nat
  ip : Option String
  tcp_port : Nat
  udp_port : Nat
  buddy_ip : Option String
  buddy_port : Nat
  buddy_hash : Option String
  crypt_options : Nat
  ipv6 : Option String
  buddy_ipv6 : Option String

namespace KadFileSource

variable (source : KadFileSource)

/-- The flag of `to_dict`. -/
def dialable : Bool := source.ip.isSome && 0 < source.tcp_port

/-- The class has no attribute of this name: reading it raises. -/
def client_id (_source : KadFileSource) : Except Exc Nat := .error .AttributeError

/-- The record that is saved of a reported source. -/
def found : Except Exc FoundSource := do
  let client_id ← source.client_id
  .ok { client_id := client_id, client_port := source.tcp_port, user_hash := none,
        kad_type := if source.source_type = 0 then none else some source.source_type,
        kad_udp_port := some source.udp_port, buddy_id := none, buddy_ip := source.buddy_ip,
        buddy_port := some source.buddy_port, ipv6 := none, buddy_ipv6 := none }

/-- The stored text of a reported type. -/
def type_text : String := if source.source_type = 0 then "kad" else s!"kad{source.source_type}"

end KadFileSource

/-- A row of the table `downloads`. The times are texts in the order of the times. -/
structure DownloadRow where
  file_hash : String
  name : String
  size : Int
  part_path : String
  status : String
  downloaded : Int
  created_at : String
  updated_at : String

inductive Value where
  | int (value : Int)
  | text (value : String)

/-- Python's `str` of what `dict.get` returns. -/
def str : Option Value → String
  | none => "None"
  | some (.int value) => toString value
  | some (.text value) => value

namespace DownloadRow

variable (row : DownloadRow)

/-- The dictionary that `list_downloads` makes of a row, by its keys. -/
def get : String → Option Value
  | "hash" => some (.text row.file_hash)
  | "name" => some (.text row.name)
  | "size" => some (.int row.size)
  | "part_path" => some (.text row.part_path)
  | "status" => some (.text row.status)
  | "downloaded" => some (.int row.downloaded)
  | "created_at" => some (.text row.created_at)
  | "updated_at" => some (.text row.updated_at)
  | _ => none

def Active : Prop := row.status = "queued" ∨ row.status = "downloading"

instance : Decidable row.Active := inferInstanceAs (Decidable (_ ∨ _))

end DownloadRow

def list_downloads (downloads : List DownloadRow) (limit : Nat) : List DownloadRow :=
  (sorted (fun row => toLex (row.created_at, row.file_hash)) downloads).take limit

/-- An entry of `download_box`, without the progress that only the status request reads. -/
structure Race where
  done : Bool
  total : Int

/-- The kernel, with the tables `downloads` and `file_sources` of its state. -/
structure Kernel where
  downloads : List DownloadRow
  file_sources : Dict SourceKey FileSource
  download_box : Dict String Race

/-- What `_start_download_task` replies. -/
structure Reply where
  started : Bool
  reason : Option String
  hash : String

namespace Kernel

variable (kernel : Kernel)

/-- A race is under way under this text. -/
def running (file_hash : String) : Bool := (kernel.download_box.get file_hash).any fun race => !race.done

/-- `DownloadQueue.get`. -/
def get (file_hash : String) : Except Exc (Option DownloadRow) := do
  let normalized ← normalize_hash file_hash
  .ok (kernel.downloads.find? fun row => row.file_hash.toLower = normalized.toLower)

def start_download_task (file_hash : String) : Except Exc (Reply × Kernel) :=
  if kernel.running file_hash then .ok (⟨false, some "already running", file_hash⟩, kernel)
  else do
    match ← kernel.get file_hash with
    | none => .ok (⟨false, some "download not found", file_hash⟩, kernel)
    | some entry =>
      .ok (⟨true, none, file_hash⟩,
        { kernel with download_box := kernel.download_box.set file_hash ⟨false, entry.size⟩ })

end Kernel

/-- `kad_file_source_search` over the routing of a spider: the sources of its report for a hash and a size. -/
abbrev Search := Bytes → Int → Except Exc (List KadFileSource)

/-- What the loop meets at one entry: the stop event, the spider, and what the other tasks make of the kernel
while the lookup is under way. -/
structure Turn where
  stopped : Bool
  spider : Option Search
  meanwhile : Kernel → Kernel

/-- What `_refresh_sources_async` leaves: the lookup that it ran, the kernel, and the numbers of sources found
and saved. -/
structure Refresh where
  lookup : Option (Bytes × Int)
  kernel : Kernel
  result : Except Exc (Nat × Nat)

/-- The end of a refresh, with the report of the lookup. -/
def save_report (kernel : Kernel) (target : Bytes) (sources : List KadFileSource) : Except Exc (Kernel × Nat × Nat) := do
  let record : FoundSources := ⟨target, ← sources.mapM KadFileSource.found⟩
  let (file_sources, saved) := save_found_sources kernel.file_sources record "0.0.0.0" 0 "kad"
  .ok ({ kernel with file_sources := file_sources }, sources.length, saved)

def refresh_sources (turn : Turn) (kernel : Kernel) (file_hash : String) (size : Int) : Refresh :=
  match turn.spider with
  | none => ⟨none, kernel, .error (.RuntimeError "spider disabled - source refresh unavailable")⟩
  | some search =>
    match fromhex file_hash.toList with
    | none => ⟨none, kernel, .error (.ValueError "non-hexadecimal number found in fromhex() arg")⟩
    | some target =>
      let kernel := turn.meanwhile kernel
      match search target size >>= save_report kernel target with
      | .error e => ⟨some (target, size), kernel, .error e⟩
      | .ok (kernel, found, saved) => ⟨some (target, size), kernel, .ok (found, saved)⟩

/-- A race that the loop has started, with the kernel right before. -/
structure Started where
  kernel : Kernel
  file_hash : String

/-- A pass of the loop so far. -/
structure Pass where
  kernel : Kernel
  lookups : List (Bytes × Int)
  started : List Started

namespace Pass

variable (pass : Pass)

/-- The race of an entry after its refresh. -/
def redial (file_hash : String) (saved : Nat) : Except Exc Pass :=
  if 0 < saved ∧ pass.kernel.running file_hash = false then do
    let (reply, kernel) ← pass.kernel.start_download_task file_hash
    .ok { pass with
      kernel := kernel
      started := if reply.started then pass.started ++ [⟨pass.kernel, file_hash⟩] else pass.started }
  else .ok pass

/-- The body of `_source_refresh_loop` for one entry. An exception of the refresh ends the entry's turn only. -/
def reask_entry (turn : Turn) (entry : DownloadRow) : Except Exc Pass :=
  let status := str (entry.get "status")
  let fhash := str (entry.get "file_hash")
  if status ≠ "queued" ∧ status ≠ "downloading" then .ok pass
  else
    let refresh := refresh_sources turn pass.kernel fhash entry.size
    let pass : Pass := ⟨refresh.kernel, pass.lookups ++ refresh.lookup.toList, pass.started⟩
    match refresh.result with
    | .error _ => .ok pass
    | .ok (_, saved) => pass.redial fhash saved

/-- The loop over the entries. The world has a turn for each. -/
def run (world : Nat → Turn) (pass : Pass) : List DownloadRow → Except Exc Pass
  | [] => .ok pass
  | entry :: rest =>
    if (world 0).stopped then .ok pass
    else do
      let pass ← pass.reask_entry (world 0) entry
      run (fun turn => world (turn + 1)) pass rest

end Pass

/-- One pass of `_source_refresh_loop`. -/
def source_refresh_pass (world : Nat → Turn) (kernel : Kernel) : Except Exc Pass :=
  Pass.run world ⟨kernel, [], []⟩ (list_downloads kernel.downloads 200)

/-- A refresh for which a lookup reports its sources. -/
structure Reported where
  turn : Turn
  kernel : Kernel
  file_hash : String
  size : Int
  target : Bytes
  search : Search
  sources : List KadFileSource
  hash_digits : fromhex file_hash.toList = some target
  spider_runs : turn.spider = some search
  search_reports : search target size = .ok sources

def Reported.refresh (reported : Reported) : Refresh :=
  refresh_sources reported.turn reported.kernel reported.file_hash reported.size

/-- The refresh returns, and each dialable source of the report has a row with its port and type, a client id that
leads to its address, and the endpoint of its buddy if its type has one. -/
def Reported.Stored (reported : Reported) : Prop :=
  (∃ saved, reported.refresh.result = .ok (reported.sources.length, saved)) ∧
    ∀ source ∈ reported.sources, source.dialable = true → ∃ client_id row,
      reported.refresh.kernel.file_sources.get
        ⟨(hex_lower reported.target).toUpper, client_id, source.tcp_port, source.type_text⟩ = some row ∧
      source.ip = some (client_id_to_ip client_id) ∧
      (source.source_type = 3 ∨ source.source_type = 5 → ∀ ip, source.buddy_ip = some ip →
        row.server_ip = ip ∧ row.server_port = source.buddy_port)

/-- A pass runs a lookup for every queued or downloading file. -/
def Kernel.LooksUpAll (kernel : Kernel) (world : Nat → Turn) : Prop :=
  ∃ pass, source_refresh_pass world kernel = .ok pass ∧
    ∀ row ∈ kernel.downloads, row.Active →
      ∃ target size, fromhex row.file_hash.toList = some target ∧ (target, size) ∈ pass.lookups

/-- When a pass starts a race, none is under way for the same file under any spelling of its hash. -/
def Kernel.RacesAlone (kernel : Kernel) (world : Nat → Turn) : Prop :=
  ∀ pass, source_refresh_pass world kernel = .ok pass → ∀ start ∈ pass.started,
    ∀ spelling : String, spelling.toLower = start.file_hash.toLower → start.kernel.running spelling = false

theorem save_report_nil (kernel : Kernel) (target : Bytes) : save_report kernel target [] = .ok (kernel, 0, 0) := rfl

/-- No record can be made of a report with a source. -/
theorem save_report_cons (kernel : Kernel) (target : Bytes) (source : KadFileSource) (rest : List KadFileSource) :
    save_report kernel target (source :: rest) = .error .AttributeError := by
  rw [save_report, List.mapM_cons, KadFileSource.found, KadFileSource.client_id]
  rfl

theorem save_report_eq_ok_iff {kernel : Kernel} {target : Bytes} {sources : List KadFileSource}
    {saved : Kernel × Nat × Nat} :
    save_report kernel target sources = .ok saved ↔ sources = [] ∧ saved = (kernel, 0, 0) := by
  cases sources with
  | nil =>
    rw [save_report_nil, Except.ok.injEq, eq_comm]
    exact (and_iff_right rfl).symm
  | cons source rest =>
    rw [save_report_cons]
    exact iff_of_false (by simp) (by simp)

/-- A refresh returns exactly when the kernel has a spider, the text is hexadecimal and the lookup reports nothing. -/
theorem refresh_sources_eq_ok_iff {turn : Turn} {kernel : Kernel} {file_hash : String} {size : Int}
    {counts : Nat × Nat} :
    (refresh_sources turn kernel file_hash size).result = .ok counts ↔
      counts = (0, 0) ∧ ∃ search target, turn.spider = some search ∧ fromhex file_hash.toList = some target ∧
        search target size = .ok [] := by
  rw [refresh_sources]
  cases hspider : turn.spider with
  | none => simp
  | some search =>
    cases hdigits : fromhex file_hash.toList with
    | none => simp
    | some target =>
      cases hsaved : search target size >>= save_report (turn.meanwhile kernel) target with
      | error e =>
        have hsome : search target size ≠ .ok [] := by
          intro hempty
          rw [hempty, ok_bind, save_report_nil] at hsaved
          cases hsaved
        simp [hsaved, hsome]
      | ok saved =>
        obtain ⟨sources, hsearch, hreport⟩ := bind_eq_ok_iff.mp hsaved
        obtain ⟨rfl, rfl⟩ := save_report_eq_ok_iff.mp hreport
        simp [hsearch, save_report_nil, eq_comm]

/-- Of a reported lookup all is stored exactly when the report is empty: a source of any type raises. -/
theorem Reported.stored_iff (reported : Reported) : reported.Stored ↔ reported.sources = [] := by
  constructor
  · rintro ⟨⟨saved, hresult⟩, _⟩
    have hcounts := (refresh_sources_eq_ok_iff.mp hresult).1
    exact List.eq_nil_of_length_eq_zero (congrArg Prod.fst hcounts)
  · intro hempty
    refine ⟨⟨0, ?_⟩, ?_⟩
    · apply refresh_sources_eq_ok_iff.mpr
      refine ⟨by rw [hempty, List.length_nil], reported.search, reported.target, reported.spider_runs,
        reported.hash_digits, ?_⟩
      rw [reported.search_reports, hempty]
    · intro source hsource
      rw [hempty] at hsource
      cases hsource

/-- The dictionaries of `list_downloads` have the hash under another key than the one that the loop reads. -/
theorem str_get_file_hash (row : DownloadRow) : str (row.get "file_hash") = "None" := rfl

theorem fromhex_none_text : fromhex "None".toList = none := by decide

/-- The refresh of the text `None` fails before its lookup, and before any other task runs. -/
theorem refresh_sources_none_text (turn : Turn) (kernel : Kernel) (size : Int) :
    ∃ e, refresh_sources turn kernel "None" size = ⟨none, kernel, .error e⟩ := by
  rw [refresh_sources]
  cases turn.spider with
  | none => exact ⟨_, rfl⟩
  | some search =>
    rw [fromhex_none_text]
    exact ⟨_, rfl⟩

namespace Pass

/-- No entry makes the loop do anything. -/
theorem reask_entry_eq (pass : Pass) (turn : Turn) (entry : DownloadRow) : pass.reask_entry turn entry = .ok pass := by
  obtain ⟨e, hrefresh⟩ := refresh_sources_none_text turn pass.kernel entry.size
  rw [reask_entry, str_get_file_hash]
  simp only [hrefresh, Option.toList_none, List.append_nil, ite_self]

theorem run_eq (world : Nat → Turn) (pass : Pass) (entries : List DownloadRow) : run world pass entries = .ok pass := by
  induction entries generalizing world with
  | nil => rfl
  | cons entry rest ih =>
    rw [run, reask_entry_eq, ok_bind, ih, ite_self]

end Pass

/-- A whole pass leaves the kernel as it is: it looks nothing up and starts no race. -/
theorem source_refresh_pass_eq (world : Nat → Turn) (kernel : Kernel) :
    source_refresh_pass world kernel = .ok ⟨kernel, [], []⟩ := Pass.run_eq world _ _

theorem Kernel.looksUpAll_iff (kernel : Kernel) (world : Nat → Turn) :
    kernel.LooksUpAll world ↔ ∀ row ∈ kernel.downloads, ¬ row.Active := by
  constructor
  · rintro ⟨pass, hpass, hall⟩ row hrow hactive
    rw [source_refresh_pass_eq] at hpass
    cases hpass
    obtain ⟨target, size, _, hlookup⟩ := hall row hrow hactive
    cases hlookup
  · intro hidle
    refine ⟨_, source_refresh_pass_eq world kernel, ?_⟩
    intro row hrow hactive
    exact absurd hactive (hidle row hrow)

theorem Kernel.racesAlone (kernel : Kernel) (world : Nat → Turn) : kernel.RacesAlone world := by
  intro pass hpass start hstart
  rw [source_refresh_pass_eq] at hpass
  cases hpass
  cases hstart

/-- The source re-ask works exactly where it has nothing to do: no file is queued or downloading, and the lookup
reports no source. -/
theorem reask_meets_iff (kernel : Kernel) (world : Nat → Turn) (reported : Reported) :
    kernel.LooksUpAll world ∧ reported.Stored ∧ kernel.RacesAlone world ↔
      (∀ row ∈ kernel.downloads, ¬ row.Active) ∧ reported.sources = [] := by
  rw [kernel.looksUpAll_iff world, reported.stored_iff, and_iff_left (kernel.racesAlone world)]

def sampleRow : DownloadRow where
  file_hash := "abababababababababababababababab"
  name := "song.mp3"
  size := 12345
  part_path := "/temp/abababababababababababababababab.part"
  status := "downloading"
  downloaded := 0
  created_at := "2026-09-28 12:00:00"
  updated_at := "2026-09-28 12:00:00"

def sampleKernel : Kernel := ⟨[sampleRow], Dict.empty, Dict.empty⟩

/-- A source with a public address and a TCP port. -/
def sampleSource : KadFileSource where
  file_hash := List.replicate 16 0xAB
  source_id := List.replicate 16 1
  source_type := 1
  ip := some "10.0.0.1"
  tcp_port := 4662
  udp_port := 4672
  buddy_ip := none
  buddy_port := 0
  buddy_hash := none
  crypt_options := 0
  ipv6 := none
  buddy_ipv6 := none

theorem fromhex_sampleRow : fromhex sampleRow.file_hash.toList = some (List.replicate 16 0xAB) := by decide

/-- A spider whose lookups all report the source. -/
def sampleTurn : Turn := ⟨false, some fun _ _ => .ok [sampleSource], id⟩

def sampleReported : Reported where
  turn := sampleTurn
  kernel := sampleKernel
  file_hash := sampleRow.file_hash
  size := sampleRow.size
  target := List.replicate 16 0xAB
  search := fun _ _ => .ok [sampleSource]
  sources := [sampleSource]
  hash_digits := fromhex_sampleRow
  spider_runs := rfl
  search_reports := rfl

/-- A file that is being downloaded is not looked up, and a refresh under its own hash stores nothing of the
report. -/
theorem reask_finds_nothing :
    ¬ sampleKernel.LooksUpAll (fun _ => sampleTurn) ∧ ¬ sampleReported.Stored := by
  constructor
  · intro hall
    have hidle := (sampleKernel.looksUpAll_iff _).mp hall
    exact hidle sampleRow List.mem_cons_self (Or.inr rfl)
  · intro hstored
    have hempty := sampleReported.stored_iff.mp hstored
    cases hempty

end amuled.download.reask
