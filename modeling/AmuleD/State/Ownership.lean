import AmuleD.Peer.PreEngine
import AmuleD.Runs
import AmuleD.State.Backend

open amuled.peer amuled.peer.pre_engine
open amuled.security (Rsa SecureIdentProvider)

namespace amuled.ownership

/-- The file hash of a packet that the listener resolves. -/
def requested_hash (opcode : UInt8) (payload : Bytes) : Option Bytes :=
  if opcode = AICHREQUEST then
    match parse_aich_request_payload payload with
    | .error _ => none
    | .ok (req_hash, _, _) => some req_hash
  else if opcode = REQUESTFILENAME ∨ opcode = HASHSETREQUEST ∨ opcode = STARTUPLOADREQ then
    match parse_file_hash_payload payload with
    | .error _ => none
    | .ok req_hash => some req_hash.val
  else none

/-- `StateSharedFileResolver.resolve`, whose factory returns the kernel's own state. The row is what the statement of
`get_shared_file` finds. -/
def Kernel.resolve (waits : List (List OtherProcess)) (surroundings : Surroundings)
    (row : Except String (Option SharedRow)) (file_hash : Bytes) (kernel : Kernel) :
    Except Exc (Option Shared) × Kernel :=
  if file_hash.length ≠ 16 then (.ok none, kernel)
  else
    let looked := kernel.call waits (Method.get_shared_file (hex_lower file_hash)).check row
    ({ surroundings with state_factory := .ok fun _ => looked.1 }.resolve file_hash, looked.2.close)

/-- What happens while the kernel runs. Credit accounting, control commands, the queue and the server session use the
state through repository methods. -/
inductive KernelOperation where
  | session_packet (packet : Incoming) (row : Except String (Option SharedRow))
  | repository (method : Method) (statements : Except String Unit)
  | save_duckdb (alive_nodes : Nat) (statements : Except String Unit)
  | hot_stats (statements : Except String Unit)
  | other_process (action : OtherProcess)

/-- An operation, with what other processes do while it waits for the database. -/
structure KernelEvent where
  operation : KernelOperation
  waits : List (List OtherProcess)

/-- The hash that an operation resolves. -/
def KernelEvent.requested (event : KernelEvent) : Option Bytes :=
  match event.operation with
  | .session_packet packet _ => requested_hash packet.opcode packet.payload
  | _ => none

/-- The tasks swallow what an operation raises. -/
def Kernel.step (kernel : Kernel) (event : KernelEvent) : Kernel :=
  match event.operation with
  | .session_packet packet row =>
    match requested_hash packet.opcode packet.payload with
    | none => kernel
    | some file_hash => (kernel.resolve event.waits packet.surroundings row file_hash).2
  | .repository method statements => (kernel.call event.waits method.check statements).2
  | .save_duckdb alive_nodes statements =>
    if alive_nodes = 0 then kernel else (kernel.call event.waits (.ok ()) statements).2
  | .hot_stats statements => (kernel.call event.waits (.ok ()) statements).2
  | .other_process action => { kernel with database := kernel.database.act action }

/-- The backend before the kernel's start. -/
def Kernel.fresh (database : Database) : Kernel := ⟨⟨.duckdb, none⟩, database⟩

/-- The kernel has the connection of its start, and with it the database file. -/
structure Owned (first kernel : Kernel) : Prop where
  same : kernel.state._con = first.state._con
  held : ∃ con, kernel.state._con = some (.duckdb con) ∧ kernel.database.holder = some (.kernel con)

/-- What opens the database file holds it. -/
theorem holder_of_open {attempts con : Nat} {waits : List (List OtherProcess)} {database opened : Database}
    (hopen : open_duckdb_with_retry attempts waits database = (.ok con, opened)) :
    opened.holder = some (.kernel con) := by
  induction attempts generalizing waits database with
  | zero => cases hopen
  | succ attempts ih =>
    rw [open_duckdb_with_retry, Database.connect] at hopen
    by_cases hfree : database.holder = none
    · rw [if_pos hfree] at hopen
      cases hopen
      rfl
    · rw [if_neg hfree] at hopen
      by_cases hlast : attempts = 0
      · simp only [if_pos hlast] at hopen
        cases hopen
      · simp only [if_neg hlast] at hopen
        exact ih hopen

theorem owned_of_start {waits : List (List OtherProcess)} {database : Database} {first : Kernel}
    (hstart : (Kernel.fresh database).connect waits = (.ok (), first)) : Owned first first := by
  refine ⟨rfl, ?_⟩
  rw [Kernel.connect] at hstart
  cases hopen : open_duckdb_with_retry 20 waits database with
  | mk opened after =>
    cases opened with
    | error e =>
      simp only [Kernel.fresh, hopen] at hstart
      cases hstart
    | ok con =>
      simp only [Kernel.fresh, hopen] at hstart
      cases hstart
      exact ⟨con, rfl, holder_of_open hopen⟩

namespace Kernel

variable {waits : List (List OtherProcess)} {first kernel : Kernel}

/-- A method leaves a connection that is there as it is. -/
theorem call_of_connected {con : Connection} (hcon : kernel.state._con = some con) {α : Type}
    (check : Except String Unit) (statements : Except String α) :
    (kernel.call waits check statements).2 = kernel := by
  have hconnect : kernel.connect waits = (.ok (), kernel) := by
    rw [connect, hcon]
  cases check with
  | error e => rfl
  | ok _ =>
    rw [call, require_duckdb, hconnect]
    simp only [hcon]
    cases kernel.state.backend <;> rfl

@[simp] theorem con_close : kernel.close.state._con = none := by
  rw [close]
  split <;> rfl

end Kernel

theorem Database.act_of_held {database : Database} {con : Nat} (hheld : database.holder = some (.kernel con))
    (action : OtherProcess) : database.act action = database := by
  cases action with
  | opens pid => rw [act, if_neg (by simp [hheld])]
  | closes pid => rw [act, if_neg (by simp [hheld])]

theorem length_requested_hash {opcode : UInt8} {payload file_hash : Bytes}
    (hrequested : requested_hash opcode payload = some file_hash) : file_hash.length = 16 := by
  rw [requested_hash] at hrequested
  split_ifs at hrequested
  · cases hparse : parse_aich_request_payload payload with
    | error e =>
      rw [hparse] at hrequested
      cases hrequested
    | ok request =>
      rw [hparse] at hrequested
      cases hrequested
      rw [parse_aich_request_payload] at hparse
      split_ifs at hparse with hlength
      cases hparse
      rw [List.length_take]
      omega
  · cases hparse : parse_file_hash_payload payload with
    | error e =>
      rw [hparse] at hrequested
      cases hrequested
    | ok req_hash =>
      rw [hparse] at hrequested
      cases hrequested
      exact req_hash.property

/-- A packet that asks for no file is answered without the state. -/
theorem branch_of_unrequested {rsa : Rsa} {opcode : UInt8} {payload : Bytes}
    (hnone : requested_hash opcode payload = none) (services : Services) (surroundings : Surroundings)
    (factory : Except String (String → Except String (Option SharedRow))) (tags : List Ed2kTag)
    (secure_ident : Option (SecureIdentProvider rsa)) (locals : Locals) :
    branch services { surroundings with state_factory := factory } tags secure_ident locals opcode payload =
      branch services surroundings tags secure_ident locals opcode payload := by
  have haich : opcode = AICHREQUEST →
      handle_aich_request services { surroundings with state_factory := factory } locals payload =
        handle_aich_request services surroundings locals payload := by
    intro hopcode
    rw [requested_hash, if_pos hopcode] at hnone
    rw [handle_aich_request, handle_aich_request]
    cases hparse : parse_aich_request_payload payload with
    | error e => rfl
    | ok request =>
      rw [hparse] at hnone
      cases hnone
  have hfile : opcode ≠ AICHREQUEST → opcode = REQUESTFILENAME ∨ opcode = HASHSETREQUEST →
      ∃ e, parse_file_hash_payload payload = .error e := by
    intro hother hopcode
    have hasks : opcode = REQUESTFILENAME ∨ opcode = HASHSETREQUEST ∨ opcode = STARTUPLOADREQ := by
      obtain hname | hset := hopcode
      · exact .inl hname
      · exact .inr (.inl hset)
    rw [requested_hash, if_neg hother, if_pos hasks] at hnone
    cases hparse : parse_file_hash_payload payload with
    | error e => exact ⟨e, rfl⟩
    | ok req_hash =>
      rw [hparse] at hnone
      cases hnone
  rw [branch, branch]
  split_ifs with _ _ _ _ hopcode hname hset
  · rfl
  · rfl
  · rfl
  · rfl
  · exact haich hopcode
  · obtain ⟨e, hparse⟩ := hfile hopcode (.inl hname)
    rw [on_request_filename, on_request_filename, hparse]
  · obtain ⟨e, hparse⟩ := hfile hopcode (.inr hset)
    rw [on_hashset_request, on_hashset_request, hparse]
  · rfl
  · rfl

variable {first kernel : Kernel}

/-- An operation that asks for no file leaves the kernel's connection and its file as they are. -/
theorem step_of_unrequested (howned : Owned first kernel) {event : KernelEvent} (hnone : event.requested = none) :
    kernel.step event = kernel := by
  obtain ⟨con, hcon, hholder⟩ := howned.held
  rw [KernelEvent.requested] at hnone
  rw [Kernel.step]
  cases hoperation : event.operation with
  | session_packet packet row =>
    rw [hoperation] at hnone
    simp only [hnone]
  | repository method statements => exact Kernel.call_of_connected hcon _ _
  | save_duckdb alive_nodes statements =>
    simp only
    rw [Kernel.call_of_connected hcon, ite_self]
  | hot_stats statements => exact Kernel.call_of_connected hcon _ _
  | other_process action =>
    simp only
    rw [Database.act_of_held hholder]

/-- One that asks for a file closes the connection, whatever it finds. -/
theorem con_of_requested {event : KernelEvent} {file_hash : Bytes} (hrequested : event.requested = some file_hash)
    (kernel : Kernel) : (kernel.step event).state._con = none := by
  rw [KernelEvent.requested] at hrequested
  rw [Kernel.step]
  cases hoperation : event.operation with
  | session_packet packet row =>
    rw [hoperation] at hrequested
    simp only at hrequested
    simp only [hrequested]
    rw [Kernel.resolve, if_neg (not_not.mpr (length_requested_hash hrequested))]
    exact Kernel.con_close
  | repository method statements =>
    rw [hoperation] at hrequested
    cases hrequested
  | save_duckdb alive_nodes statements =>
    rw [hoperation] at hrequested
    cases hrequested
  | hot_stats statements =>
    rw [hoperation] at hrequested
    cases hrequested
  | other_process action =>
    rw [hoperation] at hrequested
    cases hrequested

/-- The kernel keeps the connection that it opened at its start exactly as long as no session asks for a file. -/
theorem owned_throughout_iff {waits : List (List OtherProcess)} {database : Database}
    (hstart : (Kernel.fresh database).connect waits = (.ok (), first)) (events : List KernelEvent) :
    (∀ part, part <+: events → Owned first (part.foldl Kernel.step first)) ↔
      ∀ event ∈ events, event.requested = none := by
  rw [← runs.allSteps_event_iff]
  refine runs.throughout_iff (owned_of_start hstart) ?_ (fun _ howned => howned) ?_ events
  · intro kernel event howned hnone
    rw [step_of_unrequested howned hnone]
    exact howned
  · intro kernel event _ howned
    cases hrequested : event.requested with
    | none => rfl
    | some file_hash =>
      obtain ⟨con, hcon, _⟩ := howned.held
      rw [con_of_requested hrequested] at hcon
      cases hcon

/-- A database file that nobody has open. -/
def freeDatabase : Database := ⟨"amuled.db", none, 0⟩

/-- A kernel that has just started. -/
def startedKernel : Kernel := ⟨⟨.duckdb, some (.duckdb 0)⟩, ⟨"amuled.db", some (.kernel 0), 1⟩⟩

theorem owned_with_accounting : (Kernel.fresh freeDatabase).connect [] = (.ok (), startedKernel) ∧
    ∀ part, part <+: [⟨.repository (.record_traffic "" 0 0) (.ok ()), []⟩, ⟨.other_process (.opens 1), []⟩] →
      Owned startedKernel (part.foldl Kernel.step startedKernel) := by
  have hconnect : (Kernel.fresh freeDatabase).connect [] = (.ok (), startedKernel) := rfl
  refine ⟨hconnect, ?_⟩
  apply (owned_throughout_iff hconnect _).mpr
  decide

/-- A session that asks for the name of a file that is not shared. -/
def nameRequest : KernelEvent :=
  ⟨.session_packet ⟨REQUESTFILENAME, List.replicate 16 0, ⟨.ok fun _ => .ok none, fun _ => .absent "", fun _ => none⟩⟩
    (.ok none), []⟩

/-- After such a request another process can take the database file. -/
theorem name_request_loses_database : (Kernel.fresh freeDatabase).connect [] = (.ok (), startedKernel) ∧
    ¬ Owned startedKernel ([nameRequest, ⟨.other_process (.opens 1), []⟩].foldl Kernel.step startedKernel) := by
  refine ⟨rfl, ?_⟩
  intro howned
  obtain ⟨con, _, hholder⟩ := howned.held
  have hother : ([nameRequest, ⟨.other_process (.opens 1), []⟩].foldl Kernel.step startedKernel).database.holder =
      some (.other 1) := rfl
  rw [hother] at hholder
  cases hholder

end amuled.ownership
