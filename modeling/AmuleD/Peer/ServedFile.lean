import AmuleD.Peer.Rotation

namespace amuled.peer

open amuled.upload runs

/-- A session with its `shared_file`, the file that the first STARTUPLOADREQ was resolved to, beside the hash
it was resolved for. The engine's `BlockSource` is made of it. -/
structure Uploader (File : Type) where
  session : Session
  shared_file : Option (Hash16 × File)

/-- What a step meets: the queue as the other sessions and the timer have left it, the clock and the credits
at each call, the resolver, whether the file's path is a file, and what is received. -/
structure Turn (File : Type) where
  queue : UploadQueue
  moments : Nat → Moment
  resolve : Hash16 → Option File
  source_opens : Bool
  received : Received

section Uploader

variable {File : Type} (priority : File → Int)

/-- The file that a STARTUPLOADREQ is resolved to. -/
def Turn.requested_file (turn : Turn File) : Option (Hash16 × File) :=
  match turn.received with
  | .packet opcode payload =>
    if opcode = STARTUPLOADREQ then
      match parse_file_hash_payload payload with
      | .error _ => none
      | .ok file_hash => (turn.resolve file_hash).map fun file => (file_hash, file)
    else none
  | _ => none

namespace Uploader

/-- Only the first STARTUPLOADREQ is resolved. -/
def resolved (uploader : Uploader File) (turn : Turn File) : Option (Hash16 × File) :=
  match uploader.session.phase with
  | .before_request => turn.requested_file
  | _ => uploader.shared_file

def circumstances (uploader : Uploader File) (turn : Turn File) : Circumstances :=
  ⟨turn.moments, (uploader.resolved turn).map fun file => priority file.2, turn.source_opens⟩

/-- One step of `IncomingPeerSession.run`, with the queue that it leaves. -/
def step (uploader : Uploader File) (turn : Turn File) : UploadQueue × Uploader File :=
  let stepped := uploader.session.step turn.queue (uploader.circumstances priority turn) turn.received
  (stepped.1, ⟨stepped.2, uploader.resolved turn⟩)

/-- A peer that has said HELLO. -/
def start (hello : Requester) : Uploader File := ⟨⟨hello, .before_request, []⟩, none⟩

/-- The file that is served was resolved for the hash. -/
def Shares (uploader : Uploader File) (file_hash : Hash16) : Prop :=
  ∃ file, uploader.shared_file = some (file_hash, file)

/-- The slots of a step are those of the file that the session serves: the one it is served in, one that it
takes while it is served, and one that it releases. -/
structure OwnSlot (uploader : Uploader File) (turn : Turn File) : Prop where
  granted : ∀ file_hash file_priority,
    (uploader.step priority turn).2.session.phase = .serving (some file_hash) file_priority →
      (uploader.step priority turn).2.Shares file_hash
  taken : ∀ granted file_priority, (uploader.step priority turn).2.session.phase = .serving granted file_priority →
    ∀ file_hash, ¬ turn.queue.holds_slot (uploader.session.hello.key file_hash) →
      (uploader.step priority turn).1.holds_slot (uploader.session.hello.key file_hash) →
      (uploader.step priority turn).2.Shares file_hash
  released : ∀ key, turn.queue.holds_slot key → ¬ (uploader.step priority turn).1.holds_slot key →
    ∃ file_hash, uploader.Shares file_hash ∧ key = uploader.session.hello.key file_hash

end Uploader

/-- A STARTUPLOADREQ for the hash is granted a slot at once. -/
def Offers (turn : Turn File) (hello : Requester) (file_hash : Hash16) (file_priority : Int) : Prop :=
  ∃ enqueued taken, enqueue_peer turn.queue (turn.moments 0) hello file_hash file_priority = .ok enqueued ∧
    take_slot enqueued (turn.moments 1) (hello.key file_hash) = some taken

/-- A session that is held or served gets no slot for another hash than that of its file. -/
def Uploader.Constant (uploader : Uploader File) (turn : Turn File) : Prop :=
  match uploader.session.phase, turn.received with
  | .queue_hold _ file_priority, .packet opcode payload =>
    opcode = STARTUPLOADREQ → turn.source_opens = true → ∀ re_hash, parse_file_hash_payload payload = .ok re_hash →
      ¬ uploader.Shares re_hash → ¬ Offers turn uploader.session.hello re_hash file_priority
  | .serving _ file_priority, .packet opcode payload =>
    opcode = STARTUPLOADREQ → ∀ req_hash : Hash16, req_hash.val = payload.take 16 →
      ¬ uploader.Shares req_hash → ¬ Offers turn uploader.session.hello req_hash file_priority
  | _, _ => True

end Uploader

section Slots

variable {hello : Requester} {file_hash req_hash : Hash16}

theorem Requester.key_injective (hello : Requester) : Function.Injective hello.key := by
  intro first second hkey
  exact Subtype.ext (hex_lower_injective (Prod.mk.inj hkey).2)

/-- The slots of the queue after the engine's hook, which never raises. -/
theorem engine_request_slots (session : Session) (queue : UploadQueue) (enqueued granted : Moment)
    (req_hash : Hash16) (file_priority : Int) :
    (session.engine_request queue enqueued granted req_hash file_priority).2 = session.ask req_hash ∧
      ∀ key, (session.engine_request queue enqueued granted req_hash file_priority).1.holds_slot key →
        queue.holds_slot key ∨ key = session.hello.key req_hash ∧ ∃ waiting taken,
          enqueue_peer queue enqueued session.hello req_hash file_priority = .ok waiting ∧
            take_slot waiting granted (session.hello.key req_hash) = some taken := by
  by_cases hactive : queue.holds_slot (session.hello.key req_hash)
  · rw [engine_request_active hactive]
    exact ⟨rfl, fun _ hkey => .inl hkey⟩
  · obtain ⟨waiting, henqueue, hslots, -⟩ :=
      enqueue_peer_ok queue enqueued session.hello req_hash file_priority
    simp only [Session.engine_request, on_start_upload_request, is_active_hello, hactive, decide_false, ok_bind,
      henqueue, Bool.false_eq_true, if_false]
    cases htake : take_slot waiting granted (session.hello.key req_hash) with
    | none => exact ⟨trivial, fun key hkey => .inl ((hslots key).mp hkey)⟩
    | some taken =>
      refine ⟨trivial, fun key hkey => ?_⟩
      obtain hold | hnew := ((take_slot_some htake).2.2 key).mp hkey
      · exact .inl ((hslots key).mp hold)
      · exact .inr ⟨hnew, waiting, taken, rfl, htake⟩

/-- The hook takes the slot that is offered. -/
theorem engine_request_takes (session : Session) (queue : UploadQueue) {enqueued granted : Moment}
    {file_priority : Int} {waiting taken : UploadQueue}
    (henqueue : enqueue_peer queue enqueued session.hello req_hash file_priority = .ok waiting)
    (htake : take_slot waiting granted (session.hello.key req_hash) = some taken) :
    ¬ queue.holds_slot (session.hello.key req_hash) ∧
      (session.engine_request queue enqueued granted req_hash file_priority).1.holds_slot
        (session.hello.key req_hash) := by
  obtain ⟨_, hsame, hslots, -⟩ := enqueue_peer_ok queue enqueued session.hello req_hash file_priority
  obtain rfl := Except.ok.inj (henqueue.symm.trans hsame)
  obtain ⟨hfree, -, htaken⟩ := take_slot_some htake
  have hactive : ¬ queue.holds_slot (session.hello.key req_hash) := fun hold => hfree ((hslots _).mpr hold)
  refine ⟨hactive, ?_⟩
  simp only [Session.engine_request, on_start_upload_request, is_active_hello, hactive, decide_false, ok_bind,
    henqueue, Bool.false_eq_true, if_false, htake, Option.getD_some]
  exact (htaken _).mpr (.inr rfl)

end Slots

section Steps

variable {File : Type} {priority : File → Int} {uploader : Uploader File} {turn : Turn File}

/-- The phases in which a session neither waits nor is served. -/
def Phase.Idle : Phase → Prop
  | .queue_hold _ _ => False
  | .serving _ _ => False
  | _ => True

/-- A session that waits or is served knows the file: that of the hash it waits for, or was granted. -/
structure KnowsFile (shared_file : Option (Hash16 × File)) (session : Session) : Prop where
  held : ∀ file_hash file_priority, session.phase = .queue_hold file_hash file_priority →
    ∃ file, shared_file = some (file_hash, file)
  served : ∀ granted file_priority, session.phase = .serving granted file_priority →
    ∃ file_hash file, shared_file = some (file_hash, file) ∧ ∀ own, granted = some own → own = file_hash

theorem knowsFile_start (shared_file : Option (Hash16 × File)) (hello : Requester) :
    KnowsFile shared_file ⟨hello, .before_request, []⟩ where
  held := fun _ _ hphase => by cases hphase
  served := fun _ _ hphase => by cases hphase

/-- What a step leaves: the session knows the file, and while it is served every new slot is one of the file. -/
structure KeepsFile (shared_file : Option (Hash16 × File)) (queue : UploadQueue) (hello : Requester)
    (stepped : UploadQueue × Session) : Prop where
  same_hello : stepped.2.hello = hello
  knows : KnowsFile shared_file stepped.2
  taken : ∀ granted file_priority, stepped.2.phase = .serving granted file_priority →
    ∀ file_hash, ¬ queue.holds_slot (hello.key file_hash) → stepped.1.holds_slot (hello.key file_hash) →
      ∃ file, shared_file = some (file_hash, file)

/-- A session that neither waits nor is served has no file to keep. -/
theorem keepsFile_idle {shared_file : Option (Hash16 × File)} {queue : UploadQueue} {hello : Requester}
    {stepped : UploadQueue × Session} (hhello : stepped.2.hello = hello) (hidle : stepped.2.phase.Idle) :
    KeepsFile shared_file queue hello stepped := by
  have hheld : ∀ file_hash file_priority, stepped.2.phase ≠ .queue_hold file_hash file_priority :=
    fun _ _ hphase => by rw [hphase] at hidle; exact hidle
  have hserved : ∀ granted file_priority, stepped.2.phase ≠ .serving granted file_priority :=
    fun _ _ hphase => by rw [hphase] at hidle; exact hidle
  exact ⟨hhello, ⟨fun _ _ hphase => absurd hphase (hheld _ _), fun _ _ hphase => absurd hphase (hserved _ _)⟩,
    fun _ _ hphase => absurd hphase (hserved _ _)⟩

theorem keepsFile_ended {shared_file : Option (Hash16 × File)} {queue : UploadQueue} (session : Session)
    (after : UploadQueue) : KeepsFile shared_file queue session.hello (after, session.go .ended) :=
  keepsFile_idle rfl trivial

theorem keepsFile_unchanged {shared_file : Option (Hash16 × File)} {queue : UploadQueue} {session stepped : Session}
    {after : UploadQueue} (hknows : KnowsFile shared_file session) (hhello : stepped.hello = session.hello)
    (hphase : stepped.phase = session.phase) (hslots : ∀ key, after.holds_slot key → queue.holds_slot key) :
    KeepsFile shared_file queue session.hello (after, stepped) where
  same_hello := hhello
  knows := ⟨fun _ _ hheld => hknows.held _ _ (hphase.symm.trans hheld),
    fun _ _ hserved => hknows.served _ _ (hphase.symm.trans hserved)⟩
  taken := fun _ _ _ _ hfree hheld => absurd (hslots _ hheld) hfree

/-- On the accept path the session is served with the file of the first request, which is replayed. -/
theorem keepsFile_accept {file_hash : Hash16} {file : File} {queue after : UploadQueue} (session : Session)
    (circumstances : Circumstances) {granted : Option Hash16} (file_priority : Int)
    (hgranted : ∀ own, granted = some own → own = file_hash)
    (hslots : ∀ key, after.holds_slot key → queue.holds_slot key ∨ key = session.hello.key file_hash) :
    KeepsFile (some (file_hash, file)) queue session.hello
      (session.accept after circumstances granted file_hash file_priority) := by
  rw [Session.accept]
  split
  · obtain ⟨hsession, hnew⟩ := engine_request_slots (session.go (.serving granted file_priority)) after
      (circumstances.moments 2) (circumstances.moments 3) file_hash file_priority
    refine ⟨by rw [hsession]; rfl, ⟨?_, ?_⟩, ?_⟩
    · intro held_hash held_priority hphase
      rw [hsession] at hphase
      cases hphase
    · intro own_granted own_priority hphase
      rw [hsession] at hphase
      cases hphase
      exact ⟨file_hash, file, rfl, hgranted⟩
    · intro own_granted own_priority _ new_hash hfree hheld
      have hkey : session.hello.key new_hash = session.hello.key file_hash := by
        obtain hold | ⟨hsame, _⟩ := hnew _ hheld
        · exact (hslots _ hold).resolve_left hfree
        · exact hsame
      rw [session.hello.key_injective hkey]
      exact ⟨file, rfl⟩
  · exact keepsFile_ended session after

/-- The slots of a queue after a client was enqueued and took a slot. -/
theorem holds_slot_taken {queue enqueued taken : UploadQueue} {hello : Requester} {file_hash : Hash16}
    {moments : Nat → Moment} {file_priority : Int}
    (henqueue : enqueue_peer queue (moments 0) hello file_hash file_priority = .ok enqueued)
    (htake : take_slot enqueued (moments 1) (hello.key file_hash) = some taken) (key : Key)
    (hheld : taken.holds_slot key) : queue.holds_slot key ∨ key = hello.key file_hash := by
  obtain ⟨_, hsame, hslots, -⟩ := enqueue_peer_ok queue (moments 0) hello file_hash file_priority
  obtain rfl := Except.ok.inj (henqueue.symm.trans hsame)
  exact (((take_slot_some htake).2.2 key).mp hheld).imp_left (hslots key).mp

theorem requested_file_of_packet {payload : Bytes} (hreceived : turn.received = .packet STARTUPLOADREQ payload) :
    turn.requested_file =
      match parse_file_hash_payload payload with
      | .error _ => none
      | .ok file_hash => (turn.resolve file_hash).map fun file => (file_hash, file) := by
  rw [Turn.requested_file, hreceived]
  exact if_pos rfl

theorem keepsFile_request {session : Session} {payload : Bytes}
    (hreceived : turn.received = .packet STARTUPLOADREQ payload) {circumstances : Circumstances}
    (hresolved : circumstances.resolved = turn.requested_file.map fun file => priority file.2) :
    KeepsFile turn.requested_file turn.queue session.hello (session.request turn.queue circumstances payload) := by
  rw [requested_file_of_packet hreceived] at hresolved ⊢
  rw [Session.request]
  cases hparse : parse_file_hash_payload payload with
  | error exc => exact keepsFile_ended session turn.queue
  | ok file_hash =>
    rw [hparse] at hresolved
    simp only at hresolved
    cases hfile : turn.resolve file_hash with
    | none =>
      rw [hfile] at hresolved
      simp only [hfile, hresolved, Option.map_none]
      exact keepsFile_ended session turn.queue
    | some file =>
      rw [hfile] at hresolved
      simp only [hfile, hresolved, Option.map_some, is_active_hello]
      by_cases hactive : turn.queue.holds_slot (session.hello.key file_hash)
      · simp only [hactive, decide_true]
        have hnone : ∀ own, (none : Option Hash16) = some own → own = file_hash := fun _ hown => by cases hown
        exact keepsFile_accept (session.ask file_hash) circumstances _ hnone fun key hkey => .inl hkey
      · obtain ⟨enqueued, henqueue, hslots, -⟩ := enqueue_peer_ok turn.queue (circumstances.moments 0)
          session.hello file_hash (priority file)
        simp only [hactive, decide_false, henqueue]
        cases htake : take_slot enqueued (circumstances.moments 1) (session.hello.key file_hash) with
        | none =>
          refine ⟨rfl, ⟨?_, ?_⟩, ?_⟩
          · rintro held_hash held_priority hphase
            cases hphase
            exact ⟨file, rfl⟩
          · intro granted served_priority hphase
            cases hphase
          · intro granted served_priority hphase
            cases hphase
        | some taken =>
          simp only
          exact keepsFile_accept (session.ask file_hash) circumstances _
            (fun own hown => (Option.some.inj hown).symm) (holds_slot_taken henqueue htake)

theorem keepsFile_request_again {session : Session} {file_hash : Hash16} {file : File} {file_priority : Int}
    {payload : Bytes} (hphase : session.phase = .queue_hold file_hash file_priority) {circumstances : Circumstances}
    (hmoments : circumstances.moments = turn.moments) (hopens : circumstances.source_opens = turn.source_opens)
    (hconstant : turn.source_opens = true → ∀ re_hash, parse_file_hash_payload payload = .ok re_hash →
      re_hash ≠ file_hash → ¬ Offers turn session.hello re_hash file_priority) :
    KeepsFile (some (file_hash, file)) turn.queue session.hello
      (session.request_again turn.queue circumstances file_hash file_priority payload) := by
  have hknows : KnowsFile (some (file_hash, file)) session := by
    refine ⟨?_, ?_⟩
    · intro held_hash held_priority hheld
      cases hphase.symm.trans hheld
      exact ⟨file, rfl⟩
    · intro granted served_priority hserved
      cases hphase.symm.trans hserved
  rw [Session.request_again]
  cases hparse : parse_file_hash_payload payload with
  | error exc => exact keepsFile_ended session turn.queue
  | ok re_hash =>
    obtain ⟨enqueued, henqueue, hslots, -⟩ := enqueue_peer_ok turn.queue (circumstances.moments 0) session.hello
      re_hash file_priority
    simp only [henqueue]
    cases htake : take_slot enqueued (circumstances.moments 1) (session.hello.key re_hash) with
    | none => exact keepsFile_unchanged hknows rfl rfl fun key => (hslots key).mp
    | some taken =>
      simp only
      by_cases hsource : turn.source_opens = true
      · have hsame : re_hash = file_hash := by
          by_contra hother
          rw [hmoments] at henqueue htake
          exact hconstant hsource re_hash hparse hother ⟨enqueued, taken, henqueue, htake⟩
        subst hsame
        exact keepsFile_accept (session.ask re_hash) circumstances _
          (fun own hown => (Option.some.inj hown).symm) (holds_slot_taken henqueue htake)
      · rw [Session.accept, if_neg (by rw [hopens]; exact hsource)]
        exact keepsFile_ended (session.ask re_hash) taken

theorem keepsFile_engine_request {session : Session} {shared_file : Option (Hash16 × File)}
    (hknows : KnowsFile shared_file session) {req_hash : Hash16} {file_priority : Int}
    (hconstant : (∀ file, shared_file ≠ some (req_hash, file)) → ¬ Offers turn session.hello req_hash file_priority) :
    KeepsFile shared_file turn.queue session.hello
      (session.engine_request turn.queue (turn.moments 0) (turn.moments 1) req_hash file_priority) := by
  obtain ⟨hsession, hslots⟩ := engine_request_slots session turn.queue (turn.moments 0) (turn.moments 1) req_hash
    file_priority
  refine ⟨by rw [hsession]; rfl, ⟨?_, ?_⟩, ?_⟩
  · intro held_hash held_priority hphase
    rw [hsession] at hphase
    exact hknows.held _ _ hphase
  · intro granted served_priority hphase
    rw [hsession] at hphase
    exact hknows.served _ _ hphase
  · intro granted served_priority _ new_hash hfree hheld
    obtain hold | ⟨hkey, hoffers⟩ := hslots _ hheld
    · exact absurd hold hfree
    · rw [session.hello.key_injective hkey]
      by_contra hother
      exact hconstant (not_exists.mp hother) hoffers

theorem keepsFile_finish {shared_file : Option (Hash16 × File)} (session : Session) (queue : UploadQueue)
    (granted : Option Hash16) : KeepsFile shared_file queue session.hello (session.finish queue granted) := by
  cases granted with
  | none => exact keepsFile_idle rfl trivial
  | some file_hash =>
    simp only [Session.finish, release_slot_eq queue (normalize_key_hello session.hello file_hash)]
    exact keepsFile_idle rfl trivial

theorem resolved_of_requested (turn : Turn File) (hphase : uploader.session.phase ≠ .before_request) :
    uploader.resolved turn = uploader.shared_file := by
  rw [Uploader.resolved]
  cases hcase : uploader.session.phase with
  | before_request => exact absurd hcase hphase
  | _ => rfl

variable (priority) in
theorem keepsFile_before_request (hphase : uploader.session.phase = .before_request) :
    KeepsFile (uploader.resolved turn) turn.queue uploader.session.hello
      (uploader.session.step turn.queue (uploader.circumstances priority turn) turn.received) := by
  have hidle : KeepsFile (uploader.resolved turn) turn.queue uploader.session.hello
      (turn.queue, uploader.session) := keepsFile_idle rfl (by rw [hphase]; trivial)
  have hresolved : uploader.resolved turn = turn.requested_file := by rw [Uploader.resolved, hphase]
  unfold Session.step
  rw [hphase]
  cases hreceived : turn.received with
  | packet opcode payload =>
    simp only
    split
    · rename_i hopcode
      subst hopcode
      have hrequest : (uploader.circumstances priority turn).resolved =
          turn.requested_file.map fun file => priority file.2 := by
        rw [← hresolved]
        rfl
      rw [hresolved]
      exact keepsFile_request hreceived hrequest
    · exact hidle
  | eof => exact keepsFile_ended uploader.session turn.queue
  | timeout => exact hidle
  | exception => exact keepsFile_ended uploader.session turn.queue

variable (priority) in
theorem keepsFile_queue_hold (hknows : KnowsFile uploader.shared_file uploader.session)
    (hconstant : uploader.Constant turn) {file_hash : Hash16} {file_priority : Int}
    (hphase : uploader.session.phase = .queue_hold file_hash file_priority) :
    KeepsFile (uploader.resolved turn) turn.queue uploader.session.hello
      (uploader.session.step turn.queue (uploader.circumstances priority turn) turn.received) := by
  obtain ⟨file, hfile⟩ := hknows.held _ _ hphase
  have hresolved : uploader.resolved turn = some (file_hash, file) := by
    rw [resolved_of_requested turn (by rw [hphase]; simp), hfile]
  rw [hfile] at hknows
  have hunchanged : KeepsFile (some (file_hash, file)) turn.queue uploader.session.hello
      (turn.queue, uploader.session) := keepsFile_unchanged hknows rfl rfl fun _ => id
  rw [hresolved]
  rw [Uploader.Constant, hphase] at hconstant
  unfold Session.step
  rw [hphase]
  cases hreceived : turn.received with
  | packet opcode payload =>
    rw [hreceived] at hconstant
    simp only at hconstant ⊢
    split
    · rename_i hopcode
      apply keepsFile_request_again hphase rfl rfl
      intro hopens re_hash hparse hother
      apply hconstant hopcode hopens re_hash hparse
      rintro ⟨other_file, hother_file⟩
      obtain ⟨rfl, _⟩ := Prod.mk.inj (Option.some.inj (hfile.symm.trans hother_file))
      exact hother rfl
    · split
      · exact keepsFile_ended uploader.session turn.queue
      · exact hunchanged
  | eof => exact keepsFile_ended uploader.session turn.queue
  | timeout =>
    simp only
    cases htake : take_slot turn.queue ((uploader.circumstances priority turn).moments 1)
        (uploader.session.hello.key file_hash) with
    | none => exact hunchanged
    | some taken =>
      exact keepsFile_accept uploader.session _ _ (fun own hown => (Option.some.inj hown).symm)
        fun key hkey => ((take_slot_some htake).2.2 key).mp hkey
  | exception => exact keepsFile_ended uploader.session turn.queue

variable (priority) in
theorem keepsFile_serving (hknows : KnowsFile uploader.shared_file uploader.session)
    (hconstant : uploader.Constant turn) {granted : Option Hash16} {file_priority : Int}
    (hphase : uploader.session.phase = .serving granted file_priority) :
    KeepsFile (uploader.resolved turn) turn.queue uploader.session.hello
      (uploader.session.step turn.queue (uploader.circumstances priority turn) turn.received) := by
  have hresolved : uploader.resolved turn = uploader.shared_file :=
    resolved_of_requested turn (by rw [hphase]; simp)
  have hunchanged : KeepsFile uploader.shared_file turn.queue uploader.session.hello
      (turn.queue, uploader.session) := keepsFile_unchanged hknows rfl rfl fun _ => id
  have hfinish : KeepsFile uploader.shared_file turn.queue uploader.session.hello
      (uploader.session.finish turn.queue granted) := keepsFile_finish uploader.session turn.queue granted
  rw [hresolved]
  rw [Uploader.Constant, hphase] at hconstant
  unfold Session.step
  rw [hphase]
  cases hreceived : turn.received with
  | packet opcode payload =>
    rw [hreceived] at hconstant
    simp only at hconstant ⊢
    split
    · exact hfinish
    · split
      · rename_i hopcode
        split
        · refine keepsFile_engine_request hknows fun hother => ?_
          exact hconstant hopcode _ rfl (not_exists.mpr hother)
        · exact hunchanged
      · exact hunchanged
  | eof => exact hfinish
  | timeout => exact hunchanged
  | exception => exact keepsFile_ended uploader.session turn.queue

variable (priority) in
/-- One step under which the session gets no slot for another hash. -/
theorem keepsFile_step (hknows : KnowsFile uploader.shared_file uploader.session)
    (hconstant : uploader.Constant turn) :
    KeepsFile (uploader.resolved turn) turn.queue uploader.session.hello
      (uploader.session.step turn.queue (uploader.circumstances priority turn) turn.received) := by
  cases hphase : uploader.session.phase with
  | before_request => exact keepsFile_before_request priority hphase
  | queue_hold file_hash file_priority => exact keepsFile_queue_hold priority hknows hconstant hphase
  | serving granted file_priority => exact keepsFile_serving priority hknows hconstant hphase
  | draining =>
    have hidle : KeepsFile (uploader.resolved turn) turn.queue uploader.session.hello
        (turn.queue, uploader.session) := keepsFile_idle rfl (by rw [hphase]; trivial)
    unfold Session.step
    rw [hphase]
    cases hreceived : turn.received with
    | packet opcode payload => exact hidle
    | eof => exact keepsFile_ended uploader.session turn.queue
    | timeout => exact hidle
    | exception => exact keepsFile_ended uploader.session turn.queue
  | ended =>
    unfold Session.step
    rw [hphase]
    exact keepsFile_idle rfl (by rw [hphase]; trivial)

/-- A slot that is gone was released by the session that was served in it. -/
theorem released_slot (hknows : KnowsFile uploader.shared_file uploader.session) {key : Key}
    (hheld : turn.queue.holds_slot key) (hgone : ¬ (uploader.step priority turn).1.holds_slot key) :
    ∃ file_hash, uploader.Shares file_hash ∧ key = uploader.session.hello.key file_hash := by
  cases footprint_step uploader.session turn.queue (uploader.circumstances priority turn) turn.received with
  | grown hgrown _ => exact absurd (hgrown.kept key hheld) hgone
  | finished own hserves hqueue _ =>
    have hkey : key = own := by
      by_contra hother
      apply hgone
      rw [Uploader.step]
      simp only
      rw [hqueue, holds_slot_del_slot]
      exact ⟨hheld, hother⟩
    obtain ⟨own_hash, file_priority, hphase, hown⟩ := hserves
    obtain ⟨file_hash, file, hfile, hgranted⟩ := hknows.served _ _ hphase
    refine ⟨file_hash, ⟨file, hfile⟩, ?_⟩
    rw [hkey, ← hown, hgranted own_hash rfl]

theorem shares_step_iff (hphase : uploader.session.phase ≠ .before_request) (file_hash : Hash16) :
    (uploader.step priority turn).2.Shares file_hash ↔ uploader.Shares file_hash := by
  rw [Uploader.Shares, Uploader.Shares, ← resolved_of_requested turn hphase]
  rfl

theorem phase_accept {session : Session} {queue : UploadQueue} {circumstances : Circumstances}
    (hopens : circumstances.source_opens = true) (granted : Option Hash16) (file_hash : Hash16)
    (file_priority : Int) :
    (session.accept queue circumstances granted file_hash file_priority).2.phase =
      .serving granted file_priority := by
  rw [Session.accept, if_pos hopens, (engine_request_slots _ _ _ _ _ _).1]
  rfl

variable (priority) in
/-- A held session that is granted the slot for a later hash is served in it, with the first file. -/
theorem serves_offered {file_hash re_hash : Hash16} {file_priority : Int} {payload : Bytes}
    (hphase : uploader.session.phase = .queue_hold file_hash file_priority)
    (hreceived : turn.received = .packet STARTUPLOADREQ payload) (hopens : turn.source_opens = true)
    (hparse : parse_file_hash_payload payload = .ok re_hash)
    (hoffers : Offers turn uploader.session.hello re_hash file_priority) :
    (uploader.step priority turn).2.session.phase = .serving (some re_hash) file_priority := by
  obtain ⟨enqueued, taken, henqueue, htake⟩ := hoffers
  have hmoments : (uploader.circumstances priority turn).moments = turn.moments := rfl
  rw [Uploader.step]
  simp only
  unfold Session.step
  rw [hphase, hreceived]
  simp only [if_true]
  rw [Session.request_again, hparse]
  simp only [hmoments, henqueue, htake]
  exact phase_accept hopens _ _ _

variable (priority) in
/-- The engine's hook grants the slot for a later hash to a session that is served. -/
theorem holds_offered {granted : Option Hash16} {req_hash : Hash16} {file_priority : Int} {payload : Bytes}
    (hphase : uploader.session.phase = .serving granted file_priority)
    (hreceived : turn.received = .packet STARTUPLOADREQ payload) (hhash : req_hash.val = payload.take 16)
    (hoffers : Offers turn uploader.session.hello req_hash file_priority) :
    (uploader.step priority turn).2.session.phase = .serving granted file_priority ∧
      ¬ turn.queue.holds_slot (uploader.session.hello.key req_hash) ∧
      (uploader.step priority turn).1.holds_slot (uploader.session.hello.key req_hash) := by
  obtain ⟨enqueued, taken, henqueue, htake⟩ := hoffers
  have hlength : 16 ≤ payload.length := by
    have htaken := req_hash.property
    rw [hhash, List.length_take] at htaken
    omega
  have hrequest : uploader.session.step turn.queue (uploader.circumstances priority turn) turn.received =
      uploader.session.engine_request turn.queue (turn.moments 0) (turn.moments 1) req_hash file_priority := by
    have hsame : (⟨payload.take 16, List.length_take_of_le hlength⟩ : Hash16) = req_hash := Subtype.ext hhash.symm
    unfold Session.step
    rw [hphase, hreceived]
    simp only
    rw [if_neg (by decide), if_pos trivial, dif_pos hlength, hsame]
    rfl
  have hsession := (engine_request_slots uploader.session turn.queue (turn.moments 0) (turn.moments 1) req_hash
    file_priority).1
  rw [Uploader.step]
  simp only
  rw [hrequest, hsession]
  exact ⟨hphase, engine_request_takes uploader.session turn.queue henqueue htake⟩

/-- A step keeps to the file of the session exactly where the session gets no slot for another hash. -/
theorem ownSlot_iff (hknows : KnowsFile uploader.shared_file uploader.session) :
    uploader.OwnSlot priority turn ↔ uploader.Constant turn := by
  constructor
  · intro hown
    rw [Uploader.Constant]
    cases hphase : uploader.session.phase with
    | queue_hold file_hash file_priority =>
      have hrequested : uploader.session.phase ≠ .before_request := by rw [hphase]; simp
      cases hreceived : turn.received with
      | packet opcode payload =>
        rintro rfl hopens re_hash hparse hother hoffers
        have hserving := serves_offered priority hphase hreceived hopens hparse hoffers
        exact hother ((shares_step_iff hrequested re_hash).mp (hown.granted _ _ hserving))
      | _ => trivial
    | serving granted file_priority =>
      have hrequested : uploader.session.phase ≠ .before_request := by rw [hphase]; simp
      cases hreceived : turn.received with
      | packet opcode payload =>
        rintro rfl req_hash hhash hother hoffers
        obtain ⟨hserving, hfree, hheld⟩ := holds_offered priority hphase hreceived hhash hoffers
        exact hother ((shares_step_iff hrequested req_hash).mp (hown.taken _ _ hserving _ hfree hheld))
      | _ => trivial
    | _ => trivial
  · intro hconstant
    have hkeeps := keepsFile_step priority hknows hconstant
    refine ⟨?_, ?_, fun key => released_slot hknows⟩
    · intro file_hash file_priority hphase
      obtain ⟨resolved_hash, file, hfile, hgranted⟩ := hkeeps.knows.served _ _ hphase
      rw [hgranted file_hash rfl]
      exact ⟨file, hfile⟩
    · intro granted file_priority hphase file_hash hfree hheld
      exact hkeeps.taken granted file_priority hphase file_hash hfree hheld

end Steps

/-- In every run of a session, whatever is in the queue, the slots are those of the served file exactly if the
session is granted no slot for a hash that it asks for later. -/
theorem serves_own_slot_iff {File : Type} (priority : File → Int) (hello : Requester) (turns : List (Turn File)) :
    AllSteps (fun uploader turn => (uploader.step priority turn).2) (Uploader.start hello)
        (fun uploader turn => uploader.OwnSlot priority turn) turns ↔
      AllSteps (fun uploader turn => (uploader.step priority turn).2) (Uploader.start hello)
        (fun uploader turn => uploader.Constant turn) turns := by
  let kept := fun uploader : Uploader File => KnowsFile uploader.shared_file uploader.session
  have hstart : kept (Uploader.start hello) := knowsFile_start none hello
  have hstep : ∀ uploader turn, kept uploader → uploader.Constant turn → kept (uploader.step priority turn).2 :=
    fun uploader turn hknows hconstant => (keepsFile_step priority hknows hconstant).knows
  exact allSteps_iff_of_invariant hstart hstep (fun uploader turn hknows => ownSlot_iff hknows) turns

section Sample

/-- A peer that still waits for a file from an earlier connection asks for another one, while the only slot is
taken. -/
def sampleHeld : Turn Unit where
  queue := ⟨1, 600, [UploadQueue.newcomer 1 ((samplePeers 1).key (sampleHash 8)) 0 4662 "" 1],
    [((samplePeers 0).key (sampleHash 7), 1)]⟩
  moments _ := ⟨2, fun _ _ => none⟩
  resolve _ := some ()
  source_opens := true
  received := sampleRequest

/-- The session that is held. -/
def sampleWaiting : UploadQueue × Uploader Unit := (Uploader.start (samplePeers 1)).step (fun _ => 1) sampleHeld

/-- The slot was released, and the peer asks for the file of the earlier connection. -/
def sampleSwitch : Turn Unit where
  queue := sampleWaiting.1.del_slot ((samplePeers 0).key (sampleHash 7))
  moments _ := ⟨3, fun _ _ => none⟩
  resolve _ := some ()
  source_opens := true
  received := .packet STARTUPLOADREQ (sampleHash 8).val

theorem serves_other_file :
    ¬ ∀ (hello : Requester) (turns : List (Turn Unit)),
      AllSteps (fun uploader turn => (uploader.step (fun _ => 1) turn).2) (Uploader.start hello)
        (fun uploader turn => uploader.OwnSlot (fun _ => 1) turn) turns := by
  intro hall
  have hsteps := hall (samplePeers 1) [sampleHeld, sampleSwitch]
  rw [allSteps_cons, allSteps_cons] at hsteps
  have hown : sampleWaiting.2.OwnSlot (fun _ => 1) sampleSwitch := hsteps.2.1
  have hphase : (sampleWaiting.2.step (fun _ => 1) sampleSwitch).2.session.phase =
      .serving (some (sampleHash 8)) 1 := by decide +kernel
  have hfile : (sampleWaiting.2.step (fun _ => 1) sampleSwitch).2.shared_file = some (sampleHash 7, ()) := by
    decide +kernel
  obtain ⟨file, hshared⟩ := hown.granted (sampleHash 8) 1 hphase
  rw [hfile] at hshared
  have hsame := (Prod.mk.inj (Option.some.inj hshared)).1
  exact absurd hsame (by decide)

end Sample

end amuled.peer
