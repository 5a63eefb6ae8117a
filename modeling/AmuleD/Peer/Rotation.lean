import Mathlib.Data.Finset.Card
import AmuleD.Peer.Settled
import AmuleD.Runs

namespace amuled.peer

open amuled.upload

/-- What a change that takes no slot away leaves of the slot table. -/
structure Grown (queue grown : UploadQueue) : Prop where
  limit : grown.max_slots = queue.max_slots
  kept : ∀ key, queue.holds_slot key → grown.holds_slot key
  normal : ∀ key, grown.holds_slot key → queue.holds_slot key ∨ normalize_key key.1 key.2 = .ok key
  capacity : queue._slots.length ≤ max 0 queue.max_slots → grown._slots.length ≤ max 0 grown.max_slots

namespace Grown

variable {queue middle grown : UploadQueue}

theorem refl (queue : UploadQueue) : Grown queue queue := ⟨rfl, fun _ => id, fun _ => .inl, id⟩

theorem trans (hfirst : Grown queue middle) (hnext : Grown middle grown) : Grown queue grown where
  limit := hnext.limit.trans hfirst.limit
  kept key hkey := hnext.kept key (hfirst.kept key hkey)
  normal key hkey := (hnext.normal key hkey).elim (hfirst.normal key) .inr
  capacity hcapacity := hnext.capacity (hfirst.capacity hcapacity)

theorem of_slots_eq (hslots : grown._slots = queue._slots) (hlimit : grown.max_slots = queue.max_slots) :
    Grown queue grown := by
  have hholds : ∀ key, grown.holds_slot key ↔ queue.holds_slot key := by
    intro key
    rw [UploadQueue.holds_slot, UploadQueue.holds_slot, hslots]
  refine ⟨hlimit, fun key => (hholds key).mpr, fun key hkey => .inl ((hholds key).mp hkey), ?_⟩
  rw [hslots, hlimit]
  exact id

end Grown

section Queue

variable {queue after : UploadQueue} {moment : Moment} {hello : Requester} {file_hash : Hash16}

theorem grown_enqueue_peer {file_priority : Int}
    (henqueue : enqueue_peer queue moment hello file_hash file_priority = .ok after) : Grown queue after := by
  obtain ⟨rank, heq⟩ := enqueue_eq queue moment hello.client_id hello.client_port hello.nickname
    file_priority (normalize_key_hello hello file_hash)
  rw [enqueue_peer, heq, ok_bind] at henqueue
  obtain rfl := Except.ok.inj henqueue
  split_ifs
  · exact .of_slots_eq rfl rfl
  · exact .of_slots_eq rfl rfl
  · exact .of_slots_eq rfl rfl

theorem grown_take_slot (htake : take_slot queue moment (hello.key file_hash) = some after) : Grown queue after := by
  have hslots := (take_slot_some htake).2.2
  rw [take_slot] at htake
  split at htake
  · cases hgrant : queue.grant_slot moment (hello.key file_hash).1 (hello.key file_hash).2 with
    | error e =>
      rw [hgrant] at htake
      cases htake
    | ok granted =>
      rw [hgrant] at htake
      obtain rfl := Option.some.inj htake
      obtain ⟨hgrantable, rfl⟩ := (grant_slot_eq_ok_iff (normalize_key_hello hello file_hash)).mp hgrant
      refine ⟨rfl, fun key hkey => (hslots key).mpr (.inl hkey), ?_, ?_⟩
      · intro key hkey
        rcases (hslots key).mp hkey with hold | rfl
        · exact .inl hold
        · exact .inr (normalize_key_hello hello file_hash)
      · intro _
        have hroom := hgrantable.2.1
        simp only [UploadQueue.recompute, UploadQueue.pop_waiting, List.length_append, List.length_singleton]
        omega
  · cases htake

theorem del_slot_of_not_holds {key : Key} (hslot : ¬ queue.holds_slot key) : queue.del_slot key = queue := by
  have hall : queue._slots.filter (fun slot => slot.1 ≠ key) = queue._slots := by
    rw [List.filter_eq_self]
    intro slot hmem
    exact decide_eq_true fun heq => hslot (heq ▸ List.mem_map_of_mem hmem)
  rw [UploadQueue.del_slot, hall]

theorem release_slot_eq (queue : UploadQueue) {key : Key} (hnormal : normalize_key key.1 key.2 = .ok key) :
    queue.release_slot key.1 key.2 = .ok (decide (queue.holds_slot key), queue.del_slot key) := by
  rw [UploadQueue.release_slot, hnormal, ok_bind]
  by_cases hslot : queue.holds_slot key
  · rw [if_pos hslot, decide_eq_true hslot]
    rfl
  · rw [if_neg hslot, decide_eq_false hslot, del_slot_of_not_holds hslot]
    rfl

@[simp] theorem holds_slot_del_slot {key other : Key} :
    (queue.del_slot key).holds_slot other ↔ queue.holds_slot other ∧ other ≠ key := by
  simp only [UploadQueue.holds_slot, UploadQueue.del_slot, List.mem_map, List.mem_filter, decide_eq_true_eq]
  constructor
  · rintro ⟨slot, ⟨hmem, hne⟩, rfl⟩
    exact ⟨⟨slot, hmem, rfl⟩, hne⟩
  · rintro ⟨⟨slot, hmem, rfl⟩, hne⟩
    exact ⟨slot, ⟨hmem, hne⟩, rfl⟩

theorem length_del_slot_le (queue : UploadQueue) (key : Key) :
    (queue.del_slot key)._slots.length ≤ queue._slots.length := List.filter_sublist.length_le

/-- The timer takes the expired slots away, and no other. -/
theorem rotate_slots {keys : List Key} (hnormal : ∀ key ∈ keys, normalize_key key.1 key.2 = .ok key) :
    (keys.foldl reclaim queue).max_slots = queue.max_slots ∧
      (keys.foldl reclaim queue)._slots.length ≤ queue._slots.length ∧
      ∀ key, (keys.foldl reclaim queue).holds_slot key ↔ queue.holds_slot key ∧ key ∉ keys := by
  induction keys generalizing queue with
  | nil => exact ⟨rfl, le_rfl, fun key => by simp⟩
  | cons first keys ih =>
    rw [List.forall_mem_cons] at hnormal
    have hfirst : reclaim queue first = queue.del_slot first := by
      rw [reclaim, release_slot_eq queue hnormal.1]
    obtain ⟨hlimit, hlength, hslots⟩ := @ih (queue.del_slot first) hnormal.2
    rw [List.foldl_cons, hfirst]
    refine ⟨hlimit, hlength.trans (length_del_slot_le queue first), ?_⟩
    intro key
    rw [hslots, holds_slot_del_slot, List.mem_cons, not_or, and_assoc]

end Queue

/-- What a step of one session does to the slot table, and to the slot that the session is served in. -/
inductive Footprint (queue : UploadQueue) (session : Session) (stepped : UploadQueue × Session) : Prop
  | grown (hgrown : Grown queue stepped.1) (hserves : ∀ key, stepped.2.Serves key →
      session.Serves key ∨ stepped.1.holds_slot key ∧ ¬ queue.holds_slot key)
  | finished (key : Key) (hserves : session.Serves key) (hqueue : stepped.1 = queue.del_slot key)
      (hidle : ∀ other, ¬ stepped.2.Serves other)

section Step

variable {queue : UploadQueue} {session : Session} {circumstances : Circumstances}

theorem not_serves_ended (session : Session) (key : Key) : ¬ (session.go .ended).Serves key :=
  Session.not_serves (fun _ _ h => by cases h) key

theorem footprint_unchanged {stepped : Session} (hserves : ∀ key, stepped.Serves key → session.Serves key) :
    Footprint queue session (queue, stepped) := .grown (.refl queue) fun key hkey => .inl (hserves key hkey)

/-- The engine's hook takes no slot away, and the session is served as before or not at all. -/
theorem grown_engine_request (session : Session) (queue : UploadQueue) (enqueued granted : Moment)
    (req_hash : Hash16) (file_priority : Int) :
    Grown queue (session.engine_request queue enqueued granted req_hash file_priority).1 ∧
      ∀ key, (session.engine_request queue enqueued granted req_hash file_priority).2.Serves key →
        session.Serves key := by
  by_cases hactive : queue.holds_slot (session.hello.key req_hash)
  · rw [engine_request_active hactive]
    exact ⟨.refl queue, fun key => id⟩
  · obtain ⟨waiting, henqueue, -⟩ := enqueue_peer_ok queue enqueued session.hello req_hash file_priority
    have hwaiting := grown_enqueue_peer henqueue
    simp only [Session.engine_request, on_start_upload_request, is_active_hello, hactive, decide_false, ok_bind,
      henqueue, Bool.false_eq_true, if_false]
    cases htake : take_slot waiting granted (session.hello.key req_hash) with
    | none => exact ⟨hwaiting, fun key => id⟩
    | some taken => exact ⟨hwaiting.trans (grown_take_slot htake), fun key => id⟩

/-- On the accept path the session is served in the slot that it was granted, if it was granted one. -/
theorem grown_accept (session : Session) (queue : UploadQueue) (circumstances : Circumstances)
    (granted : Option Hash16) (file_hash : Hash16) (file_priority : Int) :
    Grown queue (session.accept queue circumstances granted file_hash file_priority).1 ∧
      ∀ key, (session.accept queue circumstances granted file_hash file_priority).2.Serves key →
        ∃ granted_hash, granted = some granted_hash ∧ session.hello.key granted_hash = key := by
  rw [Session.accept]
  split
  · obtain ⟨hgrown, hserves⟩ := grown_engine_request (session.go (.serving granted file_priority)) queue
      (circumstances.moments 2) (circumstances.moments 3) file_hash file_priority
    refine ⟨hgrown, fun key hkey => ?_⟩
    obtain ⟨granted_hash, _, hphase, hsame⟩ := hserves key hkey
    cases hphase
    exact ⟨granted_hash, rfl, hsame⟩
  · exact ⟨.refl queue, fun key hkey => absurd hkey (not_serves_ended session key)⟩

/-- A session that takes a slot is served in it, and the slot is new. -/
theorem footprint_taken {enqueued taken : UploadQueue} {asking : Session} {moment : Moment}
    {granted_hash file_hash : Hash16} {file_priority : Int} (hhello : asking.hello = session.hello)
    (henqueued : Grown queue enqueued)
    (htake : take_slot enqueued moment (session.hello.key granted_hash) = some taken) :
    Footprint queue session
      (asking.accept taken circumstances (some granted_hash) file_hash file_priority) := by
  obtain ⟨hfree, -, hslots⟩ := take_slot_some htake
  obtain ⟨hgrown, hserves⟩ := grown_accept asking taken circumstances (some granted_hash) file_hash file_priority
  refine .grown ((henqueued.trans (grown_take_slot htake)).trans hgrown) fun key hkey => .inr ?_
  obtain ⟨same_hash, hsame, rfl⟩ := hserves key hkey
  cases hsame
  rw [hhello]
  exact ⟨hgrown.kept _ ((hslots _).mpr (.inr rfl)), fun hold => hfree (henqueued.kept _ hold)⟩

theorem footprint_request (payload : Bytes) :
    Footprint queue session (session.request queue circumstances payload) := by
  have hended : ∀ key, (session.go .ended).Serves key → session.Serves key :=
    fun key hkey => absurd hkey (not_serves_ended session key)
  rw [Session.request]
  cases hparse : parse_file_hash_payload payload with
  | error e => exact footprint_unchanged hended
  | ok file_hash =>
    cases hresolved : circumstances.resolved with
    | none => exact footprint_unchanged hended
    | some file_priority =>
      simp only [is_active_hello]
      by_cases hactive : queue.holds_slot (session.hello.key file_hash)
      · obtain ⟨hgrown, hserves⟩ := grown_accept (session.ask file_hash) queue circumstances none file_hash
          file_priority
        simp only [hactive, decide_true]
        refine .grown hgrown fun key hkey => ?_
        obtain ⟨_, hnone, -⟩ := hserves key hkey
        cases hnone
      · obtain ⟨enqueued, henqueue, -⟩ := enqueue_peer_ok queue (circumstances.moments 0) session.hello file_hash
          file_priority
        have henqueued := grown_enqueue_peer henqueue
        simp only [hactive, decide_false, henqueue]
        cases htake : take_slot enqueued (circumstances.moments 1) (session.hello.key file_hash) with
        | none =>
          refine .grown henqueued fun key hkey => absurd hkey ?_
          exact Session.not_serves (fun _ _ h => by cases h) key
        | some taken => exact footprint_taken rfl henqueued htake

theorem footprint_request_again (file_hash : Hash16) (file_priority : Int) (payload : Bytes) :
    Footprint queue session
      (session.request_again queue circumstances file_hash file_priority payload) := by
  rw [Session.request_again]
  cases hparse : parse_file_hash_payload payload with
  | error e => exact footprint_unchanged fun key hkey => absurd hkey (not_serves_ended session key)
  | ok re_hash =>
    obtain ⟨enqueued, henqueue, -⟩ := enqueue_peer_ok queue (circumstances.moments 0) session.hello re_hash
      file_priority
    have henqueued := grown_enqueue_peer henqueue
    simp only [henqueue]
    cases htake : take_slot enqueued (circumstances.moments 1) (session.hello.key re_hash) with
    | none => exact .grown henqueued fun key hkey => .inl hkey
    | some taken => exact footprint_taken rfl henqueued htake

theorem footprint_finish {granted : Option Hash16} {file_priority : Int}
    (hphase : session.phase = .serving granted file_priority) :
    Footprint queue session (session.finish queue granted) := by
  cases granted with
  | none =>
    refine footprint_unchanged fun key hkey => absurd hkey ?_
    exact Session.not_serves (fun _ _ h => by cases h) key
  | some file_hash =>
    simp only [Session.finish, release_slot_eq queue (normalize_key_hello session.hello file_hash)]
    exact .finished _ ⟨file_hash, file_priority, hphase, rfl⟩ rfl
      (Session.not_serves fun _ _ h => by cases h)

theorem footprint_step (session : Session) (queue : UploadQueue) (circumstances : Circumstances)
    (received : Received) : Footprint queue session (session.step queue circumstances received) := by
  have hended : ∀ key, (session.go .ended).Serves key → session.Serves key :=
    fun key hkey => absurd hkey (not_serves_ended session key)
  have hsame : ∀ key, session.Serves key → session.Serves key := fun _ => id
  unfold Session.step
  cases hphase : session.phase with
  | before_request =>
    cases received with
    | packet opcode payload =>
      by_cases hrequest : opcode = STARTUPLOADREQ
      · simp only [if_pos hrequest]
        exact footprint_request payload
      · simp only [if_neg hrequest]
        exact footprint_unchanged hsame
    | eof => exact footprint_unchanged hended
    | timeout => exact footprint_unchanged hsame
    | exception => exact footprint_unchanged hended
  | queue_hold file_hash file_priority =>
    cases received with
    | packet opcode payload =>
      simp only
      split_ifs
      · exact footprint_request_again file_hash file_priority payload
      · exact footprint_unchanged hended
      · exact footprint_unchanged hsame
    | eof => exact footprint_unchanged hended
    | timeout =>
      simp only
      cases htake : take_slot queue (circumstances.moments 1) (session.hello.key file_hash) with
      | none => exact footprint_unchanged hsame
      | some taken => exact footprint_taken rfl (.refl queue) htake
    | exception => exact footprint_unchanged hended
  | serving granted file_priority =>
    cases received with
    | packet opcode payload =>
      simp only
      split_ifs with hleave hrequest hlength
      · exact footprint_finish hphase
      · obtain ⟨hgrown, hserves⟩ := grown_engine_request session queue (circumstances.moments 0)
          (circumstances.moments 1) ⟨payload.take 16, List.length_take_of_le hlength⟩ file_priority
        exact .grown hgrown fun key hkey => .inl (hserves key hkey)
      · exact footprint_unchanged hsame
      · exact footprint_unchanged hsame
    | eof => exact footprint_finish hphase
    | timeout => exact footprint_unchanged hsame
    | exception => exact footprint_unchanged hended
  | draining =>
    cases received with
    | packet opcode payload => exact footprint_unchanged hsame
    | eof => exact footprint_unchanged hended
    | timeout => exact footprint_unchanged hsame
    | exception => exact footprint_unchanged hended
  | ended => exact footprint_unchanged hsame

end Step

/-- The listener, beside a record of the session to which each slot was last granted. -/
structure Watched where
  listener : Listener
  granted_to : Key → Option Nat

namespace Watched

def start (max_slots : Int) (slot_ttl : ℚ) (peers : Nat → Requester) : Watched :=
  ⟨.start max_slots slot_ttl peers, fun _ => none⟩

/-- A slot that is new after a step of a session was granted to that session. -/
def after (watched : Watched) (event : ListenerEvent) : Watched where
  listener := watched.listener.after event
  granted_to key :=
    match event with
    | .rotate _ => watched.granted_to key
    | .session i _ _ =>
      if (watched.listener.after event).queue.holds_slot key ∧ ¬ watched.listener.queue.holds_slot key then some i
      else watched.granted_to key

theorem listener_foldl_after (watched : Watched) (events : List ListenerEvent) :
    (events.foldl after watched).listener = watched.listener.run events := by
  induction events generalizing watched with
  | nil => rfl
  | cons event events ih => exact ih (watched.after event)

/-- No more sessions are served in slots of their own than there are slots, and a session takes no slot out of
the table but one that was granted to it. -/
structure Honored (max_slots : Int) (watched : Watched) : Prop where
  bounded : ∀ served : Finset Nat, (∀ i ∈ served, ∃ key, (watched.listener.sessions i).Serves key) →
    (served.card : Int) ≤ max 0 max_slots
  released : ∀ i circumstances received key, watched.listener.queue.holds_slot key →
    ¬ (watched.listener.after (.session i circumstances received)).queue.holds_slot key →
      watched.granted_to key = some i

/-- The timer finds no slot expired in which a session is still served. -/
def SparesServed (watched : Watched) : ListenerEvent → Prop
  | .session _ _ _ => True
  | .rotate now =>
    ∀ i key, (watched.listener.sessions i).Serves key → key ∉ watched.listener.queue.expired_slots now

/-- Every session that is served in a slot of its own still holds it. -/
structure Owned (max_slots : Int) (watched : Watched) : Prop where
  limit : watched.listener.queue.max_slots = max_slots
  capacity : watched.listener.queue._slots.length ≤ max 0 watched.listener.queue.max_slots
  normal : ∀ key, watched.listener.queue.holds_slot key → normalize_key key.1 key.2 = .ok key
  own : ∀ i key, (watched.listener.sessions i).Serves key →
    watched.listener.queue.holds_slot key ∧ watched.granted_to key = some i

theorem owned_start (max_slots : Int) (slot_ttl : ℚ) (peers : Nat → Requester) :
    Owned max_slots (.start max_slots slot_ttl peers) where
  limit := rfl
  capacity := le_max_left 0 max_slots
  normal _ hkey := absurd hkey List.not_mem_nil
  own _ key hserves := absurd hserves (Session.not_serves (fun _ _ h => by cases h) key)

section Step

variable {max_slots : Int} {watched : Watched}

theorem Owned.session (howned : Owned max_slots watched) (i : Nat) (circumstances : Circumstances)
    (received : Received) : Owned max_slots (watched.after (.session i circumstances received)) := by
  have hothers : ∀ j, j ≠ i → (watched.after (.session i circumstances received)).listener.sessions j =
      watched.listener.sessions j := fun j hne => Function.update_of_ne hne _ _
  have hself : (watched.after (.session i circumstances received)).listener.sessions i =
      ((watched.listener.sessions i).step watched.listener.queue circumstances received).2 :=
    Function.update_self _ _ _
  have hold : ∀ key, watched.listener.queue.holds_slot key →
      (watched.after (.session i circumstances received)).granted_to key = watched.granted_to key :=
    fun key hkey => if_neg fun hnew => hnew.2 hkey
  cases footprint_step (watched.listener.sessions i) watched.listener.queue circumstances received with
  | grown hgrown hserves =>
    refine ⟨hgrown.limit.trans howned.limit, hgrown.capacity howned.capacity, ?_, ?_⟩
    · intro key hkey
      exact (hgrown.normal key hkey).elim (howned.normal key) id
    · intro j key hkey
      by_cases hsame : j = i
      · subst hsame
        rw [hself] at hkey
        rcases hserves key hkey with hbefore | ⟨hnew, hfree⟩
        · obtain ⟨hslot, hgranted⟩ := howned.own j key hbefore
          exact ⟨hgrown.kept key hslot, (hold key hslot).trans hgranted⟩
        · exact ⟨hnew, if_pos ⟨hnew, hfree⟩⟩
      · rw [hothers j hsame] at hkey
        obtain ⟨hslot, hgranted⟩ := howned.own j key hkey
        exact ⟨hgrown.kept key hslot, (hold key hslot).trans hgranted⟩
  | finished key hserves hqueue hidle =>
    have hafter : (watched.after (.session i circumstances received)).listener.queue =
        watched.listener.queue.del_slot key := hqueue
    have hcapacity := howned.capacity
    have hlength := length_del_slot_le watched.listener.queue key
    refine ⟨by rw [hafter]; exact howned.limit, ?_, ?_, ?_⟩
    · rw [hafter]
      exact le_trans (Int.ofNat_le.mpr hlength) hcapacity
    · intro other hother
      rw [hafter, holds_slot_del_slot] at hother
      exact howned.normal other hother.1
    · intro j other hother
      by_cases hsame : j = i
      · subst hsame
        rw [hself] at hother
        exact absurd hother (hidle other)
      · rw [hothers j hsame] at hother
        obtain ⟨hslot, hgranted⟩ := howned.own j other hother
        have hne : other ≠ key := by
          rintro rfl
          have hboth := hgranted.symm.trans (howned.own i other hserves).2
          exact hsame (Option.some.inj hboth)
        rw [hafter, holds_slot_del_slot]
        exact ⟨⟨hslot, hne⟩, (hold other hslot).trans hgranted⟩

theorem Owned.rotate (howned : Owned max_slots watched) {now : ℚ} (hspares : watched.SparesServed (.rotate now)) :
    Owned max_slots (watched.after (.rotate now)) := by
  have hnormal : ∀ key ∈ watched.listener.queue.expired_slots now, normalize_key key.1 key.2 = .ok key := by
    intro key hkey
    obtain ⟨slot, hmem, rfl⟩ := List.mem_map.mp hkey
    exact howned.normal slot.1 (List.mem_map_of_mem (List.mem_of_mem_filter hmem))
  obtain ⟨hlimit, hlength, hslots⟩ := @rotate_slots watched.listener.queue _ hnormal
  have hcapacity := howned.capacity
  refine ⟨hlimit.trans howned.limit, ?_, ?_, ?_⟩
  · change (((watched.listener.queue.expired_slots now).foldl reclaim watched.listener.queue)._slots.length : Int) ≤
      max 0 ((watched.listener.queue.expired_slots now).foldl reclaim watched.listener.queue).max_slots
    rw [hlimit]
    exact le_trans (Int.ofNat_le.mpr hlength) hcapacity
  · intro key hkey
    exact howned.normal key ((hslots key).mp hkey).1
  · intro i key hserves
    obtain ⟨hslot, hgranted⟩ := howned.own i key hserves
    exact ⟨(hslots key).mpr ⟨hslot, hspares i key hserves⟩, hgranted⟩

theorem Owned.after (howned : Owned max_slots watched) {event : ListenerEvent} (hspares : watched.SparesServed event) :
    Owned max_slots (watched.after event) := by
  cases event with
  | session i circumstances received => exact howned.session i circumstances received
  | rotate now => exact howned.rotate hspares

/-- Sessions that hold a slot each hold different ones, so that the table counts them. -/
theorem Owned.honored (howned : Owned max_slots watched) : Honored max_slots watched := by
  constructor
  · intro served hserved
    choose! slot hslot using hserved
    have hmaps : ∀ i ∈ served, slot i ∈ (watched.listener.queue._slots.map Prod.fst).toFinset :=
      fun i hi => List.mem_toFinset.mpr (howned.own i (slot i) (hslot i hi)).1
    have hinj : Set.InjOn slot served := by
      intro i hi j hj hsame
      have hgranted := (howned.own j (slot j) (hslot j hj)).2
      rw [← hsame, (howned.own i (slot i) (hslot i hi)).2] at hgranted
      exact Option.some.inj hgranted
    have hcard := Finset.card_le_card_of_injOn slot hmaps hinj
    have hlength := List.toFinset_card_le (watched.listener.queue._slots.map Prod.fst)
    have hcapacity := howned.capacity
    rw [List.length_map] at hlength
    rw [howned.limit] at hcapacity
    omega
  · intro i circumstances received key hkey hgone
    cases footprint_step (watched.listener.sessions i) watched.listener.queue circumstances received with
    | grown hgrown hserves => exact absurd (hgrown.kept key hkey) hgone
    | finished own hserves hqueue hidle =>
      have hafter : (watched.listener.after (.session i circumstances received)).queue =
          watched.listener.queue.del_slot own := hqueue
      rw [hafter, holds_slot_del_slot, not_and_not_right] at hgone
      rw [hgone hkey]
      exact (howned.own i own hserves).2

end Step

end Watched

/-- A peer is served across a round of the timer, and another one after it. -/
def sampleTurns : List ListenerEvent :=
  [.session 0 (sampleCircumstances 1) sampleRequest, .rotate 30, .session 0 (sampleCircumstances 40) .eof,
    .session 1 (sampleCircumstances 50) sampleRequest]

/-- A client connects again for the same file, after the timer reclaimed the slot in which it is still served. -/
def sampleReclaimed : Watched :=
  [ListenerEvent.session 0 (sampleCircumstances 0) sampleRequest, .rotate 600,
    .session 1 (sampleCircumstances 601) sampleRequest].foldl Watched.after
      (.start 1 600 fun _ => samplePeers 0)

theorem sampleReclaimed_serves : ∀ i ∈ ({0, 1} : Finset Nat),
    (sampleReclaimed.listener.sessions i).Serves ((samplePeers 0).key (sampleHash 7)) := by
  have hphases : ∀ i ∈ ({0, 1} : Finset Nat),
      (sampleReclaimed.listener.sessions i).phase = .serving (some (sampleHash 7)) 1 ∧
        (sampleReclaimed.listener.sessions i).hello.key (sampleHash 7) = (samplePeers 0).key (sampleHash 7) := by
    decide +kernel
  intro i hi
  exact ⟨sampleHash 7, 1, hphases i hi⟩

theorem rotation_releases_slot_of_other :
    sampleReclaimed.listener.queue.holds_slot ((samplePeers 0).key (sampleHash 7)) ∧
      sampleReclaimed.granted_to ((samplePeers 0).key (sampleHash 7)) = some 1 ∧
      ¬ (sampleReclaimed.listener.after (.session 0 (sampleCircumstances 602) .eof)).queue.holds_slot
        ((samplePeers 0).key (sampleHash 7)) := by
  decide +kernel

end amuled.peer
