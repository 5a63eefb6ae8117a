import Mathlib.Tactic.IntervalCases
import AmuleD.Peer.Incoming

namespace amuled.peer

open amuled.upload

theorem digitChar_hex {n : Nat} (hn : n < 16) : isspace (Nat.digitChar n) = false ∧
    (Nat.digitChar n).toLower = Nat.digitChar n ∧ isHexDigit (Nat.digitChar n) = true := by
  interval_cases n <;> decide

theorem length_hex_lower (raw : Bytes) : (hex_lower raw).toList.length = 2 * raw.length := by
  rw [hex_lower, String.toList_ofList]
  induction raw with
  | nil => rfl
  | cons byte raw ih =>
    rw [List.flatMap_cons, List.length_append, ih, List.length_cons, List.length_cons, List.length_cons,
      List.length_nil]
    omega

theorem mem_hex_lower {raw : Bytes} {c : Char} (hc : c ∈ (hex_lower raw).toList) :
    isspace c = false ∧ c.toLower = c ∧ isHexDigit c = true := by
  rw [hex_lower, String.toList_ofList, List.mem_flatMap] at hc
  obtain ⟨byte, -, hc⟩ := hc
  have hbyte := byte.toNat_lt
  rcases List.mem_cons.mp hc with rfl | hc
  · exact digitChar_hex (by omega)
  · obtain rfl := List.mem_singleton.mp hc
    exact digitChar_hex (by omega)

theorem dropWhile_isspace {text : List Char} (htext : ∀ c ∈ text, isspace c = false) :
    text.dropWhile isspace = text := by
  cases text with
  | nil => rfl
  | cons c text =>
    rw [List.dropWhile_cons_of_neg]
    simp [htext c List.mem_cons_self]

theorem strip_hex_lower (raw : Bytes) : strip (hex_lower raw).toList = (hex_lower raw).toList := by
  have hdigits : ∀ c ∈ (hex_lower raw).toList, isspace c = false := fun c hc => (mem_hex_lower hc).1
  rw [strip, dropWhile_isspace hdigits, dropWhile_isspace, List.reverse_reverse]
  intro c hc
  exact hdigits c (List.mem_reverse.mp hc)

theorem map_toLower_hex_lower (raw : Bytes) : (hex_lower raw).toList.map Char.toLower = (hex_lower raw).toList := by
  rw [List.map_congr_left fun c hc => (mem_hex_lower hc).2.1]
  exact List.map_id' _

/-- A hash in lower-case hexadecimal digits is kept as it is by the queue. -/
theorem normalize_hex_lower (hash : Hash16) : normalize_hash (hex_lower hash.val) = .ok (hex_lower hash.val) := by
  have hlength : (hex_lower hash.val).toList.length = 32 := by
    rw [length_hex_lower, hash.property]
  have hall : (hex_lower hash.val).toList.all isHexDigit = true :=
    List.all_eq_true.mpr fun c hc => (mem_hex_lower hc).2.2
  rw [normalize_hash]
  simp only [strip_hex_lower, map_toLower_hex_lower]
  rw [if_pos ⟨hlength, hall⟩, String.ofList_toList]
  rfl

theorem digitChar_inj : ∀ m n : Fin 16, Nat.digitChar m = Nat.digitChar n → m = n := by decide

/-- Different bytes have different hexadecimal digits. -/
theorem hex_lower_injective : Function.Injective hex_lower := by
  intro raw other hsame
  have hdigits := congrArg String.toList hsame
  simp only [hex_lower, String.toList_ofList] at hdigits
  clear hsame
  induction raw generalizing other with
  | nil =>
    cases other with
    | nil => rfl
    | cons byte other => simp at hdigits
  | cons byte raw ih =>
    cases other with
    | nil => simp at hdigits
    | cons byte' other =>
      simp only [List.flatMap_cons, List.cons_append, List.nil_append, List.cons.injEq] at hdigits
      obtain ⟨hhigh, hlow, hrest⟩ := hdigits
      have hbyte := byte.toNat_lt
      have hbyte' := byte'.toNat_lt
      have hhighs := congrArg Fin.val (digitChar_inj ⟨byte.toNat / 16, by omega⟩ ⟨byte'.toNat / 16, by omega⟩ hhigh)
      have hlows := congrArg Fin.val (digitChar_inj ⟨byte.toNat % 16, by omega⟩ ⟨byte'.toNat % 16, by omega⟩ hlow)
      have hvalue : byte.toNat = byte'.toNat := by
        simp only at hhighs hlows
        omega
      rw [UInt8.toNat.inj hvalue, ih hrest]

@[simp] theorem normalize_key_hello (hello : Requester) (file_hash : Hash16) :
    normalize_key (hello.key file_hash).1 (hello.key file_hash).2 = .ok (hello.key file_hash) := by
  rw [normalize_key, Requester.key, normalize_hex_lower, ok_bind, normalize_hex_lower, ok_bind]
  rfl

section Queue

variable {queue after : UploadQueue} {moment : Moment} {hello : Requester} {file_hash : Hash16}

theorem is_active_hello (queue : UploadQueue) (hello : Requester) (file_hash : Hash16) :
    queue.is_active (hello.key file_hash).1 (hello.key file_hash).2 =
      .ok (decide (queue.holds_slot (hello.key file_hash))) := by
  rw [UploadQueue.is_active, normalize_key_hello, ok_bind]
  rfl

/-- An enqueued client may wait for its key from then on, and nothing else changes in the
tables; where its key is active, nothing changes at all. -/
theorem enqueue_peer_ok (queue : UploadQueue) (moment : Moment) (hello : Requester) (file_hash : Hash16)
    (file_priority : Int) :
    ∃ after, enqueue_peer queue moment hello file_hash file_priority = .ok after ∧
      (∀ key, after.holds_slot key ↔ queue.holds_slot key) ∧
      ∀ key, after.is_waiting key → queue.is_waiting key ∨
        key = hello.key file_hash ∧ ¬ queue.holds_slot (hello.key file_hash) := by
  obtain ⟨rank, henqueue⟩ := enqueue_eq queue moment hello.client_id hello.client_port hello.nickname
    file_priority (normalize_key_hello hello file_hash)
  refine ⟨_, by rw [enqueue_peer, henqueue, ok_bind], ?_, ?_⟩
  · intro key
    split_ifs <;> exact Iff.rfl
  · intro key hkey
    split_ifs at hkey with hwaiting hslot
    · exact .inl ((is_waiting_recompute _).mp hkey)
    · exact .inl ((is_waiting_recompute _).mp ((is_waiting_recompute _).mp hkey))
    · rw [is_waiting_recompute, UploadQueue.is_waiting, List.map_append, List.mem_append] at hkey
      rcases hkey with hkey | hkey
      · exact .inl hkey
      · exact .inr ⟨List.mem_singleton.mp hkey, hslot⟩

/-- A slot that was taken: the client no longer waits, and its key is active. -/
theorem take_slot_some (htake : take_slot queue moment (hello.key file_hash) = some after) :
    ¬ queue.holds_slot (hello.key file_hash) ∧
      (∀ key, after.is_waiting key → queue.is_waiting key ∧ key ≠ hello.key file_hash) ∧
      ∀ key, after.holds_slot key ↔ queue.holds_slot key ∨ key = hello.key file_hash := by
  rw [take_slot] at htake
  split at htake
  · cases hgrant : queue.grant_slot moment (hello.key file_hash).1 (hello.key file_hash).2 with
    | error e =>
      rw [hgrant] at htake
      cases htake
    | ok granted =>
      rw [hgrant] at htake
      obtain rfl := Option.some.inj htake
      obtain ⟨hgrantable, rfl⟩ := (grant_slot_eq_ok_iff (normalize_key_hello hello file_hash)).mp hgrant
      refine ⟨hgrantable.1, ?_, ?_⟩
      · intro key hkey
        rw [is_waiting_recompute] at hkey
        obtain ⟨client, hclient, rfl⟩ := List.mem_map.mp hkey
        obtain ⟨hmem, hne⟩ := List.mem_filter.mp hclient
        exact ⟨List.mem_map_of_mem hmem, of_decide_eq_true hne⟩
      · intro key
        simp [UploadQueue.holds_slot, UploadQueue.recompute, UploadQueue.pop_waiting]
  · cases htake

/-- A slot that is released is active no more. -/
theorem release_slot_ok (queue : UploadQueue) (hello : Requester) (file_hash : Hash16) :
    ∃ released after, queue.release_slot (hello.key file_hash).1 (hello.key file_hash).2 =
        .ok (released, after) ∧ (∀ key, after.is_waiting key ↔ queue.is_waiting key) ∧
      ∀ key, after.holds_slot key → queue.holds_slot key ∧ key ≠ hello.key file_hash := by
  rw [UploadQueue.release_slot, normalize_key_hello, ok_bind]
  by_cases hslot : queue.holds_slot (hello.key file_hash)
  · refine ⟨true, _, if_pos hslot, fun _ => Iff.rfl, ?_⟩
    intro key hkey
    obtain ⟨slot, hslot, rfl⟩ := List.mem_map.mp hkey
    obtain ⟨hmem, hne⟩ := List.mem_filter.mp hslot
    exact ⟨List.mem_map_of_mem hmem, of_decide_eq_true hne⟩
  · refine ⟨false, queue, if_neg hslot, fun _ => Iff.rfl, ?_⟩
    intro key hkey
    exact ⟨hkey, fun heq => hslot (heq ▸ hkey)⟩

/-- A timer takes slots away, and nothing else. -/
theorem foldl_reclaim (keys : List Key) (queue : UploadQueue) :
    (∀ key, (keys.foldl reclaim queue).is_waiting key ↔ queue.is_waiting key) ∧
      ∀ key, (keys.foldl reclaim queue).holds_slot key → queue.holds_slot key := by
  induction keys generalizing queue with
  | nil => exact ⟨fun _ => Iff.rfl, fun _ => id⟩
  | cons first keys ih =>
    have hfirst : (∀ key, (reclaim queue first).is_waiting key ↔ queue.is_waiting key) ∧
        ∀ key, (reclaim queue first).holds_slot key → queue.holds_slot key := by
      rw [reclaim, UploadQueue.release_slot]
      cases normalize_key first.1 first.2 with
      | error e => exact ⟨fun _ => Iff.rfl, fun _ => id⟩
      | ok normalized =>
        rw [ok_bind]
        by_cases hslot : queue.holds_slot normalized
        · rw [if_pos hslot]
          exact ⟨fun _ => Iff.rfl, fun key hkey => (List.filter_sublist.map _).subset hkey⟩
        · rw [if_neg hslot]
          exact ⟨fun _ => Iff.rfl, fun _ => id⟩
    obtain ⟨hwaiting, hslots⟩ := ih (reclaim queue first)
    exact ⟨fun key => (hwaiting key).trans (hfirst.1 key), fun key hkey => hfirst.2 key (hslots key hkey)⟩

end Queue

namespace Session

/-- The session is held in the queue under the key. -/
def Waits (session : Session) (key : Key) : Prop :=
  ∃ file_hash file_priority, session.phase = .queue_hold file_hash file_priority ∧
    session.hello.key file_hash = key

/-- The session is served in the slot that it was granted under the key. -/
def Serves (session : Session) (key : Key) : Prop :=
  ∃ file_hash file_priority, session.phase = .serving (some file_hash) file_priority ∧
    session.hello.key file_hash = key

theorem not_waits {session : Session} (hphase : ∀ file_hash file_priority,
    session.phase ≠ .queue_hold file_hash file_priority) (key : Key) : ¬ session.Waits key := by
  rintro ⟨file_hash, file_priority, heq, -⟩
  exact hphase file_hash file_priority heq

theorem not_serves {session : Session} (hphase : ∀ file_hash file_priority,
    session.phase ≠ .serving (some file_hash) file_priority) (key : Key) : ¬ session.Serves key := by
  rintro ⟨file_hash, file_priority, heq, -⟩
  exact hphase file_hash file_priority heq

theorem waits_iff {session : Session} {file_hash : Hash16} {file_priority : Int}
    (hphase : session.phase = .queue_hold file_hash file_priority) (key : Key) :
    session.Waits key ↔ key = session.hello.key file_hash := by
  constructor
  · rintro ⟨other, other_priority, heq, rfl⟩
    cases hphase.symm.trans heq
    rfl
  · rintro rfl
    exact ⟨file_hash, file_priority, hphase, rfl⟩

theorem serves_iff {session : Session} {file_hash : Hash16} {file_priority : Int}
    (hphase : session.phase = .serving (some file_hash) file_priority) (key : Key) :
    session.Serves key ↔ key = session.hello.key file_hash := by
  constructor
  · rintro ⟨other, other_priority, heq, rfl⟩
    cases hphase.symm.trans heq
    rfl
  · rintro rfl
    exact ⟨file_hash, file_priority, hphase, rfl⟩

end Session

/-- Every key in the tables belongs to a session that waits or is served under it. -/
structure Accounted (listener : Listener) : Prop where
  waiting : ∀ key, listener.queue.is_waiting key → ∃ i, (listener.sessions i).Waits key
  slots : ∀ key, listener.queue.holds_slot key → ∃ i, (listener.sessions i).Serves key

/-- A step of one session accounts for the keys in the tables: each belongs to the session
after the step, or was there before and the session does not give it up alone. -/
structure Accounts (others : Key → Prop) (queue : UploadQueue) (session : Session)
    (stepped : UploadQueue × Session) : Prop where
  waiting : ∀ key, stepped.1.is_waiting key →
    stepped.2.Waits key ∨ queue.is_waiting key ∧ (session.Waits key → others key)
  slots : ∀ key, stepped.1.holds_slot key →
    stepped.2.Serves key ∨ queue.holds_slot key ∧ ¬ session.Serves key

theorem Accounted.session {listener : Listener} (haccounted : Accounted listener) {i : Nat}
    {stepped : UploadQueue × Session}
    (hstep : Accounts (fun key => ∃ j, j ≠ i ∧ (listener.sessions j).Waits key) listener.queue
      (listener.sessions i) stepped) :
    Accounted ⟨stepped.1, Function.update listener.sessions i stepped.2⟩ := by
  constructor
  · intro key hkey
    rcases hstep.waiting key hkey with hwaits | ⟨hold, hothers⟩
    · refine ⟨i, ?_⟩
      simp only [Function.update_self]
      exact hwaits
    · obtain ⟨j, hj⟩ := haccounted.waiting key hold
      obtain ⟨other, hne, hother⟩ : ∃ other, other ≠ i ∧ (listener.sessions other).Waits key := by
        by_cases hsame : j = i
        · exact hothers (hsame ▸ hj)
        · exact ⟨j, hsame, hj⟩
      refine ⟨other, ?_⟩
      simp only [Function.update_of_ne hne]
      exact hother
  · intro key hkey
    rcases hstep.slots key hkey with hserves | ⟨hold, hnot⟩
    · refine ⟨i, ?_⟩
      simp only [Function.update_self]
      exact hserves
    · obtain ⟨j, hj⟩ := haccounted.slots key hold
      have hne : j ≠ i := fun hsame => hnot (hsame ▸ hj)
      refine ⟨j, ?_⟩
      simp only [Function.update_of_ne hne]
      exact hj

section Step

variable {others : Key → Prop} {queue : UploadQueue} {session : Session} {circumstances : Circumstances}

/-- A session that keeps its phase leaves the tables accounted for. -/
theorem accounts_unchanged {stepped : Session} (hphase : stepped.phase = session.phase)
    (hhello : stepped.hello = session.hello) : Accounts others queue session (queue, stepped) := by
  constructor
  · intro key hkey
    by_cases hwaits : session.Waits key
    · left
      rw [Session.Waits, hphase, hhello]
      exact hwaits
    · exact .inr ⟨hkey, fun h => absurd h hwaits⟩
  · intro key hkey
    by_cases hserves : session.Serves key
    · left
      rw [Session.Serves, hphase, hhello]
      exact hserves
    · exact .inr ⟨hkey, hserves⟩

/-- A session that neither waits nor has a slot may go anywhere. -/
theorem accounts_idle {stepped : Session} (hwaits : ∀ key, ¬ session.Waits key)
    (hserves : ∀ key, ¬ session.Serves key) : Accounts others queue session (queue, stepped) where
  waiting key hkey := .inr ⟨hkey, fun h => absurd h (hwaits key)⟩
  slots key hkey := .inr ⟨hkey, hserves key⟩

/-- The engine's hook leaves the queue alone where the requested key is active. -/
theorem engine_request_active {req_hash : Hash16} (hactive : queue.holds_slot (session.hello.key req_hash))
    (enqueued granted : Moment) (file_priority : Int) :
    session.engine_request queue enqueued granted req_hash file_priority = (queue, session.ask req_hash) := by
  simp only [Session.engine_request, on_start_upload_request, is_active_hello, hactive, decide_true, ok_bind,
    if_true]

theorem accept_active {file_hash : Hash16} (hopens : circumstances.source_opens = true)
    (hactive : queue.holds_slot (session.hello.key file_hash)) (granted : Option Hash16) (file_priority : Int) :
    session.accept queue circumstances granted file_hash file_priority =
      (queue, (session.go (.serving granted file_priority)).ask file_hash) := by
  have hserving : queue.holds_slot ((session.go (.serving granted file_priority)).hello.key file_hash) := hactive
  rw [Session.accept, if_pos hopens]
  exact engine_request_active hserving _ _ _

/-- The tables before and after a client was enqueued under its key. -/
structure Enqueued (queue enqueued : UploadQueue) (key : Key) : Prop where
  slots : ∀ other, enqueued.holds_slot other ↔ queue.holds_slot other
  waiting : ∀ other, enqueued.is_waiting other → queue.is_waiting other ∨ other = key

/-- A client that takes its slot is served under its key. -/
theorem accounts_taken {enqueued taken : UploadQueue} {asking : Session} {moment : Moment}
    {file_hash : Hash16} {file_priority : Int} (hopens : circumstances.source_opens = true)
    (hhello : asking.hello = session.hello)
    (henqueued : Enqueued queue enqueued (session.hello.key file_hash))
    (htake : take_slot enqueued moment (session.hello.key file_hash) = some taken)
    (hwaits : ∀ key, session.Waits key → key = session.hello.key file_hash)
    (hserves : ∀ key, ¬ session.Serves key) :
    Accounts others queue session
      (asking.accept taken circumstances (some file_hash) file_hash file_priority) := by
  obtain ⟨-, hwaiting, hslots⟩ := take_slot_some htake
  have hactive : taken.holds_slot (asking.hello.key file_hash) := by
    rw [hhello]
    exact (hslots _).mpr (.inr rfl)
  rw [accept_active hopens hactive]
  constructor
  · intro key hkey
    obtain ⟨hold, hne⟩ := hwaiting key hkey
    rcases henqueued.waiting key hold with hold | heq
    · exact .inr ⟨hold, fun h => absurd (hwaits key h) hne⟩
    · exact absurd heq hne
  · intro key hkey
    rcases (hslots key).mp hkey with hold | rfl
    · exact .inr ⟨(henqueued.slots key).mp hold, hserves key⟩
    · exact .inl ⟨file_hash, file_priority, rfl, congrArg (Requester.key · file_hash) hhello⟩

/-- A client that is enqueued and gets no slot waits under its key. -/
theorem accounts_enqueued {enqueued : UploadQueue} {held : Session} {file_hash : Hash16}
    (henqueued : Enqueued queue enqueued (session.hello.key file_hash))
    (hheld : held.Waits (session.hello.key file_hash))
    (hwaits : ∀ key, session.Waits key → key = session.hello.key file_hash)
    (hserves : ∀ key, ¬ session.Serves key) : Accounts others queue session (enqueued, held) := by
  constructor
  · intro key hkey
    by_cases hown : key = session.hello.key file_hash
    · exact .inl (hown ▸ hheld)
    · rcases henqueued.waiting key hkey with hold | heq
      · exact .inr ⟨hold, fun h => absurd (hwaits key h) hown⟩
      · exact absurd heq hown
  · intro key hkey
    exact .inr ⟨(henqueued.slots key).mp hkey, hserves key⟩

/-- The first STARTUPLOADREQ, of a file that can be opened. -/
theorem accounts_request {payload : Bytes} (hopens : circumstances.source_opens = true)
    (hphase : session.phase = .before_request) :
    Accounts others queue session (session.request queue circumstances payload) := by
  have hwaits : ∀ key, ¬ session.Waits key := Session.not_waits fun _ _ h => by cases hphase.symm.trans h
  have hserves : ∀ key, ¬ session.Serves key := Session.not_serves fun _ _ h => by cases hphase.symm.trans h
  rw [Session.request]
  cases hparse : parse_file_hash_payload payload with
  | error e => exact accounts_idle hwaits hserves
  | ok file_hash =>
    cases hresolved : circumstances.resolved with
    | none => exact accounts_idle hwaits hserves
    | some file_priority =>
      simp only [is_active_hello]
      by_cases hactive : queue.holds_slot (session.hello.key file_hash)
      · have hasking : queue.holds_slot ((session.ask file_hash).hello.key file_hash) := hactive
        simp only [hactive, decide_true, accept_active hopens hasking]
        exact accounts_idle hwaits hserves
      · simp only [hactive, decide_false]
        obtain ⟨enqueued, henqueue, hslots, hwaiting⟩ := enqueue_peer_ok queue (circumstances.moments 0)
          session.hello file_hash file_priority
        have henqueued : Enqueued queue enqueued (session.hello.key file_hash) :=
          ⟨hslots, fun key hkey => (hwaiting key hkey).imp_right And.left⟩
        simp only [henqueue]
        cases htake : take_slot enqueued (circumstances.moments 1) (session.hello.key file_hash) with
        | none =>
          exact accounts_enqueued henqueued ⟨file_hash, file_priority, rfl, rfl⟩
            (fun key h => absurd h (hwaits key)) hserves
        | some taken =>
          exact accounts_taken hopens rfl henqueued htake (fun key h => absurd h (hwaits key)) hserves

/-- A request of a waiting client, for the file that it waits for or for one that is active. -/
theorem accounts_request_again {file_hash re_hash : Hash16} {file_priority : Int} {payload : Bytes}
    (hphase : session.phase = .queue_hold file_hash file_priority)
    (hopens : circumstances.source_opens = true) (hparse : parse_file_hash_payload payload = .ok re_hash)
    (hown : re_hash = file_hash ∨ queue.holds_slot (session.hello.key re_hash)) :
    Accounts others queue session
      (session.request_again queue circumstances file_hash file_priority payload) := by
  have hwaits := fun key => (Session.waits_iff hphase key).mp
  have hserves : ∀ key, ¬ session.Serves key := Session.not_serves fun _ _ h => by cases hphase.symm.trans h
  obtain ⟨enqueued, henqueue, hslots, hwaiting⟩ := enqueue_peer_ok queue (circumstances.moments 0)
    session.hello re_hash file_priority
  simp only [Session.request_again, hparse, henqueue]
  rcases hown with rfl | hactive
  · have henqueued : Enqueued queue enqueued (session.hello.key re_hash) :=
      ⟨hslots, fun key hkey => (hwaiting key hkey).imp_right And.left⟩
    cases htake : take_slot enqueued (circumstances.moments 1) (session.hello.key re_hash) with
    | none => exact accounts_enqueued henqueued ⟨re_hash, file_priority, hphase, rfl⟩ hwaits hserves
    | some taken => exact accounts_taken hopens rfl henqueued htake hwaits hserves
  · cases htake : take_slot enqueued (circumstances.moments 1) (session.hello.key re_hash) with
    | none =>
      have henqueued : Enqueued queue enqueued (session.hello.key file_hash) := by
        refine ⟨hslots, fun key hkey => (hwaiting key hkey).imp_right ?_⟩
        exact fun h => absurd hactive h.2
      exact accounts_enqueued henqueued ⟨file_hash, file_priority, hphase, rfl⟩ hwaits hserves
    | some taken => exact absurd ((hslots _).mpr hactive) (take_slot_some htake).1

/-- The end of a transfer releases the slot of the session. -/
theorem accounts_finish {granted : Option Hash16} {file_priority : Int}
    (hphase : session.phase = .serving granted file_priority) :
    Accounts others queue session (session.finish queue granted) := by
  have hwaits : ∀ key, ¬ session.Waits key := Session.not_waits fun _ _ h => by cases hphase.symm.trans h
  cases granted with
  | none =>
    exact accounts_idle hwaits (Session.not_serves fun _ _ h => by cases hphase.symm.trans h)
  | some file_hash =>
    obtain ⟨released, after, hrelease, hwaiting, hslots⟩ := release_slot_ok queue session.hello file_hash
    simp only [Session.finish, hrelease]
    constructor
    · intro key hkey
      exact .inr ⟨(hwaiting key).mp hkey, fun h => absurd h (hwaits key)⟩
    · intro key hkey
      obtain ⟨hold, hne⟩ := hslots key hkey
      exact .inr ⟨hold, fun h => hne ((Session.serves_iff hphase key).mp h)⟩

end Step

/-- The keys of a session that has ended are in neither table, unless another session waits
or is served under them. -/
def Settled (listener : Listener) : Prop :=
  ∀ i, (listener.sessions i).phase = .ended → ∀ key ∈ (listener.sessions i).asked,
    listener.queue.is_waiting key ∨ listener.queue.holds_slot key →
      ∃ j, (listener.sessions j).Waits key ∨ (listener.sessions j).Serves key

/-- A session may leave the queue hold: its key does not wait, or another session waits under it. -/
def Spared (listener : Listener) (i : Nat) (key : Key) : Prop :=
  ¬ listener.queue.is_waiting key ∨ ∃ j, j ≠ i ∧ (listener.sessions j).Waits key

/-- A step that takes none of the exits which leave keys behind. -/
def Orderly (listener : Listener) : ListenerEvent → Prop
  | .rotate _ => True
  | .session i circumstances received =>
    let session := listener.sessions i
    match session.phase, received with
    | .before_request, .packet opcode _ => opcode = STARTUPLOADREQ → circumstances.source_opens = true
    | .queue_hold _ _, .timeout => circumstances.source_opens = true
    | .queue_hold file_hash _, .packet opcode payload =>
      (opcode = STARTUPLOADREQ → circumstances.source_opens = true ∧
        ∃ re_hash, parse_file_hash_payload payload = .ok re_hash ∧
          (re_hash = file_hash ∨ listener.queue.holds_slot (session.hello.key re_hash))) ∧
      (opcode = END_OF_DOWNLOAD → Spared listener i (session.hello.key file_hash))
    | .queue_hold file_hash _, _ => Spared listener i (session.hello.key file_hash)
    | .serving _ _, .packet opcode payload =>
      opcode = STARTUPLOADREQ → ∀ req_hash : Hash16, req_hash.val = payload.take 16 →
        listener.queue.holds_slot (session.hello.key req_hash)
    | .serving granted _, .exception =>
      ∀ file_hash, granted = some file_hash → ¬ listener.queue.holds_slot (session.hello.key file_hash)
    | _, _ => True

/-- Every step of a run is orderly in the state in which it is taken. -/
def OrderlyRun (listener : Listener) : List ListenerEvent → Prop
  | [] => True
  | event :: events => Orderly listener event ∧ OrderlyRun (listener.after event) events

theorem Accounted.settled {listener : Listener} (haccounted : Accounted listener) : Settled listener := by
  rintro i - key - (hwaiting | hslot)
  · obtain ⟨j, hj⟩ := haccounted.waiting key hwaiting
    exact ⟨j, .inl hj⟩
  · obtain ⟨j, hj⟩ := haccounted.slots key hslot
    exact ⟨j, .inr hj⟩

theorem accounted_start (max_slots : Int) (slot_ttl : ℚ) (peers : Nat → Requester) :
    Accounted (.start max_slots slot_ttl peers) where
  waiting _ hkey := absurd hkey List.not_mem_nil
  slots _ hkey := absurd hkey List.not_mem_nil

/-- A session that leaves the queue hold where that is spared. -/
theorem accounts_leave {listener : Listener} {i : Nat} {file_hash : Hash16} {file_priority : Int}
    (hphase : (listener.sessions i).phase = .queue_hold file_hash file_priority)
    (hspared : Spared listener i ((listener.sessions i).hello.key file_hash)) (phase : Phase) :
    Accounts (fun key => ∃ j, j ≠ i ∧ (listener.sessions j).Waits key) listener.queue (listener.sessions i)
      (listener.queue, (listener.sessions i).go phase) where
  waiting key hkey := by
    refine .inr ⟨hkey, fun hwaits => ?_⟩
    obtain rfl := (Session.waits_iff hphase key).mp hwaits
    exact hspared.resolve_left (not_not.mpr hkey)
  slots key hkey :=
    .inr ⟨hkey, Session.not_serves (fun _ _ h => by cases hphase.symm.trans h) key⟩

/-- One orderly step of a session accounts for the keys in the tables. -/
theorem accounts_step {listener : Listener} {i : Nat} {circumstances : Circumstances} {received : Received}
    (horderly : Orderly listener (.session i circumstances received)) :
    Accounts (fun key => ∃ j, j ≠ i ∧ (listener.sessions j).Waits key) listener.queue (listener.sessions i)
      ((listener.sessions i).step listener.queue circumstances received) := by
  unfold Session.step
  simp only [Orderly] at horderly
  cases hphase : (listener.sessions i).phase with
  | before_request =>
    have hwaits := Session.not_waits fun _ _ h => by cases hphase.symm.trans h
    have hserves := Session.not_serves fun _ _ h => by cases hphase.symm.trans h
    rw [hphase] at horderly
    cases received with
    | packet opcode payload =>
      by_cases hrequest : opcode = STARTUPLOADREQ
      · simp only [if_pos hrequest]
        exact accounts_request (horderly hrequest) hphase
      · simp only [if_neg hrequest]
        exact accounts_unchanged rfl rfl
    | eof => exact accounts_idle hwaits hserves
    | timeout => exact accounts_unchanged rfl rfl
    | exception => exact accounts_idle hwaits hserves
  | queue_hold file_hash file_priority =>
    rw [hphase] at horderly
    cases received with
    | packet opcode payload =>
      obtain ⟨hagain, hend⟩ := horderly
      by_cases hrequest : opcode = STARTUPLOADREQ
      · obtain ⟨hopens, re_hash, hparse, hown⟩ := hagain hrequest
        simp only [if_pos hrequest]
        exact accounts_request_again hphase hopens hparse hown
      · by_cases hleave : opcode = END_OF_DOWNLOAD
        · simp only [if_neg hrequest, if_pos hleave]
          exact accounts_leave hphase (hend hleave) .ended
        · simp only [if_neg hrequest, if_neg hleave]
          exact accounts_unchanged rfl rfl
    | eof => exact accounts_leave hphase horderly .ended
    | timeout =>
      have hwaits := fun key => (Session.waits_iff hphase key).mp
      have hserves := Session.not_serves fun _ _ h => by cases hphase.symm.trans h
      have hsame : Enqueued listener.queue listener.queue ((listener.sessions i).hello.key file_hash) :=
        ⟨fun _ => Iff.rfl, fun _ => .inl⟩
      simp only
      cases htake : take_slot listener.queue (circumstances.moments 1)
          ((listener.sessions i).hello.key file_hash) with
      | none => exact accounts_unchanged rfl rfl
      | some taken => exact accounts_taken horderly rfl hsame htake hwaits hserves
    | exception => exact accounts_leave hphase horderly .ended
  | serving granted file_priority =>
    rw [hphase] at horderly
    cases received with
    | packet opcode payload =>
      by_cases hleave : opcode = END_OF_DOWNLOAD
      · simp only [if_pos hleave]
        exact accounts_finish hphase
      · simp only [if_neg hleave]
        split_ifs with hrequest hlength
        · have hactive := horderly hrequest ⟨payload.take 16, List.length_take_of_le hlength⟩ rfl
          rw [engine_request_active hactive]
          exact accounts_unchanged rfl rfl
        · exact accounts_unchanged rfl rfl
        · exact accounts_unchanged rfl rfl
    | eof => exact accounts_finish hphase
    | timeout => exact accounts_unchanged rfl rfl
    | exception =>
      constructor
      · intro key hkey
        exact .inr ⟨hkey, fun h => absurd h (Session.not_waits (fun _ _ h => by cases hphase.symm.trans h) key)⟩
      · intro key hkey
        refine .inr ⟨hkey, ?_⟩
        rintro ⟨file_hash, other_priority, hserving, rfl⟩
        cases hphase.symm.trans hserving
        exact horderly file_hash rfl hkey
  | draining =>
    have hwaits := Session.not_waits fun _ _ h => by cases hphase.symm.trans h
    have hserves := Session.not_serves fun _ _ h => by cases hphase.symm.trans h
    cases received with
    | packet opcode payload => exact accounts_unchanged rfl rfl
    | eof => exact accounts_idle hwaits hserves
    | timeout => exact accounts_unchanged rfl rfl
    | exception => exact accounts_idle hwaits hserves
  | ended => exact accounts_unchanged rfl rfl

theorem Accounted.after {listener : Listener} (haccounted : Accounted listener) {event : ListenerEvent}
    (horderly : Orderly listener event) : Accounted (listener.after event) := by
  cases event with
  | session i circumstances received => exact haccounted.session (accounts_step horderly)
  | rotate now =>
    obtain ⟨hwaiting, hslots⟩ := foldl_reclaim (listener.queue.expired_slots now) listener.queue
    exact ⟨fun key hkey => haccounted.waiting key ((hwaiting key).mp hkey),
      fun key hkey => haccounted.slots key (hslots key hkey)⟩

theorem Accounted.run {listener : Listener} (haccounted : Accounted listener) {events : List ListenerEvent}
    (horderly : OrderlyRun listener events) : Accounted (listener.run events) := by
  induction events generalizing listener with
  | nil => exact haccounted
  | cons event events ih => exact ih (haccounted.after horderly.1) horderly.2

/-- In every run whose steps are orderly, sessions that have ended leave nothing in the
waiting list nor in the slot table. -/
theorem upload_queue_settled (max_slots : Int) (slot_ttl : ℚ) (peers : Nat → Requester) {events : List ListenerEvent}
    (horderly : OrderlyRun (.start max_slots slot_ttl peers) events) :
    Settled ((Listener.start max_slots slot_ttl peers).run events) :=
  ((accounted_start max_slots slot_ttl peers).run horderly).settled

def sampleHash (byte : UInt8) : Hash16 := ⟨List.replicate 16 byte, List.length_replicate⟩

def samplePeers (i : Nat) : Requester := ⟨sampleHash (UInt8.ofNat i), 0, 4662, ""⟩

def sampleCircumstances (now : ℚ) : Circumstances := ⟨fun _ => ⟨now, fun _ _ => none⟩, some 1, true⟩

def sampleRequest : Received := .packet STARTUPLOADREQ (sampleHash 7).val

/-- A peer is served to the end, and leaves. -/
theorem upload_queue_settled_one_peer :
    Settled ((Listener.start 1 600 samplePeers).run [.session 0 (sampleCircumstances 1) sampleRequest,
      .session 0 (sampleCircumstances 2) .eof, .session 0 (sampleCircumstances 3) .eof]) := by
  obtain ⟨hserving, hdraining⟩ : (((Listener.start 1 600 samplePeers).after
        (.session 0 (sampleCircumstances 1) sampleRequest)).sessions 0).phase =
        .serving (some (sampleHash 7)) 1 ∧
      ((((Listener.start 1 600 samplePeers).after (.session 0 (sampleCircumstances 1) sampleRequest)).after
        (.session 0 (sampleCircumstances 2) .eof)).sessions 0).phase = .draining := by decide +kernel
  refine upload_queue_settled 1 600 samplePeers ⟨fun _ => rfl, ?_, ?_, trivial⟩
  · simp only [Orderly, hserving]
  · simp only [Orderly, hdraining]

/-- The one slot is taken, and a second peer closes its connection while it waits. -/
def leftWaiting : Listener :=
  (Listener.start 1 600 samplePeers).run [.session 0 (sampleCircumstances 1) sampleRequest,
    .session 1 (sampleCircumstances 2) sampleRequest, .session 1 (sampleCircumstances 3) .eof]

theorem eof_in_queue_hold_stays_waiting :
    ¬ ∀ max_slots slot_ttl peers events, Settled ((Listener.start max_slots slot_ttl peers).run events) := by
  intro hsettled
  obtain ⟨hends, hserved, hserver, hasked, hwaiting⟩ : (leftWaiting.sessions 1).phase = .ended ∧
      (leftWaiting.sessions 0).phase = .serving (some (sampleHash 7)) 1 ∧
      (samplePeers 1).key (sampleHash 7) ≠ (leftWaiting.sessions 0).hello.key (sampleHash 7) ∧
      (samplePeers 1).key (sampleHash 7) ∈ (leftWaiting.sessions 1).asked ∧
      leftWaiting.queue.is_waiting ((samplePeers 1).key (sampleHash 7)) := by decide +kernel
  have hidle : ∀ j, j ≠ 0 → (leftWaiting.sessions j).phase = .before_request ∨
      (leftWaiting.sessions j).phase = .ended := by
    intro j hzero
    by_cases hone : j = 1
    · exact .inr (hone ▸ hends)
    · left
      simp [leftWaiting, Listener.run, Listener.after, Function.update_of_ne, hzero, hone, Listener.start]
  obtain ⟨j, hj⟩ := hsettled 1 600 samplePeers _ 1 hends _ hasked (.inl hwaiting)
  change (leftWaiting.sessions j).Waits _ ∨ (leftWaiting.sessions j).Serves _ at hj
  by_cases hzero : j = 0
  · subst hzero
    rcases hj with ⟨_, _, hphase, -⟩ | hserves
    · cases hserved.symm.trans hphase
    · exact hserver ((Session.serves_iff hserved _).mp hserves)
  · rcases hidle j hzero with hidle | hidle <;> rcases hj with ⟨_, _, hphase, -⟩ | ⟨_, _, hphase, -⟩ <;>
      cases hidle.symm.trans hphase

end amuled.peer
