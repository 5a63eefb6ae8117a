import AmuleD.Upload.Ranks

open sorting

namespace amuled.upload

/-- The client at the head may take the slot it asks for. -/
def UploadQueue.Grantable (queue : UploadQueue) (key : Key) : Prop :=
  ¬ queue.holds_slot key ∧ queue._slots.length < queue.max_slots ∧
    queue.next_for_slot.map UploadClient.key = some key

instance (queue : UploadQueue) (key : Key) : Decidable (queue.Grantable key) :=
  inferInstanceAs (Decidable (_ ∧ _))

/-- What one operation can do to the queue. -/
inductive Change (queue : UploadQueue) (moment : Moment) : UploadQueue → Prop
  | unchanged : Change queue moment queue
  | released (key : Key) : Change queue moment (queue.del_slot key)
  | repeated : Change queue moment (queue.recompute (moment.credits 0))
  | repeated_by_holder :
      Change queue moment ((queue.recompute (moment.credits 0)).recompute (moment.credits 1))
  | admitted (client : UploadClient) (hwaiting : ¬ queue.is_waiting client.key)
      (hslot : ¬ queue.holds_slot client.key) (htime : client.enqueued_at = moment.now) :
      Change queue moment
        (UploadQueue.recompute { queue with _waiting := queue._waiting ++ [client] }
          (moment.credits 0))
  | granted (key : Key) (hgrantable : queue.Grantable key) :
      Change queue moment
        ((UploadQueue.pop_waiting { queue with _slots := queue._slots ++ [(key, moment.now)] }
          key).recompute (moment.credits 0))
  | cancelled (key : Key) :
      Change queue moment (((queue.pop_waiting key).del_slot key).recompute (moment.credits 0))

section Operations

variable {queue : UploadQueue} {moment : Moment} {key : Key}

theorem get_waiting_eq_none_iff : queue.get_waiting key = none ↔ ¬ queue.is_waiting key := by
  simp [UploadQueue.get_waiting, UploadQueue.is_waiting, List.find?_eq_none]

@[simp] theorem is_waiting_recompute (credits : Credits) :
    (queue.recompute credits).is_waiting key ↔ queue.is_waiting key := by
  simp [UploadQueue.recompute, UploadQueue.is_waiting]

/-- An accepted request leaves the ranks recomputed: once more where a waiting
client repeats it, twice where a holder of a slot does. -/
theorem enqueue_eq (queue : UploadQueue) (moment : Moment) {user_hash requested_hash : String}
    (client_id client_port : Nat) (nickname : String) (file_priority : Int)
    (hkey : normalize_key user_hash requested_hash = .ok key) :
    ∃ rank, queue.enqueue moment user_hash client_id client_port nickname requested_hash
        file_priority = .ok (rank,
      if queue.is_waiting key then queue.recompute (moment.credits 0)
      else if queue.holds_slot key then
        (queue.recompute (moment.credits 0)).recompute (moment.credits 1)
      else UploadQueue.recompute
        { queue with
          _waiting := queue._waiting ++ [UploadQueue.newcomer moment.now key client_id client_port
            nickname file_priority] } (moment.credits 0)) := by
  simp only [UploadQueue.enqueue, hkey, ok_bind]
  by_cases hwaiting : queue.is_waiting key
  · rw [if_pos (.inl hwaiting), if_pos hwaiting]
    cases hfound : (queue.recompute (moment.credits 0)).get_waiting key with
    | none =>
      rw [get_waiting_eq_none_iff, is_waiting_recompute] at hfound
      exact absurd hwaiting hfound
    | some client => exact ⟨client.rank, rfl⟩
  · rw [if_neg hwaiting]
    by_cases hslot : queue.holds_slot key
    · rw [if_pos (.inr hslot), if_pos hslot]
      have hmissing : (queue.recompute (moment.credits 0)).get_waiting key = none := by
        rwa [get_waiting_eq_none_iff, is_waiting_recompute]
      rw [hmissing]
      exact ⟨_, rfl⟩
    · rw [if_neg (not_or.mpr ⟨hwaiting, hslot⟩), if_neg hslot]
      exact ⟨_, rfl⟩

theorem grant_slot_eq_ok_iff {user_hash requested_hash : String} {queue' : UploadQueue}
    (hkey : normalize_key user_hash requested_hash = .ok key) :
    queue.grant_slot moment user_hash requested_hash = .ok queue' ↔
      queue.Grantable key ∧ queue' =
        (UploadQueue.pop_waiting { queue with _slots := queue._slots ++ [(key, moment.now)] }
          key).recompute (moment.credits 0) := by
  simp only [UploadQueue.grant_slot, hkey, ok_bind, UploadQueue.Grantable, ← not_le]
  by_cases hslot : queue.holds_slot key
  · simp [hslot]
  · by_cases hfull : queue.max_slots ≤ queue._slots.length
    · simp [hslot, hfull]
    · by_cases hhead : queue.next_for_slot.map UploadClient.key = some key
      · simp [hslot, hfull, hhead, eq_comm]
      · simp [hslot, hfull, hhead]

/-- Every operation changes the queue in one of these ways. -/
theorem change_after (queue : UploadQueue) (moment : Moment) (operation : Operation) :
    Change queue moment (queue.after moment operation) := by
  cases operation with
  | enqueue user_hash client_id client_port nickname requested_hash file_priority =>
    cases hkey : normalize_key user_hash requested_hash with
    | error e => simpa only [UploadQueue.after, UploadQueue.enqueue, hkey] using .unchanged
    | ok key =>
      obtain ⟨rank, henqueue⟩ := enqueue_eq queue moment client_id client_port nickname
        file_priority hkey
      simp only [UploadQueue.after, henqueue]
      split
      · exact .repeated
      · rename_i hwaiting
        split
        · exact .repeated_by_holder
        · rename_i hslot
          exact .admitted _ hwaiting hslot rfl
  | grant_slot user_hash requested_hash =>
    cases hkey : normalize_key user_hash requested_hash with
    | error e => simpa only [UploadQueue.after, UploadQueue.grant_slot, hkey] using .unchanged
    | ok key =>
      cases hgrant : queue.grant_slot moment user_hash requested_hash with
      | error e => simpa only [UploadQueue.after, hgrant] using .unchanged
      | ok queue' =>
        obtain ⟨hgrantable, rfl⟩ := (grant_slot_eq_ok_iff hkey).mp hgrant
        simpa only [UploadQueue.after, hgrant] using .granted key hgrantable
  | release_slot user_hash requested_hash =>
    cases hkey : normalize_key user_hash requested_hash with
    | error e => simpa only [UploadQueue.after, UploadQueue.release_slot, hkey] using .unchanged
    | ok key =>
      simp only [UploadQueue.after, UploadQueue.release_slot, hkey, ok_bind]
      by_cases hslot : queue.holds_slot key
      · simpa [hslot] using .released key
      · simpa [hslot] using .unchanged
  | cancel user_hash requested_hash =>
    cases hkey : normalize_key user_hash requested_hash with
    | error e => simpa only [UploadQueue.after, UploadQueue.cancel, hkey] using .unchanged
    | ok key =>
      simp only [UploadQueue.after, UploadQueue.cancel, hkey, ok_bind]
      by_cases hknown : queue.is_waiting key ∨ queue.holds_slot key
      · simpa [hknown] using .cancelled key
      · simpa [hknown] using .unchanged
  | next_for_slot => exact .unchanged
  | rank_of user_hash requested_hash => exact .unchanged

end Operations

/-- The two tables at a given time, whatever the ranks are. -/
structure Tables (queue : UploadQueue) (now : ℚ) : Prop where
  keys : (queue._waiting.map UploadClient.key).Nodup
  arrivals : queue._waiting.Pairwise fun a b => a.enqueued_at ≤ b.enqueued_at
  past : ∀ client ∈ queue._waiting, client.enqueued_at ≤ now
  disjoint : ∀ key, queue.is_waiting key → ¬ queue.holds_slot key
  capacity : queue._slots.length ≤ max 0 queue.max_slots

namespace Tables

variable {queue : UploadQueue} {now later : ℚ}

theorem empty (max_slots : Int) (slot_ttl now : ℚ) : Tables (.new max_slots slot_ttl) now where
  keys := .nil
  arrivals := .nil
  past := by simp [UploadQueue.new]
  disjoint := by simp [UploadQueue.new, UploadQueue.is_waiting]
  capacity := le_max_left 0 max_slots

theorem mono (h : Tables queue now) (hlater : now ≤ later) : Tables queue later where
  keys := h.keys
  arrivals := h.arrivals
  past client hclient := (h.past client hclient).trans hlater
  disjoint := h.disjoint
  capacity := h.capacity

/-- The tables stay as they are where the clients keep their keys and times. -/
theorem recompute (h : Tables queue now) (credits : Credits) :
    Tables (queue.recompute credits) now := by
  have htimes : (queue.recompute credits)._waiting.map UploadClient.enqueued_at
      = queue._waiting.map UploadClient.enqueued_at := by
    simp [UploadQueue.recompute, assign_ranks, UploadClient.with_rank]
  have hkeys : (queue.recompute credits)._waiting.map UploadClient.key
      = queue._waiting.map UploadClient.key := by
    simp only [UploadQueue.recompute, map_key_assign_ranks, map_key_refresh]
  refine ⟨hkeys ▸ h.keys, ?_, ?_, ?_, h.capacity⟩
  · have harrivals := h.arrivals
    rw [← List.pairwise_map (f := UploadClient.enqueued_at) (R := (· ≤ ·))] at harrivals ⊢
    rwa [htimes]
  · intro client hclient
    have hmem := List.mem_map_of_mem (f := UploadClient.enqueued_at) hclient
    rw [htimes, List.mem_map] at hmem
    obtain ⟨before, hbefore, hsame⟩ := hmem
    exact hsame ▸ h.past before hbefore
  · intro key hwaiting
    exact h.disjoint key ((is_waiting_recompute credits).mp hwaiting)

/-- Clients and slots that are taken away leave the rest in order. -/
theorem of_sublist {queue' : UploadQueue} (h : Tables queue now)
    (hwaiting : queue'._waiting.Sublist queue._waiting)
    (hslots : queue'._slots.Sublist queue._slots) (hmax : queue'.max_slots = queue.max_slots) :
    Tables queue' now where
  keys := h.keys.sublist (hwaiting.map _)
  arrivals := h.arrivals.sublist hwaiting
  past client hclient := h.past client (hwaiting.subset hclient)
  disjoint key hkey hslot :=
    h.disjoint key ((hwaiting.map _).subset hkey) ((hslots.map _).subset hslot)
  capacity := by
    have hlength := hslots.length_le
    have hcapacity := h.capacity
    rw [hmax]
    omega

theorem enrol (h : Tables queue now) {client : UploadClient}
    (hwaiting : ¬ queue.is_waiting client.key) (hslot : ¬ queue.holds_slot client.key)
    (htime : client.enqueued_at = now) :
    Tables { queue with _waiting := queue._waiting ++ [client] } now where
  keys := by
    rw [List.map_append, List.nodup_append]
    refine ⟨h.keys, List.nodup_singleton _, ?_⟩
    rintro key hkey other hother rfl
    rw [List.map_singleton, List.mem_singleton] at hother
    exact hwaiting (hother ▸ hkey)
  arrivals := by
    rw [List.pairwise_append]
    refine ⟨h.arrivals, List.pairwise_singleton _ _, ?_⟩
    intro before hbefore last hlast
    rw [List.mem_singleton.mp hlast, htime]
    exact h.past before hbefore
  past := by
    intro other hother
    rcases List.mem_append.mp hother with hold | hnew
    · exact h.past other hold
    · exact (List.mem_singleton.mp hnew ▸ htime).le
  disjoint := by
    intro key hkey
    simp only [UploadQueue.is_waiting, List.map_append, List.map_singleton, List.mem_append,
      List.mem_singleton] at hkey
    rcases hkey with hold | rfl
    · exact h.disjoint key hold
    · exact hslot
  capacity := h.capacity

theorem grant (h : Tables queue now) {key : Key} (hgrantable : queue.Grantable key) :
    Tables (UploadQueue.pop_waiting { queue with _slots := queue._slots ++ [(key, now)] } key)
      now where
  keys := h.keys.sublist (List.filter_sublist.map _)
  arrivals := h.arrivals.sublist List.filter_sublist
  past client hclient := h.past client (List.mem_of_mem_filter hclient)
  disjoint := by
    intro other hother hslot
    obtain ⟨client, hclient, rfl⟩ := List.mem_map.mp hother
    obtain ⟨hmem, hne⟩ := List.mem_filter.mp hclient
    simp only [UploadQueue.holds_slot, UploadQueue.pop_waiting, List.map_append, List.map_singleton,
      List.mem_append, List.mem_singleton] at hslot
    rcases hslot with hold | hnew
    · exact h.disjoint client.key (List.mem_map_of_mem hmem) hold
    · exact of_decide_eq_true hne hnew
  capacity := by
    have hfree := hgrantable.2.1
    simp only [UploadQueue.pop_waiting, List.length_append, List.length_singleton]
    omega

end Tables

end amuled.upload
