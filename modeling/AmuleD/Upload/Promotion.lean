import AmuleD.Upload.Slots

open sorting

namespace amuled.upload

section Steps

variable {queue queue' : UploadQueue} {moment : Moment} {now : ℚ}

theorem Tables.ranked_recompute (h : Tables queue now) (credits : Credits) :
    Ranked (queue.recompute credits)._waiting := by
  apply ranked_assign_ranks
  rw [map_key_refresh]
  exact h.keys

/-- A step keeps the tables in order and leaves the ranks complete. -/
theorem Change.keeps (hchange : Change queue moment queue') (h : Tables queue now)
    (hranked : Ranked queue._waiting) (hnow : now ≤ moment.now) :
    Tables queue' moment.now ∧ Ranked queue'._waiting := by
  have hlater := h.mono hnow
  cases hchange with
  | unchanged => exact ⟨hlater, hranked⟩
  | released key => exact ⟨hlater.of_sublist (.refl _) List.filter_sublist rfl, hranked⟩
  | repeated => exact ⟨hlater.recompute _, hlater.ranked_recompute _⟩
  | repeated_by_holder =>
    exact ⟨(hlater.recompute _).recompute _, (hlater.recompute _).ranked_recompute _⟩
  | admitted client hwaiting hslot htime =>
    have hadmitted := hlater.enrol hwaiting hslot htime
    exact ⟨hadmitted.recompute _, hadmitted.ranked_recompute _⟩
  | granted key hgrantable =>
    have hgranted := hlater.grant hgrantable
    exact ⟨hgranted.recompute _, hgranted.ranked_recompute _⟩
  | cancelled key =>
    have hcancelled : Tables ((queue.pop_waiting key).del_slot key) moment.now :=
      hlater.of_sublist List.filter_sublist List.filter_sublist rfl
    exact ⟨hcancelled.recompute _, hcancelled.ranked_recompute _⟩

theorem Change.max_slots (hchange : Change queue moment queue') :
    queue'.max_slots = queue.max_slots := by
  cases hchange <;> rfl

end Steps

/-- The queue and the time in the course of calls of its methods, where the clock
never goes back and each call meets a condition on the queue it finds. -/
inductive Run (condition : UploadQueue → Moment → Operation → Prop) (max_slots : Int)
    (slot_ttl : ℚ) : ℚ → UploadQueue → Prop
  | start (now : ℚ) : Run condition max_slots slot_ttl now (.new max_slots slot_ttl)
  | next {now : ℚ} {queue : UploadQueue} {moment : Moment} {operation : Operation}
      (hrun : Run condition max_slots slot_ttl now queue) (hnow : now ≤ moment.now)
      (hcondition : condition queue moment operation) :
      Run condition max_slots slot_ttl moment.now (queue.after moment operation)

section Runs

variable {condition : UploadQueue → Moment → Operation → Prop} {max_slots : Int} {slot_ttl now : ℚ}
  {queue : UploadQueue}

theorem Run.max_slots_eq (hrun : Run condition max_slots slot_ttl now queue) :
    queue.max_slots = max_slots := by
  induction hrun with
  | start => rfl
  | next _ _ _ ih => exact (change_after _ _ _).max_slots.trans ih

theorem Run.tables_ranked (hrun : Run condition max_slots slot_ttl now queue) :
    Tables queue now ∧ Ranked queue._waiting := by
  induction hrun with
  | start now => exact ⟨.empty max_slots slot_ttl now, rfl⟩
  | next _ hnow _ ih => exact (change_after _ _ _).keeps ih.1 ih.2 hnow

end Runs

/-- The clients that wait after an operation, with the bonuses that its callbacks
answer. -/
def UploadQueue.refreshed (queue : UploadQueue) (moment : Moment) : Operation → List UploadClient
  | .enqueue user_hash client_id client_port nickname requested_hash file_priority =>
    match normalize_key user_hash requested_hash with
    | .error _ => queue._waiting
    | .ok key =>
      if queue.is_waiting key then queue._waiting.map (refresh_credit (moment.credits 0))
      else if queue.holds_slot key then
        (queue._waiting.map (refresh_credit (moment.credits 0))).map
          (refresh_credit (moment.credits 1))
      else
        (queue._waiting ++ [newcomer moment.now key client_id client_port nickname
          file_priority]).map (refresh_credit (moment.credits 0))
  | .grant_slot user_hash requested_hash =>
    match normalize_key user_hash requested_hash with
    | .error _ => queue._waiting
    | .ok key =>
      if queue.Grantable key then
        (queue.pop_waiting key)._waiting.map (refresh_credit (moment.credits 0))
      else queue._waiting
  | .cancel user_hash requested_hash =>
    match normalize_key user_hash requested_hash with
    | .error _ => queue._waiting
    | .ok key =>
      if queue.is_waiting key ∨ queue.holds_slot key then
        (queue.pop_waiting key)._waiting.map (refresh_credit (moment.credits 0))
      else queue._waiting
  | .release_slot _ _ => queue._waiting
  | .next_for_slot => queue._waiting
  | .rank_of _ _ => queue._waiting

section Order

variable {queue : UploadQueue} {moment : Moment} {key : Key}

theorem refresh_credit_with_rank (credits : Credits) (client : UploadClient) (rank : Nat) :
    refresh_credit credits (client.with_rank rank)
      = (refresh_credit credits client).with_rank rank := by
  simp only [refresh_credit, with_rank_key]
  split <;> rfl

/-- Ranks do not matter to the order of arrival. -/
theorem inArrivalOrder_assign_ranks (clients : List UploadClient) (credits : Credits) :
    InArrivalOrder ((assign_ranks clients).map (refresh_credit credits)) ↔
      InArrivalOrder (clients.map (refresh_credit credits)) := by
  simp only [InArrivalOrder, assign_ranks, List.pairwise_map, refresh_credit_with_rank]
  rfl

theorem inArrivalOrder_recompute (queue : UploadQueue) (credits : Credits) :
    InArrivalOrder (queue.recompute credits)._waiting ↔
      InArrivalOrder (queue._waiting.map (refresh_credit credits)) := by
  simp only [InArrivalOrder, UploadQueue.recompute, assign_ranks, List.pairwise_map]
  rfl

/-- The bonuses that the callbacks of an operation answer decide the order of
arrival after it. -/
theorem inArrivalOrder_after (queue : UploadQueue) (moment : Moment) (operation : Operation) :
    InArrivalOrder (queue.after moment operation)._waiting ↔
      InArrivalOrder (queue.refreshed moment operation) := by
  cases operation with
  | enqueue user_hash client_id client_port nickname requested_hash file_priority =>
    cases hkey : normalize_key user_hash requested_hash with
    | error e => simp only [UploadQueue.after, UploadQueue.refreshed, UploadQueue.enqueue, hkey,
        error_bind]
    | ok key =>
      obtain ⟨rank, henqueue⟩ := enqueue_eq queue moment client_id client_port nickname
        file_priority hkey
      simp only [UploadQueue.after, UploadQueue.refreshed, henqueue, hkey]
      split
      · exact inArrivalOrder_recompute queue _
      · split
        · rw [inArrivalOrder_recompute]
          exact inArrivalOrder_assign_ranks _ _
        · exact inArrivalOrder_recompute _ _
  | grant_slot user_hash requested_hash =>
    cases hkey : normalize_key user_hash requested_hash with
    | error e => simp only [UploadQueue.after, UploadQueue.refreshed, UploadQueue.grant_slot, hkey,
        error_bind]
    | ok key =>
      simp only [UploadQueue.after, UploadQueue.refreshed, hkey]
      by_cases hgrantable : queue.Grantable key
      · have hgrant : queue.grant_slot moment user_hash requested_hash = .ok _ :=
          (grant_slot_eq_ok_iff hkey).mpr ⟨hgrantable, rfl⟩
        rw [hgrant, if_pos hgrantable]
        exact inArrivalOrder_recompute _ _
      · rw [if_neg hgrantable]
        cases hgrant : queue.grant_slot moment user_hash requested_hash with
        | error e => rfl
        | ok queue' => exact absurd ((grant_slot_eq_ok_iff hkey).mp hgrant).1 hgrantable
  | cancel user_hash requested_hash =>
    cases hkey : normalize_key user_hash requested_hash with
    | error e => simp only [UploadQueue.after, UploadQueue.refreshed, UploadQueue.cancel, hkey,
        error_bind]
    | ok key =>
      simp only [UploadQueue.after, UploadQueue.refreshed, UploadQueue.cancel, hkey, ok_bind]
      by_cases hknown : queue.is_waiting key ∨ queue.holds_slot key
      · simp only [if_pos hknown, pure_eq_ok]
        exact inArrivalOrder_recompute _ _
      · simp only [if_neg hknown, pure_eq_ok]
  | release_slot user_hash requested_hash =>
    cases hkey : normalize_key user_hash requested_hash with
    | error e => simp only [UploadQueue.after, UploadQueue.refreshed, UploadQueue.release_slot,
        hkey, error_bind]
    | ok key =>
      simp only [UploadQueue.after, UploadQueue.refreshed, UploadQueue.release_slot, hkey, ok_bind]
      by_cases hslot : queue.holds_slot key
      · simp only [if_pos hslot, pure_eq_ok]
        rfl
      · simp only [if_neg hslot, pure_eq_ok]
  | next_for_slot => rfl
  | rank_of user_hash requested_hash => rfl

end Order

/-- What the queue promises its clients. -/
structure Consistent (queue : UploadQueue) : Prop where
  one_table : ∀ key, ¬ (queue.is_waiting key ∧ queue.holds_slot key)
  slots : queue._slots.length ≤ queue.max_slots
  ranks : (queue._waiting.map UploadClient.rank).Perm (List.range' 1 queue._waiting.length)
  head : ∀ client, queue.next_for_slot = some client → client.rank = 1
  listing : queue.waiting.map UploadClient.rank = List.range' 1 queue._waiting.length
  shown : queue.snapshot.queue.map UploadClient.rank = List.range' 1 queue._waiting.length

/-- The head of the listing is the first by rank. -/
theorem rank_next_for_slot {queue : UploadQueue} {client : UploadClient}
    (hlisting : queue.waiting.map UploadClient.rank = List.range' 1 queue._waiting.length)
    (hnext : queue.next_for_slot = some client) : client.rank = 1 := by
  rw [UploadQueue.next_for_slot] at hnext
  split at hnext
  · cases hnext
  · obtain ⟨rest, hordered⟩ := List.head?_eq_some_iff.mp hnext
    rw [UploadQueue.waiting, hordered, List.map_cons] at hlisting
    cases hlength : queue._waiting.length with
    | zero =>
      rw [hlength] at hlisting
      cases hlisting
    | succ length =>
      rw [hlength, List.range'_succ, List.cons.injEq] at hlisting
      exact hlisting.1

theorem consistent_iff {queue : UploadQueue} {now : ℚ} (h : Tables queue now)
    (hranked : Ranked queue._waiting) (hslots : 0 ≤ queue.max_slots) :
    Consistent queue ↔ InArrivalOrder queue._waiting := by
  have hlisting := listing_iff hranked h.arrivals
  constructor
  · intro hconsistent
    exact hlisting.mp hconsistent.listing
  · intro horder
    have hlisted := hlisting.mpr horder
    have hcapacity := h.capacity
    rw [max_eq_right hslots] at hcapacity
    exact {
      one_table := fun key hboth => h.disjoint key hboth.1 hboth.2
      slots := hcapacity
      ranks := hranked.perm
      head := fun client hnext => rank_next_for_slot hlisted hnext
      listing := hlisted
      shown := hlisted }

/-- The bonuses read in a step never put a client ahead of one of the same
priority that arrived before it. -/
def KeepsArrivalOrder (queue : UploadQueue) (moment : Moment) (operation : Operation) : Prop :=
  InArrivalOrder (queue.refreshed moment operation)

instance (queue : UploadQueue) (moment : Moment) (operation : Operation) :
    Decidable (KeepsArrivalOrder queue moment operation) := inferInstanceAs (Decidable (InArrivalOrder _))

theorem Run.inArrivalOrder {max_slots : Int} {slot_ttl now : ℚ} {queue : UploadQueue}
    (hrun : Run KeepsArrivalOrder max_slots slot_ttl now queue) :
    InArrivalOrder queue._waiting := by
  cases hrun with
  | start => exact .nil
  | next hrun hnow hcondition => exact (inArrivalOrder_after _ _ _).mpr hcondition

/-- While the credits follow the order of arrival, the rank, the listing and the
next slot agree. -/
theorem upload_queue_consistent {max_slots : Int} (hslots : 0 ≤ max_slots) {slot_ttl now : ℚ}
    {queue : UploadQueue} (hrun : Run KeepsArrivalOrder max_slots slot_ttl now queue) :
    Consistent queue := by
  obtain ⟨htables, hranked⟩ := hrun.tables_ranked
  rw [consistent_iff htables hranked (hrun.max_slots_eq ▸ hslots)]
  exact hrun.inArrivalOrder

/-- A hash that repeats one digit. -/
def sampleHash (digit : Char) : String := String.ofList (List.replicate 32 digit)

/-- A request of a user for one file. -/
def sampleRequest (user : Char) : Operation :=
  .enqueue (sampleHash user) 1 4662 "peer" (sampleHash 'f') 1

/-- The callbacks at a given time, where the first user has one bonus and all
others have another. -/
def sampleMoment (now : ℚ) (first second : WithTop ℚ) : Moment :=
  ⟨now, fun _ key => some (if key.1 = sampleHash 'a' then first else second)⟩

/-- The queue after the requests of two users, one second apart. -/
def sampleQueue (first second : WithTop ℚ) : UploadQueue :=
  ((UploadQueue.new 4 600).after (sampleMoment 0 first second) (sampleRequest 'a')).after
    (sampleMoment 1 first second) (sampleRequest 'b')

theorem run_sampleQueue {condition : UploadQueue → Moment → Operation → Prop}
    {first second : WithTop ℚ}
    (hfirst : condition (.new 4 600) (sampleMoment 0 first second) (sampleRequest 'a'))
    (hsecond : condition
      ((UploadQueue.new 4 600).after (sampleMoment 0 first second) (sampleRequest 'a'))
      (sampleMoment 1 first second) (sampleRequest 'b')) :
    Run condition 4 600 1 (sampleQueue first second) :=
  have hstart : Run condition 4 600 0 (.new 4 600) := .start 0
  have hnow : (sampleMoment 0 first second).now ≤ (sampleMoment 1 first second).now := zero_le_one
  .next (.next hstart le_rfl hfirst) hnow hsecond

theorem sampleQueue_consistent : Consistent (sampleQueue 10 1) :=
  have hslots : (0 : Int) ≤ 4 := by decide
  upload_queue_consistent hslots (run_sampleQueue (by decide +kernel) (by decide +kernel))

/-- A later client of the same priority with a greater bonus has rank 1, but the
slot goes to the client with rank 2. -/
theorem credit_bonus_splits_orders :
    ¬ ∀ now queue, Run (fun _ _ _ => True) 4 600 now queue → Consistent queue := by
  intro hall
  have hnext : ((sampleQueue 1 10).next_for_slot.map UploadClient.rank) = some 2 := by
    decide +kernel
  obtain ⟨client, hclient, hrank⟩ := Option.map_eq_some_iff.mp hnext
  have hhead := (hall 1 _ (run_sampleQueue trivial trivial)).head client hclient
  omega

end amuled.upload
