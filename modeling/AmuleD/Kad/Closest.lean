import Mathlib.Data.List.Induction
import AmuleD.Kad.ZoneAdd

open sorting xormetric

namespace amuled.kad

namespace RoutingZone

/-- The distance that `_collect_closest` sorts by. -/
def nearness (target : KadUInt128) (contact : RoutingContact) : Nat :=
  (distance target contact.node).value

variable {own_id : KadUInt128} {stem : Nat} {zone : RoutingZone}

theorem Placed.nodup_nearness (h : zone.Placed own_id stem) (target : KadUInt128) :
    (zone.entries.map (nearness target)).Nodup := by
  have hids := h.nodup
  rw [List.Nodup, List.pairwise_map] at hids ⊢
  exact hids.imp fun hne heq => hne (distance_inj heq)

/-- At a zone, the nodes on the side of the target are the nearer ones. -/
theorem distance_lt_of_side {target : KadUInt128} {level : Nat} {near far : KadNodeInfo}
    (hlevel : level < 128) (hpath : path own_id level near = path own_id level far)
    (hnear : side own_id level near = bit_at_level (own_id.xor target) level)
    (hfar : side own_id level far ≠ bit_at_level (own_id.xor target) level) :
    (distance target near).value < (distance target far).value := by
  have hbit : 127 - level + 1 = 128 - level := by omega
  rw [side_eq _ hlevel, bit_at_level_eq hlevel] at hnear hfar
  rw [path, path, ← hbit] at hpath
  have hagree : (distance own_id near).value.testBit (127 - level)
      = (own_id.xor target).value.testBit (127 - level) := by
    cases hbits : (distance own_id near).value.testBit (127 - level) <;>
      cases htarget : (own_id.xor target).value.testBit (127 - level) <;>
      simp_all only [Bool.toNat_true, Bool.toNat_false, Nat.zero_ne_one, Nat.one_ne_zero]
  have hlt := xor_lt_xor_of_testBit (own_id.xor target).value hpath
    hagree (fun heq => hfar (congrArg Bool.toNat heq))
  simpa only [distance, KadUInt128.xor, xor_xor_xor_cancel] using hlt

/-- The sub-zone on the side of the target holds the nearer contacts. -/
theorem Placed.nearness_lt {level zone_index : Nat} {left right : RoutingZone}
    (h : (branch level zone_index left right).Placed own_id stem) (target : KadUInt128)
    {near far : RoutingContact} (hnear : near ∈ left.entries) (hfar : far ∈ right.entries) :
    if bit_at_level (own_id.xor target) level = 0 then nearness target near < nearness target far
    else nearness target far < nearness target near := by
  obtain ⟨hlevel, hleftLevel, hrightLevel, hleft, hright⟩ := h
  have hnearPath := hleft.path_eq near hnear
  have hfarPath := hright.path_eq far hfar
  have hnearSucc := path_succ own_id near.node (by omega : level < 128)
  have hfarSucc := path_succ own_id far.node (by omega : level < 128)
  have hnearSide := side_lt own_id near.node (by omega : level < 128)
  have hfarSide := side_lt own_id far.node (by omega : level < 128)
  rw [hleftLevel] at hnearPath
  rw [hrightLevel] at hfarPath
  have hsame : path own_id level near.node = path own_id level far.node := by omega
  split
  · exact distance_lt_of_side (by omega) hsame (by omega) (by omega)
  · have htarget : bit_at_level (own_id.xor target) level < 2 := by
      rw [bit_at_level_eq (by omega)]
      exact Bool.toNat_lt _
    exact distance_lt_of_side (by omega) hsame.symm (by omega) (by omega)

/-- The contacts of the nearer sub-zone come first, in the order of distance. -/
theorem Placed.sorted_entries {level zone_index : Nat} {left right : RoutingZone}
    (h : (branch level zone_index left right).Placed own_id stem) (target : KadUInt128) :
    sorted (nearness target) (branch level zone_index left right).entries =
      if bit_at_level (own_id.xor target) level = 0 then
        sorted (nearness target) left.entries ++ sorted (nearness target) right.entries
      else sorted (nearness target) right.entries ++ sorted (nearness target) left.entries := by
  have hnodup := h.nodup_nearness target
  rw [entries] at hnodup ⊢
  split
  · rename_i hleft
    apply sorted_append hnodup
    intro near hnear far hfar
    have hlt := h.nearness_lt target hnear hfar
    rwa [if_pos hleft] at hlt
  · rename_i hright
    have hswap : (right.entries ++ left.entries).Perm (left.entries ++ right.entries) :=
      List.perm_append_comm
    rw [← sorted_eq_of_perm hnodup hswap]
    apply sorted_append ((hswap.map _).nodup_iff.mpr hnodup)
    intro near hnear far hfar
    have hlt := h.nearness_lt target hfar hnear
    rwa [if_neg hright] at hlt

/-- Cutting two lists off at a count that the first one may already reach. -/
theorem take_append_of_room {α β : Type} (f : α → β) (results : List β) (near far : List α) {count : Int}
    (hroom : (results.length : Int) < count) :
    let closer := results ++ (near.take (count - results.length).toNat).map f
    (if closer.length < count then closer ++ (far.take (count - closer.length).toNat).map f
      else closer) = results ++ ((near ++ far).take (count - results.length).toNat).map f := by
  intro closer
  have hlength : closer.length = results.length + min (count - results.length).toNat near.length := by
    simp [closer]
  rw [List.take_append, List.map_append, ← List.append_assoc]
  split
  · have hfar : (count - closer.length).toNat = (count - results.length).toNat - near.length := by
      omega
    rw [hfar]
  · have hfar : (count - results.length).toNat - near.length = 0 := by omega
    rw [hfar, List.take_zero, List.map_nil, List.append_nil]

/-- The walk appends the nearest contacts of the zone. -/
theorem Placed.collect_closest_eq (h : zone.Placed own_id stem) (target : KadUInt128) (count : Int)
    (results : List KadNodeInfo) :
    zone.collect_closest own_id target count results = results ++
      ((sorted (nearness target) zone.entries).take (count - results.length).toNat).map
        RoutingContact.node := by
  induction zone generalizing stem results with
  | leaf level zone_index bin =>
    rw [collect_closest]
    split
    · have hnone : (count - results.length).toNat = 0 := by omega
      rw [hnone, List.take_zero, List.map_nil, List.append_nil]
    · rfl
  | branch level zone_index left right ihleft ihright =>
    rw [collect_closest]
    split
    · have hnone : (count - results.length).toNat = 0 := by omega
      rw [hnone, List.take_zero, List.map_nil, List.append_nil]
    · rename_i hroom
      rw [h.sorted_entries target]
      by_cases hcloser : bit_at_level (own_id.xor target) level = 0
      · simp only [if_pos hcloser, ihleft h.2.2.2.1, ihright h.2.2.2.2]
        exact take_append_of_room _ _ _ _ (by omega)
      · simp only [if_neg hcloser, ihleft h.2.2.2.1, ihright h.2.2.2.2]
        exact take_append_of_room _ _ _ _ (by omega)

/-- `closest` is a prefix of all contacts in the order of distance. -/
theorem Placed.closest_eq (h : zone.Placed own_id stem) (target : KadUInt128) (count : Int) :
    zone.closest own_id target count =
      (sorted (fun node => (distance target node).value) zone.all_contacts).take count.toNat := by
  rw [closest, h.collect_closest_eq, List.nil_append, all_contacts, sorted_map, List.map_take,
    List.length_nil, Int.natCast_zero, Int.sub_zero]
  rfl

theorem Placed.nodup_distance (h : zone.Placed own_id stem) (target : KadUInt128) :
    (zone.all_contacts.map fun node => (distance target node).value).Nodup := by
  rw [all_contacts, List.map_map]
  exact h.nodup_nearness target

/-- Every call keeps the contacts in place. -/
theorem placed_after (h : zone.Placed own_id 0) (hlevel : zone.level = 0) (call : ZoneCall) :
    (zone.after own_id call).Placed own_id 0 ∧ (zone.after own_id call).level = 0 := by
  cases call with
  | add now node =>
    have hadded : Added own_id node 0 zone (zone.add own_id now node 0) :=
      added_add h (by rw [hlevel]; exact path_zero own_id node)
    exact ⟨hadded.placed, hadded.level.trans hlevel⟩
  | mark_alive now ip udp_port => exact ⟨h.mark_alive now _, (level_mark_alive now _ zone).trans hlevel⟩
  | mark_failed ip udp_port => exact ⟨h.mark_failed _, (level_mark_failed _ zone).trans hlevel⟩
  | remove ip udp_port => exact ⟨h.remove _, (level_remove _ zone).trans hlevel⟩

theorem placed_run (own_id : KadUInt128) (calls : List ZoneCall) :
    (run own_id calls).Placed own_id 0 ∧ (run own_id calls).level = 0 := by
  induction calls using List.reverseRecOn with
  | nil => exact ⟨placed_new own_id, rfl⟩
  | append_singleton calls call ih =>
    rw [run, List.foldl_append]
    exact placed_after ih.1 ih.2 call

/-- The routing table after any calls: it has no identifier twice and no bin over `K`, an
`add` loses no contact, and `closest` returns the nearest contacts in order. -/
theorem routing_table_sound (own_id : KadUInt128) (calls : List ZoneCall) :
    let zone := run own_id calls
    (zone.all_contacts.map KadNodeInfo.kad_id).Nodup ∧
    (∀ bin ∈ zone.bins, bin.length ≤ K) ∧
    (∀ (now : ℚ) (node : KadNodeInfo),
      let added := zone.add own_id now node 0
      (added.2 = true → node ∈ added.1.all_contacts) ∧
      ∀ other ∈ zone.all_contacts, other ∈ added.1.all_contacts ∨
        (other.kad_id = node.kad_id ∧ node ∈ added.1.all_contacts)) ∧
    ∀ (target : KadUInt128) (count : Int),
      let nearest := zone.closest own_id target count
      (nearest.length : Int) = min (max count 0) zone.all_contacts.length ∧
      nearest.Pairwise (fun a b => (distance target a).value < (distance target b).value) ∧
      nearest ⊆ zone.all_contacts ∧
      ∀ a ∈ nearest, ∀ b ∈ zone.all_contacts, b ∉ nearest →
        (distance target a).value < (distance target b).value := by
  intro zone
  obtain ⟨hplaced, hlevel⟩ := placed_run own_id calls
  refine ⟨?_, hplaced.length_le, ?_, ?_⟩
  · rw [all_contacts, List.map_map]
    exact hplaced.nodup
  · intro now node
    have hadded : Added own_id node 0 zone (zone.add own_id now node 0) :=
      added_add hplaced (by rw [hlevel]; exact path_zero own_id node)
    exact ⟨hadded.stored, hadded.kept⟩
  · intro target count
    have hdistinct := hplaced.nodup_distance target
    simp only [zone, hplaced.closest_eq]
    refine ⟨?_, ?_, ?_, ?_⟩
    · rw [List.length_take, length_sorted]
      omega
    · exact (pairwise_lt_sorted hdistinct).sublist (List.take_sublist _ _)
    · intro node hnode
      exact mem_sorted.mp (List.mem_of_mem_take hnode)
    · intro a ha b hb hnot
      exact lt_of_notMem_take hdistinct ha hb hnot

end RoutingZone

end amuled.kad
