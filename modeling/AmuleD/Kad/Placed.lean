import Mathlib.Data.List.Perm.Subperm
import AmuleD.Kad.RoutingZone
import AmuleD.Xor.Metric

open xormetric

namespace amuled.kad

/-- The bits of the distance of a node above a level. -/
def path (own_id : KadUInt128) (level : Nat) (node : KadNodeInfo) : Nat :=
  (distance own_id node).value >>> (128 - level)

theorem distance_congr {own_id : KadUInt128} {node node' : KadNodeInfo}
    (hid : node.kad_id = node'.kad_id) : distance own_id node = distance own_id node' := by
  cases node
  cases node'
  cases hid
  rfl

theorem distance_inj {own_id : KadUInt128} {node node' : KadNodeInfo}
    (hdistance : (distance own_id node).value = (distance own_id node').value) :
    node.kad_id = node'.kad_id :=
  to_kad_uint128_inj node.length_kad_id node'.length_kad_id (xor_left_inj.mp hdistance)

theorem path_zero (own_id : KadUInt128) (node : KadNodeInfo) : path own_id 0 node = 0 := by
  rw [path, Nat.shiftRight_eq_div_pow]
  exact Nat.div_eq_of_lt (distance own_id node).inRange

theorem side_eq {own_id : KadUInt128} {level : Nat} (node : KadNodeInfo) (hlevel : level < 128) :
    side own_id level node = ((distance own_id node).value.testBit (127 - level)).toNat :=
  bit_at_level_eq hlevel

theorem side_lt (own_id : KadUInt128) {level : Nat} (node : KadNodeInfo) (hlevel : level < 128) :
    side own_id level node < 2 := by
  rw [side_eq node hlevel]
  exact Bool.toNat_lt _

/-- A level down, the path is longer by the side of the node. -/
theorem path_succ (own_id : KadUInt128) {level : Nat} (node : KadNodeInfo) (hlevel : level < 128) :
    path own_id (level + 1) node = 2 * path own_id level node + side own_id level node := by
  have hbits := shiftRight_eq_two_mul_add (distance own_id node).value (127 - level)
  have hchild : 128 - (level + 1) = 127 - level := by omega
  have hzone : 127 - level + 1 = 128 - level := by omega
  rw [hzone] at hbits
  rw [path, path, side_eq node hlevel, hchild, hbits]

namespace RoutingZone

/-- The contacts of a zone are those with its path, at most `K` in a bin and none twice. -/
def Placed (own_id : KadUInt128) : Nat → RoutingZone → Prop
  | stem, .leaf level _ bin =>
    level ≤ 127 ∧ bin.length ≤ K ∧ (bin.map RoutingContact.kad_id).Nodup ∧
      ∀ contact ∈ bin, path own_id level contact.node = stem
  | stem, .branch level _ left right =>
    level < 127 ∧ left.level = level + 1 ∧ right.level = level + 1 ∧
      left.Placed own_id (2 * stem) ∧ right.Placed own_id (2 * stem + 1)

variable {own_id : KadUInt128} {stem : Nat} {zone zone' : RoutingZone} {bin bin' : RoutingBin}

theorem placed_new (own_id : KadUInt128) : new.Placed own_id 0 := by
  simp [Placed, new]

theorem Placed.path_eq (h : zone.Placed own_id stem) :
    ∀ contact ∈ zone.entries, path own_id zone.level contact.node = stem := by
  induction zone generalizing stem with
  | leaf level zone_index bin =>
    intro contact hcontact
    exact h.2.2.2 contact (List.mem_reverse.mp hcontact)
  | branch level zone_index left right ihleft ihright =>
    obtain ⟨hlevel, hleftLevel, hrightLevel, hleft, hright⟩ := h
    intro contact hcontact
    have hsucc := path_succ own_id contact.node (by omega : level < 128)
    have hside := side_lt own_id contact.node (by omega : level < 128)
    rw [entries, List.mem_append] at hcontact
    change path own_id level contact.node = stem
    cases hcontact with
    | inl hmem =>
      have hpath := ihleft hleft contact hmem
      rw [hleftLevel] at hpath
      omega
    | inr hmem =>
      have hpath := ihright hright contact hmem
      rw [hrightLevel] at hpath
      omega

/-- No identifier occurs twice: the sub-zones of a zone have different paths. -/
theorem Placed.nodup (h : zone.Placed own_id stem) :
    (zone.entries.map RoutingContact.kad_id).Nodup := by
  induction zone generalizing stem with
  | leaf level zone_index bin =>
    rw [entries, RoutingBin.contacts, List.map_reverse, List.nodup_reverse]
    exact h.2.2.1
  | branch level zone_index left right ihleft ihright =>
    obtain ⟨_, hleftLevel, hrightLevel, hleft, hright⟩ := h
    rw [entries, List.map_append, List.nodup_append]
    refine ⟨ihleft hleft, ihright hright, ?_⟩
    intro leftId hleftId rightId hrightId heq
    obtain ⟨near, hnear, rfl⟩ := List.mem_map.mp hleftId
    obtain ⟨far, hfar, rfl⟩ := List.mem_map.mp hrightId
    have hnearPath := hleft.path_eq near hnear
    have hfarPath := hright.path_eq far hfar
    rw [hleftLevel, path, distance_congr heq] at hnearPath
    rw [hrightLevel, path] at hfarPath
    omega

theorem Placed.length_le (h : zone.Placed own_id stem) : ∀ bin ∈ zone.bins, bin.length ≤ K := by
  induction zone generalizing stem with
  | leaf level zone_index bin =>
    intro bin' hbin
    rw [List.mem_singleton.mp hbin]
    exact h.2.1
  | branch level zone_index left right ihleft ihright =>
    intro bin hbin
    rw [bins, List.mem_append] at hbin
    cases hbin with
    | inl hmem => exact ihleft h.2.2.2.1 bin hmem
    | inr hmem => exact ihright h.2.2.2.2 bin hmem

/-- A bin stays in place while no new identifier comes in. -/
theorem Placed.of_subperm {level zone_index : Nat} (h : (leaf level zone_index bin).Placed own_id stem)
    (hids : (bin'.map RoutingContact.kad_id).Subperm (bin.map RoutingContact.kad_id)) :
    (leaf level zone_index bin').Placed own_id stem := by
  obtain ⟨hlevel, hlength, hnodup, hpath⟩ := h
  refine ⟨hlevel, ?_, ?_, ?_⟩
  · have hshorter := hids.length_le
    rw [List.length_map, List.length_map] at hshorter
    omega
  · obtain ⟨kept, hperm, hsublist⟩ := hids
    exact hperm.nodup_iff.mp (hsublist.nodup hnodup)
  · intro contact hcontact
    obtain ⟨old, hold, hid⟩ := List.mem_map.mp (hids.subset (List.mem_map_of_mem hcontact))
    rw [path, ← distance_congr hid]
    exact hpath old hold

section Marks

variable (now : ℚ) (key : String × Nat)

theorem bin_mark_alive_subperm (bin : RoutingBin) :
    (((bin.mark_alive now key).1).map RoutingContact.kad_id).Subperm
      (bin.map RoutingContact.kad_id) := by
  rw [RoutingBin.mark_alive]
  split
  · rename_i contact hfound
    have hreplaced := RoutingBin.replaced_of_push
      { contact.update_type now with last_seen := now } (List.mem_of_find?_eq_some hfound)
    exact (hreplaced.kad_ids rfl).subperm
  · exact (List.Perm.refl _).subperm

theorem bin_mark_failed_subperm (bin : RoutingBin) :
    (((bin.mark_failed key).1).map RoutingContact.kad_id).Subperm
      (bin.map RoutingContact.kad_id) := by
  rw [RoutingBin.mark_failed]
  split
  · rename_i contact hfound
    have hreplaced := RoutingBin.replaced_of_replace
      { contact with fails := contact.fails + 1 }.checking_type.1
      (List.mem_of_find?_eq_some hfound)
    refine (hreplaced.kad_ids ?_).subperm
    rw [RoutingContact.checking_type]
    split <;> rfl
  · exact (List.Perm.refl _).subperm

theorem level_mark_alive (zone : RoutingZone) : (zone.mark_alive now key).1.level = zone.level := by
  cases zone with
  | leaf level zone_index bin => rfl
  | branch level zone_index left right =>
    rw [mark_alive]
    split <;> rfl

theorem level_mark_failed (zone : RoutingZone) : (zone.mark_failed key).1.level = zone.level := by
  cases zone with
  | leaf level zone_index bin => rfl
  | branch level zone_index left right =>
    rw [mark_failed]
    split <;> rfl

theorem level_remove (zone : RoutingZone) : (zone.remove key).1.level = zone.level := by
  cases zone with
  | leaf level zone_index bin =>
    rw [remove]
    split <;> rfl
  | branch level zone_index left right => rfl

theorem Placed.mark_alive (h : zone.Placed own_id stem) :
    (zone.mark_alive now key).1.Placed own_id stem := by
  induction zone generalizing stem with
  | leaf level zone_index bin => exact h.of_subperm (bin_mark_alive_subperm now key bin)
  | branch level zone_index left right ihleft ihright =>
    obtain ⟨hlevel, hleftLevel, hrightLevel, hleft, hright⟩ := h
    rw [← level_mark_alive now key left] at hleftLevel
    rw [RoutingZone.mark_alive]
    split
    · exact ⟨hlevel, hleftLevel, hrightLevel, ihleft hleft, hright⟩
    · rw [← level_mark_alive now key right] at hrightLevel
      exact ⟨hlevel, hleftLevel, hrightLevel, ihleft hleft, ihright hright⟩

theorem Placed.mark_failed (h : zone.Placed own_id stem) :
    (zone.mark_failed key).1.Placed own_id stem := by
  induction zone generalizing stem with
  | leaf level zone_index bin => exact h.of_subperm (bin_mark_failed_subperm key bin)
  | branch level zone_index left right ihleft ihright =>
    obtain ⟨hlevel, hleftLevel, hrightLevel, hleft, hright⟩ := h
    rw [← level_mark_failed key left] at hleftLevel
    rw [RoutingZone.mark_failed]
    split
    · exact ⟨hlevel, hleftLevel, hrightLevel, ihleft hleft, hright⟩
    · rw [← level_mark_failed key right] at hrightLevel
      exact ⟨hlevel, hleftLevel, hrightLevel, ihleft hleft, ihright hright⟩

theorem Placed.remove (h : zone.Placed own_id stem) :
    (zone.remove key).1.Placed own_id stem := by
  induction zone generalizing stem with
  | leaf level zone_index bin =>
    rw [RoutingZone.remove]
    split
    · rename_i contact _
      exact h.of_subperm ((List.erase_sublist (a := contact)).map _).subperm
    · exact h
  | branch level zone_index left right ihleft ihright =>
    obtain ⟨hlevel, hleftLevel, hrightLevel, hleft, hright⟩ := h
    rw [← level_remove key left] at hleftLevel
    rw [← level_remove key right] at hrightLevel
    exact ⟨hlevel, hleftLevel, hrightLevel, ihleft hleft, ihright hright⟩

end Marks

end RoutingZone

end amuled.kad
