import AmuleD.Kad.RoutingZone

namespace amuled.kad

/-- How many contacts of a bin have an address. -/
def RoutingBin.countKey (bin : RoutingBin) (key : String × Nat) : Nat :=
  bin.countP fun contact => contact.key = key

section Bin

variable {bin : RoutingBin} {key : String × Nat} {contact : RoutingContact}

theorem RoutingBin.countKey_eq_zero_iff :
    bin.countKey key = 0 ↔ ∀ contact ∈ bin, contact.key ≠ key := by
  rw [RoutingBin.countKey, List.countP_eq_zero]
  simp only [decide_eq_true_eq, ne_eq]

/-- A contact that is removed takes one of its address away, and nothing of another address. -/
theorem RoutingBin.countKey_remove_contact (hcontact : contact ∈ bin) (hkey : contact.key = key) :
    (bin.remove_contact contact).countKey key + 1 = bin.countKey key := by
  have hperm := List.perm_cons_erase hcontact
  rw [RoutingBin.countKey, RoutingBin.countKey, hperm.countP_eq,
    List.countP_cons_of_pos (by simpa using hkey)]
  rfl

theorem RoutingBin.mem_remove_contact {other : RoutingContact} (hother : other ∈ bin)
    (hcontact : contact.key = key) (hne : other.key ≠ key) : other ∈ bin.remove_contact contact := by
  refine (List.mem_erase_of_ne ?_).mpr hother
  rintro rfl
  exact hne hcontact

theorem RoutingBin.get_contact_by_key_some (hfound : bin.get_contact_by_key key = some contact) :
    contact ∈ bin ∧ contact.key = key := by
  have hkey := List.find?_some hfound
  exact ⟨List.mem_of_find?_eq_some hfound, of_decide_eq_true hkey⟩

theorem RoutingBin.get_contact_by_key_none (hmissing : bin.get_contact_by_key key = none) :
    bin.countKey key = 0 := by
  rw [RoutingBin.countKey_eq_zero_iff]
  intro contact hcontact hkey
  have hnone := List.find?_eq_none.mp hmissing contact hcontact
  exact hnone (decide_eq_true hkey)

end Bin

namespace RoutingZone

variable {zone : RoutingZone} {key : String × Nat}

theorem mem_entries_iff {contact : RoutingContact} :
    contact ∈ zone.entries ↔ ∃ bin ∈ zone.bins, contact ∈ bin := by
  induction zone with
  | leaf level zone_index bin => simp [entries, bins, RoutingBin.contacts]
  | branch level zone_index left right ihleft ihright =>
    simp only [entries, bins, List.mem_append, ihleft, ihright]
    constructor
    · rintro (⟨bin, hbin, hmem⟩ | ⟨bin, hbin, hmem⟩)
      · exact ⟨bin, .inl hbin, hmem⟩
      · exact ⟨bin, .inr hbin, hmem⟩
    · rintro ⟨bin, hbin | hbin, hmem⟩
      · exact .inl ⟨bin, hbin, hmem⟩
      · exact .inr ⟨bin, hbin, hmem⟩

/-- Every bin loses one contact of the address, where it has any. -/
theorem countKey_bins_remove (zone : RoutingZone) (key : String × Nat) :
    (zone.remove key).1.bins.map (RoutingBin.countKey · key) =
      zone.bins.map (RoutingBin.countKey · key - 1) := by
  induction zone with
  | leaf level zone_index bin =>
    rw [remove]
    cases hfound : bin.get_contact_by_key key with
    | none =>
      have hzero := RoutingBin.get_contact_by_key_none hfound
      simp only [bins, List.map_cons, List.map_nil, hzero]
    | some contact =>
      obtain ⟨hcontact, hkey⟩ := RoutingBin.get_contact_by_key_some hfound
      have hcount := RoutingBin.countKey_remove_contact hcontact hkey
      simp only [bins, List.map_cons, List.map_nil, ← hcount, Nat.add_sub_cancel]
  | branch level zone_index left right ihleft ihright =>
    simp only [remove, bins, List.map_append, ihleft, ihright]

/-- What `remove` reports is whether there was a contact of the address. -/
theorem remove_reports (zone : RoutingZone) (key : String × Nat) :
    (zone.remove key).2 = true ↔ ∃ contact ∈ zone.entries, contact.key = key := by
  induction zone with
  | leaf level zone_index bin =>
    rw [remove]
    cases hfound : bin.get_contact_by_key key with
    | none =>
      have hnone := RoutingBin.countKey_eq_zero_iff.mp (RoutingBin.get_contact_by_key_none hfound)
      simpa [entries, RoutingBin.contacts] using hnone
    | some contact =>
      obtain ⟨hcontact, hkey⟩ := RoutingBin.get_contact_by_key_some hfound
      exact iff_of_true rfl ⟨contact, by simpa [entries, RoutingBin.contacts] using hcontact, hkey⟩
  | branch level zone_index left right ihleft ihright =>
    simp only [remove, entries, Bool.or_eq_true, ihleft, ihright, List.mem_append]
    constructor
    · rintro (⟨contact, hmem, hkey⟩ | ⟨contact, hmem, hkey⟩)
      · exact ⟨contact, .inl hmem, hkey⟩
      · exact ⟨contact, .inr hmem, hkey⟩
    · rintro ⟨contact, hmem | hmem, hkey⟩
      · exact .inl ⟨contact, hmem, hkey⟩
      · exact .inr ⟨contact, hmem, hkey⟩

/-- Contacts of other addresses stay as they are. -/
theorem remove_keeps {contact : RoutingContact} (hcontact : contact ∈ zone.entries)
    (hother : contact.key ≠ key) : contact ∈ (zone.remove key).1.entries := by
  induction zone with
  | leaf level zone_index bin =>
    rw [remove]
    cases hfound : bin.get_contact_by_key key with
    | none => exact hcontact
    | some found =>
      simp only [entries, RoutingBin.contacts, List.mem_reverse] at hcontact ⊢
      exact RoutingBin.mem_remove_contact hcontact (RoutingBin.get_contact_by_key_some hfound).2 hother
  | branch level zone_index left right ihleft ihright =>
    simp only [remove, entries, List.mem_append] at hcontact ⊢
    exact hcontact.imp ihleft ihright

/-- What `remove` is for: no contact of the address stays, it reports whether there was
one, and every other contact stays. -/
structure Removes (zone : RoutingZone) (ip : String) (udp_port : Nat) : Prop where
  gone : ∀ contact ∈ (zone.remove (ip, udp_port)).1.entries, contact.key ≠ (ip, udp_port)
  reports : (zone.remove (ip, udp_port)).2 = true ↔ ∃ contact ∈ zone.entries, contact.key = (ip, udp_port)
  keeps : ∀ contact ∈ zone.entries, contact.key ≠ (ip, udp_port) →
    contact ∈ (zone.remove (ip, udp_port)).1.entries

theorem forall_entries_iff :
    (∀ contact ∈ zone.entries, contact.key ≠ key) ↔ ∀ bin ∈ zone.bins, bin.countKey key = 0 := by
  simp only [mem_entries_iff, RoutingBin.countKey_eq_zero_iff]
  constructor
  · intro hnone bin hbin contact hcontact
    exact hnone contact ⟨bin, hbin, hcontact⟩
  · rintro hnone contact ⟨bin, hbin, hcontact⟩
    exact hnone bin hbin contact hcontact

/-- `remove` stops in each bin at the first contact of the address, so it does its work
exactly where no bin has two of them. -/
theorem remove_removes_iff (own_id : KadUInt128) (calls : List ZoneCall) (ip : String) (udp_port : Nat) :
    (run own_id calls).Removes ip udp_port ↔
      ∀ bin ∈ (run own_id calls).bins, bin.countKey (ip, udp_port) ≤ 1 := by
  have hgone : (∀ contact ∈ ((run own_id calls).remove (ip, udp_port)).1.entries,
      contact.key ≠ (ip, udp_port)) ↔ ∀ bin ∈ (run own_id calls).bins, bin.countKey (ip, udp_port) ≤ 1 := by
    rw [forall_entries_iff, ← List.forall_mem_map (P := (· = 0)), countKey_bins_remove, List.forall_mem_map]
    simp only [Nat.sub_eq_zero_iff_le]
  rw [← hgone]
  constructor
  · exact Removes.gone
  · intro hremoved
    exact ⟨hremoved, remove_reports _ _, fun contact => remove_keeps⟩

/-- A contact of one address under an identifier that repeats a byte. -/
def sampleNode (byte : UInt8) : KadNodeInfo where
  kad_id := List.replicate 16 byte
  ip := "10.0.0.1"
  udp_port := 4672
  tcp_port := 4662
  contact_version := 8
  verified := true
  udp_key := 0
  length_kad_id := rfl

/-- Two identifiers of one address in one bin: the second contact outlives the removal. -/
theorem remove_leaves_second :
    ¬ ∀ (own_id : KadUInt128) (calls : List ZoneCall) (ip : String) (udp_port : Nat),
      (run own_id calls).Removes ip udp_port := by
  intro hall
  have hremoves := hall (to_kad_uint128 (List.replicate 16 0) rfl)
    [.add 0 (sampleNode 1), .add 0 (sampleNode 2)] "10.0.0.1" 4672
  have hrun : run (to_kad_uint128 (List.replicate 16 0) rfl)
      [.add 0 (sampleNode 1), .add 0 (sampleNode 2)] =
        .leaf 0 0 [.new (sampleNode 1), .new (sampleNode 2)] := by
    simp [run, RoutingZone.after, new, add, add_to_leaf, RoutingBin.add, RoutingContact.kad_id,
      RoutingContact.new, sampleNode, K]
  have hgone := hremoves.gone (.new (sampleNode 2))
  rw [hrun] at hgone
  exact hgone (by decide +kernel) rfl

end RoutingZone

end amuled.kad
