import AmuleD.Kad.Placed

namespace amuled.kad.RoutingZone

variable {own_id : KadUInt128} {stem : Nat} {now : ℚ} {node : KadNodeInfo}

/-- A bin that is not full takes a new identifier. -/
theorem bin_add_of_new {bin : RoutingBin} {contact : RoutingContact} (now : ℚ)
    (hid : contact.kad_id ∉ bin.map RoutingContact.kad_id) (hroom : bin.length < K) :
    bin.add now contact = (bin ++ [contact], true) := by
  obtain ⟨existing, refreshed, hsame, _, _, hreplaced⟩ | ⟨_, _, hadd⟩ | ⟨_, hfull, _⟩ :=
    RoutingBin.add_cases bin now contact
  · exact absurd (hsame ▸ List.mem_map_of_mem hreplaced.1) hid
  · exact hadd
  · omega

theorem bin_add_of_refused {bin : RoutingBin} {contact : RoutingContact}
    (hrefused : ¬(bin.add now contact).2 = true) : (bin.add now contact).1 = bin := by
  obtain ⟨_, _, _, _, hadded, _⟩ | ⟨_, _, hadd⟩ | ⟨_, _, hadd⟩ :=
    RoutingBin.add_cases bin now contact
  · exact absurd hadded hrefused
  · exact absurd (congrArg Prod.snd hadd) hrefused
  · exact congrArg Prod.fst hadd

/-- No bin refuses a contact while a full bin of different identifiers is distributed. -/
theorem foldl_migrate {level : Nat} {contacts : List RoutingContact} {left right : RoutingBin}
    (hroom : left.length + right.length + contacts.length ≤ K)
    (hleft : ((left ++ contacts).map RoutingContact.kad_id).Nodup)
    (hright : ((right ++ contacts).map RoutingContact.kad_id).Nodup) :
    contacts.foldl (migrate own_id now level) (left, right) =
      (left ++ contacts.filter (fun contact => side own_id level contact.node = 0),
        right ++ contacts.filter (fun contact => ¬ side own_id level contact.node = 0)) := by
  induction contacts generalizing left right with
  | nil => simp
  | cons contact rest ih =>
    rw [List.length_cons] at hroom
    have hleftId : contact.kad_id ∉ left.map RoutingContact.kad_id := by
      intro hmem
      rw [List.map_append, List.nodup_append] at hleft
      exact hleft.2.2 _ hmem _ List.mem_cons_self rfl
    have hrightId : contact.kad_id ∉ right.map RoutingContact.kad_id := by
      intro hmem
      rw [List.map_append, List.nodup_append] at hright
      exact hright.2.2 _ hmem _ List.mem_cons_self rfl
    have hdrop : ∀ bin : RoutingBin, ((bin ++ contact :: rest).map RoutingContact.kad_id).Nodup →
        ((bin ++ rest).map RoutingContact.kad_id).Nodup := by
      intro bin hnodup
      exact hnodup.sublist (((List.sublist_cons_self contact rest).append_left bin).map _)
    rw [List.foldl_cons, migrate]
    by_cases hside : side own_id level contact.node = 0
    · rw [if_pos hside, bin_add_of_new now hleftId (by omega), ih]
      · simp [hside]
      · simp only [List.length_append, List.length_singleton]
        omega
      · simpa using hleft
      · exact hdrop right hright
    · rw [if_neg hside, bin_add_of_new now hrightId (by omega), ih]
      · simp [hside]
      · simp only [List.length_append, List.length_singleton]
        omega
      · exact hdrop left hleft
      · simpa using hright

/-- The zone that a leaf becomes when it is split. -/
def splitZone (own_id : KadUInt128) (now : ℚ) (level zone_index : Nat) (bin : RoutingBin) :
    RoutingZone :=
  .branch level zone_index (.leaf (level + 1) (zone_index <<< 1) (split own_id now level bin).1)
    (.leaf (level + 1) (zone_index <<< 1 ||| 1) (split own_id now level bin).2)

section Split

variable {level zone_index : Nat} {bin : RoutingBin}

theorem split_eq (now : ℚ) (h : (leaf level zone_index bin).Placed own_id stem) :
    split own_id now level bin =
      (bin.reverse.filter (fun contact => side own_id level contact.node = 0),
        bin.reverse.filter (fun contact => ¬ side own_id level contact.node = 0)) := by
  have hnodup : (bin.reverse.map RoutingContact.kad_id).Nodup := by
    rw [List.map_reverse, List.nodup_reverse]
    exact h.2.2.1
  rw [split, RoutingBin.contacts, foldl_migrate]
  · rfl
  · simpa using h.2.1
  · exact hnodup
  · exact hnodup

/-- A split leaves every contact in place and drops none. -/
theorem placed_splitZone (now : ℚ) (h : (leaf level zone_index bin).Placed own_id stem) (hlevel : level < 127) :
    (splitZone own_id now level zone_index bin).Placed own_id stem := by
  have hsplit := split_eq now h
  obtain ⟨_, hlength, hnodup, hpath⟩ := h
  rw [← List.nodup_reverse, ← List.map_reverse] at hnodup
  have hfilter : ∀ keep : RoutingContact → Bool,
      (bin.reverse.filter keep).length ≤ K ∧
        ((bin.reverse.filter keep).map RoutingContact.kad_id).Nodup := by
    intro keep
    have hshorter := List.length_filter_le keep bin.reverse
    rw [List.length_reverse] at hshorter
    exact ⟨by omega, hnodup.sublist (List.filter_sublist.map _)⟩
  rw [splitZone, hsplit]
  refine ⟨hlevel, rfl, rfl, ⟨by omega, (hfilter _).1, (hfilter _).2, ?_⟩,
    ⟨by omega, (hfilter _).1, (hfilter _).2, ?_⟩⟩
  · intro contact hcontact
    obtain ⟨hmem, hside⟩ := List.mem_filter.mp hcontact
    rw [path_succ _ _ (by omega), hpath contact (List.mem_reverse.mp hmem), of_decide_eq_true hside,
      Nat.add_zero]
  · intro contact hcontact
    obtain ⟨hmem, hside⟩ := List.mem_filter.mp hcontact
    have hlt := side_lt own_id contact.node (by omega : level < 128)
    have hne := of_decide_eq_true hside
    rw [path_succ _ _ (by omega), hpath contact (List.mem_reverse.mp hmem)]
    omega

theorem mem_splitZone (h : (leaf level zone_index bin).Placed own_id stem)
    {contact : RoutingContact} :
    contact ∈ (splitZone own_id now level zone_index bin).entries ↔ contact ∈ bin := by
  simp only [splitZone, split_eq now h, entries, RoutingBin.contacts, List.mem_append,
    List.mem_reverse, List.mem_filter, decide_eq_true_eq, ← and_or_left, Decidable.em, and_true]

end Split

/-- What `add` does to a zone: the node is stored where it reports this, and every contact
stays, except that one with the identifier of the node is refreshed. -/
structure Added (own_id : KadUInt128) (node : KadNodeInfo) (stem : Nat) (before : RoutingZone)
    (after : RoutingZone × Bool) : Prop where
  placed : after.1.Placed own_id stem
  level : after.1.level = before.level
  stored : after.2 = true → node ∈ after.1.all_contacts
  kept : ∀ other ∈ before.all_contacts, other ∈ after.1.all_contacts ∨
    (other.kad_id = node.kad_id ∧ node ∈ after.1.all_contacts)

theorem all_contacts_branch (level zone_index : Nat) (left right : RoutingZone) :
    (branch level zone_index left right).all_contacts = left.all_contacts ++ right.all_contacts := by
  simp [all_contacts, entries]

theorem mem_all_contacts_leaf {level zone_index : Nat} {bin : RoutingBin} :
    node ∈ (leaf level zone_index bin).all_contacts ↔ ∃ contact ∈ bin, contact.node = node := by
  simp [all_contacts, entries, RoutingBin.contacts]

section Branch

variable {level zone_index : Nat} {left right : RoutingZone} {child : RoutingZone × Bool}

theorem Added.in_left (h : (branch level zone_index left right).Placed own_id stem)
    (hadded : Added own_id node (2 * stem) left child) :
    Added own_id node stem (branch level zone_index left right)
      (branch level zone_index child.1 right, child.2) := by
  obtain ⟨hlevel, hleftLevel, hrightLevel, _, hright⟩ := h
  constructor
  · exact ⟨hlevel, hadded.level.trans hleftLevel, hrightLevel, hadded.placed, hright⟩
  · rfl
  · intro hstored
    rw [all_contacts_branch]
    exact List.mem_append_left _ (hadded.stored hstored)
  · intro other hother
    rw [all_contacts_branch, List.mem_append] at hother ⊢
    rw [List.mem_append]
    cases hother with
    | inl hmem =>
      cases hadded.kept other hmem with
      | inl hkept => exact .inl (.inl hkept)
      | inr hrefreshed => exact .inr ⟨hrefreshed.1, .inl hrefreshed.2⟩
    | inr hmem => exact .inl (.inr hmem)

theorem Added.in_right (h : (branch level zone_index left right).Placed own_id stem)
    (hadded : Added own_id node (2 * stem + 1) right child) :
    Added own_id node stem (branch level zone_index left right)
      (branch level zone_index left child.1, child.2) := by
  obtain ⟨hlevel, hleftLevel, hrightLevel, hleft, _⟩ := h
  constructor
  · exact ⟨hlevel, hleftLevel, hadded.level.trans hrightLevel, hleft, hadded.placed⟩
  · rfl
  · intro hstored
    rw [all_contacts_branch]
    exact List.mem_append_right _ (hadded.stored hstored)
  · intro other hother
    rw [all_contacts_branch, List.mem_append] at hother ⊢
    rw [List.mem_append]
    cases hother with
    | inl hmem => exact .inl (.inl hmem)
    | inr hmem =>
      cases hadded.kept other hmem with
      | inl hkept => exact .inl (.inr hkept)
      | inr hrefreshed => exact .inr ⟨hrefreshed.1, .inr hrefreshed.2⟩

end Branch

/-- `RoutingBin.add` as an `add` in a leaf. -/
theorem added_of_bin_add (now : ℚ) {level zone_index : Nat} {bin : RoutingBin}
    (h : (leaf level zone_index bin).Placed own_id stem) (hpath : path own_id level node = stem) :
    Added own_id node stem (leaf level zone_index bin)
      (leaf level zone_index (bin.add now (.new node)).1, (bin.add now (.new node)).2) := by
  obtain ⟨existing, refreshed, hsame, hnode, hadded, hreplaced⟩ | ⟨hid, hroom, hadd⟩ |
    ⟨hid, hfull, hadd⟩ := RoutingBin.add_cases bin now (.new node)
  · change existing.kad_id = node.kad_id at hsame
    change refreshed.node = node at hnode
    have hid : refreshed.kad_id = existing.kad_id := by
      rw [hsame, ← hnode]
      rfl
    have hstored : node ∈ (leaf level zone_index (bin.add now (.new node)).1).all_contacts :=
      mem_all_contacts_leaf.mpr ⟨refreshed, hreplaced.new_mem, hnode⟩
    refine ⟨h.of_subperm (hreplaced.kad_ids hid).subperm, rfl, fun _ => hstored, ?_⟩
    intro other hother
    obtain ⟨contact, hcontact, rfl⟩ := mem_all_contacts_leaf.mp hother
    cases hreplaced.mem hcontact with
    | inl hkept => exact .inl (mem_all_contacts_leaf.mpr ⟨contact, hkept, rfl⟩)
    | inr hrefreshed =>
      subst hrefreshed
      exact .inr ⟨hsame, hstored⟩
  · rw [hadd]
    obtain ⟨hlevel, _, hnodup, hpaths⟩ := h
    refine ⟨⟨hlevel, ?_, ?_, ?_⟩, rfl, ?_, ?_⟩
    · rw [List.length_append, List.length_singleton]
      omega
    · rw [List.map_append, List.map_singleton, List.nodup_append]
      refine ⟨hnodup, List.nodup_singleton _, ?_⟩
      rintro old hold new hnew rfl
      exact hid (List.mem_singleton.mp hnew ▸ hold)
    · intro contact hcontact
      cases List.mem_append.mp hcontact with
      | inl hmem => exact hpaths contact hmem
      | inr hmem =>
        rw [List.mem_singleton.mp hmem]
        exact hpath
    · intro _
      exact mem_all_contacts_leaf.mpr ⟨.new node, List.mem_append_right _ (List.mem_singleton_self _), rfl⟩
    · intro other hother
      obtain ⟨contact, hcontact, rfl⟩ := mem_all_contacts_leaf.mp hother
      exact .inl (mem_all_contacts_leaf.mpr ⟨contact, List.mem_append_left _ hcontact, rfl⟩)
  · rw [hadd]
    exact ⟨h, rfl, fun hstored => absurd hstored Bool.false_ne_true, fun _ hother => .inl hother⟩

/-- A split loses no contact, so that an `add` after it is one to the zone before. -/
theorem Added.of_split (now : ℚ) {level zone_index : Nat} {bin : RoutingBin} {after : RoutingZone × Bool}
    (h : (leaf level zone_index bin).Placed own_id stem)
    (hadded : Added own_id node stem (splitZone own_id now level zone_index bin) after) :
    Added own_id node stem (leaf level zone_index bin) after := by
  refine ⟨hadded.placed, hadded.level, hadded.stored, ?_⟩
  intro other hother
  apply hadded.kept
  obtain ⟨contact, hcontact, rfl⟩ := mem_all_contacts_leaf.mp hother
  exact List.mem_map_of_mem ((mem_splitZone h).mpr hcontact)

theorem added_add_to_leaf {outside level zone_index : Nat} {bin : RoutingBin}
    (h : (leaf level zone_index bin).Placed own_id stem) (hpath : path own_id level node = stem) :
    Added own_id node stem (leaf level zone_index bin)
      (add_to_leaf own_id now node outside level zone_index bin) := by
  fun_induction add_to_leaf generalizing stem with
  | case1 outside level zone_index bin added =>
    rename_i htaken
    have hadded := added_of_bin_add now h hpath
    rwa [htaken] at hadded
  | case2 outside level zone_index bin added hrefused hcan children hside left =>
    rename_i ih
    have hsame : added.1 = bin := bin_add_of_refused hrefused
    have hchildren : children = split own_id now level bin := by rw [← hsame]
    have hlevel := level_lt_of_can_split hcan
    have hsplit := placed_splitZone now h hlevel
    have hnode := path_succ own_id node (by omega : level < 128)
    apply Added.of_split now h
    rw [splitZone, ← hchildren] at hsplit ⊢
    exact Added.in_left hsplit (ih hsplit.2.2.2.1 (by omega))
  | case3 outside level zone_index bin added hrefused hcan children hside right =>
    rename_i ih
    have hsame : added.1 = bin := bin_add_of_refused hrefused
    have hchildren : children = split own_id now level bin := by rw [← hsame]
    have hlevel := level_lt_of_can_split hcan
    have hsplit := placed_splitZone now h hlevel
    have hnode := path_succ own_id node (by omega : level < 128)
    have hside_lt := side_lt own_id node (by omega : level < 128)
    apply Added.of_split now h
    rw [splitZone, ← hchildren] at hsplit ⊢
    exact Added.in_right hsplit (ih hsplit.2.2.2.2 (by omega))
  | case4 outside level zone_index bin added hrefused =>
    have hadded := added_of_bin_add now h hpath
    rwa [Bool.eq_false_iff.mpr hrefused] at hadded

theorem added_add {outside : Nat} {zone : RoutingZone} (h : zone.Placed own_id stem)
    (hpath : path own_id zone.level node = stem) :
    Added own_id node stem zone (zone.add own_id now node outside) := by
  induction zone generalizing stem outside with
  | leaf level zone_index bin => exact added_add_to_leaf h hpath
  | branch level zone_index left right ihleft ihright =>
    have hlevel : level < 127 := h.1
    have hleftLevel : left.level = level + 1 := h.2.1
    have hrightLevel : right.level = level + 1 := h.2.2.1
    have hnode := path_succ own_id node (by omega : level < 128)
    have hlt := side_lt own_id node (by omega : level < 128)
    change path own_id level node = stem at hpath
    rw [add]
    by_cases hside : side own_id level node = 0
    · rw [if_pos hside]
      exact Added.in_left h (ihleft h.2.2.2.1 (by rw [hleftLevel]; omega))
    · rw [if_neg hside]
      exact Added.in_right h (ihright h.2.2.2.2 (by rw [hrightLevel]; omega))

end amuled.kad.RoutingZone
