import Mathlib.Algebra.Ring.Parity
import AmuleD.Kad.Closest
import AmuleD.Recency
import AmuleD.Runs

open recency runs

namespace amuled.kad

/-- The identifiers of a bin, the front first. -/
def RoutingBin.ids (bin : RoutingBin) : List Bytes := bin.map RoutingContact.kad_id

instance (bin : RoutingBin) (id : Bytes) : Decidable (id ∈ bin.ids) :=
  decidable_of_iff (∃ contact ∈ bin, contact.kad_id = id) List.mem_map.symm

/-- `contacts` lists from the most recently to the least recently confirmed, by a log of
confirmations that has its latest first, and the front of the bin is its oldest contact. -/
structure RoutingBin.Listed (confirmed : List Bytes) (bin : RoutingBin) : Prop where
  contacts : bin.contacts.Pairwise fun newer older =>
    confirmed.idxOf newer.kad_id < confirmed.idxOf older.kad_id
  front : ∀ front rest, bin = front :: rest →
    ∀ contact ∈ rest, confirmed.idxOf contact.kad_id < confirmed.idxOf front.kad_id

namespace RoutingZone

/-- The contact that `mark_alive` confirms. -/
def alive_contact (key : String × Nat) : RoutingZone → Option RoutingContact
  | .leaf _ _ bin => bin.get_contact_by_key key
  | .branch _ _ left right => (left.alive_contact key).or (right.alive_contact key)

/-- Whether a leaf bin and a new node lie on one side of a level. -/
def OneSide (own_id : KadUInt128) (node : KadNodeInfo) (level : Nat) (bin : RoutingBin) : Prop :=
  ∀ contact ∈ bin, side own_id level contact.node = side own_id level node

instance (own_id : KadUInt128) (node : KadNodeInfo) (level : Nat) (bin : RoutingBin) :
    Decidable (OneSide own_id node level bin) :=
  inferInstanceAs (Decidable (∀ contact ∈ bin, side own_id level contact.node = side own_id level node))

/-- How many levels a full bin is taken down for a new node: as long as all of it lies on
the side of the node and the zone there may be split as well. -/
def leaf_splits (own_id : KadUInt128) (node : KadNodeInfo) (bin : RoutingBin)
    (outside level zone_index : Nat) : Nat :=
  if _hsplit : can_split level zone_index bin outside = true then
    if OneSide own_id node level bin then
      leaf_splits own_id node bin outside (level + 1) (zone_index <<< 1 ||| side own_id level node) + 1
    else 1
  else 0
termination_by 127 - level
decreasing_by
  have := level_lt_of_can_split _hsplit
  omega

/-- The same for the leaf that a node falls into, where its identifier is new. -/
def splits (own_id : KadUInt128) (node : KadNodeInfo) : Nat → RoutingZone → Nat
  | outside, .leaf level zone_index bin =>
    if node.kad_id ∈ bin.ids then 0 else leaf_splits own_id node bin outside level zone_index
  | outside, .branch level _ left right =>
    if side own_id level node = 0 then left.splits own_id node (outside + right.length)
    else right.splits own_id node (outside + left.length)

/-- The identifier that a call confirms: by insertion, by a refresh or by `mark_alive`. -/
def confirms (own_id : KadUInt128) (zone : RoutingZone) : ZoneCall → Option Bytes
  | .add now node => if (zone.add own_id now node 0).2 then some node.kad_id else none
  | .mark_alive _ ip udp_port => (zone.alive_contact (ip, udp_port)).map RoutingContact.kad_id
  | .mark_failed _ _ => none
  | .remove _ _ => none

end RoutingZone

/-- A table beside the identifiers that its calls confirmed, the latest first. -/
structure ConfirmedZone where
  zone : RoutingZone
  confirmed : List Bytes

namespace ConfirmedZone

def new : ConfirmedZone := ⟨.new, []⟩

def after (own_id : KadUInt128) (table : ConfirmedZone) (call : ZoneCall) : ConfirmedZone where
  zone := table.zone.after own_id call
  confirmed := (table.zone.confirms own_id call).toList ++ table.confirmed

/-- The claimed order, in every leaf. -/
def Listed (table : ConfirmedZone) : Prop := ∀ bin ∈ table.zone.bins, bin.Listed table.confirmed

/-- Whether a call takes a bin down an even number of levels. -/
def SplitsEvenly (own_id : KadUInt128) (table : ConfirmedZone) : ZoneCall → Prop
  | .add _ node => Even (table.zone.splits own_id node 0)
  | .mark_alive _ _ _ => True
  | .mark_failed _ _ => True
  | .remove _ _ => True

/-- The tables are those of the calls. -/
theorem zone_foldl_after (own_id : KadUInt128) (calls : List ZoneCall) :
    (calls.foldl (after own_id) new).zone = RoutingZone.run own_id calls := by
  rw [RoutingZone.run]
  induction calls using List.reverseRecOn with
  | nil => rfl
  | append_singleton calls call ih => rw [List.foldl_concat, List.foldl_concat, ← ih, after]

end ConfirmedZone

section Bin

variable {bin : RoutingBin} {confirmed : List Bytes} {contact old new : RoutingContact}

theorem RoutingBin.listed_iff : bin.Listed confirmed ↔ Ordered confirmed bin.ids := by
  have hcontacts : Ordered confirmed bin.ids ↔ bin.contacts.Pairwise fun newer older =>
      confirmed.idxOf newer.kad_id < confirmed.idxOf older.kad_id := by
    rw [RoutingBin.contacts, List.pairwise_reverse, Ordered, RoutingBin.ids, List.pairwise_map]
  constructor
  · exact fun hlisted => hcontacts.mpr hlisted.contacts
  · intro hordered
    refine ⟨hcontacts.mp hordered, ?_⟩
    rintro front rest rfl contact hcontact
    rw [Ordered, RoutingBin.ids, List.map_cons] at hordered
    exact List.rel_of_pairwise_cons hordered (List.mem_map_of_mem hcontact)

/-- What is replaced and pushed to the bottom moves from its place to the end. -/
theorem RoutingBin.push_to_bottom_replace (hnodup : bin.ids.Nodup) (hold : old ∈ bin)
    (hid : new.kad_id = old.kad_id) :
    push_to_bottom (bin.replace old new) new = bin.erase old ++ [new] := by
  have hmem : new ∈ bin.replace old new := (replaced_of_replace new hold).new_mem
  rw [push_to_bottom, if_pos hmem]
  congr 1
  induction bin with
  | nil => cases hold
  | cons first rest ih =>
    by_cases hfirst : first = old
    · subst hfirst
      simp
    · have hrest : old ∈ rest := (List.mem_cons.mp hold).resolve_left (Ne.symm hfirst)
      obtain ⟨hnot, hnodup⟩ := List.nodup_cons.mp hnodup
      have hother : first ≠ new := by
        rintro rfl
        exact hnot (hid ▸ List.mem_map_of_mem hrest)
      have hreplace : (first :: rest).replace old new = first :: rest.replace old new := by
        rw [List.replace_cons]
        simp only [beq_eq_false_iff_ne.mpr (Ne.symm hfirst)]
      rw [hreplace, List.erase_cons_tail (by simpa using hother), List.erase_cons_tail (by simpa using hfirst)]
      congr 1
      exact ih hnodup hrest (replaced_of_replace new hrest).new_mem

theorem RoutingBin.touch_push (hnodup : bin.ids.Nodup) (hold : old ∈ bin) (hid : new.kad_id = old.kad_id) :
    Touch (some old.kad_id) bin.ids (ids (push_to_bottom (bin.replace old new) new)) := by
  rw [push_to_bottom_replace hnodup hold hid, ids.eq_1 (_ ++ _), List.map_append, List.map_singleton, hid]
  apply touch_last
  · exact List.erase_sublist.map _
  · intro hmem
    have hperm := (List.perm_cons_erase hold).map RoutingContact.kad_id
    have hnodup' := hperm.nodup_iff.mp hnodup
    rw [List.map_cons, List.nodup_cons] at hnodup'
    exact hnodup'.1 hmem

end Bin

namespace RoutingZone

section Leaf

variable {own_id : KadUInt128} {stem outside level zone_index : Nat} {now : ℚ} {node : KadNodeInfo}
variable {bin bin' : RoutingBin}

theorem leaf_splits_of_not_full (hlength : bin.length ≠ K) :
    leaf_splits own_id node bin outside level zone_index = 0 := by
  have hcan : ¬ can_split level zone_index bin outside = true := by
    rw [can_split, if_pos hlength]
    split <;> exact Bool.false_ne_true
  rw [leaf_splits, dif_neg hcan]

/-- The order of the bin does not matter. -/
theorem leaf_splits_reverse :
    leaf_splits own_id node bin.reverse outside level zone_index =
      leaf_splits own_id node bin outside level zone_index := by
  fun_induction leaf_splits own_id node bin outside level zone_index with
  | case1 level zone_index hcan hside ih =>
    have hcan' : can_split level zone_index bin.reverse outside = true := by
      rw [can_split, List.length_reverse]
      exact hcan
    have hside' : OneSide own_id node level bin.reverse := fun contact hcontact =>
      hside contact (List.mem_reverse.mp hcontact)
    rw [leaf_splits, dif_pos hcan', if_pos hside', ih]
  | case2 level zone_index hcan hside =>
    have hcan' : can_split level zone_index bin.reverse outside = true := by
      rw [can_split, List.length_reverse]
      exact hcan
    have hside' : ¬ OneSide own_id node level bin.reverse := fun hone => hside fun contact hcontact =>
      hone contact (List.mem_reverse.mpr hcontact)
    rw [leaf_splits, dif_pos hcan', if_neg hside']
  | case3 level zone_index hcan =>
    have hcan' : ¬ can_split level zone_index bin.reverse outside = true := by
      rw [can_split, List.length_reverse]
      exact hcan
    rw [leaf_splits, dif_neg hcan']

/-- A bin with room takes a new node as its last. -/
theorem add_to_leaf_of_room (hnew : node.kad_id ∉ bin.ids) (hroom : bin.length < K) :
    add_to_leaf own_id now node outside level zone_index bin =
      (.leaf level zone_index (bin ++ [.new node]), true) := by
  have hadd : bin.add now (.new node) = (bin ++ [.new node], true) := bin_add_of_new now hnew hroom
  rw [add_to_leaf, hadd]
  rfl

/-- What the zones below a leaf hold after a new node came to it: the contacts of the bin
in the order that its splits left them in, and the node behind them if it was taken. -/
structure Turned (own_id : KadUInt128) (node : KadNodeInfo) (splits : Nat) (bin : RoutingBin)
    (after : RoutingZone × Bool) : Prop where
  bins : ∀ bin' ∈ after.1.bins, ∃ kept : RoutingBin, kept.Sublist (List.reverse^[splits] bin) ∧
    (bin' = kept ∨ bin' = kept ++ [.new node] ∧ after.2 = true)
  pair : bin.length = K → ∃ bin' ∈ after.1.bins, ∃ x y : RoutingContact,
    [x, y].Sublist (List.reverse^[splits] bin) ∧ [x, y].Sublist bin'

theorem pair_sublist_of_two_le {contacts : RoutingBin} (htwo : 2 ≤ contacts.length) :
    ∃ x y : RoutingContact, [x, y].Sublist contacts := by
  obtain ⟨x, y, rest, rfl⟩ : ∃ x y rest, contacts = x :: y :: rest := by
    match contacts, htwo with
    | x :: y :: rest, _ => exact ⟨x, y, rest, rfl⟩
  exact ⟨x, y, ((List.nil_sublist rest).cons_cons y).cons_cons x⟩

/-- Without a split nothing turns. -/
theorem turned_of_bin_add (now : ℚ) (hnew : node.kad_id ∉ bin.ids) :
    Turned own_id node 0 bin
      (.leaf level zone_index (bin.add now (.new node)).1, (bin.add now (.new node)).2) := by
  have hpair : bin.length = K → ∃ x y : RoutingContact, [x, y].Sublist bin := by
    intro hlength
    apply pair_sublist_of_two_le
    rw [hlength, K]
    omega
  obtain ⟨existing, _, hsame, _, _, hreplaced⟩ | ⟨_, _, hadd⟩ | ⟨_, _, hadd⟩ :=
    RoutingBin.add_cases bin now (.new node)
  · exact absurd (List.mem_map.mpr ⟨existing, hreplaced.1, hsame⟩) hnew
  · rw [hadd]
    refine ⟨?_, fun hlength => ?_⟩
    · intro bin' hbin'
      rw [List.mem_singleton.mp hbin']
      exact ⟨bin, .refl bin, .inr ⟨rfl, rfl⟩⟩
    · obtain ⟨x, y, hxy⟩ := hpair hlength
      exact ⟨_, List.mem_singleton_self _, x, y, hxy, hxy.trans (List.sublist_append_left _ _)⟩
  · rw [hadd]
    refine ⟨?_, fun hlength => ?_⟩
    · intro bin' hbin'
      rw [List.mem_singleton.mp hbin']
      exact ⟨bin, .refl bin, .inl rfl⟩
    · obtain ⟨x, y, hxy⟩ := hpair hlength
      exact ⟨_, List.mem_singleton_self _, x, y, hxy, hxy⟩

/-- A split that leaves all contacts on the side of the node turns them once more. -/
theorem Turned.deeper {splits : Nat} {half : RoutingBin} {child after : RoutingZone × Bool}
    (h : Turned own_id node splits half child) (hhalf : half = bin.reverse)
    (hbins : ∀ bin', bin' ∈ after.1.bins ↔ bin' ∈ child.1.bins ∨ bin' = []) (hstored : after.2 = child.2) :
    Turned own_id node (splits + 1) bin after := by
  subst hhalf
  obtain ⟨hchild, hpair⟩ := h
  rw [← Function.iterate_succ_apply] at hchild hpair
  refine ⟨?_, fun hlength => ?_⟩
  · intro bin' hbin'
    cases (hbins bin').mp hbin' with
    | inl hbin' =>
      rw [hstored]
      exact hchild bin' hbin'
    | inr hnil => exact ⟨[], List.nil_sublist _, .inl hnil⟩
  · obtain ⟨bin', hbin', hxy⟩ := hpair (by rw [List.length_reverse, hlength])
    exact ⟨bin', (hbins bin').mpr (.inl hbin'), hxy⟩

/-- A split that shares the contacts out turns them once. -/
theorem turned_of_halves {near far : RoutingBin} {after : RoutingZone × Bool}
    (hnear : near.Sublist bin.reverse) (hfar : far.Sublist bin.reverse)
    (hlength : near.length + far.length = bin.length)
    (hbins : ∀ bin', bin' ∈ after.1.bins ↔ bin' = near ++ [.new node] ∨ bin' = far) (hstored : after.2 = true) :
    Turned own_id node 1 bin after := by
  rw [← Function.iterate_one List.reverse] at hnear hfar
  refine ⟨?_, fun hfull => ?_⟩
  · intro bin' hbin'
    cases (hbins bin').mp hbin' with
    | inl hbin' => exact ⟨near, hnear, .inr ⟨hbin', hstored⟩⟩
    | inr hbin' => exact ⟨far, hfar, .inl hbin'⟩
  · rw [K] at hfull
    by_cases htwo : 2 ≤ near.length
    · obtain ⟨x, y, hxy⟩ := pair_sublist_of_two_le htwo
      exact ⟨_, (hbins _).mpr (.inl rfl), x, y, hxy.trans hnear, hxy.trans (List.sublist_append_left _ _)⟩
    · have htwo_far : 2 ≤ far.length := by omega
      obtain ⟨x, y, hxy⟩ := pair_sublist_of_two_le htwo_far
      exact ⟨far, (hbins _).mpr (.inr rfl), x, y, hxy.trans hfar, hxy⟩

variable (now) in
/-- The halves of a split: the side of the node and the other side. -/
theorem halves_of_one_side (h : (leaf level zone_index bin).Placed own_id stem) (hone : OneSide own_id node level bin) :
    split own_id now level bin =
      if side own_id level node = 0 then (bin.reverse, []) else ([], bin.reverse) := by
  have hside : ∀ contact ∈ bin.reverse, side own_id level contact.node = side own_id level node :=
    fun contact hcontact => hone contact (List.mem_reverse.mp hcontact)
  rw [split_eq now h]
  by_cases hzero : side own_id level node = 0
  · rw [if_pos hzero]
    refine Prod.ext (List.filter_eq_self.mpr fun contact hcontact => ?_)
      (List.filter_eq_nil_iff.mpr fun contact hcontact => ?_)
    · simpa using (hside contact hcontact).trans hzero
    · simpa using (hside contact hcontact).trans hzero
  · rw [if_neg hzero]
    refine Prod.ext (List.filter_eq_nil_iff.mpr fun contact hcontact => ?_)
      (List.filter_eq_self.mpr fun contact hcontact => ?_)
    · rw [hside contact hcontact]
      simpa using hzero
    · rw [hside contact hcontact]
      simpa using hzero

variable (now) in
theorem sublist_reverse_of_split (h : (leaf level zone_index bin).Placed own_id stem) :
    (split own_id now level bin).1.Sublist bin.reverse ∧ (split own_id now level bin).2.Sublist bin.reverse := by
  rw [split_eq now h]
  exact ⟨List.filter_sublist, List.filter_sublist⟩

variable (now) in
theorem length_split (h : (leaf level zone_index bin).Placed own_id stem) :
    (split own_id now level bin).1.length + (split own_id now level bin).2.length = bin.length := by
  have hreverse : bin.reverse.length = bin.length := List.length_reverse
  rw [split_eq now h, ← hreverse]
  simp only [decide_not]
  exact (List.length_eq_length_filter_add _).symm

variable (now) in
/-- Where not all contacts are on the side of the node, there is room on that side. -/
theorem room_of_not_one_side (h : (leaf level zone_index bin).Placed own_id stem) (hlevel : level < 128)
    (hnot : ¬ OneSide own_id node level bin) :
    if side own_id level node = 0 then (split own_id now level bin).1.length < K
      else (split own_id now level bin).2.length < K := by
  have hlength := h.2.1
  obtain ⟨contact, hnot⟩ := not_forall.mp hnot
  obtain ⟨hcontact, hother⟩ := Classical.not_imp.mp hnot
  rw [← List.mem_reverse] at hcontact
  rw [← List.length_reverse] at hlength
  have hnode := side_lt own_id node hlevel
  have hcontact_side := side_lt own_id contact.node hlevel
  rw [split_eq now h]
  split
  · refine Nat.lt_of_lt_of_le (List.length_filter_lt_length_iff_exists.mpr ⟨contact, hcontact, ?_⟩) hlength
    rw [decide_eq_true_eq]
    omega
  · refine Nat.lt_of_lt_of_le (List.length_filter_lt_length_iff_exists.mpr ⟨contact, hcontact, ?_⟩) hlength
    rw [decide_eq_true_eq]
    omega

variable (now) in
theorem ids_subset_of_split (h : (leaf level zone_index bin).Placed own_id stem) (hnew : node.kad_id ∉ bin.ids) :
    node.kad_id ∉ RoutingBin.ids (split own_id now level bin).1 ∧
      node.kad_id ∉ RoutingBin.ids (split own_id now level bin).2 := by
  have hids : ∀ half : RoutingBin, half.Sublist bin.reverse → node.kad_id ∉ half.ids := by
    intro half hhalf hmem
    obtain ⟨contact, hcontact, hid⟩ := List.mem_map.mp hmem
    exact hnew (List.mem_map.mpr ⟨contact, List.mem_reverse.mp (hhalf.subset hcontact), hid⟩)
  obtain ⟨hleft, hright⟩ := sublist_reverse_of_split now h
  exact ⟨hids _ hleft, hids _ hright⟩

theorem room_of_taken (hnew : node.kad_id ∉ bin.ids) (htaken : (bin.add now (.new node)).2 = true) :
    bin.length < K := by
  obtain ⟨existing, _, hsame, _, _, hreplaced⟩ | ⟨_, hroom, _⟩ | ⟨_, _, hadd⟩ :=
    RoutingBin.add_cases bin now (.new node)
  · exact absurd (List.mem_map.mpr ⟨existing, hreplaced.1, hsame⟩) hnew
  · exact hroom
  · rw [hadd] at htaken
    cases htaken

/-- A split turns the contacts once, and as often again as the zone on the side of the node does if it takes them all. -/
theorem turned_of_split {near far : RoutingBin} {child after : RoutingZone × Bool}
    (hnear : near.Sublist bin.reverse) (hfar : far.Sublist bin.reverse) (hlength : near.length + far.length = bin.length)
    (hone : OneSide own_id node level bin → near = bin.reverse ∧ far = [])
    (hroom : ¬ OneSide own_id node level bin → near.length < K) (hnew : node.kad_id ∉ near.ids)
    (hchild : child = add_to_leaf own_id now node (outside + far.length) (level + 1) zone_index near)
    (hturned : Turned own_id node (leaf_splits own_id node near (outside + far.length) (level + 1) zone_index) near child)
    (hbins : ∀ bin', bin' ∈ after.1.bins ↔ bin' ∈ child.1.bins ∨ bin' = far) (hstored : after.2 = child.2) :
    Turned own_id node
      (if OneSide own_id node level bin then leaf_splits own_id node bin outside (level + 1) zone_index + 1 else 1)
      bin after := by
  by_cases hside : OneSide own_id node level bin
  · obtain ⟨hreverse, hempty⟩ := hone hside
    subst hempty
    rw [List.length_nil, Nat.add_zero, hreverse, leaf_splits_reverse, ← hreverse] at hturned
    rw [if_pos hside]
    exact hturned.deeper hreverse hbins hstored
  · rw [add_to_leaf_of_room hnew (hroom hside)] at hchild
    subst hchild
    rw [if_neg hside]
    refine turned_of_halves hnear hfar hlength (fun bin' => ?_) hstored
    rw [hbins, bins, List.mem_singleton]

variable (outside now) in
/-- A leaf turns its contacts over as often as it is split for the node. -/
theorem turned_add_to_leaf (h : (leaf level zone_index bin).Placed own_id stem) (hnew : node.kad_id ∉ bin.ids) :
    Turned own_id node (leaf_splits own_id node bin outside level zone_index) bin
      (add_to_leaf own_id now node outside level zone_index bin) := by
  fun_induction add_to_leaf generalizing stem with
  | case1 outside level zone_index bin added =>
    rename_i htaken
    have hroom := room_of_taken hnew htaken
    rw [leaf_splits_of_not_full (by omega), ← htaken]
    exact turned_of_bin_add now hnew
  | case2 outside level zone_index bin added hrefused hcan children hside left =>
    rename_i ih
    have hsame : added.1 = bin := bin_add_of_refused hrefused
    have hchildren : split own_id now level bin = children := by rw [← hsame]
    have hlevel := level_lt_of_can_split hcan
    have hplaced := (placed_splitZone now h hlevel).2.2.2.1
    have hids := (ids_subset_of_split now h hnew).1
    have hlength := length_split now h
    obtain ⟨hnear, hfar⟩ := sublist_reverse_of_split now h
    rw [hchildren] at hplaced hids hlength hnear hfar
    have hone : OneSide own_id node level bin → children.1 = bin.reverse ∧ children.2 = [] := by
      intro hone
      rw [← hchildren, halves_of_one_side now h hone, if_pos hside]
      exact ⟨rfl, rfl⟩
    have hroom : ¬ OneSide own_id node level bin → children.1.length < K := by
      intro hnot
      have hroom := room_of_not_one_side now h (by omega) hnot
      rwa [if_pos hside, hchildren] at hroom
    rw [hsame] at hcan
    rw [leaf_splits, dif_pos hcan, hside, Nat.or_zero]
    refine turned_of_split hnear hfar hlength hone hroom hids rfl (ih hplaced hids) (fun bin' => ?_) rfl
    rw [bins, bins, List.mem_append, List.mem_singleton]
  | case3 outside level zone_index bin added hrefused hcan children hside right =>
    rename_i ih
    have hsame : added.1 = bin := bin_add_of_refused hrefused
    have hchildren : split own_id now level bin = children := by rw [← hsame]
    have hlevel := level_lt_of_can_split hcan
    have hone_side : side own_id level node = 1 := by
      have hlt := side_lt own_id node (by omega : level < 128)
      omega
    have hplaced := (placed_splitZone now h hlevel).2.2.2.2
    have hids := (ids_subset_of_split now h hnew).2
    have hlength := length_split now h
    obtain ⟨hfar, hnear⟩ := sublist_reverse_of_split now h
    rw [hchildren] at hplaced hids hlength hnear hfar
    rw [Nat.add_comm] at hlength
    have hone : OneSide own_id node level bin → children.2 = bin.reverse ∧ children.1 = [] := by
      intro hone
      rw [← hchildren, halves_of_one_side now h hone, if_neg hside]
      exact ⟨rfl, rfl⟩
    have hroom : ¬ OneSide own_id node level bin → children.2.length < K := by
      intro hnot
      have hroom := room_of_not_one_side now h (by omega) hnot
      rwa [if_neg hside, hchildren] at hroom
    rw [hsame] at hcan
    rw [leaf_splits, dif_pos hcan, hone_side]
    refine turned_of_split hnear hfar hlength hone hroom hids rfl (ih hplaced hids) (fun bin' => ?_) rfl
    rw [bins, bins, List.mem_append, List.mem_singleton, or_comm]
  | case4 outside level zone_index bin added hrefused =>
    rename_i hcan
    have hsame : added.1 = bin := bin_add_of_refused hrefused
    rw [hsame] at hcan
    rw [leaf_splits, dif_neg hcan, ← Bool.eq_false_iff.mpr hrefused]
    exact turned_of_bin_add now hnew

/-- A contact that is in the bin already is refreshed in its last place. -/
theorem touch_bin_add_of_mem (now : ℚ) (hnodup : bin.ids.Nodup) (hmem : node.kad_id ∈ bin.ids) :
    (bin.add now (.new node)).2 = true ∧ Touch (some node.kad_id) bin.ids (bin.add now (.new node)).1.ids := by
  unfold RoutingBin.add
  cases hfound : bin.find? fun existing => existing.kad_id = (RoutingContact.new node).kad_id with
  | some existing =>
    have hfirst := List.find?_some hfound
    have hid : existing.kad_id = node.kad_id := of_decide_eq_true hfirst
    refine ⟨rfl, ?_⟩
    rw [← hid]
    exact RoutingBin.touch_push hnodup (List.mem_of_find?_eq_some hfound) hid.symm
  | none =>
    obtain ⟨existing, hexisting, hid⟩ := List.mem_map.mp hmem
    have hnone := List.find?_eq_none.mp hfound existing hexisting
    exact absurd (decide_eq_true hid) hnone

/-- The identifier of a node, if it was taken. -/
def taken (node : KadNodeInfo) (stored : Bool) : Option Bytes := if stored then some node.kad_id else none

theorem eq_of_mem_taken {stored : Bool} {id : Bytes} (hid : id ∈ taken node stored) : id = node.kad_id := by
  cases stored with
  | false => cases hid
  | true => exact (Option.some.inj hid).symm

/-- Where the bin is split an even number of times, its contacts are in order again. -/
theorem touch_add_to_leaf (h : (leaf level zone_index bin).Placed own_id stem)
    (heven : Even (splits own_id node outside (leaf level zone_index bin))) :
    ∀ bin' ∈ (add_to_leaf own_id now node outside level zone_index bin).1.bins,
      Touch (taken node (add_to_leaf own_id now node outside level zone_index bin).2) bin.ids bin'.ids := by
  by_cases hmem : node.kad_id ∈ bin.ids
  · obtain ⟨hadded, htouch⟩ := touch_bin_add_of_mem now h.2.2.1 hmem
    rw [add_to_leaf]
    simp only [hadded, if_true]
    intro bin' hbin'
    rw [List.mem_singleton.mp hbin']
    exact htouch
  · rw [splits, if_neg hmem] at heven
    obtain ⟨hbins, -⟩ := turned_add_to_leaf outside now h hmem
    intro bin' hbin'
    obtain ⟨kept, hkept, hcase⟩ := hbins bin' hbin'
    rw [List.reverse_involutive.iterate_even heven] at hkept
    have hnew : node.kad_id ∉ kept.ids := fun hid => hmem ((hkept.map _).subset hid)
    obtain rfl | ⟨rfl, hstored⟩ := hcase
    · apply touch_of_not_mem (hkept.map _)
      intro id hid
      rw [eq_of_mem_taken hid]
      exact hnew
    · rw [hstored, RoutingBin.ids.eq_1 (_ ++ _), List.map_append]
      exact touch_last (hkept.map _) hnew

/-- Where it is split an odd number of times, two contacts change places. -/
theorem swapped_add_to_leaf (h : (leaf level zone_index bin).Placed own_id stem)
    (hodd : ¬ Even (splits own_id node outside (leaf level zone_index bin))) :
    ∃ bin' ∈ (add_to_leaf own_id now node outside level zone_index bin).1.bins, ∃ x y,
      node.kad_id ∉ [x, y] ∧ [x, y].Sublist bin.ids ∧ [y, x].Sublist bin'.ids := by
  rw [splits] at hodd
  by_cases hmem : node.kad_id ∈ bin.ids
  · rw [if_pos hmem] at hodd
    exact absurd Even.zero hodd
  rw [if_neg hmem] at hodd
  have hfull : bin.length = K := by
    by_contra hlength
    rw [leaf_splits_of_not_full hlength] at hodd
    exact hodd Even.zero
  obtain ⟨-, hpair⟩ := turned_add_to_leaf outside now h hmem
  obtain ⟨bin', hbin', y, x, hbefore, hafter⟩ := hpair hfull
  rw [List.reverse_involutive.iterate_odd (Nat.not_even_iff_odd.mp hodd)] at hbefore
  have hxy : [x, y].Sublist bin := by simpa using hbefore.reverse
  refine ⟨bin', hbin', x.kad_id, y.kad_id, ?_, hxy.map RoutingContact.kad_id, hafter.map RoutingContact.kad_id⟩
  exact fun hid => hmem ((hxy.map RoutingContact.kad_id).subset hid)

end Leaf

section Zone

variable {own_id : KadUInt128} {stem outside : Nat} {now : ℚ} {node : KadNodeInfo} {zone : RoutingZone}

theorem mem_bins_ids {bin : RoutingBin} {id : Bytes} (hbin : bin ∈ zone.bins) (hid : id ∈ bin.ids) :
    id ∈ zone.entries.map RoutingContact.kad_id := by
  obtain ⟨contact, hcontact, rfl⟩ := List.mem_map.mp hid
  refine List.mem_map_of_mem ?_
  induction zone with
  | leaf level zone_index own =>
    rw [bins, List.mem_singleton] at hbin
    subst hbin
    exact List.mem_reverse.mpr hcontact
  | branch level zone_index left right ihleft ihright =>
    rw [bins, List.mem_append] at hbin
    rw [entries, List.mem_append]
    exact hbin.imp ihleft ihright

/-- A zone holds no contact of a path other than its own. -/
theorem not_mem_of_path_ne (h : zone.Placed own_id stem) (hpath : path own_id zone.level node ≠ stem) :
    ∀ bin ∈ zone.bins, node.kad_id ∉ bin.ids := by
  intro bin hbin hmem
  obtain ⟨contact, hcontact, hsame⟩ := List.mem_map.mp (mem_bins_ids hbin hmem)
  have hplace := h.path_eq contact hcontact
  have hid : contact.node.kad_id = node.kad_id := hsame
  rw [path, distance_congr hid] at hplace
  exact hpath hplace

/-- What a call made of the bins of a zone. -/
def Touches (touched : Option Bytes) (before after : RoutingZone) : Prop :=
  ∀ bin' ∈ after.bins, ∃ bin ∈ before.bins, Touch touched bin.ids bin'.ids

theorem touches_branch {touched : Option Bytes} {level zone_index : Nat} {left right left' right' : RoutingZone}
    (hleft : Touches touched left left') (hright : Touches touched right right') :
    Touches touched (branch level zone_index left right) (branch level zone_index left' right') := by
  intro bin' hbin'
  rw [bins, List.mem_append] at hbin'
  cases hbin' with
  | inl hmem =>
    obtain ⟨bin, hbin, htouch⟩ := hleft bin' hmem
    exact ⟨bin, List.mem_append_left _ hbin, htouch⟩
  | inr hmem =>
    obtain ⟨bin, hbin, htouch⟩ := hright bin' hmem
    exact ⟨bin, List.mem_append_right _ hbin, htouch⟩

/-- What is touched elsewhere does not change a zone. -/
theorem touches_self {touched : Option Bytes} (hnot : ∀ id ∈ touched, ∀ bin ∈ zone.bins, id ∉ bin.ids) :
    Touches touched zone zone :=
  fun bin hbin => ⟨bin, hbin, touch_of_not_mem (.refl _) fun id hid => hnot id hid bin hbin⟩

theorem touches_add (h : zone.Placed own_id stem) (hpath : path own_id zone.level node = stem)
    (heven : Even (zone.splits own_id node outside)) :
    Touches (taken node (zone.add own_id now node outside).2) zone (zone.add own_id now node outside).1 := by
  induction zone generalizing stem outside with
  | leaf level zone_index bin =>
    intro bin' hbin'
    exact ⟨bin, List.mem_singleton_self _, touch_add_to_leaf h heven bin' hbin'⟩
  | branch level zone_index left right ihleft ihright =>
    obtain ⟨hlevel, hleftLevel, hrightLevel, hleft, hright⟩ := h
    have hnode := path_succ own_id node (by omega : level < 128)
    have hlt := side_lt own_id node (by omega : level < 128)
    change path own_id level node = stem at hpath
    rw [splits] at heven
    rw [add]
    by_cases hside : side own_id level node = 0
    · rw [if_pos hside] at heven ⊢
      refine touches_branch (ihleft hleft (by rw [hleftLevel]; omega) heven) (touches_self fun id hid => ?_)
      rw [eq_of_mem_taken hid]
      exact not_mem_of_path_ne hright (by rw [hrightLevel]; omega)
    · rw [if_neg hside] at heven ⊢
      refine touches_branch (touches_self fun id hid => ?_) (ihright hright (by rw [hrightLevel]; omega) heven)
      rw [eq_of_mem_taken hid]
      exact not_mem_of_path_ne hleft (by rw [hleftLevel]; omega)

/-- Two contacts of one bin changed places. -/
def Swaps (id : Bytes) (before after : RoutingZone) : Prop :=
  ∃ bin ∈ before.bins, ∃ bin' ∈ after.bins, ∃ x y,
    id ∉ [x, y] ∧ [x, y].Sublist bin.ids ∧ [y, x].Sublist bin'.ids

theorem swaps_branch_left {id : Bytes} {level zone_index : Nat} {left right left' right' : RoutingZone}
    (hswaps : Swaps id left left') :
    Swaps id (branch level zone_index left right) (branch level zone_index left' right') := by
  obtain ⟨bin, hbin, bin', hbin', hrest⟩ := hswaps
  exact ⟨bin, List.mem_append_left _ hbin, bin', List.mem_append_left _ hbin', hrest⟩

theorem swaps_branch_right {id : Bytes} {level zone_index : Nat} {left right left' right' : RoutingZone}
    (hswaps : Swaps id right right') :
    Swaps id (branch level zone_index left right) (branch level zone_index left' right') := by
  obtain ⟨bin, hbin, bin', hbin', hrest⟩ := hswaps
  exact ⟨bin, List.mem_append_right _ hbin, bin', List.mem_append_right _ hbin', hrest⟩

variable (now) in
theorem swaps_add (h : zone.Placed own_id stem) (hodd : ¬ Even (zone.splits own_id node outside)) :
    Swaps node.kad_id zone (zone.add own_id now node outside).1 := by
  induction zone generalizing stem outside with
  | leaf level zone_index bin =>
    exact ⟨bin, List.mem_singleton_self _, swapped_add_to_leaf h hodd⟩
  | branch level zone_index left right ihleft ihright =>
    obtain ⟨hlevel, hleftLevel, hrightLevel, hleft, hright⟩ := h
    rw [splits] at hodd
    rw [add]
    by_cases hside : side own_id level node = 0
    · rw [if_pos hside] at hodd ⊢
      exact swaps_branch_left (ihleft hleft hodd)
    · rw [if_neg hside] at hodd ⊢
      exact swaps_branch_right (ihright hright hodd)

theorem alive_contact_mem {key : String × Nat} {contact : RoutingContact}
    (halive : zone.alive_contact key = some contact) : contact ∈ zone.entries := by
  induction zone with
  | leaf level zone_index bin => exact List.mem_reverse.mpr (List.mem_of_find?_eq_some halive)
  | branch level zone_index left right ihleft ihright =>
    rw [alive_contact, Option.or_eq_some_iff] at halive
    rw [entries, List.mem_append]
    obtain hleft | ⟨-, hright⟩ := halive
    · exact .inl (ihleft hleft)
    · exact .inr (ihright hright)

theorem mark_alive_reports (now : ℚ) (key : String × Nat) (zone : RoutingZone) :
    (zone.mark_alive now key).2 = (zone.alive_contact key).isSome := by
  induction zone with
  | leaf level zone_index bin =>
    rw [mark_alive, alive_contact, RoutingBin.get_contact_by_key, RoutingBin.mark_alive]
    split <;> simp_all
  | branch level zone_index left right ihleft ihright =>
    rw [mark_alive, alive_contact, Option.isSome_or, ← ihleft, ← ihright]
    cases (left.mark_alive now key).2 <;> rfl

theorem touches_mark_alive (now : ℚ) (key : String × Nat) (h : zone.Placed own_id stem) :
    Touches ((zone.alive_contact key).map RoutingContact.kad_id) zone (zone.mark_alive now key).1 := by
  induction zone generalizing stem with
  | leaf level zone_index bin =>
    intro bin' hbin'
    refine ⟨bin, List.mem_singleton_self _, ?_⟩
    rw [mark_alive, bins, List.mem_singleton] at hbin'
    subst hbin'
    rw [alive_contact, RoutingBin.get_contact_by_key, RoutingBin.mark_alive]
    cases hfound : bin.find? fun contact => contact.key = key with
    | none => exact touch_none (.refl _)
    | some contact => exact RoutingBin.touch_push h.2.2.1 (List.mem_of_find?_eq_some hfound) rfl
  | branch level zone_index left right ihleft ihright =>
    have hnodup := h.nodup
    obtain ⟨_, _, _, hleft, hright⟩ := h
    rw [entries, List.map_append, List.nodup_append] at hnodup
    have hreports := mark_alive_reports now key left
    have htouched := ihleft hleft
    rw [alive_contact, mark_alive]
    cases halive : left.alive_contact key with
    | some contact =>
      rw [halive] at hreports htouched
      rw [Option.isSome_some] at hreports
      rw [if_pos hreports, Option.some_or]
      refine touches_branch htouched (touches_self fun id hid bin hbin hmem => ?_)
      obtain rfl := Option.some.inj hid
      exact hnodup.2.2 _ (List.mem_map_of_mem (alive_contact_mem halive)) _ (mem_bins_ids hbin hmem) rfl
    | none =>
      rw [halive] at hreports htouched
      rw [Option.isSome_none] at hreports
      rw [if_neg (Bool.eq_false_iff.mp hreports), Option.none_or]
      refine touches_branch (fun bin' hbin' => ?_) (ihright hright)
      obtain ⟨bin, hbin, kept, hsublist, -, hkept⟩ := htouched bin' hbin'
      rw [Option.map_none, Option.toList_none, List.append_nil, or_self] at hkept
      subst hkept
      refine ⟨bin, hbin, touch_of_not_mem hsublist fun id hid hmem => ?_⟩
      obtain ⟨contact, hcontact, rfl⟩ := Option.map_eq_some_iff.mp hid
      exact hnodup.2.2 _ (mem_bins_ids hbin (hsublist.subset hmem)) _
        (List.mem_map_of_mem (alive_contact_mem hcontact)) rfl

theorem ids_replace {bin : RoutingBin} {old new : RoutingContact} (hid : new.kad_id = old.kad_id) :
    RoutingBin.ids (bin.replace old new) = bin.ids := by
  induction bin with
  | nil => rfl
  | cons first rest ih =>
    rw [List.replace_cons]
    by_cases hfirst : old = first
    · subst hfirst
      simp [RoutingBin.ids, hid]
    · simp only [beq_eq_false_iff_ne.mpr hfirst]
      exact congrArg (first.kad_id :: ·) ih

theorem touches_mark_failed (key : String × Nat) (zone : RoutingZone) :
    Touches none zone (zone.mark_failed key).1 := by
  induction zone with
  | leaf level zone_index bin =>
    intro bin' hbin'
    refine ⟨bin, List.mem_singleton_self _, touch_none ?_⟩
    rw [mark_failed, bins, List.mem_singleton] at hbin'
    subst hbin'
    rw [RoutingBin.mark_failed]
    split
    · rename_i contact hfound
      rw [ids_replace]
      rw [RoutingContact.checking_type]
      split <;> rfl
    · exact .refl _
  | branch level zone_index left right ihleft ihright =>
    rw [mark_failed]
    split
    · exact touches_branch ihleft (touches_self (by simp))
    · exact touches_branch ihleft ihright

theorem touches_remove (key : String × Nat) (zone : RoutingZone) : Touches none zone (zone.remove key).1 := by
  induction zone with
  | leaf level zone_index bin =>
    intro bin' hbin'
    refine ⟨bin, List.mem_singleton_self _, touch_none ?_⟩
    rw [remove] at hbin'
    split at hbin'
    · rw [bins, List.mem_singleton] at hbin'
      subst hbin'
      exact List.erase_sublist.map _
    · rw [bins, List.mem_singleton] at hbin'
      subst hbin'
      exact .refl _
  | branch level zone_index left right ihleft ihright => exact touches_branch ihleft ihright

end Zone

end RoutingZone

namespace ConfirmedZone

variable {own_id : KadUInt128} {table : ConfirmedZone}

/-- The contacts are in place, and their bins in the order of their confirmations. -/
structure Kept (own_id : KadUInt128) (table : ConfirmedZone) : Prop where
  placed : table.zone.Placed own_id 0
  level : table.zone.level = 0
  ordered : ∀ bin ∈ table.zone.bins, Ordered table.confirmed bin.ids

theorem listed_iff : table.Listed ↔ ∀ bin ∈ table.zone.bins, Ordered table.confirmed bin.ids :=
  forall₂_congr fun _ _ => RoutingBin.listed_iff

theorem kept_new (own_id : KadUInt128) : Kept own_id new := by
  refine ⟨RoutingZone.placed_new own_id, rfl, fun bin hbin => ?_⟩
  rw [List.mem_singleton.mp hbin]
  exact ordered_nil []

theorem kept_after (call : ZoneCall) (h : Kept own_id table) (heven : table.SplitsEvenly own_id call) :
    Kept own_id (table.after own_id call) := by
  obtain ⟨hplaced, hlevel⟩ := RoutingZone.placed_after h.placed h.level call
  have htouches : RoutingZone.Touches (table.zone.confirms own_id call) table.zone
      (table.zone.after own_id call) := by
    cases call with
    | add now node =>
      exact RoutingZone.touches_add h.placed (by rw [h.level]; exact path_zero own_id node) heven
    | mark_alive now ip udp_port => exact RoutingZone.touches_mark_alive now _ h.placed
    | mark_failed ip udp_port => exact RoutingZone.touches_mark_failed _ _
    | remove ip udp_port => exact RoutingZone.touches_remove _ _
  refine ⟨hplaced, hlevel, fun bin' hbin' => ?_⟩
  obtain ⟨bin, hbin, htouch⟩ := htouches bin' hbin'
  exact (h.ordered bin hbin).of_touch htouch

/-- A table of a run is kept where it is listed as claimed. -/
theorem kept_of_listed (own_id : KadUInt128) (calls : List ZoneCall) (hlisted : Listed (calls.foldl (after own_id) new)) :
    Kept own_id (calls.foldl (after own_id) new) := by
  obtain ⟨hplaced, hlevel⟩ := RoutingZone.placed_run own_id calls
  rw [← zone_foldl_after] at hplaced hlevel
  exact ⟨hplaced, hlevel, listed_iff.mp hlisted⟩

/-- An odd number of splits leaves a bin in the opposite order. -/
theorem splitsEvenly_of_listed (call : ZoneCall) (h : Kept own_id table)
    (hlisted : (table.after own_id call).Listed) : table.SplitsEvenly own_id call := by
  cases call with
  | add now node =>
    by_contra hodd
    obtain ⟨bin, hbin, bin', hbin', x, y, hother, hbefore, hafter⟩ :=
      RoutingZone.swaps_add now h.placed hodd
    have hordered := (listed_iff.mp hlisted bin' hbin').sublist hafter
    have hconfirmed : Ordered table.confirmed [y, x] := by
      rw [after, RoutingZone.confirms] at hordered
      simp only at hordered
      split at hordered
      · refine (ordered_touch_iff ?_).mp hordered
        simpa [or_comm] using hother
      · exact hordered
    exact (h.ordered bin hbin).not_swapped hbefore (.refl [y, x]) hconfirmed
  | mark_alive now ip udp_port => trivial
  | mark_failed ip udp_port => trivial
  | remove ip udp_port => trivial

/-- Each split turns the order of its contacts over, so that all bins are listed as claimed
throughout a run exactly where every `add` splits an even number of times. -/
theorem bins_listed_iff (own_id : KadUInt128) (calls : List ZoneCall) :
    (∀ part, part <+: calls → Listed (part.foldl (after own_id) new)) ↔
      AllSteps (after own_id) new (SplitsEvenly own_id) calls :=
  throughout_iff (kept_new own_id) (fun _ call => kept_after call) (fun _ h => listed_iff.mpr h.ordered)
    (fun _ call => splitsEvenly_of_listed call) calls

/-- A new table takes its first contacts into one bin. -/
theorem foldl_add (own_id : KadUInt128) {nodes : List KadNodeInfo} (hnodup : (nodes.map KadNodeInfo.kad_id).Nodup)
    (hlength : nodes.length ≤ K) :
    (nodes.map (ZoneCall.add 0)).foldl (after own_id) new =
      ⟨.leaf 0 0 (nodes.map .new), (nodes.map KadNodeInfo.kad_id).reverse⟩ := by
  induction nodes using List.reverseRecOn with
  | nil => rfl
  | append_singleton nodes node ih =>
    rw [List.map_append, List.nodup_append] at hnodup
    rw [List.length_append, List.length_singleton] at hlength
    have hids : RoutingBin.ids (nodes.map .new) = nodes.map KadNodeInfo.kad_id := List.map_map
    have hnew : node.kad_id ∉ RoutingBin.ids (nodes.map .new) := by
      rw [hids]
      exact fun hmem => hnodup.2.2 _ hmem _ (List.mem_singleton_self _) rfl
    have hadd : RoutingZone.add own_id 0 node 0 (.leaf 0 0 (nodes.map .new)) =
        (.leaf 0 0 (nodes.map .new ++ [.new node]), true) := by
      rw [RoutingZone.add]
      exact RoutingZone.add_to_leaf_of_room hnew (by rw [List.length_map]; omega)
    rw [List.map_append, List.map_singleton, List.foldl_concat, ih hnodup.1 (by omega), after,
      RoutingZone.after, RoutingZone.confirms]
    simp only [hadd, if_true]
    simp

theorem length_repeated_byte (byte : UInt8) : (List.replicate 16 byte).length = 16 := List.length_replicate

/-- A contact whose identifier repeats a byte. -/
def numberedNode (byte : UInt8) : KadNodeInfo where
  kad_id := List.replicate 16 byte
  ip := "10.0.0.1"
  udp_port := 4672 + byte.toNat
  tcp_port := 4662
  contact_version := 8
  verified := true
  udp_key := 0
  length_kad_id := length_repeated_byte byte

def firstNodes : List KadNodeInfo := [1, 2, 3, 4, 5, 6, 7, 8, 9, 10].map numberedNode

def ownSample : KadUInt128 := to_kad_uint128 (List.replicate 16 0) rfl

/-- The eleventh contact lies on the other side of the table. -/
theorem splits_full_bin :
    RoutingZone.splits ownSample (numberedNode 255) 0 (.leaf 0 0 (firstNodes.map .new)) = 1 := by
  have hnew : (numberedNode 255).kad_id ∉ RoutingBin.ids (firstNodes.map .new) := by decide +kernel
  have hcan : RoutingZone.can_split 0 0 (firstNodes.map .new) 0 = true := by decide +kernel
  have hsides : ¬ RoutingZone.OneSide ownSample (numberedNode 255) 0 (firstNodes.map .new) := by decide +kernel
  rw [RoutingZone.splits, if_neg hnew, RoutingZone.leaf_splits, dif_pos hcan, if_neg hsides]

/-- The eleventh contact splits the full bin once, and the ten are listed from the oldest on. -/
theorem bins_not_listed :
    ¬ ∀ (own_id : KadUInt128) (calls : List ZoneCall), ∀ part, part <+: calls →
      Listed (part.foldl (after own_id) new) := by
  intro hall
  let first := firstNodes.map (ZoneCall.add 0)
  let eleventh := ZoneCall.add 0 (numberedNode 255)
  have hfirst : first.foldl (after ownSample) new =
      ⟨.leaf 0 0 (firstNodes.map .new), (firstNodes.map KadNodeInfo.kad_id).reverse⟩ :=
    foldl_add ownSample (by decide +kernel) (by decide)
  have hkept : Kept ownSample (first.foldl (after ownSample) new) :=
    kept_of_listed ownSample first (hall ownSample first first List.prefix_rfl)
  have hlisted := hall ownSample (first ++ [eleventh]) _ List.prefix_rfl
  rw [List.foldl_concat] at hlisted
  have heven := splitsEvenly_of_listed eleventh hkept hlisted
  rw [hfirst] at heven
  change Even (RoutingZone.splits ownSample (numberedNode 255) 0 (.leaf 0 0 (firstNodes.map .new))) at heven
  rw [splits_full_bin] at heven
  exact absurd heven (by decide)

end ConfirmedZone

end amuled.kad
