import Mathlib.Algebra.Order.Ring.Rat
import Mathlib.Data.List.Perm.Basic
import AmuleD.Kad.KadUInt128

namespace amuled.kad

/-- The capacity of a bin. -/
def K : Nat := 10

/-- A parsed Kad contact, whose identifier has sixteen bytes. -/
structure KadNodeInfo where
  kad_id : Bytes
  ip : String
  udp_port : Nat
  tcp_port : Nat
  contact_version : Nat
  verified : Bool
  udp_key : Nat
  length_kad_id : kad_id.length = 16
  deriving DecidableEq

/-- The address of a contact: its IP and UDP port. -/
def KadNodeInfo.key (node : KadNodeInfo) : String × Nat := (node.ip, node.udp_port)

/-- A contact with its liveness. -/
structure RoutingContact where
  node : KadNodeInfo
  type : Nat
  fails : Nat
  last_seen : ℚ
  deriving DecidableEq

namespace RoutingContact

/-- A contact as it is made for a node. -/
def new (node : KadNodeInfo) : RoutingContact := ⟨node, 3, 0, 0⟩

def key (contact : RoutingContact) : String × Nat := contact.node.key

def kad_id (contact : RoutingContact) : Bytes := contact.node.kad_id

def update_type (contact : RoutingContact) (now : ℚ) : RoutingContact :=
  let age := if contact.last_seen > 0 then now - contact.last_seen else 0
  let type := if age < 3600 then 2 else if age < 7200 then 1 else 0
  { contact with type := type, fails := 0 }

def checking_type (contact : RoutingContact) : RoutingContact × Bool :=
  if contact.type ≥ 4 then (contact, true)
  else ({ contact with type := contact.type + 1 }, decide (contact.type + 1 ≥ 4))

end RoutingContact

/-- The contacts of a bin, the most recent at the end. -/
abbrev RoutingBin := List RoutingContact

namespace RoutingBin

/-- `push_to_bottom`: a contact of the bin becomes its most recent. -/
def push_to_bottom (bin : RoutingBin) (contact : RoutingContact) : RoutingBin :=
  if contact ∈ bin then bin.erase contact ++ [contact] else bin

/-- `RoutingBin.add`: whether the contact is in the bin afterwards. -/
def add (bin : RoutingBin) (now : ℚ) (contact : RoutingContact) : RoutingBin × Bool :=
  match bin.find? fun existing => existing.kad_id = contact.kad_id with
  | some existing =>
    let refreshed : RoutingContact := ⟨contact.node, 0, 0, now⟩
    (push_to_bottom (bin.replace existing refreshed) refreshed, true)
  | none => if bin.length ≥ K then (bin, false) else (bin ++ [contact], true)

def mark_alive (bin : RoutingBin) (now : ℚ) (key : String × Nat) : RoutingBin × Bool :=
  match bin.find? fun contact => contact.key = key with
  | some contact =>
    let alive := { contact.update_type now with last_seen := now }
    (push_to_bottom (bin.replace contact alive) alive, true)
  | none => (bin, false)

def mark_failed (bin : RoutingBin) (key : String × Nat) : RoutingBin × Bool :=
  match bin.find? fun contact => contact.key = key with
  | some contact =>
    let checked := { contact with fails := contact.fails + 1 }.checking_type
    (bin.replace contact checked.1, checked.2)
  | none => (bin, false)

def get_contact_by_key (bin : RoutingBin) (key : String × Nat) : Option RoutingContact :=
  bin.find? fun contact => contact.key = key

def remove_contact (bin : RoutingBin) (contact : RoutingContact) : RoutingBin := bin.erase contact

/-- `contacts`: the most recent first. -/
def contacts (bin : RoutingBin) : List RoutingContact := bin.reverse

variable {bin bin' : RoutingBin} {contact : RoutingContact}

/-- One contact of the bin was replaced, the rest is as it was up to order. -/
def Replaced (old new : RoutingContact) (bin bin' : RoutingBin) : Prop :=
  old ∈ bin ∧ bin'.Perm (new :: bin.erase old)

theorem replace_perm {old : RoutingContact} (new : RoutingContact) (hold : old ∈ bin) :
    (bin.replace old new).Perm (new :: bin.erase old) := by
  induction bin with
  | nil => cases hold
  | cons first rest ih =>
    by_cases hfirst : first = old
    · subst hfirst
      simp
    · have hrest : old ∈ rest := (List.mem_cons.mp hold).resolve_left (Ne.symm hfirst)
      have hne : ¬ old = first := fun h => hfirst h.symm
      rw [List.erase_cons_tail (by simpa using hfirst), List.replace_cons]
      simp only [beq_eq_false_iff_ne.mpr hne]
      exact (List.Perm.cons first (ih hrest)).trans (List.Perm.swap new first _)

theorem push_to_bottom_perm (bin : RoutingBin) (contact : RoutingContact) :
    (push_to_bottom bin contact).Perm bin := by
  unfold push_to_bottom
  split
  · rename_i hmem
    exact (List.perm_append_singleton contact _).trans (List.perm_cons_erase hmem).symm
  · exact .refl bin

theorem replaced_of_replace {old : RoutingContact} (new : RoutingContact) (hold : old ∈ bin) :
    Replaced old new bin (bin.replace old new) := ⟨hold, replace_perm new hold⟩

theorem replaced_of_push {old : RoutingContact} (new : RoutingContact) (hold : old ∈ bin) :
    Replaced old new bin (push_to_bottom (bin.replace old new) new) :=
  ⟨hold, (push_to_bottom_perm _ new).trans (replace_perm new hold)⟩

section Replaced

variable {old new : RoutingContact}

theorem Replaced.length (h : Replaced old new bin bin') : bin'.length = bin.length := by
  have hlength := h.2.length_eq
  rw [List.length_cons, List.length_erase_of_mem h.1] at hlength
  have hpositive := List.length_pos_of_mem h.1
  omega

/-- A contact keeps its identifier when it is replaced, and with it the bin. -/
theorem Replaced.kad_ids (h : Replaced old new bin bin') (hid : new.kad_id = old.kad_id) :
    (bin'.map RoutingContact.kad_id).Perm (bin.map RoutingContact.kad_id) := by
  have hnew := h.2.map RoutingContact.kad_id
  have hold := (List.perm_cons_erase h.1).map RoutingContact.kad_id
  rw [List.map_cons] at hnew hold
  rw [hid] at hnew
  exact hnew.trans hold.symm

theorem Replaced.mem (h : Replaced old new bin bin') (hmem : contact ∈ bin) :
    contact ∈ bin' ∨ contact = old := by
  by_cases hcontact : contact = old
  · exact .inr hcontact
  · exact .inl (h.2.mem_iff.mpr (List.mem_cons_of_mem _ ((List.mem_erase_of_ne hcontact).mpr hmem)))

theorem Replaced.new_mem (h : Replaced old new bin bin') : new ∈ bin' :=
  h.2.mem_iff.mpr List.mem_cons_self

end Replaced

/-- What `add` can do. -/
theorem add_cases (bin : RoutingBin) (now : ℚ) (contact : RoutingContact) :
    (∃ existing refreshed, existing.kad_id = contact.kad_id ∧ refreshed.node = contact.node ∧
      (add bin now contact).2 = true ∧ Replaced existing refreshed bin (add bin now contact).1) ∨
    (contact.kad_id ∉ bin.map RoutingContact.kad_id ∧ bin.length < K ∧
      add bin now contact = (bin ++ [contact], true)) ∨
    (contact.kad_id ∉ bin.map RoutingContact.kad_id ∧ bin.length ≥ K ∧
      add bin now contact = (bin, false)) := by
  unfold add
  cases hfound : bin.find? fun existing => existing.kad_id = contact.kad_id with
  | some existing =>
    left
    have hid := List.find?_some hfound
    exact ⟨existing, ⟨contact.node, 0, 0, now⟩, of_decide_eq_true hid, rfl, rfl,
      replaced_of_push _ (List.mem_of_find?_eq_some hfound)⟩
  | none =>
    right
    have hnew : contact.kad_id ∉ bin.map RoutingContact.kad_id := by
      intro hmem
      obtain ⟨existing, hexisting, hid⟩ := List.mem_map.mp hmem
      have hnone := List.find?_eq_none.mp hfound existing hexisting
      exact hnone (decide_eq_true hid)
    by_cases hfull : bin.length ≥ K
    · exact .inr ⟨hnew, hfull, by simp only [if_pos hfull]⟩
    · exact .inl ⟨hnew, by omega, by simp only [if_neg hfull]⟩

end RoutingBin

end amuled.kad
