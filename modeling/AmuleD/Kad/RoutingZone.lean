import AmuleD.Kad.RoutingBin
import AmuleD.Sorting.Stable

open sorting

namespace amuled.kad

def KBASE : Nat := 4

def KK : Nat := 5

def MAX_ZONE_LEVEL : Nat := 127

def BOOTSTRAP_NODE_COUNT : Nat := 2000

/-- The distance of a node to an identifier. -/
def distance (own_id : KadUInt128) (node : KadNodeInfo) : KadUInt128 :=
  own_id.xor (to_kad_uint128 node.kad_id node.length_kad_id)

/-- The sub-zone that a node belongs to at a level. -/
def side (own_id : KadUInt128) (level : Nat) (node : KadNodeInfo) : Nat :=
  bit_at_level (distance own_id node) level

/-- A zone with its own bin, or one that was split in two. The own identifier is the
same in all zones of a table. -/
inductive RoutingZone where
  | leaf (level zone_index : Nat) (bin : RoutingBin)
  | branch (level zone_index : Nat) (left right : RoutingZone)

namespace RoutingZone

/-- `RoutingZone.__init__`. -/
def new : RoutingZone := .leaf 0 0 []

def level : RoutingZone → Nat
  | .leaf level _ _ => level
  | .branch level _ _ _ => level

/-- `__len__`. -/
def length : RoutingZone → Nat
  | .leaf _ _ bin => bin.length
  | .branch _ _ left right => left.length + right.length

/-- The contacts in the order of `_collect_all`. -/
def entries : RoutingZone → List RoutingContact
  | .leaf _ _ bin => bin.contacts
  | .branch _ _ left right => left.entries ++ right.entries

def all_contacts (zone : RoutingZone) : List KadNodeInfo := zone.entries.map RoutingContact.node

/-- The bins of all leaves. -/
def bins : RoutingZone → List RoutingBin
  | .leaf _ _ bin => [bin]
  | .branch _ _ left right => left.bins ++ right.bins

/-- `_can_split` of a leaf, where `outside` contacts are elsewhere in the table. -/
def can_split (level zone_index : Nat) (bin : RoutingBin) (outside : Nat) : Bool :=
  if level ≥ MAX_ZONE_LEVEL then false
  else if bin.length ≠ K then false
  else if outside + bin.length < BOOTSTRAP_NODE_COUNT then true
  else decide (zone_index < KK ∨ level < KBASE)

/-- One turn of the loop in `_split`: a contact goes to its sub-zone, or is dropped
where the bin refuses it. -/
def migrate (own_id : KadUInt128) (now : ℚ) (level : Nat) (children : RoutingBin × RoutingBin)
    (contact : RoutingContact) : RoutingBin × RoutingBin :=
  if side own_id level contact.node = 0 then ((children.1.add now contact).1, children.2)
  else (children.1, (children.2.add now contact).1)

/-- `_split`: the bins of the two sub-zones. -/
def split (own_id : KadUInt128) (now : ℚ) (level : Nat) (bin : RoutingBin) :
    RoutingBin × RoutingBin :=
  bin.contacts.foldl (migrate own_id now level) ([], [])

theorem level_lt_of_can_split {level zone_index outside : Nat} {bin : RoutingBin}
    (h : can_split level zone_index bin outside = true) : level < 127 := by
  by_contra hnot
  rw [can_split, MAX_ZONE_LEVEL, if_pos (by omega)] at h
  cases h

/-- `add` in a leaf, whose sub-zones are leaves themselves after a split. -/
def add_to_leaf (own_id : KadUInt128) (now : ℚ) (node : KadNodeInfo) (outside level zone_index : Nat)
    (bin : RoutingBin) : RoutingZone × Bool :=
  let added := bin.add now (.new node)
  if added.2 then (.leaf level zone_index added.1, true)
  else if _hsplit : can_split level zone_index added.1 outside = true then
    let children := split own_id now level added.1
    if side own_id level node = 0 then
      let left := add_to_leaf own_id now node (outside + children.2.length) (level + 1)
        (zone_index <<< 1) children.1
      (.branch level zone_index left.1 (.leaf (level + 1) (zone_index <<< 1 ||| 1) children.2), left.2)
    else
      let right := add_to_leaf own_id now node (outside + children.1.length) (level + 1)
        (zone_index <<< 1 ||| 1) children.2
      (.branch level zone_index (.leaf (level + 1) (zone_index <<< 1) children.1) right.1, right.2)
  else (.leaf level zone_index added.1, false)
termination_by 127 - level
decreasing_by
  · have := level_lt_of_can_split _hsplit
    omega
  · have := level_lt_of_can_split _hsplit
    omega

/-- `RoutingZone.add` of a zone with `outside` contacts elsewhere in the table:
whether the node is in the table afterwards. -/
def add (own_id : KadUInt128) (now : ℚ) (node : KadNodeInfo) :
    Nat → RoutingZone → RoutingZone × Bool
  | outside, .leaf level zone_index bin =>
    add_to_leaf own_id now node outside level zone_index bin
  | outside, .branch level zone_index left right =>
    if side own_id level node = 0 then
      let added := add own_id now node (outside + right.length) left
      (.branch level zone_index added.1 right, added.2)
    else
      let added := add own_id now node (outside + left.length) right
      (.branch level zone_index left added.1, added.2)

def mark_alive (now : ℚ) (key : String × Nat) : RoutingZone → RoutingZone × Bool
  | .leaf level zone_index bin =>
    let marked := bin.mark_alive now key
    (.leaf level zone_index marked.1, marked.2)
  | .branch level zone_index left right =>
    let marked := left.mark_alive now key
    if marked.2 then (.branch level zone_index marked.1 right, true)
    else
      let marked' := right.mark_alive now key
      (.branch level zone_index marked.1 marked'.1, marked'.2)

def mark_failed (key : String × Nat) : RoutingZone → RoutingZone × Bool
  | .leaf level zone_index bin =>
    let marked := bin.mark_failed key
    (.leaf level zone_index marked.1, marked.2)
  | .branch level zone_index left right =>
    let marked := left.mark_failed key
    if marked.2 then (.branch level zone_index marked.1 right, true)
    else
      let marked' := right.mark_failed key
      (.branch level zone_index marked.1 marked'.1, marked'.2)

def remove (key : String × Nat) : RoutingZone → RoutingZone × Bool
  | .leaf level zone_index bin =>
    match bin.get_contact_by_key key with
    | some contact => (.leaf level zone_index (bin.remove_contact contact), true)
    | none => (.leaf level zone_index bin, false)
  | .branch level zone_index left right =>
    let removed := left.remove key
    let removed' := right.remove key
    (.branch level zone_index removed.1 removed'.1, removed.2 || removed'.2)

/-- `_collect_closest`, which appends to the results. -/
def collect_closest (own_id target : KadUInt128) (count : Int) :
    RoutingZone → List KadNodeInfo → List KadNodeInfo
  | .leaf _ _ bin, results =>
    if results.length ≥ count then results
    else
      let ordered := sorted (fun contact => (distance target contact.node).value) bin.contacts
      let room := (count - results.length).toNat
      results ++ (ordered.take room).map RoutingContact.node
  | .branch level _ left right, results =>
    if results.length ≥ count then results
    else
      let i_closer := bit_at_level (own_id.xor target) level
      let closer := if i_closer = 0 then left.collect_closest own_id target count results
        else right.collect_closest own_id target count results
      if closer.length < count then
        if i_closer = 0 then right.collect_closest own_id target count closer
        else left.collect_closest own_id target count closer
      else closer

def closest (zone : RoutingZone) (own_id target : KadUInt128) (count : Int) : List KadNodeInfo :=
  zone.collect_closest own_id target count []

end RoutingZone

/-- A call that changes the table, with the clock it reads. -/
inductive ZoneCall where
  | add (now : ℚ) (node : KadNodeInfo)
  | mark_alive (now : ℚ) (ip : String) (udp_port : Nat)
  | mark_failed (ip : String) (udp_port : Nat)
  | remove (ip : String) (udp_port : Nat)

/-- The table after a call. -/
def RoutingZone.after (own_id : KadUInt128) (zone : RoutingZone) : ZoneCall → RoutingZone
  | .add now node => (zone.add own_id now node 0).1
  | .mark_alive now ip udp_port => (zone.mark_alive now (ip, udp_port)).1
  | .mark_failed ip udp_port => (zone.mark_failed (ip, udp_port)).1
  | .remove ip udp_port => (zone.remove (ip, udp_port)).1

/-- The table of an own identifier after a sequence of calls. -/
def RoutingZone.run (own_id : KadUInt128) (calls : List ZoneCall) : RoutingZone :=
  calls.foldl (RoutingZone.after own_id) .new

end amuled.kad
