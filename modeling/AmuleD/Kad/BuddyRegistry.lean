import AmuleD.OrderedDict
import AmuleD.Runs
import Mathlib.Data.Finset.Card
import Mathlib.Data.Finset.Dedup
import AmuleD.Kad.Packets

open littleendian

namespace amuled.kad

def KADEMLIA_FINDSERVINGBUDDY_REQ : UInt8 := 0x51

def KADEMLIA_FINDSERVINGBUDDY_RES : UInt8 := 0x5A

def KADEMLIA_CALLBACK_REQ : UInt8 := 0x52

def xor_mask (kad_id : Bytes) : Bytes := kad_id.map (· ^^^ 0xFF)

structure FindServingBuddyReq where
  served_id : Bytes
  userhash : Bytes
  tcp_port : Nat
  opts : Option UInt8

def parse_find_serving_buddy_req (payload : Bytes) : Except Exc FindServingBuddyReq :=
  if payload.length < 34 then .error (.ValueError s!"0x51 payload too short: {payload.length}")
  else .ok ⟨payload.take 16, payload.extract 16 32, decode (payload.extract 32 34), payload[34]?⟩

def build_find_serving_buddy_res (served_buddy_id_xor buddy_hash : Bytes) (buddy_tcp_port : Nat)
    (connect_opts : Option Nat) : Bytes :=
  served_buddy_id_xor ++ buddy_hash ++ encode 2 (buddy_tcp_port % 2 ^ 16) ++
    match connect_opts with
    | some connect_opts => [UInt8.ofNat connect_opts]
    | none => []

structure CallbackReq where
  ucheck : Bytes
  file_hash : Bytes
  requester_tcp : Nat
  ext_ip : Nat

def parse_callback_req (payload : Bytes) : Except Exc CallbackReq :=
  if payload.length < 34 then .error (.ValueError s!"0x52 payload too short: {payload.length}")
  else .ok ⟨payload.take 16, payload.extract 16 32, decode (payload.extract 32 34),
    if payload.length ≥ 38 then decode (payload.extract 34 38) else 0⟩

/-- What a `BuddyCustomer` knows of its own node and of its buddy. -/
structure BuddyCustomer where
  own_kad_id : Bytes
  buddy_ip : Option String
  buddy_tcp_port : Nat
  buddy_hash : Option Bytes

/-- `on_res`: whether the buddy is accepted. -/
def BuddyCustomer.on_res (customer : BuddyCustomer) (payload : Bytes) (buddy_ip : String) :
    BuddyCustomer × Bool :=
  if payload.length < 34 then (customer, false)
  else if payload.take 16 ≠ xor_mask customer.own_kad_id then (customer, false)
  else
    ({ customer with
        buddy_hash := some (payload.extract 16 32)
        buddy_tcp_port := decode (payload.extract 32 34)
        buddy_ip := some buddy_ip }, true)

/-- A served client. `serial` is the identity of the object, and `writer` that of the transport. -/
structure ServedBuddy where
  serial : Nat
  kad_id : Bytes
  kad_id_xor : Bytes
  ip : String
  tcp_port : Nat
  writer : Nat
  deriving DecidableEq

/-- The table of the clients this node serves; `created` numbers the entries. -/
structure BuddyRegistry where
  _served : OrderedDict Bytes ServedBuddy
  max_served : Int
  tcp_port : Nat
  created : Nat

namespace BuddyRegistry

def new : BuddyRegistry := ⟨.empty, 16, 0, 0⟩

def configure (registry : BuddyRegistry) (tcp_port : Nat) (max_served : Int) : BuddyRegistry :=
  { registry with tcp_port, max_served }

/-- The entry that `register` makes. -/
def entry (registry : BuddyRegistry) (kad_id : Bytes) (ip : String) (tcp_port writer : Nat) : ServedBuddy :=
  ⟨registry.created, kad_id, xor_mask kad_id, ip, tcp_port, writer⟩

def register (registry : BuddyRegistry) (kad_id : Bytes) (ip : String) (tcp_port writer : Nat) : BuddyRegistry :=
  let entry := registry.entry kad_id ip tcp_port writer
  { registry with
    _served := (registry._served.set entry.kad_id entry).set entry.kad_id_xor entry
    created := registry.created + 1 }

/-- The keys whose entry has the transport. -/
def stale (registry : BuddyRegistry) (writer : Nat) : List Bytes :=
  (registry._served.entries.filter fun item => item.2.writer = writer).map Prod.fst

def unregister_transport (registry : BuddyRegistry) (writer : Nat) : BuddyRegistry :=
  { registry with _served := registry._served.eraseAll (registry.stale writer) }

def lookup (registry : BuddyRegistry) (ucheck : Bytes) : Option ServedBuddy :=
  registry._served.get ucheck <|> registry._served.get (xor_mask ucheck)

/-- The entries are counted as objects, each of which stands in the table twice. -/
def can_serve (registry : BuddyRegistry) : Bool :=
  registry.tcp_port ≠ 0 && decide ((registry._served.values.dedup.length : Int) < registry.max_served)

end BuddyRegistry

theorem xor_mask_xor_mask (kad_id : Bytes) : xor_mask (xor_mask kad_id) = kad_id := by
  have hbyte : (fun byte : UInt8 => byte ^^^ 0xFF) ∘ (fun byte => byte ^^^ 0xFF) = id := by
    funext byte
    rw [Function.comp_apply, UInt8.xor_assoc, UInt8.xor_self, UInt8.xor_zero, id]
  rw [xor_mask, xor_mask, List.map_map, hbyte, List.map_id]

theorem xor_mask_eq_iff {kad_id other : Bytes} : xor_mask kad_id = other ↔ kad_id = xor_mask other := by
  constructor
  · rintro rfl
    rw [xor_mask_xor_mask]
  · rintro rfl
    rw [xor_mask_xor_mask]

/-- What happens to a registry: a find-buddy request is answered or not, a client registers with its transport, a
session ends, or the kernel configures it. -/
inductive RegistryEvent where
  | find_serving_buddy
  | register (kad_id : Bytes) (ip : String) (tcp_port writer : Nat)
  | unregister_transport (writer : Nat)
  | configure (tcp_port : Nat) (max_served : Int)

/-- The registry, and the KadIDs that were registered over the transports that are still open. -/
structure Serving where
  registry : BuddyRegistry
  live : List (Bytes × Nat)

namespace Serving

def new : Serving := ⟨.new, []⟩

def step (serving : Serving) : RegistryEvent → Serving
  | .find_serving_buddy => serving
  | .register kad_id ip tcp_port writer =>
    ⟨serving.registry.register kad_id ip tcp_port writer, serving.live ++ [(kad_id, writer)]⟩
  | .unregister_transport writer =>
    ⟨serving.registry.unregister_transport writer, serving.live.filter fun client => client.2 ≠ writer⟩
  | .configure tcp_port max_served => ⟨serving.registry.configure tcp_port max_served, serving.live⟩

/-- The clients that are served, by their transports. -/
def clients (serving : Serving) : Finset Nat := (serving.live.map Prod.snd).toFinset

/-- No more clients are served than allowed, each is found under both forms of its KadID, and what is found is a
client that registered the KadID looked up or its complement. -/
structure Sound (serving : Serving) : Prop where
  capacity : (serving.clients.card : Int) ≤ serving.registry.max_served
  found : ∀ kad_id writer, (kad_id, writer) ∈ serving.live →
    (serving.registry.lookup kad_id).map ServedBuddy.writer = some writer ∧
      (serving.registry.lookup (xor_mask kad_id)).map ServedBuddy.writer = some writer
  own : ∀ ucheck buddy, serving.registry.lookup ucheck = some buddy →
    (ucheck, buddy.writer) ∈ serving.live ∨ (xor_mask ucheck, buddy.writer) ∈ serving.live

/-- A registration finds a place and no other transport with its KadID or the complement of it, and no capacity is
configured below the number of clients. -/
def Admissible (serving : Serving) : RegistryEvent → Prop
  | .find_serving_buddy => True
  | .register kad_id _ _ writer =>
    (writer ∈ serving.clients ∨ (serving.clients.card : Int) < serving.registry.max_served) ∧
      ∀ other, (kad_id, other) ∈ serving.live ∨ (xor_mask kad_id, other) ∈ serving.live → other = writer
  | .unregister_transport _ => True
  | .configure _ max_served => (serving.clients.card : Int) ≤ max_served

/-- What the table holds while every step is admissible: the entries of the live registrations under both forms of
their KadIDs, and no others. -/
structure Kept (serving : Serving) : Prop where
  capacity : (serving.clients.card : Int) ≤ serving.registry.max_served
  entries : ∀ key buddy, (key, buddy) ∈ serving.registry._served.entries →
    (buddy.kad_id, buddy.writer) ∈ serving.live ∧ (key = buddy.kad_id ∨ key = xor_mask buddy.kad_id)
  present : ∀ kad_id writer, (kad_id, writer) ∈ serving.live → ∀ key, key = kad_id ∨ key = xor_mask kad_id →
    ∃ buddy, (key, buddy) ∈ serving.registry._served.entries ∧ buddy.writer = writer

variable {serving : Serving}

theorem mem_clients {writer : Nat} : writer ∈ serving.clients ↔ ∃ kad_id, (kad_id, writer) ∈ serving.live := by
  simp [clients]

theorem mem_entries_register {registry : BuddyRegistry} {kad_id key : Bytes} {ip : String} {tcp_port writer : Nat}
    {buddy : ServedBuddy} :
    (key, buddy) ∈ (registry.register kad_id ip tcp_port writer)._served.entries ↔
      (key = kad_id ∨ key = xor_mask kad_id) ∧ buddy = registry.entry kad_id ip tcp_port writer ∨
        (key ≠ kad_id ∧ key ≠ xor_mask kad_id) ∧ (key, buddy) ∈ registry._served.entries := by
  simp only [BuddyRegistry.register, OrderedDict.mem_set, BuddyRegistry.entry, Prod.mk.injEq]
  tauto

theorem mem_entries_unregister {registry : BuddyRegistry} {key : Bytes} {writer : Nat} {buddy : ServedBuddy} :
    (key, buddy) ∈ (registry.unregister_transport writer)._served.entries ↔
      (key, buddy) ∈ registry._served.entries ∧ buddy.writer ≠ writer := by
  simp only [BuddyRegistry.unregister_transport, OrderedDict.mem_eraseAll, BuddyRegistry.stale, List.mem_map,
    List.mem_filter, decide_eq_true_eq]
  constructor
  · rintro ⟨hkept, hmem⟩
    exact ⟨hmem, fun hwriter => hkept ⟨(key, buddy), ⟨hmem, hwriter⟩, rfl⟩⟩
  · rintro ⟨hmem, hwriter⟩
    refine ⟨?_, hmem⟩
    rintro ⟨⟨other, found⟩, ⟨hfound, hstale⟩, rfl⟩
    have hsame : found = buddy :=
      Option.some.inj ((OrderedDict.get_of_mem hfound).symm.trans (OrderedDict.get_of_mem hmem))
    exact hwriter (hsame ▸ hstale)

theorem lookup_of_mem {registry : BuddyRegistry} {ucheck : Bytes} {buddy : ServedBuddy}
    (hmem : (ucheck, buddy) ∈ registry._served.entries) : registry.lookup ucheck = some buddy := by
  rw [BuddyRegistry.lookup, OrderedDict.get_of_mem hmem]
  rfl

theorem mem_of_lookup {registry : BuddyRegistry} {ucheck : Bytes} {buddy : ServedBuddy}
    (hlookup : registry.lookup ucheck = some buddy) :
    (ucheck, buddy) ∈ registry._served.entries ∨ (xor_mask ucheck, buddy) ∈ registry._served.entries := by
  rw [BuddyRegistry.lookup] at hlookup
  cases hget : registry._served.get ucheck with
  | none =>
    rw [hget] at hlookup
    exact .inr (OrderedDict.mem_of_get hlookup)
  | some found =>
    rw [hget] at hlookup
    cases hlookup
    exact .inl (OrderedDict.mem_of_get hget)

theorem Kept.sound (h : serving.Kept) : serving.Sound where
  capacity := h.capacity
  found kad_id writer hlive := by
    obtain ⟨plain, hplain, hwriter⟩ := h.present kad_id writer hlive kad_id (.inl rfl)
    obtain ⟨masked, hmasked, hwriter'⟩ := h.present kad_id writer hlive (xor_mask kad_id) (.inr rfl)
    rw [lookup_of_mem hplain, lookup_of_mem hmasked, Option.map_some, Option.map_some, hwriter, hwriter']
    exact ⟨rfl, rfl⟩
  own ucheck buddy hlookup := by
    have hkey : ∀ key, (key, buddy) ∈ serving.registry._served.entries →
        (key, buddy.writer) ∈ serving.live ∨ (xor_mask key, buddy.writer) ∈ serving.live := by
      intro key hmem
      obtain ⟨hlive, hform | hform⟩ := h.entries key buddy hmem
      · exact .inl (hform ▸ hlive)
      · rw [hform, xor_mask_xor_mask]
        exact .inr hlive
    rcases mem_of_lookup hlookup with hmem | hmem
    · exact hkey ucheck hmem
    · have hmasked := hkey (xor_mask ucheck) hmem
      rw [xor_mask_xor_mask] at hmasked
      exact hmasked.symm

/-- A client that registers before anything else happens finds the place for which its request was answered. -/
theorem Kept.room_of_can_serve (h : serving.Kept) (hserve : serving.registry.can_serve = true) :
    (serving.clients.card : Int) < serving.registry.max_served := by
  simp only [BuddyRegistry.can_serve, Bool.and_eq_true, decide_eq_true_eq] at hserve
  have hsubset : serving.clients ⊆ serving.registry._served.values.toFinset.image ServedBuddy.writer := by
    intro writer hwriter
    obtain ⟨kad_id, hlive⟩ := mem_clients.mp hwriter
    obtain ⟨buddy, hmem, rfl⟩ := h.present kad_id writer hlive kad_id (.inl rfl)
    apply Finset.mem_image_of_mem
    rw [List.mem_toFinset]
    exact List.mem_map_of_mem hmem
  have hcard := (Finset.card_le_card hsubset).trans Finset.card_image_le
  rw [List.card_toFinset] at hcard
  omega

theorem clients_register (kad_id : Bytes) (ip : String) (tcp_port writer : Nat) :
    (serving.step (.register kad_id ip tcp_port writer)).clients = insert writer serving.clients := by
  ext other
  simp [clients, step, eq_comm]

theorem Kept.register (h : serving.Kept) {kad_id : Bytes} {ip : String} {tcp_port writer : Nat}
    (hadmissible : serving.Admissible (.register kad_id ip tcp_port writer)) :
    (serving.step (.register kad_id ip tcp_port writer)).Kept := by
  obtain ⟨hroom, hown⟩ := hadmissible
  constructor
  · rw [clients_register]
    have hmax : (serving.step (.register kad_id ip tcp_port writer)).registry.max_served =
        serving.registry.max_served := rfl
    rw [hmax]
    rcases hroom with hmem | hless
    · rw [Finset.insert_eq_of_mem hmem]
      exact h.capacity
    · have hcard := Finset.card_insert_le writer serving.clients
      omega
  · intro key buddy hmem
    rcases mem_entries_register.mp hmem with ⟨hkey, rfl⟩ | ⟨_, hold⟩
    · exact ⟨List.mem_append_right _ (List.mem_singleton_self _), hkey⟩
    · obtain ⟨hlive, hform⟩ := h.entries key buddy hold
      exact ⟨List.mem_append_left _ hlive, hform⟩
  · intro other owner hmem key hkey
    simp only [step, mem_entries_register]
    by_cases hnew : key = kad_id ∨ key = xor_mask kad_id
    · refine ⟨_, .inl ⟨hnew, rfl⟩, ?_⟩
      rcases List.mem_append.mp hmem with hlive | hlast
      · -- A live registration under one of the two keys is one of the same transport.
        symm
        apply hown owner
        rcases hkey with rfl | rfl
        · rcases hnew with rfl | rfl
          · exact .inl hlive
          · exact .inr hlive
        · rcases hnew with hnew | hnew
          · rw [xor_mask_eq_iff.mp hnew] at hlive
            exact .inr hlive
          · rw [xor_mask_eq_iff, xor_mask_xor_mask] at hnew
            exact .inl (hnew ▸ hlive)
      · cases List.mem_singleton.mp hlast
        rfl
    · rw [not_or] at hnew
      rcases List.mem_append.mp hmem with hlive | hlast
      · obtain ⟨buddy, hold, hwriter⟩ := h.present other owner hlive key hkey
        exact ⟨buddy, .inr ⟨hnew, hold⟩, hwriter⟩
      · cases List.mem_singleton.mp hlast
        rcases hkey with rfl | rfl
        · exact absurd rfl hnew.1
        · exact absurd rfl hnew.2

theorem Kept.unregister (h : serving.Kept) (writer : Nat) : (serving.step (.unregister_transport writer)).Kept := by
  constructor
  · have hsubset : (serving.step (.unregister_transport writer)).clients ⊆ serving.clients := by
      intro other hother
      obtain ⟨kad_id, hmem⟩ := mem_clients.mp hother
      exact mem_clients.mpr ⟨kad_id, List.mem_of_mem_filter hmem⟩
    exact (Int.ofNat_le.mpr (Finset.card_le_card hsubset)).trans h.capacity
  · intro key buddy hmem
    obtain ⟨hold, hwriter⟩ := mem_entries_unregister.mp hmem
    obtain ⟨hlive, hform⟩ := h.entries key buddy hold
    exact ⟨List.mem_filter.mpr ⟨hlive, by simpa using hwriter⟩, hform⟩
  · intro kad_id owner hmem key hkey
    obtain ⟨hlive, howner⟩ := List.mem_filter.mp hmem
    obtain ⟨buddy, hold, hwriter⟩ := h.present kad_id owner hlive key hkey
    refine ⟨buddy, mem_entries_unregister.mpr ⟨hold, ?_⟩, hwriter⟩
    rw [hwriter]
    simpa using howner

theorem Kept.step (h : serving.Kept) (event : RegistryEvent) (hadmissible : serving.Admissible event) :
    (serving.step event).Kept := by
  cases event with
  | find_serving_buddy => exact h
  | register kad_id ip tcp_port writer => exact h.register hadmissible
  | unregister_transport writer => exact h.unregister writer
  | configure tcp_port max_served => exact ⟨hadmissible, h.entries, h.present⟩

/-- A step after which the registry is sound was admissible. -/
theorem Sound.admissible (event : RegistryEvent) (hsound : (serving.step event).Sound) :
    serving.Admissible event := by
  cases event with
  | find_serving_buddy => trivial
  | unregister_transport writer => trivial
  | configure tcp_port max_served => exact hsound.capacity
  | register kad_id ip tcp_port writer =>
    constructor
    · by_contra hfull
      rw [not_or] at hfull
      have hcapacity := hsound.capacity
      rw [clients_register, Finset.card_insert_of_notMem hfull.1] at hcapacity
      have hmax : (serving.step (.register kad_id ip tcp_port writer)).registry.max_served =
          serving.registry.max_served := rfl
      rw [hmax] at hcapacity
      omega
    · have hnew : ∀ key, key = kad_id ∨ key = xor_mask kad_id →
          ((serving.step (.register kad_id ip tcp_port writer)).registry.lookup key).map ServedBuddy.writer =
            some writer := by
        intro key hkey
        have hmem : (key, serving.registry.entry kad_id ip tcp_port writer) ∈
            (serving.registry.register kad_id ip tcp_port writer)._served.entries :=
          mem_entries_register.mpr (.inl ⟨hkey, rfl⟩)
        exact congrArg (Option.map ServedBuddy.writer) (lookup_of_mem hmem)
      rintro other (hlive | hlive)
      · have hfound := (hsound.found kad_id other (List.mem_append_left _ hlive)).1
        rw [hnew kad_id (.inl rfl)] at hfound
        exact (Option.some.inj hfound).symm
      · have hfound := (hsound.found (xor_mask kad_id) other (List.mem_append_left _ hlive)).1
        rw [hnew (xor_mask kad_id) (.inr rfl)] at hfound
        exact (Option.some.inj hfound).symm

theorem kept_new : Serving.new.Kept where
  capacity := by decide
  entries key buddy hmem := by cases hmem
  present kad_id writer hmem := by cases hmem

/-- A registry stays sound throughout a run exactly if each step of it is admissible. -/
theorem registry_sound_iff (events : List RegistryEvent) :
    (∀ part, part <+: events → (part.foldl step new).Sound) ↔ runs.AllSteps step new Admissible events := by
  apply runs.throughout_iff kept_new
  · exact fun _ event h hadmissible => h.step event hadmissible
  · exact fun _ h => h.sound
  · exact fun _ event _ hsound => Sound.admissible event hsound

/-- Two find-buddy requests are answered before either client registers, and there is one place. -/
def overbooked : List RegistryEvent :=
  [.configure 4662 1, .find_serving_buddy, .find_serving_buddy, .register (List.replicate 16 1) "192.0.2.1" 4662 1,
    .register (List.replicate 16 2) "192.0.2.2" 4662 2]

/-- A client registers the complement of the KadID of another one. -/
def hijacked : List RegistryEvent :=
  [.register (List.replicate 16 0) "192.0.2.1" 4662 1, .register (List.replicate 16 0xFF) "192.0.2.2" 4662 2]

/-- Registrations are not checked against the capacity, and overwrite those of other clients. -/
theorem registry_unsound :
    (overbooked.foldl step new).registry.max_served = 1 ∧
      (overbooked.foldl step new).clients = {1, 2} ∧ (List.replicate 16 0, 1) ∈ (hijacked.foldl step new).live ∧
      ((hijacked.foldl step new).registry.lookup (List.replicate 16 0)).map ServedBuddy.writer = some 2 := by
  exact ⟨rfl, by decide +kernel, by decide +kernel, by decide +kernel⟩

end Serving

end amuled.kad
