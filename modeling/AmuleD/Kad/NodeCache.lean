import AmuleD.Fields
import AmuleD.Json.Loads
import AmuleD.Kad.Packets
import AmuleD.OrderedDict

open pystr json littleendian

namespace amuled.kad_cache

open kad (KadUInt128 KadNodeInfo)

/-- What `db/kad_nodes.json` is: not there, nothing that `json.loads` takes, or a value. -/
inductive CacheFile (F : Type) where
  | missing
  | unreadable
  | holds (value : Document F)

/-- The key of a node in the pool. -/
structure Address where
  ip : PyStr
  port : Int
  ip_ne : ip ≠ []
  deriving DecidableEq

/-- A node as `load_kad_runtime` reads it. -/
structure CachedNode (F : Type) where
  kad_id : Document F
  tcp : Int
  ver : Int
  hellos : Int
  pings : Int
  last_seen : F

/-- A node as `build_pool` reads it. -/
structure PoolNode (F : Type) extends CachedNode F where
  fails : Int
  udp_key : Document F

/-- A node that goes into the routing zone. -/
structure RoutedNode where
  kad_id : Bytes
  ip : PyStr
  udp_port : Int
  tcp_port : Int
  contact_version : Int
  length_kad_id : kad_id.length = 16

structure KadRuntime (F : Type) where
  own_id : KadUInt128
  nodes : OrderedDict Address (CachedNode F)
  routed : List RoutedNode

structure SpiderEngine (F : Type) where
  own : KadUInt128
  nodes : OrderedDict Address (PoolNode F)

variable {F : Type} (floats : Floats F) (limit : Nat)

section Reading

/-- `_load_cache` and `load_cache`. -/
def load_cache : CacheFile F → Document F
  | .holds value => value
  | _ => .object []

/-- `int(rec.get(key, default))`. -/
def int_field (record : Document F) (key : String) (default : Int) : Option Int :=
  (record.get (lit key) (.int default)).bind (Document.to_int floats)

def read_cached (record : Document F) : Option (CachedNode F) := do
  let kad_id ← record.get (lit "kad_id") (.str [])
  let tcp ← int_field floats record "tcp" 4662
  let ver ← int_field floats record "ver" 0
  let hellos ← int_field floats record "hellos" 0
  let pings ← int_field floats record "pings" 0
  let last_seen ← (record.get (lit "last_seen") (.int 0)).bind (Document.to_float floats)
  return ⟨kad_id, tcp, ver, hellos, pings, last_seen⟩

def read_pool_node (record : Document F) : Option (PoolNode F) := do
  let node ← read_cached floats record
  let fails ← int_field floats record "fails" 0
  let udp_key ← record.get (lit "udp_key") (.str [])
  return ⟨node, fails, udp_key⟩

/-- One record of the `nodes` of the cache; a key without an IP or a port is skipped. -/
def add_record {ν : Type} (read : Document F → Option ν) (nodes : OrderedDict Address ν) (entry : PyStr × Document F) :
    Option (OrderedDict Address ν) :=
  let key := rpartition 0x3A entry.1
  if hkey : key.1 = [] ∨ key.2 = [] then some nodes
  else do
    let record ← read entry.2
    let port ← int_of key.2
    return nodes.set ⟨key.1, port, fun hip => hkey (Or.inl hip)⟩ record

def read_nodes {ν : Type} (read : Document F → Option ν) (cached_nodes : Document F) :
    Option (OrderedDict Address ν) := do
  let entries ← cached_nodes.items
  entries.foldlM (add_record read) OrderedDict.empty

/-- `_is_routable_ipv4` and `is_routable_ipv4`. -/
def is_routable_ipv4 (ip : PyStr) : Bool :=
  match (split 0x2E ip).head?.bind int_of with
  | some first_octet => first_octet ≠ 0 && decide (first_octet < 224)
  | none => false

theorem ne_nil_of_routable {ip : PyStr} (hroutable : is_routable_ipv4 ip = true) : ip ≠ [] := by
  rintro rfl
  exact absurd hroutable (by decide)

end Reading

section Writing

/-- `json.dumps` to the temporary file, which then takes the place of the cache. -/
def replace_cache (payload : Document F) : Option (CacheFile F) :=
  if payload.fits limit then some (.holds payload) else none

def _persist_own_id (own_id : KadUInt128) (existing_nodes : Document F) : Option (CacheFile F) :=
  replace_cache limit (.object [(lit "own_id", .str (lower_hex own_id.to_bytes)), (lit "nodes", existing_nodes)])

theorem colon_not_mem_str_of {number : Int} {digits : PyStr} (hdigits : str_of number = some digits) :
    0x3A ∉ digits := by
  intro hmem
  rcases mem_str_of hdigits _ hmem with heq | hrange
  · exact absurd heq (by decide)
  · exact absurd hrange.2 (by decide)

/-- `"%s:%d" % address`. -/
def address_text (address : Address) : Option PyStr :=
  (str_of address.port).map fun port => address.ip ++ 0x3A :: port

/-- Different nodes of the pool have different texts. -/
theorem address_text_inj {address other : Address} {text : PyStr} (htext : address_text address = some text)
    (hother : address_text other = some text) : address = other := by
  have hparts : ∀ {address : Address}, address_text address = some text →
      (rpartition 0x3A text).1 = address.ip ∧ int_of (rpartition 0x3A text).2 = some address.port := by
    intro address haddress
    obtain ⟨digits, hdigits, rfl⟩ := Option.map_eq_some_iff.mp haddress
    rw [rpartition_append (colon_not_mem_str_of hdigits)]
    exact ⟨rfl, int_of_str_of hdigits⟩
  obtain ⟨hip, hport⟩ := hparts htext
  obtain ⟨hip', hport'⟩ := hparts hother
  rw [hport, Option.some.injEq] at hport'
  exact (Address.mk.injEq ..).mpr ⟨hip.symm.trans hip', hport'⟩

def node_record (node : PoolNode F) : Document F :=
  .object [(lit "kad_id", node.kad_id), (lit "tcp", .int node.tcp), (lit "ver", .int node.ver),
    (lit "hellos", .int node.hellos), (lit "pings", .int node.pings), (lit "fails", .int node.fails),
    (lit "udp_key", node.udp_key), (lit "last_seen", .float node.last_seen)]

/-- The node has answered. -/
def is_alive (node : PoolNode F) : Bool := decide (0 < node.hellos) || decide (0 < node.pings)

def alive (nodes : OrderedDict Address (PoolNode F)) : OrderedDict Address (PoolNode F) where
  entries := nodes.entries.filter fun entry => is_alive entry.2
  nodup := nodes.nodup.sublist (List.filter_sublist.map _)

def snapshot_entry (entry : Address × PoolNode F) : Option (PyStr × Document F) :=
  (address_text entry.1).map fun key => (key, node_record entry.2)

def save_snapshot (engine : SpiderEngine F) (saved_at : PyStr) : Option (CacheFile F) := do
  let entries ← (alive engine.nodes).entries.mapM snapshot_entry
  replace_cache limit (.object [(lit "own_id", .str (lower_hex engine.own.to_bytes)), (lit "saved_at", .str saved_at),
    (lit "nodes", .object entries)])

end Writing

section Loading

/-- `KadUInt128(raw)`, which takes sixteen bytes. -/
def own_id_of (raw : Bytes) : Option KadUInt128 :=
  if hraw : raw.length = 16 then some (kad.to_kad_uint128 raw hraw) else none

def _decode_own_id (own_hex : Document F) : Option (Option KadUInt128) :=
  if own_hex.truthy floats then
    match own_hex with
    | .str digits => some ((pystr.fromhex digits).bind own_id_of)
    | _ => none
  else some none

/-- `KadUInt128(bytes.fromhex(own_hex))`. -/
def decode_own_hex (own_hex : Document F) : Option KadUInt128 :=
  match own_hex with
  | .str digits => (pystr.fromhex digits).bind own_id_of
  | _ => none

/-- `_build_node`. -/
def _build_node (kad_id_raw : Document F) (ip : PyStr) (udp_port tcp ver : Int) : Option RoutedNode :=
  match kad_id_raw with
  | .str digits =>
    match pystr.fromhex digits with
    | some kad_id => if hlength : kad_id.length = 16 then some ⟨kad_id, ip, udp_port, tcp, ver, hlength⟩ else none
    | none => none
  | _ => none

def routing_nodes (nodes : OrderedDict Address (CachedNode F)) : List RoutedNode :=
  nodes.entries.filterMap fun entry =>
    if is_routable_ipv4 entry.1.ip then
      _build_node entry.2.kad_id entry.1.ip entry.1.port entry.2.tcp entry.2.ver
    else none

/-- A generated identifier, which is stored beside the nodes that the cache has. -/
def generate_id (fresh : KadUInt128) (cache : Document F) : Option (KadUInt128 × CacheFile F) := do
  let existing ← cache.get (lit "nodes") (.object [])
  let file ← _persist_own_id limit fresh (existing.or_empty floats)
  return (fresh, file)

/-- The identifier of the runtime; one that cannot be decoded is replaced. -/
def runtime_id (fresh : KadUInt128) (file : CacheFile F) (own_hex : Document F) :
    Option (KadUInt128 × CacheFile F) := do
  match ← _decode_own_id floats own_hex with
  | some own_id => return (own_id, file)
  | none => generate_id floats limit fresh (load_cache file)

/-- The identifier of the engine; one that is there is not replaced. -/
def spider_id (fresh : KadUInt128) (file : CacheFile F) (own_hex : Document F) : Option (KadUInt128 × CacheFile F) :=
  if own_hex.truthy floats then (decode_own_hex own_hex).map fun own => (own, file)
  else generate_id floats limit fresh (load_cache file)

/-- `load_kad_runtime`, with the identifier that it generates where it has none; `none` is an exception. -/
def load_kad_runtime (fresh : KadUInt128) (file : CacheFile F) : Option (KadRuntime F × CacheFile F) := do
  let cache := load_cache file
  let own_hex ← cache.get (lit "own_id") .null
  let found ← runtime_id floats limit fresh file own_hex
  let cached_nodes ← cache.get (lit "nodes") .null
  let nodes ← read_nodes (read_cached floats) (cached_nodes.or_empty floats)
  return (⟨found.1, nodes, routing_nodes nodes⟩, found.2)

/-- A contact of `nodes.dat` that the cache does not have. -/
def add_contact (nodes : OrderedDict Address (PoolNode F)) (contact : KadNodeInfo) :
    OrderedDict Address (PoolNode F) :=
  if hroutable : is_routable_ipv4 (lit contact.ip) = true then
    nodes.setDefault ⟨lit contact.ip, contact.udp_port, ne_nil_of_routable hroutable⟩
      ⟨⟨.str (lower_hex contact.kad_id), contact.tcp_port, contact.contact_version, 0, 0, floats.zero⟩, 0, .str []⟩
  else nodes

variable (contacts : List KadNodeInfo)

/-- `build_pool`, with what `nodes.dat` gave. -/
def build_pool (cache : Document F) : Option (OrderedDict Address (PoolNode F)) := do
  let cached_nodes ← cache.get (lit "nodes") .null
  let nodes ← read_nodes (read_pool_node floats) (cached_nodes.or_empty floats)
  return contacts.foldl (add_contact floats) nodes

/-- `SpiderEngine.__init__`; `none` is an exception. -/
def SpiderEngine.init (fresh : KadUInt128) (file : CacheFile F) : Option (SpiderEngine F × CacheFile F) := do
  let cache := load_cache file
  let own_hex ← cache.get (lit "own_id") .null
  let found ← spider_id floats limit fresh file own_hex
  let nodes ← build_pool floats contacts cache
  return (⟨found.1, nodes⟩, found.2)

inductive Loader where
  | load_kad_runtime
  | SpiderEngine

/-- The own identifier of a loader and the file that it leaves. -/
def load (loader : Loader) (fresh : KadUInt128) (file : CacheFile F) : Option (KadUInt128 × CacheFile F) :=
  match loader with
  | .load_kad_runtime => (load_kad_runtime floats limit fresh file).map fun loaded => (loaded.1.own_id, loaded.2)
  | .SpiderEngine => (SpiderEngine.init floats limit contacts fresh file).map fun loaded => (loaded.1.own, loaded.2)

end Loading

end amuled.kad_cache
