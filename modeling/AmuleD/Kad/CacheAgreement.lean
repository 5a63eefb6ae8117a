import AmuleD.Kad.NodeCache

open pystr json littleendian

namespace amuled.kad

/-- A word of the bytes is the word of the number that was packed there. -/
theorem word_append (before : Bytes) {after : Bytes} {index number : Nat} (hbefore : before.length = 4 * index) :
    word (before ++ (encode 4 (number &&& 0xFFFFFFFF) ++ after)) index = number % 2 ^ 32 := by
  have hmask : number &&& 0xFFFFFFFF = number % 2 ^ 32 := Nat.and_two_pow_sub_one_eq_mod number 32
  have hlt : number % 2 ^ 32 < 256 ^ 4 := Nat.mod_lt _ (Nat.two_pow_pos 32)
  have hslice : (before ++ (encode 4 (number % 2 ^ 32) ++ after)).extract (4 * index) (4 * index + 4) =
      encode 4 (number % 2 ^ 32) := by
    rw [List.extract_eq_take_drop, ← hbefore, List.drop_left, Nat.add_sub_cancel_left]
    exact List.take_left' (length_encode 4 _)
  rw [word, hmask, hslice, decode_encode hlt]

/-- The bytes of an identifier are read back as the same identifier. -/
theorem to_kad_uint128_to_bytes (id : KadUInt128) : to_kad_uint128 id.to_bytes id.length_to_bytes = id := by
  have hbytes : id.to_bytes = encode 4 (id.value >>> 96 &&& 0xFFFFFFFF) ++ (encode 4 (id.value >>> 64 &&& 0xFFFFFFFF) ++
      (encode 4 (id.value >>> 32 &&& 0xFFFFFFFF) ++ (encode 4 (id.value &&& 0xFFFFFFFF) ++ []))) := by
    simp only [KadUInt128.to_bytes, List.append_assoc, List.append_nil]
  have h0 : word id.to_bytes 0 = (id.value >>> 96) % 2 ^ 32 := by
    rw [hbytes]
    exact word_append [] rfl
  have h1 : word id.to_bytes 1 = (id.value >>> 64) % 2 ^ 32 := by
    rw [hbytes]
    exact word_append _ (length_encode 4 _)
  have h2 : word id.to_bytes 2 = (id.value >>> 32) % 2 ^ 32 := by
    rw [hbytes, ← List.append_assoc]
    exact word_append _ (by simp)
  have h3 : word id.to_bytes 3 = id.value % 2 ^ 32 := by
    rw [hbytes, ← List.append_assoc, ← List.append_assoc]
    exact word_append _ (by simp)
  have hpos := Nat.two_pow_pos 32
  have hrange := id.inRange
  rw [KadUInt128.mk.injEq]
  simp only [to_kad_uint128, h0, h1, h2, h3, Nat.shiftRight_eq_div_pow]
  rw [words_to_int_eq _ (Nat.mod_lt _ hpos) (Nat.mod_lt _ hpos) (Nat.mod_lt _ hpos)]
  omega

end amuled.kad

namespace amuled.kad_cache

open kad (KadUInt128 KadNodeInfo)

variable {F : Type} (floats : Floats F) (limit : Nat) (contacts : List KadNodeInfo)

/-- The `own_id` of the object that the cache is. -/
def own_hex (entries : List (PyStr × Document F)) : Document F := (entries.lookup (lit "own_id")).getD .null

/-- The `nodes` of the object that the cache is. -/
def cached_nodes (entries : List (PyStr × Document F)) : Document F :=
  ((entries.lookup (lit "nodes")).getD .null).or_empty floats

/-- The integers of a record and their defaults. -/
def int_fields : List (String × Int) := [("tcp", 4662), ("ver", 0), ("hellos", 0), ("pings", 0), ("fails", 0)]

/-- A record whose key has a port that is a number, and whose fields convert; or a key without an IP or a port. -/
def WellFormed (entry : PyStr × Document F) : Prop :=
  (rpartition 0x3A entry.1).1 = [] ∨ (rpartition 0x3A entry.1).2 = [] ∨
    (int_of (rpartition 0x3A entry.1).2).isSome ∧ ∃ fields, entry.2 = .object fields ∧
      (∀ field ∈ int_fields, (((fields.lookup (lit field.1)).getD (.int field.2)).to_int floats).isSome) ∧
      (((fields.lookup (lit "last_seen")).getD (.int 0)).to_float floats).isSome

/-- A cache without a value of JSON, or an object whose `own_id` is falsy or the digits of sixteen bytes, with room
for a generated one, and whose `nodes` are falsy or an object of well-formed records. -/
def Sound (file : CacheFile F) : Prop :=
  ∃ entries records, load_cache file = .object entries ∧ cached_nodes floats entries = .object records ∧
    (∀ entry ∈ records, WellFormed floats entry) ∧
    if (own_hex entries).truthy floats then
      ∃ digits raw, own_hex entries = .str digits ∧ pystr.fromhex digits = some raw ∧ raw.length = 16
    else (Document.object [(lit "nodes", cached_nodes floats entries)]).fits limit

/-- The identifier that the cache stores. -/
def stored_id (file : CacheFile F) : Option KadUInt128 :=
  ((load_cache file).get (lit "own_id") .null).bind decode_own_hex

/-- The `nodes` of the cache have the entry. -/
def Holds (file : CacheFile F) (entry : PyStr × Document F) : Prop :=
  ∃ nodes entries, (load_cache file).get (lit "nodes") .null = some nodes ∧ nodes.items = some entries ∧ entry ∈ entries

/-- What the cache may become while loaders run and engines with the identifier save. -/
inductive Later (own : KadUInt128) : CacheFile F → CacheFile F → Prop where
  | start {file : CacheFile F} : Later own file file
  | load {file after last : CacheFile F} {loader : Loader} {fresh used : KadUInt128} (hlater : Later own file after)
      (hload : load floats limit contacts loader fresh after = some (used, last)) : Later own file last
  | save {file after last : CacheFile F} {nodes : OrderedDict Address (PoolNode F)} {saved_at : PyStr}
      (hlater : Later own file after) (hsave : save_snapshot limit ⟨own, nodes⟩ saved_at = some last) :
      Later own file last

/-- The two loaders finish on the cache and agree. -/
structure Agree (file : CacheFile F) : Prop where
  finish : ∀ loader fresh, ∃ own after, load floats limit contacts loader fresh file = some (own, after)
  same_id : ∀ {loader fresh own after}, load floats limit contacts loader fresh file = some (own, after) →
    ∀ {later}, Later floats limit contacts own after later → stored_id later = some own ∧
      ∀ loader fresh, load floats limit contacts loader fresh later = some (own, later)
  keep_id : ∀ {stored}, stored_id file = some stored →
    ∀ loader fresh, load floats limit contacts loader fresh file = some (stored, file)
  keep_records : ∀ {loader fresh own after}, load floats limit contacts loader fresh file = some (own, after) →
    ∀ entry, Holds file entry → WellFormed floats entry → Holds after entry
  keep_alive : ∀ (engine : SpiderEngine F) (saved_at : PyStr) {saved : CacheFile F},
    save_snapshot limit engine saved_at = some saved → ∀ fresh,
      (∃ runtime, load_kad_runtime floats limit fresh saved = some (runtime, saved) ∧ runtime.own_id = engine.own ∧
        runtime.nodes.entries = (alive engine.nodes).entries.map fun entry => (entry.1, entry.2.toCachedNode)) ∧
      ∃ again, SpiderEngine.init floats limit contacts fresh saved = some (again, saved) ∧ again.own = engine.own ∧
        alive again.nodes = alive engine.nodes

section Records

variable {floats}

theorem isSome_bind_iff {α β : Type} {x : Option α} {f : α → Option β} {p : Prop} (hf : ∀ a, (f a).isSome ↔ p) :
    (x.bind f).isSome ↔ x.isSome ∧ p := by
  cases x with
  | none => simp
  | some a => simpa using hf a

theorem isSome_bind_some {α β : Type} {x : Option α} {f : α → β} : (x.bind fun a => some (f a)).isSome ↔ x.isSome := by
  cases x <;> simp

theorem isSome_read_cached {fields : List (PyStr × Document F)} :
    (read_cached floats (.object fields)).isSome ↔ (int_field floats (.object fields) "tcp" 4662).isSome ∧
      (int_field floats (.object fields) "ver" 0).isSome ∧ (int_field floats (.object fields) "hellos" 0).isSome ∧
      (int_field floats (.object fields) "pings" 0).isSome ∧
      (((fields.lookup (lit "last_seen")).getD (.int 0)).to_float floats).isSome := by
  apply isSome_bind_iff
  intro tcp
  apply isSome_bind_iff
  intro ver
  apply isSome_bind_iff
  intro hellos
  apply isSome_bind_iff
  intro pings
  exact isSome_bind_some

/-- A record is read where it is an object and its fields convert. -/
theorem isSome_read_pool_node {record : Document F} :
    (read_pool_node floats record).isSome ↔ ∃ fields, record = .object fields ∧
      (∀ field ∈ int_fields, (((fields.lookup (lit field.1)).getD (.int field.2)).to_int floats).isSome) ∧
      (((fields.lookup (lit "last_seen")).getD (.int 0)).to_float floats).isSome := by
  cases record with
  | object fields =>
    have hread : (read_pool_node floats (.object fields)).isSome ↔ (read_cached floats (.object fields)).isSome ∧
        (int_field floats (.object fields) "fails" 0).isSome := by
      apply isSome_bind_iff
      intro node
      exact isSome_bind_some
    rw [hread, isSome_read_cached]
    simp only [int_fields, List.forall_mem_cons, List.not_mem_nil, false_implies, implies_true, and_true,
      Document.object.injEq, exists_eq_left']
    exact ⟨fun ⟨⟨htcp, hver, hhellos, hpings, hseen⟩, hfails⟩ => ⟨⟨htcp, hver, hhellos, hpings, hfails⟩, hseen⟩,
      fun ⟨⟨htcp, hver, hhellos, hpings, hfails⟩, hseen⟩ => ⟨⟨htcp, hver, hhellos, hpings, hseen⟩, hfails⟩⟩
  | _ => simp [read_pool_node, read_cached, Document.get]

theorem isSome_read_cached_of_pool {record : Document F} (hread : (read_pool_node floats record).isSome) :
    (read_cached floats record).isSome := by
  rw [read_pool_node] at hread
  cases hnode : read_cached floats record with
  | none => rw [hnode] at hread; exact hread
  | some node => rfl

theorem isSome_add_record {ν : Type} {read : Document F → Option ν} (nodes : OrderedDict Address ν)
    {entry : PyStr × Document F} : (add_record read nodes entry).isSome ↔
      (rpartition 0x3A entry.1).1 = [] ∨ (rpartition 0x3A entry.1).2 = [] ∨
      (int_of (rpartition 0x3A entry.1).2).isSome ∧ (read entry.2).isSome := by
  rw [add_record]
  split_ifs with hkey
  · simp [← or_assoc, hkey]
  · rw [← or_assoc, or_iff_right hkey]
    cases read entry.2 with
    | none => simp
    | some record => cases int_of (rpartition 0x3A entry.1).2 <;> simp

theorem isSome_foldlM_add_record {ν : Type} {read : Document F → Option ν} {records : List (PyStr × Document F)}
    {nodes : OrderedDict Address ν} : (records.foldlM (add_record read) nodes).isSome ↔
      ∀ entry ∈ records, (rpartition 0x3A entry.1).1 = [] ∨ (rpartition 0x3A entry.1).2 = [] ∨
        (int_of (rpartition 0x3A entry.1).2).isSome ∧ (read entry.2).isSome := by
  induction records generalizing nodes with
  | nil => simp
  | cons entry rest ih =>
    rw [List.foldlM_cons, List.forall_mem_cons, ← isSome_add_record nodes]
    cases add_record read nodes entry with
    | none => simp
    | some added => simpa using ih

end Records

section Snapshot

variable {floats}

theorem read_cached_node_record (floats : Floats F) (node : PoolNode F) :
    read_cached floats (node_record node) = some node.toCachedNode := rfl

theorem read_pool_node_node_record (floats : Floats F) (node : PoolNode F) :
    read_pool_node floats (node_record node) = some node := rfl

variable {ν : Type} {read : Document F → Option ν} {view : PoolNode F → ν}

/-- The key of a saved node is parted into its IP and its port again. -/
theorem add_record_snapshot (hread : ∀ node, read (node_record node) = some (view node)) {entry : Address × PoolNode F}
    {saved : PyStr × Document F} (hsaved : snapshot_entry entry = some saved) (nodes : OrderedDict Address ν) :
    add_record read nodes saved = some (nodes.set entry.1 (view entry.2)) := by
  obtain ⟨⟨ip, port, hip⟩, node⟩ := entry
  obtain ⟨key, hkey, rfl⟩ := Option.map_eq_some_iff.mp hsaved
  obtain ⟨digits, hdigits, rfl⟩ := Option.map_eq_some_iff.mp hkey
  have hread_port := int_of_str_of hdigits
  have hdigits_ne : digits ≠ [] := by
    rintro rfl
    exact absurd hread_port (by simp [int_of, strip_by])
  have hparts := rpartition_append (colon_not_mem_str_of hdigits) ip
  rw [add_record]
  simp only [hparts]
  rw [dif_neg (not_or.mpr ⟨hip, hdigits_ne⟩), hread, hread_port]
  rfl

theorem foldlM_snapshot (hread : ∀ node, read (node_record node) = some (view node))
    {entries : List (Address × PoolNode F)} {saved : List (PyStr × Document F)}
    (hsaved : entries.mapM snapshot_entry = some saved) (nodes : OrderedDict Address ν) :
    saved.foldlM (add_record read) nodes =
      some (entries.foldl (fun nodes entry => nodes.set entry.1 (view entry.2)) nodes) := by
  induction entries generalizing saved nodes with
  | nil =>
    cases hsaved
    rfl
  | cons entry rest ih =>
    rw [List.mapM_cons] at hsaved
    obtain ⟨first, hfirst, hrest⟩ := Option.bind_eq_some_iff.mp hsaved
    obtain ⟨others, hothers, hsame⟩ := Option.bind_eq_some_iff.mp hrest
    cases hsame
    rw [List.foldlM_cons, add_record_snapshot hread hfirst, List.foldl_cons]
    exact ih hothers _

/-- What a snapshot wrote is read back in its order. -/
theorem read_nodes_snapshot (hread : ∀ node, read (node_record node) = some (view node))
    {nodes : OrderedDict Address (PoolNode F)} {saved : List (PyStr × Document F)}
    (hsaved : nodes.entries.mapM snapshot_entry = some saved) :
    ∃ again, read_nodes read (.object saved) = some again ∧
      again.entries = nodes.entries.map fun entry => (entry.1, view entry.2) := by
  refine ⟨_, foldlM_snapshot hread hsaved OrderedDict.empty, ?_⟩
  have hkeys : ((nodes.entries.map fun entry => (entry.1, view entry.2)).map Prod.fst).Nodup := by
    rw [List.map_map]
    exact nodes.nodup
  have hentered : ((nodes.entries.map fun entry => (entry.1, view entry.2)).foldl
      (fun nodes entry => nodes.set entry.1 entry.2) OrderedDict.empty).entries = _ :=
    OrderedDict.entries_foldl_set hkeys
  rw [List.foldl_map] at hentered
  exact hentered

theorem entries_alive (nodes : OrderedDict Address (PoolNode F)) :
    (alive nodes).entries = nodes.entries.filter fun entry => is_alive entry.2 := rfl

theorem alive_add_contact (nodes : OrderedDict Address (PoolNode F)) (contact : KadNodeInfo) :
    alive (add_contact floats nodes contact) = alive nodes := by
  apply OrderedDict.ext_entries
  rw [add_contact]
  split_ifs with hroutable
  · rw [OrderedDict.setDefault]
    split_ifs with hthere
    · rfl
    · rw [entries_alive, entries_alive, OrderedDict.set_of_not_mem hthere, List.filter_append]
      simp [is_alive]
  · rfl

theorem alive_add_contacts (contacts : List KadNodeInfo) (nodes : OrderedDict Address (PoolNode F)) :
    alive (contacts.foldl (add_contact floats) nodes) = alive nodes := by
  induction contacts generalizing nodes with
  | nil => rfl
  | cons contact rest ih => rw [List.foldl_cons, ih, alive_add_contact]

theorem alive_alive (nodes : OrderedDict Address (PoolNode F)) : alive (alive nodes) = alive nodes := by
  apply OrderedDict.ext_entries
  rw [entries_alive, entries_alive, List.filter_filter]
  simp only [Bool.and_self]

end Snapshot

section Loading

variable {floats limit contacts} {entries : List (PyStr × Document F)} {file : CacheFile F} {own : KadUInt128}

theorem decode_lower_hex (own : KadUInt128) : (pystr.fromhex (lower_hex own.to_bytes)).bind own_id_of = some own := by
  rw [fromhex_lower_hex, Option.bind_some, own_id_of, dif_pos own.length_to_bytes, kad.to_kad_uint128_to_bytes]

/-- Digits of an identifier are not empty. -/
theorem truthy_digits {digits : PyStr} (hdigits : (pystr.fromhex digits).bind own_id_of = some own) :
    (Document.str digits).truthy floats = true := by
  cases digits with
  | nil => cases hdigits
  | cons point rest => rfl

theorem load_kad_runtime_stored {digits : PyStr} {nodes : OrderedDict Address (CachedNode F)} (fresh : KadUInt128)
    (hcache : load_cache file = .object entries) (hown : own_hex entries = .str digits)
    (hdigits : (pystr.fromhex digits).bind own_id_of = some own)
    (hnodes : read_nodes (read_cached floats) (cached_nodes floats entries) = some nodes) :
    load_kad_runtime floats limit fresh file = some (⟨own, nodes, routing_nodes nodes⟩, file) := by
  rw [own_hex] at hown
  rw [cached_nodes] at hnodes
  have hdecode : _decode_own_id floats (.str digits) = some (some own) := by
    rw [_decode_own_id, if_pos (truthy_digits hdigits)]
    exact congrArg some hdigits
  simp only [load_kad_runtime, runtime_id, hcache, Document.get, hown, hdecode, hnodes, Option.bind_eq_bind,
    Option.bind_some, Option.pure_def]

theorem init_stored {digits : PyStr} {nodes : OrderedDict Address (PoolNode F)} (fresh : KadUInt128)
    (hcache : load_cache file = .object entries) (hown : own_hex entries = .str digits)
    (hdigits : (pystr.fromhex digits).bind own_id_of = some own)
    (hnodes : read_nodes (read_pool_node floats) (cached_nodes floats entries) = some nodes) :
    SpiderEngine.init floats limit contacts fresh file =
      some (⟨own, contacts.foldl (add_contact floats) nodes⟩, file) := by
  rw [own_hex] at hown
  rw [cached_nodes] at hnodes
  simp only [SpiderEngine.init, spider_id, build_pool, hcache, Document.get, hown, truthy_digits hdigits, decode_own_hex,
    hdigits, hnodes, Option.bind_eq_bind, Option.bind_some, Option.pure_def, Option.map_some, if_true]

theorem fits_payload (own_id : KadUInt128) (nodes : Document F) :
    (Document.object [(lit "own_id", .str (lower_hex own_id.to_bytes)), (lit "nodes", nodes)]).fits limit =
      (Document.object [(lit "nodes", nodes)]).fits limit := by
  cases limit with
  | zero => rfl
  | succ depth =>
    rw [Document.fits_object, Document.fits_object, List.all_cons]
    have hdigits : (Document.str (lower_hex own_id.to_bytes) : Document F).fits depth = true := by
      cases depth <;> rfl
    rw [hdigits, Bool.true_and]

theorem generate_id_object (fresh : KadUInt128) (entries : List (PyStr × Document F)) :
    generate_id floats limit fresh (.object entries) =
      (_persist_own_id limit fresh (cached_nodes floats entries)).map fun file => (fresh, file) := by
  have hnodes : ((entries.lookup (lit "nodes")).getD (.object [])).or_empty floats = cached_nodes floats entries := by
    rw [cached_nodes]
    cases entries.lookup (lit "nodes") <;> rfl
  rw [generate_id, Document.get, Option.bind_eq_bind, Option.bind_some, hnodes]
  cases _persist_own_id limit fresh (cached_nodes floats entries) <;> rfl

/-- What a cache becomes where an identifier is generated for it. -/
def renewed (floats : Floats F) (fresh : KadUInt128) (entries : List (PyStr × Document F)) : CacheFile F :=
  .holds (.object [(lit "own_id", .str (lower_hex fresh.to_bytes)), (lit "nodes", cached_nodes floats entries)])

theorem generate_id_of_fits (fresh : KadUInt128)
    (hfits : (Document.object [(lit "nodes", cached_nodes floats entries)]).fits limit = true) :
    generate_id floats limit fresh (.object entries) = some (fresh, renewed floats fresh entries) := by
  rw [generate_id_object, _persist_own_id, replace_cache, fits_payload, if_pos hfits]
  rfl

theorem load_kad_runtime_generated {nodes : OrderedDict Address (CachedNode F)} (fresh : KadUInt128)
    (hcache : load_cache file = .object entries) (hown : (own_hex entries).truthy floats = false)
    (hfits : (Document.object [(lit "nodes", cached_nodes floats entries)]).fits limit = true)
    (hnodes : read_nodes (read_cached floats) (cached_nodes floats entries) = some nodes) :
    load_kad_runtime floats limit fresh file =
      some (⟨fresh, nodes, routing_nodes nodes⟩, renewed floats fresh entries) := by
  have hgenerated := generate_id_of_fits fresh hfits
  rw [own_hex] at hown
  rw [cached_nodes] at hnodes
  simp only [load_kad_runtime, runtime_id, hcache, Document.get, _decode_own_id, hown, hgenerated, hnodes,
    Option.bind_eq_bind, Option.bind_some, Option.pure_def, Bool.false_eq_true, if_false]

theorem init_generated {nodes : OrderedDict Address (PoolNode F)} (fresh : KadUInt128)
    (hcache : load_cache file = .object entries) (hown : (own_hex entries).truthy floats = false)
    (hfits : (Document.object [(lit "nodes", cached_nodes floats entries)]).fits limit = true)
    (hnodes : read_nodes (read_pool_node floats) (cached_nodes floats entries) = some nodes) :
    SpiderEngine.init floats limit contacts fresh file =
      some (⟨fresh, contacts.foldl (add_contact floats) nodes⟩, renewed floats fresh entries) := by
  have hgenerated := generate_id_of_fits fresh hfits
  rw [own_hex] at hown
  rw [cached_nodes] at hnodes
  simp only [SpiderEngine.init, spider_id, build_pool, hcache, Document.get, hown, hgenerated, hnodes,
    Option.bind_eq_bind, Option.bind_some, Option.pure_def, Bool.false_eq_true, if_false]

/-- The cache stores the identifier beside records that are well formed. -/
structure Settled (floats : Floats F) (own : KadUInt128) (file : CacheFile F)
    (entries records : List (PyStr × Document F)) : Prop where
  object : load_cache file = .object entries
  digits : ∃ digits, own_hex entries = .str digits ∧ (pystr.fromhex digits).bind own_id_of = some own
  nodes : cached_nodes floats entries = .object records
  well_formed : ∀ entry ∈ records, WellFormed floats entry

variable {records : List (PyStr × Document F)}

theorem isSome_read_pool (nodes : List (PyStr × Document F)) :
    (read_nodes (read_pool_node floats) (.object nodes)).isSome ↔ ∀ entry ∈ nodes, WellFormed floats entry := by
  refine isSome_foldlM_add_record.trans (forall₂_congr fun entry _ => ?_)
  rw [WellFormed, isSome_read_pool_node]

theorem isSome_read_runtime {nodes : List (PyStr × Document F)} (hwell : ∀ entry ∈ nodes, WellFormed floats entry) :
    (read_nodes (read_cached floats) (.object nodes)).isSome := by
  refine isSome_foldlM_add_record.mpr fun entry hentry => ?_
  obtain hip | hport | ⟨hnumber, hrecord⟩ := hwell entry hentry
  · exact .inl hip
  · exact .inr (.inl hport)
  · exact .inr (.inr ⟨hnumber, isSome_read_cached_of_pool (isSome_read_pool_node.mpr hrecord)⟩)

theorem Settled.stored (h : Settled floats own file entries records) : stored_id file = some own := by
  obtain ⟨digits, hown, hdigits⟩ := h.digits
  rw [own_hex] at hown
  rw [stored_id, h.object, Document.get, hown]
  exact hdigits

theorem Settled.load (h : Settled floats own file entries records) (loader : Loader) (fresh : KadUInt128) :
    load floats limit contacts loader fresh file = some (own, file) := by
  obtain ⟨digits, hown, hdigits⟩ := h.digits
  cases loader with
  | load_kad_runtime =>
    obtain ⟨nodes, hnodes⟩ := Option.isSome_iff_exists.mp (isSome_read_runtime h.well_formed)
    rw [← h.nodes] at hnodes
    rw [kad_cache.load, load_kad_runtime_stored fresh h.object hown hdigits hnodes]
    rfl
  | SpiderEngine =>
    obtain ⟨nodes, hnodes⟩ := Option.isSome_iff_exists.mp ((isSome_read_pool records).mpr h.well_formed)
    rw [← h.nodes] at hnodes
    rw [kad_cache.load, init_stored fresh h.object hown hdigits hnodes]
    rfl

theorem or_empty_object (entries : List (PyStr × Document F)) :
    (Document.object entries).or_empty floats = .object entries := by
  cases entries <;> rfl

theorem settled_renewed (fresh : KadUInt128) (hnodes : cached_nodes floats entries = .object records)
    (hwell : ∀ entry ∈ records, WellFormed floats entry) :
    ∃ after, Settled floats fresh (renewed floats fresh entries) after records := by
  refine ⟨_, rfl, ⟨_, rfl, decode_lower_hex fresh⟩, ?_, hwell⟩
  have hstored : cached_nodes floats [(lit "own_id", .str (lower_hex fresh.to_bytes)),
      (lit "nodes", cached_nodes floats entries)] = (cached_nodes floats entries).or_empty floats := rfl
  rw [hstored, hnodes, or_empty_object]

theorem settled_snapshot {engine : SpiderEngine F} {saved_at : PyStr} {saved : CacheFile F}
    (hsave : save_snapshot limit engine saved_at = some saved) :
    ∃ entries records, (alive engine.nodes).entries.mapM snapshot_entry = some records ∧
      Settled floats engine.own saved entries records := by
  obtain ⟨records, hrecords, hreplace⟩ := Option.bind_eq_some_iff.mp hsave
  rw [replace_cache] at hreplace
  split_ifs at hreplace with hfits
  cases hreplace
  obtain ⟨nodes, hnodes, _⟩ := read_nodes_snapshot (read_pool_node_node_record floats) hrecords
  refine ⟨_, records, hrecords, rfl, ⟨_, rfl, decode_lower_hex engine.own⟩, or_empty_object records, ?_⟩
  exact (isSome_read_pool records).mp (Option.isSome_iff_exists.mpr ⟨nodes, hnodes⟩)

theorem settled_later {later : CacheFile F} (h : ∃ entries records, Settled floats own file entries records)
    (hlater : Later floats limit contacts own file later) :
    ∃ entries records, Settled floats own later entries records := by
  induction hlater with
  | start => exact h
  | load _ hload ih =>
    obtain ⟨entries, records, hsettled⟩ := ih
    rw [hsettled.load] at hload
    cases hload
    exact ⟨entries, records, hsettled⟩
  | save _ hsave _ =>
    obtain ⟨entries, records, _, hsettled⟩ := settled_snapshot hsave
    exact ⟨entries, records, hsettled⟩

/-- Either loader uses and leaves the stored identifier, or the generated one, which then is stored. -/
theorem Sound.load (h : Sound floats limit file) (loader : Loader) (fresh : KadUInt128) :
    ∃ own after, load floats limit contacts loader fresh file = some (own, after) ∧
      (∃ entries records, Settled floats own after entries records) ∧
      (∀ stored, stored_id file = some stored → own = stored ∧ after = file) ∧
      ∀ entry, Holds file entry → Holds after entry := by
  obtain ⟨entries, records, hcache, hnodes, hwell, hid⟩ := h
  split_ifs at hid with htruthy
  · obtain ⟨digits, raw, hown, hdigits, hraw⟩ := hid
    have hdecode : (pystr.fromhex digits).bind own_id_of = some (kad.to_kad_uint128 raw hraw) := by
      rw [hdigits, Option.bind_some, own_id_of, dif_pos hraw]
    have hsettled : Settled floats _ file entries records := ⟨hcache, ⟨digits, hown, hdecode⟩, hnodes, hwell⟩
    refine ⟨_, file, hsettled.load loader fresh, ⟨entries, records, hsettled⟩, fun stored hstored => ?_, fun _ h => h⟩
    rw [hsettled.stored] at hstored
    exact ⟨Option.some.inj hstored, rfl⟩
  · rw [Bool.not_eq_true] at htruthy
    obtain ⟨after, hsettled⟩ := settled_renewed fresh hnodes hwell
    refine ⟨fresh, renewed floats fresh entries, ?_, ⟨after, records, hsettled⟩, fun stored hstored => ?_,
      fun entry hholds => ?_⟩
    · cases loader with
      | load_kad_runtime =>
        obtain ⟨nodes, hread⟩ := Option.isSome_iff_exists.mp (isSome_read_runtime hwell)
        rw [← hnodes] at hread
        rw [kad_cache.load, load_kad_runtime_generated fresh hcache htruthy hid hread]
        rfl
      | SpiderEngine =>
        obtain ⟨nodes, hread⟩ := Option.isSome_iff_exists.mp ((isSome_read_pool records).mpr hwell)
        rw [← hnodes] at hread
        rw [kad_cache.load, init_generated fresh hcache htruthy hid hread]
        rfl
    · rw [stored_id, hcache, Document.get, Option.bind_some, ← own_hex] at hstored
      cases hown : own_hex entries with
      | str digits =>
        rw [hown] at hstored htruthy
        rw [truthy_digits hstored] at htruthy
        cases htruthy
      | _ =>
        rw [hown] at hstored
        cases hstored
    · obtain ⟨nodes, held, hget, hheld, hmem⟩ := hholds
      rw [hcache, Document.get, Option.some.injEq] at hget
      cases nodes with
      | object inner =>
        cases hheld
        refine ⟨cached_nodes floats entries, held, rfl, ?_, hmem⟩
        rw [cached_nodes, hget, or_empty_object]
        rfl
      | _ => cases hheld

/-- An engine is constructed only over a sound cache. -/
theorem sound_of_init {fresh : KadUInt128} {loaded : SpiderEngine F × CacheFile F}
    (hinit : SpiderEngine.init floats limit contacts fresh file = some loaded) : Sound floats limit file := by
  obtain ⟨own_hex', hget, hrest⟩ := Option.bind_eq_some_iff.mp hinit
  cases hcache : load_cache file with
  | object entries =>
    rw [hcache, Document.get, Option.some.injEq] at hget
    subst hget
    obtain ⟨found, hown, hpool⟩ := Option.bind_eq_some_iff.mp hrest
    obtain ⟨pool, hbuild, _⟩ := Option.bind_eq_some_iff.mp hpool
    rw [hcache] at hbuild
    obtain ⟨nodes, hread, _⟩ := Option.bind_eq_some_iff.mp hbuild
    rw [← cached_nodes] at hread
    cases hnodes : cached_nodes floats entries with
    | object records =>
      rw [hnodes] at hread
      refine ⟨entries, records, hcache, hnodes, (isSome_read_pool records).mp (hread ▸ rfl), ?_⟩
      rw [← own_hex, spider_id] at hown
      split_ifs at hown ⊢ with htruthy
      · obtain ⟨id, hdecode, _⟩ := Option.map_eq_some_iff.mp hown
        cases hhex : own_hex entries with
        | str digits =>
          rw [hhex] at hdecode
          obtain ⟨raw, hdigits, hid⟩ := Option.bind_eq_some_iff.mp hdecode
          rw [own_id_of] at hid
          split_ifs at hid with hraw
          exact ⟨digits, raw, rfl, hdigits, hraw⟩
        | _ =>
          rw [hhex] at hdecode
          cases hdecode
      · rw [hcache, generate_id_object, _persist_own_id, replace_cache, fits_payload] at hown
        split_ifs at hown with hfits
        · exact hfits
        · cases hown
    | _ =>
      rw [hnodes] at hread
      cases hread
  | _ =>
    rw [hcache] at hget
    cases hget

theorem Sound.keep_alive (engine : SpiderEngine F) (saved_at : PyStr) {saved : CacheFile F}
    (hsave : save_snapshot limit engine saved_at = some saved) (fresh : KadUInt128) :
    (∃ runtime, load_kad_runtime floats limit fresh saved = some (runtime, saved) ∧ runtime.own_id = engine.own ∧
      runtime.nodes.entries = (alive engine.nodes).entries.map fun entry => (entry.1, entry.2.toCachedNode)) ∧
    ∃ again, SpiderEngine.init floats limit contacts fresh saved = some (again, saved) ∧ again.own = engine.own ∧
      alive again.nodes = alive engine.nodes := by
  obtain ⟨entries, records, hrecords, hsettled⟩ := settled_snapshot hsave
  obtain ⟨digits, hown, hdigits⟩ := hsettled.digits
  obtain ⟨cached, hcached, hcached_entries⟩ := read_nodes_snapshot (read_cached_node_record floats) hrecords
  obtain ⟨pool, hpool, hpool_entries⟩ := read_nodes_snapshot (read_pool_node_node_record floats) hrecords
  rw [← hsettled.nodes] at hcached hpool
  refine ⟨⟨_, load_kad_runtime_stored fresh hsettled.object hown hdigits hcached, rfl, hcached_entries⟩,
    ⟨_, init_stored fresh hsettled.object hown hdigits hpool, rfl, ?_⟩⟩
  have hsame : pool = alive engine.nodes := by
    apply OrderedDict.ext_entries
    rw [hpool_entries]
    exact List.map_id _
  rw [alive_add_contacts, hsame, alive_alive]

/-- The two loaders finish and agree exactly on the sound caches. -/
theorem agree_iff_sound (floats : Floats F) (limit : Nat) (contacts : List KadNodeInfo) (file : CacheFile F) :
    Agree floats limit contacts file ↔ Sound floats limit file := by
  constructor
  · intro hagree
    obtain ⟨own, after, hload⟩ := hagree.finish .SpiderEngine ⟨0, by decide⟩
    obtain ⟨loaded, hinit, _⟩ := Option.map_eq_some_iff.mp hload
    exact sound_of_init hinit
  · intro hsound
    refine ⟨fun loader fresh => ?_, ?_, ?_, ?_, fun engine saved_at _ => Sound.keep_alive engine saved_at⟩
    · obtain ⟨own, after, hload, _⟩ := hsound.load loader fresh 
      exact ⟨own, after, hload⟩
    · intro loader fresh own after hload later hlater
      obtain ⟨own', after', hload', hsettled, _⟩ := hsound.load loader fresh 
      rw [hload] at hload'
      cases hload'
      obtain ⟨entries, records, hlast⟩ := settled_later hsettled hlater
      exact ⟨hlast.stored, hlast.load⟩
    · intro stored hstored loader fresh
      obtain ⟨own, after, hload, _, hkeep, _⟩ := hsound.load loader fresh 
      obtain ⟨rfl, rfl⟩ := hkeep stored hstored
      exact hload
    · intro loader fresh own after hload entry hholds _
      obtain ⟨own', after', hload', _, _, hrecords⟩ := hsound.load loader fresh 
      rw [hload] at hload'
      cases hload'
      exact hrecords entry hholds

/-- Floats that are whole. -/
def sampleFloats : Floats Int where
  zero := 0
  is_zero value := value == 0
  of_int := some
  of_str := int_of
  to_int := some

/-- A cache whose `own_id` is no hexadecimal text. -/
def sampleCache : CacheFile Int := .holds (.object [(lit "own_id", .str (lit "zz"))])

theorem sampleCache_splits_loaders : ¬Agree sampleFloats 1000 [] sampleCache := by
  intro hagree
  obtain ⟨own, after, hload⟩ := hagree.finish .SpiderEngine ⟨0, Nat.two_pow_pos 128⟩
  have hraises : load sampleFloats 1000 [] .SpiderEngine ⟨0, Nat.two_pow_pos 128⟩ sampleCache = none := rfl
  rw [hraises] at hload
  cases hload

end Loading
end amuled.kad_cache
