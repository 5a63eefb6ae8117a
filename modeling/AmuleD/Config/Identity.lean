import AmuleD.Config.SetAndLoad
import AmuleD.Basic

open pystr json sorteddict
open amuled.config

namespace amuled.identity

/-- What `AppIdentity` holds once `__post_init__` has returned. -/
structure AppIdentity where
  user_hash : Bytes
  nickname : PyStr
  tcp_port : Int
  client_id : Int
  length_user_hash : user_hash.length = 16
  nickname_ne_nil : nickname ≠ []
  tcp_port_range : 0 ≤ tcp_port ∧ tcp_port ≤ 0xFFFF
  client_id_range : 0 ≤ client_id ∧ client_id ≤ 0xFFFFFFFF

/-- `AppIdentity(...)`, which raises `IdentityError` where a field is out of its range. -/
def AppIdentity.checked (user_hash : Bytes) (nickname : PyStr) (tcp_port client_id : Int) : Option AppIdentity :=
  if hlength : user_hash.length = 16 then
    if hnickname : nickname ≠ [] then
      if htcp : 0 ≤ tcp_port ∧ tcp_port ≤ 0xFFFF then
        if hclient : 0 ≤ client_id ∧ client_id ≤ 0xFFFFFFFF then
          some ⟨user_hash, nickname, tcp_port, client_id, hlength, hnickname, htcp, hclient⟩
        else none
      else none
    else none
  else none

/-- Sixteen bytes, as `os.urandom(16)` draws them. -/
abbrev Drawn := { raw : Bytes // raw.length = 16 }

variable {F : Type} (host : Host F) (limit : Nat)

section Hash

/-- `_parse_user_hash`; `none` is an `IdentityError`. -/
def _parse_user_hash (raw : Document F) : Option (Option Bytes) :=
  match raw with
  | .null => some none
  | .str text => if (strip text).length = 32 then (fromhex (strip text)).map some else none
  | _ => none

/-- `_mark_user_hash`, which raises an `IndexError` for fewer than 15 bytes. -/
def _mark_user_hash (raw : Bytes) : Option Bytes :=
  if raw.length < 15 then none else some ((raw.set 5 14).set 14 111)

/-- The bytes that are not zero, apart from the two markers. -/
def nonzero_body (user_hash : Bytes) : Nat :=
  user_hash.zipIdx.countP fun entry => entry.1 != 0 && entry.2 != 5 && entry.2 != 14

end Hash

section Loading

/-- `cfg.get("identity") or {}`, where what is neither empty nor a dictionary has no `get`. -/
def identity_section (cfg : Section F) : Option (Section F) :=
  match find cfg (lit "identity") with
  | none => some []
  | some (.object inner) => some inner
  | some value => if value.truthy host.floats then none else some []

/-- `cfg.setdefault("identity", {})["user_hash"] = user_hash.hex().upper()`. -/
def set_user_hash (cfg : Section F) (user_hash : Bytes) : Option (Section F) :=
  match find cfg (lit "identity") with
  | none => some (insert cfg (lit "identity") (.object [(lit "user_hash", .str (upper_hex user_hash))]))
  | some (.object inner) =>
    some (insert cfg (lit "identity") (.object (insert inner (lit "user_hash") (.str (upper_hex user_hash)))))
  | some _ => none

/-- The hash is put into the configuration, which then is saved. -/
def persist (user_hash : Bytes) (cfg : Section F) : Option (Bytes × Section F × ConfigFile F) := do
  let cfg ← set_user_hash cfg user_hash
  let file ← save_config limit cfg
  return (user_hash, cfg, file)

/-- The hash with its markers: a new one where none was stored, the stored one, or that one upgraded. -/
def marked_hash (drawn : Drawn) (parsed : Option Bytes) (loaded : Section F × ConfigFile F) :
    Option (Bytes × Section F × ConfigFile F) :=
  match parsed with
  | none => (_mark_user_hash drawn.1).bind fun user_hash => persist limit user_hash loaded.1
  | some raw => (_mark_user_hash raw).bind fun marked =>
    if marked = raw then some (raw, loaded) else persist limit marked loaded.1

/-- A hash with fewer than eight bytes beside the markers is drawn again. -/
def sane_hash (again : Drawn) (held : Bytes × Section F × ConfigFile F) : Option (Bytes × Section F × ConfigFile F) :=
  if nonzero_body held.1 < 8 then (_mark_user_hash again.1).bind fun user_hash => persist limit user_hash held.2.1
  else some held

/-- `section.get(key)`. -/
def get (inner : Section F) (key : String) : Document F := (find inner (lit key)).getD .null

/-- `str(section.get("nick") or "AmuleD")`. -/
def nick_of (inner : Section F) : PyStr :=
  if (get inner "nick").truthy host.floats then text_of host (get inner "nick") else lit "AmuleD"

/-- `int(section.get(key) or 0)`. -/
def number_of (inner : Section F) (key : String) : Option Int :=
  if (get inner key).truthy host.floats then (get inner key).to_int host.floats else some 0

/-- `load_identity`, with the file that it leaves and what `os.urandom` gives it; `none` is an exception. -/
def load_identity (drawn again : Drawn) (file : ConfigFile F) : Option (AppIdentity × ConfigFile F) := do
  let loaded ← load_config host limit file
  let inner ← identity_section host loaded.1
  let parsed ← _parse_user_hash (get inner "user_hash")
  let marked ← marked_hash limit drawn parsed loaded
  let tcp_port ← number_of host inner "tcp_port"
  let client_id ← number_of host inner "client_id"
  let sane ← sane_hash limit again marked
  let identity ← AppIdentity.checked sane.1 (nick_of host inner) tcp_port client_id
  return (identity, sane.2.2)

/-- What happens to the configuration while a client is used: a key is set, or an identity is loaded. -/
inductive Op where
  | set (dotted_key raw_value : PyStr)
  | load (drawn again : Drawn)

/-- The operation leaves the section of the identity to `load_identity`. -/
def Op.Outside : Op → Prop
  | .set dotted_key _ => (parts_of dotted_key).head? ≠ some (lit "identity")
  | .load _ _ => True

def Op.run (op : Op) (file : ConfigFile F) : Option (List AppIdentity × ConfigFile F) :=
  match op with
  | .set dotted_key raw_value => (config_set host limit file dotted_key raw_value).map fun saved => ([], saved)
  | .load drawn again => (load_identity host limit drawn again file).map fun result => ([result.1], result.2)

/-- The identities that were loaded, and the file at the end; `none` where an operation raises. -/
def run (ops : List Op) (file : ConfigFile F) : Option (List AppIdentity × ConfigFile F) :=
  match ops with
  | [] => some ([], file)
  | op :: ops => do
    let first ← op.run host limit file
    let rest ← run ops first.2
    return (first.1 ++ rest.1, rest.2)

end Loading

section Marking

variable {raw marked : Bytes}

theorem countP_set_zipIdx {p : UInt8 × Nat → Bool} (raw : Bytes) (first place : Nat) (value : UInt8)
    (hplace : ∀ byte, p (byte, first + place) = false) :
    ((raw.set place value).zipIdx first).countP p = (raw.zipIdx first).countP p := by
  induction raw generalizing first place with
  | nil => rfl
  | cons byte rest ih =>
    cases place with
    | zero =>
      rw [List.set_cons_zero, List.zipIdx_cons, List.zipIdx_cons,
        List.countP_cons_of_neg (Bool.not_eq_true _ ▸ hplace value),
        List.countP_cons_of_neg (Bool.not_eq_true _ ▸ hplace byte)]
    | succ place =>
      rw [List.set_cons_succ, List.zipIdx_cons, List.zipIdx_cons, List.countP_cons, List.countP_cons,
        ih (first + 1) place fun byte => by rw [← hplace byte, Nat.add_right_comm, Nat.add_assoc]]

/-- The markers are outside of what is counted. -/
theorem nonzero_body_of_mark (hmark : _mark_user_hash raw = some marked) : nonzero_body marked = nonzero_body raw := by
  rw [_mark_user_hash] at hmark
  split_ifs at hmark
  cases hmark
  rw [nonzero_body, countP_set_zipIdx, countP_set_zipIdx]
  · rfl
  · simp
  · simp

theorem mark_of_mark (hmark : _mark_user_hash raw = some marked) : _mark_user_hash marked = some marked := by
  rw [_mark_user_hash] at hmark
  split_ifs at hmark with hshort
  cases hmark
  rw [_mark_user_hash, List.length_set, List.length_set, if_neg hshort, List.set_comm _ _ (by decide),
    List.set_set, List.set_comm _ _ (by decide), List.set_set]

/-- A hash that was written is read back. -/
theorem parse_upper_hex {F : Type} (hlength : raw.length = 16) :
    _parse_user_hash (F := F) (.str (upper_hex raw)) = some (some raw) := by
  have hstrip : strip (upper_hex raw) = upper_hex raw := by
    apply strip_by_eq_self
    intro point hpoint
    by_contra hspace
    have hdigits : ∀ digit < 16, upper_digit digit ≠ point := by
      intro digit hdigit heq
      have hnone : ∀ digit < 16, isspace (upper_digit digit) = false := by decide
      rw [← heq, hnone digit hdigit] at hspace
      exact hspace rfl
    exact not_mem_upper_hex hdigits raw hpoint
  rw [_parse_user_hash, hstrip, length_upper_hex, hlength, if_pos rfl, fromhex_upper_hex]
  rfl

end Marking

variable {host : Host F} {limit : Nat} {cfg inner : Section F} {file stored : ConfigFile F} {identity : AppIdentity}

section Opened

/-- A configuration as it is loaded, with its section of the identity. -/
structure Opened (host : Host F) (cfg inner : Section F) : Prop where
  complete : Complete host cfg
  normal : Normal host cfg
  there : find cfg (lit "identity") = some (.object inner)

/-- The configuration with another value for the hash. -/
def with_hash (cfg inner : Section F) (value : Document F) : Section F :=
  insert cfg (lit "identity") (.object (insert inner (lit "user_hash") value))

theorem mem_identity : ("identity", [("user_hash", .null), ("nick", .str (lit "AmuleD")), ("tcp_port", .int 0),
    ("client_id", .int 0)]) ∈ default_sections host := by
  simp [default_sections]

theorem Opened.covers (hopened : Opened host cfg inner) {held : Section F}
    (hdefault : find (DEFAULT_CONFIG host) (lit "identity") = some (.object held)) :
    Sorted inner ∧ ∀ key, find held key ≠ none → find inner key ≠ none := by
  obtain ⟨value, hvalue, hcovers⟩ := hopened.complete.covers hdefault
  rw [hopened.there, Option.some.injEq] at hvalue
  exact hcovers inner hvalue.symm

theorem Opened.sorted (hopened : Opened host cfg inner) : Sorted inner :=
  (hopened.covers (default_section_of_mem host mem_identity)).1

/-- The section has a hash, as the defaults have one. -/
theorem Opened.exists_user_hash (hopened : Opened host cfg inner) :
    ∃ value, find inner (lit "user_hash") = some value := by
  apply Option.ne_none_iff_exists'.mp
  apply (hopened.covers (default_section_of_mem host mem_identity)).2
  have hkeys : ["user_hash", "nick", "tcp_port", "client_id"].map lit |>.Nodup := by decide
  have hnull : find (dict [("user_hash", .null), ("nick", .str (lit "AmuleD")), ("tcp_port", .int 0),
      ("client_id", .int 0)]) (lit "user_hash") = some (.null : Document F) :=
    find_ofList (by simpa using hkeys) (by simp)
  rw [hnull]
  exact Option.some_ne_none _

theorem Opened.with_hash (hopened : Opened host cfg inner) (value : Document F) :
    Opened host (with_hash cfg inner value) (insert inner (lit "user_hash") value) := by
  refine ⟨?_, hopened.normal.insert (by decide) (by decide) _, find_insert_self _ _ _⟩
  apply hopened.complete.insert
  intro held hdefault
  obtain ⟨hsorted, hcovers⟩ := hopened.covers hdefault
  refine ⟨hsorted.insert _ _, fun key hkey => ?_⟩
  rw [find_insert]
  split_ifs
  · exact Option.some_ne_none _
  · exact hcovers key hkey

theorem with_hash_with_hash (cfg inner : Section F) (old value : Document F) :
    with_hash (with_hash cfg inner old) (insert inner (lit "user_hash") old) value = with_hash cfg inner value := by
  simp only [with_hash, insert_insert]

end Opened

section Held

/-- The file is not an object with a key twice. -/
def Distinct (file : ConfigFile F) : Prop :=
  ∀ user_cfg, file = .holds (.object user_cfg) → (user_cfg.map Prod.fst).Nodup

/-- A hash with its markers, and the configuration and the file that hold it. -/
structure Held (host : Host F) (limit : Nat) (cfg inner : Section F) (held : Bytes × Section F × ConfigFile F) :
    Prop where
  marked : _mark_user_hash held.1 = some held.1
  opened : ∃ value, held.2.1 = with_hash cfg inner value ∧
    (held.1.length = 16 → _parse_user_hash value = some (some held.1))
  distinct : Distinct held.2.2
  loads : load_config host limit held.2.2 = some (held.2.1, held.2.2)

theorem held_of_persist {hash : Bytes} {old : Document F} {held : Bytes × Section F × ConfigFile F}
    (hopened : Opened host cfg inner) (hmarked : _mark_user_hash hash = some hash)
    (hpersist : persist limit hash (with_hash cfg inner old) = some held) :
    held.1 = hash ∧ Held host limit cfg inner held := by
  have hset : set_user_hash (with_hash cfg inner old) hash = some (with_hash cfg inner (.str (upper_hex hash))) := by
    rw [set_user_hash, (hopened.with_hash old).there]
    exact congrArg some (with_hash_with_hash cfg inner old _)
  obtain ⟨hcomplete, hnormal, _⟩ := hopened.with_hash (.str (upper_hex hash))
  obtain ⟨saved_cfg, hsaved_cfg, hrest⟩ := Option.bind_eq_some_iff.mp hpersist
  obtain ⟨saved, hsave, hpair⟩ := Option.bind_eq_some_iff.mp hrest
  cases hset.symm.trans hsaved_cfg
  rw [save_config] at hsave
  split_ifs at hsave
  cases hsave
  cases hpair
  refine ⟨rfl, hmarked, ⟨_, rfl, parse_upper_hex⟩, ?_, load_saved hcomplete hnormal⟩
  intro user_cfg huser
  cases huser
  exact hcomplete.sorted.nodup_keys

/-- What is loaded is loaded again from the file that this leaves. -/
theorem loads_again {after : ConfigFile F} (hdistinct : Distinct file)
    (hload : load_config host limit file = some (cfg, after)) :
    Complete host cfg ∧ Normal host cfg ∧ Distinct after ∧ load_config host limit after = some (cfg, after) := by
  have hvalid : Valid host limit file cfg := ⟨hdistinct, after, hload⟩
  obtain ⟨hcomplete, hnormal⟩ := hvalid.loaded
  refine ⟨hcomplete, hnormal, ?_⟩
  cases file with
  | missing =>
    obtain ⟨found, _, hsaved⟩ := Option.bind_eq_some_iff.mp hload
    obtain ⟨saved, hsave, hpair⟩ := Option.bind_eq_some_iff.mp hsaved
    rw [save_config] at hsave
    split_ifs at hsave
    cases hsave
    cases hpair
    refine ⟨fun user_cfg huser => ?_, load_saved hcomplete hnormal⟩
    cases huser
    exact hcomplete.sorted.nodup_keys
  | unreadable => cases hload
  | holds value =>
    cases value with
    | object user_cfg =>
      obtain ⟨found, _, hpair⟩ := Option.bind_eq_some_iff.mp hload
      cases hpair
      exact ⟨hdistinct, hload⟩
    | _ => cases hload

theorem held_of_marked {drawn : Drawn} {parsed : Option Bytes} {old : Document F} {after : ConfigFile F}
    {held : Bytes × Section F × ConfigFile F} (hopened : Opened host cfg inner) (hdistinct : Distinct after)
    (hload : load_config host limit after = some (with_hash cfg inner old, after))
    (hparsed : _parse_user_hash old = some parsed)
    (hmarked : marked_hash limit drawn parsed (with_hash cfg inner old, after) = some held) :
    Held host limit cfg inner held := by
  cases parsed with
  | none =>
    obtain ⟨hash, hmark, hpersist⟩ := Option.bind_eq_some_iff.mp hmarked
    exact (held_of_persist hopened (mark_of_mark hmark) hpersist).2
  | some raw =>
    obtain ⟨hash, hmark, hrest⟩ := Option.bind_eq_some_iff.mp hmarked
    split_ifs at hrest with hsame
    · cases hrest
      rw [hsame] at hmark
      exact ⟨hmark, ⟨old, rfl, fun _ => hparsed⟩, hdistinct, hload⟩
    · exact (held_of_persist hopened (mark_of_mark hmark) hrest).2

theorem held_of_sane {again : Drawn} {held sane : Bytes × Section F × ConfigFile F} (hopened : Opened host cfg inner)
    (hagain : 8 ≤ nonzero_body again.1) (hheld : Held host limit cfg inner held)
    (hsane : sane_hash limit again held = some sane) : Held host limit cfg inner sane ∧ 8 ≤ nonzero_body sane.1 := by
  rw [sane_hash] at hsane
  split_ifs at hsane with hfew
  · obtain ⟨hash, hmark, hpersist⟩ := Option.bind_eq_some_iff.mp hsane
    obtain ⟨value, hvalue, _⟩ := hheld.opened
    rw [hvalue] at hpersist
    obtain ⟨rfl, hsaved⟩ := held_of_persist hopened (mark_of_mark hmark) hpersist
    exact ⟨hsaved, (nonzero_body_of_mark hmark).symm ▸ hagain⟩
  · cases hsane
    exact ⟨hheld, Nat.le_of_not_lt hfew⟩

end Held

section Settled

/-- What `load_identity` makes of a section that it leaves as it is. -/
structure Reads (host : Host F) (inner : Section F) (identity : AppIdentity) : Prop where
  user_hash : _parse_user_hash (get inner "user_hash") = some (some identity.user_hash)
  marked : _mark_user_hash identity.user_hash = some identity.user_hash
  sane : 8 ≤ nonzero_body identity.user_hash
  nickname : nick_of host inner = identity.nickname
  tcp_port : number_of host inner "tcp_port" = some identity.tcp_port
  client_id : number_of host inner "client_id" = some identity.client_id

/-- The section that is loaded from the file, whenever something is. -/
structure Settled (host : Host F) (limit : Nat) (file : ConfigFile F) (inner : Section F) : Prop where
  distinct : Distinct file
  loads : ∀ cfg after, load_config host limit file = some (cfg, after) →
    after = file ∧ find cfg (lit "identity") = some (.object inner)

theorem AppIdentity.checked_fields (identity : AppIdentity) :
    AppIdentity.checked identity.user_hash identity.nickname identity.tcp_port identity.client_id = some identity := by
  rw [AppIdentity.checked, dif_pos identity.length_user_hash, dif_pos identity.nickname_ne_nil,
    dif_pos identity.tcp_port_range, dif_pos identity.client_id_range]

theorem fields_of_checked {hash : Bytes} {nick : PyStr} {tcp_port client_id : Int}
    (hchecked : AppIdentity.checked hash nick tcp_port client_id = some identity) :
    identity.user_hash = hash ∧ identity.nickname = nick ∧ identity.tcp_port = tcp_port ∧
      identity.client_id = client_id := by
  rw [AppIdentity.checked] at hchecked
  split_ifs at hchecked
  cases hchecked
  exact ⟨rfl, rfl, rfl, rfl⟩

/-- A settled file is loaded as the one identity, whatever is drawn, and is left as it is. -/
theorem Settled.load_identity (hsettled : Settled host limit file inner) (hreads : Reads host inner identity)
    (drawn again : Drawn) :
    load_identity host limit drawn again file = (load_config host limit file).map fun _ => (identity, file) := by
  cases hload : load_config host limit file with
  | none =>
    rw [amuled.identity.load_identity, hload]
    rfl
  | some loaded =>
    obtain ⟨cfg, after⟩ := loaded
    obtain ⟨rfl, hthere⟩ := hsettled.loads cfg after hload
    have hsection : identity_section host cfg = some inner := by
      rw [identity_section, hthere]
    have hmarked : marked_hash limit drawn (some identity.user_hash) (cfg, after) =
        some (identity.user_hash, cfg, after) := by
      rw [marked_hash, hreads.marked, Option.bind_some, if_pos rfl]
    have hsane : sane_hash limit again (identity.user_hash, cfg, after) = some (identity.user_hash, cfg, after) :=
      if_neg (Nat.not_lt.mpr hreads.sane)
    simp only [amuled.identity.load_identity, hload, hsection, hreads.user_hash, hmarked, hreads.tcp_port,
      hreads.client_id, hsane, hreads.nickname, identity.checked_fields, Option.bind_eq_bind, Option.bind_some,
      Option.pure_def, Option.map_some]

theorem find_normalize_paths {after : Section F} {key : PyStr} (hnormalized : _normalize_paths host cfg = some after)
    (hpaths : key ≠ lit "paths") (hlogging : key ≠ lit "logging") : find after key = find cfg key := by
  obtain ⟨paths, _, hrest⟩ := Option.bind_eq_some_iff.mp hnormalized
  obtain ⟨logging, _, hpair⟩ := Option.bind_eq_some_iff.mp hrest
  cases hpair
  rw [find_insert_of_ne hlogging, find_insert_of_ne hpaths]

/-- A key outside of the section is set. -/
theorem Settled.config_set {dotted_key raw_value : PyStr} {saved : ConfigFile F}
    (hsettled : Settled host limit file inner) (houtside : (parts_of dotted_key).head? ≠ some (lit "identity"))
    (hset : config_set host limit file dotted_key raw_value = some saved) : Settled host limit saved inner := by
  obtain ⟨⟨cfg, after⟩, hload, hsave⟩ := Option.bind_eq_some_iff.mp hset
  obtain ⟨rfl, hthere⟩ := hsettled.loads cfg after hload
  obtain ⟨hcomplete, hnormal, _⟩ := loads_again hsettled.distinct hload
  have hopened : Opened host cfg inner := ⟨hcomplete, hnormal, hthere⟩
  obtain ⟨part, rest, hparts⟩ := List.exists_cons_of_ne_nil (parts_of_ne_nil dotted_key)
  rw [hparts, List.head?_cons, ne_eq, Option.some.injEq] at houtside
  have hkeys : Sorted (_set_dotted cfg (part :: rest) (_infer_type host raw_value)) :=
    sorted_set_dotted hcomplete.sorted _ _
  have hkept : find (_set_dotted cfg (part :: rest) (_infer_type host raw_value)) (lit "identity") =
      some (.object inner) := by
    rw [set_dotted_cons, find_insert_of_ne (Ne.symm houtside), hthere]
  rw [hparts, save_config] at hsave
  split_ifs at hsave
  cases hsave
  refine ⟨fun user_cfg huser => ?_, fun loaded later hagain => ?_⟩
  · cases huser
    exact hkeys.nodup_keys
  · obtain ⟨found, hfound, hpair⟩ := Option.bind_eq_some_iff.mp hagain
    cases hpair
    refine ⟨rfl, ?_⟩
    have hdefault := default_section_of_mem host mem_identity
    obtain ⟨held, hheld, hsorted, hflat⟩ := find_DEFAULT_CONFIG host hdefault
    rw [hheld] at hdefault
    obtain ⟨hinner, hcovers⟩ := hopened.covers hdefault
    rw [find_normalize_paths hfound (by decide) (by decide), find_deep_merge hkeys.nodup_keys, hkept, hdefault]
    exact congrArg (fun merged => some (Document.object merged)) (deep_merge_covering hsorted hflat hinner hcovers)

/-- The identities of a run from a settled file are the one that it holds, and it stays settled. -/
theorem Settled.run {ops : List Op} {identities : List AppIdentity} {after : ConfigFile F}
    (hsettled : Settled host limit file inner) (hreads : Reads host inner identity) (houtside : ∀ op ∈ ops, op.Outside)
    (hrun : run host limit ops file = some (identities, after)) :
    Settled host limit after inner ∧ ∀ later ∈ identities, later = identity := by
  induction ops generalizing file identities with
  | nil =>
    cases hrun
    exact ⟨hsettled, by simp⟩
  | cons op ops ih =>
    obtain ⟨⟨first, between⟩, hop, hrest⟩ := Option.bind_eq_some_iff.mp hrun
    obtain ⟨⟨others, last⟩, hothers, hpair⟩ := Option.bind_eq_some_iff.mp hrest
    cases hpair
    have hstep : Settled host limit between inner ∧ ∀ later ∈ first, later = identity := by
      cases op with
      | set dotted_key raw_value =>
        obtain ⟨saved, hset, hpair⟩ := Option.map_eq_some_iff.mp hop
        cases hpair
        exact ⟨hsettled.config_set (houtside _ List.mem_cons_self) hset, by simp⟩
      | load drawn again =>
        rw [Op.run, hsettled.load_identity hreads] at hop
        obtain ⟨result, hresult, hpair⟩ := Option.map_eq_some_iff.mp hop
        obtain ⟨_, _, rfl⟩ := Option.map_eq_some_iff.mp hresult
        cases hpair
        exact ⟨hsettled, fun later hlater => List.mem_singleton.mp hlater⟩
    obtain ⟨hlast, hlater⟩ := ih hstep.1 (fun other hother => houtside other (List.mem_cons_of_mem _ hother)) hothers
    refine ⟨hlast, fun later hmem => ?_⟩
    rcases List.mem_append.mp hmem with hfirst | hmore
    · exact hstep.2 later hfirst
    · exact hlater later hmore

end Settled

section First

/-- An identity is only loaded where its section is a dictionary. -/
theorem section_of_load {drawn again : Drawn} {after : ConfigFile F} (hcomplete : Complete host cfg)
    (hload : load_config host limit file = some (cfg, after))
    (hfirst : load_identity host limit drawn again file = some (identity, stored)) :
    ∃ inner, find cfg (lit "identity") = some (.object inner) ∧ ∃ parsed marked sane,
      _parse_user_hash (get inner "user_hash") = some parsed ∧
      marked_hash limit drawn parsed (cfg, after) = some marked ∧ sane_hash limit again marked = some sane ∧
      identity.user_hash = sane.1 ∧ identity.nickname = nick_of host inner ∧
      number_of host inner "tcp_port" = some identity.tcp_port ∧
      number_of host inner "client_id" = some identity.client_id ∧ stored = sane.2.2 := by
  obtain ⟨loaded, hloaded, hrest⟩ := Option.bind_eq_some_iff.mp hfirst
  cases hload.symm.trans hloaded
  obtain ⟨inner, hsection, hrest⟩ := Option.bind_eq_some_iff.mp hrest
  obtain ⟨parsed, hparsed, hrest⟩ := Option.bind_eq_some_iff.mp hrest
  obtain ⟨marked, hmarked, hrest⟩ := Option.bind_eq_some_iff.mp hrest
  obtain ⟨tcp_port, htcp, hrest⟩ := Option.bind_eq_some_iff.mp hrest
  obtain ⟨client_id, hclient, hrest⟩ := Option.bind_eq_some_iff.mp hrest
  obtain ⟨sane, hsane, hrest⟩ := Option.bind_eq_some_iff.mp hrest
  obtain ⟨checked, hchecked, hpair⟩ := Option.bind_eq_some_iff.mp hrest
  cases hpair
  obtain ⟨hhash, hnick, rfl, rfl⟩ := fields_of_checked hchecked
  have hthere : find cfg (lit "identity") = some (.object inner) := by
    obtain ⟨value, hvalue, _⟩ := hcomplete.covers (default_section_of_mem host mem_identity)
    have hobject : (∃ entries, value = .object entries) ∨ ∀ entries, value ≠ .object entries := by
      cases value with
      | object entries => exact .inl ⟨entries, rfl⟩
      | _ => exact .inr nofun
    rcases hobject with ⟨entries, rfl⟩ | hleaf
    · rw [identity_section, hvalue] at hsection
      cases hsection
      exact hvalue
    · -- an empty value is read as no section, and then cannot take up the hash that is drawn
      exfalso
      have hempty : inner = [] := by
        rw [identity_section, hvalue] at hsection
        cases value with
        | object entries => exact hleaf entries rfl |>.elim
        | _ =>
          dsimp only at hsection
          split_ifs at hsection
          cases hsection
          rfl
      have hraises : ∀ hash, set_user_hash cfg hash = none := by
        intro hash
        rw [set_user_hash, hvalue]
        cases value with
        | object entries => exact hleaf entries rfl |>.elim
        | _ => rfl
      subst hempty
      cases hparsed
      obtain ⟨hash, _, hpersist⟩ := Option.bind_eq_some_iff.mp hmarked
      rw [persist, hraises] at hpersist
      cases hpersist
  exact ⟨inner, hthere, parsed, marked, sane, hparsed, hmarked, hsane, hhash, hnick, htcp, hclient, rfl⟩

/-- The first identity that is loaded is settled: what was stored of its hash is read as that hash. -/
theorem settled_of_load {drawn again : Drawn} (hdistinct : Distinct file) (hagain : 8 ≤ nonzero_body again.1)
    (hfirst : load_identity host limit drawn again file = some (identity, stored)) :
    ∃ loaded after value inner, load_config host limit file = some (loaded, after) ∧
      find loaded (lit "identity") = some (.object inner) ∧
      _parse_user_hash value = some (some identity.user_hash) ∧
      load_config host limit stored = some (with_hash loaded inner value, stored) ∧
      Reads host (insert inner (lit "user_hash") value) identity ∧
      Settled host limit stored (insert inner (lit "user_hash") value) := by
  obtain ⟨⟨cfg, after⟩, hload, _⟩ := Option.bind_eq_some_iff.mp hfirst
  obtain ⟨hcomplete, hnormal, hafter, hloads⟩ := loads_again hdistinct hload
  obtain ⟨inner, hthere, parsed, marked, sane, hparsed, hmarked, hsane, hhash, hnick, htcp, hclient, rfl⟩ :=
    section_of_load hcomplete hload hfirst
  have hopened : Opened host cfg inner := ⟨hcomplete, hnormal, hthere⟩
  obtain ⟨old, hold⟩ := hopened.exists_user_hash
  have hsame : with_hash cfg inner old = cfg := by
    rw [with_hash, hopened.sorted.insert_self hold, hcomplete.sorted.insert_self hthere]
  rw [get, hold, Option.getD_some] at hparsed
  rw [← hsame] at hloads hmarked
  have hheld := held_of_marked hopened hafter hloads hparsed hmarked
  obtain ⟨hsaved, henough⟩ := held_of_sane hopened hagain hheld hsane
  obtain ⟨value, hvalue, hread⟩ := hsaved.opened
  have hreload := hsaved.loads
  rw [hvalue] at hreload
  have hkept : ∀ key, lit key ≠ lit "user_hash" → get (insert inner (lit "user_hash") value) key = get inner key := by
    intro key hkey
    rw [get, find_insert_of_ne hkey, get]
  have hlength := hread (hhash ▸ identity.length_user_hash)
  rw [← hhash] at hlength henough
  refine ⟨cfg, after, value, inner, hload, hthere, hlength, hreload, ⟨?_, hhash ▸ hsaved.marked, henough, ?_, ?_, ?_⟩,
    hsaved.distinct, fun loaded later hlater => ?_⟩
  · rw [get, find_insert_self, Option.getD_some, hlength]
  · rw [nick_of, hkept "nick" (by decide), hnick, nick_of]
  · rw [number_of, hkept "tcp_port" (by decide), ← number_of, htcp]
  · rw [number_of, hkept "client_id" (by decide), ← number_of, hclient]
  · rw [hreload] at hlater
    cases hlater
    exact ⟨rfl, (hopened.with_hash value).there⟩

theorem length_sampleDrawn : (List.replicate 16 (1 : UInt8)).length = 16 := rfl

/-- Sixteen bytes that are not zero. -/
def sampleDrawn : Drawn := ⟨List.replicate 16 1, length_sampleDrawn⟩

end First

end amuled.identity
