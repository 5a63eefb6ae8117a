import AmuleD.Config.Settings

open pystr json sorteddict

namespace amuled.config

variable {F : Type} {merged values cfg : Section F} {key : PyStr} {value : Document F}

section Merging

/-- What the merge makes of a value, given what is there. -/
def merge_value (held : Option (Document F)) (value : Document F) : Document F :=
  match held, value with
  | some (.object held), .object inner => .object (_deep_merge held inner)
  | _, value => value

theorem deep_merge_nil (merged : Section F) : _deep_merge merged [] = merged := by
  rw [_deep_merge]

theorem deep_merge_cons (merged rest : Section F) (key : PyStr) (value : Document F) :
    _deep_merge merged ((key, value) :: rest) =
      _deep_merge (insert merged key (merge_value (find merged key) value)) rest := by
  cases value with
  | object inner =>
    rw [_deep_merge]
    cases hheld : find merged key with
    | none => rfl
    | some held => cases held <;> rfl
  | _ =>
    rw [_deep_merge]
    · cases find merged key with
      | none => rfl
      | some held => cases held <;> rfl
    · intro inner hinner
      cases hinner

theorem sorted_deep_merge (hmerged : Sorted merged) : Sorted (_deep_merge merged values) := by
  induction values generalizing merged with
  | nil => rwa [deep_merge_nil]
  | cons entry rest ih =>
    rw [deep_merge_cons]
    exact ih (hmerged.insert _ _)

/-- A key is read from the values, merged with what was there. -/
theorem find_deep_merge (hnodup : (values.map Prod.fst).Nodup) (merged : Section F) (key : PyStr) :
    find (_deep_merge merged values) key =
      (find values key).elim (find merged key) fun value => some (merge_value (find merged key) value) := by
  induction values generalizing merged with
  | nil =>
    rw [deep_merge_nil]
    rfl
  | cons entry rest ih =>
    rw [List.map_cons, List.nodup_cons] at hnodup
    rw [deep_merge_cons, ih hnodup.2, find]
    by_cases hkey : entry.1 = key
    · have hnone : find rest key = none := by
        apply find_eq_none_of_forall_ne
        intro later hlater heq
        exact hnodup.1 (hkey.trans heq.symm ▸ List.mem_map_of_mem hlater)
      rw [hnone, if_pos hkey, hkey]
      exact find_insert_self _ _ _
    · rw [if_neg hkey, find_insert_of_ne (Ne.symm hkey)]

theorem find_deep_merge_ne_none (hfind : find merged key ≠ none) : find (_deep_merge merged values) key ≠ none := by
  induction values generalizing merged with
  | nil => rwa [deep_merge_nil]
  | cons entry rest ih =>
    rw [deep_merge_cons]
    apply ih
    rw [find_insert]
    split_ifs
    · exact Option.some_ne_none _
    · exact hfind

end Merging

section Defaults

variable (host : Host F)

/-- The value is no dictionary. -/
def Leaf (value : Document F) : Prop := ∀ inner, value ≠ .object inner

/-- The dictionary has no dictionary in it. -/
def Flat (cfg : Section F) : Prop := ∀ key value, find cfg key = some value → Leaf value

theorem find_dict_ne_none {ν : Type} {items : List (String × ν)} {part : PyStr} {found : ν}
    (hfind : find (dict items) part = some found) : ∃ item ∈ items, lit item.1 = part ∧ item.2 = found := by
  obtain ⟨item, hitem, hpair⟩ := List.mem_map.mp (mem_ofList (mem_of_find hfind))
  cases hpair
  exact ⟨item, hitem, rfl, rfl⟩

theorem flat_default_section : ∀ item ∈ default_sections host, ∀ entry ∈ item.2, Leaf entry.2 := by
  simp only [default_sections, List.forall_mem_cons, List.not_mem_nil, false_implies, implies_true, Leaf, ne_eq,
    reduceCtorEq, not_false_eq_true, and_self]

/-- The defaults are sections of plain values. -/
theorem find_DEFAULT_CONFIG {part : PyStr} (hfind : find (DEFAULT_CONFIG host) part = some value) :
    ∃ inner, value = .object inner ∧ Sorted inner ∧ Flat inner := by
  rw [DEFAULT_CONFIG] at hfind
  obtain ⟨entry, hentry, _, hvalue⟩ := find_dict_ne_none hfind
  obtain ⟨item, hitem, rfl⟩ := List.mem_map.mp hentry
  refine ⟨dict item.2, hvalue.symm, sorted_ofList _, fun key inner hinner => ?_⟩
  obtain ⟨leaf, hleaf, _, rfl⟩ := find_dict_ne_none hinner
  exact flat_default_section host item hitem leaf hleaf

theorem sorted_DEFAULT_CONFIG : Sorted (DEFAULT_CONFIG host) := by
  rw [DEFAULT_CONFIG]
  exact sorted_ofList _

theorem default_section_of_mem {name : String} {entries : List (String × Document F)}
    (hmem : (name, entries) ∈ default_sections host) :
    find (DEFAULT_CONFIG host) (lit name) = some (.object (dict entries)) := by
  have hkeys : (default_sections host).map (fun item => lit item.1) = [lit "app", lit "network", lit "download",
      lit "paths", lit "kademlia", lit "servers", lit "sharing", lit "ipfilter", lit "geoip", lit "proxy",
      lit "identity", lit "serve", lit "storage", lit "logging"] := by
    simp only [default_sections, List.map_cons, List.map_nil]
  rw [DEFAULT_CONFIG]
  apply find_ofList
  · rw [List.map_map, List.map_map]
    change ((default_sections host).map fun item => lit item.1).Nodup
    rw [hkeys]
    decide
  · exact List.mem_map.mpr ⟨_, List.mem_map.mpr ⟨_, hmem, rfl⟩, rfl⟩

end Defaults

section Completeness

variable {host : Host F} {held inner : Section F}

/-- A dictionary with every key of a flat one takes nothing from it. -/
theorem deep_merge_covering (hheld : Sorted held) (hflat : Flat held) (hinner : Sorted inner)
    (hcovers : ∀ key, find held key ≠ none → find inner key ≠ none) : _deep_merge held inner = inner := by
  apply (sorted_deep_merge hheld).ext hinner
  intro key
  rw [find_deep_merge hinner.nodup_keys]
  cases hfind : find inner key with
  | none =>
    by_contra hthere
    exact hcovers key hthere hfind
  | some value =>
    rw [Option.elim_some]
    cases hkey : find held key with
    | none => rfl
    | some leaf =>
      have hleaf := hflat key leaf hkey
      cases leaf with
      | object entries => exact absurd rfl (hleaf entries)
      | _ => rfl

/-- Every section of the defaults is there, and with all of its keys where it is a dictionary. -/
structure Complete (host : Host F) (cfg : Section F) : Prop where
  sorted : Sorted cfg
  covers : ∀ {part held}, find (DEFAULT_CONFIG host) part = some (.object held) → ∃ value, find cfg part = some value ∧
    ∀ inner, value = .object inner → Sorted inner ∧ ∀ key, find held key ≠ none → find inner key ≠ none

theorem Complete.merge_value (hcomplete : Complete host cfg) {part : PyStr} (hvalue : find cfg part = some value) :
    merge_value (find (DEFAULT_CONFIG host) part) value = value := by
  cases hdefault : find (DEFAULT_CONFIG host) part with
  | none => rfl
  | some default =>
    obtain ⟨held, rfl, hheld, hflat⟩ := find_DEFAULT_CONFIG host hdefault
    obtain ⟨found, hfound, hcovers⟩ := hcomplete.covers hdefault
    rw [hvalue, Option.some.injEq] at hfound
    subst hfound
    cases value with
    | object inner =>
      obtain ⟨hinner, hkeys⟩ := hcovers inner rfl
      exact congrArg Document.object (deep_merge_covering hheld hflat hinner hkeys)
    | _ => rfl

/-- A complete configuration takes nothing from the defaults. -/
theorem Complete.deep_merge (hcomplete : Complete host cfg) : _deep_merge (DEFAULT_CONFIG host) cfg = cfg := by
  apply (sorted_deep_merge (sorted_DEFAULT_CONFIG host)).ext hcomplete.sorted
  intro part
  rw [find_deep_merge hcomplete.sorted.nodup_keys]
  cases hfind : find cfg part with
  | none =>
    by_contra hthere
    obtain ⟨default, hdefault⟩ := Option.ne_none_iff_exists'.mp hthere
    obtain ⟨held, rfl, _, _⟩ := find_DEFAULT_CONFIG host hdefault
    obtain ⟨found, hfound, _⟩ := hcomplete.covers hdefault
    rw [hfind] at hfound
    cases hfound
  | some value =>
    rw [Option.elim_some, hcomplete.merge_value hfind]

theorem complete_deep_merge (host : Host F) (hnodup : (values.map Prod.fst).Nodup) :
    Complete host (_deep_merge (DEFAULT_CONFIG host) values) := by
  refine ⟨sorted_deep_merge (sorted_DEFAULT_CONFIG host), fun {part held} hdefault => ?_⟩
  obtain ⟨held', hsame, hsorted, _⟩ := find_DEFAULT_CONFIG host hdefault
  cases hsame
  rw [find_deep_merge hnodup, hdefault]
  cases find values part with
  | none =>
    refine ⟨_, rfl, fun inner hinner => ?_⟩
    cases hinner
    exact ⟨hsorted, fun key hkey => hkey⟩
  | some value =>
    refine ⟨_, rfl, fun inner hinner => ?_⟩
    cases value with
    | object entries =>
      cases hinner
      exact ⟨sorted_deep_merge hsorted, fun key hkey => find_deep_merge_ne_none hkey⟩
    | _ => cases hinner

/-- A section may be replaced by one that is complete. -/
theorem Complete.insert (hcomplete : Complete host cfg) {part : PyStr}
    (hinner : ∀ held, find (DEFAULT_CONFIG host) part = some (.object held) →
      Sorted inner ∧ ∀ key, find held key ≠ none → find inner key ≠ none) :
    Complete host (insert cfg part (.object inner)) := by
  refine ⟨hcomplete.sorted.insert _ _, fun {other held} hdefault => ?_⟩
  rw [find_insert]
  split_ifs with hother
  · subst hother
    refine ⟨_, rfl, fun entries hentries => ?_⟩
    cases hentries
    exact hinner held hdefault
  · exact hcomplete.covers hdefault

end Completeness

variable {host : Host F} {limit : Nat} {paths logging : Section F}

section Paths

/-- What a key of the paths becomes. -/
def dir_value (host : Host F) (key : PyStr) (found : Option (Document F)) : Option (Document F) :=
  match found with
  | none => some (.str (posixpath.text (host.PROJECT_ROOT ++ [key])))
  | some .null => some (.str (posixpath.text (host.PROJECT_ROOT ++ [key])))
  | some value => some value

theorem dir_value_dir_value (key : PyStr) (found : Option (Document F)) :
    dir_value host key (dir_value host key found) = dir_value host key found := by
  cases found with
  | none => rfl
  | some value => cases value <;> rfl

theorem dir_value_ne_null (host : Host F) (key : PyStr) (found : Option (Document F)) :
    ∃ value, dir_value host key found = some value ∧ value ≠ .null := by
  cases found with
  | none => exact ⟨_, rfl, nofun⟩
  | some value => cases value <;> exact ⟨_, rfl, nofun⟩

theorem find_default_dir (paths : Section F) (name : String) (key : PyStr) :
    find (default_dir host paths name) key =
      if key = lit name then dir_value host key (find paths key) else find paths key := by
  rw [default_dir]
  split_ifs with hkey
  · subst hkey
    cases hfind : find paths (lit name) with
    | none => exact find_insert_self _ _ _
    | some value =>
      cases value with
      | null => exact find_insert_self _ _ _
      | _ => exact hfind
  · split
    · exact find_insert_of_ne hkey _ _
    · exact find_insert_of_ne hkey _ _
    · rfl

theorem sorted_default_dirs (names : List String) (hpaths : Sorted paths) :
    Sorted (names.foldl (default_dir host) paths) := by
  induction names generalizing paths with
  | nil => exact hpaths
  | cons name rest ih =>
    apply ih
    rw [default_dir]
    split
    · exact hpaths.insert _ _
    · exact hpaths.insert _ _
    · exact hpaths

theorem find_default_dirs (names : List String) (paths : Section F) (key : PyStr) :
    find (names.foldl (default_dir host) paths) key =
      if names.any (fun name => decide (key = lit name)) then dir_value host key (find paths key)
      else find paths key := by
  induction names generalizing paths with
  | nil => rfl
  | cons name rest ih =>
    rw [List.foldl_cons, ih, find_default_dir, List.any_cons]
    by_cases hname : key = lit name
    · rw [if_pos hname, dir_value_dir_value, ite_self, decide_eq_true hname, Bool.true_or, if_pos rfl]
    · rw [if_neg hname, decide_eq_false hname, Bool.false_or]

end Paths

section Logging

theorem isabs_text (path : posixpath.Path) : posixpath.isabs (posixpath.text path) = true := by
  cases path with
  | nil => rfl
  | cons name rest => exact decide_eq_true rfl

/-- The file of the log stays where it is. -/
theorem normal_file_normal_file (value : Document F) :
    normal_file host (normal_file host value) = normal_file host value := by
  have habs : ∀ text, posixpath.isabs (log_file host text) = true := by
    intro text
    unfold log_file
    dsimp only
    split_ifs <;> exact isabs_text _
  by_cases hchanged : (value.truthy host.floats && !posixpath.isabs (text_of host value)) = true
  · have hfile : normal_file host value = .str (log_file host (text_of host value)) := if_pos hchanged
    rw [hfile, normal_file, text_of, habs, Bool.not_true, Bool.and_false]
    exact if_neg Bool.false_ne_true
  · have hfile : normal_file host value = value := if_neg hchanged
    rw [hfile, hfile]

theorem find_normal_logging (logging : Section F) (key : PyStr) :
    find (normal_logging host logging) key =
      if key = lit "file" then (find logging key).map (normal_file host) else find logging key := by
  rw [normal_logging]
  cases hfile : find logging (lit "file") with
  | none =>
    split_ifs with hkey
    · rw [hkey, hfile]
      rfl
    · rfl
  | some file =>
    dsimp only
    rw [find_insert]
    split_ifs with hkey
    · rw [hkey, hfile]
      rfl
    · rfl

theorem sorted_normal_logging (hlogging : Sorted logging) : Sorted (normal_logging host logging) := by
  rw [normal_logging]
  split
  · exact hlogging.insert _ _
  · exact hlogging

end Logging

section Normality

/-- The directories of the paths are set, and the file of the log is absolute or none. -/
structure NormalPaths (host : Host F) (paths : Section F) : Prop where
  sorted : Sorted paths
  default_dirs : ["incoming", "temp", "shared"].foldl (default_dir host) paths = paths

structure NormalLogging (host : Host F) (logging : Section F) : Prop where
  sorted : Sorted logging
  normal : normal_logging host logging = logging

/-- A configuration that the normalization leaves as it is. -/
structure Normal (host : Host F) (cfg : Section F) : Prop where
  sorted : Sorted cfg
  paths : ∃ paths, find cfg (lit "paths") = some (.object paths) ∧ NormalPaths host paths
  logging : ∃ logging, find cfg (lit "logging") = some (.object logging) ∧ NormalLogging host logging

theorem lit_logging_ne : lit "logging" ≠ lit "paths" := by decide

/-- The normalization, for the sections that it finds. -/
theorem normalize_paths_of_sections (hpaths : section_of cfg "paths" = some paths)
    (hlogging : section_of cfg "logging" = some logging) :
    _normalize_paths host cfg =
      some (insert (insert cfg (lit "paths") (.object (["incoming", "temp", "shared"].foldl (default_dir host) paths)))
        (lit "logging") (.object (normal_logging host logging))) := by
  have hkept : ∀ changed : Document F, section_of (insert cfg (lit "paths") changed) "logging" = some logging := by
    intro changed
    rw [section_of, find_insert_of_ne lit_logging_ne]
    exact hlogging
  simp only [_normalize_paths, hpaths, hkept, Option.bind_eq_bind, Option.bind_some, Option.pure_def]

theorem normalize_paths_of_no_paths (hpaths : section_of cfg "paths" = none) : _normalize_paths host cfg = none := by
  rw [_normalize_paths, hpaths]
  rfl

theorem normalize_paths_of_no_logging (hlogging : section_of cfg "logging" = none) :
    _normalize_paths host cfg = none := by
  have hkept : ∀ changed : Document F, section_of (insert cfg (lit "paths") changed) "logging" = none := by
    intro changed
    rw [section_of, find_insert_of_ne lit_logging_ne]
    exact hlogging
  cases hpaths : section_of cfg "paths" with
  | none => exact normalize_paths_of_no_paths hpaths
  | some paths => simp only [_normalize_paths, hpaths, hkept, Option.bind_eq_bind, Option.bind_some, Option.bind_none]

theorem section_of_object {name : String} (hfind : find cfg (lit name) = some (.object paths)) :
    section_of cfg name = some paths := by
  rw [section_of, hfind]

theorem Normal.normalize_paths (hnormal : Normal host cfg) : _normalize_paths host cfg = some cfg := by
  obtain ⟨paths, hpaths, hpaths_normal⟩ := hnormal.paths
  obtain ⟨logging, hlogging, hlogging_normal⟩ := hnormal.logging
  rw [normalize_paths_of_sections (section_of_object hpaths) (section_of_object hlogging), hpaths_normal.default_dirs,
    hlogging_normal.normal, hnormal.sorted.insert_self hpaths, hnormal.sorted.insert_self hlogging]

theorem normalPaths_default_dirs (hpaths : Sorted paths) :
    NormalPaths host (["incoming", "temp", "shared"].foldl (default_dir host) paths) := by
  have hsorted : Sorted (["incoming", "temp", "shared"].foldl (default_dir host) paths) :=
    sorted_default_dirs _ hpaths
  refine ⟨hsorted, (sorted_default_dirs _ hsorted).ext hsorted fun key => ?_⟩
  rw [find_default_dirs, find_default_dirs]
  split_ifs
  · exact dir_value_dir_value _ _
  · rfl

theorem normalLogging_normal_logging (hlogging : Sorted logging) :
    NormalLogging host (normal_logging host logging) := by
  have hsorted : Sorted (normal_logging host logging) := sorted_normal_logging hlogging
  refine ⟨hsorted, (sorted_normal_logging hsorted).ext hsorted fun key => ?_⟩
  rw [find_normal_logging, find_normal_logging]
  split_ifs
  · rw [Option.map_map]
    exact congrArg (fun f => (find logging key).map f) (funext fun file => normal_file_normal_file file)
  · rfl

end Normality

section Loaded

/-- The section of the paths or of the log that a loaded configuration has, from the defaults on. -/
theorem Complete.find_section {name : String} {entries : List (String × Document F)} {inner : Section F}
    (hcomplete : Complete host cfg) (hmem : (name, entries) ∈ default_sections host)
    (hsection : section_of cfg name = some inner) :
    find cfg (lit name) = some (.object inner) ∧ Sorted inner ∧
      ∀ key, find (dict entries) key ≠ none → find inner key ≠ none := by
  obtain ⟨value, hvalue, hcovers⟩ := hcomplete.covers (default_section_of_mem host hmem)
  rw [section_of, hvalue] at hsection
  cases value with
  | object found =>
    cases hsection
    exact ⟨hvalue, hcovers inner rfl⟩
  | _ => cases hsection

theorem default_sections_held {part : PyStr} {name : String} {entries : List (String × Document F)} {held : Section F}
    (hmem : (name, entries) ∈ default_sections host) (hpart : part = lit name)
    (hdefault : find (DEFAULT_CONFIG host) part = some (.object held)) : held = dict entries := by
  rw [hpart, default_section_of_mem host hmem] at hdefault
  cases hdefault
  rfl

theorem mem_paths : ("paths", [("incoming", .null), ("temp", .null), ("shared", .null)]) ∈ default_sections host := by
  simp [default_sections]

theorem mem_logging : ("logging", [("level", .str (lit "INFO")), ("file", .str (lit "logs/amuled.jsonl"))]) ∈
    default_sections host := by
  simp [default_sections]

/-- What the normalization gives is complete, and is left as it is by the next one. -/
theorem Complete.normalize_paths {after : Section F} (hcomplete : Complete host cfg)
    (hnormalized : _normalize_paths host cfg = some after) : Complete host after ∧ Normal host after := by
  obtain ⟨paths, hpaths, hrest⟩ := Option.bind_eq_some_iff.mp hnormalized
  obtain ⟨logging, hlogging, _⟩ := Option.bind_eq_some_iff.mp hrest
  rw [section_of, find_insert_of_ne lit_logging_ne, ← section_of] at hlogging
  rw [normalize_paths_of_sections hpaths hlogging, Option.some.injEq] at hnormalized
  obtain ⟨_, hpaths_sorted, hpaths_keys⟩ := hcomplete.find_section mem_paths hpaths
  obtain ⟨_, hlogging_sorted, hlogging_keys⟩ := hcomplete.find_section mem_logging hlogging
  have hnormal_paths : NormalPaths host _ := normalPaths_default_dirs hpaths_sorted
  have hnormal_logging : NormalLogging host _ := normalLogging_normal_logging hlogging_sorted
  have hcomplete_paths := hcomplete.insert  fun held hdefault => by
    refine ⟨hnormal_paths.sorted, fun key hkey => ?_⟩
    rw [default_sections_held mem_paths rfl hdefault] at hkey
    rw [find_default_dirs]
    split_ifs
    · obtain ⟨value, hvalue, _⟩ := dir_value_ne_null host key (find paths key)
      rw [hvalue]
      exact Option.some_ne_none value
    · exact hpaths_keys key hkey
  have hcomplete_after := hcomplete_paths.insert  fun held hdefault => by
    refine ⟨hnormal_logging.sorted, fun key hkey => ?_⟩
    rw [default_sections_held mem_logging rfl hdefault] at hkey
    rw [find_normal_logging]
    split_ifs
    · rw [ne_eq, Option.map_eq_none_iff]
      exact hlogging_keys key hkey
    · exact hlogging_keys key hkey
  rw [hnormalized] at hcomplete_after
  refine ⟨hcomplete_after, hcomplete_after.sorted, ⟨_, ?_, hnormal_paths⟩, ⟨_, ?_, hnormal_logging⟩⟩
  · rw [← hnormalized, find_insert_of_ne lit_logging_ne.symm, find_insert_self]
  · rw [← hnormalized, find_insert_self]

/-- A file whose object has no key twice, and what is loaded from it. -/
structure Valid (host : Host F) (limit : Nat) (file : ConfigFile F) (cfg : Section F) : Prop where
  keys : ∀ user_cfg, file = .holds (.object user_cfg) → (user_cfg.map Prod.fst).Nodup
  loads : ∃ after, load_config host limit file = some (cfg, after)

theorem Valid.loaded {file : ConfigFile F} (hvalid : Valid host limit file cfg) :
    Complete host cfg ∧ Normal host cfg := by
  obtain ⟨after, hload⟩ := hvalid.loads
  cases file with
  | missing =>
    obtain ⟨found, hfound, hsaved⟩ := Option.bind_eq_some_iff.mp hload
    obtain ⟨saved, _, hpair⟩ := Option.bind_eq_some_iff.mp hsaved
    cases hpair
    have hcomplete : Complete host (_deep_merge (DEFAULT_CONFIG host) []) := complete_deep_merge host List.nodup_nil
    rw [deep_merge_nil] at hcomplete
    exact hcomplete.normalize_paths hfound
  | unreadable => cases hload
  | holds value =>
    cases value with
    | object user_cfg =>
      obtain ⟨found, hfound, hpair⟩ := Option.bind_eq_some_iff.mp hload
      cases hpair
      exact (complete_deep_merge host (hvalid.keys user_cfg rfl)).normalize_paths hfound
    | _ => cases hload

/-- What was loaded, saved and loaded again is the same. -/
theorem load_saved (hcomplete : Complete host cfg) (hnormal : Normal host cfg) :
    load_config host limit (.holds (.object cfg)) = some (cfg, .holds (.object cfg)) := by
  rw [load_config, hcomplete.deep_merge, hnormal.normalize_paths]
  rfl

end Loaded

end amuled.config
