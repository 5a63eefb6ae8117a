import AmuleD.Config.Merging

open pystr json sorteddict

namespace amuled.config

variable {F : Type} {host : Host F} {limit : Nat} {cfg paths logging : Section F} {value : Document F}

section Setting

variable {parts other : List PyStr}

/-- What stands under the first part of a key that was set. -/
def placed (inner : Section F) (rest : List PyStr) (value : Document F) : Document F :=
  match rest with
  | [] => value
  | part :: rest => .object (_set_dotted inner (part :: rest) value)

theorem set_dotted_cons (cfg : Section F) (part : PyStr) (rest : List PyStr) (value : Document F) :
    _set_dotted cfg (part :: rest) value = insert cfg part (placed (subsection cfg part) rest value) := by
  cases rest <;> rfl

theorem resolve_set_dotted (hparts : parts ≠ []) (cfg : Section F) (value : Document F) :
    _resolve_dotted (.object (_set_dotted cfg parts value)) parts = some value := by
  induction parts generalizing cfg with
  | nil => exact absurd rfl hparts
  | cons part rest ih =>
    rw [set_dotted_cons, _resolve_dotted, find_insert_self, Option.bind_some]
    cases rest with
    | nil => rfl
    | cons next more => exact ih (List.cons_ne_nil next more) _

theorem resolve_subsection (hother : other ≠ []) (cfg : Section F) (part : PyStr) :
    _resolve_dotted (.object (subsection cfg part)) other =
      (find cfg part).bind fun inner => _resolve_dotted inner other := by
  obtain ⟨first, later, rfl⟩ := List.exists_cons_of_ne_nil hother
  rw [subsection]
  cases find cfg part with
  | none => rfl
  | some value => cases value <;> rfl

/-- A key beside the one that is set is read as before. -/
theorem resolve_set_dotted_other (hextension : ¬parts <+: other) (hfront : ¬other <+: parts) (cfg : Section F)
    (value : Document F) : _resolve_dotted (.object (_set_dotted cfg parts value)) other =
      _resolve_dotted (.object cfg) other := by
  induction parts generalizing cfg other with
  | nil => exact absurd List.nil_prefix hextension
  | cons part rest ih =>
    cases other with
    | nil => exact absurd List.nil_prefix hfront
    | cons first later =>
      rw [set_dotted_cons, _resolve_dotted, _resolve_dotted]
      by_cases hfirst : first = part
      · subst hfirst
        rw [List.prefix_cons_inj] at hextension hfront
        have hlater : later ≠ [] := fun hnil => hfront (hnil ▸ List.nil_prefix)
        rw [find_insert_self, Option.bind_some, ← resolve_subsection hlater]
        cases rest with
        | nil => exact absurd List.nil_prefix hextension
        | cons next more => exact ih hextension hfront (subsection cfg first)
      · rw [find_insert_of_ne hfirst]

theorem sorted_set_dotted (hsorted : Sorted cfg) (parts : List PyStr) (value : Document F) :
    Sorted (_set_dotted cfg parts value) := by
  cases parts with
  | nil => exact hsorted
  | cons part rest =>
    rw [set_dotted_cons]
    exact hsorted.insert _ _

end Setting

section Merged

variable {parts : List PyStr}

/-- The configuration with the defaults of a section in whose place another value stands, for a key inside of it. -/
def restored (host : Host F) (cfg : Section F) (parts : List PyStr) : Section F :=
  match parts with
  | part :: _ :: _ =>
    match find (DEFAULT_CONFIG host) part, find cfg part with
    | some (.object _), some (.object _) => cfg
    | some (.object held), _ => insert cfg part (.object held)
    | _, _ => cfg
  | _ => cfg

theorem restored_cases (host : Host F) (cfg : Section F) (part next : PyStr) (more : List PyStr) :
    restored host cfg (part :: next :: more) = cfg ∧
      ((∃ inner, find cfg part = some (.object inner)) ∨ find (DEFAULT_CONFIG host) part = none) ∨
    ∃ held, find (DEFAULT_CONFIG host) part = some (.object held) ∧ subsection cfg part = [] ∧
      (∀ inner, find cfg part ≠ some (.object inner)) ∧
      restored host cfg (part :: next :: more) = insert cfg part (.object held) := by
  rw [restored, subsection]
  cases hdefault : find (DEFAULT_CONFIG host) part with
  | none => exact .inl ⟨rfl, .inr rfl⟩
  | some default =>
    obtain ⟨held, rfl, _, _⟩ := find_DEFAULT_CONFIG host hdefault
    cases find cfg part with
    | none => exact .inr ⟨held, rfl, rfl, nofun, rfl⟩
    | some value =>
      cases value with
      | object inner => exact .inl ⟨rfl, .inl ⟨inner, rfl⟩⟩
      | _ => exact .inr ⟨held, rfl, rfl, nofun, rfl⟩

theorem Complete.insert_leaf (hcomplete : Complete host cfg) (hleaf : Leaf value) (part : PyStr) :
    Complete host (sorteddict.insert cfg part value) := by
  refine ⟨hcomplete.sorted.insert _ _, fun {other held} hdefault => ?_⟩
  rw [find_insert]
  split_ifs with hother
  · exact ⟨value, rfl, fun inner hinner => absurd hinner (hleaf inner)⟩
  · exact hcomplete.covers hdefault

/-- One entry is merged into plain values. -/
theorem deep_merge_set_dotted_nil {held : Section F} (hflat : Flat held) (next : PyStr) (more : List PyStr)
    (value : Document F) :
    _deep_merge held (_set_dotted [] (next :: more) value) = _set_dotted held (next :: more) value := by
  have hempty : subsection held next = [] := by
    rw [subsection]
    cases hfind : find held next with
    | none => rfl
    | some leaf =>
      have hleaf := hflat next leaf hfind
      cases leaf with
      | object inner => exact absurd rfl (hleaf inner)
      | _ => rfl
  have hkept : ∀ value, merge_value (find held next) value = value := by
    intro value
    cases hfind : find held next with
    | none => rfl
    | some leaf =>
      have hleaf := hflat next leaf hfind
      cases leaf with
      | object inner => exact absurd rfl (hleaf inner)
      | _ => rfl
  have hone : _set_dotted [] (next :: more) value = [(next, placed [] more value)] := set_dotted_cons _ _ _ _
  rw [hone, deep_merge_cons, deep_merge_nil, hkept, set_dotted_cons, hempty]

/-- What was set is merged with the defaults as the defaults would be with what they restore. -/
theorem deep_merge_set_dotted (hcomplete : Complete host cfg) (hleaf : Leaf value) (hparts : parts ≠ []) :
    _deep_merge (DEFAULT_CONFIG host) (_set_dotted cfg parts value) =
      _set_dotted (restored host cfg parts) parts value := by
  obtain ⟨part, rest, rfl⟩ := List.exists_cons_of_ne_nil hparts
  cases rest with
  | nil => exact (hcomplete.insert_leaf hleaf part).deep_merge
  | cons next more =>
    rcases restored_cases host cfg part next more with ⟨hsame, hinner⟩ | ⟨held, hdefault, hempty, _, hrestored⟩
    · rw [hsame, set_dotted_cons]
      apply Complete.deep_merge
      refine hcomplete.insert fun held hdefault => ?_
      rcases hinner with ⟨inner, hinner⟩ | hnone
      · obtain ⟨found, hfound, hcovers⟩ := hcomplete.covers hdefault
        rw [hinner, Option.some.injEq] at hfound
        obtain ⟨hsorted, hkeys⟩ := hcovers inner hfound.symm
        rw [subsection, hinner]
        refine ⟨sorted_set_dotted hsorted _ _, fun key hkey => ?_⟩
        rw [set_dotted_cons, find_insert]
        split_ifs
        · exact Option.some_ne_none _
        · exact hkeys key hkey
      · rw [hnone] at hdefault
        cases hdefault
    · obtain ⟨held', hsame, _, hflat⟩ := find_DEFAULT_CONFIG host hdefault
      cases hsame
      have hsection : subsection (insert cfg part (.object held)) part = held := by
        rw [subsection, find_insert_self]
      rw [hrestored, set_dotted_cons, set_dotted_cons, insert_insert, hempty, hsection, placed, placed,
        ← deep_merge_set_dotted_nil hflat]
      have hsorted := hcomplete.sorted.insert part (.object (_set_dotted [] (next :: more) value))
      apply (sorted_deep_merge (sorted_DEFAULT_CONFIG host)).ext (hcomplete.sorted.insert _ _)
      intro key
      rw [find_deep_merge hsorted.nodup_keys]
      by_cases hkey : key = part
      · subst hkey
        rw [find_insert_self, find_insert_self, hdefault]
        rfl
      · rw [find_insert_of_ne hkey, find_insert_of_ne hkey, ← find_deep_merge hcomplete.sorted.nodup_keys,
          hcomplete.deep_merge]

end Merged

section Stored

variable {parts : List PyStr}

/-- The key names no section that has to be a dictionary, and nothing inside of the file of the log. -/
structure Settable (parts : List PyStr) : Prop where
  paths : parts ≠ [lit "paths"]
  logging : parts ≠ [lit "logging"]
  file : ∀ part rest, parts ≠ lit "logging" :: lit "file" :: part :: rest

/-- What the normalization makes of a value under a key: a directory of a null path, an absolute file of the log. -/
def stored_value (host : Host F) (parts : List PyStr) (value : Document F) : Document F :=
  match parts with
  | [part, name] =>
    if part = lit "paths" then
      if ["incoming", "temp", "shared"].any (fun dir => decide (name = lit dir)) then
        match value with
        | .null => .str (posixpath.text (host.PROJECT_ROOT ++ [name]))
        | value => value
      else value
    else if part = lit "logging" ∧ name = lit "file" then normal_file host value
    else value
  | _ => value

theorem Normal.insert (hnormal : Normal host cfg) {part : PyStr} (hpaths : part ≠ lit "paths")
    (hlogging : part ≠ lit "logging") (value : Document F) : Normal host (insert cfg part value) := by
  obtain ⟨paths, hfind_paths, hnormal_paths⟩ := hnormal.paths
  obtain ⟨logging, hfind_logging, hnormal_logging⟩ := hnormal.logging
  refine ⟨hnormal.sorted.insert _ _, ⟨paths, ?_, hnormal_paths⟩, ⟨logging, ?_, hnormal_logging⟩⟩
  · rw [find_insert_of_ne hpaths.symm, hfind_paths]
  · rw [find_insert_of_ne hlogging.symm, hfind_logging]

theorem Normal.restored (hnormal : Normal host cfg) (parts : List PyStr) : Normal host (restored host cfg parts) := by
  cases parts with
  | nil => exact hnormal
  | cons part rest =>
    cases rest with
    | nil => exact hnormal
    | cons next more =>
      rcases restored_cases host cfg part next more with ⟨hsame, _⟩ | ⟨held, _, _, hnone, hrestored⟩
      · rwa [hsame]
      · rw [hrestored]
        apply hnormal.insert
        · rintro rfl
          obtain ⟨paths, hfind, _⟩ := hnormal.paths
          exact hnone paths hfind
        · rintro rfl
          obtain ⟨logging, hfind, _⟩ := hnormal.logging
          exact hnone logging hfind

theorem stored_value_of_ne {part : PyStr} (hpaths : part ≠ lit "paths") (hlogging : part ≠ lit "logging")
    (rest : List PyStr) (value : Document F) : stored_value host (part :: rest) value = value := by
  unfold stored_value
  split
  · rename_i heq
    cases heq
    rw [if_neg hpaths, if_neg fun hboth => hlogging hboth.1]
  · rfl

/-- The directories, after a value was put among the paths. -/
theorem default_dirs_insert (hpaths : NormalPaths host paths) (next : PyStr) (more : List PyStr) (inner : Section F) :
    ["incoming", "temp", "shared"].foldl (default_dir host) (insert paths next (placed inner more value)) =
      insert paths next (placed inner more (stored_value host (lit "paths" :: next :: more) value)) := by
  apply (sorted_default_dirs _ (hpaths.sorted.insert _ _)).ext (hpaths.sorted.insert _ _)
  intro key
  by_cases hkey : key = next
  · subst hkey
    rw [find_default_dirs, find_insert_self, find_insert_self]
    cases more with
    | nil =>
      simp only [placed, stored_value, if_true]
      split_ifs
      · cases value <;> rfl
      · rfl
    | cons part rest => exact ite_self _
  · rw [find_default_dirs, find_insert_of_ne hkey, find_insert_of_ne hkey, ← find_default_dirs, hpaths.default_dirs]

theorem normal_logging_insert (hlogging : NormalLogging host logging) {next : PyStr} {more : List PyStr}
    (hfile : next = lit "file" → more = []) (inner : Section F) :
    normal_logging host (insert logging next (placed inner more value)) =
      insert logging next (placed inner more (stored_value host (lit "logging" :: next :: more) value)) := by
  apply (sorted_normal_logging (hlogging.sorted.insert _ _)).ext (hlogging.sorted.insert _ _)
  intro key
  by_cases hkey : key = next
  · subst hkey
    rw [find_normal_logging, find_insert_self, find_insert_self]
    by_cases hname : key = lit "file"
    · rw [if_pos hname, hfile hname]
      simp only [placed, stored_value, if_neg lit_logging_ne, hname, and_self, if_true, Option.map_some]
    · rw [if_neg hname]
      cases more with
      | nil => simp only [placed, stored_value, if_neg lit_logging_ne, hname, and_false, if_false]
      | cons part rest => rfl
  · rw [find_normal_logging, find_insert_of_ne hkey, find_insert_of_ne hkey, ← find_normal_logging, hlogging.normal]

/-- The normalization changes the value that was set and nothing else. -/
theorem Normal.normalize_set_dotted (hnormal : Normal host cfg) (hsettable : Settable parts) (value : Document F) :
    _normalize_paths host (_set_dotted cfg parts value) =
      some (_set_dotted cfg parts (stored_value host parts value)) := by
  obtain ⟨paths, hpaths, hnormal_paths⟩ := hnormal.paths
  obtain ⟨logging, hlogging, hnormal_logging⟩ := hnormal.logging
  cases parts with
  | nil => exact hnormal.normalize_paths
  | cons part rest =>
    rw [set_dotted_cons, set_dotted_cons]
    by_cases hpart : part = lit "paths"
    · subst hpart
      cases rest with
      | nil => exact absurd rfl hsettable.paths
      | cons next more =>
        have hsection : subsection cfg (lit "paths") = paths := by
          rw [subsection, hpaths]
        rw [hsection, placed, placed, set_dotted_cons, set_dotted_cons,
          normalize_paths_of_sections (section_of_object (find_insert_self _ _ _))
            (section_of_object ((find_insert_of_ne lit_logging_ne _ _).trans hlogging)),
          default_dirs_insert hnormal_paths, insert_insert, hnormal_logging.normal,
          (hnormal.sorted.insert _ _).insert_self ((find_insert_of_ne lit_logging_ne _ _).trans hlogging)]
    · by_cases hlog : part = lit "logging"
      · subst hlog
        cases rest with
        | nil => exact absurd rfl hsettable.logging
        | cons next more =>
          have hsection : subsection cfg (lit "logging") = logging := by
            rw [subsection, hlogging]
          have hfile : next = lit "file" → more = [] := by
            rintro rfl
            cases more with
            | nil => rfl
            | cons part rest => exact absurd rfl (hsettable.file part rest)
          have hpaths_kept : ∀ changed : Document F,
              find (sorteddict.insert cfg (lit "logging") changed) (lit "paths") = some (.object paths) := by
            intro changed
            rw [find_insert_of_ne lit_logging_ne.symm, hpaths]
          rw [hsection, placed, placed, set_dotted_cons, set_dotted_cons,
            normalize_paths_of_sections (section_of_object (hpaths_kept _))
              (section_of_object (find_insert_self _ _ _)),
            hnormal_paths.default_dirs, (hnormal.sorted.insert _ _).insert_self (hpaths_kept _),
            normal_logging_insert hnormal_logging hfile, insert_insert]
      · rw [stored_value_of_ne hpart hlog]
        exact (hnormal.insert hpart hlog _).normalize_paths

end Stored

section Roundtrip

variable {file : ConfigFile F}

theorem leaf_infer_type (host : Host F) (raw : PyStr) : Leaf (_infer_type host raw) := by
  unfold _infer_type
  split_ifs
  · exact nofun
  · exact nofun
  · exact nofun
  · cases int_of raw with
    | some number => exact nofun
    | none => cases host.floats.of_str raw <;> exact nofun

theorem parts_of_ne_nil (dotted_key : PyStr) : parts_of dotted_key ≠ [] := List.splitOn_ne_nil _ _

theorem Valid.config_set_eq {dotted_key raw_value : PyStr} (hvalid : Valid host limit file cfg) :
    config_set host limit file dotted_key raw_value =
      save_config limit (_set_dotted cfg (parts_of dotted_key) (_infer_type host raw_value)) := by
  obtain ⟨after, hload⟩ := hvalid.loads
  rw [config_set, hload]
  rfl

/-- What is loaded after a key was set. -/
theorem Valid.load_set {dotted_key raw_value : PyStr} {saved : ConfigFile F} (hvalid : Valid host limit file cfg)
    (hsettable : Settable (parts_of dotted_key))
    (hset : config_set host limit file dotted_key raw_value = some saved) :
    load_config host limit saved = some (_set_dotted (restored host cfg (parts_of dotted_key)) (parts_of dotted_key)
      (stored_value host (parts_of dotted_key) (_infer_type host raw_value)), saved) := by
  obtain ⟨hcomplete, hnormal⟩ := hvalid.loaded
  rw [hvalid.config_set_eq, save_config] at hset
  split_ifs at hset
  cases hset
  rw [load_config, deep_merge_set_dotted hcomplete (leaf_infer_type host raw_value) (parts_of_ne_nil dotted_key),
    (hnormal.restored _).normalize_set_dotted hsettable]
  rfl

/-- The paths and the log cannot be set as a whole: what then is saved is not loaded. -/
theorem Valid.load_section_set {dotted_key raw_value : PyStr} {saved : ConfigFile F}
    (hvalid : Valid host limit file cfg)
    (hsection : parts_of dotted_key = [lit "paths"] ∨ parts_of dotted_key = [lit "logging"])
    (hset : config_set host limit file dotted_key raw_value = some saved) : load_config host limit saved = none := by
  obtain ⟨hcomplete, _⟩ := hvalid.loaded
  have hleaf := leaf_infer_type host raw_value
  have hraises : ∀ {name : String}, section_of (insert cfg (lit name) (_infer_type host raw_value)) name = none := by
    intro name
    rw [section_of, find_insert_self]
    cases hvalue : _infer_type host raw_value with
    | object inner => exact absurd hvalue (hleaf inner)
    | _ => rfl
  rw [hvalid.config_set_eq, save_config] at hset
  split_ifs at hset
  cases hset
  rcases hsection with hparts | hparts
  · rw [hparts, load_config, _set_dotted, (hcomplete.insert_leaf hleaf _).deep_merge,
      normalize_paths_of_no_paths hraises]
    rfl
  · rw [hparts, load_config, _set_dotted, (hcomplete.insert_leaf hleaf _).deep_merge,
      normalize_paths_of_no_logging hraises]
    rfl

/-- A key that was set is loaded, the keys beside it are loaded as before, and a configuration that was saved is loaded
as it was. -/
theorem load_after_set_and_save (hvalid : Valid host limit file cfg) :
    (∀ dotted_key raw_value, Settable (parts_of dotted_key) →
      writable limit (.object (_set_dotted cfg (parts_of dotted_key) (_infer_type host raw_value))) = true →
      ∃ saved after, config_set host limit file dotted_key raw_value = some saved ∧
        load_config host limit saved = some (after, saved) ∧
        _resolve_dotted (.object after) (parts_of dotted_key) =
          some (stored_value host (parts_of dotted_key) (_infer_type host raw_value)) ∧
        ∀ other, ¬parts_of dotted_key <+: parts_of other → ¬parts_of other <+: parts_of dotted_key →
          _resolve_dotted (.object after) (parts_of other) =
            _resolve_dotted (.object (restored host cfg (parts_of dotted_key))) (parts_of other)) ∧
    (writable limit (.object cfg) = true →
      ∃ saved, save_config limit cfg = some saved ∧ load_config host limit saved = some (cfg, saved)) := by
  constructor
  · intro dotted_key raw_value hsettable hwritable
    have hset := hvalid.config_set_eq.trans (if_pos hwritable)
    exact ⟨_, _, hset, hvalid.load_set hsettable hset, resolve_set_dotted (parts_of_ne_nil dotted_key) _ _,
      fun other hextension hfront => resolve_set_dotted_other hextension hfront _ _⟩
  · intro hwritable
    obtain ⟨hcomplete, hnormal⟩ := hvalid.loaded
    exact ⟨_, if_pos hwritable, load_saved hcomplete hnormal⟩

/-- Floats that are whole, and a root. -/
def sampleHost : Host Int where
  floats := { zero := 0, of_int := some, of_str := int_of, to_int := some, is_zero := fun value => value == 0 }
  six := 6
  PROJECT_ROOT := [lit "srv"]
  str _ := lit "value"

/-- What an empty object is loaded as. -/
def sampleConfig : Section Int :=
  insert (insert (DEFAULT_CONFIG sampleHost) (lit "paths") (.object (["incoming", "temp", "shared"].foldl
    (default_dir sampleHost) (dict [("incoming", .null), ("temp", .null), ("shared", .null)]))))
    (lit "logging") (.object (normal_logging sampleHost
      (dict [("level", .str (lit "INFO")), ("file", .str (lit "logs/amuled.jsonl"))])))

theorem valid_sampleConfig : Valid sampleHost 8 (.holds (.object [])) sampleConfig := by
  refine ⟨fun user_cfg huser => ?_, .holds (.object []), ?_⟩
  · cases huser
    exact List.nodup_nil
  · rw [load_config, deep_merge_nil, normalize_paths_of_sections
      (section_of_object (default_section_of_mem sampleHost mem_paths))
      (section_of_object (default_section_of_mem sampleHost mem_logging))]
    rfl

theorem load_after_set_and_save_name :
    ∃ saved after, config_set sampleHost 8 (.holds (.object [])) (lit "app.name") (lit "Mule") = some saved ∧
      load_config sampleHost 8 saved = some (after, saved) ∧
      _resolve_dotted (.object after) (parts_of (lit "app.name")) = some (.str (lit "Mule")) := by
  have hparts : parts_of (lit "app.name") = [lit "app", lit "name"] := by decide
  have hsettable : Settable (parts_of (lit "app.name")) := by
    rw [hparts]
    exact ⟨by decide, by decide, by simp⟩
  obtain ⟨saved, after, hset, hload, hresolve, _⟩ :=
    (load_after_set_and_save valid_sampleConfig).1 (lit "app.name") (lit "Mule") hsettable (by decide +kernel)
  exact ⟨saved, after, hset, hload, hresolve⟩

/-- A null path is loaded as a directory. -/
theorem sampleConfig_replaces_null : Valid sampleHost 8 (.holds (.object [])) sampleConfig ∧
    ¬∀ dotted_key raw_value, ∃ saved after,
      config_set sampleHost 8 (.holds (.object [])) dotted_key raw_value = some saved ∧
      load_config sampleHost 8 saved = some (after, saved) ∧
      _resolve_dotted (.object after) (parts_of dotted_key) = some (_infer_type sampleHost raw_value) := by
  refine ⟨valid_sampleConfig, fun hclaim => ?_⟩
  obtain ⟨saved, after, hset, hload, hresolve⟩ := hclaim (lit "paths.incoming") (lit "null")
  have hparts : parts_of (lit "paths.incoming") = [lit "paths", lit "incoming"] := by decide
  have hsettable : Settable (parts_of (lit "paths.incoming")) := by
    rw [hparts]
    exact ⟨by decide, by decide, by simp⟩
  rw [valid_sampleConfig.load_set hsettable hset, Option.some.injEq, Prod.mk.injEq] at hload
  rw [← hload.1, resolve_set_dotted (parts_of_ne_nil _)] at hresolve
  cases hresolve

end Roundtrip

end amuled.config
