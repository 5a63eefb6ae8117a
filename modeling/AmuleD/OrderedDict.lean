import Mathlib.Data.List.Nodup
import Mathlib.Tactic.Tauto

/-- A finite map whose entries stand in the order in which their keys were added. -/
structure OrderedDict (κ ν : Type) where
  entries : List (κ × ν)
  nodup : (entries.map Prod.fst).Nodup

namespace OrderedDict

variable {κ ν : Type}

def empty : OrderedDict κ ν := ⟨[], List.nodup_nil⟩

def keys (dict : OrderedDict κ ν) : List κ := dict.entries.map Prod.fst

def values (dict : OrderedDict κ ν) : List ν := dict.entries.map Prod.snd

theorem ext_entries {dict dict' : OrderedDict κ ν} (hentries : dict.entries = dict'.entries) : dict = dict' := by
  cases dict
  cases dict'
  cases hentries
  rfl

theorem nodup_keys (dict : OrderedDict κ ν) : dict.keys.Nodup := dict.nodup

@[simp] theorem entries_empty : (empty : OrderedDict κ ν).entries = [] := rfl

theorem mem_keys {dict : OrderedDict κ ν} {key : κ} :
    key ∈ dict.keys ↔ ∃ value, (key, value) ∈ dict.entries := by
  simp [keys]

variable [DecidableEq κ]

def get (dict : OrderedDict κ ν) (key : κ) : Option ν :=
  (dict.entries.find? fun entry => entry.1 = key).map Prod.snd

/-- What is read under a key was entered under it. -/
theorem mem_of_get {dict : OrderedDict κ ν} {key : κ} {value : ν} (hget : dict.get key = some value) :
    (key, value) ∈ dict.entries := by
  rw [get, Option.map_eq_some_iff] at hget
  obtain ⟨entry, hfind, rfl⟩ := hget
  have hkey : entry.1 = key := by simpa using List.find?_some hfind
  rw [← hkey]
  exact List.mem_of_find?_eq_some hfind

theorem get_of_mem {dict : OrderedDict κ ν} {key : κ} {value : ν} (hmem : (key, value) ∈ dict.entries) :
    dict.get key = some value := by
  cases hfind : dict.entries.find? fun entry => entry.1 = key with
  | none =>
    rw [List.find?_eq_none] at hfind
    exact absurd (hfind _ hmem) (by simp)
  | some entry =>
    have hkey : entry.1 = key := by simpa using List.find?_some hfind
    have hsame : entry = (key, value) :=
      List.inj_on_of_nodup_map dict.nodup (List.mem_of_find?_eq_some hfind) hmem hkey
    rw [get, hfind, hsame, Option.map_some]

/-- `dict[key] = value`: a key that is there keeps its place. -/
def set (dict : OrderedDict κ ν) (key : κ) (value : ν) : OrderedDict κ ν where
  entries :=
    if key ∈ dict.keys then dict.entries.map fun entry => if entry.1 = key then (key, value) else entry
    else dict.entries ++ [(key, value)]
  nodup := by
    split
    · have hsame : Prod.fst ∘ (fun entry : κ × ν => if entry.1 = key then (key, value) else entry) = Prod.fst := by
        funext entry
        rw [Function.comp_apply]
        split
        · rename_i hkey
          exact hkey.symm
        · rfl
      rw [List.map_map, hsame]
      exact dict.nodup
    · rename_i hnew
      rw [List.map_append, List.nodup_append]
      refine ⟨dict.nodup, List.nodup_singleton key, ?_⟩
      rintro other hother added hadded rfl
      rw [List.map_singleton, List.mem_singleton] at hadded
      subst hadded
      exact hnew hother

theorem set_of_not_mem {dict : OrderedDict κ ν} {key : κ} (hnew : key ∉ dict.keys) (value : ν) :
    (dict.set key value).entries = dict.entries ++ [(key, value)] := if_neg hnew

/-- Items of different keys are entered one behind the other. -/
theorem entries_foldl_set {items : List (κ × ν)} {dict : OrderedDict κ ν}
    (hnodup : ((dict.entries ++ items).map Prod.fst).Nodup) :
    (items.foldl (fun dict item => dict.set item.1 item.2) dict).entries = dict.entries ++ items := by
  induction items generalizing dict with
  | nil => rw [List.foldl_nil, List.append_nil]
  | cons item rest ih =>
    have hnew : item.1 ∉ dict.keys := by
      rw [List.map_append, List.map_cons, List.nodup_append] at hnodup
      exact fun hmem => hnodup.2.2 _ hmem _ List.mem_cons_self rfl
    have hset := set_of_not_mem hnew item.2
    have hsplit : dict.entries ++ item :: rest = (dict.set item.1 item.2).entries ++ rest := by
      rw [hset, List.append_assoc]
      rfl
    rw [hsplit] at hnodup ⊢
    exact ih hnodup

theorem mem_set {dict : OrderedDict κ ν} {key : κ} {value : ν} {entry : κ × ν} :
    entry ∈ (dict.set key value).entries ↔ entry = (key, value) ∨ entry.1 ≠ key ∧ entry ∈ dict.entries := by
  rw [set]
  by_cases hkey : key ∈ dict.keys
  · simp only [if_pos hkey, List.mem_map]
    constructor
    · rintro ⟨old, hold, rfl⟩
      by_cases hsame : old.1 = key
      · exact .inl (if_pos hsame)
      · rw [if_neg hsame]
        exact .inr ⟨hsame, hold⟩
    · rintro (rfl | ⟨hne, hmem⟩)
      · obtain ⟨old, hold⟩ := mem_keys.mp hkey
        exact ⟨_, hold, if_pos rfl⟩
      · exact ⟨entry, hmem, if_neg hne⟩
  · simp only [if_neg hkey, List.mem_append, List.mem_singleton]
    constructor
    · rintro (hmem | rfl)
      · refine .inr ⟨?_, hmem⟩
        rintro rfl
        exact hkey (List.mem_map_of_mem hmem)
      · exact .inl rfl
    · rintro (rfl | ⟨_, hmem⟩)
      · exact .inr rfl
      · exact .inl hmem

@[simp] theorem mem_keys_set {dict : OrderedDict κ ν} {key other : κ} {value : ν} :
    other ∈ (dict.set key value).keys ↔ other = key ∨ other ∈ dict.keys := by
  simp only [mem_keys, mem_set]
  constructor
  · rintro ⟨found, hsame | ⟨_, hmem⟩⟩
    · exact .inl (congrArg Prod.fst hsame)
    · exact .inr ⟨found, hmem⟩
  · rintro (rfl | ⟨found, hmem⟩)
    · exact ⟨value, .inl rfl⟩
    · by_cases hsame : other = key
      · exact ⟨value, .inl (by rw [hsame])⟩
      · exact ⟨found, .inr ⟨hsame, hmem⟩⟩

/-- `dict.pop(key)`, for a key that may be missing. -/
def erase (dict : OrderedDict κ ν) (key : κ) : OrderedDict κ ν where
  entries := dict.entries.filter fun entry => entry.1 ≠ key
  nodup := dict.nodup.sublist (List.filter_sublist.map _)

theorem mem_erase {dict : OrderedDict κ ν} {key : κ} {entry : κ × ν} :
    entry ∈ (dict.erase key).entries ↔ entry.1 ≠ key ∧ entry ∈ dict.entries := by
  simp only [erase, List.mem_filter, decide_eq_true_eq]
  exact and_comm

@[simp] theorem mem_keys_erase {dict : OrderedDict κ ν} {key other : κ} :
    other ∈ (dict.erase key).keys ↔ other ≠ key ∧ other ∈ dict.keys := by
  simp only [mem_keys, mem_erase]
  exact exists_and_left

/-- `dict.setdefault(key, value)`. -/
def setDefault (dict : OrderedDict κ ν) (key : κ) (value : ν) : OrderedDict κ ν :=
  if key ∈ dict.keys then dict else dict.set key value

theorem mem_of_mem_setDefault {dict : OrderedDict κ ν} {key : κ} {value : ν} {entry : κ × ν}
    (hentry : entry ∈ (dict.setDefault key value).entries) : entry = (key, value) ∨ entry ∈ dict.entries := by
  unfold setDefault at hentry
  split at hentry
  · exact .inr hentry
  · exact (mem_set.mp hentry).imp_right And.right

theorem get_eq_some_iff {dict : OrderedDict κ ν} {key : κ} {value : ν} :
    dict.get key = some value ↔ (key, value) ∈ dict.entries := ⟨mem_of_get, get_of_mem⟩

@[simp] theorem get_empty (key : κ) : (empty : OrderedDict κ ν).get key = none := rfl

theorem get_eq_none_iff {dict : OrderedDict κ ν} {key : κ} : dict.get key = none ↔ key ∉ dict.keys := by
  rw [mem_keys, not_exists, Option.eq_none_iff_forall_ne_some]
  exact forall_congr' fun value => not_congr get_eq_some_iff

theorem get_set (dict : OrderedDict κ ν) (key other : κ) (value : ν) :
    (dict.set key value).get other = if other = key then some value else dict.get other := by
  ext found
  rw [get_eq_some_iff, mem_set]
  by_cases hkey : other = key
  · subst hkey
    simp [eq_comm]
  · simp [hkey, get_eq_some_iff]

theorem keys_set (dict : OrderedDict κ ν) (key : κ) (value : ν) :
    (dict.set key value).keys = if key ∈ dict.keys then dict.keys else dict.keys ++ [key] := by
  have hsame : Prod.fst ∘ (fun entry : κ × ν => if entry.1 = key then (key, value) else entry) = Prod.fst := by
    funext entry
    rw [Function.comp_apply]
    split
    · next hkey => exact hkey.symm
    · rfl
  rw [keys, set]
  by_cases hkey : key ∈ dict.keys
  · simp only [if_pos hkey]
    rw [List.map_map, hsame, keys]
  · simp only [if_neg hkey]
    rw [List.map_append, keys]
    rfl

theorem get_erase (dict : OrderedDict κ ν) (key other : κ) :
    (dict.erase key).get other = if other = key then none else dict.get other := by
  ext found
  rw [get_eq_some_iff, mem_erase]
  by_cases hkey : other = key
  · simp [hkey]
  · simp [hkey, get_eq_some_iff]

theorem get_setDefault (dict : OrderedDict κ ν) (key other : κ) (value : ν) :
    (dict.setDefault key value).get other =
      if other = key then some ((dict.get key).getD value) else dict.get other := by
  rw [setDefault]
  by_cases hkey : key ∈ dict.keys
  · obtain ⟨held, hheld⟩ := mem_keys.mp hkey
    rw [if_pos hkey, get_of_mem hheld]
    by_cases hother : other = key
    · rw [if_pos hother, hother, get_of_mem hheld, Option.getD_some]
    · rw [if_neg hother]
  · rw [if_neg hkey, get_set, get_eq_none_iff.mpr hkey, Option.getD_none]

/-- What is entered for the items of a list, where nothing is there under their keys. -/
theorem get_setDefaults {α : Type} (key : α → κ) (items : List α) (dict : OrderedDict κ α) (other : κ) :
    (items.foldl (fun dict item => dict.setDefault (key item) item) dict).get other =
      (dict.get other).or (items.find? fun item => key item = other) := by
  induction items generalizing dict with
  | nil => simp
  | cons item items ih =>
    rw [List.foldl_cons, ih, get_setDefault]
    by_cases hother : other = key item
    · rw [if_pos hother, List.find?_cons_of_pos (by simp [hother]), hother]
      cases dict.get (key item) with
      | none => rfl
      | some held => rfl
    · rw [if_neg hother, List.find?_cons_of_neg (by simpa using fun h => hother h.symm)]

/-- Dictionaries that read alike have the same values. -/
theorem values_perm {dict dict' : OrderedDict κ ν} (hget : ∀ key, dict.get key = dict'.get key) :
    dict.values.Perm dict'.values := by
  have hentries : dict.entries.Perm dict'.entries := by
    rw [List.perm_ext_iff_of_nodup dict.nodup.of_map dict'.nodup.of_map]
    rintro ⟨key, value⟩
    rw [← get_eq_some_iff, ← get_eq_some_iff, hget key]
  exact hentries.map _

/-- The keys of a list are popped. -/
def eraseAll (dict : OrderedDict κ ν) (keys : List κ) : OrderedDict κ ν := keys.foldl erase dict

theorem mem_eraseAll {dict : OrderedDict κ ν} {keys : List κ} {entry : κ × ν} :
    entry ∈ (dict.eraseAll keys).entries ↔ entry.1 ∉ keys ∧ entry ∈ dict.entries := by
  induction keys generalizing dict with
  | nil => simp [eraseAll]
  | cons key rest ih =>
    rw [eraseAll, List.foldl_cons, ← eraseAll, ih, mem_erase, List.mem_cons, not_or]
    tauto

end OrderedDict
