import Mathlib.Data.List.AList
import Mathlib.Data.List.Induction

/-- A finite map, built up and taken apart by assignments. -/
structure Dict (κ ν : Type) where
  table : AList fun _ : κ => ν

namespace Dict

variable {κ ν : Type} [DecidableEq κ]

def empty : Dict κ ν := ⟨∅⟩

def get (dict : Dict κ ν) (key : κ) : Option ν := dict.table.lookup key

/-- `dict[key] = value`. -/
def set (dict : Dict κ ν) (key : κ) (value : ν) : Dict κ ν := ⟨dict.table.insert key value⟩

/-- `del dict[key]`, for a key that may be missing. -/
def erase (dict : Dict κ ν) (key : κ) : Dict κ ν := ⟨dict.table.erase key⟩

@[simp] theorem get_empty (key : κ) : (empty : Dict κ ν).get key = none := AList.lookup_empty key

@[simp] theorem get_set_self (dict : Dict κ ν) (key : κ) (value : ν) :
    (dict.set key value).get key = some value := AList.lookup_insert dict.table

theorem get_set_of_ne {key other : κ} (hne : key ≠ other) (dict : Dict κ ν) (value : ν) :
    (dict.set other value).get key = dict.get key := AList.lookup_insert_ne hne

theorem get_set_ne_none {dict : Dict κ ν} {key other : κ} {value : ν} (hthere : dict.get key ≠ none) :
    (dict.set other value).get key ≠ none := by
  by_cases hkey : key = other
  · rw [hkey, get_set_self]
    exact Option.some_ne_none value
  · rwa [get_set_of_ne hkey]

theorem get_set_eq_some_iff {dict : Dict κ ν} {key other : κ} {value found : ν} :
    (dict.set key value).get other = some found ↔
      other = key ∧ found = value ∨ other ≠ key ∧ dict.get other = some found := by
  by_cases hkey : other = key
  · subst hkey
    simp [eq_comm]
  · simp [get_set_of_ne hkey, hkey]

@[simp] theorem get_erase_self (dict : Dict κ ν) (key : κ) : (dict.erase key).get key = none :=
  AList.lookup_erase key dict.table

theorem get_erase_of_ne {key other : κ} (hne : key ≠ other) (dict : Dict κ ν) :
    (dict.erase other).get key = dict.get key := AList.lookup_erase_ne hne

/-- The dictionary that a list of assignments makes of a given one. -/
def assign (start : Dict κ ν) (items : List (κ × ν)) : Dict κ ν :=
  items.foldl (fun dict item => dict.set item.1 item.2) start

/-- The dictionary of a list of assignments. -/
def ofList (items : List (κ × ν)) : Dict κ ν := empty.assign items

theorem get_assign_of_not_mem {start : Dict κ ν} {items : List (κ × ν)} {key : κ}
    (hkey : key ∉ items.map Prod.fst) : (start.assign items).get key = start.get key := by
  induction items generalizing start with
  | nil => rfl
  | cons item rest ih =>
    simp only [List.map_cons, List.mem_cons, not_or] at hkey
    rw [← get_set_of_ne hkey.1 start item.2]
    exact ih hkey.2

/-- Where no key is assigned twice, each assignment can be read back. -/
theorem get_assign_of_mem {start : Dict κ ν} {items : List (κ × ν)}
    (hnodup : (items.map Prod.fst).Nodup) {key : κ} {value : ν} (hmem : (key, value) ∈ items) :
    (start.assign items).get key = some value := by
  induction items generalizing start with
  | nil => cases hmem
  | cons item rest ih =>
    rw [List.map_cons, List.nodup_cons] at hnodup
    rcases List.mem_cons.mp hmem with rfl | hrest
    · exact (get_assign_of_not_mem hnodup.1).trans (get_set_self start key value)
    · exact ih hnodup.2 hrest

/-- Where a key is never given two values, each assignment can be read back. -/
theorem get_assign_of_consistent {start : Dict κ ν} {items : List (κ × ν)}
    (hsame : ∀ item ∈ items, ∀ other ∈ items, item.1 = other.1 → item.2 = other.2) {key : κ} {value : ν}
    (hmem : (key, value) ∈ items) : (start.assign items).get key = some value := by
  induction items generalizing start with
  | nil => cases hmem
  | cons item rest ih =>
    have hrest : ∀ item ∈ rest, ∀ other ∈ rest, item.1 = other.1 → item.2 = other.2 := by
      intro one hone other hother
      exact hsame one (List.mem_cons_of_mem item hone) other (List.mem_cons_of_mem item hother)
    by_cases hlater : (key, value) ∈ rest
    · exact ih hrest hlater
    · have hfirst : (key, value) = item := (List.mem_cons.mp hmem).resolve_right hlater
      have hnew : key ∉ rest.map Prod.fst := by
        intro hagain
        obtain ⟨other, hother, hkey⟩ := List.mem_map.mp hagain
        have hvalue := hsame item List.mem_cons_self other (List.mem_cons_of_mem item hother)
          (by rw [← hfirst, hkey])
        rw [← hfirst] at hvalue
        apply hlater
        have hpair : (key, value) = other := Prod.ext hkey.symm hvalue
        rw [hpair]
        exact hother
      rw [← hfirst]
      exact (get_assign_of_not_mem hnew).trans (get_set_self start key value)

/-- The keys with their values. -/
def items (dict : Dict κ ν) : List (κ × ν) := dict.table.entries.map fun entry => (entry.1, entry.2)

theorem mem_items_iff {dict : Dict κ ν} {key : κ} {value : ν} :
    (key, value) ∈ dict.items ↔ dict.get key = some value := by
  rw [get, items, List.mem_map]
  constructor
  · rintro ⟨entry, hentry, hpair⟩
    cases hpair
    exact AList.mem_lookup_iff.mpr hentry
  · intro hlookup
    exact ⟨⟨key, value⟩, AList.mem_lookup_iff.mp hlookup, rfl⟩

omit [DecidableEq κ] in
theorem nodup_keys_items (dict : Dict κ ν) : (dict.items.map Prod.fst).Nodup := by
  rw [items, List.map_map]
  exact AList.keys_nodup dict.table

/-- `del dict[key]` for each key of a list. -/
def eraseAll (dict : Dict κ ν) (keys : List κ) : Dict κ ν := keys.foldl erase dict

theorem get_eraseAll (dict : Dict κ ν) (keys : List κ) (key : κ) :
    (dict.eraseAll keys).get key = if key ∈ keys then none else dict.get key := by
  induction keys generalizing dict with
  | nil => simp [eraseAll]
  | cons first rest ih =>
    have hrest : (dict.eraseAll (first :: rest)).get key = ((dict.erase first).eraseAll rest).get key := rfl
    rw [hrest, ih]
    by_cases hmem : key ∈ rest
    · simp [hmem]
    · by_cases hfirst : key = first
      · subst hfirst
        simp
      · simp [hmem, hfirst, get_erase_of_ne hfirst]

/-- The keys whose values meet a condition. -/
def keysWhere (dict : Dict κ ν) (condition : ν → Bool) : List κ :=
  (dict.items.filter fun item => condition item.2).map Prod.fst

theorem mem_keysWhere_iff {dict : Dict κ ν} {condition : ν → Bool} {key : κ} :
    key ∈ dict.keysWhere condition ↔ ∃ value, dict.get key = some value ∧ condition value = true := by
  rw [keysWhere, List.mem_map]
  constructor
  · rintro ⟨item, hitem, rfl⟩
    obtain ⟨hmem, hcondition⟩ := List.mem_filter.mp hitem
    exact ⟨item.2, mem_items_iff.mp hmem, hcondition⟩
  · rintro ⟨value, hget, hcondition⟩
    exact ⟨(key, value), List.mem_filter.mpr ⟨mem_items_iff.mpr hget, hcondition⟩, rfl⟩

/-- What meets a condition is deleted, and nothing else. -/
theorem get_eraseAll_keysWhere_iff {dict : Dict κ ν} {condition : ν → Bool} {key : κ} {value : ν} :
    (dict.eraseAll (dict.keysWhere condition)).get key = some value ↔
      dict.get key = some value ∧ condition value = false := by
  rw [get_eraseAll]
  by_cases hmem : key ∈ dict.keysWhere condition
  · obtain ⟨found, hget, hcondition⟩ := mem_keysWhere_iff.mp hmem
    rw [if_pos hmem, hget]
    refine iff_of_false (by simp) ?_
    rintro ⟨hfound, hother⟩
    cases hfound
    rw [hcondition] at hother
    cases hother
  · rw [if_neg hmem]
    constructor
    · intro hget
      refine ⟨hget, ?_⟩
      cases hcondition : condition value with
      | false => rfl
      | true => exact absurd (mem_keysWhere_iff.mpr ⟨value, hget, hcondition⟩) hmem
    · exact And.left

theorem get_ofList_of_mem {items : List (κ × ν)} (hnodup : (items.map Prod.fst).Nodup)
    {key : κ} {value : ν} (hmem : (key, value) ∈ items) : (ofList items).get key = some value :=
  get_assign_of_mem hnodup hmem

theorem get_ofList_of_not_mem {items : List (κ × ν)} {key : κ}
    (hkey : key ∉ items.map Prod.fst) : (ofList items).get key = none := by
  rw [ofList, get_assign_of_not_mem hkey, get_empty]

end Dict
