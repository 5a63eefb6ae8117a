import Mathlib.Data.List.Lex
import Mathlib.Order.Lattice
import Mathlib.Tactic.Tauto

/-! A dictionary as the list of its entries in the order of their keys, for values that hold dictionaries in turn. -/

namespace sorteddict

variable {κ ν : Type} [LinearOrder κ]

def find (entries : List (κ × ν)) (key : κ) : Option ν :=
  match entries with
  | [] => none
  | entry :: rest => if entry.1 = key then some entry.2 else find rest key

/-- `entries[key] = value`. -/
def insert (entries : List (κ × ν)) (key : κ) (value : ν) : List (κ × ν) :=
  match entries with
  | [] => [(key, value)]
  | entry :: rest =>
    if entry.1 = key then (key, value) :: rest
    else if key < entry.1 then (key, value) :: entry :: rest
    else entry :: insert rest key value

def ofList (items : List (κ × ν)) : List (κ × ν) := items.foldl (fun entries item => insert entries item.1 item.2) []

def Sorted (entries : List (κ × ν)) : Prop := entries.Pairwise fun entry later => entry.1 < later.1

section Reading

variable {entries : List (κ × ν)} {key other : κ} {value : ν}

theorem find_insert (entries : List (κ × ν)) (key other : κ) (value : ν) :
    find (insert entries key value) other = if other = key then some value else find entries other := by
  induction entries with
  | nil =>
    rw [insert, find, find, find]
    simp only [eq_comm]
  | cons entry rest ih =>
    by_cases hother : other = key
    · subst hother
      rw [if_pos rfl] at ih ⊢
      rw [insert]
      split_ifs with hkey hbefore
      · exact if_pos rfl
      · exact if_pos rfl
      · rw [find, if_neg hkey, ih]
    · rw [if_neg hother] at ih ⊢
      rw [insert]
      split_ifs with hkey hbefore
      · rw [find, if_neg (Ne.symm hother), find, if_neg fun heq => hother (heq.symm.trans hkey)]
      · rw [find, if_neg (Ne.symm hother)]
      · rw [find, find, ih]

@[simp] theorem find_insert_self (entries : List (κ × ν)) (key : κ) (value : ν) :
    find (insert entries key value) key = some value := by
  rw [find_insert, if_pos rfl]

theorem find_insert_of_ne (hother : other ≠ key) (entries : List (κ × ν)) (value : ν) :
    find (insert entries key value) other = find entries other := by
  rw [find_insert, if_neg hother]

theorem mem_of_find (hfind : find entries key = some value) : (key, value) ∈ entries := by
  induction entries with
  | nil => cases hfind
  | cons entry rest ih =>
    rw [find] at hfind
    split_ifs at hfind with hkey
    · cases hfind
      rw [← hkey]
      exact List.mem_cons_self
    · exact List.mem_cons_of_mem entry (ih hfind)

theorem find_eq_none_of_forall_ne (hnone : ∀ entry ∈ entries, entry.1 ≠ key) : find entries key = none := by
  induction entries with
  | nil => rfl
  | cons entry rest ih =>
    rw [List.forall_mem_cons] at hnone
    rw [find, if_neg hnone.1, ih hnone.2]

theorem mem_insert {entry : κ × ν} (hentry : entry ∈ insert entries key value) :
    entry = (key, value) ∨ entry ∈ entries := by
  induction entries with
  | nil => exact .inl (List.mem_singleton.mp hentry)
  | cons first rest ih =>
    rw [insert] at hentry
    split_ifs at hentry with hkey hbefore
    · exact (List.mem_cons.mp hentry).imp_right (List.mem_cons_of_mem first)
    · exact List.mem_cons.mp hentry
    · rcases List.mem_cons.mp hentry with rfl | hrest
      · exact .inr List.mem_cons_self
      · exact (ih hrest).imp_right (List.mem_cons_of_mem first)

end Reading

section Order

variable {entries others : List (κ × ν)} {key : κ} {value : ν}

theorem Sorted.insert (hsorted : Sorted entries) (key : κ) (value : ν) : Sorted (insert entries key value) := by
  induction entries with
  | nil => exact List.pairwise_singleton _ _
  | cons entry rest ih =>
    obtain ⟨hfirst, hrest⟩ := List.pairwise_cons.mp hsorted
    rw [sorteddict.insert]
    split_ifs with hkey hbefore
    · exact List.pairwise_cons.mpr ⟨fun later hlater => hkey ▸ hfirst later hlater, hrest⟩
    · refine List.pairwise_cons.mpr ⟨?_, hsorted⟩
      rw [List.forall_mem_cons]
      exact ⟨hbefore, fun later hlater => hbefore.trans (hfirst later hlater)⟩
    · refine List.pairwise_cons.mpr ⟨fun later hlater => ?_, ih hrest⟩
      rcases mem_insert hlater with rfl | hthere
      · exact lt_of_le_of_ne (not_lt.mp hbefore) hkey
      · exact hfirst later hthere

theorem sorted_ofList (items : List (κ × ν)) : Sorted (ofList items) := by
  have hfold : ∀ start : List (κ × ν), Sorted start →
      Sorted (items.foldl (fun entries item => insert entries item.1 item.2) start) := by
    induction items with
    | nil => exact fun start hstart => hstart
    | cons item rest ih => exact fun start hstart => ih _ (hstart.insert item.1 item.2)
  exact hfold [] List.Pairwise.nil

theorem mem_ofList {items : List (κ × ν)} {entry : κ × ν} (hentry : entry ∈ ofList items) : entry ∈ items := by
  have hfold : ∀ start : List (κ × ν),
      entry ∈ items.foldl (fun entries item => insert entries item.1 item.2) start → entry ∈ start ∨ entry ∈ items := by
    clear hentry
    induction items with
    | nil => exact fun start hstart => .inl hstart
    | cons item rest ih =>
      intro start hfolded
      rcases ih _ hfolded with hinserted | hrest
      · rcases mem_insert hinserted with rfl | hstart
        · exact .inr List.mem_cons_self
        · exact .inl hstart
      · exact .inr (List.mem_cons_of_mem item hrest)
  exact (hfold [] hentry).resolve_left List.not_mem_nil

theorem Sorted.nodup_keys (hsorted : Sorted entries) : (entries.map Prod.fst).Nodup := by
  rw [List.Nodup, List.pairwise_map]
  exact hsorted.imp fun hlt => hlt.ne

/-- The items of a literal with different keys are read. -/
theorem find_ofList {items : List (κ × ν)} (hnodup : (items.map Prod.fst).Nodup) (hmem : (key, value) ∈ items) :
    find (ofList items) key = some value := by
  have hfold : ∀ start : List (κ × ν), find start key = some value ∨ (key, value) ∈ items →
      (key ∈ items.map Prod.fst → (key, value) ∈ items) →
      find (items.foldl (fun entries item => insert entries item.1 item.2) start) key = some value := by
    clear hmem
    induction items with
    | nil => exact fun start hstart _ => hstart.resolve_right List.not_mem_nil
    | cons item rest ih =>
      intro start hstart hthere
      rw [List.map_cons, List.nodup_cons] at hnodup
      refine ih hnodup.2 _ ?_ fun hkey => ?_
      · by_cases hkey : key = item.1
        · have hitem := List.mem_cons.mp (hthere (hkey ▸ List.mem_cons_self))
          rcases hitem with rfl | hrest
          · exact .inl (find_insert_self start _ _)
          · exact .inr hrest
        · rw [find_insert_of_ne hkey]
          refine hstart.imp_right fun hmem => (List.mem_cons.mp hmem).resolve_left ?_
          rintro rfl
          exact hkey rfl
      · refine (List.mem_cons.mp (hthere (List.mem_cons_of_mem _ hkey))).resolve_left ?_
        rintro rfl
        exact hnodup.1 hkey
  exact hfold [] (.inr hmem) fun _ => hmem

theorem Sorted.find_head {entry : κ × ν} (hsorted : Sorted (entry :: entries)) : find entries entry.1 = none :=
  find_eq_none_of_forall_ne fun later hlater => ((List.pairwise_cons.mp hsorted).1 later hlater).ne'

/-- A key in front of the first one is not there. -/
theorem Sorted.find_before {entry : κ × ν} (hsorted : Sorted (entry :: entries)) (hbefore : key < entry.1) :
    find (entry :: entries) key = none := by
  apply find_eq_none_of_forall_ne
  rw [List.forall_mem_cons]
  exact ⟨hbefore.ne', fun later hlater => (hbefore.trans ((List.pairwise_cons.mp hsorted).1 later hlater)).ne'⟩

/-- Dictionaries that read alike are the same. -/
theorem Sorted.ext (hsorted : Sorted entries) (hothers : Sorted others)
    (hfind : ∀ key, find entries key = find others key) : entries = others := by
  induction entries generalizing others with
  | nil =>
    cases others with
    | nil => rfl
    | cons other rest =>
      have hnone := hfind other.1
      rw [find, find, if_pos rfl] at hnone
      cases hnone
  | cons entry rest ih =>
    have hfirst : find (entry :: rest) entry.1 = some entry.2 := if_pos rfl
    cases others with
    | nil =>
      rw [hfind] at hfirst
      cases hfirst
    | cons other rest' =>
      have hother : find (other :: rest') other.1 = some other.2 := if_pos rfl
      have hkeys : entry.1 = other.1 := by
        rcases lt_trichotomy entry.1 other.1 with hlt | heq | hgt
        · rw [hfind, hothers.find_before hlt] at hfirst
          cases hfirst
        · exact heq
        · rw [← hfind, hsorted.find_before hgt] at hother
          cases hother
      have hvalues : entry.2 = other.2 := by
        rw [hfind, hkeys, hother, Option.some.injEq] at hfirst
        exact hfirst.symm
      have hrest : rest = rest' := by
        apply ih (List.pairwise_cons.mp hsorted).2 (List.pairwise_cons.mp hothers).2
        intro key
        by_cases hkey : entry.1 = key
        · rw [← hkey, hsorted.find_head, hkeys, hothers.find_head]
        · have hsame := hfind key
          rwa [find, if_neg hkey, find, if_neg (hkeys ▸ hkey)] at hsame
      rw [hrest, Prod.ext hkeys hvalues]

theorem insert_insert (entries : List (κ × ν)) (key : κ) (value later : ν) :
    insert (insert entries key value) key later = insert entries key later := by
  induction entries with
  | nil => exact if_pos rfl
  | cons entry rest ih =>
    rw [insert, insert]
    split_ifs with hkey hbefore
    · rw [insert, if_pos rfl]
    · rw [insert, if_pos rfl]
    · rw [insert, if_neg hkey, if_neg hbefore, ih]

/-- What is there already is not changed. -/
theorem Sorted.insert_self (hsorted : Sorted entries) (hfind : find entries key = some value) :
    sorteddict.insert entries key value = entries := by
  apply (hsorted.insert key value).ext hsorted
  intro other
  rw [find_insert]
  split_ifs with hother
  · rw [hother, hfind]
  · rfl

end Order

end sorteddict
