import Mathlib.Data.List.Sort
import Mathlib.Data.List.Nodup

namespace sorting

variable {α β κ ι : Type} [LinearOrder κ] [LinearOrder ι]

/-- The stable sort of a list by a key, as Python's `sorted(…, key=…)`. -/
def sorted (key : α → κ) (items : List α) : List α :=
  items.insertionSort fun a b => key a ≤ key b

instance total_key (key : α → κ) : Std.Total fun a b => key a ≤ key b := ⟨fun a b => le_total (key a) (key b)⟩

instance trans_key (key : α → κ) : IsTrans α fun a b => key a ≤ key b := ⟨fun _ _ _ => le_trans⟩

theorem sorted_perm (key : α → κ) (items : List α) : (sorted key items).Perm items :=
  List.perm_insertionSort _ items

@[simp] theorem length_sorted (key : α → κ) (items : List α) :
    (sorted key items).length = items.length := List.length_insertionSort _ items

@[simp] theorem mem_sorted {key : α → κ} {items : List α} {a : α} :
    a ∈ sorted key items ↔ a ∈ items := List.mem_insertionSort _

theorem pairwise_sorted (key : α → κ) (items : List α) :
    (sorted key items).Pairwise fun a b => key a ≤ key b := List.pairwise_insertionSort _ items

theorem sorted_cons (key : α → κ) (a : α) (items : List α) :
    sorted key (a :: items) = (sorted key items).orderedInsert (fun a b => key a ≤ key b) a := rfl

theorem sorted_map (key : β → κ) (f : α → β) (items : List α) :
    sorted key (items.map f) = (sorted (fun a => key (f a)) items).map f := by
  symm
  apply List.map_insertionSort
  intro a _ b _
  rfl

theorem orderedInsert_congr {r s : α → α → Prop} [DecidableRel r] [DecidableRel s] {a : α}
    {items : List α} (hagree : ∀ b ∈ items, (r a b ↔ s a b)) :
    items.orderedInsert r a = items.orderedInsert s a := by
  induction items with
  | nil => rfl
  | cons b rest ih =>
    rw [List.forall_mem_cons] at hagree
    rw [List.orderedInsert_cons, List.orderedInsert_cons, ih hagree.2]
    exact if_congr hagree.1 rfl rfl

/-- Two keys that order every item the same way against the items after it give
the same stable sort. -/
theorem sorted_congr {key : α → κ} {key' : α → ι} {items : List α}
    (hagree : items.Pairwise fun a b => (key a ≤ key b ↔ key' a ≤ key' b)) :
    sorted key items = sorted key' items := by
  induction hagree with
  | nil => rfl
  | cons hhead _ ih =>
    rw [sorted_cons, sorted_cons, ih]
    apply orderedInsert_congr
    intro b hb
    exact hhead b (mem_sorted.mp hb)

/-- A stable sort tells for each item whether its key exceeds that of a later
one, so that keys with the same sort agree on this. -/
theorem le_iff_le_of_sorted_eq {key : α → κ} {key' : α → ι} {items : List α}
    (hsorted : sorted key items = sorted key' items) {a b : α} (hpair : [a, b].Sublist items) :
    key a ≤ key b ↔ key' a ≤ key' b := by
  constructor
  · intro hle
    have hkept : [a, b].Sublist (sorted key' items) :=
      hsorted ▸ List.pair_sublist_insertionSort hle hpair
    have hordered := (pairwise_sorted key' items).sublist hkept
    rwa [List.pairwise_pair] at hordered
  · intro hle
    have hkept : [a, b].Sublist (sorted key items) :=
      hsorted ▸ List.pair_sublist_insertionSort hle hpair
    have hordered := (pairwise_sorted key items).sublist hkept
    rwa [List.pairwise_pair] at hordered

theorem sorted_eq_iff {key : α → κ} {key' : α → ι} {items : List α} :
    sorted key items = sorted key' items ↔
      items.Pairwise fun a b => (key a ≤ key b ↔ key' a ≤ key' b) := by
  constructor
  · intro hsorted
    rw [List.pairwise_iff_forall_sublist]
    intro a b hpair
    exact le_iff_le_of_sorted_eq hsorted hpair
  · exact sorted_congr

section Distinct

variable {key : α → κ}

/-- Items with different keys have one sorted order. -/
theorem eq_sorted_of_perm {items ordered : List α} (hkeys : (items.map key).Nodup)
    (hperm : ordered.Perm items) (hordered : ordered.Pairwise fun a b => key a ≤ key b) :
    ordered = sorted key items := by
  apply (hperm.trans (sorted_perm key items).symm).eq_of_pairwise _ hordered
    (pairwise_sorted key items)
  intro a b ha hb hab hba
  exact List.inj_on_of_nodup_map hkeys (hperm.mem_iff.mp ha) (mem_sorted.mp hb) (le_antisymm hab hba)

theorem sorted_eq_of_perm {items items' : List α} (hkeys : (items.map key).Nodup)
    (hperm : items'.Perm items) : sorted key items' = sorted key items :=
  eq_sorted_of_perm hkeys ((sorted_perm key items').trans hperm) (pairwise_sorted key items')

theorem sorted_append {near far : List α} (hkeys : ((near ++ far).map key).Nodup)
    (hnear : ∀ a ∈ near, ∀ b ∈ far, key a < key b) :
    sorted key (near ++ far) = sorted key near ++ sorted key far := by
  symm
  apply eq_sorted_of_perm hkeys ((sorted_perm key near).append (sorted_perm key far))
  rw [List.pairwise_append]
  refine ⟨pairwise_sorted key near, pairwise_sorted key far, ?_⟩
  intro a ha b hb
  exact le_of_lt (hnear a (mem_sorted.mp ha) b (mem_sorted.mp hb))

theorem pairwise_lt_sorted {items : List α} (hkeys : (items.map key).Nodup) :
    (sorted key items).Pairwise fun a b => key a < key b := by
  have hdistinct := ((sorted_perm key items).map key).nodup_iff.mpr hkeys
  rw [List.Nodup, List.pairwise_map] at hdistinct
  exact (pairwise_sorted key items).imp₂ (fun _ _ hle hne => lt_of_le_of_ne hle hne) hdistinct

/-- An item that is not among the first ones has a greater key. -/
theorem lt_of_notMem_take {items : List α} (hkeys : (items.map key).Nodup) {count : Nat} {a b : α}
    (ha : a ∈ (sorted key items).take count) (hb : b ∈ items)
    (hnot : b ∉ (sorted key items).take count) : key a < key b := by
  have hordered := pairwise_lt_sorted hkeys
  have hdrop : b ∈ (sorted key items).drop count := by
    have hmem : b ∈ sorted key items := mem_sorted.mpr hb
    rw [← List.take_append_drop count (sorted key items), List.mem_append] at hmem
    exact hmem.resolve_left hnot
  rw [← List.take_append_drop count (sorted key items), List.pairwise_append] at hordered
  exact hordered.2.2 a ha b hdrop

end Distinct

section First

variable {key : α → κ} {p : α → Bool}

theorem find?_orderedInsert {a : α} {items : List α} (hitems : items.Pairwise fun b c => key b ≤ key c) :
    (items.orderedInsert (fun b c => key b ≤ key c) a).find? p =
      if p a then
        match items.find? p with
        | some b => if key a ≤ key b then some a else some b
        | none => some a
      else items.find? p := by
  induction items with
  | nil =>
    rw [List.orderedInsert_nil, List.find?_cons]
    cases p a <;> rfl
  | cons b rest ih =>
    rw [List.pairwise_cons] at hitems
    rw [List.orderedInsert_cons]
    by_cases hle : key a ≤ key b
    · have hfirst : ∀ c, (b :: rest).find? p = some c → key a ≤ key c := by
        intro c hc
        rcases List.mem_cons.mp (List.mem_of_find?_eq_some hc) with rfl | hmem
        · exact hle
        · exact hle.trans (hitems.1 c hmem)
      rw [if_pos hle, List.find?_cons (a := a)]
      cases ha : p a with
      | false => rfl
      | true =>
        cases hfound : (b :: rest).find? p with
        | none => rfl
        | some c => simp only [if_true, if_pos (hfirst c hfound)]
    · rw [if_neg hle]
      cases hb : p b with
      | true =>
        rw [List.find?_cons_of_pos hb, List.find?_cons_of_pos hb]
        simp only [if_neg hle, ite_self]
      | false =>
        have hb' : ¬p b = true := by rw [hb]; exact Bool.false_ne_true
        rw [List.find?_cons_of_neg hb', List.find?_cons_of_neg hb', ih hitems.2]

/-- What a search finds in a sorted list has the least key of all that it looks for and stands,
among those of that key, first in the list before it was sorted. -/
theorem find?_sorted_eq_some {items : List α} {a : α} (hfound : (sorted key items).find? p = some a) :
    ∃ i : Nat, items[i]? = some a ∧
      ∀ (j : Nat) (b : α), items[j]? = some b → p b = true → key a < key b ∨ key a = key b ∧ i ≤ j := by
  induction items generalizing a with
  | nil => exact absurd hfound (by simp [sorted])
  | cons c rest ih =>
    rw [sorted_cons, find?_orderedInsert (pairwise_sorted key rest)] at hfound
    cases hc : p c with
    | false =>
      rw [hc, if_neg Bool.false_ne_true] at hfound
      obtain ⟨i, hi, hfirst⟩ := ih hfound
      refine ⟨i + 1, hi, ?_⟩
      rintro (_ | j) b hj hb
      · rw [List.getElem?_cons_zero, Option.some.injEq] at hj
        rw [← hj, hc] at hb
        exact absurd hb Bool.false_ne_true
      · exact (hfirst j b hj hb).imp_right fun hequal => ⟨hequal.1, Nat.succ_le_succ hequal.2⟩
    | true =>
      rw [hc, if_pos rfl] at hfound
      cases hrest : (sorted key rest).find? p with
      | none =>
        simp only [hrest, Option.some.injEq] at hfound
        refine ⟨0, congrArg some hfound, ?_⟩
        rintro (_ | j) b hj hb
        · rw [List.getElem?_cons_zero, Option.some.injEq] at hj
          exact Or.inr ⟨by rw [← hfound, hj], Nat.le_refl 0⟩
        · have hmem : b ∈ sorted key rest := mem_sorted.mpr (List.mem_of_getElem? hj)
          exact absurd hb (List.find?_eq_none.mp hrest b hmem)
      | some b' =>
        obtain ⟨i, hi, hfirst⟩ := ih hrest
        simp only [hrest] at hfound
        split_ifs at hfound with hle
        · rw [Option.some.injEq] at hfound
          refine ⟨0, congrArg some hfound, ?_⟩
          rintro (_ | j) b hj hb
          · rw [List.getElem?_cons_zero, Option.some.injEq] at hj
            exact Or.inr ⟨by rw [← hfound, hj], Nat.le_refl 0⟩
          · have hbehind : key b' ≤ key b := (hfirst j b hj hb).elim le_of_lt fun hequal => hequal.1.le
            rw [← hfound]
            exact (lt_or_eq_of_le (hle.trans hbehind)).imp_right fun hequal => ⟨hequal, Nat.zero_le _⟩
        · rw [Option.some.injEq] at hfound
          rw [← hfound]
          refine ⟨i + 1, hi, ?_⟩
          rintro (_ | j) b hj hb
          · rw [List.getElem?_cons_zero, Option.some.injEq] at hj
            exact Or.inl (hj ▸ lt_of_not_ge hle)
          · exact (hfirst j b hj hb).imp_right fun hequal => ⟨hequal.1, Nat.succ_le_succ hequal.2⟩

end First

section Positions

variable [DecidableEq α]

/-- The positions in a list without repetitions count its items in order. -/
theorem map_idxOf_self {items : List α} (hnodup : items.Nodup) :
    items.map (fun a => items.idxOf a) = List.range items.length := by
  apply List.ext_getElem
  · simp
  · intro i hi _
    simp only [List.length_map] at hi
    simp [hnodup.idxOf_getElem i hi]

theorem pairwise_idxOf {items : List α} (hnodup : items.Nodup) :
    items.Pairwise fun a b => items.idxOf a < items.idxOf b := by
  rw [List.pairwise_iff_getElem]
  intro i j hi hj hij
  rw [hnodup.idxOf_getElem i hi, hnodup.idxOf_getElem j hj]
  exact hij

/-- Of two items the earlier one is sorted before the later one unless its key is greater. -/
theorem idxOf_sorted_lt_iff {key : α → κ} {items : List α} (hnodup : items.Nodup) {a b : α}
    (hpair : [a, b].Sublist items) : (sorted key items).idxOf a < (sorted key items).idxOf b ↔ key a ≤ key b := by
  have hsorted : (sorted key items).Nodup := (sorted_perm key items).nodup_iff.mpr hnodup
  constructor
  · intro hless
    have hb : b ∈ sorted key items := mem_sorted.mpr (hpair.subset (by simp))
    have hlast := List.idxOf_lt_length_of_mem hb
    have hordered := List.pairwise_iff_getElem.mp (pairwise_sorted key items) _ _ (hless.trans hlast) hlast hless
    rwa [List.getElem_idxOf, List.getElem_idxOf] at hordered
  · intro hle
    have hkept : [a, b].Sublist (sorted key items) := List.pair_sublist_insertionSort hle hpair
    have hordered := (pairwise_idxOf hsorted).sublist hkept
    rwa [List.pairwise_pair] at hordered

end Positions

/-- Lists of items that a function tells apart are equal when their images are. -/
theorem eq_of_map_eq {f : α → β} {items left right : List α}
    (hinjective : ∀ ⦃a⦄, a ∈ items → ∀ ⦃b⦄, b ∈ items → f a = f b → a = b)
    (hleft : left ⊆ items) (hright : right ⊆ items) (hmap : left.map f = right.map f) :
    left = right := by
  have hlength : left.length = right.length := by
    simpa only [List.length_map] using congrArg List.length hmap
  apply List.ext_getElem hlength
  intro i hi hi'
  apply hinjective (hleft (List.getElem_mem hi)) (hright (List.getElem_mem hi'))
  have hget := List.getElem_of_eq hmap (i := i) (by simpa using hi)
  simpa only [List.getElem_map] using hget

end sorting
