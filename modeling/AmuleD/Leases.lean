import Mathlib.Data.Finset.SDiff
import Mathlib.Data.Finset.Union

namespace leasing

variable {ι α : Type} {apart : α → α → Prop} {registry items : Finset α} {held : ι → Finset α} {owner : ι}

/-- One registry for what several owners hold: it has an item exactly if some owner holds it, and the items
of different owners are apart. -/
structure Leased (apart : α → α → Prop) (registry : Finset α) (held : ι → Finset α) : Prop where
  mem_iff : ∀ item, item ∈ registry ↔ ∃ owner, item ∈ held owner
  exclusive : ∀ owner other, owner ≠ other → ∀ item ∈ held owner, ∀ taken ∈ held other, apart item taken

theorem leased_empty (apart : α → α → Prop) : Leased apart ∅ fun _ : ι => ∅ := by
  refine ⟨fun item => ?_, fun _ _ _ item hitem => absurd hitem (Finset.notMem_empty item)⟩
  simp only [Finset.notMem_empty, exists_false]

/-- Where nobody holds anything the registry is empty. -/
theorem Leased.eq_empty (h : Leased apart registry held) (hnone : ∀ owner, held owner = ∅) : registry = ∅ := by
  rw [Finset.eq_empty_iff_forall_notMem]
  intro item hitem
  obtain ⟨owner, hholds⟩ := (h.mem_iff item).mp hitem
  rw [hnone owner] at hholds
  exact Finset.notMem_empty item hholds

variable [DecidableEq ι] [DecidableEq α]

/-- An owner takes items that are apart from everything in the registry. -/
theorem Leased.issue (h : Leased apart registry held) (hsymm : ∀ item taken, apart item taken → apart taken item)
    (hfresh : ∀ item ∈ items, ∀ taken ∈ registry, apart item taken) (owner : ι) :
    Leased apart (registry ∪ items) (Function.update held owner (held owner ∪ items)) := by
  constructor
  · intro item
    rw [Finset.mem_union, h.mem_iff]
    constructor
    · rintro (⟨holder, hholds⟩ | hitem)
      · refine ⟨holder, ?_⟩
        by_cases howner : holder = owner
        · subst howner
          rw [Function.update_self]
          exact Finset.mem_union_left _ hholds
        · rwa [Function.update_of_ne howner]
      · refine ⟨owner, ?_⟩
        rw [Function.update_self]
        exact Finset.mem_union_right _ hitem
    · rintro ⟨holder, hholds⟩
      by_cases howner : holder = owner
      · rw [howner, Function.update_self, Finset.mem_union] at hholds
        exact hholds.imp_left fun hheld => ⟨owner, hheld⟩
      · rw [Function.update_of_ne howner] at hholds
        exact .inl ⟨holder, hholds⟩
  · -- Old items were apart before, and a new one is apart from everything that was registered.
    have hnew : ∀ other, other ≠ owner → ∀ item ∈ held owner ∪ items, ∀ taken ∈ held other, apart item taken := by
      intro other hother item hitem taken htaken
      rcases Finset.mem_union.mp hitem with hheld | hissued
      · exact h.exclusive owner other hother.symm item hheld taken htaken
      · exact hfresh item hissued taken ((h.mem_iff taken).mpr ⟨other, htaken⟩)
    intro first second hne item hitem taken htaken
    by_cases hfirst : first = owner
    · subst hfirst
      rw [Function.update_self] at hitem
      rw [Function.update_of_ne hne.symm] at htaken
      exact hnew second hne.symm item hitem taken htaken
    · rw [Function.update_of_ne hfirst] at hitem
      by_cases hsecond : second = owner
      · subst hsecond
        rw [Function.update_self] at htaken
        exact hsymm taken item (hnew first hne taken htaken item hitem)
      · rw [Function.update_of_ne hsecond] at htaken
        exact h.exclusive first second hne item hitem taken htaken

/-- An owner gives back all it holds; no other owner loses anything. -/
theorem Leased.release (h : Leased apart registry held) (hself : ∀ item ∈ registry, ¬ apart item item) (owner : ι) :
    Leased apart (registry \ held owner) (Function.update held owner ∅) := by
  constructor
  · intro item
    rw [Finset.mem_sdiff]
    constructor
    · rintro ⟨hitem, hnot⟩
      obtain ⟨holder, hholds⟩ := (h.mem_iff item).mp hitem
      have hne : holder ≠ owner := by
        rintro rfl
        exact hnot hholds
      exact ⟨holder, by rwa [Function.update_of_ne hne]⟩
    · rintro ⟨holder, hholds⟩
      by_cases howner : holder = owner
      · rw [howner, Function.update_self] at hholds
        exact absurd hholds (Finset.notMem_empty item)
      · rw [Function.update_of_ne howner] at hholds
        have hitem := (h.mem_iff item).mpr ⟨holder, hholds⟩
        exact ⟨hitem, fun hmine => hself item hitem (h.exclusive holder owner howner item hholds item hmine)⟩
  · intro first second hne item hitem taken htaken
    have hwas : ∀ holder, ∀ kept ∈ Function.update held owner ∅ holder, kept ∈ held holder := by
      intro holder kept hkept
      by_cases howner : holder = owner
      · rw [howner, Function.update_self] at hkept
        exact absurd hkept (Finset.notMem_empty kept)
      · rwa [Function.update_of_ne howner] at hkept
    exact h.exclusive first second hne item (hwas first item hitem) taken (hwas second taken htaken)

/-- What an owner holds stays registered when another one gives its items back. -/
theorem Leased.keeps (h : Leased apart registry held) (hself : ∀ item ∈ registry, ¬ apart item item) {other : ι}
    (hne : other ≠ owner) {item : α} (hitem : item ∈ held other) : item ∈ registry \ held owner := by
  rw [(h.release hself owner).mem_iff]
  exact ⟨other, by rwa [Function.update_of_ne hne]⟩

section Folds

variable (start : Finset α) (list : List α)

/-- Adding the items of a list one by one. -/
theorem foldl_insert : list.foldl (fun set item => insert item set) start = start ∪ list.toFinset := by
  induction list generalizing start with
  | nil => rw [List.foldl_nil, List.toFinset_nil, Finset.union_empty]
  | cons item rest ih => rw [List.foldl_cons, ih, List.toFinset_cons, Finset.insert_union, Finset.union_insert]

/-- Discarding the items of a list one by one. -/
theorem foldl_erase : list.foldl Finset.erase start = start \ list.toFinset := by
  induction list generalizing start with
  | nil => rw [List.foldl_nil, List.toFinset_nil, Finset.sdiff_empty]
  | cons item rest ih =>
    rw [List.foldl_cons, ih, List.toFinset_cons, Finset.sdiff_insert, Finset.erase_sdiff_comm]

end Folds

end leasing
