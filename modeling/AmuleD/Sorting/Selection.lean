import Mathlib.Data.Finset.Card
import Mathlib.Data.Finset.Dedup
import Mathlib.Data.List.Induction
import Mathlib.Order.Lattice
import AmuleD.OrderedDict

/-! The heaviest item of each key, kept while a list of items goes by. -/

namespace champions

variable {ι κ ω : Type} [LinearOrder ω] (key : ι → κ) (weight : ι → ω)

/-- One item for each key that occurs, and none of its key is heavier. -/
structure Champions (items : List ι) (best : OrderedDict κ ι) : Prop where
  keyed : ∀ entry ∈ best.entries, key entry.2 = entry.1
  mem : ∀ entry ∈ best.entries, entry.2 ∈ items
  heaviest : ∀ entry ∈ best.entries, ∀ item ∈ items, key item = entry.1 → weight item ≤ weight entry.2
  complete : ∀ item ∈ items, key item ∈ best.keys

variable {key weight} {items : List ι} {best : OrderedDict κ ι}

theorem champions_empty : Champions key weight [] (OrderedDict.empty : OrderedDict κ ι) where
  keyed _ hentry := absurd hentry List.not_mem_nil
  mem _ hentry := absurd hentry List.not_mem_nil
  heaviest _ hentry := absurd hentry List.not_mem_nil
  complete _ hitem := absurd hitem List.not_mem_nil

variable [DecidableEq κ]

/-- An item takes the place of a lighter one with its key. -/
def keep (key : ι → κ) (weight : ι → ω) (best : OrderedDict κ ι) (item : ι) : OrderedDict κ ι :=
  match best.get (key item) with
  | none => best.set (key item) item
  | some existing => if weight existing < weight item then best.set (key item) item else best

/-- An item that no earlier one of its key outweighs becomes the champion of the key. -/
theorem Champions.set (h : Champions key weight items best) {item : ι}
    (hweight : ∀ other ∈ items, key other = key item → weight other ≤ weight item) :
    Champions key weight (items ++ [item]) (best.set (key item) item) where
  keyed entry hentry := by
    rcases OrderedDict.mem_set.mp hentry with rfl | ⟨_, hold⟩
    · rfl
    · exact h.keyed entry hold
  mem entry hentry := by
    rcases OrderedDict.mem_set.mp hentry with rfl | ⟨_, hold⟩
    · exact List.mem_append_right items (List.mem_singleton_self item)
    · exact List.mem_append_left [item] (h.mem entry hold)
  heaviest entry hentry other hother hkey := by
    rcases OrderedDict.mem_set.mp hentry with rfl | ⟨hne, hold⟩
    · rcases List.mem_append.mp hother with hbefore | hnew
      · exact hweight other hbefore hkey
      · rw [List.mem_singleton.mp hnew]
    · rcases List.mem_append.mp hother with hbefore | hnew
      · exact h.heaviest entry hold other hbefore hkey
      · rw [List.mem_singleton.mp hnew] at hkey
        exact absurd hkey.symm hne
  complete other hother := by
    rw [OrderedDict.mem_keys_set]
    rcases List.mem_append.mp hother with hbefore | hnew
    · exact .inr (h.complete other hbefore)
    · exact .inl (congrArg key (List.mem_singleton.mp hnew))

/-- An item that the champion of its key outweighs changes nothing. -/
theorem Champions.skip (h : Champions key weight items best) {item existing : ι}
    (hexisting : best.get (key item) = some existing) (hweight : weight item ≤ weight existing) :
    Champions key weight (items ++ [item]) best where
  keyed := h.keyed
  mem entry hentry := List.mem_append_left [item] (h.mem entry hentry)
  heaviest entry hentry other hother hkey := by
    rcases List.mem_append.mp hother with hbefore | hnew
    · exact h.heaviest entry hentry other hbefore hkey
    · rw [List.mem_singleton.mp hnew] at hkey ⊢
      have hsame : best.get entry.1 = some entry.2 := OrderedDict.get_of_mem hentry
      rw [← hkey, hexisting] at hsame
      rw [← Option.some.inj hsame]
      exact hweight
  complete other hother := by
    rcases List.mem_append.mp hother with hbefore | hnew
    · exact h.complete other hbefore
    · rw [List.mem_singleton.mp hnew, OrderedDict.mem_keys]
      exact ⟨existing, OrderedDict.mem_of_get hexisting⟩

theorem Champions.keep (h : Champions key weight items best) (item : ι) :
    Champions key weight (items ++ [item]) (keep key weight best item) := by
  rw [champions.keep]
  cases hexisting : best.get (key item) with
  | none =>
    refine h.set fun other hother hkey => ?_
    obtain ⟨existing, hentry⟩ := OrderedDict.mem_keys.mp (h.complete other hother)
    have hget := OrderedDict.get_of_mem hentry
    rw [hkey, hexisting] at hget
    cases hget
  | some existing =>
    have hentry := OrderedDict.mem_of_get hexisting
    by_cases hheavier : weight existing < weight item
    · simp only [if_pos hheavier]
      exact h.set fun other hother hkey => le_trans (h.heaviest _ hentry other hother hkey) (le_of_lt hheavier)
    · simp only [if_neg hheavier]
      exact h.skip hexisting (not_lt.mp hheavier)

/-- The items of a list are added to those that went by before. -/
theorem Champions.foldl (h : Champions key weight items best) (added : List ι) :
    Champions key weight (items ++ added) (added.foldl (champions.keep key weight) best) := by
  induction added generalizing items best with
  | nil =>
    rw [List.append_nil]
    exact h
  | cons item added ih =>
    have hnext := ih (h.keep item)
    rw [List.append_assoc, List.singleton_append] at hnext
    exact hnext

end champions

namespace nearest

variable {α κ : Type} [LinearOrder κ]

/-- As many of some nodes as a count allows, none of which is as far as one that is left out. -/
structure NearestOf (distance : α → κ) (count : Nat) (chosen nodes : Finset α) : Prop where
  subset : chosen ⊆ nodes
  card : chosen.card = min count nodes.card
  nearer : ∀ near ∈ chosen, ∀ far ∈ nodes, far ∉ chosen → distance near < distance far

variable {distance : α → κ} {count : Nat} {chosen nodes : Finset α} {items : List α} {item : α}

/-- Where all are chosen the nearest ones are. -/
theorem nearestOf_self (hcard : nodes.card ≤ count) : NearestOf distance count nodes nodes where
  subset := Finset.Subset.refl nodes
  card := (Nat.min_eq_right hcard).symm
  nearer _ _ _ hfar hnot := absurd hfar hnot

variable [DecidableEq α]

/-- One more node leaves the chosen ones the nearest exactly if their number was reached and it is farther. -/
theorem nearestOf_insert_iff (hnew : item ∉ nodes) (hsubset : chosen ⊆ nodes) (hcount : chosen.card ≤ count) :
    NearestOf distance count chosen (insert item nodes) ↔
      NearestOf distance count chosen nodes ∧ chosen.card = count ∧ ∀ near ∈ chosen, distance near < distance item := by
  have hcards := Finset.card_le_card hsubset
  have hnot : item ∉ chosen := fun hitem => hnew (hsubset hitem)
  constructor
  · intro h
    have hcard := h.card
    rw [Finset.card_insert_of_notMem hnew] at hcard
    have hreached : chosen.card = count := by omega
    refine ⟨⟨hsubset, by omega, ?_⟩, hreached, ?_⟩
    · intro near hnear far hfar hleft
      exact h.nearer near hnear far (Finset.mem_insert_of_mem hfar) hleft
    · intro near hnear
      exact h.nearer near hnear item (Finset.mem_insert_self item nodes) hnot
  · rintro ⟨h, hreached, hfarther⟩
    refine ⟨hsubset.trans (Finset.subset_insert item nodes), ?_, ?_⟩
    · rw [Finset.card_insert_of_notMem hnew]
      omega
    · intro near hnear far hfar hleft
      rcases Finset.mem_insert.mp hfar with rfl | hold
      · exact hfarther near hnear
      · exact h.nearer near hnear far hold hleft

/-- What may come behind the first of a list without being nearer than one of them. -/
def Farther (distance : α → κ) (count : Nat) (items : List α) (item : α) : Prop :=
  count ≤ items.length → item ∉ items →
    (items.take count).toFinset.card = count ∧ ∀ near ∈ items.take count, distance near < distance item

/-- The first of a list stay the nearest of it exactly if what is added is farther. -/
theorem nearestOf_take_concat_iff :
    NearestOf distance count ((items ++ [item]).take count).toFinset (items ++ [item]).toFinset ↔
      NearestOf distance count (items.take count).toFinset items.toFinset ∧ Farther distance count items item := by
  have htake : (items.take count).length ≤ count := by
    rw [List.length_take]
    exact Nat.min_le_left _ _
  by_cases hshort : items.length < count
  · have hall : items.take count = items := List.take_of_length_le (by omega)
    have hlength : (items ++ [item]).length ≤ count := by
      rw [List.length_append, List.length_singleton]
      omega
    have hwhole : (items ++ [item]).take count = items ++ [item] := List.take_of_length_le hlength
    rw [hall, hwhole]
    refine iff_of_true (nearestOf_self ((List.toFinset_card_le _).trans hlength)) ⟨?_, fun hlong => by omega⟩
    exact nearestOf_self ((List.toFinset_card_le _).trans (by omega))
  · have hsame : (items ++ [item]).take count = items.take count :=
      List.take_append_of_le_length (by omega)
    rw [hsame]
    by_cases hold : item ∈ items
    · have hnodes : (items ++ [item]).toFinset = items.toFinset := by
        rw [List.toFinset_append, List.toFinset_cons, List.toFinset_nil]
        exact Finset.union_eq_left.mpr (by simpa using hold)
      rw [hnodes]
      exact (and_iff_left fun _ hnew => absurd hold hnew).symm
    · have hnodes : (items ++ [item]).toFinset = insert item items.toFinset := by
        ext other
        simp
      have hsubset : (items.take count).toFinset ⊆ items.toFinset := by
        intro other hother
        exact List.mem_toFinset.mpr (List.mem_of_mem_take (List.mem_toFinset.mp hother))
      have hcard : (items.take count).toFinset.card ≤ count := (List.toFinset_card_le _).trans htake
      have hfresh : item ∉ items.toFinset := fun hitem => hold (List.mem_toFinset.mp hitem)
      rw [hnodes, nearestOf_insert_iff hfresh hsubset hcard]
      have hiff : Farther distance count items item ↔
          (items.take count).toFinset.card = count ∧ ∀ near ∈ items.take count, distance near < distance item :=
        ⟨fun h => h (by omega) hold, fun h _ _ => h⟩
      rw [hiff]
      simp only [List.mem_toFinset]

end nearest
