import AmuleD.Download.Ics.Sound

open intervals

namespace amuled.download.ics

/-- How many blocks the windows give: each that still holds a free byte gives one, which leaves it
covered. -/
def open_windows (req : List Range) : List Range → Nat
  | [] => 0
  | window :: rest =>
    match shrink_to_avoid window.1 window.2 req with
    | none => open_windows req rest
    | some _ => open_windows (req ++ [window]) rest + 1

section Windows

variable {req other : List Range} {window : Range}

theorem shrink_to_avoid_eq_none_iff :
    shrink_to_avoid window.1 window.2 req = none ↔ ∀ x, InRange window x → Covered req x := by
  constructor
  · exact fun hnone => shrink_to_avoid_none hnone
  · intro hcovered
    cases hshrunk : shrink_to_avoid window.1 window.2 req with
    | none => rfl
    | some kept =>
      have htrimmed := shrink_to_avoid_some hshrunk
      have hstart := htrimmed.inWindow ⟨Int.le_refl _, htrimmed.nonempty⟩
      exact absurd (hcovered kept.1 hstart) htrimmed.start_free

theorem open_windows_cons_of_covered (hcovered : ∀ x, InRange window x → Covered req x) (rest : List Range) :
    open_windows req (window :: rest) = open_windows req rest := by
  rw [open_windows, shrink_to_avoid_eq_none_iff.mpr hcovered]

theorem open_windows_cons_of_open (hopen : ¬ ∀ x, InRange window x → Covered req x) (rest : List Range) :
    open_windows req (window :: rest) = open_windows (req ++ [window]) rest + 1 := by
  obtain ⟨kept, hkept⟩ := Option.ne_none_iff_exists'.mp (mt shrink_to_avoid_eq_none_iff.mp hopen)
  rw [open_windows, hkept]

/-- Only the coverage of the windows' bytes matters. -/
theorem open_windows_congr {windows : List Range}
    (hsame : ∀ window ∈ windows, ∀ x, InRange window x → (Covered req x ↔ Covered other x)) :
    open_windows req windows = open_windows other windows := by
  induction windows generalizing req other with
  | nil => rfl
  | cons window rest ih =>
    have hhead := hsame window List.mem_cons_self
    have htail := fun later hlater => hsame later (List.mem_cons_of_mem window hlater)
    by_cases hcovered : ∀ x, InRange window x → Covered req x
    · rw [open_windows_cons_of_covered hcovered,
        open_windows_cons_of_covered fun x hx => (hhead x hx).mp (hcovered x hx), ih htail]
    · have hother : ¬ ∀ x, InRange window x → Covered other x :=
        fun hall => hcovered fun x hx => (hhead x hx).mpr (hall x hx)
      rw [open_windows_cons_of_open hcovered, open_windows_cons_of_open hother]
      congr 1
      apply ih
      intro later hlater x hx
      rw [covered_append, covered_append, htail later hlater x hx]

theorem open_windows_append_of_covered {done : List Range}
    (hdone : ∀ window ∈ done, ∀ x, InRange window x → Covered req x) (todo : List Range) :
    open_windows req (done ++ todo) = open_windows req todo := by
  induction done with
  | nil => rfl
  | cons window rest ih =>
    rw [List.cons_append, open_windows_cons_of_covered (hdone window List.mem_cons_self),
      ih fun later hlater => hdone later (List.mem_cons_of_mem window hlater)]

theorem open_windows_eq_zero_iff {windows : List Range} :
    open_windows req windows = 0 ↔ ∀ window ∈ windows, ∀ x, InRange window x → Covered req x := by
  constructor
  · intro hzero
    induction windows with
    | nil => simp
    | cons window rest ih =>
      by_cases hcovered : ∀ x, InRange window x → Covered req x
      · rw [open_windows_cons_of_covered hcovered] at hzero
        exact List.forall_mem_cons.mpr ⟨hcovered, ih hzero⟩
      · rw [open_windows_cons_of_open hcovered] at hzero
        exact absurd hzero (Nat.succ_ne_zero _)
  · intro hall
    rw [← List.append_nil windows, open_windows_append_of_covered hall]
    rfl

/-- A block that is what is left of a window covers it. -/
theorem covered_append_trimmed {block : Range} (htrimmed : Trimmed req window block) {x : Int}
    (hx : InRange window x) : Covered (req ++ [block]) x := by
  rw [covered_append, covered_singleton]
  by_cases hcovered : Covered req x
  · exact .inl hcovered
  · exact .inr (htrimmed.inRange hx hcovered)

/-- Issuing a block closes its window and no other. -/
theorem open_windows_trimmed {block : Range} (htrimmed : Trimmed req window block) {done todo : List Range}
    (hdone : ∀ earlier ∈ done, ∀ x, InRange earlier x → Covered req x) :
    open_windows req (done ++ window :: todo) =
      open_windows (req ++ [block]) (done ++ window :: todo) + 1 := by
  have hopen : ¬ ∀ x, InRange window x → Covered req x :=
    fun hall => htrimmed.start_free (hall _ (htrimmed.inWindow ⟨Int.le_refl _, htrimmed.nonempty⟩))
  have hdone' : ∀ earlier ∈ done, ∀ x, InRange earlier x → Covered (req ++ [block]) x :=
    fun earlier hearlier x hx => (covered_append req [block] x).mpr (.inl (hdone earlier hearlier x hx))
  rw [open_windows_append_of_covered hdone, open_windows_append_of_covered hdone',
    open_windows_cons_of_open hopen, open_windows_cons_of_covered fun x hx => covered_append_trimmed htrimmed hx]
  congr 1
  apply open_windows_congr
  intro later _ x _
  rw [covered_append, covered_append, covered_singleton, covered_singleton]
  constructor
  · rintro (hcovered | hwindow)
    · exact .inl hcovered
    · have hcovered := covered_append_trimmed htrimmed hwindow
      rwa [covered_append, covered_singleton] at hcovered
  · rintro (hcovered | hblock)
    · exact .inl hcovered
    · exact .inr (htrimmed.inWindow hblock)

end Windows

/-- The blocks that the gaps of a part still give. -/
def Catalog.left (catalog : Catalog) (req : List Range) (part : Nat) : Nat :=
  open_windows req (partWindows part catalog.total_size catalog.gaps)

section Parts

variable {catalog : Catalog} {req : List Range} {part : Nat}

/-- A gap byte of a part lies in one of its windows. -/
theorem exists_window {total_size : Int} {gaps : List Range} {gap : Range} {x : Int} (hgap : gap ∈ gaps)
    (hgapx : InRange gap x) (hpartx : InRange (part_bounds part total_size) x) :
    ∃ window, IsWindow total_size gaps part window ∧ InRange window x := by
  obtain ⟨hlow, hhigh⟩ := hgapx
  obtain ⟨hstart, hstop⟩ := hpartx
  have hblock : (0 : Int) < EMBLOCK_SIZE := by decide
  have hdivide := Int.emod_add_mul_ediv (x - (part_bounds part total_size).1) EMBLOCK_SIZE
  have hrest := Int.emod_nonneg (x - (part_bounds part total_size).1) (Int.ne_of_gt hblock)
  have hrest' := Int.emod_lt_of_pos (x - (part_bounds part total_size).1) hblock
  have hquotient := Int.ediv_nonneg (Int.sub_nonneg_of_le hstart) (Int.le_of_lt hblock)
  obtain ⟨index, hindex⟩ := Int.eq_ofNat_of_zero_le hquotient
  have hin : InRange (max gap.1 ((part_bounds part total_size).1 + index * EMBLOCK_SIZE),
      min gap.2 (min (part_bounds part total_size).2
        ((part_bounds part total_size).1 + (index + 1) * EMBLOCK_SIZE - 1))) x := by
    rw [hindex, Int.mul_comm] at hdivide
    constructor
    · exact Int.max_le.mpr ⟨hlow, by omega⟩
    · refine Int.le_min.mpr ⟨hhigh, Int.le_min.mpr ⟨hstop, ?_⟩⟩
      rw [Int.add_mul, Int.one_mul]
      omega
  exact ⟨_, ⟨gap, hgap, index, rfl, Int.le_trans hin.1 hin.2⟩, hin⟩

theorem left_eq_zero_iff :
    catalog.left req part = 0 ↔ ∀ x, InRange (part_bounds part catalog.total_size) x →
      (∃ gap ∈ catalog.gaps, InRange gap x) → Covered req x := by
  rw [Catalog.left, open_windows_eq_zero_iff]
  constructor
  · rintro hwindows x hpartx ⟨gap, hgap, hgapx⟩
    obtain ⟨window, hwindow, hx⟩ := exists_window hgap hgapx hpartx
    exact hwindows window ((mem_partWindows window).mpr hwindow) x hx
  · intro hbytes window hwindow x hx
    obtain ⟨hgap, hpartx⟩ := ((mem_partWindows window).mp hwindow).inRange hx
    exact hbytes x hpartx hgap

theorem next_block_in_part_eq_none_iff :
    next_block_in_part part catalog.total_size catalog.gaps req = none ↔ catalog.left req part = 0 := by
  rw [next_block_in_part_eq, List.findSome?_eq_none_iff, Catalog.left, open_windows_eq_zero_iff]
  exact forall₂_congr fun window _ => shrink_to_avoid_eq_none_iff

/-- A block takes one from what its part has left, and nothing from another part. -/
theorem left_append_block {block : Range}
    (hblock : next_block_in_part part catalog.total_size catalog.gaps req = some block) :
    catalog.left req part = catalog.left (req ++ [block]) part + 1 ∧
      ∀ other, other ≠ part → catalog.left (req ++ [block]) other = catalog.left req other := by
  obtain ⟨window, hwindow, htrimmed⟩ := next_block_in_part_some hblock
  constructor
  · rw [next_block_in_part_eq] at hblock
    obtain ⟨done, window, todo, hwindows, hshrunk, hdone⟩ := List.findSome?_eq_some_iff.mp hblock
    rw [Catalog.left, Catalog.left, hwindows]
    exact open_windows_trimmed (shrink_to_avoid_some hshrunk) fun earlier hearlier =>
      shrink_to_avoid_eq_none_iff.mp (hdone earlier hearlier)
  · intro other hother
    apply open_windows_congr
    intro elsewhere helsewhere x hx
    rw [covered_append, covered_singleton, or_iff_left]
    intro hin
    have hhere := (hwindow.inRange (htrimmed.inWindow hin)).2
    have hthere := (((mem_partWindows elsewhere).mp helsewhere).inRange hx).2
    exact hother (part_eq_of_inRange hthere hhere)

end Parts

section Visits

/-- The order in which `choose_part` picks the parts, each kept until an iteration finds that it
gives no block any more. -/
def Catalog.visits (catalog : Catalog) (left : Nat → Nat) :
    Nat → Nat → List Nat → Dict Nat Int → Option Nat → List Nat
  | 0, _, _, _, _ => []
  | parts + 1, turn, gap_parts, gap_sizes, last =>
    match choose_part catalog.available catalog.frequencies gap_parts gap_sizes
        catalog.downloading_counts last (catalog.ties turn) with
    | none => []
    | some p =>
      p :: catalog.visits left parts (turn + left p + 1) (gap_parts.erase p) (gap_sizes.erase p) (some p)

/-- The iterations until nothing is left of any part: one for each block, and one for each part
that is left for another with blocks. -/
def rounds_needed (left : Nat → Nat) : List Nat → Nat
  | [] => 0
  | p :: rest => if ∀ q ∈ rest, left q = 0 then left p else left p + 1 + rounds_needed left rest

/-- The blocks of the part that is visited first. -/
def first_blocks (left : Nat → Nat) : List Nat → Nat
  | [] => 0
  | p :: _ => left p

variable {catalog : Catalog} {left left' : Nat → Nat}

theorem rounds_needed_congr {order : List Nat} (hsame : ∀ p ∈ order, left p = left' p) :
    rounds_needed left order = rounds_needed left' order := by
  induction order with
  | nil => rfl
  | cons p rest ih =>
    have htail := fun q hq => hsame q (List.mem_cons_of_mem p hq)
    have hiff : (∀ q ∈ rest, left q = 0) ↔ ∀ q ∈ rest, left' q = 0 :=
      forall₂_congr fun q hq => by rw [htail q hq]
    rw [rounds_needed, rounds_needed, hsame p List.mem_cons_self, ih htail]
    simp only [hiff]

theorem rounds_needed_eq_zero_iff {order : List Nat} :
    rounds_needed left order = 0 ↔ ∀ p ∈ order, left p = 0 := by
  induction order with
  | nil => simp [rounds_needed]
  | cons p rest ih =>
    rw [rounds_needed, List.forall_mem_cons]
    split
    · rename_i hrest
      exact ⟨fun hzero => ⟨hzero, hrest⟩, fun hboth => hboth.1⟩
    · rename_i hrest
      exact ⟨fun hzero => by omega, fun hboth => absurd hboth.2 hrest⟩

/-- One block of the part that is visited first saves one iteration. -/
theorem rounds_needed_cons_succ {p : Nat} {rest : List Nat} (hone : left p = left' p + 1)
    (hrest : ∀ q ∈ rest, left q = left' q) :
    rounds_needed left (p :: rest) = rounds_needed left' (p :: rest) + 1 := by
  have hiff : (∀ q ∈ rest, left q = 0) ↔ ∀ q ∈ rest, left' q = 0 :=
    forall₂_congr fun q hq => by rw [hrest q hq]
  rw [rounds_needed, rounds_needed, rounds_needed_congr hrest, hone]
  simp only [hiff]
  split <;> omega

theorem choose_part_eq_none {available gap_parts : List Nat} {frequencies : List Int}
    {gap_sizes downloading_counts : Dict Nat Int} {last_part : Option Nat} {tie : Nat}
    (hnone : choose_part available frequencies gap_parts gap_sizes downloading_counts last_part tie = none) :
    candidates available frequencies gap_parts gap_sizes downloading_counts = [] := by
  rw [choose_part] at hnone
  simp only at hnone
  split at hnone
  · cases hnone
  · split at hnone
    · rename_i hmin
      rw [List.min?_eq_none_iff, List.map_eq_nil_iff] at hmin
      exact hmin
    · rename_i min_pref hmin
      obtain ⟨candidate, hcandidate, hpref⟩ := List.mem_map.mp (List.min?_mem hmin)
      have htied : candidate.1 ∈ ((candidates available frequencies gap_parts gap_sizes
          downloading_counts).filter fun candidate => candidate.2 = min_pref).map Prod.fst :=
        List.mem_map_of_mem (List.mem_filter.mpr ⟨hcandidate, by simpa using hpref⟩)
      rw [List.getElem?_eq_none_iff] at hnone
      exact absurd hnone (Nat.not_le.mpr (Nat.mod_lt _ (List.length_pos_of_mem htied)))

variable {gap_parts : List Nat} {gap_sizes : Dict Nat Int} {last : Option Nat}

theorem visits_congr {parts turn : Nat} (hsame : ∀ p ∈ gap_parts, left p = left' p) :
    catalog.visits left parts turn gap_parts gap_sizes last =
      catalog.visits left' parts turn gap_parts gap_sizes last := by
  induction parts generalizing turn gap_parts gap_sizes last with
  | zero => rfl
  | succ parts ih =>
    rw [Catalog.visits, Catalog.visits]
    cases hchosen : choose_part catalog.available catalog.frequencies gap_parts gap_sizes
        catalog.downloading_counts last (catalog.ties turn) with
    | none => rfl
    | some p =>
      simp only
      rw [hsame p (choose_part_mem hchosen).1, ih fun q hq => hsame q (List.mem_of_mem_erase hq)]

theorem mem_of_mem_visits {parts turn q : Nat}
    (hq : q ∈ catalog.visits left parts turn gap_parts gap_sizes last) : q ∈ gap_parts := by
  induction parts generalizing turn gap_parts gap_sizes last with
  | zero => cases hq
  | succ parts ih =>
    rw [Catalog.visits] at hq
    cases hchosen : choose_part catalog.available catalog.frequencies gap_parts gap_sizes
        catalog.downloading_counts last (catalog.ties turn) with
    | none =>
      rw [hchosen] at hq
      cases hq
    | some p =>
      rw [hchosen] at hq
      obtain rfl | hq := List.mem_cons.mp hq
      · exact (choose_part_mem hchosen).1
      · exact List.mem_of_mem_erase (ih hq)

/-- Every part that has a gap and is available is visited. -/
theorem mem_visits {parts turn : Nat} (hparts : gap_parts.length = parts) (hnodup : gap_parts.Nodup)
    (hgap : ∀ p ∈ gap_parts, (gap_sizes.get p).getD 0 > 0) {q : Nat} :
    q ∈ catalog.visits left parts turn gap_parts gap_sizes last ↔ q ∈ gap_parts ∧ q ∈ catalog.available := by
  induction parts generalizing turn gap_parts gap_sizes last with
  | zero =>
    rw [List.length_eq_zero_iff.mp hparts]
    simp [Catalog.visits]
  | succ parts ih =>
    rw [Catalog.visits]
    cases hchosen : choose_part catalog.available catalog.frequencies gap_parts gap_sizes
        catalog.downloading_counts last (catalog.ties turn) with
    | none =>
      constructor
      · intro hq
        cases hq
      · rintro ⟨hq, havailable⟩
        have hcandidates := choose_part_eq_none hchosen
        rw [candidates, List.filterMap_eq_nil_iff] at hcandidates
        have hnone := hcandidates q hq
        simp only at hnone
        rw [if_pos ⟨havailable, hgap q hq⟩] at hnone
        cases hnone
    | some p =>
      obtain ⟨hp, havailable⟩ := choose_part_mem hchosen
      have hlength : (gap_parts.erase p).length = parts := by
        rw [List.length_erase_of_mem hp, hparts, Nat.add_sub_cancel]
      have hgap' : ∀ q ∈ gap_parts.erase p, ((gap_sizes.erase p).get q).getD 0 > 0 := by
        intro q hq
        obtain ⟨hne, hq⟩ := hnodup.mem_erase_iff.mp hq
        rw [Dict.get_erase_of_ne hne]
        exact hgap q hq
      simp only
      rw [List.mem_cons, ih hlength (hnodup.erase p) hgap', hnodup.mem_erase_iff]
      constructor
      · rintro (rfl | ⟨⟨_, hq⟩, hqavailable⟩)
        · exact ⟨hp, havailable⟩
        · exact ⟨hq, hqavailable⟩
      · rintro ⟨hq, hqavailable⟩
        by_cases hqp : q = p
        · exact .inl hqp
        · exact .inr ⟨⟨hqp, hq⟩, hqavailable⟩

end Visits

section Loop

variable {catalog : Catalog} {requested : List Range} {sel : Selection} {turn p : Nat}

/-- The parts that are still visited from a state of the loop on, in order. -/
def Catalog.order (catalog : Catalog) (turn : Nat) (sel : Selection) : List Nat :=
  catalog.visits (catalog.left sel.req) sel.gap_parts.length turn sel.gap_parts sel.gap_sizes sel.last

/-- What holds in every iteration: the parts that were taken out have nothing left, and the parts
that were never in are untouched. -/
structure OpenSelection (catalog : Catalog) (requested : List Range) (sel : Selection) : Prop where
  nodup : sel.gap_parts.Nodup
  gap_size : ∀ p ∈ sel.gap_parts, (sel.gap_sizes.get p).getD 0 > 0
  req : sel.req = requested ++ sel.issued
  initial : ∀ p ∈ sel.gap_parts, p ∈ catalog.initial_gap_parts
  closed : ∀ p ∈ catalog.initial_gap_parts, p ∉ sel.gap_parts → catalog.left sel.req p = 0
  outside : ∀ p, p ∉ catalog.initial_gap_parts → catalog.left sel.req p = catalog.left requested p

/-- The state behind an iteration that finds a part without blocks. -/
def Selection.exhaust (sel : Selection) (p : Nat) : Selection :=
  { sel with gap_sizes := sel.gap_sizes.erase p, gap_parts := sel.gap_parts.erase p, last := some p }

/-- The state behind an iteration that issues a block. -/
def Selection.issue (sel : Selection) (p : Nat) (block : Range) : Selection :=
  { sel with issued := sel.issued ++ [block], req := sel.req ++ [block], last := some p }

/-- The part an iteration picks. -/
def Catalog.pick (catalog : Catalog) (turn : Nat) (sel : Selection) : Option Nat :=
  choose_part catalog.available catalog.frequencies sel.gap_parts sel.gap_sizes
    catalog.downloading_counts sel.last (catalog.ties turn)

theorem select_step_of_none (hpick : catalog.pick turn sel = none) : catalog.select_step turn sel = none := by
  rw [Catalog.select_step]
  rw [Catalog.pick] at hpick
  rw [hpick]

theorem select_step_of_exhausted (hpick : catalog.pick turn sel = some p) (hleft : catalog.left sel.req p = 0) :
    catalog.select_step turn sel = some (sel.exhaust p) := by
  rw [Catalog.select_step]
  rw [Catalog.pick] at hpick
  rw [hpick]
  simp only
  rw [next_block_in_part_eq_none_iff.mpr hleft]
  rfl

theorem select_step_of_block (hpick : catalog.pick turn sel = some p) {block : Range}
    (hblock : next_block_in_part p catalog.total_size catalog.gaps sel.req = some block) :
    catalog.select_step turn sel = some (sel.issue p block) := by
  rw [Catalog.select_step]
  rw [Catalog.pick] at hpick
  rw [hpick]
  simp only
  rw [hblock]
  rfl

theorem pick_mem (hpick : catalog.pick turn sel = some p) : p ∈ sel.gap_parts ∧ p ∈ catalog.available :=
  choose_part_mem hpick

theorem OpenSelection.exhaust (hopen : OpenSelection catalog requested sel) (hleft : catalog.left sel.req p = 0) :
    OpenSelection catalog requested (sel.exhaust p) where
  nodup := hopen.nodup.erase p
  gap_size := by
    intro q hq
    obtain ⟨hne, hq⟩ := hopen.nodup.mem_erase_iff.mp hq
    simp only [Selection.exhaust]
    rw [Dict.get_erase_of_ne hne]
    exact hopen.gap_size q hq
  req := hopen.req
  initial := fun q hq => hopen.initial q (List.mem_of_mem_erase hq)
  closed := by
    intro q hq hout
    by_cases hqp : q = p
    · rw [hqp]
      exact hleft
    · exact hopen.closed q hq fun hin => hout (hopen.nodup.mem_erase_iff.mpr ⟨hqp, hin⟩)
  outside := hopen.outside

theorem OpenSelection.issue (hopen : OpenSelection catalog requested sel) (hp : p ∈ sel.gap_parts) {block : Range}
    (hblock : next_block_in_part p catalog.total_size catalog.gaps sel.req = some block) :
    OpenSelection catalog requested (sel.issue p block) where
  nodup := hopen.nodup
  gap_size := hopen.gap_size
  req := by
    simp only [Selection.issue]
    rw [hopen.req, List.append_assoc]
  initial := hopen.initial
  closed := by
    intro q hq hout
    have hne : q ≠ p := fun heq => hout (heq ▸ hp)
    exact ((left_append_block hblock).2 q hne).trans (hopen.closed q hq hout)
  outside := by
    intro q hq
    have hne : q ≠ p := fun heq => hq (heq ▸ hopen.initial p hp)
    exact ((left_append_block hblock).2 q hne).trans (hopen.outside q hq)

theorem order_of_none (hpick : catalog.pick turn sel = none) : catalog.order turn sel = [] := by
  rw [Catalog.order]
  cases sel.gap_parts.length with
  | zero => rfl
  | succ parts =>
    rw [Catalog.visits]
    rw [Catalog.pick] at hpick
    rw [hpick]

theorem order_of_pick (hpick : catalog.pick turn sel = some p) :
    catalog.order turn sel =
      p :: catalog.visits (catalog.left sel.req) (sel.gap_parts.erase p).length
        (turn + catalog.left sel.req p + 1) (sel.gap_parts.erase p) (sel.gap_sizes.erase p) (some p) := by
  have hp := (pick_mem hpick).1
  obtain ⟨parts, hparts⟩ := Nat.exists_eq_succ_of_ne_zero (Nat.ne_of_gt (List.length_pos_of_mem hp))
  rw [Catalog.pick] at hpick
  rw [Catalog.order, hparts, Catalog.visits, hpick, List.length_erase_of_mem hp, hparts]
  rfl

/-- A part without blocks is left for the next one. -/
theorem order_exhaust (hpick : catalog.pick turn sel = some p) (hleft : catalog.left sel.req p = 0) :
    catalog.order turn sel = p :: catalog.order (turn + 1) (sel.exhaust p) := by
  rw [order_of_pick hpick, hleft]
  rfl

/-- A part that gave a block is kept. -/
theorem order_issue (hopen : OpenSelection catalog requested sel) (hpick : catalog.pick turn sel = some p)
    {block : Range} (hblock : next_block_in_part p catalog.total_size catalog.gaps sel.req = some block) :
    catalog.order (turn + 1) (sel.issue p block) = catalog.order turn sel := by
  obtain ⟨hp, havailable⟩ := pick_mem hpick
  obtain ⟨hone, hothers⟩ := left_append_block hblock
  have hagain : catalog.pick (turn + 1) (sel.issue p block) = some p :=
    choose_part_sticky _ _ _ hp havailable (hopen.gap_size p hp)
  rw [order_of_pick hagain, order_of_pick hpick]
  have hturn : turn + 1 + catalog.left (sel.issue p block).req p + 1 = turn + catalog.left sel.req p + 1 := by
    rw [hone]
    simp only [Selection.issue]
    omega
  rw [hturn]
  congr 1
  apply visits_congr
  intro q hq
  exact hothers q (hopen.nodup.mem_erase_iff.mp hq).1

/-- Nothing is left of the available parts. -/
def Catalog.Done (catalog : Catalog) (sel : Selection) : Prop :=
  ∀ p ∈ catalog.available, p ∈ catalog.initial_gap_parts → catalog.left sel.req p = 0

theorem done_iff (hopen : OpenSelection catalog requested sel) (turn : Nat) :
    catalog.Done sel ↔ rounds_needed (catalog.left sel.req) (catalog.order turn sel) = 0 := by
  rw [rounds_needed_eq_zero_iff]
  have hvisits : ∀ q, q ∈ catalog.order turn sel ↔ q ∈ sel.gap_parts ∧ q ∈ catalog.available :=
    fun q => mem_visits rfl hopen.nodup hopen.gap_size
  constructor
  · intro hdone q hq
    obtain ⟨hpart, havailable⟩ := (hvisits q).mp hq
    exact hdone q havailable (hopen.initial q hpart)
  · intro hzero q havailable hinitial
    by_cases hpart : q ∈ sel.gap_parts
    · exact hzero q ((hvisits q).mpr ⟨hpart, havailable⟩)
    · exact hopen.closed q hinitial hpart

theorem OpenSelection.select_loop (hopen : OpenSelection catalog requested sel) (turn rounds : Nat) :
    OpenSelection catalog requested (catalog.select_loop rounds turn sel) := by
  induction rounds generalizing turn sel with
  | zero => exact hopen
  | succ rounds ih =>
    cases hpick : catalog.pick turn sel with
    | none =>
      rw [Catalog.select_loop, select_step_of_none hpick]
      exact hopen
    | some p =>
      cases hblock : next_block_in_part p catalog.total_size catalog.gaps sel.req with
      | none =>
        have hleft := next_block_in_part_eq_none_iff.mp hblock
        rw [select_loop_one (select_step_of_exhausted hpick hleft)]
        exact ih (hopen.exhaust hleft) (turn + 1)
      | some block =>
        rw [select_loop_one (select_step_of_block hpick hblock)]
        exact ih (hopen.issue (pick_mem hpick).1 hblock) (turn + 1)

/-- The loop is done exactly with the iterations that the order of the parts needs. -/
theorem done_select_loop_iff (hopen : OpenSelection catalog requested sel) (turn rounds : Nat) :
    catalog.Done (catalog.select_loop rounds turn sel) ↔
      rounds_needed (catalog.left sel.req) (catalog.order turn sel) ≤ rounds := by
  induction rounds generalizing turn sel with
  | zero => rw [Nat.le_zero, Catalog.select_loop, done_iff hopen turn]
  | succ rounds ih =>
    cases hpick : catalog.pick turn sel with
    | none =>
      rw [Catalog.select_loop, select_step_of_none hpick]
      simp only
      rw [done_iff hopen turn, order_of_none hpick]
      simp [rounds_needed]
    | some p =>
      cases hblock : next_block_in_part p catalog.total_size catalog.gaps sel.req with
      | none =>
        have hleft := next_block_in_part_eq_none_iff.mp hblock
        rw [select_loop_one (select_step_of_exhausted hpick hleft), ih (hopen.exhaust hleft),
          order_exhaust hpick hleft, rounds_needed, hleft]
        have hsame : catalog.left (sel.exhaust p).req = catalog.left sel.req := rfl
        rw [hsame]
        split
        · rename_i hrest
          rw [rounds_needed_eq_zero_iff.mpr hrest]
          omega
        · omega
      | some block =>
        obtain ⟨hone, hothers⟩ := left_append_block hblock
        have hissued := hopen.issue (pick_mem hpick).1 hblock
        have hsaved : rounds_needed (catalog.left sel.req) (catalog.order turn sel) =
            rounds_needed (catalog.left (sel.issue p block).req) (catalog.order turn sel) + 1 := by
          rw [order_of_pick hpick]
          refine rounds_needed_cons_succ hone fun q hq => ?_
          exact (hothers q (hopen.nodup.mem_erase_iff.mp (mem_of_mem_visits hq)).1).symm
        rw [select_loop_one (select_step_of_block hpick hblock), ih hissued, order_issue hopen hpick hblock, hsaved]
        omega

/-- Every iteration issues a block exactly while the part visited first has blocks. -/
theorem length_issued_select_loop_iff (hopen : OpenSelection catalog requested sel) (turn rounds : Nat) :
    (catalog.select_loop rounds turn sel).issued.length = sel.issued.length + rounds ↔
      rounds ≤ first_blocks (catalog.left sel.req) (catalog.order turn sel) := by
  induction rounds generalizing turn sel with
  | zero => exact ⟨fun _ => Nat.zero_le _, fun _ => rfl⟩
  | succ rounds ih =>
    cases hpick : catalog.pick turn sel with
    | none =>
      rw [Catalog.select_loop, select_step_of_none hpick]
      simp only
      rw [order_of_none hpick, first_blocks]
      omega
    | some p =>
      cases hblock : next_block_in_part p catalog.total_size catalog.gaps sel.req with
      | none =>
        have hleft := next_block_in_part_eq_none_iff.mp hblock
        have hwasted := length_issued_select_loop catalog rounds (turn + 1) (sel.exhaust p)
        have hsame : (sel.exhaust p).issued = sel.issued := rfl
        rw [hsame] at hwasted
        rw [select_loop_one (select_step_of_exhausted hpick hleft), order_exhaust hpick hleft, first_blocks, hleft]
        omega
      | some block =>
        have hissued := hopen.issue (pick_mem hpick).1 hblock
        have hlength : (sel.issue p block).issued.length = sel.issued.length + 1 := List.length_append
        rw [select_loop_one (select_step_of_block hpick hblock)]
        have hrest := ih hissued (turn + 1)
        rw [order_issue hopen hpick hblock, hlength, order_of_pick hpick, first_blocks] at hrest
        rw [order_of_pick hpick, first_blocks, (left_append_block hblock).1]
        have hone : (sel.issue p block).req = sel.req ++ [block] := rfl
        rw [hone] at hrest
        omega

theorem openSelection_initial (catalog : Catalog) (last_part : Option Nat) (requested : List Range) :
    OpenSelection catalog requested (catalog.initial last_part requested) where
  nodup := List.nodup_range.filter _
  gap_size := by
    intro part hpart
    rw [get_initial_gap_sizes hpart]
    exact (mem_initial_gap_parts.mp hpart).2.2
  req := (List.append_nil _).symm
  initial := fun _ hpart => hpart
  closed := fun _ hpart hout => absurd hpart hout
  outside := fun _ _ => rfl

end Loop

section Progress

variable {catalog : Catalog} {requested : List Range} {last_part : Option Nat} {max_blocks part : Nat}

/-- A byte of a gap in the part. -/
def Catalog.GapByte (catalog : Catalog) (part : Nat) (x : Int) : Prop :=
  InRange (part_bounds part catalog.total_size) x ∧ ∃ gap ∈ catalog.gaps, InRange gap x

/-- A byte that can be requested makes the selection issue a block, and it issues fewer blocks than
it may only when every gap byte of the available parts is then requested. -/
def Catalog.IssuesEnough (catalog : Catalog) (last_part : Option Nat) (requested : List Range) (max_blocks : Nat) :
    Prop :=
  let issued := (catalog.select_blocks last_part requested max_blocks).1
  ((∃ part ∈ catalog.available, ∃ x, catalog.GapByte part x ∧ ¬ Covered requested x) → issued ≠ []) ∧
    (issued.length < max_blocks →
      ∀ part ∈ catalog.available, ∀ x, catalog.GapByte part x → Covered (requested ++ issued) x)

/-- The first part of the order has as many blocks as are asked for, or the iterations reach the
last block of the order, and no available part lies behind those that the selection counts. -/
def Catalog.EnoughRounds (catalog : Catalog) (last_part : Option Nat) (requested : List Range) (max_blocks : Nat) :
    Prop :=
  let left := catalog.left requested
  let order := catalog.order 0 (catalog.initial last_part requested)
  max_blocks ≤ first_blocks left order ∨
    rounds_needed left order ≤ max_blocks ∧
      ∀ part ∈ catalog.available, part_count catalog.total_size ≤ part → left part = 0

theorem left_eq_zero_of_not_initial (hcount : part < part_count catalog.total_size)
    (hpart : part ∉ catalog.initial_gap_parts) (req : List Range) : catalog.left req part = 0 := by
  rw [left_eq_zero_iff]
  rintro x hpartx ⟨gap, hgap, hgapx⟩
  exact absurd (mem_initial_gap_parts.mpr ⟨hcount, Int.not_lt.mpr (Int.le_trans hpartx.1 hpartx.2),
    part_gap_pos_of_inRange hgap hgapx hpartx⟩) hpart

/-- Every gap byte of the available parts is requested or issued. -/
theorem all_covered_iff {sel : Selection} (hopen : OpenSelection catalog requested sel) :
    (∀ part ∈ catalog.available, ∀ x, catalog.GapByte part x → Covered (requested ++ sel.issued) x) ↔
      catalog.Done sel ∧
        ∀ part ∈ catalog.available, part_count catalog.total_size ≤ part → catalog.left requested part = 0 := by
  have hleft : ∀ part, (∀ x, catalog.GapByte part x → Covered (requested ++ sel.issued) x) ↔
      catalog.left sel.req part = 0 := by
    intro part
    rw [left_eq_zero_iff, hopen.req]
    exact forall_congr' fun x => and_imp
  rw [forall₂_congr fun part _ => hleft part]
  constructor
  · intro hall
    refine ⟨fun part havailable _ => hall part havailable, fun part havailable hcount => ?_⟩
    have hout : part ∉ catalog.initial_gap_parts :=
      fun hin => absurd (mem_initial_gap_parts.mp hin).1 (Nat.not_lt.mpr hcount)
    rw [← hopen.outside part hout]
    exact hall part havailable
  · rintro ⟨hdone, hbehind⟩ part havailable
    by_cases hinitial : part ∈ catalog.initial_gap_parts
    · exact hdone part havailable hinitial
    · by_cases hcount : part < part_count catalog.total_size
      · exact left_eq_zero_of_not_initial hcount hinitial _
      · rw [hopen.outside part hinitial]
        exact hbehind part havailable (Nat.le_of_not_lt hcount)

/-- Iterations are spent on parts that have nothing left, so the selection is complete exactly when
the first part is enough or the iterations suffice for all. -/
theorem select_blocks_issues_enough_iff (catalog : Catalog) (last_part : Option Nat) (requested : List Range)
    (hpos : 0 < max_blocks) :
    catalog.IssuesEnough last_part requested max_blocks ↔
      catalog.EnoughRounds last_part requested max_blocks := by
  have hopen := openSelection_initial catalog last_part requested
  have hloop : OpenSelection catalog requested
      (catalog.select_loop max_blocks 0 (catalog.initial last_part requested)) := hopen.select_loop 0 max_blocks
  have hlength := length_issued_select_loop catalog max_blocks 0 (catalog.initial last_part requested)
  have hissued : (catalog.initial last_part requested).issued.length = 0 := rfl
  have hfull := length_issued_select_loop_iff hopen 0 max_blocks
  have hdone := done_select_loop_iff hopen 0 max_blocks
  have hreq : (catalog.initial last_part requested).req = requested := rfl
  rw [hissued, Nat.zero_add] at hlength hfull
  rw [hreq] at hfull hdone
  rw [Catalog.IssuesEnough, Catalog.EnoughRounds]
  simp only [fst_select_blocks]
  rw [all_covered_iff hloop, hdone, ← hfull]
  constructor
  · rintro ⟨_, hshort⟩
    obtain hless | hequal := Nat.lt_or_eq_of_le hlength
    · exact .inr (hshort hless)
    · exact .inl hequal
  · intro henough
    have hshort : (catalog.select_loop max_blocks 0 (catalog.initial last_part requested)).issued.length <
        max_blocks → _ := fun hless => henough.resolve_left (Nat.ne_of_lt hless)
    refine ⟨?_, hshort⟩
    rintro ⟨part, havailable, x, hbyte, hfree⟩ hnone
    have hcovered := (all_covered_iff hloop).mpr ?_ part havailable x hbyte
    · rw [hnone, List.append_nil] at hcovered
      exact hfree hcovered
    · rw [hdone]
      apply hshort
      rw [hnone]
      exact hpos

/-- A file of ten bytes of which nothing is requested. -/
theorem select_blocks_issues_enough_ten_bytes :
    (Catalog.mk 10 [(0, 9)] [0] [1] (Dict.ofList []) fun _ => 0).IssuesEnough none [] 1 :=
  (select_blocks_issues_enough_iff (Catalog.mk 10 [(0, 9)] [0] [1] (Dict.ofList []) fun _ => 0) none []
    Nat.one_pos).mpr (.inl (by decide +kernel))

/-- The last part has all its missing bytes in flight; the only iteration is spent on it. -/
theorem select_blocks_issues_nothing :
    ¬ ∀ (catalog : Catalog) (last_part : Option Nat) (requested : List Range) (max_blocks : Nat), 0 < max_blocks →
      catalog.IssuesEnough last_part requested max_blocks := by
  intro hall
  let catalog := Catalog.mk 9728010 [(0, 9), (9728000, 9728009)] [0, 1] [1, 1] (Dict.ofList []) fun _ => 0
  have hissued : (catalog.select_blocks (some 0) [(0, 9)] 1).1 = [] := by decide +kernel
  have hbyte : catalog.GapByte 1 9728000 := by
    refine ⟨⟨by decide, by decide⟩, (9728000, 9728009), by simp [catalog], ⟨by decide, by decide⟩⟩
  have hfree : ¬ Covered [((0 : Int), (9 : Int))] 9728000 := by
    rw [covered_singleton]
    exact fun hin => absurd hin.2 (by decide)
  exact (hall catalog (some 0) [(0, 9)] 1 Nat.one_pos).1 ⟨1, by simp [catalog], 9728000, hbyte, hfree⟩ hissued

end Progress

end amuled.download.ics
