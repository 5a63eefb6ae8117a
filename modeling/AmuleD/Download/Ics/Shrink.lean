import AmuleD.Intervals.Cover
import Mathlib.Data.Int.Order.Basic

open intervals

namespace amuled.download.ics

/-- An inclusive byte range. -/
abbrev Range := Int × Int

def is_already_requested (start stop : Int) (requested : List Range) : Bool :=
  requested.any fun range => decide (start ≤ range.2) && decide (range.1 ≤ stop)

/-- The `for` loop of `shrink_to_avoid`: one pass over the ranges. `none` is the
early `return None`; the flag is `changed`. -/
def shrink_pass : List Range → Int → Int → Bool → Option (Int × Int × Bool)
  | [], cur_start, cur_end, changed => some (cur_start, cur_end, changed)
  | (r_start, r_end) :: rest, cur_start, cur_end, changed =>
    if cur_end < cur_start then none
    else if r_start ≤ cur_start ∧ r_end ≥ cur_end then none
    else if cur_start ≥ r_start ∧ cur_start ≤ r_end then shrink_pass rest (r_end + 1) cur_end true
    else if cur_end ≥ r_start ∧ cur_end ≤ r_end then shrink_pass rest cur_start (r_start - 1) true
    else shrink_pass rest cur_start cur_end changed

/-- The `while` loop, with the passes that `guard` still allows. -/
def shrink_loop (ranges : List Range) : Nat → Int → Int → Option (Int × Int)
  | 0, cur_start, cur_end => some (cur_start, cur_end)
  | passes + 1, cur_start, cur_end =>
    match shrink_pass ranges cur_start cur_end false with
    | none => none
    | some (cur_start, cur_end, true) => shrink_loop ranges passes cur_start cur_end
    | some (cur_start, cur_end, false) => some (cur_start, cur_end)

def shrink_to_avoid (start stop : Int) (requested : List Range) : Option Range :=
  if requested = [] then if stop < start then none else some (start, stop)
  else
    match shrink_loop requested (requested.length + 1) start stop with
    | none => none
    | some (cur_start, cur_end) => if cur_end < cur_start then none else some (cur_start, cur_end)

section Pass

variable {ranges : List Range}

/-- Everything the ranges already cut off a window is covered by them. -/
structure Clipped (ranges : List Range) (window cur : Range) : Prop where
  start_le : window.1 ≤ cur.1
  le_end : cur.2 ≤ window.2
  before : ∀ x, window.1 ≤ x → x < cur.1 → Covered ranges x
  after : ∀ x, cur.2 < x → x ≤ window.2 → Covered ranges x

theorem Clipped.refl (ranges : List Range) (window : Range) : Clipped ranges window window :=
  ⟨Int.le_refl _, Int.le_refl _, fun x _ _ => by omega, fun x _ _ => by omega⟩

theorem Clipped.all_covered {window cur : Range} (h : Clipped ranges window cur)
    (hcur : ∀ x, InRange cur x → Covered ranges x) :
    ∀ x, InRange window x → Covered ranges x := by
  intro x hx
  by_cases hbefore : x < cur.1
  · exact h.before x hx.1 hbefore
  · by_cases hafter : cur.2 < x
    · exact h.after x hafter hx.2
    · exact hcur x ⟨by omega, by omega⟩

theorem Clipped.trans {window cur next : Range} (hfirst : Clipped ranges window cur)
    (hsecond : Clipped ranges cur next) : Clipped ranges window next := by
  refine ⟨Int.le_trans hfirst.start_le hsecond.start_le, Int.le_trans hsecond.le_end hfirst.le_end,
    ?_, ?_⟩
  · intro x hx hnext
    by_cases hcur : x < cur.1
    · exact hfirst.before x hx hcur
    · exact hsecond.before x (by omega) hnext
  · intro x hnext hx
    by_cases hcur : cur.2 < x
    · exact hfirst.after x hcur hx
    · exact hsecond.after x hnext (by omega)

/-- Cutting a range off the front of a window it reaches into. -/
theorem clipped_front {cur range : Range} (hrange : range ∈ ranges) (hstart : InRange range cur.1) :
    Clipped ranges cur (range.2 + 1, cur.2) := by
  obtain ⟨hlow, hhigh⟩ := hstart
  refine ⟨by simp only; omega, Int.le_refl _, ?_, ?_⟩
  · intro x hx hnext
    exact ⟨range, hrange, by omega, by simp only at hnext; omega⟩
  · intro x hnext hx
    simp only at hnext
    omega

theorem clipped_back {cur range : Range} (hrange : range ∈ ranges) (hend : InRange range cur.2) :
    Clipped ranges cur (cur.1, range.1 - 1) := by
  obtain ⟨hlow, hhigh⟩ := hend
  refine ⟨Int.le_refl _, by simp only; omega, ?_, ?_⟩
  · intro x hx hnext
    simp only at hnext
    omega
  · intro x hnext hx
    exact ⟨range, hrange, by simp only at hnext; omega, by omega⟩

theorem meeting_front_lt {cur range : Range} (hrange : range ∈ ranges) (hwindow : cur.1 ≤ cur.2)
    (hstart : InRange range cur.1) : meeting ranges (range.2 + 1, cur.2) < meeting ranges cur := by
  have hclipped := clipped_front hrange hstart
  obtain ⟨hlow, hhigh⟩ := hstart
  apply meeting_lt hclipped.start_le hclipped.le_end hrange
  · simp only [meets, Bool.and_eq_true, decide_eq_true_eq]
    omega
  · simp only [meets, Bool.and_eq_false_iff, decide_eq_false_iff_not]
    omega

theorem meeting_back_lt {cur range : Range} (hrange : range ∈ ranges) (hwindow : cur.1 ≤ cur.2)
    (hend : InRange range cur.2) : meeting ranges (cur.1, range.1 - 1) < meeting ranges cur := by
  have hclipped := clipped_back hrange hend
  obtain ⟨hlow, hhigh⟩ := hend
  apply meeting_lt hclipped.start_le hclipped.le_end hrange
  · simp only [meets, Bool.and_eq_true, decide_eq_true_eq]
    omega
  · simp only [meets, Bool.and_eq_false_iff, decide_eq_false_iff_not]
    omega

/-- A pass returns early only from a window that is covered. -/
theorem shrink_pass_none {rest : List Range} (hrest : rest ⊆ ranges) {cur : Range} {changed : Bool}
    (hpass : shrink_pass rest cur.1 cur.2 changed = none) :
    ∀ x, InRange cur x → Covered ranges x := by
  induction rest generalizing cur changed with
  | nil => cases hpass
  | cons range rest ih =>
    have hrange : range ∈ ranges := hrest List.mem_cons_self
    have htail : rest ⊆ ranges := fun other hother => hrest (List.mem_cons_of_mem _ hother)
    rw [shrink_pass] at hpass
    split at hpass
    · intro x hx
      have := hx.1
      have := hx.2
      omega
    · split at hpass
      · rename_i hcovers
        exact fun x hx => ⟨range, hrange, Int.le_trans hcovers.1 hx.1, Int.le_trans hx.2 hcovers.2⟩
      · split at hpass
        · rename_i hstart
          exact (clipped_front hrange hstart).all_covered (ih htail hpass)
        · split at hpass
          · rename_i hend
            exact (clipped_back hrange hend).all_covered (ih htail hpass)
          · exact ih htail hpass

/-- A pass that runs through clips the window. If it changed something the
window meets fewer ranges than before; if not, no range reaches its ends. -/
theorem shrink_pass_some {rest : List Range} (hrest : rest ⊆ ranges) {cur next : Range}
    {changed after : Bool}
    (hpass : shrink_pass rest cur.1 cur.2 changed = some (next.1, next.2, after)) :
    Clipped ranges cur next ∧
      (after = true → changed = true ∨ meeting ranges next < meeting ranges cur) ∧
      (after = false → changed = false ∧ next = cur ∧ (rest ≠ [] → cur.1 ≤ cur.2) ∧
        ∀ range ∈ rest, ¬ InRange range cur.1 ∧ ¬ InRange range cur.2) := by
  induction rest generalizing cur changed with
  | nil =>
    obtain ⟨hstart, hend⟩ := Prod.mk.inj (Option.some.inj hpass)
    obtain ⟨hend, hchanged⟩ := Prod.mk.inj hend
    obtain rfl : cur = next := Prod.ext hstart hend
    subst hchanged
    exact ⟨Clipped.refl ranges cur, fun h => .inl h, fun h => ⟨h, rfl, by simp, by simp⟩⟩
  | cons range rest ih =>
    have hrange : range ∈ ranges := hrest List.mem_cons_self
    have htail : rest ⊆ ranges := fun other hother => hrest (List.mem_cons_of_mem _ hother)
    rw [shrink_pass] at hpass
    split at hpass
    · cases hpass
    · rename_i hwindow
      split at hpass
      · cases hpass
      · split at hpass
        · rename_i hstart
          have hclipped := clipped_front hrange hstart
          have hfewer := meeting_front_lt hrange (Int.not_lt.mp hwindow) hstart
          have hstep : shrink_pass rest (range.2 + 1, cur.2).1 (range.2 + 1, cur.2).2 true =
              some (next.1, next.2, after) := hpass
          obtain ⟨hnext, _, hsame⟩ := ih htail hstep
          have hless : meeting ranges next ≤ meeting ranges (range.2 + 1, cur.2) :=
            meeting_mono hnext.start_le hnext.le_end
          refine ⟨hclipped.trans hnext, fun _ => .inr (by omega), ?_⟩
          intro hafter
          cases (hsame hafter).1
        · rename_i hnotStart
          split at hpass
          · rename_i hend
            have hclipped := clipped_back hrange hend
            have hfewer := meeting_back_lt hrange (Int.not_lt.mp hwindow) hend
            have hstep : shrink_pass rest (cur.1, range.1 - 1).1 (cur.1, range.1 - 1).2 true =
                some (next.1, next.2, after) := hpass
            obtain ⟨hnext, _, hsame⟩ := ih htail hstep
            have hless : meeting ranges next ≤ meeting ranges (cur.1, range.1 - 1) :=
              meeting_mono hnext.start_le hnext.le_end
            refine ⟨hclipped.trans hnext, fun _ => .inr (by omega), ?_⟩
            intro hafter
            cases (hsame hafter).1
          · rename_i hnotEnd
            obtain ⟨hnext, hfewer, hsame⟩ := ih htail hpass
            refine ⟨hnext, hfewer, ?_⟩
            intro hafter
            obtain ⟨hchanged, heq, _, hfree⟩ := hsame hafter
            refine ⟨hchanged, heq, fun _ => Int.not_lt.mp hwindow, ?_⟩
            intro other hother
            rcases List.mem_cons.mp hother with rfl | hother
            · exact ⟨hnotStart, hnotEnd⟩
            · exact hfree other hother

end Pass

section Shrink

variable {requested : List Range}

/-- Each pass that changes the window leaves a range behind, so the bound on the
passes is never what ends the loop. -/
theorem shrink_loop_spec (hsome : requested ≠ []) {passes : Nat} {cur : Range}
    (hpasses : meeting requested cur < passes) :
    match shrink_loop requested passes cur.1 cur.2 with
    | none => ∀ x, InRange cur x → Covered requested x
    | some kept => Trimmed requested cur kept := by
  induction passes generalizing cur with
  | zero => omega
  | succ passes ih =>
    rw [shrink_loop]
    cases hpass : shrink_pass requested cur.1 cur.2 false with
    | none => exact shrink_pass_none (List.Subset.refl _) hpass
    | some result =>
      obtain ⟨next_start, next_end, after⟩ := result
      have hstep : shrink_pass requested cur.1 cur.2 false =
          some ((next_start, next_end).1, (next_start, next_end).2, after) := hpass
      obtain ⟨hclipped, hfewer, hsame⟩ := shrink_pass_some (List.Subset.refl _) hstep
      cases after with
      | true =>
        have hless : meeting requested (next_start, next_end) < passes := by
          rcases hfewer rfl with hfalse | hless
          · cases hfalse
          · omega
        have hrest := ih hless
        simp only at hrest ⊢
        cases hloop : shrink_loop requested passes next_start next_end with
        | none =>
          rw [hloop] at hrest
          exact hclipped.all_covered hrest
        | some kept =>
          rw [hloop] at hrest
          have hkept : Clipped requested cur kept := by
            refine hclipped.trans ⟨hrest.start_le, hrest.le_end, hrest.before, hrest.after⟩
          exact ⟨hrest.nonempty, hkept.start_le, hkept.le_end, hkept.before, hkept.after,
            hrest.start_free, hrest.end_free⟩
      | false =>
        obtain ⟨_, heq, hwindow, hfree⟩ := hsame rfl
        rw [heq] at hclipped
        have hends : ¬ Covered requested cur.1 ∧ ¬ Covered requested cur.2 := by
          constructor
          · rintro ⟨range, hrange, hin⟩
            exact (hfree range hrange).1 hin
          · rintro ⟨range, hrange, hin⟩
            exact (hfree range hrange).2 hin
        simp only [heq]
        exact ⟨hwindow hsome, hclipped.start_le, hclipped.le_end, hclipped.before, hclipped.after,
          hends.1, hends.2⟩

/-- `shrink_to_avoid` gives up on a window only if the requested ranges cover it. -/
theorem shrink_to_avoid_none {start stop : Int} (hnone : shrink_to_avoid start stop requested = none) :
    ∀ x, InRange (start, stop) x → Covered requested x := by
  rw [shrink_to_avoid] at hnone
  split at hnone
  · split at hnone
    · intro x hx
      have := hx.1
      have := hx.2
      simp only at *
      omega
    · cases hnone
  · rename_i hsome
    have hpasses : meeting requested (start, stop) < requested.length + 1 :=
      Nat.lt_succ_of_le List.countP_le_length
    have hspec := shrink_loop_spec hsome hpasses
    simp only at hspec
    split at hnone
    · rename_i hloop
      rw [hloop] at hspec
      exact hspec
    · rename_i kept_start kept_end hloop
      rw [hloop] at hspec
      have hnonempty := hspec.nonempty
      simp only at hnonempty
      rw [if_neg (Int.not_lt.mpr hnonempty)] at hnone
      cases hnone

/-- It keeps what lies between the first and the last free byte. -/
theorem shrink_to_avoid_some {start stop : Int} {kept : Range}
    (hkept : shrink_to_avoid start stop requested = some kept) :
    Trimmed requested (start, stop) kept := by
  rw [shrink_to_avoid] at hkept
  split at hkept
  · rename_i hempty
    split at hkept
    · cases hkept
    · rename_i hwindow
      obtain rfl := Option.some.inj hkept
      rw [hempty]
      refine ⟨Int.not_lt.mp hwindow, Int.le_refl _, Int.le_refl _, ?_, ?_, by simp, by simp⟩
      · intro x hx hlt
        omega
      · intro x hlt hx
        omega
  · rename_i hsome
    have hpasses : meeting requested (start, stop) < requested.length + 1 :=
      Nat.lt_succ_of_le List.countP_le_length
    have hspec := shrink_loop_spec hsome hpasses
    simp only at hspec
    split at hkept
    · cases hkept
    · rename_i kept_start kept_end hloop
      rw [hloop] at hspec
      split at hkept
      · cases hkept
      · obtain rfl := Option.some.inj hkept
        exact hspec

end Shrink

end amuled.download.ics
