import Mathlib.Data.List.Induction
import Mathlib.Data.List.Infix

namespace runs

variable {σ ε : Type} {step : σ → ε → σ} {start : σ}

/-- What every step keeps holds after every run. -/
theorem invariant {kept : σ → Prop} (hstart : kept start) (hstep : ∀ state event, kept state → kept (step state event))
    (events : List ε) : kept (events.foldl step start) := by
  induction events using List.reverseRecOn with
  | nil => exact hstart
  | append_singleton events event ih =>
    rw [List.foldl_concat]
    exact hstep _ event ih

/-- What every step of a run keeps and one of them brings about holds afterwards. -/
theorem invariant_of_mem {kept : σ → Prop} {events : List ε} {event : ε} (hmem : event ∈ events)
    (hmake : ∀ state, kept (step state event)) (hkeep : ∀ state, ∀ other ∈ events, kept state → kept (step state other)) :
    kept (events.foldl step start) := by
  induction events using List.reverseRecOn with
  | nil => cases hmem
  | append_singleton events last ih =>
    rw [List.foldl_concat]
    rcases List.mem_append.mp hmem with hbefore | hlast
    · have hkept := ih hbefore fun state other hother => hkeep state other (List.mem_append_left _ hother)
      exact hkeep _ last (List.mem_append_right _ List.mem_cons_self) hkept
    · cases List.mem_singleton.mp hlast
      exact hmake _

/-- Every step of a run meets a condition on the state before it. -/
def AllSteps (step : σ → ε → σ) (start : σ) (condition : σ → ε → Prop) (events : List ε) : Prop :=
  ∀ part event, part ++ [event] <+: events → condition (part.foldl step start) event

theorem AllSteps.of_part {condition : σ → ε → Prop} {part events : List ε}
    (hsteps : AllSteps step start condition events) (hpart : part <+: events) :
    AllSteps step start condition part :=
  fun front event hfront => hsteps front event (hfront.trans hpart)

@[simp] theorem allSteps_nil {condition : σ → ε → Prop} : AllSteps step start condition [] := by
  intro part event hprefix
  simp at hprefix

@[simp] theorem allSteps_cons {condition : σ → ε → Prop} {event : ε} {events : List ε} :
    AllSteps step start condition (event :: events) ↔
      condition start event ∧ AllSteps step (step start event) condition events := by
  constructor
  · intro hsteps
    refine ⟨hsteps [] event (List.prefix_append [event] events), fun part other hprefix => ?_⟩
    exact hsteps (event :: part) other (List.cons_prefix_cons.mpr ⟨rfl, hprefix⟩)
  · rintro ⟨hfirst, hrest⟩ part other hprefix
    cases part with
    | nil =>
      obtain ⟨rfl, -⟩ := List.cons_prefix_cons.mp hprefix
      exact hfirst
    | cons first part =>
      obtain ⟨rfl, hpart⟩ := List.cons_prefix_cons.mp hprefix
      exact hrest part other hpart

/-- A condition on the event alone. -/
theorem allSteps_event_iff {condition : ε → Prop} {events : List ε} :
    AllSteps step start (fun _ event => condition event) events ↔ ∀ event ∈ events, condition event := by
  induction events generalizing start with
  | nil => simp
  | cons event events ih => rw [allSteps_cons, ih, List.forall_mem_cons]

theorem allSteps_concat {condition : σ → ε → Prop} {event : ε} {events : List ε} :
    AllSteps step start condition (events ++ [event]) ↔
      AllSteps step start condition events ∧ condition (events.foldl step start) event := by
  constructor
  · intro hsteps
    exact ⟨hsteps.of_part (List.prefix_append events [event]), hsteps events event List.prefix_rfl⟩
  · rintro ⟨hbefore, hlast⟩ part other hprefix
    rcases List.prefix_concat_iff.mp hprefix with hwhole | hearlier
    · obtain ⟨rfl, hsame⟩ := List.append_inj' hwhole rfl
      cases hsame
      exact hlast
    · exact hbefore part other hearlier

/-- What a step keeps under a condition holds after every run whose steps meet the condition. -/
theorem invariant_of_allSteps {kept : σ → Prop} {condition : σ → ε → Prop} (hstart : kept start)
    (hstep : ∀ state event, kept state → condition state event → kept (step state event)) {events : List ε}
    (hsteps : AllSteps step start condition events) : kept (events.foldl step start) := by
  induction events using List.reverseRecOn with
  | nil => exact hstart
  | append_singleton events event ih =>
    obtain ⟨hbefore, hlast⟩ := allSteps_concat.mp hsteps
    rw [List.foldl_concat]
    exact hstep _ event (ih hbefore) hlast

/-- Where a condition keeps an invariant, and under the invariant is what is wanted of a step, runs cannot tell
the two apart. -/
theorem allSteps_iff_of_invariant {kept : σ → Prop} {condition wanted : σ → ε → Prop} (hstart : kept start)
    (hstep : ∀ state event, kept state → condition state event → kept (step state event))
    (hiff : ∀ state event, kept state → (wanted state event ↔ condition state event)) (events : List ε) :
    AllSteps step start wanted events ↔ AllSteps step start condition events := by
  induction events generalizing start with
  | nil => exact iff_of_true allSteps_nil allSteps_nil
  | cons event events ih =>
    rw [allSteps_cons, allSteps_cons, hiff start event hstart]
    exact and_congr_right fun hcondition => ih (hstep start event hstart hcondition)

/-- Where a condition on a step decides whether it keeps an invariant, and what is wanted implies the condition
on the step before, it holds throughout a run exactly if all steps meet the condition. -/
theorem throughout_iff {kept wanted : σ → Prop} {condition : σ → ε → Prop} (hstart : kept start)
    (hstep : ∀ state event, kept state → condition state event → kept (step state event))
    (hwanted : ∀ state, kept state → wanted state)
    (hneeds : ∀ state event, kept state → wanted (step state event) → condition state event) (events : List ε) :
    (∀ part, part <+: events → wanted (part.foldl step start)) ↔ AllSteps step start condition events := by
  constructor
  · intro hthroughout
    induction events using List.reverseRecOn with
    | nil => exact allSteps_nil
    | append_singleton events event ih =>
      have hbefore := ih fun part hpart => hthroughout part (hpart.trans (List.prefix_append events [event]))
      have hnext := hthroughout _ List.prefix_rfl
      rw [List.foldl_concat] at hnext
      exact allSteps_concat.mpr ⟨hbefore, hneeds _ _ (invariant_of_allSteps hstart hstep hbefore) hnext⟩
  · intro hsteps part hpart
    exact hwanted _ (invariant_of_allSteps hstart hstep (hsteps.of_part hpart))

/-- Where a condition keeps an invariant, and under the invariant implies what is wanted of a step, it does so in runs. -/
theorem AllSteps.of_invariant {kept : σ → Prop} {condition wanted : σ → ε → Prop} (hstart : kept start)
    (hstep : ∀ state event, kept state → condition state event → kept (step state event))
    (hwanted : ∀ state event, kept state → condition state event → wanted state event) {events : List ε}
    (hsteps : AllSteps step start condition events) : AllSteps step start wanted events := by
  intro part event hprefix
  have hpart := hsteps.of_part ((List.prefix_append part [event]).trans hprefix)
  exact hwanted _ event (invariant_of_allSteps hstart hstep hpart) (hsteps part event hprefix)

/-- What a step preserves or gains exactly under a condition holds after a run exactly if all its steps meet it. -/
theorem final_iff {kept wanted : σ → Prop} {condition : σ → ε → Prop} (hstart : kept start) (hwanted : wanted start)
    (hstep : ∀ state event, kept state → kept (step state event))
    (hiff : ∀ state event, kept state → (wanted (step state event) ↔ wanted state ∧ condition state event))
    (events : List ε) : wanted (events.foldl step start) ↔ AllSteps step start condition events := by
  induction events using List.reverseRecOn with
  | nil => exact iff_of_true hwanted allSteps_nil
  | append_singleton events event ih =>
    rw [List.foldl_concat, hiff _ event (invariant hstart hstep events), ih, allSteps_concat]

end runs
