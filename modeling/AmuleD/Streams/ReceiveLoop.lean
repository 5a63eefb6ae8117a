import Mathlib.Data.List.Basic
import AmuleD.Runs

namespace receiving

/-- What the body of a receive loop does with one arrival: it goes on, or ends the loop. -/
inductive Verdict (σ ρ ε : Type) where
  | more (state : σ)
  | finish (value : ρ) (state : σ)
  | fail (e : ε) (state : σ)

/-- The state that a verdict leaves. -/
def Verdict.state {σ ρ ε : Type} : Verdict σ ρ ε → σ
  | .more state => state
  | .finish _ state => state
  | .fail _ state => state

/-- Where a loop is when it has ended, with what is still unread, or waits for more. -/
inductive Outcome (α σ ρ ε : Type) where
  | waiting (state : σ)
  | returned (value : ρ) (state : σ) (unread : List α)
  | raised (e : ε) (state : σ) (unread : List α)

variable {α σ ρ ε : Type}

/-- A loop that receives until its body ends it. -/
def loop (body : σ → α → Verdict σ ρ ε) (state : σ) : List α → Outcome α σ ρ ε
  | [] => .waiting state
  | arrival :: rest =>
    match body state arrival with
    | .more next => loop body next rest
    | .finish value final => .returned value final rest
    | .fail e final => .raised e final rest

/-- The body goes on at every one of the arrivals, which take the loop from one state to another. -/
inductive Passes (body : σ → α → Verdict σ ρ ε) : σ → List α → σ → Prop where
  | nil (state : σ) : Passes body state [] state
  | cons {state next final : σ} {arrival : α} {rest : List α} (hbody : body state arrival = .more next)
      (hrest : Passes body next rest final) : Passes body state (arrival :: rest) final

/-- What is received after a loop has returned goes to the next one. -/
def Outcome.andThen {τ : Type} (outcome : Outcome α σ ρ ε) (next : ρ → σ → List α → Outcome α σ τ ε) :
    Outcome α σ τ ε :=
  match outcome with
  | .waiting state => .waiting state
  | .returned value state unread => next value state unread
  | .raised e state unread => .raised e state unread

variable {body : σ → α → Verdict σ ρ ε} {state next final : σ} {front rest unread : List α}

theorem Passes.trans (hfront : Passes body state front next) (hrest : Passes body next rest final) :
    Passes body state (front ++ rest) final := by
  induction hfront with
  | nil => exact hrest
  | cons hbody _ ih => exact .cons hbody (ih hrest)

/-- Where the body goes on at every arrival, the loop folds what it does there. -/
theorem Passes.of_forall {β : Type} {arrive : β → α} {after : σ → β → σ} {items : List β}
    (hitems : ∀ item ∈ items, ∀ state, body state (arrive item) = .more (after state item)) :
    Passes body state (items.map arrive) (items.foldl after state) := by
  induction items generalizing state with
  | nil => exact .nil state
  | cons item items ih =>
    obtain ⟨hfirst, hlater⟩ := List.forall_mem_cons.mp hitems
    exact .cons (hfirst state) (ih hlater)

theorem loop_append (hfront : Passes body state front next) :
    loop body state (front ++ rest) = loop body next rest := by
  induction hfront with
  | nil => rfl
  | cons hbody _ ih =>
    rw [List.cons_append, loop, hbody]
    exact ih

/-- A loop returns with the first arrival at which its body returns. -/
theorem loop_eq_returned_iff {value : ρ} {arrivals : List α} :
    loop body state arrivals = .returned value final unread ↔
      ∃ front next last, arrivals = front ++ last :: unread ∧ Passes body state front next ∧
        body next last = .finish value final := by
  constructor
  · intro hloop
    induction arrivals generalizing state with
    | nil => cases hloop
    | cons arrival rest ih =>
      rw [loop] at hloop
      cases hbody : body state arrival with
      | more next =>
        rw [hbody] at hloop
        obtain ⟨front, middle, last, rfl, hpasses, hlast⟩ := ih hloop
        exact ⟨arrival :: front, middle, last, rfl, .cons hbody hpasses, hlast⟩
      | finish value final =>
        rw [hbody] at hloop
        cases hloop
        exact ⟨[], state, arrival, rfl, .nil state, hbody⟩
      | fail e final =>
        rw [hbody] at hloop
        cases hloop
  · rintro ⟨front, next, last, rfl, hpasses, hlast⟩
    rw [loop_append hpasses, loop, hlast]

/-- A loop whose body returns at none of the arrivals does not return. -/
theorem loop_ne_returned {value : ρ} {arrivals : List α}
    (hnever : ∀ arrival ∈ arrivals, ∀ state, body state arrival ≠ .finish value final) :
    loop body state arrivals ≠ .returned value final unread := by
  intro hloop
  obtain ⟨front, next, last, rfl, _, hlast⟩ := loop_eq_returned_iff.mp hloop
  exact hnever last (List.mem_append_right front List.mem_cons_self) next hlast


/-- A session on which lookups follow one another: the one that waits, and what the earlier ones have returned. -/
structure Lookups (κ σ ρ : Type) where
  waiting : Option κ
  state : σ
  results : List (κ × ρ)

/-- A lookup starts, or the one that waits reads what has arrived. A closed session has no further events. -/
inductive LookupEvent (κ α : Type) where
  | start (lookup : κ)
  | read (arrival : α)

namespace Lookups

variable {κ α σ ρ ε : Type}

/-- What a verdict on an arrival makes of the session on which a lookup waits. -/
def after (lookup : κ) (results : List (κ × ρ)) : Verdict σ ρ ε → Lookups κ σ ρ
  | .more next => ⟨some lookup, next, results⟩
  | .finish value final => ⟨none, final, results ++ [(lookup, value)]⟩
  | .fail _ final => ⟨none, final, results⟩

/-- Each lookup has its receive loop, and starts only when no other one waits. -/
def step (body : κ → σ → α → Verdict σ ρ ε) (session : Lookups κ σ ρ) : LookupEvent κ α → Lookups κ σ ρ
  | .start lookup =>
    match session.waiting with
    | some _ => session
    | none => { session with waiting := some lookup }
  | .read arrival =>
    match session.waiting with
    | some lookup => after lookup session.results (body lookup session.state arrival)
    | none => session

/-- Every result is one for its lookup, and the state of the session is as it should be. -/
def Matched (matching : κ → ρ → Prop) (good : σ → Prop) (session : Lookups κ σ ρ) : Prop :=
  good session.state ∧ ∀ result ∈ session.results, matching result.1 result.2

/-- A verdict leaves a good state, and what it returns is right. -/
def Fits (matching : ρ → Prop) (good : σ → Prop) (verdict : Verdict σ ρ ε) : Prop :=
  good verdict.state ∧ ∀ value final, verdict = .finish value final → matching value

/-- What a lookup that waits reads meets a condition. -/
def ReadsOnly (condition : κ → α → Prop) (session : Lookups κ σ ρ) : LookupEvent κ α → Prop
  | .start _ => True
  | .read arrival => ∀ lookup, session.waiting = some lookup → condition lookup arrival

variable {matching : κ → ρ → Prop} {good : σ → Prop} {condition : κ → α → Prop} {body : κ → σ → α → Verdict σ ρ ε}
  {session : Lookups κ σ ρ}

theorem matched_after_iff {lookup : κ} {results : List (κ × ρ)} {verdict : Verdict σ ρ ε}
    (hresults : ∀ result ∈ results, matching result.1 result.2) :
    Matched matching good (after lookup results verdict) ↔ Fits (matching lookup) good verdict := by
  cases verdict with
  | more next =>
    apply and_congr_right
    intro _
    exact iff_of_true hresults fun value final hfinish => by cases hfinish
  | fail e final =>
    apply and_congr_right
    intro _
    exact iff_of_true hresults fun value final hfinish => by cases hfinish
  | finish value final =>
    apply and_congr_right
    intro _
    rw [after, List.forall_mem_append, List.forall_mem_singleton, and_iff_right hresults]
    constructor
    · intro hmatching other state hfinish
      cases hfinish
      exact hmatching
    · intro hmatching
      exact hmatching value final rfl

/-- A matched session stays so at an event exactly if what is read there meets the condition. -/
theorem matched_step_iff (hmatched : Matched matching good session)
    (hfits : ∀ lookup state arrival, good state →
      (Fits (matching lookup) good (body lookup state arrival) ↔ condition lookup arrival))
    (event : LookupEvent κ α) :
    Matched matching good (step body session event) ↔ ReadsOnly condition session event := by
  obtain ⟨hgood, hresults⟩ := hmatched
  cases event with
  | start lookup =>
    have hsame : Matched matching good (step body session (.start lookup)) := by
      rw [step]
      cases session.waiting <;> exact ⟨hgood, hresults⟩
    exact iff_of_true hsame trivial
  | read arrival =>
    rw [step, ReadsOnly]
    cases hwaiting : session.waiting with
    | none =>
      have hidle : ∀ lookup, none = some lookup → condition lookup arrival := by
        intro lookup hnone
        cases hnone
      exact iff_of_true ⟨hgood, hresults⟩ hidle
    | some lookup =>
      simp only [Option.some.injEq, forall_eq']
      rw [matched_after_iff hresults]
      exact hfits lookup session.state arrival hgood

/-- A session is matched throughout a run exactly if all that its lookups read meets the condition. -/
theorem matched_throughout_iff {start : Lookups κ σ ρ} (hstart : Matched matching good start)
    (hfits : ∀ lookup state arrival, good state →
      (Fits (matching lookup) good (body lookup state arrival) ↔ condition lookup arrival))
    (events : List (LookupEvent κ α)) :
    (∀ part, part <+: events → Matched matching good (part.foldl (step body) start)) ↔
      runs.AllSteps (step body) start (ReadsOnly condition) events := by
  apply runs.throughout_iff hstart
  · exact fun session event hmatched hreads => (matched_step_iff hmatched hfits event).mpr hreads
  · exact fun session hmatched => hmatched
  · exact fun session event hmatched hnext => (matched_step_iff hmatched hfits event).mp hnext

end Lookups

end receiving
