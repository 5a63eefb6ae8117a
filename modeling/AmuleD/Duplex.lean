import Mathlib.Data.List.Basic

/-! Two machines that send to each other over two queues. -/

namespace duplex

/-- Two machines, each with what it does on something that the other one has sent. -/
structure Link (σ τ α β : Type) where
  left : σ → α → σ × List β
  right : τ → β → τ × List α

/-- The states of both machines, and what is on its way to them. -/
structure Config (σ τ α β : Type) where
  left : σ
  right : τ
  to_left : List α
  to_right : List β

/-- The machine that receives next. -/
inductive Side where
  | left
  | right
  deriving DecidableEq

variable {σ τ α β : Type}

/-- Nothing is on its way. -/
def Config.Quiet (config : Config σ τ α β) : Prop := config.to_left = [] ∧ config.to_right = []

namespace Link

variable (link : Link σ τ α β)

/-- The first of what is on its way to one side is delivered. -/
def deliver (config : Config σ τ α β) : Side → Option (Config σ τ α β)
  | .left =>
    match config.to_left with
    | [] => none
    | first :: rest =>
      let (state, sent) := link.left config.left first
      some ⟨state, config.right, rest, config.to_right ++ sent⟩
  | .right =>
    match config.to_right with
    | [] => none
    | first :: rest =>
      let (state, sent) := link.right config.right first
      some ⟨config.left, state, config.to_left ++ sent, rest⟩

/-- Deliveries one after the other, each of which finds something to deliver. -/
def run (config : Config σ τ α β) : List Side → Option (Config σ τ α β)
  | [] => some config
  | side :: schedule => (link.deliver config side).bind fun next => run next schedule

variable {link} {config next other last : Config σ τ α β} {side : Side} {schedule : List Side}

theorem run_cons (hdeliver : link.deliver config side = some next) :
    link.run config (side :: schedule) = link.run next schedule := by
  rw [run, hdeliver, Option.bind_some]

theorem deliver_left {first : α} {rest : List α} {state : σ} {sent : List β} (hqueue : config.to_left = first :: rest)
    (hleft : link.left config.left first = (state, sent)) :
    link.deliver config .left = some ⟨state, config.right, rest, config.to_right ++ sent⟩ := by
  rw [deliver, hqueue]
  simp only [hleft]

theorem deliver_right {first : β} {rest : List β} {state : τ} {sent : List α}
    (hqueue : config.to_right = first :: rest) (hright : link.right config.right first = (state, sent)) :
    link.deliver config .right = some ⟨config.left, state, config.to_left ++ sent, rest⟩ := by
  rw [deliver, hqueue]
  simp only [hright]

theorem run_left {first : α} {rest : List α} {state : σ} {sent : List β} (hqueue : config.to_left = first :: rest)
    (hleft : link.left config.left first = (state, sent)) :
    link.run config (.left :: schedule) =
      link.run ⟨state, config.right, rest, config.to_right ++ sent⟩ schedule :=
  run_cons (deliver_left hqueue hleft)

theorem run_right {first : β} {rest : List β} {state : τ} {sent : List α} (hqueue : config.to_right = first :: rest)
    (hright : link.right config.right first = (state, sent)) :
    link.run config (.right :: schedule) =
      link.run ⟨config.left, state, config.to_left ++ sent, rest⟩ schedule :=
  run_cons (deliver_right hqueue hright)

theorem not_quiet_of_deliver (hdeliver : link.deliver config side = some next) : ¬config.Quiet := by
  rintro ⟨hleft, hright⟩
  cases side with
  | left =>
    rw [deliver, hleft] at hdeliver
    cases hdeliver
  | right =>
    rw [deliver, hright] at hdeliver
    cases hdeliver

/-- Deliveries to both sides may change places. -/
theorem diamond (hleft : link.deliver config .left = some next) (hright : link.deliver config .right = some other) :
    ∃ joined, link.deliver next .right = some joined ∧ link.deliver other .left = some joined := by
  simp only [deliver] at hleft hright
  cases hto_left : config.to_left with
  | nil =>
    rw [hto_left] at hleft
    cases hleft
  | cons first rest =>
    cases hto_right : config.to_right with
    | nil =>
      rw [hto_right] at hright
      cases hright
    | cons second more =>
      rw [hto_left] at hleft
      rw [hto_right] at hright
      cases hleft
      cases hright
      exact ⟨_, by rw [deliver, hto_right]; rfl, by rw [deliver, hto_left]; rfl⟩

/-- A schedule that comes to rest may begin with any delivery. -/
theorem run_from (hrun : link.run config schedule = some last) (hquiet : last.Quiet)
    (hdeliver : link.deliver config side = some next) :
    ∃ rest, link.run next rest = some last ∧ rest.length + 1 = schedule.length := by
  induction schedule generalizing config next with
  | nil =>
    cases hrun
    exact absurd hquiet (not_quiet_of_deliver hdeliver)
  | cons first schedule ih =>
    obtain ⟨middle, hfirst, hrest⟩ := Option.bind_eq_some_iff.mp hrun
    by_cases hsame : first = side
    · subst hsame
      rw [hdeliver] at hfirst
      cases hfirst
      exact ⟨schedule, hrest, rfl⟩
    · -- the other side comes first in the schedule, and its delivery is put behind this one
      obtain ⟨joined, hnext, hmiddle⟩ : ∃ joined, link.deliver next first = some joined ∧
          link.deliver middle side = some joined := by
        cases first <;> cases side
        · exact absurd rfl hsame
        · obtain ⟨joined, hmiddle, hnext⟩ := diamond hfirst hdeliver
          exact ⟨joined, hnext, hmiddle⟩
        · exact diamond hdeliver hfirst
        · exact absurd rfl hsame
      obtain ⟨rest, hrun, hlength⟩ := ih hrest hmiddle
      refine ⟨first :: rest, ?_, congrArg (· + 1) hlength⟩
      rw [run_cons hnext, hrun]

/-- Where one schedule comes to rest, every other one can be continued to the same rest, after as many deliveries. -/
theorem settles (hrun : link.run config schedule = some last) (hquiet : last.Quiet) {begun : List Side}
    (hbegun : link.run config begun = some other) :
    ∃ more, link.run other more = some last ∧ begun.length + more.length = schedule.length := by
  induction begun generalizing config schedule with
  | nil =>
    cases hbegun
    exact ⟨schedule, hrun, Nat.zero_add _⟩
  | cons side begun ih =>
    obtain ⟨next, hdeliver, hrest⟩ := Option.bind_eq_some_iff.mp hbegun
    obtain ⟨rest, hnext, hlength⟩ := run_from hrun hquiet hdeliver
    obtain ⟨more, hmore, htotal⟩ := ih hnext hrest
    refine ⟨more, hmore, ?_⟩
    rw [← hlength, ← htotal, List.length_cons]
    omega

end Link

end duplex
