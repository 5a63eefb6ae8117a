import Mathlib.Data.List.Basic

namespace appending

/-- Code that appends to a buffer. What it has appended stays where it raises. -/
abbrev Appending (α ε β : Type) := ExceptT ε (StateM (List α)) β

variable {α β ε : Type}

def append (piece : List α) : Appending α ε Unit := fun buffer => (.ok (), buffer ++ piece)

/-- A value or an error that is made without the buffer. -/
def made (value : Except ε β) : Appending α ε β := fun buffer => (value, buffer)

/-- The code appends a piece and returns. -/
def Appends (code : Appending α ε Unit) (piece : List α) : Prop :=
  ∀ buffer, code buffer = (.ok (), buffer ++ piece)

/-- The code raises behind the piece that it has appended. -/
def Stops (code : Appending α ε β) (error : ε) (piece : List α) : Prop :=
  ∀ buffer, code buffer = (.error error, buffer ++ piece)

/-- Where the code raises, it leaves the buffer as it was and raises an allowed error. -/
def Atomic (allowed : ε → Prop) (code : Appending α ε Unit) : Prop :=
  ∀ buffer error after, code buffer = (.error error, after) → after = buffer ∧ allowed error

theorem appends_append (piece : List α) : Appends (append piece : Appending α ε Unit) piece := fun _ => rfl

theorem stops_throw (error : ε) : Stops (throw error : Appending α ε β) error [] := by
  intro buffer
  rw [List.append_nil]
  rfl

@[simp] theorem made_ok_bind (value : β) (next : β → Appending α ε Unit) : (made (.ok value) >>= next) = next value :=
  rfl

theorem stops_made_error_bind (error : ε) (next : β → Appending α ε Unit) :
    Stops (made (.error error) >>= next) error [] := by
  intro buffer
  rw [List.append_nil]
  rfl

variable {code : Appending α ε Unit} {front back : List α} {error : ε} {allowed : ε → Prop}

theorem Appends.bind_run {next : Appending α ε Unit} (hcode : Appends code front) (buffer : List α) :
    (code >>= fun _ => next) buffer = next (buffer ++ front) := by
  change ExceptT.bindCont (fun _ => next) (code buffer).1 (code buffer).2 = _
  rw [hcode buffer]
  rfl

theorem Appends.then {next : Appending α ε Unit} (hcode : Appends code front) (hnext : Appends next back) :
    Appends (code >>= fun _ => next) (front ++ back) := by
  intro buffer
  rw [hcode.bind_run, hnext, List.append_assoc]

theorem Appends.then_stops {next : Appending α ε Unit} (hcode : Appends code front) (hnext : Stops next error back) :
    Stops (code >>= fun _ => next) error (front ++ back) := by
  intro buffer
  rw [hcode.bind_run, hnext, List.append_assoc]

theorem Stops.then {next : Appending α ε Unit} (hcode : Stops code error front) :
    Stops (code >>= fun _ => next) error front := by
  intro buffer
  change ExceptT.bindCont (fun _ => next) (code buffer).1 (code buffer).2 = _
  rw [hcode buffer]
  rfl

theorem Appends.atomic (hcode : Appends code front) : Atomic allowed code := by
  intro buffer error after hrun
  rw [hcode buffer] at hrun
  exact absurd (Prod.mk.inj hrun).1 (by simp)

theorem Stops.atomic_iff (hcode : Stops code error front) : Atomic allowed code ↔ front = [] ∧ allowed error := by
  constructor
  · intro hatomic
    obtain ⟨hbuffer, hallowed⟩ := hatomic [] error front (hcode [])
    exact ⟨hbuffer, hallowed⟩
  · rintro ⟨hfront, hallowed⟩ buffer error' after hrun
    rw [hcode buffer, Prod.mk.injEq, Except.error.injEq] at hrun
    rw [← hrun.2, ← hrun.1, hfront, List.append_nil]
    exact ⟨rfl, hallowed⟩

section Settles

/-- The code returns in one case and raises in the other, whatever the buffer. -/
structure Settles (code : Appending α ε Unit) (returns : Prop) : Prop where
  appends : returns → ∃ piece, Appends code piece
  stops : ¬returns → ∃ error piece, Stops code error piece

variable {first second : Prop}

theorem Settles.congr (hcode : Settles code first) (hiff : first ↔ second) : Settles code second :=
  propext hiff ▸ hcode

theorem settles_append (piece : List α) : Settles (append piece : Appending α ε Unit) True where
  appends _ := ⟨piece, appends_append piece⟩
  stops hfalse := absurd trivial hfalse

theorem settles_throw (error : ε) : Settles (throw error : Appending α ε Unit) False where
  appends hfalse := hfalse.elim
  stops _ := ⟨error, [], stops_throw error⟩

theorem settles_ite {condition : Prop} [Decidable condition] {code' : Appending α ε Unit}
    (hcode : condition → Settles code first) (hcode' : ¬condition → Settles code' second) :
    Settles (if condition then code else code') (if condition then first else second) := by
  by_cases hcondition : condition
  · rw [if_pos hcondition, if_pos hcondition]
    exact hcode hcondition
  · rw [if_neg hcondition, if_neg hcondition]
    exact hcode' hcondition

theorem Settles.then {next : Appending α ε Unit} (hcode : Settles code first) (hnext : Settles next second) :
    Settles (code >>= fun _ => next) (first ∧ second) where
  appends := by
    rintro ⟨hfirst, hsecond⟩
    obtain ⟨front, hfront⟩ := hcode.appends hfirst
    obtain ⟨back, hback⟩ := hnext.appends hsecond
    exact ⟨front ++ back, hfront.then hback⟩
  stops := by
    intro hnot
    by_cases hfirst : first
    · obtain ⟨front, hfront⟩ := hcode.appends hfirst
      obtain ⟨error, back, hback⟩ := hnext.stops fun hsecond => hnot ⟨hfirst, hsecond⟩
      exact ⟨error, front ++ back, hfront.then_stops hback⟩
    · obtain ⟨error, front, hfront⟩ := hcode.stops hfirst
      exact ⟨error, front, hfront.then⟩

theorem settles_made_bind {value : Except ε β} {next : β → Appending α ε Unit} {returns : β → Prop}
    (hnext : ∀ b, Settles (next b) (returns b)) : Settles (made value >>= next) (∃ b, value = .ok b ∧ returns b) := by
  cases value with
  | ok b =>
    rw [made_ok_bind]
    exact (hnext b).congr ⟨fun hb => ⟨b, rfl, hb⟩, fun ⟨_, hb', hreturns⟩ => Except.ok.inj hb' ▸ hreturns⟩
  | error error =>
    refine ⟨fun ⟨_, hb, _⟩ => absurd hb (by simp), fun _ => ⟨error, [], stops_made_error_bind error next⟩⟩

end Settles

end appending
