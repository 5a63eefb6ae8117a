import Mathlib.Data.List.Count
import Mathlib.Data.List.Induction
import Mathlib.Data.List.Perm.Basic

namespace register

variable {ν : Type}

/-- What reaches a register: a reply of its own, which enters one value where it is the first and another
where it is not; a reply that enters nothing; a value that only an empty register takes. -/
inductive Event (ν : Type) where
  | own (first later : ν)
  | pass
  | offer (value : ν)

namespace Event

def isOwn : Event ν → Bool
  | own _ _ => true
  | _ => false

def isReply : Event ν → Bool
  | offer _ => false
  | _ => true

def offered : Event ν → Option ν
  | offer value => some value
  | _ => none

theorem isReply_of_isOwn {event : Event ν} (hown : event.isOwn = true) : event.isReply = true := by
  cases event with
  | own first later => rfl
  | pass => cases hown
  | offer value => cases hown

end Event

/-- A register, and whether its next reply is the first. -/
structure Register (ν : Type) where
  fresh : Bool
  value : Option ν

namespace Register

def step (self : Register ν) : Event ν → Register ν
  | .own first later => ⟨false, some (if self.fresh then first else later)⟩
  | .pass => ⟨false, self.value⟩
  | .offer value => ⟨self.fresh, some (self.value.getD value)⟩

def run (self : Register ν) (events : List (Event ν)) : Register ν := events.foldl step self

variable {self : Register ν} {events front back : List (Event ν)} {value : ν}

theorem run_append (self : Register ν) (front back : List (Event ν)) :
    self.run (front ++ back) = (self.run front).run back := List.foldl_append

theorem fresh_run (self : Register ν) (events : List (Event ν)) :
    (self.run events).fresh = (self.fresh && !events.any Event.isReply) := by
  induction events generalizing self with
  | nil => simp [run]
  | cons event events ih =>
    rw [run, List.foldl_cons, ← run, ih]
    cases event with
    | own first later => simp [step, Event.isReply]
    | pass => simp [step, Event.isReply]
    | offer value => simp [step, Event.isReply]

/-- Only a reply of its own replaces what a register has. -/
theorem value_run_of_no_own (hno : ∀ event ∈ events, event.isOwn = false) (hvalue : self.value = some value) :
    (self.run events).value = some value := by
  induction events generalizing self with
  | nil => exact hvalue
  | cons event events ih =>
    obtain ⟨hfirst, hrest⟩ := List.forall_mem_cons.mp hno
    rw [run, List.foldl_cons, ← run]
    apply ih hrest
    cases event with
    | own first later => cases hfirst
    | pass => exact hvalue
    | offer other =>
      rw [step, hvalue]
      rfl

/-- An empty register takes the first value that it is offered. -/
theorem value_run_empty (hno : ∀ event ∈ events, event.isOwn = false) (hvalue : self.value = none) :
    (self.run events).value = (events.filterMap Event.offered).head? := by
  induction events generalizing self with
  | nil => exact hvalue
  | cons event events ih =>
    obtain ⟨hfirst, hrest⟩ := List.forall_mem_cons.mp hno
    rw [run, List.foldl_cons, ← run]
    cases event with
    | own first later => cases hfirst
    | pass => exact ih hrest hvalue
    | offer other =>
      have htaken : (self.step (.offer other)).value = some other := by
        rw [step, hvalue]
        rfl
      exact value_run_of_no_own hrest htaken

/-- The last reply that enters something decides, and so does whether it is the first reply. -/
theorem value_run_last {first later : ν} (hback : ∀ event ∈ back, event.isOwn = false) :
    (self.run (front ++ .own first later :: back)).value =
      some (if (self.run front).fresh then first else later) := by
  rw [run_append, run, List.foldl_cons, ← run]
  exact value_run_of_no_own hback rfl

/-- What is in a register came from a reply or was offered. -/
theorem mem_of_value_run (hempty : self.value = none) (hvalue : (self.run events).value = some value) :
    .offer value ∈ events ∨ ∃ first later, .own first later ∈ events ∧ (value = first ∨ value = later) := by
  induction events using List.reverseRecOn with
  | nil => exact absurd (hempty.symm.trans hvalue) (by simp)
  | append_singleton events event ih =>
    have hearlier : (self.run events).value = some value → .offer value ∈ events ++ [event] ∨
        ∃ first later, .own first later ∈ events ++ [event] ∧ (value = first ∨ value = later) := by
      intro hbefore
      rcases ih hbefore with hoffer | ⟨first, later, hown, hsame⟩
      · exact .inl (List.mem_append_left _ hoffer)
      · exact .inr ⟨first, later, List.mem_append_left _ hown, hsame⟩
    rw [run_append] at hvalue
    cases event with
    | own first later =>
      refine .inr ⟨first, later, List.mem_append_right _ List.mem_cons_self, ?_⟩
      have hentered : (if (self.run events).fresh then first else later) = value := Option.some.inj hvalue
      split at hentered
      · exact .inl hentered.symm
      · exact .inr hentered.symm
    | pass => exact hearlier hvalue
    | offer other =>
      have hkept : some ((self.run events).value.getD other) = some value := hvalue
      cases hbefore : (self.run events).value with
      | none =>
        rw [hbefore] at hkept
        cases hkept
        exact .inl (List.mem_append_right _ List.mem_cons_self)
      | some held =>
        rw [hbefore] at hkept
        exact hearlier (hbefore.trans hkept)

end Register

section Order

variable {fresh : Bool} {events arranged : List (Event ν)}

/-- How many of the events are replies. -/
def replies (events : List (Event ν)) : Nat := events.countP Event.isReply

/-- What a reply enters in a register that it reaches after all others. -/
def lasting (fresh : Bool) (events : List (Event ν)) (first later : ν) : ν :=
  if fresh = true ∧ replies events = 1 then first else later

/-- The value that is left does not depend on the order of the events. -/
def OrderFree (fresh : Bool) (events : List (Event ν)) : Prop :=
  ∀ arranged : List (Event ν), arranged.Perm events →
    ((Register.mk fresh none).run arranged).value = ((Register.mk fresh none).run events).value

/-- No event contradicts another: later replies enter the same; one that may come first or later enters the same
in both places; and without a reply that enters something all offers are the same. -/
structure Agree (fresh : Bool) (events : List (Event ν)) : Prop where
  later_eq : ∀ first later first' later', .own first later ∈ events → .own first' later' ∈ events → later = later'
  first_eq : fresh = true → 2 ≤ replies events → events.countP Event.isOwn = 1 →
    ∀ first later, .own first later ∈ events → first = later
  offers_eq : (∀ event ∈ events, event.isOwn = false) →
    ∀ value value', .offer value ∈ events → .offer value' ∈ events → value = value'

theorem perm_of_mem {event : Event ν} (hmem : event ∈ events) : ∃ rest, (event :: rest).Perm events := by
  obtain ⟨front, back, rfl⟩ := List.append_of_mem hmem
  exact ⟨front ++ back, List.perm_middle.symm⟩

theorem replies_cons (event : Event ν) (events : List (Event ν)) :
    replies (event :: events) = replies events + if event.isReply = true then 1 else 0 := List.countP_cons

/-- A reply that is the only one is the only event of its kind. -/
theorem eq_of_replies_eq_one {event event' : Event ν} (hone : replies events = 1) (hevent : event ∈ events)
    (hevent' : event' ∈ events) (hreply : event.isReply = true) (hreply' : event'.isReply = true) :
    event = event' := by
  obtain ⟨rest, hrest⟩ := perm_of_mem hevent
  have hcount : replies (event :: rest) = 1 := (hrest.countP_eq _).trans hone
  rw [replies_cons, if_pos hreply] at hcount
  rcases List.mem_cons.mp (hrest.mem_iff.mpr hevent') with hsame | hother
  · exact hsame.symm
  · have hpos : 0 < replies rest := List.countP_pos_iff.mpr ⟨event', hother, hreply'⟩
    omega

/-- The last item of a kind, where there is one. -/
theorem exists_last {α : Type} (kind : α → Bool) {items : List α} (hsome : ∃ item ∈ items, kind item = true) :
    ∃ front item back, items = front ++ item :: back ∧ kind item = true ∧ ∀ other ∈ back, kind other = false := by
  induction items with
  | nil =>
    obtain ⟨item, hitem, _⟩ := hsome
    cases hitem
  | cons head rest ih =>
    by_cases hlater : ∃ item ∈ rest, kind item = true
    · obtain ⟨front, item, back, rfl, hkind, hback⟩ := ih hlater
      exact ⟨head :: front, item, back, rfl, hkind, hback⟩
    · have hnone : ∀ other ∈ rest, kind other = false := by
        intro other hother
        cases hkind : kind other with
        | false => rfl
        | true => exact absurd ⟨other, hother, hkind⟩ hlater
      obtain ⟨item, hitem, hkind⟩ := hsome
      rcases List.mem_cons.mp hitem with rfl | hrest
      · exact ⟨[], item, rest, rfl, hkind, hnone⟩
      · exact absurd ⟨item, hrest, hkind⟩ hlater

/-- A register is fresh as long as no reply has reached it. -/
theorem fresh_run_iff (front : List (Event ν)) :
    ((Register.mk fresh none).run front).fresh = true ↔ fresh = true ∧ replies front = 0 := by
  rw [Register.fresh_run, Bool.and_eq_true, Bool.not_eq_true', List.any_eq_false, replies, List.countP_eq_zero]

/-- Where no event contradicts another, each reply that enters something says what is left. -/
theorem Agree.value_run (hagree : Agree fresh events) (hperm : arranged.Perm events) {first later : ν}
    (hown : .own first later ∈ events) :
    ((Register.mk fresh none).run arranged).value = some (lasting fresh events first later) := by
  obtain ⟨front, last, back, rfl, hlast, hback⟩ :=
    exists_last Event.isOwn ⟨_, hperm.mem_iff.mpr hown, rfl⟩
  cases last with
  | pass => cases hlast
  | offer value => cases hlast
  | own first' later' =>
    have hmem : Event.own first' later' ∈ events := hperm.mem_iff.mp (List.mem_append_right _ List.mem_cons_self)
    have hlater : later' = later := hagree.later_eq _ _ _ _ hmem hown
    have hcount : replies events = replies front + (replies back + 1) := by
      rw [replies, ← hperm.countP_eq Event.isReply, List.countP_append, List.countP_cons]
      rfl
    rw [Register.value_run_last hback]
    apply congrArg some
    rw [lasting]
    by_cases hfresh : ((Register.mk fresh none).run front).fresh = true
    · rw [if_pos hfresh]
      obtain ⟨hstart, hfront⟩ := (fresh_run_iff front).mp hfresh
      by_cases hone : replies events = 1
      · rw [if_pos ⟨hstart, hone⟩]
        have hsame := eq_of_replies_eq_one hone hmem hown rfl rfl
        injection hsame
      · rw [if_neg fun h => hone h.2]
        have honce : events.countP Event.isOwn = 1 := by
          have hfrontOwn : front.countP Event.isOwn = 0 := by
            rw [List.countP_eq_zero]
            intro event hevent hisOwn
            exact (List.countP_eq_zero.mp hfront) event hevent (Event.isReply_of_isOwn hisOwn)
          have hbackOwn : back.countP Event.isOwn = 0 := by
            rw [List.countP_eq_zero]
            intro event hevent hisOwn
            rw [hback event hevent] at hisOwn
            cases hisOwn
          rw [← hperm.countP_eq Event.isOwn, List.countP_append, List.countP_cons, hfrontOwn, hbackOwn]
          rfl
        rw [hagree.first_eq hstart (by omega) honce _ _ hmem, hlater]
    · rw [if_neg hfresh]
      have hnotOne : ¬ (fresh = true ∧ replies events = 1) := by
        rintro ⟨hstart, hone⟩
        exact hfresh ((fresh_run_iff front).mpr ⟨hstart, by omega⟩)
      rw [if_neg hnotOne, hlater]

theorem Agree.orderFree (hagree : Agree fresh events) : OrderFree fresh events := by
  intro arranged hperm
  by_cases hsome : ∃ event ∈ events, event.isOwn = true
  · obtain ⟨event, hevent, hisOwn⟩ := hsome
    cases event with
    | pass => cases hisOwn
    | offer value => cases hisOwn
    | own first later => rw [hagree.value_run hperm hevent, hagree.value_run (List.Perm.refl _) hevent]
  · have hno : ∀ event ∈ events, event.isOwn = false := by
      intro event hevent
      exact Bool.eq_false_iff.mpr fun hisOwn => hsome ⟨event, hevent, hisOwn⟩
    have hnoArranged : ∀ event ∈ arranged, event.isOwn = false := fun event hevent =>
      hno event (hperm.mem_iff.mp hevent)
    rw [Register.value_run_empty hnoArranged rfl, Register.value_run_empty hno rfl]
    have hoffers := hperm.filterMap Event.offered
    have hmem : ∀ value, value ∈ events.filterMap Event.offered → .offer value ∈ events := by
      intro value hvalue
      obtain ⟨event, hevent, hoffered⟩ := List.mem_filterMap.mp hvalue
      cases event with
      | own first later => cases hoffered
      | pass => cases hoffered
      | offer other =>
        cases hoffered
        exact hevent
    cases hfirst : events.filterMap Event.offered with
    | nil =>
      rw [hfirst] at hoffers
      rw [hoffers.eq_nil]
    | cons value rest =>
      cases hother : arranged.filterMap Event.offered with
      | nil =>
        rw [hfirst, hother] at hoffers
        exact absurd hoffers.symm.eq_nil (List.cons_ne_nil _ _)
      | cons value' rest' =>
        have hvalue := hmem value (by rw [hfirst]; exact List.mem_cons_self)
        have hvalue' := hmem value' (hoffers.mem_iff.mp (by rw [hother]; exact List.mem_cons_self))
        rw [List.head?_cons, List.head?_cons, hagree.offers_eq hno value' value hvalue' hvalue]

/-- A reply with another one before it enters what later replies enter. -/
theorem value_run_behind {rest : List (Event ν)} {first later : ν}
    (hlater : fresh = false ∨ 2 ≤ replies (Event.own first later :: rest)) :
    ((Register.mk fresh none).run (rest ++ [.own first later])).value = some later := by
  rw [Register.value_run_last (by simp)]
  apply congrArg some
  rw [if_neg]
  intro hfresh
  obtain ⟨hstart, hnone⟩ := (fresh_run_iff rest).mp hfresh
  rw [replies_cons, hnone] at hlater
  simp [hstart, Event.isReply] at hlater

theorem OrderFree.agree (hfree : OrderFree fresh events) : Agree fresh events := by
  have hbehind : ∀ first later, .own first later ∈ events → 2 ≤ replies events →
      ((Register.mk fresh none).run events).value = some later := by
    intro first later hown htwo
    obtain ⟨rest, hrest⟩ := perm_of_mem hown
    rw [← hfree _ ((List.perm_append_singleton _ _).trans hrest)]
    apply value_run_behind
    right
    rwa [replies, hrest.countP_eq]
  refine ⟨?_, ?_, ?_⟩
  · intro first later first' later' hown hown'
    by_cases htwo : 2 ≤ replies events
    · have hsame := (hbehind _ _ hown htwo).symm.trans (hbehind _ _ hown' htwo)
      exact Option.some.inj hsame
    · have hpos : 0 < replies events := List.countP_pos_iff.mpr ⟨_, hown, rfl⟩
      have hsame := eq_of_replies_eq_one (by omega) hown hown' rfl rfl
      injection hsame
  · intro hstart htwo honce first later hown
    obtain ⟨rest, hrest⟩ := perm_of_mem hown
    have hno : ∀ event ∈ rest, event.isOwn = false := by
      have hcount : (Event.own first later :: rest).countP Event.isOwn = 1 := (hrest.countP_eq _).trans honce
      rw [List.countP_cons, Event.isOwn, if_pos rfl] at hcount
      intro event hevent
      have hzero : rest.countP Event.isOwn = 0 := by omega
      exact Bool.eq_false_iff.mpr (List.countP_eq_zero.mp hzero event hevent)
    have hahead : ((Register.mk fresh none).run (.own first later :: rest)).value = some first := by
      have hlast : ((Register.mk fresh none).run ([] ++ .own first later :: rest)).value =
          some (if fresh then first else later) := Register.value_run_last hno
      rwa [List.nil_append, if_pos hstart] at hlast
    have hfree' := hfree _ hrest
    rw [hahead, hbehind _ _ hown htwo] at hfree'
    exact Option.some.inj hfree'
  · intro hno value value' hvalue hvalue'
    have hahead : ∀ offer, .offer offer ∈ events → ((Register.mk fresh none).run events).value = some offer := by
      intro offer hoffer
      obtain ⟨rest, hrest⟩ := perm_of_mem hoffer
      rw [← hfree _ hrest, Register.value_run_empty (fun event hevent => hno event (hrest.mem_iff.mp hevent)) rfl]
      rfl
    exact Option.some.inj ((hahead value hvalue).symm.trans (hahead value' hvalue'))

theorem orderFree_iff : OrderFree fresh events ↔ Agree fresh events := ⟨OrderFree.agree, Agree.orderFree⟩

end Order

/-- An order of what a list is mapped to comes from an order of the list. -/
theorem exists_perm_filterMap {α β : Type} (f : α → Option β) {items : List α} {arranged : List β}
    (hperm : arranged.Perm (items.filterMap f)) :
    ∃ arrived : List α, arrived.Perm items ∧ arrived.filterMap f = arranged := by
  induction arranged generalizing items with
  | nil => exact ⟨items, List.Perm.refl _, hperm.symm.eq_nil⟩
  | cons image arranged ih =>
    obtain ⟨item, hitem, himage⟩ := List.mem_filterMap.mp (hperm.mem_iff.mp List.mem_cons_self)
    obtain ⟨front, back, rfl⟩ := List.append_of_mem hitem
    have hmiddle : (front ++ item :: back).Perm (item :: (front ++ back)) := List.perm_middle
    have hothers : arranged.Perm ((front ++ back).filterMap f) := by
      have hwhole := hperm.trans (hmiddle.filterMap f)
      rw [List.filterMap_cons_some himage] at hwhole
      exact hwhole.cons_inv
    obtain ⟨arrived, harrived, hmap⟩ := ih hothers
    exact ⟨item :: arrived, (harrived.cons item).trans hmiddle.symm, by rw [List.filterMap_cons_some himage, hmap]⟩

section Steady

variable {fresh : Bool} {known : Prop} {blank : ν → Prop} {events : List (Event ν)}

/-- What is in a register says something, or it was known before there was anything in it. -/
def Telling (known : Prop) (blank : ν → Prop) : Option ν → Prop
  | none => known
  | some value => ¬ blank value

/-- In no order of the events does what shows something give way to a blank. -/
def Steady (fresh : Bool) (known : Prop) (blank : ν → Prop) (events : List (Event ν)) : Prop :=
  ∀ front event rest, (front ++ event :: rest).Perm events →
    Telling known blank ((Register.mk fresh none).run front).value →
    Telling known blank ((Register.mk fresh none).run (front ++ [event])).value

/-- No event enters a blank where another one, or what was known, shows something. -/
structure Unblanked (fresh : Bool) (known : Prop) (blank : ν → Prop) (events : List (Event ν)) : Prop where
  replies_blank : ∀ first later, .own first later ∈ events → blank (lasting fresh events first later) →
    ¬ known ∧ ∀ value, .offer value ∈ events → blank value
  offers_not_blank : known → ∀ value, .offer value ∈ events → ¬ blank value

/-- A first reply is blank only if a later one is, which in turn needs a blank first reply or something known. -/
def Faithful (known : Prop) (blank : ν → Prop) (events : List (Event ν)) : Prop :=
  ∀ first later, .own first later ∈ events → (blank first → blank later) ∧ (blank later → blank first ∨ known)

theorem run_concat (self : Register ν) (front : List (Event ν)) (event : Event ν) :
    self.run (front ++ [event]) = (self.run front).step event := Register.run_append self front [event]

/-- A blank that comes last is entered over what shows something. -/
theorem Steady.not_shown {front rest : List (Event ν)} {event : Event ν} {value : ν}
    (hsteady : Steady fresh known blank events) (hperm : (front ++ event :: rest).Perm events)
    (hvalue : ((Register.mk fresh none).run (front ++ [event])).value = some value) (hblank : blank value) :
    ¬ Telling known blank ((Register.mk fresh none).run front).value := by
  intro hshown
  have hafter := hsteady front event rest hperm hshown
  rw [hvalue] at hafter
  exact hafter hblank

/-- Behind events that are no replies, and another reply where there is one, a reply enters what lasts. -/
theorem Steady.not_shown_before {first later : ν} {offers : List (Event ν)} (hsteady : Steady fresh known blank events)
    (hoffers : ∀ event ∈ offers, event.isReply = false) {rest : List (Event ν)}
    (hperm : (offers ++ .own first later :: rest).Perm events) (hblank : blank (lasting fresh events first later)) :
    ¬ Telling known blank ((Register.mk fresh none).run offers).value := by
  intro hshown
  have hnone : replies offers = 0 := List.countP_eq_zero.mpr fun event hevent => by simp [hoffers event hevent]
  have hcount : replies events = replies rest + 1 := by
    rw [replies, ← hperm.countP_eq Event.isReply, List.countP_append, List.countP_cons]
    change replies offers + (replies rest + 1) = _
    omega
  by_cases hdirect : fresh = true ∧ 2 ≤ replies events
  · -- Another reply comes first, and this one after it.
    have hpos : 0 < replies rest := by omega
    obtain ⟨other, hother, hreply⟩ := List.countP_pos_iff.mp hpos
    obtain ⟨rest', hrest'⟩ := perm_of_mem hother
    have hlast : lasting fresh events first later = later := if_neg fun h => by omega
    rw [hlast] at hblank
    have harranged : (offers ++ other :: .own first later :: rest').Perm events := by
      refine List.Perm.trans ?_ hperm
      apply List.Perm.append_left
      exact (List.Perm.swap _ _ _).trans (hrest'.cons _)
    have harranged' : ((offers ++ [other]) ++ .own first later :: rest').Perm events := by
      rwa [List.append_assoc]
    have hbetween := hsteady offers other _ harranged hshown
    refine hsteady.not_shown harranged' ?_ hblank hbetween
    have hstale : ((Register.mk fresh none).run (offers ++ [other])).fresh = false := by
      rw [Register.fresh_run, List.any_append]
      simp [hreply]
    rw [run_concat, Register.step, hstale]
    rfl
  · refine hsteady.not_shown hperm ?_ hblank hshown
    rw [run_concat, Register.step, Register.fresh_run]
    have hquiet : offers.any Event.isReply = false := by
      rw [List.any_eq_false]
      intro event hevent
      simp [hoffers event hevent]
    rw [hquiet, lasting]
    cases fresh with
    | false => rfl
    | true =>
      have hone : replies events = 1 := by
        by_contra hne
        exact hdirect ⟨rfl, by omega⟩
      simp [hone]

theorem Steady.unblanked (hsteady : Steady fresh known blank events) : Unblanked fresh known blank events := by
  constructor
  · intro first later hown hblank
    obtain ⟨rest, hrest⟩ := perm_of_mem hown
    constructor
    · intro hknown
      have halone : ([] ++ Event.own first later :: rest).Perm events := hrest
      exact hsteady.not_shown_before (by simp) halone hblank hknown
    · intro value hoffer
      by_contra hshows
      obtain ⟨rest', hrest'⟩ : ∃ rest', (.offer value :: .own first later :: rest').Perm events := by
        have hinRest : Event.offer value ∈ rest := by
          rcases List.mem_cons.mp (hrest.mem_iff.mpr hoffer) with hsame | hmem
          · cases hsame
          · exact hmem
        obtain ⟨rest', hrest'⟩ := perm_of_mem hinRest
        exact ⟨rest', (List.Perm.swap _ _ _).trans ((hrest'.cons _).trans hrest)⟩
      have hquiet : ∀ event ∈ [Event.offer value], event.isReply = false := by
        intro event hevent
        rw [List.mem_singleton.mp hevent]
        rfl
      exact hsteady.not_shown_before hquiet hrest' hblank hshows
  · intro hknown value hoffer hblank
    obtain ⟨rest, hrest⟩ := perm_of_mem hoffer
    have halone : ([] ++ Event.offer value :: rest).Perm events := hrest
    exact hsteady.not_shown halone rfl hblank hknown

/-- Where nothing shows anything but what is in agreement, no blank is entered over it. -/
theorem Unblanked.steady (hunblanked : Unblanked fresh known blank events) (hagree : Agree fresh events)
    (hfaithful : Faithful known blank events) : Steady fresh known blank events := by
  intro front event rest hperm hshown
  have hfront : ∀ other ∈ front, other ∈ events := fun other hother =>
    hperm.mem_iff.mp (List.mem_append_left _ hother)
  have hevent : event ∈ events := hperm.mem_iff.mp (List.mem_append_right _ List.mem_cons_self)
  rw [run_concat]
  cases event with
  | pass => exact hshown
  | offer value =>
    cases hbefore : ((Register.mk fresh none).run front).value with
    | none =>
      rw [hbefore] at hshown
      rw [Register.step, hbefore]
      exact hunblanked.offers_not_blank hshown value hevent
    | some held =>
      rw [hbefore] at hshown
      rw [Register.step, hbefore]
      exact hshown
  | own first later =>
    rw [Register.step]
    intro hblank
    -- A blank entry makes the later one a blank, and with it what lasts.
    have hlater : blank later := by
      split at hblank
      · exact (hfaithful first later hevent).1 hblank
      · exact hblank
    have hlasting : blank (lasting fresh events first later) := by
      rw [lasting]
      by_cases hdirect : fresh = true ∧ replies events = 1
      · rw [if_pos hdirect]
        have hcount : replies events = replies front + (replies rest + 1) := by
          rw [replies, ← hperm.countP_eq Event.isReply, List.countP_append, List.countP_cons]
          rfl
        have hfresh : ((Register.mk fresh none).run front).fresh = true :=
          (fresh_run_iff front).mpr ⟨hdirect.1, by omega⟩
        rwa [if_pos hfresh] at hblank
      · rwa [if_neg hdirect]
    obtain ⟨hunknown, hoffers⟩ := hunblanked.replies_blank first later hevent hlasting
    cases hbefore : ((Register.mk fresh none).run front).value with
    | none =>
      rw [hbefore] at hshown
      exact hunknown hshown
    | some held =>
      rw [hbefore] at hshown
      rcases Register.mem_of_value_run rfl hbefore with hoffer | ⟨first', later', hown, hsame⟩
      · exact hshown (hoffers held (hfront _ hoffer))
      · have hblank' : blank later' := by
          rw [hagree.later_eq _ _ _ _ (hfront _ hown) hevent]
          exact hlater
        rcases hsame with rfl | rfl
        · exact hshown (((hfaithful held later' (hfront _ hown)).2 hblank').resolve_right hunknown)
        · exact hshown hblank'

end Steady

end register
