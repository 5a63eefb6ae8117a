import Mathlib.Algebra.Order.BigOperators.Group.List
import Mathlib.Data.List.Nodup
import Mathlib.Tactic.FieldSimp
import Mathlib.Tactic.Ring
import AmuleD.Basic
import AmuleD.Pacing.TokenBucket

open pacing

namespace amuled.upload

structure UploadThrottle where
  rate_bytes_per_sec : Option Int
  _last_send_time : ℚ
  _bytes_sent : Nat

namespace UploadThrottle

/-- `UploadThrottle.__init__`. -/
def new (rate_bytes_per_sec : Option Int) : Except Exc UploadThrottle :=
  match rate_bytes_per_sec with
  | none => pure ⟨none, 0, 0⟩
  | some rate =>
    if rate ≤ 0 then
      throw (.UploadEngineError s!"rate_bytes_per_sec must be positive or None, got {rate}")
    else
      pure ⟨some rate, 0, 0⟩

/-- The part of `throttle` before its sleep: the time it sleeps, if any. -/
def throttle (self : UploadThrottle) (now : ℚ) (nbytes : Nat) : UploadThrottle × Option ℚ :=
  match self.rate_bytes_per_sec with
  | none => (self, none)
  | some rate =>
    if rate ≤ 0 then (self, none)
    else
      let last_send_time := if self._last_send_time = 0 then now else self._last_send_time
      let bytes_sent := self._bytes_sent + nbytes
      let elapsed := now - last_send_time
      let target_elapsed := (bytes_sent : ℚ) / rate
      let deficit := target_elapsed - elapsed
      (⟨some rate, last_send_time, bytes_sent⟩, if deficit > 0 then some deficit else none)

/-- The part of `throttle` after its sleep. -/
def wake (self : UploadThrottle) (now : ℚ) : UploadThrottle :=
  { self with _last_send_time := now, _bytes_sent := 0 }

end UploadThrottle

/-- A call that sleeps until it is due. -/
structure Sleeper where
  session : Nat
  nbytes : Nat
  due : ℚ
  deriving DecidableEq

/-- A call that has returned. -/
structure Returned where
  session : Nat
  time : ℚ
  nbytes : Nat

def Returned.entry (returned : Returned) : Entry := ⟨returned.time, returned.nbytes⟩

/-- Any number of sessions that share one throttle: the calls that sleep, those
that have returned, and the time of the first call. -/
structure Sharing where
  throttle : UploadThrottle
  now : ℚ
  sleepers : List Sleeper
  returned : List Returned
  first_call : Option ℚ

/-- A session calls the throttle before a block, or wakes from its sleep. -/
inductive ThrottleEvent where
  | call (session nbytes : Nat) (now : ℚ)
  | wake (session : Nat)

namespace Sharing

def fresh (throttle : UploadThrottle) (now : ℚ) : Sharing := ⟨throttle, now, [], [], none⟩

def call (sharing : Sharing) (session nbytes : Nat) (now : ℚ) : Sharing :=
  let entered := sharing.throttle.throttle now nbytes
  let first_call := some (sharing.first_call.getD now)
  match entered.2 with
  | none =>
    ⟨entered.1, now, sharing.sleepers, ⟨session, now, nbytes⟩ :: sharing.returned, first_call⟩
  | some deficit =>
    ⟨entered.1, now, ⟨session, nbytes, now + deficit⟩ :: sharing.sleepers, sharing.returned,
      first_call⟩

def wake (sharing : Sharing) (sleeper : Sleeper) : Sharing where
  throttle := sharing.throttle.wake sleeper.due
  now := sleeper.due
  sleepers := sharing.sleepers.erase sleeper
  returned := ⟨sleeper.session, sleeper.due, sleeper.nbytes⟩ :: sharing.returned
  first_call := sharing.first_call

/-- One event. A session that sleeps makes no further call, and no event comes
after a sleeper is due that has not woken. -/
def step (sharing : Sharing) : ThrottleEvent → Option Sharing
  | .call session nbytes now =>
    if sharing.now ≤ now ∧ ∀ sleeper ∈ sharing.sleepers, sleeper.session ≠ session ∧ now ≤ sleeper.due
    then some (sharing.call session nbytes now)
    else none
  | .wake session =>
    match sharing.sleepers.find? fun sleeper => sleeper.session = session with
    | none => none
    | some sleeper =>
      if ∀ other ∈ sharing.sleepers, sleeper.due ≤ other.due then some (sharing.wake sleeper)
      else none

def run (sharing : Sharing) : List ThrottleEvent → Option Sharing
  | [] => some sharing
  | event :: events => (sharing.step event).bind fun sharing => sharing.run events

/-- The calls of one session that have returned. -/
def log (sharing : Sharing) (session : Nat) : List Entry :=
  (sharing.returned.filter fun returned => returned.session = session).map Returned.entry

end Sharing


section Throttle

variable {self : UploadThrottle} {rate : Int} {now : ℚ} {nbytes : Nat}

/-- The clock of the throttle when a call counts its bytes: a clock at zero has
not been set. -/
def clock (self : UploadThrottle) (now : ℚ) : ℚ :=
  if self._last_send_time = 0 then now else self._last_send_time

/-- The time by which the bytes of a call are not yet paid for. -/
def deficit (self : UploadThrottle) (rate : Int) (now : ℚ) (nbytes : Nat) : ℚ :=
  ((self._bytes_sent + nbytes : Nat) : ℚ) / rate - (now - clock self now)

theorem throttle_eq (hrate : 0 < rate) (hself : self.rate_bytes_per_sec = some rate) :
    self.throttle now nbytes = (⟨some rate, clock self now, self._bytes_sent + nbytes⟩,
      if deficit self rate now nbytes > 0 then some (deficit self rate now nbytes) else none) := by
  simp only [UploadThrottle.throttle, hself, if_neg (not_le.mpr hrate)]
  rfl

/-- At the end of the sleep the bytes so far are paid for exactly. -/
theorem rate_mul_deficit (hrate : 0 < rate) (self : UploadThrottle) (now : ℚ) (nbytes : Nat) :
    rate * (now + deficit self rate now nbytes - clock self now)
      = ((self._bytes_sent + nbytes : Nat) : ℚ) := by
  have hpositive : (0 : ℚ) < rate := by exact_mod_cast hrate
  rw [deficit]
  field_simp
  ring

/-- A call that does not sleep finds its bytes paid for. -/
theorem paid_of_deficit (hrate : 0 < rate) (hdeficit : ¬ deficit self rate now nbytes > 0) :
    ((self._bytes_sent + nbytes : Nat) : ℚ) ≤ rate * (now - clock self now) := by
  have hpositive : (0 : ℚ) < rate := by exact_mod_cast hrate
  rw [deficit, gt_iff_lt, not_lt, sub_nonpos, div_le_iff₀ hpositive] at hdeficit
  rw [mul_comm]
  exact hdeficit

end Throttle

section Sharing

variable {sharing : Sharing} {rate : Int} {start : ℚ}

/-- No session is ahead of the rate: not of the clock of the throttle and its
counter, which other sessions may reset, and not of the time that has passed. -/
structure Paced (rate : Int) (start : ℚ) (sharing : Sharing) : Prop where
  rate_eq : sharing.throttle.rate_bytes_per_sec = some rate
  distinct : (sharing.sleepers.map Sleeper.session).Nodup
  counted : sharing.throttle._last_send_time ≠ 0 → ∀ session, (total (sharing.log session) : ℚ)
    ≤ rate * (sharing.throttle._last_send_time - start) + sharing.throttle._bytes_sent
  passed : ∀ session, (total (sharing.log session) : ℚ) ≤ rate * (sharing.now - start)
  asleep : ∀ sleeper ∈ sharing.sleepers, sharing.now ≤ sleeper.due ∧
    (total (sharing.log sleeper.session) : ℚ) + sleeper.nbytes ≤ rate * (sleeper.due - start)
  by_time : ∀ session time, start ≤ time →
    (upTo time (sharing.log session) : ℚ) ≤ rate * (time - start)

/-- The log of a session after one more call has returned. -/
def logWith (sharing : Sharing) (entry : Returned) (session : Nat) : List Entry :=
  if entry.session = session then entry.entry :: sharing.log session else sharing.log session

theorem log_cons (throttle : UploadThrottle) (now : ℚ) (sleepers : List Sleeper)
    (first_call : Option ℚ) (entry : Returned) (session : Nat) :
    Sharing.log ⟨throttle, now, sleepers, entry :: sharing.returned, first_call⟩ session =
      logWith sharing entry session := by
  unfold logWith Sharing.log
  split
  · rename_i hsession
    rw [List.filter_cons_of_pos (by simp [hsession]), List.map_cons]
  · rename_i hsession
    rw [List.filter_cons_of_neg (by simp [hsession])]

theorem total_logWith (entry : Returned) (session : Nat) :
    total (logWith sharing entry session) =
      if entry.session = session then entry.nbytes + total (sharing.log session)
      else total (sharing.log session) := by
  unfold logWith
  split <;> rfl

/-- What a session has got by a time is within its rate, if all that it has got
is when the new call returns. -/
theorem Paced.by_time_logWith (h : Paced rate start sharing) (hrate : 0 < rate) {entry : Returned}
    {session : Nat}
    (htotal : (total (logWith sharing entry session) : ℚ) ≤ rate * (entry.time - start))
    {time : ℚ} (htime : start ≤ time) :
    (upTo time (logWith sharing entry session) : ℚ) ≤ rate * (time - start) := by
  have hpositive : (0 : ℚ) < rate := by exact_mod_cast hrate
  by_cases hlate : entry.time ≤ time
  · have hupTo : (upTo time (logWith sharing entry session) : ℚ)
        ≤ total (logWith sharing entry session) := by exact_mod_cast upTo_le_total _ _
    have hlater := mul_le_mul_of_nonneg_left (sub_le_sub_right hlate start) hpositive.le
    linarith
  · have hold := h.by_time session time htime
    unfold logWith
    split
    · rw [upTo]
      have hskip : (if entry.entry.time ≤ time then entry.entry.amount else 0) = 0 := if_neg hlate
      rw [hskip, Nat.zero_add]
      exact hold
    · exact hold

theorem Paced.passed_of_le (h : Paced rate start sharing) (hrate : 0 < rate) {now : ℚ}
    (hnow : sharing.now ≤ now) (session : Nat) :
    (total (sharing.log session) : ℚ) ≤ rate * (now - start) := by
  have hpositive : (0 : ℚ) < rate := by exact_mod_cast hrate
  have hpassed := h.passed session
  have hlater := mul_le_mul_of_nonneg_left (sub_le_sub_right hnow start) hpositive.le
  linarith

/-- The bytes of a session are counted from the clock that a call goes by. -/
theorem Paced.counted_clock (h : Paced rate start sharing) (hrate : 0 < rate) {now : ℚ}
    (hnow : sharing.now ≤ now) (session : Nat) :
    (total (sharing.log session) : ℚ)
      ≤ rate * (clock sharing.throttle now - start) + sharing.throttle._bytes_sent := by
  by_cases hunset : sharing.throttle._last_send_time = 0
  · rw [clock, if_pos hunset]
    have hpassed := h.passed_of_le hrate hnow session
    have hbytes : (0 : ℚ) ≤ sharing.throttle._bytes_sent := Nat.cast_nonneg _
    linarith
  · rw [clock, if_neg hunset]
    exact h.counted hunset session

/-- A call that goes on at once adds its bytes, which the clock already pays
for. -/
theorem Paced.call_at_once (h : Paced rate start sharing) (hrate : 0 < rate)
    {session nbytes : Nat} {now : ℚ} (hnow : sharing.now ≤ now)
    (hawake : ∀ sleeper ∈ sharing.sleepers, sleeper.session ≠ session ∧ now ≤ sleeper.due)
    (hpaid : ((sharing.throttle._bytes_sent + nbytes : Nat) : ℚ)
      ≤ rate * (now - clock sharing.throttle now)) (first_call : Option ℚ) :
    Paced rate start ⟨⟨some rate, clock sharing.throttle now, sharing.throttle._bytes_sent + nbytes⟩,
      now, sharing.sleepers, ⟨session, now, nbytes⟩ :: sharing.returned, first_call⟩ := by
  have hcounted : ∀ other, (total (logWith sharing ⟨session, now, nbytes⟩ other) : ℚ)
      ≤ rate * (clock sharing.throttle now - start)
        + ((sharing.throttle._bytes_sent + nbytes : Nat) : ℚ) := by
    intro other
    have hother := h.counted_clock hrate hnow other
    rw [total_logWith, Nat.cast_add]
    have hbytes : (0 : ℚ) ≤ nbytes := Nat.cast_nonneg _
    split
    · rw [Nat.cast_add]
      linarith
    · linarith
  have hpassed : ∀ other, (total (logWith sharing ⟨session, now, nbytes⟩ other) : ℚ)
      ≤ rate * (now - start) := by
    intro other
    have hother := hcounted other
    have hsplit : (rate : ℚ) * (now - start) = rate * (clock sharing.throttle now - start)
      + rate * (now - clock sharing.throttle now) := by ring
    linarith
  refine ⟨rfl, h.distinct, ?_, ?_, ?_, ?_⟩
  · intro _ other
    rw [log_cons]
    exact hcounted other
  · intro other
    rw [log_cons]
    exact hpassed other
  · intro sleeper hsleeper
    obtain ⟨hsession, hdue⟩ := hawake sleeper hsleeper
    refine ⟨hdue, ?_⟩
    rw [log_cons, logWith, if_neg (Ne.symm hsession)]
    exact (h.asleep sleeper hsleeper).2
  · intro other time htime
    rw [log_cons]
    exact h.by_time_logWith hrate (hpassed other) htime

/-- A call that sleeps is due when its bytes are paid for. -/
theorem Paced.call_asleep (h : Paced rate start sharing) (hrate : 0 < rate)
    {session nbytes : Nat} {now : ℚ} (hnow : sharing.now ≤ now)
    (hawake : ∀ sleeper ∈ sharing.sleepers, sleeper.session ≠ session ∧ now ≤ sleeper.due)
    (hdeficit : deficit sharing.throttle rate now nbytes > 0) (first_call : Option ℚ) :
    Paced rate start ⟨⟨some rate, clock sharing.throttle now, sharing.throttle._bytes_sent + nbytes⟩,
      now, ⟨session, nbytes, now + deficit sharing.throttle rate now nbytes⟩ :: sharing.sleepers,
      sharing.returned, first_call⟩ := by
  refine ⟨rfl, ?_, ?_, h.passed_of_le hrate hnow, ?_, h.by_time⟩
  · rw [List.map_cons, List.nodup_cons]
    refine ⟨?_, h.distinct⟩
    intro hmem
    obtain ⟨sleeper, hsleeper, hsession⟩ := List.mem_map.mp hmem
    exact (hawake sleeper hsleeper).1 hsession
  · intro _ other
    have hother := h.counted_clock hrate hnow other
    have hbytes : (0 : ℚ) ≤ nbytes := Nat.cast_nonneg _
    rw [Nat.cast_add]
    exact hother.trans (by linarith)
  · intro sleeper hsleeper
    rcases List.mem_cons.mp hsleeper with rfl | hold
    · have hcounted := h.counted_clock hrate hnow session
      have hpaid := rate_mul_deficit hrate sharing.throttle now nbytes
      rw [Nat.cast_add] at hpaid
      have hsplit : (rate : ℚ) * (now + deficit sharing.throttle rate now nbytes - start)
          = rate * (clock sharing.throttle now - start)
            + rate * (now + deficit sharing.throttle rate now nbytes - clock sharing.throttle now) := by
        ring
      have hdue : (total (sharing.log session) : ℚ) + nbytes
          ≤ rate * (now + deficit sharing.throttle rate now nbytes - start) := by linarith
      exact ⟨(lt_add_of_pos_right now hdeficit).le, hdue⟩
    · exact ⟨(hawake sleeper hold).2, (h.asleep sleeper hold).2⟩

/-- A session that wakes has its bytes paid for, whatever the others did. -/
theorem Paced.wake (h : Paced rate start sharing) (hrate : 0 < rate) {sleeper : Sleeper}
    (hsleeper : sleeper ∈ sharing.sleepers)
    (hfirst : ∀ other ∈ sharing.sleepers, sleeper.due ≤ other.due) :
    Paced rate start (sharing.wake sleeper) := by
  obtain ⟨hnow, hpaid⟩ := h.asleep sleeper hsleeper
  have hpassed : ∀ session, (total
      (logWith sharing ⟨sleeper.session, sleeper.due, sleeper.nbytes⟩ session) : ℚ)
      ≤ rate * (sleeper.due - start) := by
    intro session
    rw [total_logWith]
    split
    · rename_i hsession
      have hsame : sleeper.session = session := hsession
      rw [← hsame, Nat.cast_add, add_comm]
      exact hpaid
    · exact h.passed_of_le hrate hnow session
  refine ⟨h.rate_eq, ?_, ?_, ?_, ?_, ?_⟩
  · exact h.distinct.sublist (List.erase_sublist.map _)
  · intro _ session
    rw [Sharing.wake, log_cons]
    simpa only [UploadThrottle.wake, Nat.cast_zero, add_zero] using hpassed session
  · intro session
    rw [Sharing.wake, log_cons]
    exact hpassed session
  · intro other hother
    have hmem : other ∈ sharing.sleepers := List.mem_of_mem_erase hother
    have hne : sleeper.session ≠ other.session := by
      intro hsession
      have hsame := List.inj_on_of_nodup_map h.distinct hsleeper hmem hsession
      have hnodup : sharing.sleepers.Nodup := h.distinct.of_map
      rw [← hsame] at hother
      exact hnodup.not_mem_erase hother
    refine ⟨hfirst other hmem, ?_⟩
    rw [Sharing.wake, log_cons, logWith, if_neg hne]
    exact (h.asleep other hmem).2
  · intro session time htime
    rw [Sharing.wake, log_cons]
    exact h.by_time_logWith hrate (hpassed session) htime

/-- Before the first call nothing has been let through. -/
theorem Paced.fresh (hrate : 0 < rate) (now : ℚ) :
    Paced rate now (.fresh ⟨some rate, 0, 0⟩ now) where
  rate_eq := rfl
  distinct := .nil
  counted hset := absurd rfl hset
  passed session := by simp [Sharing.fresh, Sharing.log, total]
  asleep sleeper hsleeper := by cases hsleeper
  by_time session time htime := by
    have hpositive : (0 : ℚ) < rate := by exact_mod_cast hrate
    have helapsed := mul_nonneg hpositive.le (sub_nonneg.mpr htime)
    simpa [Sharing.fresh, Sharing.log, upTo] using helapsed

theorem Paced.call (h : Paced rate start sharing) (hrate : 0 < rate) {session nbytes : Nat}
    {now : ℚ} (hnow : sharing.now ≤ now)
    (hawake : ∀ sleeper ∈ sharing.sleepers, sleeper.session ≠ session ∧ now ≤ sleeper.due) :
    Paced rate start (sharing.call session nbytes now) := by
  rw [Sharing.call, throttle_eq hrate h.rate_eq]
  by_cases hdeficit : deficit sharing.throttle rate now nbytes > 0
  · simp only [if_pos hdeficit]
    exact h.call_asleep hrate hnow hawake hdeficit _
  · simp only [if_neg hdeficit]
    exact h.call_at_once hrate hnow hawake (paid_of_deficit hrate hdeficit) _

@[simp] theorem first_call_call (session nbytes : Nat) (now : ℚ) :
    (sharing.call session nbytes now).first_call = some (sharing.first_call.getD now) := by
  simp only [Sharing.call]
  split <;> rfl

/-- Either nobody has called yet, or every session is paced from the first call
on. -/
def PacedFromFirst (rate : Int) (sharing : Sharing) : Prop :=
  (∃ now, sharing = .fresh ⟨some rate, 0, 0⟩ now) ∨
    ∃ start, sharing.first_call = some start ∧ Paced rate start sharing

theorem PacedFromFirst.step (h : PacedFromFirst rate sharing) (hrate : 0 < rate)
    {event : ThrottleEvent} {sharing' : Sharing} (hstep : sharing.step event = some sharing') :
    PacedFromFirst rate sharing' := by
  cases event with
  | call session nbytes now =>
    rw [Sharing.step] at hstep
    split at hstep
    · rename_i hguard
      obtain rfl := Option.some.inj hstep
      rcases h with ⟨before, rfl⟩ | ⟨start, hfirst, hpaced⟩
      · exact .inr ⟨now, by rw [first_call_call]; rfl,
          (Paced.fresh hrate now).call hrate le_rfl (fun _ hsleeper => by cases hsleeper)⟩
      · exact .inr ⟨start, by rw [first_call_call, hfirst]; rfl,
          hpaced.call hrate hguard.1 hguard.2⟩
    · cases hstep
  | wake session =>
    rw [Sharing.step] at hstep
    cases hfound : sharing.sleepers.find? fun sleeper => sleeper.session = session with
    | none =>
      rw [hfound] at hstep
      cases hstep
    | some sleeper =>
      simp only [hfound] at hstep
      split at hstep
      · rename_i hguard
        obtain rfl := Option.some.inj hstep
        have hmem := List.mem_of_find?_eq_some hfound
        rcases h with ⟨before, rfl⟩ | ⟨start, hfirst, hpaced⟩
        · cases hmem
        · exact .inr ⟨start, hfirst, hpaced.wake hrate hmem hguard⟩
      · cases hstep

theorem PacedFromFirst.run (h : PacedFromFirst rate sharing) (hrate : 0 < rate)
    {events : List ThrottleEvent} {sharing' : Sharing} (hrun : sharing.run events = some sharing') :
    PacedFromFirst rate sharing' := by
  induction events generalizing sharing with
  | nil =>
    obtain rfl := Option.some.inj hrun
    exact h
  | cons event events ih =>
    obtain ⟨middle, hstep, hrest⟩ := Option.bind_eq_some_iff.mp hrun
    exact ih (h.step hrate hstep) hrest

end Sharing

section Totals

/-- What the sessions get together is at most the sum of what each gets. -/
theorem upTo_le_sum {returned : List Returned} {sessions : List Nat}
    (hsessions : ∀ entry ∈ returned, entry.session ∈ sessions) (time : ℚ) :
    upTo time (returned.map Returned.entry) ≤ (sessions.map fun session =>
      upTo time ((returned.filter fun entry => entry.session = session).map Returned.entry)).sum := by
  induction returned with
  | nil => exact Nat.zero_le _
  | cons entry returned ih =>
    rw [List.forall_mem_cons] at hsessions
    have hrest := ih hsessions.2
    let amount := if entry.time ≤ time then entry.nbytes else 0
    have hshares : ∀ session,
        upTo time (((entry :: returned).filter fun entry => entry.session = session).map Returned.entry)
          = (if entry.session = session then amount else 0) + upTo time
            ((returned.filter fun entry => entry.session = session).map Returned.entry) := by
      intro session
      by_cases hsession : entry.session = session
      · rw [List.filter_cons_of_pos (by simp [hsession]), if_pos hsession]
        rfl
      · rw [List.filter_cons_of_neg (by simp [hsession]), if_neg hsession, Nat.zero_add]
    have hown : amount ≤ (sessions.map fun session =>
        if entry.session = session then amount else 0).sum := by
      apply List.single_le_sum (fun _ _ => Nat.zero_le _)
      exact List.mem_map.mpr ⟨entry.session, hsessions.1, if_pos rfl⟩
    simp only [hshares]
    rw [List.sum_map_add]
    exact Nat.add_le_add hown hrest

variable {rate : Int} {events : List ThrottleEvent} {sharing : Sharing} {start time : ℚ}

/-- However the sessions that share a throttle interleave, each of them is kept
to the rate, and so they get together at most the rate times their number. -/
theorem shared_throttle_paces_each_session {before : ℚ} {throttle : UploadThrottle}
    (hnew : UploadThrottle.new (some rate) = .ok throttle)
    (hrun : (Sharing.fresh throttle before).run events = some sharing)
    (hstart : sharing.first_call = some start) (htime : start ≤ time) :
    (∀ session, (upTo time (sharing.log session) : ℚ) ≤ rate * (time - start)) ∧
      ∀ sessions : List Nat, (∀ entry ∈ sharing.returned, entry.session ∈ sessions) →
        (upTo time (sharing.returned.map Returned.entry) : ℚ)
          ≤ sessions.length * (rate * (time - start)) := by
  have hrate : 0 < rate := by
    by_contra hnot
    rw [UploadThrottle.new, if_pos (not_lt.mp hnot)] at hnew
    cases hnew
  rw [UploadThrottle.new, if_neg (not_le.mpr hrate)] at hnew
  obtain rfl := Except.ok.inj hnew
  have hfresh : PacedFromFirst rate (.fresh ⟨some rate, 0, 0⟩ before) := .inl ⟨before, rfl⟩
  rcases hfresh.run hrate hrun with ⟨now, rfl⟩ | ⟨first, hfirst, hpaced⟩
  · cases hstart
  · obtain rfl := Option.some.inj (hfirst.symm.trans hstart)
    have heach : ∀ session, (upTo time (sharing.log session) : ℚ) ≤ rate * (time - first) :=
      fun session => hpaced.by_time session time htime
    refine ⟨heach, ?_⟩
    intro sessions hsessions
    have hsum := upTo_le_sum hsessions time
    have hshares : (((sessions.map fun session => upTo time (sharing.log session)).sum : Nat) : ℚ)
        ≤ sessions.length * (rate * (time - first)) := by
      clear hsum hsessions
      induction sessions with
      | nil => simp
      | cons session sessions ih =>
        rw [List.map_cons, List.sum_cons, List.length_cons, Nat.cast_add, Nat.cast_add, Nat.cast_one]
        have hone := heach session
        linarith
    exact le_trans (by exact_mod_cast hsum) hshares

end Totals

/-- Two sessions that send one byte after the other at one byte per second. -/
def twoSessions : List ThrottleEvent :=
  [.call 0 1 1, .call 1 1 1, .wake 0, .call 0 1 2, .wake 0, .call 0 1 3, .wake 1, .call 1 1 3,
    .wake 0, .call 0 1 4, .wake 1, .call 1 1 4, .wake 0, .wake 1]

theorem twoSessions_run : ∃ sharing, (Sharing.fresh ⟨some 1, 0, 0⟩ 1).run twoSessions = some sharing ∧
    sharing.first_call = some 1 ∧ sharing.returned.map Returned.session = [1, 0, 1, 0, 1, 0, 0] ∧
    sharing.returned.map Returned.nbytes = [1, 1, 1, 1, 1, 1, 1] ∧
    upTo 5 (sharing.returned.map Returned.entry) = 7 := by
  have hrun : ((Sharing.fresh ⟨some 1, 0, 0⟩ 1).run twoSessions).map (fun sharing =>
      (sharing.first_call, sharing.returned.map Returned.session,
        sharing.returned.map Returned.nbytes, upTo 5 (sharing.returned.map Returned.entry)))
      = some (some 1, [1, 0, 1, 0, 1, 0, 0], [1, 1, 1, 1, 1, 1, 1], 7) := by
    decide +kernel
  obtain ⟨sharing, hsharing, hfields⟩ := Option.map_eq_some_iff.mp hrun
  simp only [Prod.mk.injEq] at hfields
  exact ⟨sharing, hsharing, hfields⟩

theorem twoSessions_paced : ∃ sharing : Sharing, upTo 5 (sharing.returned.map Returned.entry) = 7 ∧
    ∀ session, (upTo 5 (sharing.log session) : ℚ) ≤ (1 : Int) * (5 - 1) := by
  obtain ⟨sharing, hrun, hfirst, -, -, htotal⟩ := twoSessions_run
  have htime : (1 : ℚ) ≤ 5 := by norm_num
  exact ⟨sharing, htotal, (shared_throttle_paces_each_session rfl hrun hfirst htime).1⟩

/-- After four seconds the two sessions have got seven bytes, not six. -/
theorem shared_throttle_exceeds_rate :
    ¬ ∀ (rate : Int) (throttle : UploadThrottle) (events : List ThrottleEvent) (before start time : ℚ)
      (sharing : Sharing) (sessions : List Nat) (block : Nat),
      UploadThrottle.new (some rate) = .ok throttle →
      (Sharing.fresh throttle before).run events = some sharing →
      sharing.first_call = some start → start ≤ time →
      (∀ entry ∈ sharing.returned, entry.session ∈ sessions ∧ entry.nbytes ≤ block) →
      (upTo time (sharing.returned.map Returned.entry) : ℚ)
        ≤ rate * (time - start) + sessions.length * block := by
  intro hall
  obtain ⟨sharing, hrun, hfirst, hsessions, hblocks, htotal⟩ := twoSessions_run
  have htime : (1 : ℚ) ≤ 5 := by norm_num
  have hentries : ∀ entry ∈ sharing.returned, entry.session ∈ [0, 1] ∧ entry.nbytes ≤ 1 := by
    intro entry hentry
    have hsession := List.mem_map_of_mem (f := Returned.session) hentry
    have hblock := List.mem_map_of_mem (f := Returned.nbytes) hentry
    rw [hsessions] at hsession
    rw [hblocks] at hblock
    simp only [List.mem_cons, List.not_mem_nil, or_false] at hsession hblock ⊢
    omega
  have hbound := hall 1 _ twoSessions 1 1 5 sharing [0, 1] 1 rfl hrun hfirst htime hentries
  rw [htotal] at hbound
  norm_num at hbound

end amuled.upload
