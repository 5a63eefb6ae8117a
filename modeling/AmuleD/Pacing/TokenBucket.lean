import Mathlib.Tactic.Ring
import Mathlib.Algebra.Order.Ring.Rat
import Mathlib.Tactic.Linarith

namespace pacing

/-- An amount that was let through at a time. -/
structure Entry where
  time : ℚ
  amount : Nat

/-- What a log lets through in an interval, its ends included. -/
def within (start stop : ℚ) : List Entry → Nat
  | [] => 0
  | entry :: log =>
    (if start ≤ entry.time ∧ entry.time ≤ stop then entry.amount else 0) + within start stop log

/-- What a log lets through up to a time. -/
def upTo (stop : ℚ) : List Entry → Nat
  | [] => 0
  | entry :: log => (if entry.time ≤ stop then entry.amount else 0) + upTo stop log

/-- What a log lets through altogether. -/
def total : List Entry → Nat
  | [] => 0
  | entry :: log => entry.amount + total log

section Log

variable {log : List Entry} {entry : Entry} {start stop : ℚ}

theorem upTo_le_total (stop : ℚ) (log : List Entry) : upTo stop log ≤ total log := by
  induction log with
  | nil => exact le_rfl
  | cons entry log ih =>
    rw [upTo, total]
    split <;> omega

theorem within_cons_of_stop_lt (hlate : stop < entry.time) :
    within start stop (entry :: log) = within start stop log := by
  rw [within, if_neg (fun h => absurd h.2 (not_le.mpr hlate)), Nat.zero_add]

theorem within_cons_of_lt_start (hearly : entry.time < start) :
    within start stop (entry :: log) = within start stop log := by
  rw [within, if_neg (fun h => absurd h.1 (not_le.mpr hearly)), Nat.zero_add]

theorem within_cons_of_mem (hstart : start ≤ entry.time) (hstop : entry.time ≤ stop) :
    within start stop (entry :: log) = entry.amount + within start stop log := by
  rw [within, if_pos ⟨hstart, hstop⟩]

/-- An interval that begins after a whole log lets nothing through. -/
theorem within_eq_zero (hbefore : ∀ entry ∈ log, entry.time < start) : within start stop log = 0 := by
  induction log with
  | nil => rfl
  | cons entry log ih =>
    rw [List.forall_mem_cons] at hbefore
    rw [within_cons_of_lt_start hbefore.1, ih hbefore.2]

/-- An interval that ends after a whole log may as well be longer. -/
theorem within_eq_of_le {later : ℚ} (hbefore : ∀ entry ∈ log, entry.time ≤ stop)
    (hlater : stop ≤ later) : within start later log = within start stop log := by
  induction log with
  | nil => rfl
  | cons entry log ih =>
    rw [List.forall_mem_cons] at hbefore
    rw [within, within, ih hbefore.2]
    simp only [hbefore.1, hbefore.1.trans hlater]

end Log

/-- A log of what a token bucket lets through, with the tokens left at the time
of the last entry: what is taken and what is left are covered by the tokens
before and by the rate since. -/
inductive Metered (capacity rate : ℚ) : ℚ → ℚ → List Entry → Prop
  | start {tokens free : ℚ} (hpositive : 0 ≤ tokens) (hcapacity : tokens ≤ capacity) :
      Metered capacity rate tokens free []
  | next {tokens free tokens' free' : ℚ} {log : List Entry} {amount : Nat}
      (hlog : Metered capacity rate tokens free log) (hfree : free ≤ free')
      (htaken : amount + tokens' ≤ tokens + rate * (free' - free))
      (hpositive : 0 ≤ tokens') (hcapacity : tokens' ≤ capacity) :
      Metered capacity rate tokens' free' (⟨free', amount⟩ :: log)

namespace Metered

variable {capacity rate tokens free : ℚ} {log : List Entry}

theorem nonneg (h : Metered capacity rate tokens free log) : 0 ≤ tokens := by
  cases h with
  | start hpositive => exact hpositive
  | next _ _ _ hpositive => exact hpositive

theorem time_le (h : Metered capacity rate tokens free log) : ∀ entry ∈ log, entry.time ≤ free := by
  induction h with
  | start => simp
  | next _ hfree _ _ _ ih =>
    rw [List.forall_mem_cons]
    exact ⟨le_rfl, fun entry hentry => (ih entry hentry).trans hfree⟩

/-- From any time on, the entries and the tokens that are left are covered by the
capacity, the rate and the first of the entries. -/
theorem within_add_tokens_le (h : Metered capacity rate tokens free log) {block : Nat}
    (hblocks : ∀ entry ∈ log, entry.amount ≤ block) {start : ℚ} (hrate : 0 ≤ rate)
    (hsome : ∃ entry ∈ log, start ≤ entry.time) :
    (within start free log : ℚ) + tokens ≤ capacity + block + rate * (free - start) := by
  induction h with
  | start =>
    obtain ⟨entry, hentry, -⟩ := hsome
    cases hentry
  | @next tokens free tokens' free' log amount hlog hfree htaken hpositive hcapacity ih =>
    rw [List.forall_mem_cons] at hblocks
    have hamount : (amount : ℚ) ≤ block := by exact_mod_cast hblocks.1
    have hstart : start ≤ free' := by
      obtain ⟨entry, hentry, hstart⟩ := hsome
      exact hstart.trans ((hlog.next hfree htaken hpositive hcapacity).time_le entry hentry)
    have hlast : within start free' (⟨free', amount⟩ :: log) = amount + within start free' log :=
      within_cons_of_mem hstart le_rfl
    rw [hlast, within_eq_of_le hlog.time_le hfree, Nat.cast_add]
    by_cases hearlier : ∃ entry ∈ log, start ≤ entry.time
    · have hbefore := ih hblocks.2 hearlier
      have hsplit : rate * (free' - start) = rate * (free' - free) + rate * (free - start) := by ring
      linarith
    · have hempty : within start free log = 0 := by
        apply within_eq_zero
        intro entry hentry
        by_contra hnot
        exact hearlier ⟨entry, hentry, not_lt.mp hnot⟩
      have helapsed := mul_nonneg hrate (sub_nonneg.mpr hstart)
      rw [hempty, Nat.cast_zero]
      linarith

/-- In every interval a token bucket lets through at most its capacity, the rate
over the interval, and one block. -/
theorem within_le (h : Metered capacity rate tokens free log) {block : Nat}
    (hblocks : ∀ entry ∈ log, entry.amount ≤ block) (hrate : 0 ≤ rate) {start stop : ℚ}
    (hinterval : start ≤ stop) :
    (within start stop log : ℚ) ≤ capacity + rate * (stop - start) + block := by
  have helapsed := mul_nonneg hrate (sub_nonneg.mpr hinterval)
  have hblock : (0 : ℚ) ≤ block := Nat.cast_nonneg _
  induction h with
  | start hpositive hcapacity =>
    rw [within, Nat.cast_zero]
    linarith
  | @next tokens free tokens' free' log amount hlog hfree htaken hpositive hcapacity ih =>
    by_cases hlate : stop < free'
    · rw [within_cons_of_stop_lt hlate]
      exact ih fun entry hentry => hblocks entry (List.mem_cons_of_mem _ hentry)
    · have hnext := hlog.next hfree htaken hpositive hcapacity
      by_cases hsome : ∃ entry ∈ (⟨free', amount⟩ :: log : List Entry), start ≤ entry.time
      · have hpotential := hnext.within_add_tokens_le hblocks hrate hsome
        have hlater := mul_le_mul_of_nonneg_left (sub_le_sub_right (not_lt.mp hlate) start) hrate
        rw [within_eq_of_le hnext.time_le (not_lt.mp hlate)]
        linarith
      · have hempty : within start stop (⟨free', amount⟩ :: log) = 0 := by
          apply within_eq_zero
          intro entry hentry
          by_contra hnot
          exact hsome ⟨entry, hentry, not_lt.mp hnot⟩
        rw [hempty, Nat.cast_zero]
        linarith

end Metered

end pacing
