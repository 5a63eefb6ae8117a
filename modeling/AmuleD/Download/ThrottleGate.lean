import Mathlib.Tactic.FieldSimp
import AmuleD.Basic
import AmuleD.Pacing.TokenBucket

open pacing

namespace amuled.download

/-- The fields of `DownloadRunner` that its download throttle uses. -/
structure DownloadRunner where
  download_bytes_per_sec : Int
  _throttle_tokens : ℚ
  _throttle_ts : ℚ

namespace DownloadRunner

/-- `float(max(rate, 64 * 1024))`. -/
def capacity (rate : Int) : ℚ := ((max rate (64 * 1024) : Int) : ℚ)

/-- The throttle as `__init__` leaves it. -/
def new (rate : Int) : DownloadRunner := ⟨rate, capacity rate, 0⟩

/-- `_throttle_gate`, called when the lock is free: the time it sleeps before it
returns. -/
def throttle_gate (self : DownloadRunner) (now : ℚ) (nbytes : Nat) : DownloadRunner × ℚ :=
  let rate := self.download_bytes_per_sec
  if rate ≤ 0 then (self, 0)
  else
    let elapsed := now - self._throttle_ts
    let tokens := min (capacity rate) (self._throttle_tokens + rate * elapsed)
    if tokens < nbytes then
      let deficit := nbytes - tokens
      (⟨rate, 0, now⟩, deficit / rate)
    else
      (⟨rate, tokens - nbytes, now⟩, 0)

end DownloadRunner

/-- The gate with its lock, which is held until a call returns, and the calls that
have returned. -/
structure Gate where
  runner : DownloadRunner
  free : ℚ
  log : List Entry

def Gate.after (gate : Gate) (now : ℚ) (nbytes : Nat) : Gate :=
  let called := gate.runner.throttle_gate now nbytes
  ⟨called.1, now + called.2, ⟨now + called.2, nbytes⟩ :: gate.log⟩

/-- Gate calls one after the other, each of which meets a condition on the gate it
finds. -/
inductive GateRun (condition : Gate → ℚ → Prop) (rate : Int) : Gate → Prop
  | start : GateRun condition rate ⟨.new rate, 0, []⟩
  | next {gate : Gate} {now : ℚ} (nbytes : Nat) (hrun : GateRun condition rate gate)
      (hnow : gate.free ≤ now) (hcondition : condition gate now) :
      GateRun condition rate (gate.after now nbytes)

/-- The token bucket of a rate: in no interval more than its capacity, the rate
over the interval and one block. -/
def TokenBucket (rate : Int) (log : List Entry) : Prop :=
  ∀ (block : Nat) (start stop : ℚ), (∀ entry ∈ log, entry.amount ≤ block) → start ≤ stop →
    (within start stop log : ℚ) ≤ DownloadRunner.capacity rate + rate * (stop - start) + block

/-- The last call did not sleep, or a full capacity has been earned since it
returned. -/
def NoDoubleCredit (gate : Gate) (now : ℚ) : Prop :=
  gate.free = gate.runner._throttle_ts ∨
    DownloadRunner.capacity gate.runner.download_bytes_per_sec
      ≤ gate.runner.download_bytes_per_sec * (now - gate.free)

section Gate

variable {rate : Int} {gate : Gate} {now : ℚ}

/-- The tokens that a call finds, when no time is credited twice. -/
theorem tokens_le (hrate : gate.runner.download_bytes_per_sec = rate)
    (htokens : 0 ≤ gate.runner._throttle_tokens) (hcredit : NoDoubleCredit gate now) :
    min (DownloadRunner.capacity rate)
        (gate.runner._throttle_tokens + rate * (now - gate.runner._throttle_ts))
      ≤ gate.runner._throttle_tokens + rate * (now - gate.free) := by
  rcases hcredit with hawake | hearned
  · rw [hawake]
    exact min_le_right _ _
  · rw [hrate] at hearned
    exact (min_le_left _ _).trans (by linarith)

/-- While no time is credited twice the gate is a token bucket. -/
theorem metered_of_gateRun (hrate : 0 < rate) (hrun : GateRun NoDoubleCredit rate gate) :
    gate.runner.download_bytes_per_sec = rate ∧ gate.runner._throttle_ts ≤ gate.free ∧
      Metered (DownloadRunner.capacity rate) rate gate.runner._throttle_tokens gate.free gate.log := by
  have hpositive : (0 : ℚ) < rate := by exact_mod_cast hrate
  have hcapacity : 0 ≤ DownloadRunner.capacity rate := by
    rw [DownloadRunner.capacity]
    exact Int.cast_nonneg (hrate.le.trans (le_max_left _ _))
  induction hrun with
  | start => exact ⟨rfl, le_rfl, .start hcapacity le_rfl⟩
  | @next gate now nbytes hrun hnow hcredit ih =>
    obtain ⟨hself, hts, hmetered⟩ := ih
    have hfound := tokens_le hself hmetered.nonneg hcredit
    have hnonneg : 0 ≤ min (DownloadRunner.capacity rate)
        (gate.runner._throttle_tokens + rate * (now - gate.runner._throttle_ts)) := by
      have helapsed := mul_nonneg hpositive.le (sub_nonneg.mpr (hts.trans hnow))
      have htokens := hmetered.nonneg
      exact le_min hcapacity (by linarith)
    simp only [Gate.after, DownloadRunner.throttle_gate, hself, if_neg (not_le.mpr hrate)]
    split
    · rename_i hshort
      have hsleep : 0 ≤ (nbytes - min (DownloadRunner.capacity rate)
          (gate.runner._throttle_tokens + rate * (now - gate.runner._throttle_ts))) / rate :=
        div_nonneg (by linarith) hpositive.le
      refine ⟨rfl, by simpa using hsleep, hmetered.next (by linarith) ?_ le_rfl hcapacity⟩
      have hpaid : (rate : ℚ) * ((nbytes - min (DownloadRunner.capacity rate)
          (gate.runner._throttle_tokens + rate * (now - gate.runner._throttle_ts))) / rate)
          = nbytes - min (DownloadRunner.capacity rate)
            (gate.runner._throttle_tokens + rate * (now - gate.runner._throttle_ts)) := by
        field_simp
      rw [add_sub_right_comm, mul_add, hpaid]
      linarith
    · rename_i henough
      have hamount : (0 : ℚ) ≤ nbytes := Nat.cast_nonneg _
      refine ⟨rfl, by simp, hmetered.next (by linarith) ?_ (by linarith) ?_⟩
      · rw [add_zero]
        linarith
      · have hleft := min_le_left (DownloadRunner.capacity rate)
          (gate.runner._throttle_tokens + rate * (now - gate.runner._throttle_ts))
        linarith

/-- The download throttle enforces its token bucket when no call comes soon after
one that slept. -/
theorem throttle_gate_is_token_bucket (hrate : 0 < rate) (hrun : GateRun NoDoubleCredit rate gate) :
    TokenBucket rate gate.log := by
  intro block start stop hblocks hinterval
  have hpositive : (0 : ℚ) ≤ rate := by exact_mod_cast hrate.le
  exact (metered_of_gateRun hrate hrun).2.2.within_le hblocks hpositive hinterval

end Gate

/-- The gate after blocks of 64 KiB at 64 KiB per second, called for one after the
other. -/
def blocksInARow : Nat → Gate
  | 0 => ⟨.new 65536, 0, []⟩
  | count + 1 => (blocksInARow count).after (blocksInARow count).free 65536

theorem gateRun_blocksInARow (count : Nat) : GateRun (fun _ _ => True) 65536 (blocksInARow count) := by
  induction count with
  | zero => exact .start
  | succ count ih => exact .next 65536 ih le_rfl trivial

theorem first_block_token_bucket : TokenBucket 65536 (blocksInARow 1).log :=
  throttle_gate_is_token_bucket (by decide) (.next 65536 .start le_rfl (.inl rfl))

/-- Five blocks are let through in two seconds, where the bucket has four. -/
theorem throttle_gate_credits_twice :
    ¬ ∀ rate gate, 0 < rate → GateRun (fun _ _ => True) rate gate → TokenBucket rate gate.log := by
  intro hall
  have hbucket := hall 65536 (blocksInARow 5) (by decide) (gateRun_blocksInARow 5)
  have hblocks : ∀ entry ∈ (blocksInARow 5).log, entry.amount ≤ 65536 := by
    decide +kernel
  have hbound := hbucket 65536 0 2 hblocks (by norm_num)
  have htotal : within 0 2 (blocksInARow 5).log = 5 * 65536 := by decide +kernel
  rw [htotal] at hbound
  norm_num [DownloadRunner.capacity] at hbound

end amuled.download
