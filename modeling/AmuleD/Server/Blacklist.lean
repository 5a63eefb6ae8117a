import AmuleD.Dict
import AmuleD.Sorting.Stable
import Mathlib.Algebra.Order.Group.Int

open sorting

namespace amuled.server

/-- One row of the table `server_blacklist`. A `datetime` counts microseconds, and so does a `timedelta`. -/
structure Row where
  failures : Nat
  last_error : String
  blacklisted_at : Option ℤ
  blacklisted_until : Option ℤ
  updated_at : ℤ

/-- The table under its primary key, `ip` and `port`. -/
abbrev Table := Dict (String × Nat) Row

/-- The `CASE` by which a failure updates the count of its row. -/
def counted (row : Row) (now : ℤ) : Nat :=
  match row.blacklisted_until with
  | some deadline => if now < deadline then row.failures else 1
  | none => row.failures + 1

/-- The `INSERT` with its `ON CONFLICT` clause. -/
def upsert (row : Option Row) (reason : String) (now : ℤ) : Row :=
  match row with
  | none => ⟨1, reason, none, none, now⟩
  | some row => { row with failures := counted row now, last_error := reason, updated_at := now }

/-- The row a failure leaves, and whether the call put its server on the blacklist. -/
def failed (threshold : Nat) (cooldown : ℤ) (row : Option Row) (reason : String) (now : ℤ) : Row × Bool :=
  let row := upsert row reason now
  if threshold ≤ row.failures then
    ({ row with blacklisted_at := some now, blacklisted_until := some (now + cooldown) }, true)
  else (row, false)

def record_server_failure (threshold : Nat) (cooldown : ℤ) (table : Table) (ip : String) (port : Nat)
    (reason : String) (now : ℤ) : Table × Bool :=
  let (row, blacklisted) := failed threshold cooldown (table.get (ip, port)) reason now
  (table.set (ip, port) row, blacklisted)

def record_server_success (table : Table) (ip : String) (port : Nat) : Table := table.erase (ip, port)

/-- One entry of `list_blacklisted_servers`. -/
structure Entry where
  ip : String
  port : Nat
  failures : Nat
  last_error : String
  blacklisted_until : ℤ

/-- The entry of a row that the `WHERE` clause selects. -/
def selected (now : ℤ) (key : String × Nat) (row : Row) : Option Entry :=
  match row.blacklisted_until with
  | some deadline =>
    if now < deadline then some ⟨key.1, key.2, row.failures, row.last_error, deadline⟩ else none
  | none => none

def list_blacklisted_servers (table : Table) (now : ℤ) : List Entry :=
  sorted Entry.blacklisted_until (table.table.entries.filterMap fun row => selected now row.1 row.2)

/-- The server is on the list. -/
def Listed (table : Table) (server : String × Nat) (now : ℤ) : Prop :=
  ∃ entry ∈ list_blacklisted_servers table now, (entry.ip, entry.port) = server

/-- The row keeps its server on the blacklist. -/
def Row.Blocks (row : Row) (now : ℤ) : Prop := ∃ deadline, row.blacklisted_until = some deadline ∧ now < deadline

theorem selected_eq_some_iff {now : ℤ} {key : String × Nat} {row : Row} {entry : Entry} :
    selected now key row = some entry ↔ ∃ deadline, row.blacklisted_until = some deadline ∧ now < deadline ∧
      entry = ⟨key.1, key.2, row.failures, row.last_error, deadline⟩ := by
  rw [selected]
  cases row.blacklisted_until with
  | none => simp
  | some deadline =>
    by_cases hlater : now < deadline
    · simp [hlater, eq_comm]
    · simp [hlater]

/-- A server is listed exactly while its row blocks it. -/
theorem listed_iff {table : Table} {server : String × Nat} {now : ℤ} :
    Listed table server now ↔ ∃ row, table.get server = some row ∧ row.Blocks now := by
  simp only [Listed, list_blacklisted_servers, mem_sorted, List.mem_filterMap, selected_eq_some_iff]
  constructor
  · rintro ⟨entry, ⟨⟨key, row⟩, hmem, deadline, huntil, hlater, rfl⟩, rfl⟩
    exact ⟨row, AList.mem_lookup_iff.mpr hmem, deadline, huntil, hlater⟩
  · rintro ⟨row, hget, deadline, huntil, hlater⟩
    exact ⟨_, ⟨⟨server, row⟩, AList.mem_lookup_iff.mp hget, deadline, huntil, hlater, rfl⟩, rfl⟩

theorem failures_failed (threshold : Nat) (cooldown : ℤ) (row : Option Row) (reason : String) (now : ℤ) :
    (failed threshold cooldown row reason now).1.failures = (upsert row reason now).failures := by
  simp only [failed]
  split <;> rfl

theorem until_failed (threshold : Nat) (cooldown : ℤ) (row : Option Row) (reason : String) (now : ℤ) :
    (failed threshold cooldown row reason now).1.blacklisted_until =
      if threshold ≤ (upsert row reason now).failures then some (now + cooldown)
      else (upsert row reason now).blacklisted_until := by
  simp only [failed]
  split <;> rfl

/-- How an exchange with a server ended. -/
inductive Outcome where
  | failure (reason : String)
  | success

/-- One call of `record_server_failure` or `record_server_success`. -/
structure Call where
  ip : String
  port : Nat
  outcome : Outcome
  time : ℤ

def Call.key (call : Call) : String × Nat := (call.ip, call.port)

def Call.Fails (call : Call) : Prop := ∃ reason, call.outcome = .failure reason

variable (threshold : Nat) (cooldown : ℤ)

def record (table : Table) (call : Call) : Table :=
  match call.outcome with
  | .failure reason => (record_server_failure threshold cooldown table call.ip call.port reason call.time).1
  | .success => record_server_success table call.ip call.port

/-- The table after a sequence of calls. -/
def recorded (calls : List Call) : Table := calls.foldl (record threshold cooldown) .empty

/-- What a call does to the row of its server. -/
def recordRow (row : Option Row) (call : Call) : Option Row :=
  match call.outcome with
  | .failure reason => some (failed threshold cooldown row reason call.time).1
  | .success => none

/-- The calls for one server. -/
def callsFor (server : String × Nat) (calls : List Call) : List Call :=
  calls.filter fun call => call.key = server

/-- The row that a server's own calls leave. -/
def row (history : List Call) : Option Row := history.foldl (recordRow threshold cooldown) none

theorem row_snoc (history : List Call) (call : Call) :
    row threshold cooldown (history ++ [call]) = recordRow threshold cooldown (row threshold cooldown history) call :=
  List.foldl_concat ..

theorem get_record_self (table : Table) (call : Call) :
    (record threshold cooldown table call).get call.key =
      recordRow threshold cooldown (table.get call.key) call := by
  rw [record, recordRow]
  cases call.outcome with
  | failure reason => exact Dict.get_set_self ..
  | success => exact Dict.get_erase_self ..

theorem get_record_of_ne {server : String × Nat} {call : Call} (hne : call.key ≠ server) (table : Table) :
    (record threshold cooldown table call).get server = table.get server := by
  rw [record]
  cases call.outcome with
  | failure reason => exact Dict.get_set_of_ne hne.symm ..
  | success => exact Dict.get_erase_of_ne hne.symm _

/-- The row of a server depends on its own calls only. -/
theorem get_recorded (calls : List Call) (server : String × Nat) :
    (recorded threshold cooldown calls).get server = row threshold cooldown (callsFor server calls) := by
  induction calls using List.reverseRecOn with
  | nil => rfl
  | append_singleton calls call ih =>
    have hstep : recorded threshold cooldown (calls ++ [call]) =
        record threshold cooldown (recorded threshold cooldown calls) call := List.foldl_concat ..
    rw [hstep, callsFor, List.filter_append, ← callsFor]
    by_cases hserver : call.key = server
    · subst hserver
      have hown : [call].filter (fun other => other.key = call.key) = [call] := by simp
      rw [hown, row_snoc, get_record_self, ih]
    · have hother : [call].filter (fun other => other.key = server) = [] := by simp [hserver]
      rw [hother, List.append_nil, get_record_of_ne threshold cooldown hserver, ih]

/-- What a server's calls amount to: the failures recorded since the later of its last success and the end of
its last blacklist period, the end of the period that runs, and whether a period ended since the last success. -/
structure Standing where
  failures : Nat
  ends : Option ℤ
  lapsed : Bool

def Standing.clear : Standing := ⟨0, none, false⟩

/-- At the end of its period a server starts over. -/
def Standing.at (standing : Standing) (now : ℤ) : Standing :=
  match standing.ends with
  | some deadline => if now < deadline then standing else ⟨0, none, true⟩
  | none => standing

/-- One more failure; from the threshold on it opens a period, or prolongs the one that runs. -/
def Standing.fail (standing : Standing) (now : ℤ) : Standing :=
  let standing := standing.at now
  let failures := standing.failures + 1
  ⟨failures, if threshold ≤ failures then some (now + cooldown) else standing.ends, standing.lapsed⟩

def Standing.next (standing : Standing) (call : Call) : Standing :=
  match call.outcome with
  | .failure _ => standing.fail threshold cooldown call.time
  | .success => .clear

def standing (history : List Call) : Standing := history.foldl (Standing.next threshold cooldown) .clear

/-- Enough failures were recorded since the last success and the last period, or a period runs. -/
def Standing.Due (standing : Standing) (now : ℤ) : Prop :=
  threshold ≤ (standing.at now).failures ∨ ∃ deadline, (standing.at now).ends = some deadline

/-- A period is due again although no success followed the one that ended. -/
def Standing.Relapsed (standing : Standing) : Prop :=
  2 ≤ threshold ∧ standing.lapsed = true ∧ threshold ≤ standing.failures

theorem standing_snoc (history : List Call) (call : Call) :
    standing threshold cooldown (history ++ [call]) = (standing threshold cooldown history).next threshold cooldown call :=
  List.foldl_concat ..

/-- The row of a server and what its calls amount to. The last case is that of a row whose old deadline has
passed: each failure counts as the first one. -/
inductive Agrees (time : ℤ) : Option Row → Standing → Prop where
  | clear : Agrees time none .clear
  | counting (row : Row) (standing : Standing) (huntil : row.blacklisted_until = none)
      (hends : standing.ends = none) (hfailures : row.failures = standing.failures)
      (hfew : standing.failures < threshold) (hfresh : standing.lapsed = false) : Agrees time (some row) standing
  | blocking (row : Row) (standing : Standing) (deadline : ℤ) (huntil : row.blacklisted_until = some deadline)
      (hends : standing.ends = some deadline) (hrow : threshold ≤ row.failures)
      (hmany : threshold ≤ standing.failures) (hfresh : standing.lapsed = true → threshold ≤ 1) :
      Agrees time (some row) standing
  | stale (row : Row) (standing : Standing) (deadline : ℤ) (huntil : row.blacklisted_until = some deadline)
      (hpassed : deadline ≤ time) (hends : standing.ends = none) (hlapsed : standing.lapsed = true)
      (htwo : 2 ≤ threshold) (hfew : standing.failures < threshold) : Agrees time (some row) standing

variable {threshold} {cooldown}

theorem Standing.at_of_none {standing : Standing} (hends : standing.ends = none) (now : ℤ) :
    standing.at now = standing := by
  rw [Standing.at, hends]

theorem Standing.at_of_lt {standing : Standing} {deadline now : ℤ} (hends : standing.ends = some deadline)
    (hlater : now < deadline) : standing.at now = standing := by
  simp only [Standing.at, hends, if_pos hlater]

theorem Standing.at_of_le {standing : Standing} {deadline now : ℤ} (hends : standing.ends = some deadline)
    (hpassed : deadline ≤ now) : standing.at now = ⟨0, none, true⟩ := by
  simp only [Standing.at, hends, if_neg (Int.not_lt.mpr hpassed)]

theorem Standing.at_of_not_over {standing : Standing} {now : ℤ}
    (hrunning : ¬ ∃ deadline, standing.ends = some deadline ∧ deadline ≤ now) : standing.at now = standing := by
  cases hends : standing.ends with
  | none => exact Standing.at_of_none hends now
  | some deadline =>
    apply Standing.at_of_lt hends
    by_contra hnot
    exact hrunning ⟨deadline, hends, Int.not_lt.mp hnot⟩

theorem Standing.not_due {standing : Standing} {now : ℤ} (hends : (standing.at now).ends = none)
    (hfew : (standing.at now).failures < threshold) : ¬ standing.Due threshold now := by
  rintro (hmany | ⟨deadline, hdeadline⟩)
  · exact absurd hmany (Nat.not_le.mpr hfew)
  · rw [hends] at hdeadline
    cases hdeadline

/-- Where the two agree, the row blocks its server exactly while that is due. -/
theorem Agrees.blocks_iff {time now : ℤ} {row : Option Row} {standing : Standing}
    (hagrees : Agrees threshold time row standing) (hthreshold : 1 ≤ threshold) (hnow : time ≤ now) :
    (∃ blocking, row = some blocking ∧ blocking.Blocks now) ↔ standing.Due threshold now := by
  cases hagrees with
  | clear =>
    have hnot : ¬ Standing.clear.Due threshold now := Standing.not_due rfl hthreshold
    simp [hnot]
  | counting row standing huntil hends hfailures hfew hfresh =>
    have hat := Standing.at_of_none hends now
    have hnot : ¬ standing.Due threshold now := Standing.not_due (by rw [hat, hends]) (by rwa [hat])
    simp [Row.Blocks, huntil, hnot]
  | blocking row standing deadline huntil hends hrow hmany hfresh =>
    by_cases hlater : now < deadline
    · have hdue : standing.Due threshold now := by
        rw [Standing.Due, Standing.at_of_lt hends hlater]
        exact .inl hmany
      simp [Row.Blocks, huntil, hlater, hdue]
    · have hat := Standing.at_of_le hends (Int.not_lt.mp hlater)
      have hnot : ¬ standing.Due threshold now := Standing.not_due (by rw [hat]) (by rw [hat]; exact hthreshold)
      simp [Row.Blocks, huntil, hlater, hnot]
  | stale row standing deadline huntil hpassed hends hlapsed htwo hfew =>
    have hat := Standing.at_of_none hends now
    have hnot : ¬ standing.Due threshold now := Standing.not_due (by rw [hat, hends]) (by rwa [hat])
    have hover : ¬ now < deadline := Int.not_lt.mpr (hpassed.trans hnow)
    simp [Row.Blocks, huntil, hover, hnot]

/-- Where the two agree no server has relapsed. -/
theorem Agrees.not_relapsed {time : ℤ} {row : Option Row} {standing : Standing}
    (hagrees : Agrees threshold time row standing) : ¬ standing.Relapsed threshold := by
  rintro ⟨htwo, hlapsed, hmany⟩
  cases hagrees with
  | clear => cases hlapsed
  | counting row standing huntil hends hfailures hfew hfresh => exact absurd hmany (Nat.not_le.mpr hfew)
  | blocking row standing deadline huntil hends hrow hmany hfresh =>
    exact absurd (hfresh hlapsed) (Nat.not_le.mpr htwo)
  | stale row standing deadline huntil hpassed hends hlapsed htwo hfew =>
    exact absurd hmany (Nat.not_le.mpr hfew)

theorem Agrees.mono {time now : ℤ} {row : Option Row} {standing : Standing}
    (hagrees : Agrees threshold time row standing) (hnow : time ≤ now) : Agrees threshold now row standing := by
  cases hagrees with
  | clear => exact .clear
  | counting row standing huntil hends hfailures hfew hfresh =>
    exact .counting row standing huntil hends hfailures hfew hfresh
  | blocking row standing deadline huntil hends hrow hmany hfresh =>
    exact .blocking row standing deadline huntil hends hrow hmany hfresh
  | stale row standing deadline huntil hpassed hends hlapsed htwo hfew =>
    exact .stale row standing deadline huntil (hpassed.trans hnow) hends hlapsed htwo hfew

/-- A failure takes a row that counts enough failures to a row that blocks. -/
theorem Agrees.fail_many {time now : ℤ} {row : Option Row} {standing : Standing} {reason : String}
    (hrow : threshold ≤ (upsert row reason now).failures) (hmany : threshold ≤ (standing.at now).failures + 1)
    (hfresh : (standing.at now).lapsed = true → threshold ≤ 1) :
    Agrees threshold time (some (failed threshold cooldown row reason now).1) (standing.fail threshold cooldown now) := by
  apply Agrees.blocking _ _ (now + cooldown)
  · rw [until_failed, if_pos hrow]
  · exact if_pos hmany
  · rw [failures_failed]
    exact hrow
  · exact hmany
  · exact hfresh

/-- A row that counts on from no deadline goes on with what the calls amount to. -/
theorem Agrees.fail_counting {time now : ℤ} {row : Option Row} {standing : Standing} {reason : String}
    (huntil : (upsert row reason now).blacklisted_until = none) (hends : (standing.at now).ends = none)
    (hfailures : (upsert row reason now).failures = (standing.at now).failures + 1)
    (hfresh : (standing.at now).lapsed = false) :
    Agrees threshold time (some (failed threshold cooldown row reason now).1) (standing.fail threshold cooldown now) := by
  by_cases hmany : threshold ≤ (standing.at now).failures + 1
  · apply Agrees.fail_many (by rwa [hfailures]) hmany
    intro hlapsed
    rw [hfresh] at hlapsed
    cases hlapsed
  · apply Agrees.counting
    · rw [until_failed, hfailures, if_neg hmany, huntil]
    · exact (if_neg hmany).trans hends
    · rw [failures_failed]
      exact hfailures
    · exact Nat.not_le.mp hmany
    · exact hfresh

/-- From the threshold on a failure makes the blacklist due. -/
theorem Standing.due_fail {standing : Standing} {now : ℤ} (hcooldown : 0 < cooldown)
    (hmany : threshold ≤ (standing.at now).failures + 1) :
    (standing.fail threshold cooldown now).Due threshold now := by
  have hends : (standing.fail threshold cooldown now).ends = some (now + cooldown) := if_pos hmany
  have hlater : now < now + cooldown := Int.lt_add_of_pos_right now hcooldown
  left
  rw [Standing.at_of_lt hends hlater]
  exact hmany

/-- The call with which a server relapses leaves it off the list. -/
structure Missed (threshold : Nat) (now : ℤ) (row : Option Row) (standing : Standing) : Prop where
  relapsed : standing.Relapsed threshold
  due : standing.Due threshold now
  unlisted : ∀ blocking, row = some blocking → ¬ blocking.Blocks now

/-- A failure keeps the agreement, unless it is the one with which a server relapses. -/
theorem Agrees.fail {time now : ℤ} {row : Option Row} {standing : Standing} (reason : String)
    (hagrees : Agrees threshold time row standing) (hcooldown : 0 < cooldown) (hnow : time ≤ now) :
    Agrees threshold now (some (failed threshold cooldown row reason now).1) (standing.fail threshold cooldown now) ∨
      Missed threshold now (some (failed threshold cooldown row reason now).1)
        (standing.fail threshold cooldown now) := by
  cases hagrees with
  | clear =>
    have hat : Standing.clear.at now = .clear := Standing.at_of_none rfl now
    exact .inl (Agrees.fail_counting rfl (by rw [hat]; rfl) (by rw [hat]; rfl) (by rw [hat]; rfl))
  | counting row standing huntil hends hfailures hfew hfresh =>
    have hat := Standing.at_of_none hends now
    refine .inl (Agrees.fail_counting huntil (by rw [hat, hends]) ?_ (by rw [hat, hfresh]))
    simp only [upsert, counted, huntil, hat, hfailures]
  | blocking row standing deadline huntil hends hrow hmany hfresh =>
    by_cases hlater : now < deadline
    · have hat := Standing.at_of_lt hends hlater
      refine .inl (Agrees.fail_many ?_ (by rw [hat]; omega) (by rwa [hat]))
      simpa only [upsert, counted, huntil, if_pos hlater] using hrow
    · have hat := Standing.at_of_le hends (Int.not_lt.mp hlater)
      have hfirst : (upsert (some row) reason now).failures = 1 := by
        simp only [upsert, counted, huntil, if_neg hlater]
      by_cases hone : threshold ≤ 1
      · exact .inl (Agrees.fail_many (by rwa [hfirst]) (by rwa [hat]) fun _ => hone)
      · have hnext : standing.fail threshold cooldown now = ⟨1, none, true⟩ := by
          simp only [Standing.fail, hat, Nat.zero_add, if_neg hone]
        refine .inl (Agrees.stale _ _ deadline ?_ (Int.not_lt.mp hlater) ?_ ?_ (Nat.not_le.mp hone) ?_)
        · rw [until_failed, hfirst, if_neg hone]
          exact huntil
        · rw [hnext]
        · rw [hnext]
        · rw [hnext]
          exact Nat.not_le.mp hone
  | stale row standing deadline huntil hpassed hends hlapsed htwo hfew =>
    have hat := Standing.at_of_none hends now
    have hover : deadline ≤ now := hpassed.trans hnow
    have hfirst : (upsert (some row) reason now).failures = 1 := by
      simp only [upsert, counted, huntil, if_neg (Int.not_lt.mpr hover)]
    have hstale : (failed threshold cooldown (some row) reason now).1.blacklisted_until = some deadline := by
      rw [until_failed, hfirst, if_neg (Nat.not_le.mpr htwo)]
      exact huntil
    have hnext : standing.fail threshold cooldown now =
        ⟨standing.failures + 1, if threshold ≤ standing.failures + 1 then some (now + cooldown) else none, true⟩ := by
      simp only [Standing.fail, hat, hends, hlapsed]
    by_cases hmany : threshold ≤ standing.failures + 1
    · right
      constructor
      · exact ⟨htwo, by rw [hnext], by rwa [hnext]⟩
      · exact Standing.due_fail hcooldown (by rwa [hat])
      · rintro blocking hblocking ⟨later, hdeadline, hlater⟩
        cases hblocking
        rw [hstale] at hdeadline
        cases hdeadline
        exact absurd hlater (Int.not_lt.mpr hover)
    · left
      apply Agrees.stale _ _ deadline hstale hover ?_ ?_ htwo ?_
      · rw [hnext, if_neg hmany]
      · rw [hnext]
      · rw [hnext]
        exact Nat.not_le.mp hmany

/-- Over its own calls a server's row agrees with what they amount to, up to the call with which it relapses. -/
theorem agrees_or_missed {history : List Call} (hsorted : history.Pairwise fun call later => call.time ≤ later.time)
    (hcooldown : 0 < cooldown) :
    (∀ now, (∀ call ∈ history, call.time ≤ now) →
      Agrees threshold now (row threshold cooldown history) (standing threshold cooldown history)) ∨
    ∃ front call, front ++ [call] <+: history ∧
      Missed threshold call.time (row threshold cooldown (front ++ [call]))
        (standing threshold cooldown (front ++ [call])) := by
  induction history using List.reverseRecOn with
  | nil => exact .inl fun _ _ => .clear
  | append_singleton history call ih =>
    rw [List.pairwise_append] at hsorted
    obtain ⟨hbefore, _, hlast⟩ := hsorted
    rcases ih hbefore with hagrees | ⟨front, missed, hprefix, hmissed⟩
    · have hnow : ∀ earlier ∈ history, earlier.time ≤ call.time :=
        fun earlier hearlier => hlast earlier hearlier call (List.mem_singleton_self call)
      have hstep : Agrees threshold call.time (row threshold cooldown (history ++ [call]))
            (standing threshold cooldown (history ++ [call])) ∨
          Missed threshold call.time (row threshold cooldown (history ++ [call]))
            (standing threshold cooldown (history ++ [call])) := by
        rw [row_snoc, standing_snoc, recordRow, Standing.next]
        cases call.outcome with
        | failure reason => exact (hagrees call.time hnow).fail reason hcooldown le_rfl
        | success => exact .inl .clear
      rcases hstep with hagrees' | hmissed
      · left
        intro now hall
        exact hagrees'.mono (hall call (by simp))
      · exact .inr ⟨history, call, List.prefix_rfl, hmissed⟩
    · exact .inr ⟨front, missed, hprefix.trans (List.prefix_append history [call]), hmissed⟩

end amuled.server
