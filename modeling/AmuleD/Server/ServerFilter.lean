import AmuleD.Dict
import AmuleD.Security.IpFilter

open pystr
open amuled.ipfilter

namespace amuled.server_met

/-- One static server imported from text format. -/
structure StaticServer where
  host : PyStr
  port : Int
  name : PyStr
  priority : Int
  static : Bool
  deriving DecidableEq

/-- The characters at which `splitlines` ends a line. -/
def line_end (point : Nat) : Bool :=
  (0x0A ≤ point && point ≤ 0x0D) || (0x1C ≤ point && point ≤ 0x1E) || [0x85, 0x2028, 0x2029].contains point

/-- `text.splitlines()`, behind the line that was begun. -/
def lines_from (line : PyStr) : PyStr → List PyStr
  | [] => if line = [] then [] else [line]
  | 0x0D :: 0x0A :: rest => line :: lines_from [] rest
  | point :: rest => if line_end point then line :: lines_from [] rest else lines_from (line ++ [point]) rest

/-- The server of a line that names three fields, or `none` where the loop skips the line. -/
def static_server (raw_line : PyStr) : Option StaticServer :=
  let line := strip raw_line
  if line = [] ∨ line.head? = some 0x23 ∨ line.head? = some 0x2F then none
  else
    match (split 0x2C line).map strip with
    | [endpoint, priority_raw, name] =>
      if 0x3A ∉ endpoint then none
      else
        match int_of (endpoint.dropWhile fun point => point ≠ 0x3A).tail, int_of priority_raw with
        | some port, some priority =>
          if ¬(0 ≤ port ∧ port ≤ 0xFFFF) then none
          else
            some ⟨endpoint.takeWhile fun point => point ≠ 0x3A, port, if name = [] then endpoint else name,
              if 0 ≤ priority ∧ priority ≤ 2 then priority else 0, true⟩
        | _, _ => none
    | _ => none

/-- The servers of a text file that could be read. -/
def load_static_servers (text : PyStr) : List StaticServer := (lines_from [] text).filterMap static_server

/-- A host is what stands before the first colon, be it an address or a name. -/
theorem mem_load_static_servers {text : PyStr} {server : StaticServer} (hserver : server ∈ load_static_servers text) :
    0x3A ∉ server.host ∧ server.name ≠ [] ∧ (0 ≤ server.port ∧ server.port ≤ 0xFFFF) ∧
      (0 ≤ server.priority ∧ server.priority ≤ 2) ∧ server.static = true := by
  obtain ⟨raw_line, _, hline⟩ := List.mem_filterMap.mp hserver
  have hhost : ∀ endpoint : PyStr, 0x3A ∉ endpoint.takeWhile fun point => point ≠ 0x3A := by
    intro endpoint hmem
    simpa using List.all_eq_true.mp List.all_takeWhile _ hmem
  unfold static_server at hline
  dsimp only at hline
  split at hline
  · cases hline
  · split at hline
    · rename_i endpoint priority_raw name _
      split at hline
      · cases hline
      · rename_i hcolon
        split at hline
        · rename_i port priority _ _
          split at hline
          · cases hline
          · rename_i hport
            rw [Option.some.injEq] at hline
            subst hline
            refine ⟨hhost endpoint, ?_, not_not.mp hport, ?_, rfl⟩
            · dsimp only
              split_ifs with hname
              · rintro rfl
                exact hcolon List.not_mem_nil
              · exact hname
            · dsimp only
              split_ifs with hpriority
              · exact hpriority
              · exact ⟨le_refl 0, by decide⟩
        · cases hline
    · cases hline

end amuled.server_met

namespace amuled.server_filter

/-- Selection outcome for one candidate server. -/
structure ServerVerdict where
  host : PyStr
  port : Int
  allowed : Bool
  reason : PyStr
  deriving DecidableEq

/-- `_ServerRecord`; a deadline of 0 is none. -/
structure Record where
  failures : Int
  blacklisted_until : Int
  successes : Int
  last_error : PyStr
  history : List Int

def Record.new : Record := ⟨0, 0, 0, [], []⟩

/-- In-memory dead-server tracker combined with the IP filter; the cooldown counts in the unit of the clock. -/
structure ServerFilter where
  ip_filter : Option IpFilter
  failure_threshold : Int
  cooldown_seconds : Int
  filter_level : Int
  _records : Dict (PyStr × Int) Record

/-- What `evaluate` may raise: a host is no address, or a level has too many digits for a text. -/
inductive Raised where
  | address (error : IpFilterError)
  | level (level : Int)

namespace ServerFilter

def init (ip_filter : Option IpFilter) (failure_threshold cooldown_seconds filter_level : Int) : ServerFilter :=
  ⟨ip_filter, failure_threshold, cooldown_seconds, filter_level, .empty⟩

def _record (filter : ServerFilter) (server : PyStr × Int) : Record := (filter._records.get server).getD .new

/-- The clock is read once for the history and once more for the deadline. -/
def report_failure (filter : ServerFilter) (server : PyStr × Int) (reason : PyStr) (now later : Int) :
    ServerFilter × Bool :=
  let record := filter._record server
  let record := { record with
    failures := record.failures + 1, last_error := reason, history := record.history ++ [now] }
  if filter.failure_threshold ≤ record.failures then
    let record := { record with blacklisted_until := later + filter.cooldown_seconds }
    ({ filter with _records := filter._records.set server record }, true)
  else ({ filter with _records := filter._records.set server record }, false)

def report_success (filter : ServerFilter) (server : PyStr × Int) : ServerFilter :=
  let record := filter._record server
  let record := { record with
    failures := 0, successes := record.successes + 1, blacklisted_until := 0, last_error := [] }
  { filter with _records := filter._records.set server record }

def is_blacklisted (filter : ServerFilter) (server : PyStr × Int) (now : Int) : ServerFilter × Bool :=
  match filter._records.get server with
  | none => (filter, false)
  | some record =>
    if record.blacklisted_until ≠ 0 ∧ record.blacklisted_until ≤ now then
      let record := { record with blacklisted_until := 0, failures := 0 }
      ({ filter with _records := filter._records.set server record }, false)
    else (filter, 0 < record.blacklisted_until)

/-- The level for which the IP filter rejects a host. -/
def rejecting_level (filter : ServerFilter) (host : PyStr) : Except IpFilterError (Option Int) :=
  match filter.ip_filter with
  | none => .ok none
  | some ip_filter => do
    if ← ip_filter.is_filtered (.str host) filter.filter_level then
      let matched ← ip_filter.match (.str host)
      .ok (some (matched.elim 0 IpRange.level))
    else .ok none

def evaluate (filter : ServerFilter) (server : PyStr × Int) (now : Int) : ServerFilter × Except Raised ServerVerdict :=
  match filter.rejecting_level server.1 with
  | .error error => (filter, .error (.address error))
  | .ok (some level) =>
    match str_of level with
    | none => (filter, .error (.level level))
    | some text => (filter, .ok ⟨server.1, server.2, false, lit "ipfilter level " ++ text⟩)
  | .ok none =>
    let (filter, blacklisted) := filter.is_blacklisted server now
    if blacklisted then (filter, .ok ⟨server.1, server.2, false, lit "blacklisted (dead server)"⟩)
    else (filter, .ok ⟨server.1, server.2, true, lit "ok"⟩)

end ServerFilter

/-- A candidate, and the time at which its turn comes. -/
structure Look where
  server : PyStr × Int
  now : Int

namespace ServerFilter

/-- The verdicts in the order of the candidates. -/
def verdicts (filter : ServerFilter) : List Look → ServerFilter × Except Raised (List ServerVerdict)
  | [] => (filter, .ok [])
  | look :: rest =>
    match filter.evaluate look.server look.now with
    | (filter, .error error) => (filter, .error error)
    | (filter, .ok verdict) => ((filter.verdicts rest).1, (filter.verdicts rest).2.map (verdict :: ·))

def select_servers (filter : ServerFilter) (candidates : List Look) :
    ServerFilter × Except Raised (List ServerVerdict) :=
  ((filter.verdicts candidates).1, (filter.verdicts candidates).2.map fun verdicts =>
    verdicts.filter (fun verdict => verdict.allowed) ++ verdicts.filter fun verdict => !verdict.allowed)

end ServerFilter

/-- One call of `report_failure` or `report_success`. -/
inductive Report where
  | failure (server : PyStr × Int) (reason : PyStr) (now later : Int)
  | success (server : PyStr × Int)

def Report.server : Report → PyStr × Int
  | .failure server _ _ _ => server
  | .success server => server

def Report.fails : Report → Bool
  | .failure _ _ _ _ => true
  | .success _ => false

namespace ServerFilter

def report (filter : ServerFilter) : Report → ServerFilter
  | .failure server reason now later => (filter.report_failure server reason now later).1
  | .success server => filter.report_success server

/-- A history of reports. -/
def run (filter : ServerFilter) (reports : List Report) : ServerFilter := reports.foldl report filter

end ServerFilter

/-- The failures of a server since its last success, the latest first. -/
def streak (server : PyStr × Int) (reports : List Report) : List Report :=
  (reports.filter fun report => report.server = server).reverse.takeWhile Report.fails

section Deadline

variable (failure_threshold cooldown_seconds : Int)

/-- The cooldown behind the latest of enough failures; 0 where there is none. -/
def deadline : List Report → Int
  | .failure server reason now later :: rest =>
    if failure_threshold ≤ (Report.failure server reason now later :: rest).length then later + cooldown_seconds else 0
  | _ => 0

/-- The deadline of the server's failures lies ahead, now (at the last of the looks) and at each earlier look that this
call took at the server. -/
def Blacklisted (reports : List Report) (server : PyStr × Int) (looks : List Look) : Prop :=
  0 < deadline failure_threshold cooldown_seconds (streak server reports) ∧
    ∀ look ∈ looks, look.server = server →
      look.now < deadline failure_threshold cooldown_seconds (streak server reports)

end Deadline

/-- The host lies in a range that the filter rejects. -/
def Filtered (ip_filter : Option IpFilter) (filter_level : Int) (host : PyStr) : Prop :=
  ∃ filter, ip_filter = some filter ∧ filter.is_filtered (.str host) filter_level = .ok true

/-- Without a filter a host may be any text; a filter has to read an address, and if it rejects that one, its level
has to have a text. -/
def Judged (ip_filter : Option IpFilter) (filter_level : Int) (host : PyStr) : Prop :=
  ∀ filter, ip_filter = some filter → ∃ ip_int, _ip_to_int host = .ok ip_int ∧
    ∀ range, (filter._ranges.find? fun range => range.contains ip_int) = some range → filter_level ≤ range.level →
      (str_of range.level).isSome

namespace ServerFilter

variable {filter : ServerFilter} {server other : PyStr × Int} {now : Int}

@[simp] theorem _record_set (record : Record) :
    { filter with _records := filter._records.set server record }._record other =
      if other = server then record else filter._record other := by
  rw [_record]
  split_ifs with hserver
  · rw [hserver, Dict.get_set_self, Option.getD_some]
  · rw [Dict.get_set_of_ne hserver, _record]

/-- The record that a failure leaves. -/
def failed (filter : ServerFilter) (server : PyStr × Int) (reason : PyStr) (now later : Int) : Record :=
  { filter._record server with
    failures := (filter._record server).failures + 1
    last_error := reason
    history := (filter._record server).history ++ [now]
    blacklisted_until :=
      if filter.failure_threshold ≤ (filter._record server).failures + 1 then later + filter.cooldown_seconds
      else (filter._record server).blacklisted_until }

theorem report_failure_eq (reason : PyStr) (later : Int) :
    (filter.report_failure server reason now later).1 =
      { filter with _records := filter._records.set server (filter.failed server reason now later) } := by
  rw [report_failure, failed]
  split_ifs <;> rfl

omit filter now in
theorem deadline_eq_zero {failure_threshold cooldown_seconds : Int} {reports : List Report}
    (hfew : ¬failure_threshold ≤ reports.length) : deadline failure_threshold cooldown_seconds reports = 0 := by
  unfold deadline
  split
  · exact if_neg hfew
  · rfl

/-- What a history makes of the parameters and of one server. -/
theorem run_init (ip_filter : Option IpFilter) (failure_threshold cooldown_seconds filter_level : Int)
    (reports : List Report) :
    let filter := (init ip_filter failure_threshold cooldown_seconds filter_level).run reports
    filter.ip_filter = ip_filter ∧ filter.failure_threshold = failure_threshold ∧
      filter.cooldown_seconds = cooldown_seconds ∧ filter.filter_level = filter_level ∧
      ∀ server, (filter._record server).failures = (streak server reports).length ∧
        (filter._record server).blacklisted_until =
          deadline failure_threshold cooldown_seconds (streak server reports) := by
  induction reports using List.reverseRecOn with
  | nil => exact ⟨rfl, rfl, rfl, rfl, fun _ => ⟨rfl, rfl⟩⟩
  | append_singleton reports last ih =>
    obtain ⟨hfilter, hthreshold, hcooldown, hlevel, hrecord⟩ := ih
    rw [run, List.foldl_append, List.foldl_cons, List.foldl_nil]
    generalize hrun : reports.foldl report _ = filter at *
    rw [run, hrun] at hfilter hthreshold hcooldown hlevel hrecord
    have hother : ∀ server, last.server ≠ server → streak server (reports ++ [last]) = streak server reports := by
      intro server hserver
      rw [streak, List.filter_append, List.filter_cons_of_neg (by simpa using hserver), List.filter_nil,
        List.append_nil, streak]
    have hself : streak last.server (reports ++ [last]) =
        if last.fails then last :: streak last.server reports else [] := by
      rw [streak, List.filter_append, List.filter_cons_of_pos (by simp), List.filter_nil, List.reverse_append,
        List.reverse_singleton, List.singleton_append, List.takeWhile_cons, streak]
    cases last with
    | failure server reason now later =>
      rw [report, report_failure_eq]
      refine ⟨hfilter, hthreshold, hcooldown, hlevel, fun other => ?_⟩
      rw [_record_set]
      split_ifs with hserver
      · subst hserver
        obtain ⟨hfailures, huntil⟩ := hrecord other
        rw [show streak other (reports ++ [.failure other reason now later]) =
          .failure other reason now later :: streak other reports from hself]
        have hlength : failure_threshold ≤ (filter._record other).failures + 1 ↔
            failure_threshold ≤ ((Report.failure other reason now later :: streak other reports).length : Int) := by
          rw [hfailures, List.length_cons, Nat.cast_succ]
        refine ⟨by rw [failed, hfailures, List.length_cons, Nat.cast_succ], ?_⟩
        rw [failed, hthreshold, hcooldown, huntil, deadline]
        by_cases hmany : failure_threshold ≤ (filter._record other).failures + 1
        · rw [if_pos hmany, if_pos (hlength.mp hmany)]
        · rw [if_neg hmany, if_neg fun h => hmany (hlength.mpr h)]
          exact deadline_eq_zero fun h => hmany (by rw [hfailures]; omega)
      · rw [hother other (Ne.symm hserver)]
        exact hrecord other
    | success server =>
      rw [report, report_success]
      refine ⟨hfilter, hthreshold, hcooldown, hlevel, fun other => ?_⟩
      rw [_record_set]
      split_ifs with hserver
      · subst hserver
        rw [show streak other (reports ++ [.success other]) = [] from hself]
        exact ⟨rfl, rfl⟩
      · rw [hother other (Ne.symm hserver)]
        exact hrecord other

/-- A look at a server ends its cooldown once that is over, and leaves all others as they are. -/
theorem is_blacklisted_spec (filter : ServerFilter) (server : PyStr × Int) (now : Int) :
    ((filter.is_blacklisted server now).2 = true ↔
      0 < (filter._record server).blacklisted_until ∧ now < (filter._record server).blacklisted_until) ∧
    (filter.is_blacklisted server now).1.ip_filter = filter.ip_filter ∧
    (filter.is_blacklisted server now).1.filter_level = filter.filter_level ∧
    ∀ other, ((filter.is_blacklisted server now).1._record other).blacklisted_until =
      if other = server ∧ (filter._record server).blacklisted_until ≤ now then 0
      else (filter._record other).blacklisted_until := by
  have hrecord : filter._record server = (filter._records.get server).getD .new := rfl
  rw [is_blacklisted]
  cases hget : filter._records.get server with
  | none =>
    rw [hget, Option.getD_none] at hrecord
    refine ⟨by simp [hrecord, Record.new], rfl, rfl, fun other => ?_⟩
    split_ifs with hover
    · rw [hover.1, hrecord, Record.new]
    · rfl
  | some record =>
    rw [hget, Option.getD_some] at hrecord
    rw [hrecord]
    dsimp only
    split_ifs with hover
    · refine ⟨by simp only [false_iff]; omega, rfl, rfl, fun other => ?_⟩
      rw [_record_set]
      by_cases hserver : other = server
      · rw [if_pos hserver, if_pos ⟨hserver, hover.2⟩]
      · rw [if_neg hserver, if_neg fun h => hserver h.1]
    · refine ⟨by simp only [decide_eq_true_eq]; omega, rfl, rfl, fun other => ?_⟩
      split_ifs with hlate
      · rw [hlate.1, hrecord]
        by_contra hzero
        exact hover ⟨hzero, hlate.2⟩
      · rfl

theorem match_of_ok (ip_filter : IpFilter) {host : PyStr} {ip_int : Int} (hhost : _ip_to_int host = .ok ip_int) :
    ip_filter.match (.str host) = .ok (ip_filter._ranges.find? fun range => range.contains ip_int) := by
  simp only [IpFilter.match, Address.ip_int, hhost]
  rfl

theorem is_filtered_of_ok (ip_filter : IpFilter) (filter_level : Int) {host : PyStr} {ip_int : Int}
    (hhost : _ip_to_int host = .ok ip_int) :
    ip_filter.is_filtered (.str host) filter_level =
      .ok ((ip_filter._ranges.find? fun range => range.contains ip_int).any fun range => filter_level ≤ range.level) := by
  simp only [IpFilter.is_filtered, match_of_ok ip_filter hhost]
  rfl

theorem is_filtered_of_error (ip_filter : IpFilter) (filter_level : Int) {host : PyStr} {error : IpFilterError}
    (hhost : _ip_to_int host = .error error) : ip_filter.is_filtered (.str host) filter_level = .error error := by
  simp only [IpFilter.is_filtered, IpFilter.match, Address.ip_int, hhost]
  rfl

/-- A filter judges a host by the first range around its address. -/
theorem rejecting_level_of_ok {ip_filter : IpFilter} (hfilter : filter.ip_filter = some ip_filter) {host : PyStr}
    {ip_int : Int} (hhost : _ip_to_int host = .ok ip_int) :
    filter.rejecting_level host = .ok (((ip_filter._ranges.find? fun range => range.contains ip_int).filter
      fun range => filter.filter_level ≤ range.level).map IpRange.level) := by
  simp only [rejecting_level, hfilter, is_filtered_of_ok ip_filter filter.filter_level hhost, match_of_ok ip_filter hhost,
    bind, Except.bind]
  cases ip_filter._ranges.find? fun range => range.contains ip_int with
  | none => rfl
  | some range =>
    rw [Option.any_some, Option.filter_some]
    split_ifs <;> rfl

theorem rejecting_level_of_error {ip_filter : IpFilter} (hfilter : filter.ip_filter = some ip_filter) {host : PyStr}
    {error : IpFilterError} (hhost : _ip_to_int host = .error error) :
    filter.rejecting_level host = .error error := by
  simp only [rejecting_level, hfilter, is_filtered_of_error ip_filter filter.filter_level hhost]
  rfl

/-- The three ends of the first step of `evaluate`. -/
theorem rejecting_level_cases (filter : ServerFilter) (host : PyStr) :
    (∃ error, filter.rejecting_level host = .error error ∧ ¬Judged filter.ip_filter filter.filter_level host) ∨
    (∃ level, filter.rejecting_level host = .ok (some level) ∧ Filtered filter.ip_filter filter.filter_level host ∧
      (Judged filter.ip_filter filter.filter_level host ↔ (str_of level).isSome)) ∨
    (filter.rejecting_level host = .ok none ∧ ¬Filtered filter.ip_filter filter.filter_level host ∧
      Judged filter.ip_filter filter.filter_level host) := by
  cases hfilter : filter.ip_filter with
  | none =>
    right; right
    refine ⟨by rw [rejecting_level, hfilter], ?_, ?_⟩
    · rintro ⟨_, hsome, _⟩
      cases hsome
    · intro _ hsome
      cases hsome
  | some ip_filter =>
    cases hhost : _ip_to_int host with
    | error error =>
      left
      refine ⟨error, rejecting_level_of_error hfilter hhost, fun hjudged => ?_⟩
      obtain ⟨ip_int, hok, _⟩ := hjudged ip_filter rfl
      rw [hhost] at hok
      cases hok
    | ok ip_int =>
      right
      have hrejecting := rejecting_level_of_ok hfilter hhost
      have hfiltered : Filtered (some ip_filter) filter.filter_level host ↔
          ((ip_filter._ranges.find? fun range => range.contains ip_int).any
            fun range => filter.filter_level ≤ range.level) = true := by
        simp only [Filtered, Option.some.injEq, exists_eq_left', is_filtered_of_ok _ _ hhost, Except.ok.injEq]
      have hjudged : Judged (some ip_filter) filter.filter_level host ↔
          ∀ range, (ip_filter._ranges.find? fun range => range.contains ip_int) = some range →
            filter.filter_level ≤ range.level → (str_of range.level).isSome := by
        simp only [Judged, Option.some.injEq, forall_eq', hhost, Except.ok.injEq, exists_eq_left']
      rw [hfiltered, hjudged]
      rw [hrejecting]
      cases ip_filter._ranges.find? fun range => range.contains ip_int with
      | none =>
        right
        exact ⟨rfl, by simp, by simp⟩
      | some range =>
        by_cases habove : filter.filter_level ≤ range.level
        · left
          exact ⟨range.level, by simp [habove], by simp [habove], by simp [habove]⟩
        · right
          have hbelow : range.level < filter.filter_level := Int.not_le.mp habove
          exact ⟨by simpa using hbelow, by simpa using hbelow, by simp [habove]⟩

/-- The server is rejected at the last of the looks, from the state before the first of them. -/
def Rejects (filter : ServerFilter) (server : PyStr × Int) (looks : List Look) : Prop :=
  Filtered filter.ip_filter filter.filter_level server.1 ∨
    0 < (filter._record server).blacklisted_until ∧
      ∀ look ∈ looks, look.server = server → look.now < (filter._record server).blacklisted_until

/-- One turn: either the host cannot be judged, and `evaluate` raises, or it gives the verdict that is due and leaves
a state that rejects what the state before rejects once this look counts. -/
theorem evaluate_spec (filter : ServerFilter) (look : Look) :
    (¬Judged filter.ip_filter filter.filter_level look.server.1 ∧
      ∃ raised, (filter.evaluate look.server look.now).2 = .error raised) ∨
    (Judged filter.ip_filter filter.filter_level look.server.1 ∧
      (∃ verdict, (filter.evaluate look.server look.now).2 = .ok verdict ∧
        (verdict.host, verdict.port) = look.server ∧ (verdict.allowed = false ↔ filter.Rejects look.server [look])) ∧
      (filter.evaluate look.server look.now).1.ip_filter = filter.ip_filter ∧
      (filter.evaluate look.server look.now).1.filter_level = filter.filter_level ∧
      ∀ server looks, (filter.evaluate look.server look.now).1.Rejects server looks ↔
        filter.Rejects server (look :: looks)) := by
  rcases filter.rejecting_level_cases look.server.1 with
    ⟨error, hlevel, hunread⟩ | ⟨level, hlevel, hfiltered, hjudged⟩ | ⟨hlevel, hpasses, hjudged⟩
  · left
    rw [evaluate, hlevel]
    exact ⟨hunread, _, rfl⟩
  · rw [evaluate, hlevel, hjudged]
    dsimp only
    cases htext : str_of level with
    | none => exact Or.inl ⟨Bool.false_ne_true, _, rfl⟩
    | some text =>
      refine Or.inr ⟨rfl, ⟨_, rfl, rfl, iff_of_true rfl (Or.inl hfiltered)⟩, rfl, rfl, fun server looks => ?_⟩
      by_cases hserver : server = look.server
      · exact iff_of_true (Or.inl (hserver ▸ hfiltered)) (Or.inl (hserver ▸ hfiltered))
      · rw [Rejects, Rejects, List.forall_mem_cons]
        simp only [Ne.symm hserver, false_implies, true_and]
  · right
    obtain ⟨hblacklisted, hsame, hsame', huntil⟩ := filter.is_blacklisted_spec look.server look.now
    refine ⟨hjudged, ?_⟩
    have hlook : filter.Rejects look.server [look] ↔ (filter.is_blacklisted look.server look.now).2 = true := by
      rw [Rejects, or_iff_right hpasses, hblacklisted, List.forall_mem_singleton]
      simp only [true_implies]
    have hlater : ∀ server looks, (filter.is_blacklisted look.server look.now).1.Rejects server looks ↔
        filter.Rejects server (look :: looks) := by
      intro server looks
      rw [Rejects, Rejects, hsame, hsame', huntil, List.forall_mem_cons]
      by_cases hserver : server = look.server
      · subst hserver
        by_cases hover : (filter._record look.server).blacklisted_until ≤ look.now
        · simp [hover, Int.not_lt.mpr hover]
        · simp [hover, Int.not_le.mp hover]
      · simp [hserver, Ne.symm hserver]
    rw [evaluate, hlevel]
    cases hanswer : filter.is_blacklisted look.server look.now with
    | mk after blacklisted =>
      rw [hanswer] at hlook hsame hsame' hlater
      cases blacklisted with
      | false =>
        have hallowed : ¬(true = false) := Bool.false_ne_true ∘ Eq.symm
        exact ⟨⟨_, rfl, rfl, iff_of_false hallowed fun h => Bool.false_ne_true (hlook.mp h)⟩, hsame, hsame', hlater⟩
      | true => exact ⟨⟨_, rfl, rfl, iff_of_true rfl (hlook.mpr rfl)⟩, hsame, hsame', hlater⟩

/-- The verdicts fail with the first host that cannot be judged, and else are one for each candidate. -/
theorem verdicts_spec (filter : ServerFilter) (looks : List Look) :
    ((∃ verdicts, (filter.verdicts looks).2 = .ok verdicts) ↔
      ∀ look ∈ looks, Judged filter.ip_filter filter.filter_level look.server.1) ∧
    ∀ verdicts, (filter.verdicts looks).2 = .ok verdicts →
      verdicts.map (fun verdict => (verdict.host, verdict.port)) = looks.map Look.server ∧
      ∀ before look after, looks = before ++ look :: after → ∀ verdict, verdicts[before.length]? = some verdict →
        (verdict.allowed = false ↔ filter.Rejects look.server (before ++ [look])) := by
  induction looks generalizing filter with
  | nil =>
    refine ⟨iff_of_true ⟨_, rfl⟩ (by simp), fun verdicts hverdicts => ?_⟩
    cases hverdicts
    exact ⟨rfl, by simp⟩
  | cons look rest ih =>
    rw [List.forall_mem_cons]
    rcases filter.evaluate_spec look with ⟨hunread, raised, hraised⟩ |
      ⟨hjudged, ⟨verdict, hverdict, hserver, hallowed⟩, hfilter, hlevel, hlater⟩
    · have hverdicts : (filter.verdicts (look :: rest)).2 = .error raised := by
        rw [verdicts]
        cases hturn : filter.evaluate look.server look.now with
        | mk after result =>
          rw [hturn] at hraised
          rw [show result = .error raised from hraised]
      rw [hverdicts]
      refine ⟨iff_of_false (by simp) fun h => hunread h.1, fun _ h => ?_⟩
      cases h
    · have hverdicts : (filter.verdicts (look :: rest)).2 =
          ((filter.evaluate look.server look.now).1.verdicts rest).2.map (verdict :: ·) := by
        rw [verdicts]
        cases hturn : filter.evaluate look.server look.now with
        | mk after result =>
          rw [hturn] at hverdict
          rw [show result = .ok verdict from hverdict]
      obtain ⟨hiff, hrest⟩ := ih (filter.evaluate look.server look.now).1
      rw [hfilter, hlevel] at hiff
      rw [hverdicts]
      cases hresult : ((filter.evaluate look.server look.now).1.verdicts rest).2 with
      | error raised =>
        rw [hresult] at hiff
        refine ⟨iff_of_false (by simp [Except.map]) fun h => ?_, fun _ h => by cases h⟩
        obtain ⟨_, hok⟩ := hiff.mpr h.2
        cases hok
      | ok found =>
        obtain ⟨hservers, hpositions⟩ := hrest found hresult
        refine ⟨iff_of_true ⟨_, rfl⟩ ⟨hjudged, hiff.mp ⟨_, hresult⟩⟩, fun verdicts h => ?_⟩
        cases h
        refine ⟨by rw [List.map_cons, List.map_cons, hserver, hservers], fun before at_turn after hsplit other hat => ?_⟩
        cases before with
        | nil =>
          rw [List.nil_append, List.cons.injEq] at hsplit
          obtain ⟨rfl, _⟩ := hsplit
          rw [List.length_nil, List.getElem?_cons_zero, Option.some.injEq] at hat
          rw [← hat]
          exact hallowed
        | cons first before =>
          rw [List.cons_append, List.cons.injEq] at hsplit
          obtain ⟨rfl, hsplit⟩ := hsplit
          rw [List.length_cons, List.getElem?_cons_succ] at hat
          rw [hpositions before at_turn after hsplit other hat, hlater, List.cons_append]

end ServerFilter

/-- Every candidate gets one verdict, the allowed ones come first, both groups keep the order of the candidates, and a
candidate is rejected where the filter rejects its address or it is on the blacklist when its turn comes. -/
def Selects (filter : ServerFilter) (reports : List Report) (candidates : List Look) : Prop :=
  ∃ verdicts : List ServerVerdict,
    ((filter.run reports).select_servers candidates).2 = .ok
      (verdicts.filter (fun verdict => verdict.allowed) ++ verdicts.filter fun verdict => !verdict.allowed) ∧
    verdicts.map (fun verdict => (verdict.host, verdict.port)) = candidates.map Look.server ∧
    ∀ before look after, candidates = before ++ look :: after → ∀ verdict, verdicts[before.length]? = some verdict →
      (verdict.allowed = false ↔ Filtered filter.ip_filter filter.filter_level look.server.1 ∨
        Blacklisted filter.failure_threshold filter.cooldown_seconds reports look.server (before ++ [look]))

/-- The selection raises for all candidates as soon as there is a filter and one of them is no address. -/
theorem select_servers_iff (ip_filter : Option IpFilter) (failure_threshold cooldown_seconds filter_level : Int)
    (reports : List Report) (candidates : List Look) :
    Selects (.init ip_filter failure_threshold cooldown_seconds filter_level) reports candidates ↔
      ∀ look ∈ candidates, Judged ip_filter filter_level look.server.1 := by
  obtain ⟨hfilter, -, -, hlevel, hrecord⟩ :=
    ServerFilter.run_init ip_filter failure_threshold cooldown_seconds filter_level reports
  obtain ⟨hiff, hverdicts⟩ := ServerFilter.verdicts_spec
    ((ServerFilter.init ip_filter failure_threshold cooldown_seconds filter_level).run reports) candidates
  rw [hfilter, hlevel] at hiff
  rw [← hiff, Selects]
  simp only [ServerFilter.select_servers]
  constructor
  · rintro ⟨_, hselected, _⟩
    cases hresult : (((ServerFilter.init ip_filter failure_threshold cooldown_seconds filter_level).run
        reports).verdicts candidates).2 with
    | error raised =>
      rw [hresult] at hselected
      cases hselected
    | ok verdicts => exact ⟨verdicts, rfl⟩
  · rintro ⟨verdicts, hok⟩
    obtain ⟨hservers, hpositions⟩ := hverdicts verdicts hok
    refine ⟨verdicts, by rw [hok]; rfl, hservers, fun before look after hsplit verdict hat => ?_⟩
    rw [hpositions before look after hsplit verdict hat, ServerFilter.Rejects, hfilter, hlevel,
      (hrecord look.server).2]
    rfl

/-- Two servers of one text, of which the second one goes by a name. -/
def sampleServers : PyStr := lit "203.0.113.5:4661,1,first\nserver.example.org:4661,0,second\n"

def sampleCandidates : List Look :=
  (server_met.load_static_servers sampleServers).map fun server => ⟨(server.host, server.port), 1000⟩

/-- With a filter that holds no range at all, the name hides the verdict of the first server too. -/
theorem sampleCandidates_raise :
    sampleCandidates = [⟨(lit "203.0.113.5", 4661), 1000⟩, ⟨(lit "server.example.org", 4661), 1000⟩] ∧
      ((ServerFilter.init (some (.init [])) 3 1800 127).select_servers sampleCandidates).2 =
        .error (.address ⟨lit "server.example.org"⟩) ∧
      ¬Selects (.init (some (.init [])) 3 1800 127) [] sampleCandidates := by
  have hraises : ((ServerFilter.init (some (.init [])) 3 1800 127).select_servers sampleCandidates).2 =
      .error (.address ⟨lit "server.example.org"⟩) := by rfl
  refine ⟨by rfl, hraises, ?_⟩
  rintro ⟨verdicts, hselected, _⟩
  rw [ServerFilter.run, List.foldl_nil, hraises] at hselected
  cases hselected

end amuled.server_filter
