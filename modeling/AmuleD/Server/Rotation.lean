import Mathlib.Data.List.Chain
import Mathlib.Data.List.Rotate
import AmuleD.Server.Session

open pystr sorting

namespace amuled.server_session

theorem nodup_see {seen : List Candidate} {candidate : Candidate} (hseen : (seen.map Candidate.key).Nodup) :
    ((see seen candidate).map Candidate.key).Nodup := by
  unfold see
  split
  · exact hseen
  · rename_i hnew
    rw [List.map_append, List.map_singleton]
    exact hseen.append (List.nodup_singleton _) (by simpa using hnew)

theorem nodup_foldl_see (candidates : List Candidate) {seen : List Candidate}
    (hseen : (seen.map Candidate.key).Nodup) : ((candidates.foldl see seen).map Candidate.key).Nodup := by
  induction candidates generalizing seen with
  | nil => exact hseen
  | cons candidate rest ih => exact ih (nodup_see hseen)

/-- No two candidates have one address and port. -/
theorem nodup_build_candidates (static_records met_records : List Record) (blacklist : Option (List (PyStr × Int))) :
    ((_build_candidates static_records met_records blacklist).map Candidate.key).Nodup := by
  have hseen : (((static_records.filterMap (_record_to_candidate true) ++
      met_records.filterMap (_record_to_candidate false)).foldl see []).map Candidate.key).Nodup :=
    nodup_foldl_see _ List.nodup_nil
  have hperm := fun candidates => (sorted_perm Candidate.rank candidates).map Candidate.key
  cases blacklist with
  | none => exact (hperm _).nodup_iff.mpr hseen
  | some blacklist => exact (hperm _).nodup_iff.mpr (hseen.sublist (List.filter_sublist.map _))

theorem pairwise_build_candidates (static_records met_records : List Record)
    (blacklist : Option (List (PyStr × Int))) :
    (_build_candidates static_records met_records blacklist).Pairwise fun earlier later =>
      earlier.rank ≤ later.rank :=
  pairwise_sorted Candidate.rank _

section rotated

variable {candidates : List Candidate} {start : Nat}

theorem rotated_perm : (rotated candidates start).Perm candidates := by
  have hperm : (candidates.drop start ++ candidates.take start).Perm
      (candidates.take start ++ candidates.drop start) := List.perm_append_comm
  rwa [List.take_append_drop] at hperm

@[simp] theorem length_rotated : (rotated candidates start).length = candidates.length := rotated_perm.length_eq

theorem getElem?_rotated (hstart : start ≤ candidates.length) {idx : Nat} (hidx : idx < candidates.length) :
    (rotated candidates start)[idx]? = candidates[(idx + start) % candidates.length]? := by
  rw [rotated, ← List.rotate_eq_drop_append_take hstart]
  exact List.getElem?_rotate hidx

/-- What a rotation ends with is what the rotation to that position begins with. -/
theorem head?_rotated_last (hstart : start < candidates.length) :
    (rotated candidates ((start + (candidates.length - 1)) % candidates.length)).head? =
      (rotated candidates start).getLast? := by
  have hlast := Nat.mod_lt (start + (candidates.length - 1)) (Nat.zero_lt_of_lt hstart)
  rw [List.head?_eq_getElem?, List.getLast?_eq_getElem?, length_rotated, getElem?_rotated hlast.le (by omega),
    getElem?_rotated hstart.le (by omega), Nat.zero_add, Nat.mod_mod, Nat.add_comm]

end rotated

/-- The loop goes on to the next candidate. -/
def Outcome.Passes (outcome : Outcome) : Prop := ¬outcome.LogsIn ∧ outcome ≠ .cancelled

theorem Outcome.passes_or (outcome : Outcome) :
    outcome.Passes ∨ (∃ hold, outcome = .logged_in hold) ∨ outcome = .cancelled := by
  by_cases hlogs : outcome.LogsIn
  · exact .inr (.inl hlogs)
  · by_cases hcancelled : outcome = .cancelled
    · exact .inr (.inr hcancelled)
    · exact .inl ⟨hlogs, hcancelled⟩

/-- The candidate whose attempt ended the loop. -/
def End.tried : End → List Candidate
  | .exhausted => []
  | .login candidate _ => [candidate]
  | .cancelled candidate => [candidate]

namespace Manager

section try_rotated

variable (num start : Nat) {outcomes : Nat → Outcome} (manager : Manager) {idx : Nat}
  (candidate : Candidate) (rest : List Candidate)

/-- An attempt that does not end the pass moves the position to its candidate; it leaves a client open only where
that client did not log in and did not fail either. -/
theorem try_rotated_of_passes (hpasses : (outcomes idx).Passes) :
    ∃ next : Manager, next._pos = (start + idx) % num ∧ next._attempts = manager._attempts + 1 ∧
      next.opened = (if outcomes idx = .not_logged_in then [manager._attempts + 1] else []) ++ manager.opened ∧
      manager.try_rotated num start outcomes idx (candidate :: rest) =
        (candidate :: (next.try_rotated num start outcomes (idx + 1) rest).1,
          (next.try_rotated num start outcomes (idx + 1) rest).2) := by
  cases hidx : outcomes idx with
  | no_client =>
    refine ⟨{ manager with _pos := (start + idx) % num, _attempts := manager._attempts + 1 }, rfl, rfl, rfl, ?_⟩
    simp only [try_rotated, hidx]
  | failed error =>
    refine ⟨{ manager with _pos := (start + idx) % num, _attempts := manager._attempts + 1, _last_error := some error },
      rfl, rfl, rfl, ?_⟩
    simp only [try_rotated, hidx]
  | not_logged_in =>
    refine ⟨opening { manager with _pos := (start + idx) % num, _attempts := manager._attempts + 1 }, rfl, rfl, rfl, ?_⟩
    simp only [try_rotated, hidx]
  | logged_in hold => exact absurd ⟨hold, hidx⟩ hpasses.1
  | cancelled => exact absurd hidx hpasses.2

/-- A login ends the pass; its client is closed unless its session is cancelled. -/
theorem try_rotated_of_logged_in {hold : Hold}
    (hidx : outcomes idx = .logged_in hold) :
    ∃ after : Manager, after._pos = (start + idx) % num ∧ after._attempts = manager._attempts + 1 ∧
      after.opened = (if hold = .cancelled then [manager._attempts + 1] else []) ++ manager.opened ∧
      manager.try_rotated num start outcomes idx (candidate :: rest) = ([], .login candidate hold, after) := by
  cases hold with
  | ended =>
    refine ⟨_, ?_, ?_, ?_, by rw [try_rotated, hidx]⟩
    · rfl
    · rfl
    · exact List.erase_cons_head (manager._attempts + 1) manager.opened
  | cancelled =>
    refine ⟨_, ?_, ?_, ?_, by rw [try_rotated, hidx]⟩ <;> rfl

theorem try_rotated_of_cancelled (hidx : outcomes idx = .cancelled) :
    ∃ after : Manager, after._pos = (start + idx) % num ∧ after._attempts = manager._attempts + 1 ∧
      after.opened = (manager._attempts + 1) :: manager.opened ∧
      manager.try_rotated num start outcomes idx (candidate :: rest) = ([], .cancelled candidate, after) := by
  refine ⟨_, ?_, ?_, ?_, by rw [try_rotated, hidx]⟩ <;> rfl

/-- How the loop over some candidates ends, when some of them have failed. -/
def Ends (outcomes : Nat → Outcome) (idx : Nat) (candidates failed : List Candidate) : End → Prop
  | .exhausted => failed = candidates
  | .login candidate hold =>
    outcomes (idx + failed.length) = .logged_in hold ∧ failed ++ [candidate] <+: candidates
  | .cancelled candidate => outcomes (idx + failed.length) = .cancelled ∧ failed ++ [candidate] <+: candidates

theorem Ends.cons {candidates failed : List Candidate} {ending : End}
    (hends : Ends outcomes (idx + 1) candidates failed ending) :
    Ends outcomes idx (candidate :: candidates) (candidate :: failed) ending := by
  have hidx : idx + (candidate :: failed).length = idx + 1 + failed.length := by
    rw [List.length_cons]
    omega
  cases ending with
  | exhausted => exact congrArg (List.cons candidate) hends
  | login last hold =>
    refine ⟨by rw [hidx]; exact hends.1, ?_⟩
    rw [List.cons_append, List.prefix_cons_inj]
    exact hends.2
  | cancelled last =>
    refine ⟨by rw [hidx]; exact hends.1, ?_⟩
    rw [List.cons_append, List.prefix_cons_inj]
    exact hends.2

/-- The candidates that failed are those whose outcomes did not end the pass, up to the first that did. -/
theorem try_rotated_ends (outcomes : Nat → Outcome) (candidates : List Candidate) (manager : Manager) (idx : Nat) :
    (∀ count < (manager.try_rotated num start outcomes idx candidates).1.length, (outcomes (idx + count)).Passes) ∧
      Ends outcomes idx candidates (manager.try_rotated num start outcomes idx candidates).1
        (manager.try_rotated num start outcomes idx candidates).2.1 := by
  induction candidates generalizing manager idx with
  | nil => exact ⟨fun count hcount => absurd hcount (Nat.not_lt_zero count), rfl⟩
  | cons candidate rest ih =>
    rcases (outcomes idx).passes_or with hpasses | ⟨hold, hidx⟩ | hidx
    · obtain ⟨next, _, _, _, hnext⟩ := try_rotated_of_passes num start manager candidate rest hpasses
      rw [hnext]
      refine ⟨fun count hcount => ?_, (ih next (idx + 1)).2.cons candidate⟩
      cases count with
      | zero => exact hpasses
      | succ count =>
        have hnext := (ih next (idx + 1)).1 count (Nat.lt_of_succ_lt_succ hcount)
        rwa [Nat.add_assoc, Nat.add_comm 1 count] at hnext
    · obtain ⟨after, _, _, _, hafter⟩ := try_rotated_of_logged_in num start manager candidate rest hidx
      rw [hafter]
      exact ⟨fun count hcount => absurd hcount (Nat.not_lt_zero count), hidx, List.prefix_append [candidate] rest⟩
    · obtain ⟨after, _, _, _, hafter⟩ := try_rotated_of_cancelled num start manager candidate rest hidx
      rw [hafter]
      exact ⟨fun count hcount => absurd hcount (Nat.not_lt_zero count), hidx, List.prefix_append [candidate] rest⟩

/-- After the loop the position is that of its last attempt. -/
theorem try_rotated_last (outcomes : Nat → Outcome) {candidates : List Candidate} (hcandidates : candidates ≠ [])
    (manager : Manager) (idx : Nat) :
    ∃ last, ((manager.try_rotated num start outcomes idx candidates).1 ++
        (manager.try_rotated num start outcomes idx candidates).2.1.tried).length = last + 1 ∧
      (manager.try_rotated num start outcomes idx candidates).2.2._pos = (start + idx + last) % num ∧
      (manager.try_rotated num start outcomes idx candidates).2.2._attempts = manager._attempts + (last + 1) := by
  induction candidates generalizing manager idx with
  | nil => exact absurd rfl hcandidates
  | cons candidate rest ih =>
    rcases (outcomes idx).passes_or with hpasses | ⟨hold, hidx⟩ | hidx
    · obtain ⟨next, hpos, hattempts, _, hnext⟩ := try_rotated_of_passes num start manager candidate rest hpasses
      rw [hnext]
      by_cases hrest : rest = []
      · subst hrest
        exact ⟨0, rfl, hpos, hattempts⟩
      · obtain ⟨last, hlength, hlast, hcount⟩ := ih hrest next (idx + 1)
        refine ⟨last + 1, congrArg Nat.succ hlength, ?_, ?_⟩
        · rw [hlast, Nat.add_assoc start, Nat.add_assoc start, Nat.add_assoc idx, Nat.add_comm 1]
        · rw [hcount, hattempts]
          omega
    · obtain ⟨after, hpos, hattempts, _, hafter⟩ := try_rotated_of_logged_in num start manager candidate rest hidx
      rw [hafter]
      exact ⟨0, rfl, hpos, hattempts⟩
    · obtain ⟨after, hpos, hattempts, _, hafter⟩ := try_rotated_of_cancelled num start manager candidate rest hidx
      rw [hafter]
      exact ⟨0, rfl, hpos, hattempts⟩

/-- No attempt up to the first login leaves its client open without having failed. -/
def Clean (outcomes : Nat → Outcome) (idx count : Nat) : Prop :=
  ∀ later < count, (∀ earlier < later, (outcomes (idx + earlier)).Passes) →
    outcomes (idx + later) ≠ .not_logged_in ∧ outcomes (idx + later) ≠ .cancelled

theorem clean_succ {count : Nat} (hpasses : (outcomes idx).Passes) :
    Clean outcomes idx (count + 1) ↔ outcomes idx ≠ .not_logged_in ∧ Clean outcomes (idx + 1) count := by
  have hshift : ∀ later, idx + 1 + later = idx + (later + 1) := fun later => by omega
  constructor
  · refine fun hclean => ⟨(hclean 0 (Nat.succ_pos count) fun _ hlt => absurd hlt (Nat.not_lt_zero _)).1, ?_⟩
    intro later hlater hearlier
    rw [hshift]
    refine hclean (later + 1) (Nat.succ_lt_succ hlater) fun earlier hlt => ?_
    cases earlier with
    | zero => exact hpasses
    | succ earlier =>
      rw [← hshift]
      exact hearlier earlier (Nat.lt_of_succ_lt_succ hlt)
  · rintro ⟨hfirst, hclean⟩ later hlater hearlier
    cases later with
    | zero => exact ⟨hfirst, hpasses.2⟩
    | succ later =>
      rw [← hshift]
      refine hclean later (Nat.lt_of_succ_lt_succ hlater) fun earlier hlt => ?_
      rw [hshift]
      exact hearlier (earlier + 1) (Nat.succ_lt_succ hlt)

theorem clean_of_not_passes {count : Nat} (hpasses : ¬(outcomes idx).Passes) :
    Clean outcomes idx (count + 1) ↔ outcomes idx ≠ .not_logged_in ∧ outcomes idx ≠ .cancelled := by
  constructor
  · exact fun hclean => hclean 0 (Nat.succ_pos count) fun _ hlt => absurd hlt (Nat.not_lt_zero _)
  · intro hfirst later _ hearlier
    cases later with
    | zero => exact hfirst
    | succ later => exact absurd (hearlier 0 (Nat.succ_pos later)) hpasses

/-- A client that is open stays so through later attempts. -/
theorem mem_opened_try_rotated {client : Nat} (candidates : List Candidate) {manager : Manager} (idx : Nat)
    (hclient : client ∈ manager.opened) :
    client ∈ (manager.try_rotated num start outcomes idx candidates).2.2.opened := by
  induction candidates generalizing manager idx with
  | nil => exact hclient
  | cons candidate rest ih =>
    rcases (outcomes idx).passes_or with hpasses | ⟨hold, hidx⟩ | hidx
    · obtain ⟨next, _, _, hopened, hnext⟩ := try_rotated_of_passes num start manager candidate rest hpasses
      rw [hnext]
      exact ih (idx + 1) (hopened ▸ List.mem_append_right _ hclient)
    · obtain ⟨after, _, _, hopened, hafter⟩ := try_rotated_of_logged_in num start manager candidate rest hidx
      rw [hafter]
      exact hopened ▸ List.mem_append_right _ hclient
    · obtain ⟨after, _, _, hopened, hafter⟩ := try_rotated_of_cancelled num start manager candidate rest hidx
      rw [hafter]
      exact hopened ▸ List.mem_cons_of_mem _ hclient

/-- Only the client of a session that was cancelled is open after a loop, exactly where its attempts were clean. -/
theorem closes_try_rotated_iff (outcomes : Nat → Outcome) (candidates : List Candidate) (manager : Manager)
    (hopened : manager.opened = []) (idx : Nat) :
    (∀ client ∈ (manager.try_rotated num start outcomes idx candidates).2.2.opened,
        ∃ candidate, (manager.try_rotated num start outcomes idx candidates).2.1 = .login candidate .cancelled ∧
          client = (manager.try_rotated num start outcomes idx candidates).2.2._attempts) ↔
      Clean outcomes idx candidates.length := by
  induction candidates generalizing manager idx with
  | nil =>
    refine iff_of_true (fun client hclient => ?_) fun later hlater => absurd hlater (Nat.not_lt_zero later)
    rw [try_rotated, hopened] at hclient
    exact absurd hclient List.not_mem_nil
  | cons candidate rest ih =>
    rcases (outcomes idx).passes_or with hpasses | ⟨hold, hidx⟩ | hidx
    · obtain ⟨next, _, hattempts, hnextOpened, hnext⟩ := try_rotated_of_passes num start manager candidate rest hpasses
      rw [hnext, List.length_cons, clean_succ hpasses]
      by_cases hidx : outcomes idx = .not_logged_in
      · refine iff_of_false (fun hcloses => ?_) fun hclean => hclean.1 hidx
        have hmem : manager._attempts + 1 ∈ next.opened := by
          rw [hnextOpened, if_pos hidx]
          exact List.mem_append_left _ (List.mem_singleton_self _)
        obtain ⟨last, hending, hclient⟩ := hcloses _ (mem_opened_try_rotated num start rest (idx + 1) hmem)
        by_cases hrest : rest = []
        · subst hrest
          cases hending
        · obtain ⟨_, _, _, hcount⟩ := try_rotated_last num start outcomes hrest next (idx + 1)
          dsimp only at hclient
          omega
      · rw [if_neg hidx, hopened] at hnextOpened
        rw [and_iff_right hidx]
        exact ih next hnextOpened (idx + 1)
    · obtain ⟨after, _, hattempts, hafterOpened, hafter⟩ :=
        try_rotated_of_logged_in num start manager candidate rest hidx
      rw [hafter, List.length_cons, clean_of_not_passes fun hpasses => hpasses.1 ⟨hold, hidx⟩, hidx]
      refine iff_of_true (fun client hclient => ?_) ⟨Outcome.noConfusion, Outcome.noConfusion⟩
      rw [hafterOpened, hopened, List.append_nil] at hclient
      split at hclient
      · rename_i hhold
        rw [hhold]
        exact ⟨candidate, rfl, (List.mem_singleton.mp hclient).trans hattempts.symm⟩
      · exact absurd hclient List.not_mem_nil
    · obtain ⟨after, _, _, hafterOpened, hafter⟩ := try_rotated_of_cancelled num start manager candidate rest hidx
      rw [hafter, List.length_cons, clean_of_not_passes fun hpasses => hpasses.2 hidx]
      refine iff_of_false (fun hcloses => ?_) fun hclean => hclean.2 hidx
      obtain ⟨_, hending, _⟩ := hcloses _ (hafterOpened ▸ List.mem_cons_self)
      cases hending

end try_rotated

end Manager

/-- A pass tries every candidate at most once, in the order of priority from the start position on, and stops at the
first login. -/
structure Pass.Ordered (pass : Pass) : Prop where
  by_priority : pass.candidates.Pairwise fun earlier later => earlier.rank ≤ later.rank
  once : (pass.tried.map Candidate.key).Nodup
  in_order : pass.tried <+: rotated pass.candidates pass.start
  unsuccessful : ∀ idx < pass.failed.length, ¬(pass.outcomes idx).LogsIn
  stops : match pass.ending with
    | .exhausted => pass.tried = rotated pass.candidates pass.start
    | .login _ hold => pass.outcomes pass.failed.length = .logged_in hold
    | .cancelled _ => pass.outcomes pass.failed.length = .cancelled

/-- The position after a pass is past every candidate that failed. -/
def Pass.Advances (pass : Pass) : Prop :=
  pass.after._pos % pass.candidates.length = (pass.start + pass.failed.length) % pass.candidates.length

/-- No client is open after a pass, but for that of a session that was cancelled. -/
def Pass.Closes (pass : Pass) : Prop :=
  ∀ client ∈ pass.after.opened,
    ∃ candidate, pass.ending = .login candidate .cancelled ∧ client = pass.after._attempts

/-- A pass begins where the last one left off, but not with the candidate tried last where all of them failed. -/
structure Pass.Follows (pass next : Pass) : Prop where
  continues : next.start = pass.after._pos % next.candidates.length
  moves_on : pass.ending = .exhausted → next.candidates = pass.candidates → next.tried.head? ≠ pass.tried.getLast?

theorem Pass.tried_eq (pass : Pass) : pass.tried = pass.failed ++ pass.ending.tried := by
  unfold tried End.tried
  cases pass.ending with
  | exhausted => exact (List.append_nil _).symm
  | login candidate hold => rfl
  | cancelled candidate => rfl

section pass

variable (manager : Manager) {turn : Turn}

theorem pass_ends (turn : Turn) :
    (∀ idx < (manager.pass turn).failed.length, (turn.outcomes idx).Passes) ∧
      Manager.Ends turn.outcomes 0 (rotated turn.candidates (manager.pass turn).start) (manager.pass turn).failed
        (manager.pass turn).ending := by
  obtain ⟨hpasses, hends⟩ := Manager.try_rotated_ends turn.candidates.length (manager._pos % turn.candidates.length)
    turn.outcomes (rotated turn.candidates (manager._pos % turn.candidates.length))
    { manager with _autoconnect := true } 0
  refine ⟨fun idx hidx => ?_, hends⟩
  have hpass := hpasses idx hidx
  rwa [Nat.zero_add] at hpass

theorem prefix_tried (turn : Turn) :
    (manager.pass turn).tried <+: rotated turn.candidates (manager.pass turn).start := by
  obtain ⟨-, hends⟩ := pass_ends manager turn
  rw [Pass.tried_eq]
  generalize (manager.pass turn).ending = ending at hends ⊢
  cases ending with
  | exhausted =>
    rw [End.tried, List.append_nil]
    exact hends ▸ List.prefix_refl _
  | login candidate hold => exact hends.2
  | cancelled candidate => exact hends.2

theorem pass_ordered (turn : Turn) : (manager.pass turn).Ordered where
  by_priority := pairwise_build_candidates _ _ _
  once := by
    have hnodup := nodup_build_candidates turn.static_records turn.met_records turn.blacklist
    exact ((rotated_perm.map Candidate.key).nodup_iff.mpr hnodup).sublist
      ((prefix_tried manager turn).sublist.map Candidate.key)
  in_order := prefix_tried manager turn
  unsuccessful := fun idx hidx => ((pass_ends manager turn).1 idx hidx).1
  stops := by
    obtain ⟨-, hends⟩ := pass_ends manager turn
    cases hending : (manager.pass turn).ending with
    | exhausted =>
      rw [hending] at hends
      rw [Pass.tried_eq, hending, End.tried, List.append_nil]
      exact hends
    | login candidate hold =>
      rw [hending] at hends
      have hstop := hends.1
      rwa [Nat.zero_add] at hstop
    | cancelled candidate =>
      rw [hending] at hends
      have hstop := hends.1
      rwa [Nat.zero_add] at hstop

/-- The first outcome of a turn that ends its pass. -/
def Turn.Stops (turn : Turn) (outcome : Outcome) : Prop :=
  ∃ idx < turn.candidates.length, (∀ earlier < idx, (turn.outcomes earlier).Passes) ∧ turn.outcomes idx = outcome

def Turn.Logs (turn : Turn) : Prop := ∃ hold, turn.Stops (.logged_in hold)

theorem Turn.Stops.unique {first second : Outcome} (hfirst : turn.Stops first) (hsecond : turn.Stops second)
    (hfirstPasses : ¬first.Passes) (hsecondPasses : ¬second.Passes) : first = second := by
  obtain ⟨idx, _, hearlier, rfl⟩ := hfirst
  obtain ⟨idx', _, hearlier', rfl⟩ := hsecond
  rcases lt_trichotomy idx idx' with hlt | rfl | hlt
  · exact absurd (hearlier' idx hlt) hfirstPasses
  · rfl
  · exact absurd (hearlier idx' hlt) hsecondPasses

theorem not_passes_logged_in (hold : Hold) : ¬(Outcome.logged_in hold).Passes := fun hpasses => hpasses.1 ⟨hold, rfl⟩

theorem not_passes_cancelled : ¬Outcome.cancelled.Passes := fun hpasses => hpasses.2 rfl

theorem stops_of_prefix {failed : List Candidate} {candidate : Candidate} {start : Nat} {outcome : Outcome}
    (hearlier : ∀ idx < failed.length, (turn.outcomes idx).Passes) (hidx : turn.outcomes failed.length = outcome)
    (hlead : failed ++ [candidate] <+: rotated turn.candidates start) : turn.Stops outcome := by
  have hlength := hlead.length_le
  rw [length_rotated, List.length_append, List.length_singleton] at hlength
  exact ⟨failed.length, hlength, hearlier, hidx⟩

/-- How the pass of a turn ends is what the first outcome that ends it says. -/
theorem pass_ending (turn : Turn) :
    match (manager.pass turn).ending with
    | .exhausted => (manager.pass turn).tried.length = turn.candidates.length ∧
        (manager.pass turn).failed.length = turn.candidates.length ∧ ∀ outcome, turn.Stops outcome → outcome.Passes
    | .login _ hold => turn.Stops (.logged_in hold)
    | .cancelled _ => turn.Stops .cancelled := by
  obtain ⟨hpasses, hends⟩ := pass_ends manager turn
  cases hending : (manager.pass turn).ending with
  | exhausted =>
    rw [hending] at hends
    have hlength := (congrArg List.length hends).trans length_rotated
    refine ⟨?_, hlength, ?_⟩
    · rw [Pass.tried_eq, hending, End.tried, List.append_nil]
      exact hlength
    · rintro outcome ⟨idx, hidx, -, rfl⟩
      exact hpasses idx (hidx.trans_eq hlength.symm)
  | login candidate hold =>
    rw [hending] at hends
    have hstop := hends.1
    rw [Nat.zero_add] at hstop
    exact stops_of_prefix hpasses hstop hends.2
  | cancelled candidate =>
    rw [hending] at hends
    have hstop := hends.1
    rw [Nat.zero_add] at hstop
    exact stops_of_prefix hpasses hstop hends.2

/-- Every candidate of a pass failed exactly where neither a login nor a cancellation ended it. -/
theorem ending_eq_exhausted_iff (turn : Turn) :
    (manager.pass turn).ending = .exhausted ↔ ¬turn.Logs ∧ ¬turn.Stops .cancelled := by
  have hstops := pass_ending manager turn
  cases hending : (manager.pass turn).ending with
  | exhausted =>
    rw [hending] at hstops
    refine iff_of_true rfl ⟨?_, fun hstop => not_passes_cancelled (hstops.2.2 _ hstop)⟩
    exact fun ⟨hold, hstop⟩ => not_passes_logged_in hold (hstops.2.2 _ hstop)
  | login candidate hold =>
    rw [hending] at hstops
    exact iff_of_false End.noConfusion fun hnone => hnone.1 ⟨hold, hstops⟩
  | cancelled candidate =>
    rw [hending] at hstops
    exact iff_of_false End.noConfusion fun hnone => hnone.2 hstops

theorem pass_last (hcandidates : turn.candidates ≠ []) :
    ∃ last, (manager.pass turn).tried.length = last + 1 ∧
      (manager.pass turn).after._pos = ((manager.pass turn).start + last) % turn.candidates.length := by
  have hrotated : rotated turn.candidates (manager._pos % turn.candidates.length) ≠ [] := by
    rw [← List.length_pos_iff, length_rotated, List.length_pos_iff]
    exact hcandidates
  obtain ⟨last, hlength, hpos, -⟩ := Manager.try_rotated_last turn.candidates.length
    (manager._pos % turn.candidates.length) turn.outcomes hrotated { manager with _autoconnect := true } 0
  refine ⟨last, ?_, hpos⟩
  rw [Pass.tried_eq]
  exact hlength

/-- The position is past every candidate that failed unless all of several did. -/
theorem pass_advances_iff (hcandidates : turn.candidates ≠ []) :
    (manager.pass turn).Advances ↔ (manager.pass turn).ending ≠ .exhausted ∨ turn.candidates.length = 1 := by
  have hnum := List.length_pos_iff.mpr hcandidates
  obtain ⟨last, hlength, hpos⟩ := pass_last manager hcandidates
  have hstops := pass_ending manager turn
  have htried := (manager.pass turn).tried_eq
  show (manager.pass turn).after._pos % turn.candidates.length =
    ((manager.pass turn).start + (manager.pass turn).failed.length) % turn.candidates.length ↔ _
  rw [hpos, Nat.mod_mod]
  cases hending : (manager.pass turn).ending with
  | exhausted =>
    rw [hending] at hstops
    rw [hstops.2.1, ← hstops.1, hlength]
    rw [Nat.add_mod_right]
    constructor
    · intro hadvances
      have hzero : last ≡ 0 [MOD last + 1] := Nat.ModEq.add_left_cancel' _ hadvances
      rw [Nat.ModEq, Nat.mod_eq_of_lt (Nat.lt_succ_self last), Nat.zero_mod] at hzero
      exact .inr (congrArg Nat.succ hzero)
    · rintro (hne | hone)
      · exact absurd rfl hne
      · rw [hone, Nat.mod_one, Nat.mod_one]
  | login candidate hold =>
    rw [hending] at htried
    have hfailed : (manager.pass turn).failed.length = last := by
      rw [htried, List.length_append] at hlength
      exact Nat.succ.inj hlength
    rw [hfailed]
    exact iff_of_true rfl (.inl End.noConfusion)
  | cancelled candidate =>
    rw [hending] at htried
    have hfailed : (manager.pass turn).failed.length = last := by
      rw [htried, List.length_append] at hlength
      exact Nat.succ.inj hlength
    rw [hfailed]
    exact iff_of_true rfl (.inl End.noConfusion)

theorem pass_closes_iff (hopened : manager.opened = []) :
    (manager.pass turn).Closes ↔ Manager.Clean turn.outcomes 0 turn.candidates.length := by
  have hcloses := Manager.closes_try_rotated_iff turn.candidates.length (manager._pos % turn.candidates.length)
    turn.outcomes (rotated turn.candidates (manager._pos % turn.candidates.length))
    { manager with _autoconnect := true } hopened 0
  rwa [length_rotated] at hcloses

/-- What a turn has to meet: no attempt leaves its client open, and one logs in where there are several candidates. -/
def Turn.Proper (turn : Turn) : Prop :=
  Manager.Clean turn.outcomes 0 turn.candidates.length ∧ (turn.Logs ∨ turn.candidates.length = 1)

def Pass.Holds (pass : Pass) : Prop := pass.Ordered ∧ pass.Advances ∧ pass.Closes

theorem not_stops_cancelled (hclean : Manager.Clean turn.outcomes 0 turn.candidates.length) :
    ¬turn.Stops .cancelled := by
  rintro ⟨idx, hidx, hearlier, hcancelled⟩
  refine (hclean idx hidx fun earlier hlt => ?_).2 ?_
  · rw [Nat.zero_add]
    exact hearlier earlier hlt
  · rwa [Nat.zero_add]

theorem pass_holds_iff (hopened : manager.opened = []) (hcandidates : turn.candidates ≠ []) :
    (manager.pass turn).Holds ↔ turn.Proper := by
  unfold Pass.Holds Turn.Proper
  rw [and_iff_right (pass_ordered manager turn), pass_closes_iff manager hopened, and_comm]
  refine and_congr_right fun hclean => ?_
  rw [pass_advances_iff manager hcandidates, Ne, ending_eq_exhausted_iff,
    and_iff_left (not_stops_cancelled hclean), not_not]

/-- What a run has to meet, when all of some candidates failed in its last pass. -/
def Proper : Option (List Candidate) → List Turn → Prop
  | _, [] => True
  | unlucky, turn :: rest =>
    if turn.autoconnect = false ∨ turn.candidates = [] then Proper unlucky rest
    else
      turn.Proper ∧ unlucky ≠ some turn.candidates ∧ (turn.Stops (.logged_in .ended) → Proper none rest) ∧
        (¬turn.Logs → Proper (some turn.candidates) rest)

/-- A pass over the same candidates begins with the one tried last where all of them failed. -/
theorem head?_tried_of_exhausted {next : Turn} {after : Manager} (hcandidates : turn.candidates ≠ [])
    (hpos : after._pos = (manager.pass turn).after._pos) (hending : (manager.pass turn).ending = .exhausted)
    (hsame : next.candidates = turn.candidates) :
    (after.pass next).tried.head? = (manager.pass turn).tried.getLast? := by
  have hnum := List.length_pos_iff.mpr hcandidates
  have hordered := (pass_ordered manager turn).stops
  rw [hending] at hordered
  obtain ⟨last, hlength, hlast⟩ := pass_last manager hcandidates
  have hstops := pass_ending manager turn
  rw [hending] at hstops
  have hlastNum : last = turn.candidates.length - 1 := by
    have hcount := hlength.symm.trans hstops.1
    omega
  have hstart : (after.pass next).start =
      ((manager.pass turn).start + (turn.candidates.length - 1)) % turn.candidates.length := by
    show after._pos % next.candidates.length = _
    rw [hsame, hpos, hlast, Nat.mod_mod, hlastNum]
  have hlead := prefix_tried after next
  obtain ⟨later, hlater, -⟩ := pass_last after (hsame ▸ hcandidates : next.candidates ≠ [])
  have hhead : (after.pass next).tried.head? = (rotated next.candidates (after.pass next).start).head? := by
    obtain ⟨suffix, hsuffix⟩ := hlead
    rw [← hsuffix, List.head?_append_of_ne_nil _ (List.ne_nil_of_length_eq_add_one hlater)]
  rw [hhead, hsame, hstart, hordered]
  exact head?_rotated_last (Nat.mod_lt _ hnum)

/-- The candidates of a pass where all of them failed. -/
def Pass.unlucky (pass : Pass) : Option (List Candidate) :=
  match pass.ending with
  | .exhausted => some pass.candidates
  | _ => none

theorem follows_iff {next : Turn} {after : Manager} (hcandidates : turn.candidates ≠ [])
    (hpos : after._pos = (manager.pass turn).after._pos) :
    (manager.pass turn).Follows (after.pass next) ↔ (manager.pass turn).unlucky ≠ some next.candidates := by
  unfold Pass.unlucky
  cases hending : (manager.pass turn).ending with
  | exhausted =>
    constructor
    · intro hfollows hsame
      have hsame := (Option.some.inj hsame).symm
      exact hfollows.moves_on hending hsame (head?_tried_of_exhausted manager hcandidates hpos hending hsame)
    · refine fun hother => ⟨congrArg (· % next.candidates.length) hpos, fun _ hsame => ?_⟩
      exact absurd (congrArg some hsame.symm) hother
  | login candidate hold =>
    refine iff_of_true ⟨congrArg (· % next.candidates.length) hpos, fun hexhausted => ?_⟩ (Option.some_ne_none _).symm
    rw [hending] at hexhausted
    cases hexhausted
  | cancelled candidate =>
    refine iff_of_true ⟨congrArg (· % next.candidates.length) hpos, fun hexhausted => ?_⟩ (Option.some_ne_none _).symm
    rw [hending] at hexhausted
    cases hexhausted

theorem opened_eq_nil {pass : Pass} (hcloses : pass.Closes)
    (hheld : ∀ candidate, pass.ending ≠ .login candidate .cancelled) : pass.after.opened = [] := by
  refine List.eq_nil_iff_forall_not_mem.mpr fun client hclient => ?_
  obtain ⟨candidate, hending, -⟩ := hcloses client hclient
  exact hheld candidate hending

/-- The passes behind one that made the manager go on. -/
def Manager.run_after (pass : Pass) (rest : List Turn) : List Pass :=
  match pass.ending with
  | .exhausted => pass.after.run rest
  | .login _ .ended => pass.after.run rest
  | .login _ .cancelled => []
  | .cancelled _ => []

theorem run_cons (rest : List Turn) (hauto : turn.autoconnect ≠ false) (hcandidates : turn.candidates ≠ []) :
    manager.run (turn :: rest) = manager.pass turn :: Manager.run_after (manager.pass turn) rest := by
  rw [Manager.run, if_neg hauto, if_neg hcandidates, Manager.run_after]
  dsimp only
  cases (manager.pass turn).ending with
  | exhausted => rfl
  | login candidate hold => cases hold <;> rfl
  | cancelled candidate => rfl

end pass

theorem isChain_toList_append {prev : Option Pass} {pass : Pass} {passes : List Pass} :
    (prev.toList ++ pass :: passes).IsChain Pass.Follows ↔
      (∀ last ∈ prev, last.Follows pass) ∧ (pass :: passes).IsChain Pass.Follows := by
  cases prev with
  | none => simp
  | some last => simp

/-- A run behind a last pass keeps the order of its candidates exactly where its turns are proper. -/
theorem run_holds_iff (turns : List Turn) (manager : Manager) (hopened : manager.opened = []) (prev : Option Pass)
    (hprev : ∀ last ∈ prev, ∃ (before : Manager) (turn : Turn),
      last = before.pass turn ∧ turn.candidates ≠ [] ∧ manager._pos = last.after._pos) :
    (∀ pass ∈ manager.run turns, pass.Holds) ∧ (prev.toList ++ manager.run turns).IsChain Pass.Follows ↔
      Proper (prev.bind Pass.unlucky) turns := by
  induction turns generalizing manager prev with
  | nil =>
    rw [Manager.run, Proper, List.append_nil]
    refine iff_of_true ⟨fun pass hpass => absurd hpass List.not_mem_nil, ?_⟩ trivial
    cases prev with
    | none => exact List.isChain_nil
    | some last => exact List.isChain_singleton last
  | cons turn rest ih =>
    rw [Proper]
    by_cases hauto : turn.autoconnect = false
    · rw [Manager.run, if_pos hauto, if_pos (.inl hauto)]
      exact ih { manager with _autoconnect := false } hopened prev hprev
    by_cases hcandidates : turn.candidates = []
    · rw [Manager.run, if_neg hauto, if_pos hcandidates, if_pos (.inr hcandidates)]
      exact ih { manager with _autoconnect := true, _last_error := _ } hopened prev hprev
    rw [if_neg (not_or.mpr ⟨hauto, hcandidates⟩), run_cons manager rest hauto hcandidates, List.forall_mem_cons,
      isChain_toList_append, and_and_and_comm]
    have hfollows : (∀ last ∈ prev, last.Follows (manager.pass turn)) ↔
        prev.bind Pass.unlucky ≠ some turn.candidates := by
      cases prev with
      | none => exact iff_of_true (fun last hlast => by cases hlast) (Option.some_ne_none _).symm
      | some last =>
        obtain ⟨before, turn', rfl, hturn', hpos⟩ := hprev last rfl
        rw [Option.bind_some, ← follows_iff before hturn' hpos]
        exact ⟨fun hall => hall _ rfl, fun hlast last hmem => Option.some.inj hmem ▸ hlast⟩
    rw [pass_holds_iff manager hopened hcandidates, hfollows]
    refine Iff.trans (and_congr_right fun ⟨hproper, _⟩ => ?_) and_assoc
    obtain ⟨-, -, hcloses⟩ := (pass_holds_iff manager hopened hcandidates).mpr hproper
    have hstops := pass_ending manager turn
    have hrest : ∀ unlucky, (manager.pass turn).unlucky = unlucky →
        Manager.run_after (manager.pass turn) rest = (manager.pass turn).after.run rest →
        (∀ candidate, (manager.pass turn).ending ≠ .login candidate .cancelled) →
        ((∀ pass ∈ Manager.run_after (manager.pass turn) rest, pass.Holds) ∧
          (manager.pass turn :: Manager.run_after (manager.pass turn) rest).IsChain Pass.Follows ↔
            Proper unlucky rest) := by
      rintro unlucky rfl hafter hheld
      rw [hafter]
      refine ih _ (opened_eq_nil hcloses hheld) (some (manager.pass turn)) fun last hlast => ?_
      obtain rfl := Option.some.inj hlast
      exact ⟨manager, turn, rfl, hcandidates, rfl⟩
    cases hending : (manager.pass turn).ending with
    | exhausted =>
      obtain ⟨hlogs, -⟩ := (ending_eq_exhausted_iff manager turn).mp hending
      rw [hrest (some turn.candidates) (by rw [Pass.unlucky, hending]; rfl) (by rw [Manager.run_after, hending])
        fun candidate => hending ▸ End.noConfusion]
      rw [and_iff_right fun hstop => absurd ⟨_, hstop⟩ hlogs]
      exact (imp_iff_right hlogs).symm
    | login candidate hold =>
      rw [hending] at hstops
      have hlogs : turn.Logs := ⟨hold, hstops⟩
      rw [and_iff_left fun hnot => absurd hlogs hnot]
      cases hold with
      | ended =>
        rw [hrest none (by rw [Pass.unlucky, hending]) (by rw [Manager.run_after, hending])
          fun candidate hheld => by rw [hending] at hheld; cases hheld]
        exact (imp_iff_right (a := turn.Stops (.logged_in .ended)) hstops).symm
      | cancelled =>
        rw [Manager.run_after, hending]
        refine iff_of_true ⟨fun pass hpass => absurd hpass List.not_mem_nil, List.isChain_singleton _⟩ fun hstop => ?_
        cases hstop.unique hstops (not_passes_logged_in _) (not_passes_logged_in _)
    | cancelled candidate =>
      rw [hending] at hstops
      exact absurd hstops (not_stops_cancelled hproper.1)

/-- In every run the passes go around the candidates in their order, past those that failed, and leave no client open,
exactly where none of them leaves one without a login, one candidate of several logs in, and a single one that failed
is not tried alone again. -/
theorem run_rotates_iff (turns : List Turn) :
    (∀ pass ∈ Manager.init.run turns, pass.Holds) ∧ (Manager.init.run turns).IsChain Pass.Follows ↔
      Proper none turns :=
  run_holds_iff turns Manager.init rfl none fun _ hlast => nomatch hlast

/-- Two servers of the list that refuse every connection. -/
def sampleTurn : Turn where
  autoconnect := true
  static_records := []
  met_records := [⟨lit "10.0.0.1", 4661, 0⟩, ⟨lit "10.0.0.2", 4661, 0⟩]
  blacklist := none
  outcomes := fun _ => .failed (lit "ConnectionRefusedError: ")

theorem sampleTurn_begins_with_last :
    ¬((∀ pass ∈ Manager.init.run [sampleTurn, sampleTurn], pass.Holds) ∧
      (Manager.init.run [sampleTurn, sampleTurn]).IsChain Pass.Follows) := by
  intro hrun
  have hfollows : (Manager.init.pass sampleTurn).Follows ((Manager.init.pass sampleTurn).after.pass sampleTurn) :=
    (List.isChain_cons_cons.mp hrun.2).1
  have hcandidates : sampleTurn.candidates ≠ [] := by decide
  exact hfollows.moves_on rfl rfl (head?_tried_of_exhausted Manager.init hcandidates rfl rfl rfl)

end amuled.server_session
