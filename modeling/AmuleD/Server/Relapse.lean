import AmuleD.Server.Blacklist
import Mathlib.Data.Set.Finite.Lattice

namespace amuled.server

/-- Among the calls for a server stand failures that open a blacklist period, then, once the period they
opened has ended, as many failures again, and no success in between. -/
def Relapses (threshold : Nat) (cooldown : ℤ) (history : List Call) : Prop :=
  ∃ before after, before ++ after <:+: history ∧ (∀ call ∈ before ++ after, call.Fails) ∧
    threshold ≤ before.length ∧ threshold ≤ after.length ∧
    ∀ last ∈ before.getLast?, ∀ first ∈ after.head?, last.time + cooldown ≤ first.time

/-- The failures since the last success, behind what the calls amount to: one run of them so far, or two with
the end of a period between them. -/
inductive Streak (threshold : Nat) (cooldown : ℤ) : List Call → Standing → Prop where
  | first (front streak : List Call) (standing : Standing) (hfails : ∀ call ∈ streak, call.Fails)
      (hlapsed : standing.lapsed = false) (hcount : standing.failures ≤ streak.length)
      (hends : ∀ deadline, standing.ends = some deadline → threshold ≤ standing.failures ∧
        ∃ last, streak.getLast? = some last ∧ deadline = last.time + cooldown) :
      Streak threshold cooldown (front ++ streak) standing
  | again (front before after : List Call) (standing : Standing) (hfails : ∀ call ∈ before ++ after, call.Fails)
      (hbefore : threshold ≤ before.length) (hcount : standing.failures ≤ after.length) (hafter : after ≠ [])
      (hgap : ∀ last ∈ before.getLast?, ∀ first ∈ after.head?, last.time + cooldown ≤ first.time) :
      Streak threshold cooldown (front ++ (before ++ after)) standing

variable {threshold : Nat} {cooldown : ℤ}

theorem fails_snoc {calls : List Call} {call : Call} (hcalls : ∀ earlier ∈ calls, earlier.Fails) (hcall : call.Fails) :
    ∀ earlier ∈ calls ++ [call], earlier.Fails := by
  intro earlier hearlier
  rcases List.mem_append.mp hearlier with hmem | hmem
  · exact hcalls earlier hmem
  · rw [List.mem_singleton.mp hmem]
    exact hcall

theorem Streak.fail {history : List Call} {standing : Standing} (hstreak : Streak threshold cooldown history standing)
    {call : Call} (hcall : call.Fails) :
    Streak threshold cooldown (history ++ [call]) (standing.fail threshold cooldown call.time) := by
  cases hstreak with
  | first front streak standing hfails hlapsed hcount hends =>
    by_cases hover : ∃ deadline, standing.ends = some deadline ∧ deadline ≤ call.time
    · obtain ⟨deadline, hdeadline, hpassed⟩ := hover
      obtain ⟨hmany, last, hlast, rfl⟩ := hends deadline hdeadline
      rw [List.append_assoc]
      apply Streak.again _ _ _ _ (fails_snoc hfails hcall) (hmany.trans hcount) _ (List.cons_ne_nil call [])
      · intro final hfinal first hfirst
        rw [hlast] at hfinal
        cases hfinal
        cases hfirst
        exact hpassed
      · have hat := Standing.at_of_le hdeadline hpassed
        simp only [Standing.fail, hat, List.length_singleton, Nat.zero_add, le_refl]
    · -- The count goes on, and a deadline is that of the last failure.
      have hat : standing.at call.time = standing := Standing.at_of_not_over hover
      rw [List.append_assoc]
      apply Streak.first _ _ _ (fails_snoc hfails hcall)
      · rw [Standing.fail, hat]
        exact hlapsed
      · simp only [Standing.fail, hat, List.length_append, List.length_singleton]
        omega
      · intro deadline hdeadline
        simp only [Standing.fail, hat] at hdeadline ⊢
        by_cases hmany : threshold ≤ standing.failures + 1
        · rw [if_pos hmany] at hdeadline
          cases hdeadline
          exact ⟨hmany, call, List.getLast?_concat, rfl⟩
        · rw [if_neg hmany] at hdeadline
          have hearlier := (hends deadline hdeadline).1
          omega
  | again front before after standing hfails hbefore hcount hafter hgap =>
    rw [List.append_assoc, List.append_assoc]
    apply Streak.again _ _ _ _ _ hbefore _ (List.concat_ne_nil call after)
    · rwa [List.head?_append_of_ne_nil _ hafter]
    · rw [← List.append_assoc]
      exact fails_snoc hfails hcall
    · have hat : (standing.at call.time).failures ≤ standing.failures := by
        rw [Standing.at]
        cases standing.ends with
        | none => exact le_rfl
        | some deadline =>
          by_cases hlater : call.time < deadline
          · simp only [if_pos hlater, le_refl]
          · simp only [if_neg hlater, Nat.zero_le]
      simp only [Standing.fail, List.length_append, List.length_singleton]
      omega

theorem streak_standing (history : List Call) :
    Streak threshold cooldown history (standing threshold cooldown history) := by
  induction history using List.reverseRecOn with
  | nil => exact .first [] [] .clear (by simp) rfl le_rfl (by simp [Standing.clear])
  | append_singleton history call ih =>
    rw [standing_snoc, Standing.next]
    cases hcall : call.outcome with
    | failure reason => exact ih.fail ⟨reason, hcall⟩
    | success =>
      have hclear : Streak threshold cooldown ((history ++ [call]) ++ []) .clear :=
        .first (history ++ [call]) [] .clear (by simp) rfl le_rfl (by simp [Standing.clear])
      rwa [List.append_nil] at hclear

/-- A server that relapses has failed often enough twice. -/
theorem relapses_of_relapsed {history part : List Call} (hpart : part <+: history)
    (hrelapsed : (standing threshold cooldown part).Relapsed threshold) : Relapses threshold cooldown history := by
  obtain ⟨_, hlapsed, hmany⟩ := hrelapsed
  have hstreak : Streak threshold cooldown part (standing threshold cooldown part) := streak_standing part
  cases hstreak with
  | first front streak _ _ hfirst =>
    rw [hfirst] at hlapsed
    cases hlapsed
  | again front before after _ hfails hbefore hcount _ hgap =>
    refine ⟨before, after, ?_, hfails, hbefore, hmany.trans hcount, hgap⟩
    exact (List.suffix_append front (before ++ after)).isInfix.trans hpart.isInfix

/-- A period runs only after enough failures. -/
theorem many_of_ends (history : List Call) {deadline : ℤ}
    (hends : (standing threshold cooldown history).ends = some deadline) :
    threshold ≤ (standing threshold cooldown history).failures := by
  induction history using List.reverseRecOn generalizing deadline with
  | nil => cases hends
  | append_singleton history call ih =>
    rw [standing_snoc, Standing.next] at hends ⊢
    cases hcall : call.outcome with
    | success =>
      rw [hcall] at hends
      cases hends
    | failure reason =>
      rw [hcall] at hends
      simp only [Standing.fail] at hends ⊢
      by_contra hfew
      rw [if_neg hfew] at hends
      cases hbefore : (standing threshold cooldown history).ends with
      | none =>
        rw [Standing.at_of_none hbefore, hbefore] at hends
        cases hends
      | some earlier =>
        by_cases hlater : call.time < earlier
        · rw [Standing.at_of_lt hbefore hlater] at hfew
          exact hfew ((ih hbefore).trans (Nat.le_succ _))
        · rw [Standing.at_of_le hbefore (Int.not_lt.mp hlater)] at hends
          cases hends

theorem standing_fails (history : List Call) {call : Call} (hcall : call.Fails) :
    standing threshold cooldown (history ++ [call]) =
      (standing threshold cooldown history).fail threshold cooldown call.time := by
  obtain ⟨reason, hreason⟩ := hcall
  rw [standing_snoc, Standing.next, hreason]

/-- After the end of a period each failure counts, as long as the server has not relapsed. -/
theorem lapsed_run {history front calls : List Call} (htwo : 2 ≤ threshold)
    (hnone : ∀ part, part <+: history → ¬ (standing threshold cooldown part).Relapsed threshold)
    (hlapsed : (standing threshold cooldown front).lapsed = true) (hfails : ∀ call ∈ calls, call.Fails)
    (hpart : front ++ calls <+: history) :
    (standing threshold cooldown (front ++ calls)).lapsed = true ∧
      (standing threshold cooldown (front ++ calls)).failures =
        (standing threshold cooldown front).failures + calls.length := by
  induction calls using List.reverseRecOn with
  | nil =>
    rw [List.append_nil]
    exact ⟨hlapsed, rfl⟩
  | append_singleton calls call ih =>
    rw [← List.append_assoc] at hpart ⊢
    have hshorter : front ++ calls <+: history := (List.prefix_append _ _).trans hpart
    obtain ⟨hstill, hcount⟩ := ih (fun earlier hearlier => hfails earlier (List.mem_append_left _ hearlier)) hshorter
    have hidle : (standing threshold cooldown (front ++ calls)).ends = none := by
      cases hends : (standing threshold cooldown (front ++ calls)).ends with
      | none => rfl
      | some deadline => exact absurd ⟨htwo, hstill, many_of_ends _ hends⟩ (hnone _ hshorter)
    rw [standing_fails _ (hfails call (by simp))]
    simp only [Standing.fail, Standing.at_of_none hidle, List.length_append, List.length_singleton]
    exact ⟨hstill, by omega⟩

/-- Enough failures open a period that lasts until a cooldown after the last of them, or an earlier one ended. -/
theorem first_run {front calls : List Call} (hfails : ∀ call ∈ calls, call.Fails) :
    (standing threshold cooldown (front ++ calls)).lapsed = true ∨
      calls.length ≤ (standing threshold cooldown (front ++ calls)).failures ∧
        (threshold ≤ calls.length → ∀ last ∈ calls.getLast?,
          (standing threshold cooldown (front ++ calls)).ends = some (last.time + cooldown)) := by
  induction calls using List.reverseRecOn with
  | nil => exact .inr ⟨Nat.zero_le _, by simp⟩
  | append_singleton calls call ih =>
    rw [← List.append_assoc, standing_fails _ (hfails call (by simp))]
    have hearlier := ih fun earlier hearlier => hfails earlier (List.mem_append_left _ hearlier)
    rw [List.getLast?_concat, List.length_append, List.length_singleton]
    by_cases hover : ∃ deadline, (standing threshold cooldown (front ++ calls)).ends = some deadline ∧
        deadline ≤ call.time
    · obtain ⟨deadline, hdeadline, hpassed⟩ := hover
      left
      rw [Standing.fail, Standing.at_of_le hdeadline hpassed]
    · have hat : (standing threshold cooldown (front ++ calls)).at call.time =
          standing threshold cooldown (front ++ calls) := Standing.at_of_not_over hover
      simp only [Standing.fail, hat]
      rcases hearlier with hlapsed | ⟨hcount, _⟩
      · exact .inl hlapsed
      · refine .inr ⟨by omega, ?_⟩
        intro hmany last hlast
        cases hlast
        exact if_pos (by omega)

/-- Failures that open a period, and as many once it has ended, make a server relapse. -/
theorem relapsed_of_relapses {history : List Call} (htwo : 2 ≤ threshold)
    (hrelapses : Relapses threshold cooldown history) :
    ∃ part, part <+: history ∧ (standing threshold cooldown part).Relapsed threshold := by
  by_contra hcontra
  have hnone : ∀ part, part <+: history → ¬ (standing threshold cooldown part).Relapsed threshold :=
    fun part hpart hrelapsed => hcontra ⟨part, hpart, hrelapsed⟩
  obtain ⟨before, after, ⟨front, back, rfl⟩, hfails, hbefore, hafter, hgap⟩ := hrelapses
  have hwhole : front ++ before ++ after <+: front ++ (before ++ after) ++ back := by
    rw [← List.append_assoc front]
    exact List.prefix_append _ _
  have hfailsBefore : ∀ call ∈ before, call.Fails := fun call hcall => hfails call (List.mem_append_left _ hcall)
  have hfailsAfter : ∀ call ∈ after, call.Fails := fun call hcall => hfails call (List.mem_append_right _ hcall)
  rcases @first_run threshold cooldown front before hfailsBefore with hlapsed | ⟨_, hends⟩
  · obtain ⟨hstill, hcount⟩ := lapsed_run htwo hnone hlapsed hfailsAfter hwhole
    exact hnone _ hwhole ⟨htwo, hstill, by omega⟩
  · -- The first failure of the second run finds the period of the first one over.
    cases after with
    | nil =>
      rw [List.length_nil] at hafter
      omega
    | cons first rest =>
      have hnonempty : before ≠ [] := by
        rintro rfl
        rw [List.length_nil] at hbefore
        omega
      have hdeadline := hends hbefore (before.getLast hnonempty) (List.getLast?_eq_some_getLast hnonempty)
      have hpassed := hgap (before.getLast hnonempty) (List.getLast?_eq_some_getLast hnonempty) first rfl
      have hover : standing threshold cooldown (front ++ before ++ [first]) = ⟨1, none, true⟩ := by
        rw [standing_fails _ (hfailsAfter first List.mem_cons_self), Standing.fail,
          Standing.at_of_le hdeadline hpassed, Nat.zero_add, if_neg (by omega)]
      rw [List.append_cons] at hwhole
      obtain ⟨hstill, hcount⟩ := lapsed_run htwo hnone (by rw [hover])
        (fun call hcall => hfailsAfter call (List.mem_cons_of_mem first hcall)) hwhole
      simp only [hover] at hcount
      rw [List.length_cons] at hafter
      exact hnone _ hwhole ⟨htwo, hstill, by omega⟩

/-- Up to a server's last own call others may have been served. -/
theorem exists_part {key : String × Nat} {calls front : List Call} {call : Call}
    (hfront : front ++ [call] <+: callsFor key calls) :
    ∃ part, part ++ [call] <+: calls ∧ callsFor key (part ++ [call]) = front ++ [call] := by
  obtain ⟨whole, hwhole, hown⟩ := List.prefix_filter_iff.mp hfront
  obtain ⟨before, after, rfl, rfl, hlast⟩ := List.filter_eq_append_iff.mp hown.symm
  obtain ⟨others, rest, rfl, hothers, hcall, _⟩ := List.filter_eq_cons_iff.mp hlast
  refine ⟨before ++ others, ?_, ?_⟩
  · apply List.IsPrefix.trans _ hwhole
    rw [List.append_assoc, List.prefix_append_right_inj, List.append_cons others call rest]
    exact List.prefix_append _ _
  · have hnothing : others.filter (fun other => other.key = key) = [] := List.filter_eq_nil_iff.mpr hothers
    have hown : [call].filter (fun other => other.key = key) = [call] := List.filter_cons_of_pos hcall
    rw [callsFor, List.filter_append, List.filter_append, hnothing, hown, List.append_nil]

/-- The table lists a server exactly while that is due, over every run in which the server does not relapse. -/
theorem listed_iff_due {calls : List Call} (key : String × Nat)
    (hsorted : calls.Pairwise fun call later => call.time ≤ later.time) (hthreshold : 1 ≤ threshold)
    (hcooldown : 0 < cooldown) :
    (∀ part, part <+: calls → ∀ now, (∀ call ∈ part, call.time ≤ now) →
      (Listed (recorded threshold cooldown part) key now ↔
        (standing threshold cooldown (callsFor key part)).Due threshold now)) ↔
    threshold = 1 ∨ ¬ Relapses threshold cooldown (callsFor key calls) := by
  have hown : (callsFor key calls).Pairwise fun call later => call.time ≤ later.time :=
    hsorted.sublist List.filter_sublist
  constructor
  · intro hlaw
    by_contra hnot
    rw [not_or, not_not] at hnot
    obtain ⟨hone, hrelapses⟩ := hnot
    have htwo : 2 ≤ threshold := by omega
    obtain ⟨part, hpart, hrelapsed⟩ := relapsed_of_relapses htwo hrelapses
    rcases @agrees_or_missed threshold cooldown part (hown.sublist hpart.sublist) hcooldown with
      hagrees | ⟨front, call, hfront, hmissed⟩
    · obtain ⟨now, hnow⟩ := (part.finite_toSet.image Call.time).bddAbove
      exact (hagrees now fun call hcall => hnow (Set.mem_image_of_mem _ hcall)).not_relapsed hrelapsed
    · obtain ⟨before, hbefore, hcallsFor⟩ := exists_part (hfront.trans hpart)
      have htimes : ∀ earlier ∈ before ++ [call], earlier.time ≤ call.time := by
        intro earlier hearlier
        rcases List.mem_append.mp hearlier with hmem | hmem
        · have hordered := List.pairwise_append.mp (hsorted.sublist hbefore.sublist)
          exact hordered.2.2 earlier hmem call (List.mem_singleton_self call)
        · rw [List.mem_singleton.mp hmem]
      have hlisted := hlaw (before ++ [call]) hbefore call.time htimes
      rw [listed_iff, get_recorded, hcallsFor] at hlisted
      obtain ⟨blocking, hrow, hblocks⟩ := hlisted.mpr hmissed.due
      exact hmissed.unlisted blocking hrow hblocks
  · intro hcondition part hpart now hnow
    rw [listed_iff, get_recorded]
    have hpart : callsFor key part <+: callsFor key calls := hpart.filter _
    rcases @agrees_or_missed threshold cooldown (callsFor key part) (hown.sublist hpart.sublist) hcooldown with
      hagrees | ⟨front, call, hfront, hmissed⟩
    · have htimes : ∀ call ∈ callsFor key part, call.time ≤ now := fun call hcall => hnow call (List.mem_of_mem_filter hcall)
      exact (hagrees now htimes).blocks_iff hthreshold le_rfl
    · rcases hcondition with hone | hnone
      · exact absurd hmissed.relapsed.1 (by omega)
      · exact absurd (relapses_of_relapsed (hfront.trans hpart) hmissed.relapsed) hnone

/-- A server that fails in pairs, twenty time units apart. -/
def pairs : List Call :=
  [0, 1, 20, 21].map fun time => ⟨"10.0.0.3", 4663, .failure "err", time⟩

/-- The first pair alone is listed while that is due. -/
theorem listed_iff_due_first_pair :
    ¬ Relapses 2 10 (callsFor ("10.0.0.3", 4663) (pairs.take 2)) ∧
      ∀ part, part <+: pairs.take 2 → ∀ now, (∀ call ∈ part, call.time ≤ now) →
        (Listed (recorded 2 10 part) ("10.0.0.3", 4663) now ↔
          (standing 2 10 (callsFor ("10.0.0.3", 4663) part)).Due 2 now) := by
  have hnone : ¬ Relapses 2 10 (callsFor ("10.0.0.3", 4663) (pairs.take 2)) := by
    rintro ⟨before, after, hpart, _, hbefore, hafter, _⟩
    have hlength := hpart.length_le
    have hshort : (callsFor ("10.0.0.3", 4663) (pairs.take 2)).length ≤ 2 := List.length_filter_le _ _
    rw [List.length_append] at hlength
    omega
  refine ⟨hnone, ?_⟩
  exact (listed_iff_due ("10.0.0.3", 4663) (by simp [pairs]) (by omega) (by omega)).mpr (.inr hnone)

/-- With a threshold of two the second pair falls after the cooldown, and the server is not listed. -/
theorem second_pair_unlisted :
    ¬ Listed (recorded 2 10 pairs) ("10.0.0.3", 4663) 21 ∧
      (standing 2 10 (callsFor ("10.0.0.3", 4663) pairs)).Due 2 21 := by
  constructor
  · have hnone : list_blacklisted_servers (recorded 2 10 pairs) 21 = [] := by decide +kernel
    rintro ⟨entry, hentry, _⟩
    rw [hnone] at hentry
    cases hentry
  · left
    decide +kernel

end amuled.server
