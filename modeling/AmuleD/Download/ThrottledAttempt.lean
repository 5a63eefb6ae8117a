import AmuleD.Download.Attempt
import AmuleD.Download.Incoming

namespace amuled.download

/-- The transfer of an attempt has returned or was left. -/
def Stage.Left {σ : Type} : Stage σ → Prop
  | .transferring _ => False
  | _ => True

instance {σ : Type} (stage : Stage σ) : Decidable stage.Left :=
  match stage with
  | .transferring _ => inferInstanceAs (Decidable False)
  | .narrowing _ => inferInstanceAs (Decidable True)
  | .over => inferInstanceAs (Decidable True)

namespace AttemptConfig

variable {σ : Type} (config : AttemptConfig σ)

/-- The queue once the waiting writes have run, if all of them succeed. -/
def drain (queue : DownloadQueue) : List (Int × Bytes) → Except Exc DownloadQueue
  | [] => .ok queue
  | (start, data) :: rest => do
    let queue ← queue.record_block config.file_hash start data
    drain queue rest

/-- `record_block` will not refuse a block when its turn comes: the part file of the entry can be opened, and the
block lies in the file. -/
def Accepts (attempt : Attempt σ) (start : Int) (data : Bytes) : Prop :=
  ∀ settled, config.drain attempt.queue attempt.waiting = .ok settled →
    ∃ next, settled.record_block config.file_hash start data = .ok next

/-- The ranges of the next round do not depend on the waiting writes. -/
def Alike (attempt : Attempt σ) (loop : Loop σ) : Prop :=
  ∀ settled, config.drain attempt.queue attempt.waiting = .ok settled →
    config.select attempt.queue (config.start_offset + loop.received) loop.chosen =
      config.select settled (config.start_offset + loop.received) loop.chosen

/-- No block is refused, the waiting writes do not matter for the ranges that are chosen, and when the transfer
returns or is left no write waits. -/
def Fits (attempt : Attempt σ) (event : AttemptEvent) : Prop :=
  ∀ heard loop, event = .heard heard → attempt.stage = .transferring loop →
    (∀ start data, heard = .part start data → config.Accepts attempt start data) ∧
    (∀ loop', (config.take attempt loop heard).2 = .turns loop' →
      config.Alike (config.take attempt loop heard).1 loop') ∧
    ((config.step attempt event).stage.Left → (config.take attempt loop heard).1.waiting = [])

def Meets (attempt : Attempt σ) : List AttemptEvent → Prop
  | [] => True
  | event :: rest => config.Fits attempt event ∧ Meets (config.step attempt event) rest

/-- An attempt with a rate limit beside the same attempt without: it is behind by the writes that wait. -/
structure Behind (throttled direct : Attempt σ) : Prop where
  drained : config.drain throttled.queue throttled.waiting = .ok direct.queue
  idle : direct.waiting = []
  stage : throttled.stage = direct.stage
  verdict : throttled.verdict = direct.verdict
  punched : throttled.punched = direct.punched
  finalized : throttled.finalized = direct.finalized
  passed : throttled.passed = direct.passed
  recorded : throttled.recorded ++ throttled.waiting = throttled.passed
  reported : throttled.reported = []
  late : throttled.late = []
  settled : throttled.stage.Left → throttled.waiting = []
  closed : throttled.finalized = true → throttled.stage.Left

section Steps

variable {config} {throttled direct : Attempt σ} {loop : Loop σ}

theorem drain_append (queue : DownloadQueue) (waiting : List (Int × Bytes)) (start : Int) (data : Bytes) :
    config.drain queue (waiting ++ [(start, data)]) =
      (config.drain queue waiting).bind fun queue => queue.record_block config.file_hash start data := by
  induction waiting generalizing queue with
  | nil =>
    rw [List.nil_append, drain, drain, Except.bind]
    cases queue.record_block config.file_hash start data with
    | error e => rfl
    | ok next => rfl
  | cons block rest ih =>
    rw [List.cons_append, drain, drain]
    cases hrecord : queue.record_block config.file_hash block.1 block.2 with
    | error e => rfl
    | ok next => exact ih next

theorem Behind.queue_eq (h : config.Behind throttled direct) (hwaiting : throttled.waiting = []) :
    throttled.queue = direct.queue := by
  have hdrained := h.drained
  rw [hwaiting, drain] at hdrained
  exact Except.ok.inj hdrained

theorem Behind.left (h : config.Behind throttled direct) (hwaiting : throttled.waiting = []) (stage : Stage σ)
    (hleft : stage.Left) :
    config.Behind { throttled with stage := stage } { direct with stage := stage } :=
  ⟨h.drained, h.idle, rfl, h.verdict, h.punched, h.finalized, h.passed, h.recorded, h.reported, h.late,
    fun _ => hwaiting, fun _ => hleft⟩

/-- The limit matters for `_persist_block` only. -/
theorem unlimited_begin_round : config.unlimited.begin_round = config.begin_round := rfl

theorem unlimited_proceed : config.unlimited.proceed = config.proceed := rfl

theorem unlimited_punch : config.unlimited.punch = config.punch := rfl

theorem unlimited_finalize : config.unlimited.finalize = config.finalize := rfl

/-- The parts are checked in the same file. -/
theorem Behind.conclude (h : config.Behind throttled direct) (hwaiting : throttled.waiting = []) (loop : Loop σ) :
    config.Behind (config.conclude throttled loop) (config.conclude direct loop) := by
  have hfile : throttled.queue.part_file config.file_hash = direct.queue.part_file config.file_hash := by
    rw [h.queue_eq hwaiting]
  unfold AttemptConfig.conclude
  rw [hfile]
  split
  · exact h.left hwaiting .over trivial
  · split
    · have hleft : ∀ corrupt : List (Nat × Nat),
          (if corrupt = [] then Stage.over else .narrowing corrupt : Stage σ).Left := by
        intro corrupt
        split_ifs <;> trivial
      exact ⟨h.drained, h.idle, rfl, rfl, h.punched, h.finalized, h.passed, h.recorded, h.reported, h.late,
        fun _ => hwaiting, fun _ => hleft _⟩
    · exact h.left hwaiting .over trivial

theorem Behind.punch (h : config.Behind throttled direct) (hwaiting : throttled.waiting = [])
    (corrupt : List (Nat × Nat)) : config.Behind (config.punch throttled corrupt) (config.punch direct corrupt) := by
  have hqueue := h.queue_eq hwaiting
  have hsame : ∀ next, config.drain next throttled.waiting = .ok next := by
    intro next
    rw [hwaiting, drain]
  unfold AttemptConfig.punch
  simp only [hqueue]
  split
  · exact hqueue ▸ h.left hwaiting .over trivial
  · exact ⟨hsame _, h.idle, rfl, h.verdict, rfl, h.finalized, h.passed, h.recorded, h.reported, h.late,
      fun _ => hwaiting, fun _ => trivial⟩

theorem Behind.finalize (h : config.Behind throttled direct) (hwaiting : throttled.waiting = [])
    (hleft : throttled.stage.Left) (verify : Bool) (free : Nat) :
    config.Behind (config.finalize throttled verify free) (config.finalize direct verify free) := by
  have hqueue := h.queue_eq hwaiting
  have hsame : ∀ next, config.drain next throttled.waiting = .ok next := by
    intro next
    rw [hwaiting, drain]
  unfold AttemptConfig.finalize
  simp only [hqueue]
  split
  · exact h
  · exact ⟨hsame _, h.idle, h.stage, h.verdict, h.punched, rfl, h.passed, h.recorded, h.reported, h.late,
      fun _ => hwaiting, fun _ => hleft⟩

theorem left_conclude (attempt : Attempt σ) (loop : Loop σ) : (config.conclude attempt loop).stage.Left := by
  unfold AttemptConfig.conclude
  split
  · trivial
  · split
    · dsimp only
      split_ifs <;> trivial
    · trivial

theorem Behind.begin_round (h : config.Behind throttled direct) (hfinalized : throttled.finalized = false)
    (halike : config.Alike throttled loop)
    (hleft : (config.begin_round throttled loop).stage.Left → throttled.waiting = []) :
    config.Behind (config.begin_round throttled loop) (config.begin_round direct loop) := by
  have hsame := halike direct.queue h.drained
  unfold AttemptConfig.begin_round at hleft ⊢
  dsimp only at hleft ⊢
  by_cases hend : loop.blocks ≥ MAX_BLOCKS ∨ config.start_offset + loop.received ≥ config.bound
  · rw [if_pos hend] at hleft
    rw [if_pos hend, if_pos hend]
    exact h.conclude (hleft (left_conclude throttled loop)) loop
  · rw [if_neg hend, hsame] at hleft
    rw [if_neg hend, if_neg hend, hsame]
    cases hselect : config.select direct.queue (config.start_offset + loop.received) loop.chosen with
    | error e =>
      rw [hselect] at hleft
      exact h.left (hleft trivial) .over trivial
    | ok choice =>
      rw [hselect] at hleft
      cases choice with
      | none => exact h.conclude (hleft (left_conclude throttled loop)) loop
      | some chosen =>
        refine ⟨h.drained, h.idle, rfl, h.verdict, h.punched, h.finalized, h.passed, h.recorded, h.reported, h.late,
          False.elim, ?_⟩
        intro hclosed
        exact absurd (hfinalized.symm.trans hclosed) Bool.false_ne_true

/-- A block waits in one attempt and is recorded in the other. -/
theorem Behind.persist_block (hrate : 0 < config.download_bytes_per_sec) (h : config.Behind throttled direct)
    (hstage : throttled.stage = .transferring loop) {start : Int} {data : Bytes}
    (haccepts : config.Accepts throttled start data) :
    ∃ late early, config.persist_block throttled start data = .ok late ∧
      config.unlimited.persist_block direct start data = .ok early ∧ config.Behind late early ∧
      late.stage = throttled.stage ∧ late.finalized = throttled.finalized := by
  obtain ⟨next, hrecord⟩ := haccepts direct.queue h.drained
  refine ⟨{ throttled with
      waiting := throttled.waiting ++ [(start, data)]
      passed := throttled.passed ++ [(start, data)] },
    { direct with
      queue := next
      passed := direct.passed ++ [(start, data)]
      recorded := direct.recorded ++ [(start, data)] }, ?_, ?_, ?_, rfl, rfl⟩
  · rw [AttemptConfig.persist_block, if_neg (not_le.mpr hrate)]
  · have hrate' : config.unlimited.download_bytes_per_sec ≤ 0 := le_refl 0
    rw [AttemptConfig.persist_block, if_pos hrate']
    exact bind_eq_ok_iff.mpr ⟨next, hrecord, rfl⟩
  · have hleft : ¬ throttled.stage.Left := by
      rw [hstage]
      exact id
    refine ⟨?_, h.idle, h.stage, h.verdict, h.punched, h.finalized, ?_, ?_, h.reported, h.late,
      fun hover => absurd hover hleft, h.closed⟩
    · rw [drain_append, h.drained]
      exact hrecord
    · simp only [h.passed]
    · simp only [← h.recorded, List.append_assoc]

theorem Behind.take (hrate : 0 < config.download_bytes_per_sec) (h : config.Behind throttled direct)
    (hstage : throttled.stage = .transferring loop) {heard : Heard}
    (haccepts : ∀ start data, heard = .part start data → config.Accepts throttled start data) :
    config.Behind (config.take throttled loop heard).1 (config.unlimited.take direct loop heard).1 ∧
      (config.take throttled loop heard).2 = (config.unlimited.take direct loop heard).2 ∧
      (config.take throttled loop heard).1.finalized = throttled.finalized := by
  cases heard with
  | part start data =>
    obtain ⟨late, early, hlate, hearly, hbehind, _, hfinalized⟩ :=
      h.persist_block hrate hstage (haccepts start data rfl)
    simp only [AttemptConfig.take, hlate, hearly]
    exact ⟨hbehind, trivial, hfinalized⟩
  | _ => exact ⟨h, rfl, rfl⟩

theorem Behind.heard (hrate : 0 < config.download_bytes_per_sec) (h : config.Behind throttled direct)
    (hstage : throttled.stage = .transferring loop) {heard : Heard} (hfits : config.Fits throttled (.heard heard)) :
    config.Behind (config.step throttled (.heard heard)) (config.unlimited.step direct (.heard heard)) := by
  obtain ⟨haccepts, halike, hleft⟩ := hfits heard loop rfl hstage
  obtain ⟨htake, htaken, hfinalized⟩ := h.take hrate hstage haccepts
  have hopen : (config.take throttled loop heard).1.finalized = false := by
    rw [hfinalized, Bool.eq_false_iff]
    intro hclosed
    have hover := h.closed hclosed
    rw [hstage] at hover
    exact hover
  have hstep : config.step throttled (.heard heard) =
      config.proceed (config.take throttled loop heard).1 (config.take throttled loop heard).2 := by
    simp only [AttemptConfig.step, hstage]
  have hdirect : config.unlimited.step direct (.heard heard) =
      config.proceed (config.unlimited.take direct loop heard).1 (config.take throttled loop heard).2 := by
    rw [htaken, ← unlimited_proceed]
    simp only [AttemptConfig.step, ← h.stage, hstage]
  rw [hstep] at hleft ⊢
  rw [hdirect]
  cases hwhat : (config.take throttled loop heard).2 with
  | waits next =>
    refine ⟨htake.drained, htake.idle, rfl, htake.verdict, htake.punched, htake.finalized, htake.passed,
      htake.recorded, htake.reported, htake.late, False.elim, ?_⟩
    intro hclosed
    exact absurd (hopen.symm.trans hclosed) Bool.false_ne_true
  | turns next =>
    rw [hwhat] at hleft
    exact htake.begin_round hopen (halike next hwhat) hleft
  | returns next =>
    rw [hwhat] at hleft
    exact htake.conclude (hleft (left_conclude _ next)) next
  | raises =>
    rw [hwhat] at hleft
    exact htake.left (hleft trivial) .over trivial

/-- A write that waited catches up with the other attempt. -/
theorem Behind.run_detached (h : config.Behind throttled direct) :
    config.Behind (config.run_detached throttled) (config.unlimited.run_detached direct) := by
  have hdirect : config.unlimited.run_detached direct = direct := by rw [AttemptConfig.run_detached, h.idle]
  rw [hdirect, AttemptConfig.run_detached]
  cases hwaiting : throttled.waiting with
  | nil => exact h
  | cons block rest =>
    have hdrained := h.drained
    rw [hwaiting, drain] at hdrained
    obtain ⟨next, hrecord, hrest⟩ := bind_eq_ok_iff.mp hdrained
    have hleft : ¬ throttled.stage.Left := by
      intro hover
      rw [h.settled hover] at hwaiting
      cases hwaiting
    have hopen : throttled.finalized = false := Bool.eq_false_iff.mpr fun hclosed => hleft (h.closed hclosed)
    dsimp only
    rw [hrecord]
    dsimp only
    rw [hopen]
    refine ⟨hrest, h.idle, h.stage, h.verdict, h.punched, hopen ▸ h.finalized, h.passed, ?_, h.reported, ?_,
      fun hover => absurd hover hleft, nofun⟩
    · rw [← h.recorded, hwaiting]
      simp
    · exact h.late

theorem Behind.step (hrate : 0 < config.download_bytes_per_sec) (h : config.Behind throttled direct)
    {event : AttemptEvent} (hfits : config.Fits throttled event) :
    config.Behind (config.step throttled event) (config.unlimited.step direct event) := by
  cases event with
  | heard heard =>
    cases hstage : throttled.stage with
    | transferring loop => exact h.heard hrate hstage hfits
    | narrowing corrupt =>
      simp only [AttemptConfig.step, ← h.stage, hstage]
      exact h
    | «over» =>
      simp only [AttemptConfig.step, ← h.stage, hstage]
      exact h
  | detached =>
    have hdetached := h.run_detached
    simpa only [AttemptConfig.step] using hdetached
  | narrowed =>
    cases hstage : throttled.stage with
    | narrowing corrupt =>
      have hwaiting : throttled.waiting = [] := h.settled (by rw [hstage]; trivial)
      simp only [AttemptConfig.step, ← h.stage, hstage, unlimited_punch]
      exact h.punch hwaiting corrupt
    | transferring loop =>
      simp only [AttemptConfig.step, ← h.stage, hstage]
      exact h
    | «over» =>
      simp only [AttemptConfig.step, ← h.stage, hstage]
      exact h
  | finalize verify free =>
    cases hstage : throttled.stage with
    | «over» =>
      have hwaiting : throttled.waiting = [] := h.settled (by rw [hstage]; trivial)
      simp only [AttemptConfig.step, ← h.stage, hstage, unlimited_finalize]
      exact h.finalize hwaiting (by rw [hstage]; trivial) verify free
    | transferring loop =>
      simp only [AttemptConfig.step, ← h.stage, hstage]
      exact h
    | narrowing corrupt =>
      simp only [AttemptConfig.step, ← h.stage, hstage]
      exact h

theorem Behind.run (hrate : 0 < config.download_bytes_per_sec) {events : List AttemptEvent}
    (h : config.Behind throttled direct) (hmeets : config.Meets throttled events) :
    config.Behind (config.run throttled events) (config.unlimited.run direct events) := by
  induction events generalizing throttled direct with
  | nil => exact h
  | cons event rest ih => exact ih (h.step hrate hmeets.1) hmeets.2

theorem behind_start (queue : DownloadQueue) (chosen : σ) :
    config.Behind (config.start queue chosen) (config.unlimited.start queue chosen) := by
  have hempty : config.Behind ⟨queue, [], .over, none, none, false, [], [], [], []⟩
      ⟨queue, [], .over, none, none, false, [], [], [], []⟩ :=
    ⟨rfl, rfl, rfl, rfl, rfl, rfl, rfl, rfl, rfl, rfl, fun _ => rfl, nofun⟩
  rw [AttemptConfig.start, AttemptConfig.start, unlimited_begin_round]
  refine hempty.begin_round rfl ?_ fun _ => rfl
  intro settled hdrained
  rw [drain, Except.ok.injEq] at hdrained
  rw [hdrained]

end Steps

end AttemptConfig

/-- A run with a rate limit in which no block is refused, no write waits when the ranges of a round are chosen
from the queue, and none waits when the transfer returns: the checked parts, the punched ranges and, once the
transfer is over, the queue with its gaps are those of the same run without the limit. Every block that was
passed on by then is recorded, and none is recorded after the entry was finalized. -/
theorem throttled_attempt_alike {σ : Type} (config : AttemptConfig σ) (hrate : 0 < config.download_bytes_per_sec)
    (queue : DownloadQueue) (chosen : σ) (events : List AttemptEvent)
    (hmeets : config.Meets (config.start queue chosen) events) :
    let throttled := config.run (config.start queue chosen) events
    let direct := config.unlimited.run (config.unlimited.start queue chosen) events
    (throttled.stage.Left → throttled.recorded = throttled.passed ∧ throttled.queue = direct.queue ∧
      throttled.queue.gap_ranges config.file_hash = direct.queue.gap_ranges config.file_hash) ∧
    throttled.stage = direct.stage ∧ throttled.passed = direct.passed ∧ throttled.verdict = direct.verdict ∧
    throttled.punched = direct.punched ∧ throttled.reported = [] ∧ throttled.late = [] := by
  intro throttled direct
  have hbehind : config.Behind throttled direct := (AttemptConfig.behind_start queue chosen).run hrate hmeets
  refine ⟨?_, hbehind.stage, hbehind.passed, hbehind.verdict, hbehind.punched, hbehind.reported, hbehind.late⟩
  intro hleft
  have hwaiting := hbehind.settled hleft
  have hqueue := hbehind.queue_eq hwaiting
  have hrecorded := hbehind.recorded
  rw [hwaiting, List.append_nil] at hrecorded
  exact ⟨hrecorded, hqueue, by rw [hqueue]⟩

section Samples

/-- A hash that shows the first byte. -/
def firstByte : HashFn 16 := ⟨fun data => List.replicate 16 (data.headD 0), fun _ => List.length_replicate⟩

/-- An attempt at a file of two bytes without a block selector, one byte per second. -/
def sampleAttempt : AttemptConfig Unit where
  queue_config := { sampleQueueConfig with md4 := Md4.buffered firstByte }
  file_hash := sampleHash '0'
  size := 2
  start_offset := 0
  end_offset := none
  download_bytes_per_sec := 1
  hashset := some ⟨[], [firstByte [1, 2]]⟩
  select := linear_select [] 2
  narrow := fun _ corrupt => corrupt

def sampleEntry : DownloadQueue := emptyQueue.run sampleAttempt.queue_config [.add (sampleHash '0') "a" 2 100]

theorem throttled_attempt_alike_one_block :
    let events := [.heard (.part 0 [1]), .detached, .heard .idle]
    let throttled := sampleAttempt.run (sampleAttempt.start sampleEntry ()) events
    throttled.stage.Left → throttled.recorded = throttled.passed := by
  intro events throttled hleft
  have hmeets : sampleAttempt.Meets (sampleAttempt.start sampleEntry ()) events := by
    refine ⟨?_, ?_, ?_, trivial⟩
    · rintro heard loop hheard hstage
      cases hheard
      cases hstage
      refine ⟨?_, nofun, False.elim⟩
      intro start data hpart settled hdrained
      cases hpart
      cases hdrained
      cases hrecord : sampleEntry.record_block (sampleHash '0') 0 [1] with
      | ok next => exact ⟨next, hrecord⟩
      | error e =>
        have hworks : (sampleEntry.record_block (sampleHash '0') 0 [1]).isOk = true := by decide +kernel
        rw [hrecord] at hworks
        cases hworks
    · rintro heard loop hheard
      cases hheard
    · rintro heard loop hheard hstage
      cases hheard
      refine ⟨nofun, nofun, fun _ => ?_⟩
      have hwaiting : (sampleAttempt.run (sampleAttempt.start sampleEntry ())
          [.heard (.part 0 [1]), .detached]).waiting = [] := by decide +kernel
      exact hwaiting
  exact ((throttled_attempt_alike sampleAttempt (by decide) sampleEntry () events hmeets).1 hleft).1

/-- The last block of a file is still waiting when its parts are checked. -/
theorem throttled_attempt_differs :
    (¬ ∀ (config : AttemptConfig Unit) (queue : DownloadQueue) (events : List AttemptEvent),
      0 < config.download_bytes_per_sec → (config.run (config.start queue ()) events).stage.Left →
        (config.run (config.start queue ()) events).recorded = (config.run (config.start queue ()) events).passed) ∧
    (¬ ∀ (config : AttemptConfig Unit) (queue : DownloadQueue) (events : List AttemptEvent),
      0 < config.download_bytes_per_sec → (config.run (config.start queue ()) events).verdict =
        (config.unlimited.run (config.unlimited.start queue ()) events).verdict) ∧
    ¬ ∀ (config : AttemptConfig Unit) (queue : DownloadQueue) (events : List AttemptEvent),
      0 < config.download_bytes_per_sec → (config.run (config.start queue ()) events).stage.Left →
        (config.run (config.start queue ()) events).queue.gap_ranges config.file_hash =
          (config.unlimited.run (config.unlimited.start queue ()) events).queue.gap_ranges config.file_hash := by
  let events : List AttemptEvent := [.heard (.part 0 [1, 2])]
  have hleft : (sampleAttempt.run (sampleAttempt.start sampleEntry ()) events).stage.Left := by decide +kernel
  refine ⟨?_, ?_, ?_⟩
  · intro hclaim
    have hrecorded := hclaim sampleAttempt sampleEntry events (by decide) hleft
    exact absurd hrecorded (by decide +kernel)
  · intro hclaim
    have hverdict := hclaim sampleAttempt sampleEntry events (by decide)
    exact absurd hverdict (by decide +kernel)
  · intro hclaim
    have hgaps := congrArg Except.toOption (hclaim sampleAttempt sampleEntry events (by decide) hleft)
    exact absurd hgaps (by decide +kernel)

end Samples

end amuled.download
