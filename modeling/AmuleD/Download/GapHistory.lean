import Mathlib.Data.Int.ConditionallyCompleteOrder
import Mathlib.Order.ConditionallyCompleteLattice.Basic
import Mathlib.Tactic.Tauto
import Mathlib.Data.List.Induction
import AmuleD.Download.PartFile

open halfopen sorting

namespace amuled.download

/-- An accepted write or a punch that covers a byte. -/
def Operation.touches (total_size b : Int) : Operation → Bool
  | .write_block start data =>
    0 ≤ start ∧ start + data.length ≤ total_size ∧ start ≤ b ∧ b < start + data.length
  | .punch start stop => start ≤ b ∧ b < stop
  | .save => false
  | .resume => false

/-- The last effective operation on a byte. -/
def last_effective (total_size b : Int) (operations : List Operation) : Option Operation :=
  operations.reverse.find? (Operation.touches total_size b)

/-- The last effective operation is a punch, or there is none. -/
def Missing (total_size : Int) (operations : List Operation) (b : Int) : Prop :=
  match last_effective total_size b operations with
  | some (.write_block _ _) => False
  | _ => True

instance (total_size : Int) (operations : List Operation) (b : Int) :
    Decidable (Missing total_size operations b) := by
  unfold Missing
  split <;> infer_instance

/-- The operations in force and those at the last save: a resume goes back to these. -/
def history (operations : List Operation) : List Operation × List Operation :=
  operations.foldl (fun past operation =>
    match operation with
    | .save => (past.1, past.1)
    | .resume => (past.2, past.2)
    | operation => (past.1 ++ [operation], past.2)) ([], [])

def in_force (operations : List Operation) : List Operation := (history operations).1

section Normalize

variable {gaps : List Gap} {total_size : Int}

theorem start_lt_of_clip {gap clipped : Gap} (hclip : clip total_size gap = some clipped) :
    clipped.start < clipped.stop := by
  simp only [clip] at hclip
  split at hclip
  · rename_i hlt
    cases hclip
    exact hlt
  · cases hclip

theorem covers_clip (htotal : 0 ≤ total_size) (x : Int) :
    Covers (gaps.filterMap (clip total_size)) x ↔ Covers gaps x ∧ 0 ≤ x ∧ x < total_size := by
  induction gaps with
  | nil => simp
  | cons gap rest ih =>
    have hgap : (∃ clipped, clip total_size gap = some clipped ∧ clipped.Holds x) ↔
        gap.Holds x ∧ 0 ≤ x ∧ x < total_size := by
      simp only [clip, Span.Holds]
      split
      · simp only [Option.some.injEq, exists_eq_left']
        omega
      · simp only [reduceCtorEq, false_and, exists_false, false_iff]
        omega
    rw [covers_cons, or_and_right, ← hgap, ← ih]
    cases hclip : clip total_size gap with
    | none => simp [hclip]
    | some clipped => simp [hclip]

theorem normalize_sorted (gaps : List Gap) (total_size : Int) :
    (∀ gap ∈ sorted (fun gap => toLex (gap.start, gap.stop)) (gaps.filterMap (clip total_size)),
      gap.start < gap.stop) ∧
    (sorted (fun gap : Gap => toLex (gap.start, gap.stop)) (gaps.filterMap (clip total_size))).Pairwise
      fun a b => a.start ≤ b.start := by
  constructor
  · intro gap hgap
    obtain ⟨original, _, hclip⟩ := List.mem_filterMap.mp (mem_sorted.mp hgap)
    exact start_lt_of_clip hclip
  · apply (pairwise_sorted (fun gap : Gap => toLex (gap.start, gap.stop)) _).imp
    intro a b hle
    cases Prod.Lex.le_iff.mp hle with
    | inl hlt => exact le_of_lt hlt
    | inr heq => exact heq.1.le

theorem canonical_normalize_gaps (gaps : List Gap) (total_size : Int) :
    Canonical (normalize_gaps gaps total_size) :=
  canonical_merge (normalize_sorted gaps total_size).1 (normalize_sorted gaps total_size).2

/-- Normalization keeps the bytes of the file that the gaps cover. -/
theorem covers_normalize_gaps (htotal : 0 ≤ total_size) (x : Int) :
    Covers (normalize_gaps gaps total_size) x ↔ Covers gaps x ∧ 0 ≤ x ∧ x < total_size := by
  rw [normalize_gaps, covers_merge (normalize_sorted gaps total_size).1
    (normalize_sorted gaps total_size).2, covers_of_perm (sorted_perm _ _), covers_clip htotal]

end Normalize

/-- What a filled range leaves of the gaps are the bytes outside of it. -/
theorem covers_fill {gaps : List Gap} {start stop : Int} (x : Int) :
    Covers (gaps.flatMap (PartFile.fill start stop)) x ↔
      Covers gaps x ∧ ¬ (start ≤ x ∧ x < stop) := by
  induction gaps with
  | nil => simp
  | cons gap rest ih =>
    have hgap : Covers (PartFile.fill start stop gap) x ↔ gap.Holds x ∧ ¬ (start ≤ x ∧ x < stop) := by
      unfold PartFile.fill Span.Holds
      by_cases hapart : stop ≤ gap.start ∨ start ≥ gap.stop
      · rw [if_pos hapart, covers_cons, or_iff_left (not_covers_nil x)]
        unfold Span.Holds
        omega
      · rw [if_neg hapart, covers_append]
        by_cases hfront : start > gap.start <;> by_cases hback : stop < gap.stop <;>
          simp [hfront, hback, Span.Holds] <;> omega
    rw [List.flatMap_cons, covers_append, covers_cons, hgap, ih, or_and_right]

/-- The gaps of a part file as a history of operations leaves them. -/
structure Faithful (total_size : Int) (operations : List Operation) (gaps : List Gap) : Prop where
  canonical : Canonical gaps
  covers : ∀ x, Covers gaps x ↔ 0 ≤ x ∧ x < total_size ∧ Missing total_size operations x

section Missing

variable {total_size : Int} {operations : List Operation} {x : Int}

theorem missing_of_write {start : Int} {data : Bytes}
    (htouches : (Operation.write_block start data).touches total_size x = true) :
    ¬ Missing total_size (operations ++ [.write_block start data]) x := by
  simp [Missing, last_effective, htouches]

theorem missing_of_punch {start stop : Int}
    (htouches : (Operation.punch start stop).touches total_size x = true) :
    Missing total_size (operations ++ [.punch start stop]) x := by
  simp [Missing, last_effective, htouches]

theorem missing_of_not_touches {operation : Operation}
    (hnot : ¬ operation.touches total_size x = true) :
    Missing total_size (operations ++ [operation]) x ↔ Missing total_size operations x := by
  simp [Missing, last_effective, hnot]

end Missing

section Faithful

variable {total_size : Int} {operations : List Operation} {part : PartFile}

theorem Faithful.write_block {start : Int} {data : Bytes}
    (h : Faithful part.total_size operations part.gaps) (hstart : 0 ≤ start)
    (hstop : start + data.length ≤ part.total_size) :
    Faithful part.total_size (operations ++ [.write_block start data])
      (part.apply_gap_fill start (start + data.length)).gaps := by
  refine ⟨canonical_normalize_gaps _ _, fun x => ?_⟩
  rw [PartFile.apply_gap_fill, covers_normalize_gaps (by omega), covers_fill, h.covers]
  by_cases hinside : start ≤ x ∧ x < start + data.length
  · have htouches : (Operation.write_block start data).touches part.total_size x = true := by
      simp [Operation.touches, hstart, hstop, hinside]
    simp [missing_of_write htouches, hinside]
  · have hnot : ¬ (Operation.write_block start data).touches part.total_size x = true := by
      simp only [Operation.touches, decide_eq_true_eq]
      omega
    rw [missing_of_not_touches hnot]
    tauto

theorem Faithful.punch (htotal : 0 ≤ part.total_size) (start stop : Int)
    (h : Faithful part.total_size operations part.gaps) :
    Faithful part.total_size (operations ++ [.punch start stop]) (part.punch start stop).gaps := by
  have htouches : ∀ x, (Operation.punch start stop).touches part.total_size x = true ↔
      start ≤ x ∧ x < stop := by simp [Operation.touches]
  constructor
  · simp only [PartFile.punch]
    split
    · exact h.canonical
    · exact canonical_normalize_gaps _ _
  · intro x
    have hpunched : start ≤ x ∧ x < stop → Missing part.total_size (operations ++ [.punch start stop]) x :=
      fun hinside => missing_of_punch ((htouches x).mpr hinside)
    have hkept : ¬ (start ≤ x ∧ x < stop) →
        (Missing part.total_size (operations ++ [.punch start stop]) x ↔
          Missing part.total_size operations x) :=
      fun houtside => missing_of_not_touches (mt (htouches x).mp houtside)
    simp only [PartFile.punch]
    split
    · rw [h.covers]
      by_cases hinside : start ≤ x ∧ x < stop
      · omega
      · rw [hkept hinside]
    · rw [covers_normalize_gaps htotal, covers_append, covers_cons, h.covers, Span.Holds]
      by_cases hinside : start ≤ x ∧ x < stop
      · have hmissing := hpunched hinside
        simp only [hmissing, not_covers_nil, or_false, and_true]
        omega
      · rw [hkept hinside]
        have hrange : ¬ (max 0 start ≤ x ∧ x < min part.total_size stop) := by omega
        simp only [not_covers_nil, hrange, or_false]
        exact ⟨fun hcovered => hcovered.1, fun hmissing => ⟨hmissing, hmissing.1, hmissing.2.1⟩⟩

end Faithful

theorem faithful_new {total_size : Int} (htotal : 0 < total_size) :
    Faithful total_size [] [⟨0, total_size⟩] := by
  constructor
  · refine ⟨?_, List.pairwise_singleton _ _⟩
    intro gap hgap
    rw [List.mem_singleton.mp hgap]
    exact htotal
  · intro x
    simp [Span.Holds, Missing, last_effective]

/-- Canonical gaps inside the file are not changed by normalization. -/
theorem Faithful.normalize_gaps_eq {total_size : Int} {operations : List Operation} {gaps : List Gap}
    (h : Faithful total_size operations gaps) (htotal : 0 ≤ total_size) :
    normalize_gaps gaps total_size = gaps := by
  apply (canonical_normalize_gaps gaps total_size).ext h.canonical
  intro x
  rw [covers_normalize_gaps htotal, h.covers]
  tauto

theorem Faithful.inside {total_size : Int} {operations : List Operation} {gaps : List Gap}
    (h : Faithful total_size operations gaps) :
    ∀ gap ∈ gaps, 0 ≤ gap.start ∧ gap.stop ≤ total_size := by
  intro gap hgap
  have hlt := h.canonical.nonempty gap hgap
  have hfirst := (h.covers gap.start).mp ⟨gap, hgap, le_rfl, hlt⟩
  have hlast := (h.covers (gap.stop - 1)).mp ⟨gap, hgap, by omega, by omega⟩
  omega

/-- The part file and its sidecar after some operations. -/
structure Recorded (total_size : Int) (past : List Operation × List Operation)
    (state : PartFile × Disk) : Prop where
  total_size_eq : state.1.total_size = total_size
  gaps : Faithful total_size past.1 state.1.gaps
  saved : ∃ gaps, state.2.sidecar = some ⟨total_size, gaps⟩ ∧ Faithful total_size past.2 gaps

theorem resume_eq {path : String} {disk : Disk} {total_size : Int} {operations : List Operation}
    {gaps : List Gap} (htotal : 0 < total_size) (hsidecar : disk.sidecar = some ⟨total_size, gaps⟩)
    (h : Faithful total_size operations gaps) :
    PartFile.resume path disk = .ok ⟨path, total_size, gaps⟩ := by
  rw [PartFile.resume, hsidecar]
  simp only
  rw [PartFile.new, if_neg (by omega), ok_bind, h.normalize_gaps_eq (le_of_lt htotal)]

theorem history_append (operations : List Operation) (operation : Operation) :
    history (operations ++ [operation]) =
      match operation with
      | .save => ((history operations).1, (history operations).1)
      | .resume => ((history operations).2, (history operations).2)
      | operation => ((history operations).1 ++ [operation], (history operations).2) := by
  rw [history, List.foldl_append]
  cases operation <;> rfl

theorem Recorded.apply {total_size : Int} {operations : List Operation} {state : PartFile × Disk}
    (htotal : 0 < total_size) (h : Recorded total_size (history operations) state)
    (operation : Operation) :
    Recorded total_size (history (operations ++ [operation])) (operation.apply state) := by
  obtain ⟨htotal_size, hgaps, saved, hsidecar, hsaved⟩ := h
  rw [history_append]
  cases operation with
  | write_block start data =>
    simp only [Operation.apply, PartFile.write_block]
    by_cases houtside : start < 0 ∨ start + data.length > state.1.total_size
    · simp only [if_pos houtside]
      refine ⟨htotal_size, ⟨hgaps.canonical, fun x => ?_⟩, saved, hsidecar, hsaved⟩
      have hnot : ¬ (Operation.write_block start data).touches total_size x = true := by
        simp only [Operation.touches, decide_eq_true_eq]
        omega
      rw [missing_of_not_touches hnot, hgaps.covers]
    · simp only [if_neg houtside]
      subst htotal_size
      exact ⟨rfl, hgaps.write_block (by omega) (by omega), saved, hsidecar, hsaved⟩
  | punch start stop =>
    subst htotal_size
    refine ⟨?_, hgaps.punch (le_of_lt htotal) start stop, saved, hsidecar, hsaved⟩
    simp only [Operation.apply, PartFile.punch]
    split <;> rfl
  | save =>
    exact ⟨htotal_size, hgaps, state.1.gaps, by rw [← htotal_size]; rfl, hgaps⟩
  | resume =>
    simp only [Operation.apply, resume_eq htotal hsidecar hsaved]
    exact ⟨rfl, hsaved, saved, hsidecar, hsaved⟩

theorem recorded_run (path : String) {total_size : Int} (htotal : 0 < total_size) (file : Bytes)
    (operations : List Operation) :
    Recorded total_size (history operations)
      (run ⟨path, total_size, [⟨0, total_size⟩]⟩ file operations) := by
  induction operations using List.reverseRecOn with
  | nil => exact ⟨rfl, faithful_new htotal, _, rfl, faithful_new htotal⟩
  | append_singleton operations operation ih =>
    rw [run, List.foldl_append]
    exact ih.apply htotal operation

/-- The gaps of a part file after any operations are canonical and cover the bytes whose last
effective operation in force is not a write. The operations in force are those since the last
`save`, of which opening is the first, that no `resume` undid, after those in force at that
`save`. -/
theorem part_file_gaps (path : String) {total_size : Int} (htotal : 0 < total_size) (file : Bytes)
    (operations : List Operation) :
    ∃ part, PartFile.new path total_size = .ok part ∧
      let state := run part file operations
      let missing := Missing total_size (in_force operations)
      Canonical state.1.gaps ∧
      (∀ gap ∈ state.1.gaps, 0 ≤ gap.start ∧ gap.stop ≤ total_size) ∧
      (∀ b, Covers state.1.gaps b ↔ 0 ≤ b ∧ b < total_size ∧ missing b) ∧
      state.1.remaining_bytes = ((Finset.Ico 0 total_size).filter missing).card ∧
      (state.1.is_complete = true ↔ ∀ b, 0 ≤ b → b < total_size → ¬ missing b) ∧
      (∀ start (data : Bytes), start < 0 ∨ start + data.length > total_size →
        (∃ message, state.1.write_block state.2 start data = .error (.PartFileError message)) ∧
        (Operation.write_block start data).apply state = state) ∧
      (run part file (operations ++ [.save, .resume])).1.gaps = state.1.gaps := by
  refine ⟨⟨path, total_size, [⟨0, total_size⟩]⟩, if_neg (by omega), ?_⟩
  intro state missing
  obtain ⟨htotal_size, hgaps, _⟩ := recorded_run path htotal file operations
  refine ⟨hgaps.canonical, hgaps.inside, hgaps.covers, ?_, ?_, ?_, ?_⟩
  · apply hgaps.canonical.sum_length
    intro x
    rw [Finset.mem_filter, Finset.mem_Ico, hgaps.covers, and_assoc]
    rfl
  · rw [PartFile.is_complete, List.isEmpty_iff]
    constructor
    · intro hempty b hstart hstop hmissing
      have hcovered := (hgaps.covers b).mpr ⟨hstart, hstop, hmissing⟩
      rw [hempty] at hcovered
      exact not_covers_nil b hcovered
    · intro hnone
      apply hgaps.canonical.ext canonical_nil
      intro x
      rw [hgaps.covers]
      simp only [not_covers_nil, iff_false]
      rintro ⟨hstart, hstop, hmissing⟩
      exact hnone x hstart hstop hmissing
  · intro start data houtside
    rw [← htotal_size] at houtside
    have hrejected : state.1.write_block state.2 start data = .error (.PartFileError
        s!"block outside file bounds: start={start}, bytes={data.length}") := if_pos houtside
    refine ⟨⟨_, hrejected⟩, ?_⟩
    rw [Operation.apply, hrejected]
  · have hsplit : operations ++ [.save, .resume] = (operations ++ [.save]) ++ [.resume] := by simp
    rw [hsplit]
    obtain ⟨_, hresumed, _⟩ :=
      recorded_run path htotal file ((operations ++ [.save]) ++ [.resume])
    rw [history_append, history_append] at hresumed
    apply hresumed.canonical.ext hgaps.canonical
    intro x
    rw [hresumed.covers, hgaps.covers]

theorem part_file_gaps_of_two_bytes :
    0 < (2 : Int) ∧ ∃ part, PartFile.new "a.part" 2 = .ok part ∧
      Canonical (run part [] [.write_block 0 [7], .save, .write_block 1 [8], .resume]).1.gaps := by
  obtain ⟨part, hnew, hcanonical, _⟩ := part_file_gaps "a.part" (by decide : 0 < (2 : Int)) []
    [.write_block 0 [7], .save, .write_block 1 [8], .resume]
  exact ⟨by decide, part, hnew, hcanonical⟩

/-- A `resume` brings back the gaps of the last `save`, although the byte was written. -/
theorem resume_reopens_unsaved_write :
    let operations := [Operation.write_block 0 [7], .resume]
    let state := run ⟨"a.part", 1, [⟨0, 1⟩]⟩ [] operations
    ¬ (Covers state.1.gaps 0 ↔ 0 ≤ (0 : Int) ∧ (0 : Int) < 1 ∧ Missing 1 operations 0) := by
  decide

end amuled.download
