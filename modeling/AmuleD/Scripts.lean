import Mathlib.Data.List.Infix
import Mathlib.Order.Lattice

/-! Scripts of statements that may break off and are begun again. -/

namespace scripts

variable {ι σ τ ε : Type}

/-- Runs the statements of a script in turn. One that fails changes nothing and ends the run. -/
def exec (run : ι → σ → Except ε σ) : List ι → σ → Except ε Unit × σ
  | [], state => (.ok (), state)
  | statement :: script, state =>
    match run statement state with
    | .error e => (.error e, state)
    | .ok next => exec run script next

section Exec

variable {run : ι → σ → Except ε σ} {script front back : List ι} {state next final : σ}

theorem exec_cons_ok {statement : ι} (hrun : run statement state = .ok next) :
    exec run (statement :: script) state = exec run script next := by
  rw [exec, hrun]

theorem exec_append_eq (front back : List ι) (state : σ) : exec run (front ++ back) state =
    match exec run front state with
    | (.error e, after) => (.error e, after)
    | (.ok _, after) => exec run back after := by
  induction front generalizing state with
  | nil => rfl
  | cons statement front ih =>
    rw [List.cons_append, exec, exec]
    cases run statement state with
    | error e => rfl
    | ok next => exact ih next

theorem exec_of_done (hdone : ∀ statement ∈ script, run statement state = .ok state) :
    exec run script state = (.ok (), state) := by
  induction script with
  | nil => rfl
  | cons statement script ih =>
    rw [exec_cons_ok (hdone statement List.mem_cons_self)]
    exact ih fun other hother => hdone other (List.mem_cons_of_mem statement hother)

theorem exec_append (hfront : exec run front state = (.ok (), next)) :
    exec run (front ++ back) state = exec run back next := by
  rw [exec_append_eq, hfront]

/-- What a script that succeeds runs first succeeds as well. -/
theorem exists_of_exec_append (hall : exec run (front ++ back) state = (.ok (), final)) :
    ∃ next, exec run front state = (.ok (), next) ∧ exec run back next = (.ok (), final) := by
  induction front generalizing state with
  | nil => exact ⟨state, rfl, hall⟩
  | cons statement front ih =>
    cases hrun : run statement state with
    | error e =>
      rw [List.cons_append, exec, hrun] at hall
      cases hall
    | ok after =>
      rw [List.cons_append, exec_cons_ok hrun] at hall
      obtain ⟨next, hfront, hback⟩ := ih hall
      exact ⟨next, (exec_cons_ok hrun).trans hfront, hback⟩

/-- What every statement keeps holds after a script. -/
theorem exec_keeps {kept : σ → Prop}
    (hkeeps : ∀ statement state next, run statement state = .ok next → kept state → kept next)
    (script : List ι) (hkept : kept state) : kept (exec run script state).2 := by
  induction script generalizing state with
  | nil => exact hkept
  | cons statement script ih =>
    rw [exec]
    cases hrun : run statement state with
    | error e => exact hkept
    | ok next => exact ih (hkeeps statement state next hrun hkept)

/-- Where each statement does to the image of a state what it does to the state, so does a script. -/
theorem exec_map {run' : ι → τ → Except ε τ} {image : σ → τ}
    (hmap : ∀ statement state, run' statement (image state) = (run statement state).map image)
    (script : List ι) (state : σ) :
    exec run' script (image state) = ((exec run script state).1, image (exec run script state).2) := by
  induction script generalizing state with
  | nil => rfl
  | cons statement script ih =>
    rw [exec, exec, hmap]
    cases run statement state with
    | error e => rfl
    | ok next => exact ih next

end Exec

/-- Statements with what they bring about: where it is there already they change nothing, and no statement undoes
what another one did. -/
structure Resumable (run : ι → σ → Except ε σ) (done : ι → σ → Prop) : Prop where
  unchanged : ∀ statement state, done statement state → run statement state = .ok state
  makes : ∀ statement state next, run statement state = .ok next → done statement next
  keeps : ∀ other statement state next, run statement state = .ok next → done other state → done other next

namespace Resumable

variable {run : ι → σ → Except ε σ} {done : ι → σ → Prop} {front part back : List ι} {state next : σ}

theorem exec_done (h : Resumable run done) (hdone : ∀ statement ∈ part, done statement state) :
    exec run part state = (.ok (), state) :=
  exec_of_done fun statement hmem => h.unchanged statement state (hdone statement hmem)

theorem done_exec (h : Resumable run done) (hfront : exec run front state = (.ok (), next)) :
    ∀ statement ∈ front, done statement next := by
  induction front generalizing state with
  | nil => simp
  | cons statement front ih =>
    cases hrun : run statement state with
    | error e =>
      rw [exec, hrun] at hfront
      cases hfront
    | ok after =>
      rw [exec_cons_ok hrun] at hfront
      intro other hother
      rcases List.mem_cons.mp hother with rfl | hlater
      · have hkept : done other (exec run front after).2 :=
          exec_keeps (h.keeps other) front (h.makes _ _ _ hrun)
        rw [hfront] at hkept
        exact hkept
      · exact ih hfront other hlater

/-- A script that is begun again at a statement that was run already, and that breaks off in turn, leaves what it
would have left without the first interruption. -/
theorem exec_take_again (h : Resumable run done) (hfront : exec run front state = (.ok (), next)) (hpart : part ⊆ front)
    (count : Nat) : exec run ((part ++ back).take count) next = exec run (back.take (count - part.length)) next := by
  have hdone : ∀ statement ∈ part.take count, done statement next := by
    intro statement hmem
    exact h.done_exec hfront statement (hpart (List.mem_of_mem_take hmem))
  rw [List.take_append, exec_append (h.exec_done hdone)]

theorem exec_again (h : Resumable run done) (hfront : exec run front state = (.ok (), next)) (hpart : part ⊆ front) :
    exec run (part ++ back) next = exec run back next := by
  have hdone : ∀ statement ∈ part, done statement next :=
    fun statement hmem => h.done_exec hfront statement (hpart hmem)
  rw [exec_append (h.exec_done hdone)]

end Resumable

/-- The statements of numbered blocks, one block behind the other. -/
def ofBlocks (blocks : List (Nat × List ι)) : List ι := blocks.flatMap Prod.snd

section Blocks

variable (mark : ι → Option Nat)

/-- The highest number that a list of statements enters. -/
def latest (statements : List ι) : Nat := (statements.filterMap mark).foldr max 0

/-- The last statement of a block, and no other one, enters its number. -/
def Marked (block : Nat × List ι) : Prop :=
  ∃ body last, block.2 = body ++ [last] ∧ mark last = some block.1 ∧ ∀ statement ∈ body, mark statement = none

variable {mark} {block : Nat × List ι} {blocks : List (Nat × List ι)} {front statements : List ι}

theorem latest_append (front back : List ι) :
    latest mark (front ++ back) = max (latest mark front) (latest mark back) := by
  induction front with
  | nil => simp [latest]
  | cons statement front ih =>
    simp only [latest, List.cons_append, List.filterMap_cons] at ih ⊢
    cases mark statement with
    | none => exact ih
    | some number =>
      rw [List.foldr_cons, List.foldr_cons, ih, max_assoc]

theorem latest_eq_zero (hnone : ∀ statement ∈ statements, mark statement = none) : latest mark statements = 0 := by
  rw [latest, List.filterMap_eq_nil_iff.mpr hnone]
  rfl

theorem Marked.latest (hmarked : Marked mark block) : latest mark block.2 = block.1 := by
  obtain ⟨body, last, hblock, hlast, hbody⟩ := hmarked
  have hone : scripts.latest mark [last] = block.1 := by simp [scripts.latest, hlast]
  rw [hblock, latest_append, latest_eq_zero hbody, hone, Nat.zero_max]

theorem marked_of_map {count : Nat} (hmap : block.2.map mark = List.replicate count none ++ [some block.1]) :
    Marked mark block := by
  obtain ⟨body, lasts, hblock, hbody, hlasts⟩ := List.map_eq_append_iff.mp hmap
  obtain ⟨last, rfl, hlast⟩ := List.map_eq_singleton_iff.mp hlasts
  refine ⟨body, last, hblock, hlast, fun statement hmem => ?_⟩
  have hnone : mark statement ∈ List.replicate count none := hbody ▸ List.mem_map_of_mem hmem
  exact List.eq_of_mem_replicate hnone

/-- What comes before the end of a block enters no number. -/
theorem Marked.of_proper (hmarked : Marked mark block) (hfront : front <+: block.2) (hproper : front ≠ block.2) :
    scripts.latest mark front = 0 := by
  obtain ⟨body, last, hblock, -, hbody⟩ := hmarked
  rw [hblock] at hfront hproper
  rcases List.prefix_concat_iff.mp hfront with hwhole | hearlier
  · exact absurd hwhole hproper
  · exact latest_eq_zero fun statement hmem => hbody statement (hearlier.subset hmem)

/-- Sorted blocks are those up to a number and then those behind it. -/
theorem ofBlocks_filter (hsorted : blocks.Pairwise fun first second => first.1 < second.1) (number : Nat) :
    ofBlocks (blocks.filter fun block => block.1 ≤ number) ++ ofBlocks (blocks.filter fun block => number < block.1) =
      ofBlocks blocks := by
  induction blocks with
  | nil => rfl
  | cons block blocks ih =>
    obtain ⟨hlater, hrest⟩ := List.pairwise_cons.mp hsorted
    have hcons : ∀ others : List (Nat × List ι), ofBlocks (block :: others) = block.2 ++ ofBlocks others := fun _ => rfl
    by_cases hle : block.1 ≤ number
    · rw [List.filter_cons_of_pos (by simpa using hle), List.filter_cons_of_neg (by simpa using hle), hcons, hcons,
        List.append_assoc, ih hrest]
    · have hnone : blocks.filter (fun other => decide (other.1 ≤ number)) = [] := by
        rw [List.filter_eq_nil_iff]
        intro other hother
        have := hlater other hother
        simp only [decide_eq_true_eq]
        omega
      have hall : blocks.filter (fun other => decide (number < other.1)) = blocks := by
        rw [List.filter_eq_self]
        intro other hother
        have := hlater other hother
        simp only [decide_eq_true_eq]
        omega
      rw [List.filter_cons_of_neg (by simpa using hle), List.filter_cons_of_pos (by simpa using hle), hnone, hall]
      rfl

/-- The highest number that was entered tells which blocks were run to their end. -/
theorem exists_part {base : Nat} (hbase : ∀ block ∈ blocks, base < block.1)
    (hsorted : blocks.Pairwise fun first second => first.1 < second.1) (hmarked : ∀ block ∈ blocks, Marked mark block)
    (hfront : front <+: ofBlocks blocks) :
    ∃ part, front = ofBlocks (blocks.filter fun block => block.1 ≤ max base (latest mark front)) ++ part := by
  induction blocks generalizing base front with
  | nil => exact ⟨front, rfl⟩
  | cons block blocks ih =>
    have hblock := hbase block List.mem_cons_self
    obtain ⟨hlater, hrest⟩ := List.pairwise_cons.mp hsorted
    have hmark := hmarked block List.mem_cons_self
    by_cases hin : front <+: block.2 ∧ front ≠ block.2
    · -- the first block was not run to its end
      have hnone : (block :: blocks).filter (fun other => decide (other.1 ≤ base)) = [] := by
        rw [List.filter_eq_nil_iff]
        intro other hother
        have := hbase other hother
        simp only [decide_eq_true_eq]
        omega
      refine ⟨front, ?_⟩
      rw [hmark.of_proper hin.1 hin.2, Nat.max_zero, hnone]
      rfl
    · have hover : block.2 <+: front := by
        rcases List.prefix_or_prefix_of_prefix hfront (List.prefix_append block.2 (ofBlocks blocks)) with hless | hmore
        · by_cases hsame : front = block.2
          · exact hsame ▸ List.prefix_rfl
          · exact absurd ⟨hless, hsame⟩ hin
        · exact hmore
      obtain ⟨further, rfl⟩ := hover
      have hscript : ofBlocks (block :: blocks) = block.2 ++ ofBlocks blocks := rfl
      rw [hscript, List.prefix_append_right_inj] at hfront
      obtain ⟨part, hpart⟩ :=
        ih hlater hrest (fun other hother => hmarked other (List.mem_cons_of_mem block hother)) hfront
      have hnumber : max base (latest mark (block.2 ++ further)) = max block.1 (latest mark further) := by
        rw [latest_append, hmark.latest]
        omega
      refine ⟨part, ?_⟩
      rw [hnumber, List.filter_cons_of_pos (by simp)]
      calc block.2 ++ further
          = block.2 ++
              (ofBlocks (blocks.filter fun other => decide (other.1 ≤ max block.1 (latest mark further))) ++ part) := by
            rw [← hpart]
        _ = _ := by
            rw [← List.append_assoc]
            rfl

end Blocks

end scripts
