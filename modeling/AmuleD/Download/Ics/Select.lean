import AmuleD.Dict
import AmuleD.Download.Ics.Block
import Mathlib.Data.Int.Bitwise

open intervals

namespace amuled.download.ics

/-- The nearest integer to a quotient, halves to the even one. -/
def round_half_even (numerator denominator : Nat) : Nat :=
  let quotient := numerator / denominator
  let remainder := numerator % denominator
  if 2 * remainder < denominator ∨ 2 * remainder = denominator ∧ quotient % 2 = 0 then quotient
  else quotient + 1

/-- Python's `math.ceil(a / b)`: the quotient is rounded to a double of 53 bits
before it is rounded up. -/
def math_ceil_div (numerator denominator : Nat) : Nat :=
  let magnitude := (numerator / denominator).log2
  if magnitude ≤ 52 then
    let scale := 2 ^ (52 - magnitude)
    (round_half_even (numerator * scale) denominator + scale - 1) / scale
  else
    let scale := 2 ^ (magnitude - 52)
    round_half_even numerator (denominator * scale) * scale

def part_count (total_size : Int) : Nat :=
  if total_size ≤ 0 then 1 else max 1 (math_ceil_div total_size.toNat PART_SIZE.toNat)

/-- The modes `CM_RELEASE_MODE`, `CM_SPREAD_MODE` and `CM_SHARE_MODE`. -/
inductive ChunkMode where
  | release
  | spread
  | share
  deriving DecidableEq, Repr

def CM_SPREAD_MINSRC : Int := 10

def CM_SHARE_MINSRC : Int := 25

def CM_MAX_SRC_CHUNK : Int := 3

def ics_mode (frequencies : List Int) (gap_parts : List Nat) : ChunkMode :=
  match (gap_parts.filterMap fun p => frequencies[p]?).min? with
  | none => .share
  | some min_src =>
    if min_src ≤ CM_SPREAD_MINSRC then .release
    else if min_src ≤ CM_SHARE_MINSRC then .spread
    else .share

/-- `_c_pref`; the source counts and the ordering it would pack into the low bits
are not tracked and zero. -/
def c_pref (mode : ChunkMode) (size2transfer parts_downloading gap_size : Int) : Int :=
  let combined := size2transfer + PART_SIZE * parts_downloading / CM_MAX_SRC_CHUNK
  let size2transfer_shifted := min (0xFFFF : Int) (combined >>> 8)
  let pref := match mode with
    | .release => size2transfer
    | .spread => size2transfer_shifted * 2 ^ 16
    | .share => size2transfer_shifted * 2 ^ 16
  if gap_size > 0 ∧ parts_downloading ≥ math_ceil_div (gap_size * 3).toNat PART_SIZE.toNat then
    Int.lor pref 0xFF000000
  else pref

/-- The variable `candidates` of `choose_part`: the parts it may choose, with their
preferences. -/
def candidates (available : List Nat) (frequencies : List Int) (gap_parts : List Nat)
    (gap_sizes downloading_counts : Dict Nat Int) : List (Nat × Int) :=
  gap_parts.filterMap fun p =>
    let gap_size := (gap_sizes.get p).getD 0
    if p ∈ available ∧ gap_size > 0 then
      some (p, c_pref (ics_mode frequencies gap_parts) (PART_SIZE - gap_size)
        ((downloading_counts.get p).getD 0) gap_size)
    else none

/-- `choose_part`. The random choice among the best parts is the index `tie`. -/
def choose_part (available : List Nat) (frequencies : List Int) (gap_parts : List Nat)
    (gap_sizes downloading_counts : Dict Nat Int) (last_part : Option Nat) (tie : Nat) :
    Option Nat :=
  let candidates := candidates available frequencies gap_parts gap_sizes downloading_counts
  match candidates.find? fun candidate => last_part = some candidate.1 with
  | some (p, _) => some p
  | none =>
    match (candidates.map Prod.snd).min? with
    | none => none
    | some min_pref =>
      let tied := (candidates.filter fun candidate => candidate.2 = min_pref).map Prod.fst
      tied[tie % tied.length]?

/-- The bytes of the gaps in one part. -/
def part_gap (total_size : Int) (gaps : List Range) (p : Nat) : Int :=
  let (p_start, p_end) := part_bounds p total_size
  (gaps.map fun (g_start, g_end) =>
    let ov_start := max g_start p_start
    let ov_end := min g_end p_end
    if ov_end ≥ ov_start then ov_end - ov_start + 1 else 0).sum

/-- The variables of the loop of `select_blocks`. -/
structure Selection where
  gap_parts : List Nat
  gap_sizes : Dict Nat Int
  last : Option Nat
  issued : List Range
  req : List Range

/-- The arguments of `select_blocks` that its loop only reads, with the random
choices it will make. -/
structure Catalog where
  total_size : Int
  gaps : List Range
  available : List Nat
  frequencies : List Int
  downloading_counts : Dict Nat Int
  ties : Nat → Nat

namespace Catalog

variable (catalog : Catalog)

/-- The body of the loop; `none` is the `break`. -/
def select_step (turn : Nat) (sel : Selection) : Option Selection :=
  match choose_part catalog.available catalog.frequencies sel.gap_parts sel.gap_sizes
      catalog.downloading_counts sel.last (catalog.ties turn) with
  | none => none
  | some chosen =>
    match next_block_in_part chosen catalog.total_size catalog.gaps sel.req with
    | none => some { sel with
        gap_sizes := sel.gap_sizes.erase chosen
        gap_parts := sel.gap_parts.erase chosen
        last := some chosen }
    | some block => some { sel with
        issued := sel.issued ++ [block]
        req := sel.req ++ [block]
        last := some chosen }

/-- The loop, with the iterations left to `max_blocks`. -/
def select_loop : Nat → Nat → Selection → Selection
  | 0, _, sel => sel
  | rounds + 1, turn, sel =>
    match catalog.select_step turn sel with
    | none => sel
    | some sel => select_loop rounds (turn + 1) sel

/-- The parts that have a gap. -/
def initial_gap_parts : List Nat :=
  (List.range (part_count catalog.total_size)).filter fun p =>
    let (p_start, p_end) := part_bounds p catalog.total_size
    decide (¬ p_end < p_start ∧ part_gap catalog.total_size catalog.gaps p > 0)

def initial (last_part : Option Nat) (requested : List Range) : Selection where
  gap_parts := catalog.initial_gap_parts
  gap_sizes := Dict.ofList (catalog.initial_gap_parts.map fun p =>
    (p, part_gap catalog.total_size catalog.gaps p))
  last := last_part
  issued := []
  req := requested

def select_blocks (last_part : Option Nat) (requested : List Range) (max_blocks : Nat) :
    List Range × Option Nat :=
  let sel := catalog.select_loop max_blocks 0 (catalog.initial last_part requested)
  if sel.issued = [] then ([], none) else (sel.issued, sel.last)

end Catalog

end amuled.download.ics
