import Mathlib.Algebra.Order.Ring.Int
import Mathlib.Data.Prod.Lex
import AmuleD.PyStr
import AmuleD.Sorting.Stable

open pystr sorting

namespace amuled.ipfilter

def DEFAULT_FILTER_LEVEL : Int := 127

/-- "invalid IPv4 address" and the text that it quotes. -/
structure IpFilterError where
  text : PyStr
  deriving DecidableEq

/-- One filtered address range with an access level; `stop` is the source's `end`. -/
structure IpRange where
  start : Int
  stop : Int
  level : Int
  description : PyStr
  deriving DecidableEq

def IpRange.contains (range : IpRange) (ip_int : Int) : Bool := range.start ≤ ip_int && ip_int ≤ range.stop

/-- The key that `__init__` sorts by. -/
def IpRange.key (range : IpRange) : ℤ ×ₗ ℤ := toLex (range.start, range.stop)

/-- An octet of `ipaddress.IPv4Address`: at most three ASCII digits without leading zeros. -/
def ipv4_octet (octet : PyStr) : Option Nat :=
  if octet ≠ [] ∧ octet.length ≤ 3 ∧ (octet.all fun point => 0x30 ≤ point && point ≤ 0x39) ∧
      (octet.length = 1 ∨ octet.head? ≠ some 0x30) then
    (unsigned octet).filter fun value => value ≤ 255
  else none

def join_octets (values : List Int) : Option Int :=
  match values with
  | [a, b, c, d] => some (a * 2 ^ 24 + b * 2 ^ 16 + c * 2 ^ 8 + d)
  | _ => none

/-- `int(ipaddress.IPv4Address(text))`. -/
def ipv4_address (text : PyStr) : Option Int :=
  ((split 0x2E text).mapM ipv4_octet).bind fun values => join_octets (values.map Int.ofNat)

/-- The four octets as `int` reads them, which pass where each is a byte. -/
def lenient_address (cleaned : PyStr) : Option Int :=
  ((split 0x2E cleaned).mapM int_of).bind fun values =>
    if values.all fun value => 0 ≤ value && value ≤ 255 then join_octets values else none

def _ip_to_int (text : PyStr) : Except IpFilterError Int :=
  match lenient_address (strip text) with
  | some ip_int => .ok ip_int
  | none =>
    match ipv4_address (strip text) with
    | some ip_int => .ok ip_int
    | none => .error ⟨text⟩

/-- What `match` takes for an address. -/
inductive Address where
  | int (ip : Int)
  | str (ip : PyStr)

def Address.ip_int : Address → Except IpFilterError Int
  | .int ip => .ok ip
  | .str ip => _ip_to_int ip

/-- Ordered set of filtered ranges with threshold matching. -/
structure IpFilter where
  _ranges : List IpRange

namespace IpFilter

def init (ranges : List IpRange) : IpFilter := ⟨sorted IpRange.key ranges⟩

/-- `match` of the source: the first range that contains the address. -/
def «match» (filter : IpFilter) (ip : Address) : Except IpFilterError (Option IpRange) := do
  let ip_int ← ip.ip_int
  .ok (filter._ranges.find? fun range => range.contains ip_int)

def is_filtered (filter : IpFilter) (ip : Address) (level_threshold : Int) : Except IpFilterError Bool := do
  let matched ← filter.match ip
  .ok (matched.any fun range => level_threshold ≤ range.level)

end IpFilter

section Filtered

variable {ranges : List IpRange} {ip : Address} {ip_int level_threshold : Int}

/-- Some range of the list contains the address at or above the threshold. -/
def InFilteredRange (ranges : List IpRange) (ip_int level_threshold : Int) : Prop :=
  ∃ range ∈ ranges, range.contains ip_int = true ∧ level_threshold ≤ range.level

/-- Where some range filters the address, each range around the address with a lower level comes
behind such a range: it starts later, or as early and ends later, or is the same and listed later. -/
def FilteredFirst (ranges : List IpRange) (ip_int level_threshold : Int) : Prop :=
  InFilteredRange ranges ip_int level_threshold →
    ∀ (j : Nat) (low : IpRange), ranges[j]? = some low → low.contains ip_int = true → low.level < level_threshold →
      ∃ (i : Nat) (high : IpRange), ranges[i]? = some high ∧ high.contains ip_int = true ∧
        level_threshold ≤ high.level ∧
        (high.start < low.start ∨
          high.start = low.start ∧ (high.stop < low.stop ∨ high.stop = low.stop ∧ i < j))

theorem key_lt_iff {a b : IpRange} : a.key < b.key ↔ a.start < b.start ∨ a.start = b.start ∧ a.stop < b.stop :=
  Prod.Lex.toLex_lt_toLex

theorem key_eq_iff {a b : IpRange} : a.key = b.key ↔ a.start = b.start ∧ a.stop = b.stop := by
  rw [IpRange.key, IpRange.key, toLex_inj, Prod.mk.injEq]

theorem is_filtered_of_ip_int (haddress : ip.ip_int = .ok ip_int) :
    (IpFilter.init ranges).is_filtered ip level_threshold =
      .ok (((sorted IpRange.key ranges).find? fun range => range.contains ip_int).any
        fun range => level_threshold ≤ range.level) := by
  rw [IpFilter.is_filtered, IpFilter.match, haddress]
  rfl

/-- The first range around the address is the only one that the filter judges. -/
theorem is_filtered_iff (ranges : List IpRange) (ip : Address) (level_threshold ip_int : Int)
    (haddress : ip.ip_int = .ok ip_int) :
    ((IpFilter.init ranges).is_filtered ip level_threshold = .ok true ↔
        InFilteredRange ranges ip_int level_threshold) ↔
      FilteredFirst ranges ip_int level_threshold := by
  rw [is_filtered_of_ip_int haddress, Except.ok.injEq]
  cases hfound : (sorted IpRange.key ranges).find? fun range => range.contains ip_int with
  | none =>
    have hnone : ¬InFilteredRange ranges ip_int level_threshold := by
      rintro ⟨range, hrange, hcontains, _⟩
      exact List.find?_eq_none.mp hfound range (mem_sorted.mpr hrange) hcontains
    simp only [Option.any_none, Bool.false_eq_true, hnone, true_iff]
    exact fun hsome => absurd hsome hnone
  | some matched =>
    have hmatched : matched.contains ip_int = true :=
      List.find?_some (p := fun range : IpRange => range.contains ip_int) hfound
    obtain ⟨i, hi, hfirst⟩ := find?_sorted_eq_some hfound
    rw [Option.any_some, decide_eq_true_iff]
    constructor
    · intro hiff hsome j low hj hlow hbelow
      have habove := hiff.mpr hsome
      refine ⟨i, matched, hi, hmatched, habove, ?_⟩
      have hne : i ≠ j := by
        rintro rfl
        rw [hi, Option.some.injEq] at hj
        rw [hj] at habove
        exact absurd hbelow (Int.not_lt.mpr habove)
      rcases hfirst j low hj hlow with hless | ⟨hequal, hle⟩
      · rcases key_lt_iff.mp hless with hstart | ⟨hstart, hstop⟩
        · exact Or.inl hstart
        · exact Or.inr ⟨hstart, Or.inl hstop⟩
      · obtain ⟨hstart, hstop⟩ := key_eq_iff.mp hequal
        exact Or.inr ⟨hstart, Or.inr ⟨hstop, Nat.lt_of_le_of_ne hle hne⟩⟩
    · intro hcondition
      constructor
      · exact fun habove => ⟨matched, List.mem_of_getElem? hi, hmatched, habove⟩
      · intro hsome
        by_contra hbelow
        obtain ⟨i', high, hi', hhigh, _, hbefore⟩ :=
          hcondition hsome i matched hi hmatched (Int.not_le.mp hbelow)
        rcases hfirst i' high hi' hhigh with hless | ⟨hequal, hle⟩
        · rcases key_lt_iff.mp hless with hstart | ⟨hstart, hstop⟩ <;> omega
        · obtain ⟨hstart, hstop⟩ := key_eq_iff.mp hequal
          omega

theorem is_filtered_iff_single :
    ((IpFilter.init [⟨0x0A000000, 0x0AFFFFFF, 200, []⟩]).is_filtered (.str (lit "010.1.2.3")) DEFAULT_FILTER_LEVEL =
        .ok true ↔ InFilteredRange [⟨0x0A000000, 0x0AFFFFFF, 200, []⟩] 0x0A010203 DEFAULT_FILTER_LEVEL) ↔
      FilteredFirst [⟨0x0A000000, 0x0AFFFFFF, 200, []⟩] 0x0A010203 DEFAULT_FILTER_LEVEL :=
  is_filtered_iff _ _ _ _ (by decide)

/-- A range at the threshold inside a wider one below it: the wider one hides it, also once it is
added behind it, and of one range twice the level that is listed first decides. -/
theorem is_filtered_nested :
    InFilteredRange [⟨0x0A000000, 0x0AFFFFFF, 100, []⟩, ⟨0x0A010000, 0x0A01FFFF, 200, []⟩] 0x0A010203
        DEFAULT_FILTER_LEVEL ∧
      (IpFilter.init [⟨0x0A000000, 0x0AFFFFFF, 100, []⟩, ⟨0x0A010000, 0x0A01FFFF, 200, []⟩]).is_filtered
        (.str (lit "10.1.2.3")) DEFAULT_FILTER_LEVEL = .ok false ∧
      (IpFilter.init [⟨0x0A010000, 0x0A01FFFF, 200, []⟩]).is_filtered (.str (lit "10.1.2.3"))
        DEFAULT_FILTER_LEVEL = .ok true ∧
      (IpFilter.init [⟨5, 5, 100, []⟩, ⟨5, 5, 200, []⟩]).is_filtered (.int 5) DEFAULT_FILTER_LEVEL = .ok false ∧
      (IpFilter.init [⟨5, 5, 200, []⟩, ⟨5, 5, 100, []⟩]).is_filtered (.int 5) DEFAULT_FILTER_LEVEL = .ok true := by
  refine ⟨⟨⟨0x0A010000, 0x0A01FFFF, 200, []⟩, by decide, by decide, by decide⟩, ?_, ?_, ?_, ?_⟩ <;> decide

end Filtered

end amuled.ipfilter
