import AmuleD.Fields
import AmuleD.Security.IpFilter

open pystr sorting

namespace amuled.ipfilter

/-- The `IpFilterError` of a line, with the text that its message quotes. -/
inductive LineError where
  | too_few_fields (line : PyStr)
  | level (text : PyStr)
  | cidr (range_text : PyStr)
  | address (error : IpFilterError)
  | start_exceeds_end (range_text : PyStr)
  deriving DecidableEq

/-- `isascii() and isdigit()`. -/
def ascii_digits (text : PyStr) : Bool := text ≠ [] && text.all fun point => 0x30 ≤ point && point < 0x3A

/-- The length of a netmask that is written as one. -/
def _prefix_from_prefix_string (text : PyStr) : Option Nat :=
  if ascii_digits text then (unsigned text).filter fun prefixlen => prefixlen ≤ 32 else none

/-- The ones of a netmask, if no zero stands before one of them. -/
def _prefix_from_ip_int (ip_int : Int) : Option Nat :=
  (List.range 33).find? fun prefixlen => ip_int = 2 ^ 32 - 2 ^ (32 - prefixlen)

/-- The length of a netmask, or else of a host mask, that is written as an address. -/
def _prefix_from_ip_string (text : PyStr) : Option Nat := do
  let ip_int ← ipv4_address text
  match _prefix_from_ip_int ip_int with
  | some prefixlen => some prefixlen
  | none => _prefix_from_ip_int (2 ^ 32 - 1 - ip_int)

def _make_netmask (mask : PyStr) : Option Nat :=
  match _prefix_from_prefix_string mask with
  | some prefixlen => some prefixlen
  | none => _prefix_from_ip_string mask

/-- The first and the last address of a block of addresses. -/
def block (packed : Int) (prefixlen : Nat) : Int × Int :=
  (packed - packed % 2 ^ (32 - prefixlen), packed - packed % 2 ^ (32 - prefixlen) + (2 ^ (32 - prefixlen) - 1))

/-- The ends of `ipaddress.IPv4Network(range_text, strict=False)`. -/
def ipv4_network (range_text : PyStr) : Option (Int × Int) :=
  match split 0x2F range_text with
  | [address] => (ipv4_address address).map fun packed => block packed 32
  | [address, mask] => (ipv4_address address).bind fun packed => (_make_netmask mask).map (block packed)
  | _ => none

def address_of (text : PyStr) : Except LineError Int :=
  match _ip_to_int text with
  | .ok ip_int => .ok ip_int
  | .error error => .error (.address error)

/-- The range of one or two addresses. -/
def address_range (range_text : PyStr) (level : Int) (description : PyStr) : Except LineError (Option IpRange) := do
  let (start, stop) ←
    if 0x2D ∈ range_text then do
      let start ← address_of (range_text.takeWhile fun point => point ≠ 0x2D)
      let stop ← address_of (range_text.dropWhile fun point => point ≠ 0x2D).tail
      .ok (start, stop)
    else do
      let start ← address_of range_text
      .ok (start, start)
  if stop < start then .error (.start_exceeds_end range_text) else .ok (some ⟨start, stop, level, description⟩)

/-- The range of a line whose level was read. -/
def parse_range (range_text : PyStr) (level : Int) (description : PyStr) : Except LineError (Option IpRange) :=
  if 0x2F ∈ range_text then
    match ipv4_network range_text with
    | none => .error (.cidr range_text)
    | some (start, stop) => .ok (some ⟨start, stop, level, description⟩)
  else address_range range_text level description

def _parse_line (raw : PyStr) : Except LineError (Option IpRange) :=
  let line := strip raw
  if line = [] ∨ line.head? = some 0x23 then .ok none
  else
    match (split 0x2C line).map strip with
    | range_text :: level_text :: rest =>
      match int_of level_text with
      | none => .error (.level level_text)
      | some level => parse_range range_text level (rest.headD [])
    | _ => .error (.too_few_fields line)

/-- One turn of the loop over the lines: the ranges so far and the count of skipped lines. -/
def load_line (loaded : List IpRange × Nat) (raw : PyStr) : List IpRange × Nat :=
  match _parse_line raw with
  | .error _ => (loaded.1, loaded.2 + 1)
  | .ok none => loaded
  | .ok (some range) => (loaded.1 ++ [range], loaded.2)

/-- The filter of the lines that the file yields. -/
def load_ipfilter_file (lines : List PyStr) : IpFilter := .init (lines.foldl load_line ([], 0)).1

/-- Four numbers between dots, each of them a byte, as `int` reads them. -/
def ReadsAddress (text : PyStr) (ip_int : Int) : Prop :=
  ∃ a b c d : PyStr, ∃ first second third fourth : Int,
    text = a ++ 0x2E :: (b ++ 0x2E :: (c ++ 0x2E :: d)) ∧
    (int_of a = some first ∧ int_of b = some second ∧ int_of c = some third ∧ int_of d = some fourth) ∧
    ((0 ≤ first ∧ first ≤ 255) ∧ (0 ≤ second ∧ second ≤ 255) ∧ (0 ≤ third ∧ third ≤ 255) ∧
      (0 ≤ fourth ∧ fourth ≤ 255)) ∧
    ip_int = first * 2 ^ 24 + second * 2 ^ 16 + third * 2 ^ 8 + fourth

/-- The ranges that are read: two addresses around the first dash, one address, or a block as `ipaddress` reads it. -/
inductive ReadableRange : PyStr → Int → Int → Prop where
  | two {left right : PyStr} {start stop : Int} (hslash : 0x2F ∉ left ++ 0x2D :: right) (hdash : 0x2D ∉ left)
      (hleft : ReadsAddress (strip left) start) (hright : ReadsAddress (strip right) stop) (hle : start ≤ stop) :
      ReadableRange (left ++ 0x2D :: right) start stop
  | single {text : PyStr} {ip_int : Int} (hslash : 0x2F ∉ text) (hdash : 0x2D ∉ text)
      (htext : ReadsAddress (strip text) ip_int) : ReadableRange text ip_int ip_int
  | block {address mask : PyStr} {packed : Int} {prefixlen : Nat} (haddress_slash : 0x2F ∉ address)
      (hmask_slash : 0x2F ∉ mask) (haddress : ipv4_address address = some packed)
      (hmask : _make_netmask mask = some prefixlen) :
      ReadableRange (address ++ 0x2F :: mask) (block packed prefixlen).1 (block packed prefixlen).2

/-- What may follow the level, and the description that it gives. -/
inductive Described : PyStr → PyStr → Prop where
  | missing : Described [] []
  | last {field : PyStr} (hcomma : 0x2C ∉ field) : Described (0x2C :: field) (strip field)
  | more {field after : PyStr} (hcomma : 0x2C ∉ field) : Described (0x2C :: (field ++ 0x2C :: after)) (strip field)

/-- A line of a range, a level that `int` reads and maybe a description, which is no comment. -/
def ReadableLine (raw : PyStr) (range : IpRange) : Prop :=
  ∃ range_field level_field rest, strip raw = range_field ++ 0x2C :: (level_field ++ rest) ∧
    (strip raw).head? ≠ some 0x23 ∧ 0x2C ∉ range_field ∧ 0x2C ∉ level_field ∧
    ReadableRange (strip range_field) range.start range.stop ∧ int_of (strip level_field) = some range.level ∧
    Described rest range.description

section Addresses

theorem not_mem_of_int_of {separator : Nat} (hseparator : separator = 0x2C ∨ separator = 0x2E ∨ separator = 0x2F)
    {text : PyStr} {number : Int} (htext : int_of text = some number) : separator ∉ text := by
  intro hmem
  have hall := mem_int_of htext hmem
  have hnone : ∀ point ∈ [0x2C, 0x2E, 0x2F], ¬(int_isspace point = true ∨ point ∈ [0x2B, 0x2D, 0x5F] ∨
      (decimal point).isSome) := by decide
  exact hnone separator (by simpa using hseparator) hall

theorem lenient_address_eq_some_iff {text : PyStr} {ip_int : Int} :
    lenient_address text = some ip_int ↔ ReadsAddress text ip_int := by
  constructor
  · intro haddress
    rw [lenient_address] at haddress
    obtain ⟨values, hvalues, hjoin⟩ := Option.bind_eq_some_iff.mp haddress
    split_ifs at hjoin with hbytes
    match values, hjoin with
    | [first, second, third, fourth], hjoin =>
      simp only [mapM_eq_some_cons, mapM_eq_some_nil] at hvalues
      obtain ⟨a, _, hsplit, ha, b, _, rfl, hb, c, _, rfl, hc, d, _, rfl, hd, rfl⟩ := hvalues
      obtain ⟨_, after_a, htext, hsplit_a⟩ := split_eq_cons_cons_iff.mp hsplit
      obtain ⟨_, after_b, rfl, hsplit_b⟩ := split_eq_cons_cons_iff.mp hsplit_a
      obtain ⟨_, after_c, rfl, hsplit_c⟩ := split_eq_cons_cons_iff.mp hsplit_b
      obtain ⟨rfl, _⟩ := split_eq_singleton_iff.mp hsplit_c
      rw [join_octets, Option.some.injEq] at hjoin
      refine ⟨a, b, c, _, first, second, third, fourth, htext, ⟨ha, hb, hc, hd⟩, ?_, hjoin.symm⟩
      simpa using hbytes
  · rintro ⟨a, b, c, d, first, second, third, fourth, rfl, ⟨ha, hb, hc, hd⟩, hbytes, rfl⟩
    have hsplit : split 0x2E (a ++ 0x2E :: (b ++ 0x2E :: (c ++ 0x2E :: d))) = [a, b, c, d] := by
      have hdot : ∀ {text : PyStr} {number : Int}, int_of text = some number → 0x2E ∉ text :=
        fun htext => not_mem_of_int_of (by decide) htext
      rw [split_append_cons (hdot ha), split_append_cons (hdot hb), split_append_cons (hdot hc),
        split_of_not_mem (hdot hd)]
    rw [lenient_address, hsplit]
    simp [ha, hb, hc, hd, hbytes, join_octets]

/-- An octet that `ipaddress` reads is read by `int` too. -/
theorem int_of_ipv4_octet {octet : PyStr} {value : Nat} (hoctet : ipv4_octet octet = some value) :
    int_of octet = some (value : Int) ∧ value ≤ 255 := by
  rw [ipv4_octet] at hoctet
  split_ifs at hoctet with hform
  obtain ⟨hvalue, hle⟩ := Option.filter_eq_some_iff.mp hoctet
  have hdigits : ∀ point ∈ octet, 0x30 ≤ point ∧ point < 0x3A := by
    intro point hpoint
    have hrange := List.all_eq_true.mp hform.2.2.1 point hpoint
    rw [Bool.and_eq_true, decide_eq_true_iff, decide_eq_true_iff] at hrange
    omega
  rw [int_of_digits hform.1 hdigits, hvalue]
  exact ⟨rfl, of_decide_eq_true hle⟩

theorem mapM_ipv4_octet {octets : List PyStr} {values : List Nat} (hvalues : octets.mapM ipv4_octet = some values) :
    octets.mapM int_of = some (values.map Int.ofNat) ∧ ∀ value ∈ values, value ≤ 255 := by
  induction octets generalizing values with
  | nil =>
    rw [List.mapM_nil, Option.pure_def, Option.some.injEq] at hvalues
    rw [← hvalues]
    exact ⟨rfl, by simp⟩
  | cons octet rest ih =>
    cases values with
    | nil => exact absurd (mapM_eq_some_nil.mp hvalues) (List.cons_ne_nil _ _)
    | cons value values =>
      obtain ⟨_, _, hcons, hvalue, hvalues⟩ := mapM_eq_some_cons.mp hvalues
      rw [List.cons.injEq] at hcons
      obtain ⟨rfl, rfl⟩ := hcons
      obtain ⟨hint, hle⟩ := int_of_ipv4_octet hvalue
      obtain ⟨hrest, hbytes⟩ := ih hvalues
      exact ⟨mapM_eq_some_cons.mpr ⟨_, _, rfl, hint, hrest⟩, List.forall_mem_cons.mpr ⟨hle, hbytes⟩⟩

/-- The second reading of an address adds nothing to the first. -/
theorem lenient_of_ipv4_address {text : PyStr} {ip_int : Int} (haddress : ipv4_address text = some ip_int) :
    lenient_address text = some ip_int := by
  rw [ipv4_address] at haddress
  obtain ⟨values, hvalues, hjoin⟩ := Option.bind_eq_some_iff.mp haddress
  obtain ⟨hint, hbytes⟩ := mapM_ipv4_octet hvalues
  have hall : ((values.map Int.ofNat).all fun value => 0 ≤ value && value ≤ 255) = true := by
    rw [List.all_eq_true]
    intro value hvalue
    obtain ⟨number, hnumber, rfl⟩ := List.mem_map.mp hvalue
    have hle := hbytes number hnumber
    simp only [Int.ofNat_eq_natCast, Bool.and_eq_true, decide_eq_true_eq]
    omega
  rw [lenient_address, hint, Option.bind_some, if_pos hall, hjoin]

theorem _ip_to_int_eq_ok_iff {text : PyStr} {ip_int : Int} :
    _ip_to_int text = .ok ip_int ↔ ReadsAddress (strip text) ip_int := by
  rw [← lenient_address_eq_some_iff, _ip_to_int]
  cases hlenient : lenient_address (strip text) with
  | some found => simp
  | none =>
    cases hstrict : ipv4_address (strip text) with
    | some found => rw [lenient_of_ipv4_address hstrict] at hlenient; cases hlenient
    | none => simp

theorem address_of_eq_ok_iff {text : PyStr} {ip_int : Int} :
    address_of text = .ok ip_int ↔ ReadsAddress (strip text) ip_int := by
  rw [← _ip_to_int_eq_ok_iff, address_of]
  cases _ip_to_int text <;> simp

end Addresses

section Ranges

variable {left right text address mask description : PyStr} {start stop level : Int} {found : Option IpRange}

theorem readable_two_iff (hslash : 0x2F ∉ left ++ 0x2D :: right) (hdash : 0x2D ∉ left) :
    ReadableRange (left ++ 0x2D :: right) start stop ↔
      ReadsAddress (strip left) start ∧ ReadsAddress (strip right) stop ∧ start ≤ stop := by
  constructor
  · intro hrange
    generalize htext : left ++ 0x2D :: right = text at hrange
    cases hrange with
    | two hslash' hdash' hleft hright hle =>
      obtain ⟨htaken, hdropped⟩ := partition_append_cons hdash right
      rw [htext, (partition_append_cons hdash' _).1] at htaken
      rw [htext, (partition_append_cons hdash' _).2, List.cons.injEq] at hdropped
      rw [← htaken, ← hdropped.2]
      exact ⟨hleft, hright, hle⟩
    | single hslash' hdash' htext' =>
      rw [← htext] at hdash'
      exact absurd (List.mem_append_right left List.mem_cons_self) hdash'
    | block haddress_slash hmask_slash haddress hmask =>
      rw [htext] at hslash
      exact absurd (List.mem_append_right _ List.mem_cons_self) hslash
  · rintro ⟨hleft, hright, hle⟩
    exact .two hslash hdash hleft hright hle

theorem readable_single_iff (hslash : 0x2F ∉ text) (hdash : 0x2D ∉ text) :
    ReadableRange text start stop ↔ ReadsAddress (strip text) start ∧ stop = start := by
  constructor
  · intro hrange
    cases hrange with
    | two => exact absurd (List.mem_append_right _ List.mem_cons_self) hdash
    | single _ _ htext => exact ⟨htext, rfl⟩
    | block => exact absurd (List.mem_append_right _ List.mem_cons_self) hslash
  · rintro ⟨htext, rfl⟩
    exact .single hslash hdash htext

theorem readable_block_iff (haddress_slash : 0x2F ∉ address) :
    ReadableRange (address ++ 0x2F :: mask) start stop ↔ 0x2F ∉ mask ∧ ∃ packed prefixlen,
      ipv4_address address = some packed ∧ _make_netmask mask = some prefixlen ∧
        (start, stop) = block packed prefixlen := by
  constructor
  · intro hrange
    generalize htext : address ++ 0x2F :: mask = text at hrange
    cases hrange with
    | two hslash =>
      rw [← htext] at hslash
      exact absurd (List.mem_append_right _ List.mem_cons_self) hslash
    | single hslash =>
      rw [← htext] at hslash
      exact absurd (List.mem_append_right _ List.mem_cons_self) hslash
    | block haddress_slash' hmask_slash haddress hmask =>
      obtain ⟨htaken, hdropped⟩ := partition_append_cons haddress_slash mask
      rw [htext, (partition_append_cons haddress_slash' _).1] at htaken
      rw [htext, (partition_append_cons haddress_slash' _).2, List.cons.injEq] at hdropped
      rw [← htaken, ← hdropped.2]
      exact ⟨hmask_slash, _, _, haddress, hmask, rfl⟩
  · rintro ⟨hmask_slash, packed, prefixlen, haddress, hmask, hends⟩
    rw [Prod.mk.injEq] at hends
    rw [hends.1, hends.2]
    exact .block haddress_slash hmask_slash haddress hmask

theorem address_range_two (hdash : 0x2D ∉ left) :
    address_range (left ++ 0x2D :: right) level description = (address_of left).bind fun start =>
      (address_of right).bind fun stop =>
        if stop < start then .error (.start_exceeds_end (left ++ 0x2D :: right))
        else .ok (some ⟨start, stop, level, description⟩) := by
  obtain ⟨htaken, hdropped⟩ := partition_append_cons hdash right
  rw [address_range, if_pos (List.mem_append_right left List.mem_cons_self), htaken, hdropped, List.tail_cons]
  cases address_of left with
  | error error => rfl
  | ok start =>
    cases address_of right with
    | error error => rfl
    | ok stop => rfl

theorem address_range_single (hdash : 0x2D ∉ text) :
    address_range text level description =
      (address_of text).bind fun start => .ok (some ⟨start, start, level, description⟩) := by
  rw [address_range, if_neg hdash]
  cases address_of text with
  | error error => rfl
  | ok start => exact if_neg (lt_irrefl start)

theorem address_range_eq_ok_iff (hslash : 0x2F ∉ text) :
    address_range text level description = .ok found ↔
      ∃ start stop, ReadableRange text start stop ∧ found = some ⟨start, stop, level, description⟩ := by
  by_cases hmem : 0x2D ∈ text
  · obtain ⟨left, right, rfl, hdash⟩ := List.eq_append_cons_of_mem hmem
    simp only [address_range_two hdash, readable_two_iff hslash hdash, ← address_of_eq_ok_iff]
    cases address_of left with
    | error error => simp [Except.bind]
    | ok start =>
      cases address_of right with
      | error error => simp [Except.bind]
      | ok stop =>
        by_cases hlt : stop < start
        · simp [Except.bind, hlt, Int.not_le.mpr hlt]
        · simp [Except.bind, hlt, Int.not_lt.mp hlt, eq_comm]
  · simp only [address_range_single hmem, readable_single_iff hslash hmem, ← address_of_eq_ok_iff]
    cases address_of text with
    | error error => simp [Except.bind]
    | ok start => simp [Except.bind, eq_comm]

theorem ipv4_network_eq_some_iff (haddress_slash : 0x2F ∉ address) :
    ipv4_network (address ++ 0x2F :: mask) = some (start, stop) ↔ ReadableRange (address ++ 0x2F :: mask) start stop := by
  rw [readable_block_iff haddress_slash, ipv4_network, split_append_cons haddress_slash]
  by_cases hmask_slash : 0x2F ∈ mask
  · obtain ⟨before, after, rfl, hbefore⟩ := List.eq_append_cons_of_mem hmask_slash
    rw [split_append_cons hbefore]
    obtain ⟨first, others, hsplit⟩ := List.exists_cons_of_ne_nil (List.splitOn_ne_nil 0x2F after)
    rw [split, hsplit]
    simp
  · rw [split_of_not_mem hmask_slash]
    simp only [hmask_slash, not_false_iff, true_and, Option.bind_eq_some_iff, Option.map_eq_some_iff]
    constructor
    · rintro ⟨packed, haddress, prefixlen, hmask, hends⟩
      exact ⟨packed, prefixlen, haddress, hmask, hends.symm⟩
    · rintro ⟨packed, prefixlen, haddress, hmask, hends⟩
      exact ⟨packed, haddress, prefixlen, hmask, hends.symm⟩

theorem parse_range_eq_ok_iff : parse_range text level description = .ok found ↔
    ∃ start stop, ReadableRange text start stop ∧ found = some ⟨start, stop, level, description⟩ := by
  rw [parse_range]
  split_ifs with hslash
  · obtain ⟨address, mask, rfl, haddress_slash⟩ := List.eq_append_cons_of_mem hslash
    simp only [← ipv4_network_eq_some_iff haddress_slash]
    cases ipv4_network (address ++ 0x2F :: mask) with
    | none => simp
    | some ends =>
      obtain ⟨start, stop⟩ := ends
      simp [eq_comm]
  · exact address_range_eq_ok_iff hslash

end Ranges

section Lines

variable {raw range_field level_field rest text : PyStr} {more : List PyStr}

theorem described_iff {after description : PyStr} :
    Described (0x2C :: after) description ↔ description = strip ((split 0x2C after).headD []) := by
  constructor
  · intro hdescribed
    cases hdescribed with
    | last hcomma => rw [split_of_not_mem hcomma, List.headD_cons]
    | more hcomma => rw [split_append_cons hcomma, List.headD_cons]
  · rintro rfl
    by_cases hmem : 0x2C ∈ after
    · obtain ⟨field, later, rfl, hcomma⟩ := List.eq_append_cons_of_mem hmem
      rw [split_append_cons hcomma, List.headD_cons]
      exact .more hcomma
    · rw [split_of_not_mem hmem, List.headD_cons]
      exact .last hmem

theorem parse_line_eq (hblank : strip raw ≠ []) (hcomment : (strip raw).head? ≠ some 0x23)
    (hfields : split 0x2C (strip raw) = range_field :: level_field :: more) :
    _parse_line raw = match int_of (strip level_field) with
      | none => .error (.level (strip level_field))
      | some level => parse_range (strip range_field) level ((more.map strip).headD []) := by
  rw [_parse_line, if_neg (not_or.mpr ⟨hblank, hcomment⟩), hfields]
  rfl

/-- Exactly the readable lines give a range. -/
theorem parse_line_eq_ok_some_iff {range : IpRange} : _parse_line raw = .ok (some range) ↔ ReadableLine raw range := by
  constructor
  · intro hparsed
    by_cases hnone : strip raw = [] ∨ (strip raw).head? = some 0x23
    · rw [_parse_line, if_pos hnone] at hparsed
      cases hparsed
    obtain ⟨hblank, hcomment⟩ := not_or.mp hnone
    cases hfields : split 0x2C (strip raw) with
    | nil => exact absurd hfields (List.splitOn_ne_nil _ _)
    | cons range_field others =>
      cases others with
      | nil =>
        rw [_parse_line, if_neg hnone, hfields] at hparsed
        cases hparsed
      | cons level_field more =>
        rw [parse_line_eq hblank hcomment hfields] at hparsed
        obtain ⟨hrange_comma, tail, hline, htail⟩ := split_eq_cons_cons_iff.mp hfields
        obtain ⟨hlevel_comma, hrest⟩ := split_eq_cons_iff.mp htail
        cases hlevel : int_of (strip level_field) with
        | none => simp only [hlevel] at hparsed; cases hparsed
        | some level =>
          simp only [hlevel] at hparsed
          obtain ⟨start, stop, hrange, hfound⟩ := parse_range_eq_ok_iff.mp hparsed
          rw [Option.some.injEq] at hfound
          subst hfound
          rcases hrest with ⟨rfl, rfl⟩ | ⟨after, rfl, rfl⟩
          · exact ⟨range_field, tail, [], by rw [hline, List.append_nil], hcomment, hrange_comma, hlevel_comma, hrange,
              hlevel, .missing⟩
          · refine ⟨range_field, level_field, 0x2C :: after, hline, hcomment, hrange_comma, hlevel_comma, hrange, hlevel,
              described_iff.mpr ?_⟩
            obtain ⟨first, others, hsplit⟩ := List.exists_cons_of_ne_nil (List.splitOn_ne_nil 0x2C after)
            rw [split, hsplit]
            rfl
  · rintro ⟨range_field, level_field, rest, hline, hcomment, hrange_comma, hlevel_comma, hrange, hlevel, hdescribed⟩
    have hblank : strip raw ≠ [] := by
      rw [hline]
      exact List.append_ne_nil_of_right_ne_nil _ (List.cons_ne_nil _ _)
    obtain ⟨more, hmore, hdescription⟩ : ∃ more, split 0x2C (level_field ++ rest) = level_field :: more ∧
        range.description = (more.map strip).headD [] := by
      cases rest with
      | nil =>
        refine ⟨[], by rw [List.append_nil, split_of_not_mem hlevel_comma], ?_⟩
        generalize range.description = description at hdescribed
        cases hdescribed
        rfl
      | cons comma after =>
        have hcomma : comma = 0x2C := by
          generalize range.description = description at hdescribed
          cases hdescribed <;> rfl
        subst hcomma
        refine ⟨split 0x2C after, split_append_cons hlevel_comma after, ?_⟩
        rw [described_iff.mp hdescribed]
        obtain ⟨first, others, hsplit⟩ := List.exists_cons_of_ne_nil (List.splitOn_ne_nil 0x2C after)
        rw [split, hsplit]
        rfl
    have hfields : split 0x2C (strip raw) = range_field :: level_field :: more := by
      rw [hline, split_append_cons hrange_comma, hmore]
    rw [parse_line_eq hblank hcomment hfields, hlevel]
    refine parse_range_eq_ok_iff.mpr ⟨range.start, range.stop, hrange, ?_⟩
    rw [← hdescription]

end Lines

section Loading

variable {raw : PyStr} {lines before after : List PyStr}

/-- The range that a line adds. -/
def parsed_range (raw : PyStr) : Option IpRange :=
  match _parse_line raw with
  | .ok range => range
  | .error _ => none

theorem load_line_fst (loaded : List IpRange × Nat) (raw : PyStr) :
    (load_line loaded raw).1 = loaded.1 ++ (parsed_range raw).toList := by
  rw [load_line, parsed_range]
  cases _parse_line raw with
  | error error => simp
  | ok range => cases range <;> simp

theorem load_lines_fst (loaded : List IpRange × Nat) (lines : List PyStr) :
    (lines.foldl load_line loaded).1 = loaded.1 ++ lines.filterMap parsed_range := by
  induction lines generalizing loaded with
  | nil => simp
  | cons raw rest ih =>
    rw [List.foldl_cons, ih, load_line_fst, List.append_assoc, List.filterMap_cons]
    cases parsed_range raw <;> rfl

theorem load_ipfilter_file_eq (lines : List PyStr) :
    load_ipfilter_file lines = .init (lines.filterMap parsed_range) := by
  rw [load_ipfilter_file, load_lines_fst, List.nil_append]

/-- A line that cannot be parsed leaves no trace. -/
theorem load_skips {error : LineError} (hraised : _parse_line raw = .error error) :
    load_ipfilter_file (before ++ raw :: after) = load_ipfilter_file (before ++ after) := by
  have hnone : parsed_range raw = none := by rw [parsed_range, hraised]
  rw [load_ipfilter_file_eq, load_ipfilter_file_eq, List.filterMap_append, List.filterMap_append,
    List.filterMap_cons_none hnone]

end Loading

/-- A blank line or a comment. -/
def Ignored (raw : PyStr) : Prop := strip raw = [] ∨ (strip raw).head? = some 0x23

theorem parse_line_eq_ok_none_iff {raw : PyStr} : _parse_line raw = .ok none ↔ Ignored raw := by
  constructor
  · intro hparsed
    by_contra hread
    obtain ⟨hblank, hcomment⟩ := not_or.mp hread
    cases hfields : split 0x2C (strip raw) with
    | nil => exact absurd hfields (List.splitOn_ne_nil _ _)
    | cons range_field others =>
      cases others with
      | nil =>
        rw [_parse_line, if_neg (not_or.mpr ⟨hblank, hcomment⟩), hfields] at hparsed
        cases hparsed
      | cons level_field more =>
        rw [parse_line_eq hblank hcomment hfields] at hparsed
        cases hlevel : int_of (strip level_field) with
        | none => simp only [hlevel] at hparsed; cases hparsed
        | some level =>
          simp only [hlevel] at hparsed
          obtain ⟨_, _, _, hsome⟩ := parse_range_eq_ok_iff.mp hparsed
          cases hsome
  · intro hignored
    rw [_parse_line]
    exact if_pos hignored

end amuled.ipfilter
