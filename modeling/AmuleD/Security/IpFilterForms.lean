import AmuleD.Security.IpFilterLines

open pystr

namespace amuled.ipfilter

/-- An octet in decimal, with any zeros before it that `int` still reads. -/
def PaddedOctet (octet : Nat) (text : PyStr) : Prop :=
  octet < 256 ∧ ∃ zeros, text = padded zeros octet ∧ text.length ≤ max_str_digits

/-- An octet in decimal. -/
def PlainOctet (octet : Nat) (text : PyStr) : Prop := octet < 256 ∧ text = decimal_text octet

/-- An address in four octets. -/
def AddressForm (Octet : Nat → PyStr → Prop) (ip_int : Int) (text : PyStr) : Prop :=
  ∃ first second third fourth : Nat, ∃ a b c d : PyStr,
    (Octet first a ∧ Octet second b ∧ Octet third c ∧ Octet fourth d) ∧
    text = a ++ 0x2E :: (b ++ 0x2E :: (c ++ 0x2E :: d)) ∧
    ip_int = first * 2 ^ 24 + second * 2 ^ 16 + third * 2 ^ 8 + fourth

def Spaces (text : PyStr) : Prop := ∀ point ∈ text, isspace point = true

/-- The three forms that the module documents; the octets of a block have a form of their own. -/
inductive DocumentedRange (BlockOctet : Nat → PyStr → Prop) : PyStr → Int → Int → Prop where
  | two {left right before after : PyStr} {start stop : Int} (hleft : AddressForm PaddedOctet start left)
      (hright : AddressForm PaddedOctet stop right) (hle : start ≤ stop) (hbefore : Spaces before)
      (hafter : Spaces after) : DocumentedRange BlockOctet (left ++ before ++ 0x2D :: (after ++ right)) start stop
  | single {text : PyStr} {ip_int : Int} (htext : AddressForm PaddedOctet ip_int text) :
      DocumentedRange BlockOctet text ip_int ip_int
  | block {address : PyStr} {start : Int} {prefixlen : Nat} (haddress : AddressForm BlockOctet start address)
      (hlength : prefixlen ≤ 32) (hblock : (2 : Int) ^ (32 - prefixlen) ∣ start) :
      DocumentedRange BlockOctet (address ++ 0x2F :: decimal_text prefixlen) start
        (start + (2 ^ (32 - prefixlen) - 1))

/-- A line in one of the documented forms, with any spaces around its fields and any description. -/
def DocumentedLine (BlockOctet : Nat → PyStr → Prop) (raw : PyStr) (start stop level : Int) : Prop :=
  ∃ lead range_text before after level_text behind description : PyStr,
    raw = lead ++ (range_text ++ (before ++ 0x2C :: (after ++ (level_text ++ (behind ++ 0x2C :: description))))) ∧
    (Spaces lead ∧ Spaces before ∧ Spaces after ∧ Spaces behind) ∧
    DocumentedRange BlockOctet range_text start stop ∧ str_of level = some level_text

section Documented

variable {text raw : PyStr} {ip_int start stop level : Int}

theorem length_decimal_text_le {number digits : Nat} (hdigits : 0 < digits) (hlt : number < 10 ^ digits) :
    (decimal_text number).length ≤ digits := by
  rw [decimal_text]
  split_ifs with hzero
  · exact hdigits
  · rw [List.length_map, List.length_reverse, Nat.digits_length_le_iff (by decide)]
    exact hlt

theorem ipv4_octet_decimal {octet : Nat} (hlt : octet < 256) : ipv4_octet (decimal_text octet) = some octet := by
  have hlength : (decimal_text octet).length ≤ 3 := length_decimal_text_le (by decide) (by omega)
  have hdigits : ((decimal_text octet).all fun point => 0x30 ≤ point && point ≤ 0x39) = true := by
    rw [List.all_eq_true]
    intro point hpoint
    have hrange := mem_decimal_text hpoint
    rw [Bool.and_eq_true, decide_eq_true_iff, decide_eq_true_iff]
    omega
  have hzeros : (decimal_text octet).length = 1 ∨ (decimal_text octet).head? ≠ some 0x30 := by
    rw [decimal_text]
    split_ifs with hzero
    · exact Or.inl rfl
    · right
      have hlast := Nat.getLast_digit_ne_zero 10 hzero
      rw [List.head?_map, List.head?_reverse, List.getLast?_eq_some_getLast (Nat.digits_ne_nil_iff_ne_zero.mpr hzero),
        Option.map_some, Ne, Option.some.injEq]
      omega
  have hfits : (Nat.digits 10 octet).length ≤ max_str_digits :=
    ((Nat.digits_length_le_iff (by decide) octet).mpr (by omega : octet < 10 ^ 3)).trans (by decide)
  rw [ipv4_octet, if_pos ⟨decimal_text_ne_nil octet, hlength, hdigits, hzeros⟩, unsigned_decimal_text hfits]
  exact Option.filter_some_pos (decide_eq_true (by omega))

theorem make_netmask_decimal : ∀ prefixlen < 33, _make_netmask (decimal_text prefixlen) = some prefixlen := by decide

theorem ipv4_address_plain (haddress : AddressForm PlainOctet ip_int text) : ipv4_address text = some ip_int := by
  obtain ⟨first, second, third, fourth, a, b, c, d, ⟨⟨hfirst, rfl⟩, ⟨hsecond, rfl⟩, ⟨hthird, rfl⟩, ⟨hfourth, rfl⟩⟩,
    rfl, rfl⟩ := haddress
  have hdot : ∀ number, 0x2E ∉ decimal_text number := by
    intro number hmem
    have hrange := mem_decimal_text hmem
    omega
  rw [ipv4_address, split_append_cons (hdot _), split_append_cons (hdot _), split_append_cons (hdot _),
    split_of_not_mem (hdot _)]
  simp [ipv4_octet_decimal hfirst, ipv4_octet_decimal hsecond, ipv4_octet_decimal hthird, ipv4_octet_decimal hfourth,
    join_octets]

theorem block_of_dvd {prefixlen : Nat} (hblock : (2 : Int) ^ (32 - prefixlen) ∣ start) :
    block start prefixlen = (start, start + (2 ^ (32 - prefixlen) - 1)) := by
  rw [block, Int.emod_eq_zero_of_dvd hblock, Int.sub_zero]

theorem isspace_eq_false {point : Nat} (hpoint : 0x21 ≤ point ∧ point < 0x80) : isspace point = false := by
  have hspace : ∀ point < 0x80, 0x21 ≤ point → isspace point = false := by decide
  exact hspace point hpoint.2 hpoint.1

theorem int_of_padded_octet {octet : Nat} (hoctet : PaddedOctet octet text) :
    int_of text = some (octet : Int) ∧ 0 ≤ (octet : Int) ∧ (octet : Int) ≤ 255 := by
  obtain ⟨hlt, zeros, rfl, hfits⟩ := hoctet
  refine ⟨int_of_padded hfits, ?_⟩
  omega

theorem PlainOctet.padded {octet : Nat} (hoctet : PlainOctet octet text) : PaddedOctet octet text := by
  obtain ⟨hlt, rfl⟩ := hoctet
  refine ⟨hlt, 0, rfl, ?_⟩
  exact (length_decimal_text_le (by decide : 0 < 3) (by omega)).trans (by decide)

theorem AddressForm.reads (haddress : AddressForm PaddedOctet ip_int text) : ReadsAddress text ip_int := by
  obtain ⟨first, second, third, fourth, a, b, c, d, ⟨ha, hb, hc, hd⟩, rfl, rfl⟩ := haddress
  obtain ⟨ha, hfirst⟩ := int_of_padded_octet ha
  obtain ⟨hb, hsecond⟩ := int_of_padded_octet hb
  obtain ⟨hc, hthird⟩ := int_of_padded_octet hc
  obtain ⟨hd, hfourth⟩ := int_of_padded_octet hd
  exact ⟨a, b, c, d, _, _, _, _, rfl, ⟨ha, hb, hc, hd⟩, ⟨hfirst, hsecond, hthird, hfourth⟩, rfl⟩

theorem AddressForm.characters (haddress : AddressForm PaddedOctet ip_int text) :
    text ≠ [] ∧ ∀ point ∈ text, 0x2E ≤ point ∧ point < 0x3A ∧ point ≠ 0x2F := by
  obtain ⟨first, second, third, fourth, a, b, c, d, ⟨ha, hb, hc, hd⟩, rfl, _⟩ := haddress
  have hoctet : ∀ {octet : Nat} {text : PyStr}, PaddedOctet octet text →
      ∀ point ∈ text, 0x2E ≤ point ∧ point < 0x3A ∧ point ≠ 0x2F := by
    rintro octet text ⟨_, zeros, rfl, _⟩ point hpoint
    have hrange := mem_padded hpoint
    omega
  refine ⟨List.append_ne_nil_of_right_ne_nil _ (List.cons_ne_nil _ _), ?_⟩
  simp only [List.forall_mem_append, List.forall_mem_cons]
  exact ⟨hoctet ha, by decide, hoctet hb, by decide, hoctet hc, by decide, hoctet hd⟩

theorem AddressForm.padded (haddress : AddressForm PlainOctet ip_int text) : AddressForm PaddedOctet ip_int text := by
  obtain ⟨first, second, third, fourth, a, b, c, d, ⟨ha, hb, hc, hd⟩, htext, hip⟩ := haddress
  exact ⟨first, second, third, fourth, a, b, c, d, ⟨ha.padded, hb.padded, hc.padded, hd.padded⟩, htext, hip⟩

theorem AddressForm.not_space (haddress : AddressForm PaddedOctet ip_int text) :
    ∀ point ∈ text, isspace point = false := by
  intro point hpoint
  have hrange := haddress.characters.2 point hpoint
  apply isspace_eq_false
  omega

theorem bare_of_not_space (htext : ∀ point ∈ text, isspace point = false) : Bare isspace text :=
  ⟨fun point hpoint => htext point (List.mem_of_head? hpoint), fun point hpoint => htext point (List.mem_of_getLast? hpoint)⟩

theorem DocumentedRange.readable (hrange : DocumentedRange PlainOctet text start stop) :
    ReadableRange text start stop := by
  have hcharacters : ∀ {text : PyStr} {ip_int : Int}, AddressForm PaddedOctet ip_int text → 0x2F ∉ text ∧ 0x2D ∉ text := by
    intro text ip_int haddress
    constructor <;> intro hmem <;> have hrange := haddress.characters.2 _ hmem <;> omega
  have hspaces : ∀ {text : PyStr}, Spaces text → 0x2F ∉ text ∧ 0x2D ∉ text := by
    intro text htext
    constructor <;> intro hmem <;> exact absurd (htext _ hmem) (by decide)
  cases hrange with
  | @two left right before after _ _ hleft hright hle hbefore hafter =>
    have hstart : strip (left ++ before) = left := by
      rw [strip, strip_by_trail hbefore]
      exact strip_by_eq_self hleft.not_space
    have hstop : strip (after ++ right) = right := by
      rw [strip, strip_by_lead hafter]
      exact strip_by_eq_self hright.not_space
    refine .two ?_ ?_ (by rw [hstart]; exact hleft.reads) (by rw [hstop]; exact hright.reads) hle
    · simp only [List.mem_append, List.mem_cons, not_or]
      exact ⟨⟨(hcharacters hleft).1, (hspaces hbefore).1⟩, by decide, (hspaces hafter).1, (hcharacters hright).1⟩
    · simp only [List.mem_append, not_or]
      exact ⟨(hcharacters hleft).2, (hspaces hbefore).2⟩
  | single htext =>
    refine .single (hcharacters htext).1 (hcharacters htext).2 ?_
    rw [strip, strip_by_eq_self htext.not_space]
    exact htext.reads
  | @block address _ prefixlen haddress hlength hblock =>
    have hmask : 0x2F ∉ decimal_text prefixlen := by
      intro hmem
      have hrange := mem_decimal_text hmem
      omega
    have hends := block_of_dvd hblock
    rw [readable_block_iff (hcharacters haddress.padded).1]
    exact ⟨hmask, start, prefixlen, ipv4_address_plain haddress, make_netmask_decimal prefixlen (by omega), hends.symm⟩

/-- A digit or a dot stands at both ends. -/
def Framed (text : PyStr) : Prop :=
  (∃ first, text.head? = some first ∧ 0x2E ≤ first ∧ first < 0x3A) ∧
    ∃ last, text.getLast? = some last ∧ 0x2E ≤ last ∧ last < 0x3A

theorem framed_of_characters (hne : text ≠ []) (hpoints : ∀ point ∈ text, 0x2E ≤ point ∧ point < 0x3A) :
    Framed text :=
  ⟨⟨_, List.head?_eq_some_head hne, hpoints _ (List.head_mem hne)⟩,
    ⟨_, List.getLast?_eq_some_getLast hne, hpoints _ (List.getLast_mem hne)⟩⟩

theorem AddressForm.framed (haddress : AddressForm PaddedOctet ip_int text) : Framed text :=
  framed_of_characters haddress.characters.1 fun point hpoint =>
    ⟨(haddress.characters.2 point hpoint).1, (haddress.characters.2 point hpoint).2.1⟩

theorem Framed.around {left right : PyStr} (hleft : Framed left) (hright : Framed right) (middle : PyStr) :
    Framed (left ++ (middle ++ right)) := by
  obtain ⟨⟨first, hfirst, hfirst_range⟩, _⟩ := hleft
  obtain ⟨_, last, hlast, hlast_range⟩ := hright
  refine ⟨⟨first, ?_, hfirst_range⟩, last, ?_, hlast_range⟩
  · rw [List.head?_append, hfirst, Option.some_or]
  · rw [List.getLast?_append, List.getLast?_append, hlast, Option.some_or, Option.some_or]

theorem Framed.bare (hframed : Framed text) : Bare isspace text := by
  obtain ⟨⟨first, hfirst, hfirst_range⟩, last, hlast, hlast_range⟩ := hframed
  constructor
  · intro point hpoint
    rw [hfirst, Option.some.injEq] at hpoint
    exact isspace_eq_false (by omega)
  · intro point hpoint
    rw [hlast, Option.some.injEq] at hpoint
    exact isspace_eq_false (by omega)

theorem DocumentedRange.framed (hrange : DocumentedRange PlainOctet text start stop) :
    Framed text ∧ 0x2C ∉ text := by
  have hcomma : ∀ {text : PyStr} {ip_int : Int}, AddressForm PaddedOctet ip_int text → 0x2C ∉ text := by
    intro text ip_int haddress hmem
    have hrange := haddress.characters.2 _ hmem
    omega
  have hspaces : ∀ {text : PyStr}, Spaces text → 0x2C ∉ text := by
    intro text htext hmem
    exact absurd (htext _ hmem) (by decide)
  cases hrange with
  | @two left right before after _ _ hleft hright hle hbefore hafter =>
    constructor
    · have haround := hleft.framed.around hright.framed (before ++ 0x2D :: after)
      simpa only [List.append_assoc, List.cons_append] using haround
    · simp only [List.mem_append, List.mem_cons, not_or]
      exact ⟨⟨hcomma hleft, hspaces hbefore⟩, by decide, hspaces hafter, hcomma hright⟩
  | single htext => exact ⟨htext.framed, hcomma htext⟩
  | @block address _ prefixlen haddress hlength hblock =>
    have hmask : ∀ point ∈ decimal_text prefixlen, 0x2E ≤ point ∧ point < 0x3A := by
      intro point hpoint
      have hrange := mem_decimal_text hpoint
      omega
    constructor
    · exact haddress.padded.framed.around (framed_of_characters (decimal_text_ne_nil prefixlen) hmask) [0x2F]
    · simp only [List.mem_append, List.mem_cons, not_or]
      refine ⟨hcomma haddress.padded, by decide, fun hmem => ?_⟩
      have hrange := hmask _ hmem
      omega

/-- Stripped of what stands around it, a documented line still has all of its fields. -/
theorem DocumentedLine.readable (hline : DocumentedLine PlainOctet raw start stop level) :
    ∃ description, ReadableLine raw ⟨start, stop, level, description⟩ := by
  obtain ⟨lead, range_text, before, after, level_text, behind, description, rfl,
    ⟨hlead, hbefore, hafter, hbehind⟩, hrange, hlevel⟩ := hline
  obtain ⟨hframed, hrange_comma⟩ := hrange.framed
  obtain ⟨kept, trail, rfl, htrail, hkept⟩ := exists_trail isspace description
  have hspaces : ∀ {text : PyStr}, Spaces text → 0x2C ∉ text :=
    fun htext hmem => absurd (htext _ hmem) (by decide)
  have hlevel_space : ∀ point ∈ level_text, isspace point = false := by
    intro point hpoint
    apply isspace_eq_false
    rcases mem_str_of hlevel point hpoint with rfl | hdigit
    · decide
    · omega
  have hlevel_comma : 0x2C ∉ level_text := not_mem_of_int_of (by decide) (int_of_str_of hlevel)
  obtain ⟨first, hfirst, hfirst_range⟩ := hframed.1
  have hstrip : strip (lead ++ (range_text ++ (before ++ 0x2C :: (after ++ (level_text ++ (behind ++ 0x2C ::
      (kept ++ trail))))))) =
        (range_text ++ before) ++ 0x2C :: ((after ++ (level_text ++ behind)) ++ 0x2C :: kept) := by
    have htext : range_text ++ (before ++ 0x2C :: (after ++ (level_text ++ (behind ++ 0x2C :: (kept ++ trail))))) =
        ((range_text ++ before) ++ 0x2C :: ((after ++ (level_text ++ behind)) ++ 0x2C :: kept)) ++ trail := by
      simp only [List.append_assoc, List.cons_append]
    rw [htext]
    refine strip_by_around hlead htrail ⟨fun point hpoint => ?_, fun point hpoint => ?_⟩
    · rw [List.append_assoc, List.head?_append, hfirst, Option.some_or, Option.some.injEq] at hpoint
      exact isspace_eq_false (by omega)
    · rw [List.getLast?_append_cons, ← List.cons_append, List.getLast?_append_cons, List.getLast?_cons] at hpoint
      cases hend : kept.getLast? with
      | none =>
        rw [hend, Option.getD_none, Option.some.injEq] at hpoint
        exact isspace_eq_false (by omega)
      | some last =>
        rw [hend, Option.getD_some, Option.some.injEq] at hpoint
        exact hpoint ▸ hkept last hend
  refine ⟨_, range_text ++ before, after ++ (level_text ++ behind), 0x2C :: kept, hstrip, ?_, ?_, ?_, ?_, ?_,
    described_iff.mpr rfl⟩
  · rw [hstrip, List.append_assoc, List.head?_append, hfirst, Option.some_or, Ne, Option.some.injEq]
    omega
  · rw [List.mem_append, not_or]
    exact ⟨hrange_comma, hspaces hbefore⟩
  · rw [List.mem_append, List.mem_append, not_or, not_or]
    exact ⟨hspaces hafter, hlevel_comma, hspaces hbehind⟩
  · rw [strip, strip_by_trail hbefore, hframed.bare.strip_by]
    exact hrange.readable
  · rw [strip, strip_by_around hafter hbehind (bare_of_not_space hlevel_space)]
    exact int_of_str_of hlevel

end Documented

/-- A line in a documented form, but for the zeros before an octet of its block. -/
def PaddedBlock (raw : PyStr) : Prop :=
  (∃ start stop level, DocumentedLine PaddedOctet raw start stop level) ∧
    ¬∃ start stop level, DocumentedLine PlainOctet raw start stop level

/-- The three forms agree, and what no reading of a line fits raises and is skipped. -/
theorem parse_line_forms (raw : PyStr) :
    (∀ start stop level, DocumentedLine PlainOctet raw start stop level →
      ∃ description, _parse_line raw = .ok (some ⟨start, stop, level, description⟩)) ∧
    (_parse_line raw = .ok none ↔ Ignored raw) ∧
    (¬PaddedBlock raw → (∀ range, _parse_line raw = .ok (some range) ↔ ReadableLine raw range) ∧
      ((∃ error, _parse_line raw = .error error) ↔ ¬Ignored raw ∧ ¬∃ range, ReadableLine raw range)) ∧
    ((∃ error, _parse_line raw = .error error) →
      ∀ before after, load_ipfilter_file (before ++ raw :: after) = load_ipfilter_file (before ++ after)) := by
  refine ⟨fun start stop level hline => ?_, parse_line_eq_ok_none_iff,
    fun _ => ⟨fun range => parse_line_eq_ok_some_iff, ?_⟩, fun ⟨error, hraised⟩ before after => load_skips hraised⟩
  · obtain ⟨description, hreadable⟩ := hline.readable
    exact ⟨description, parse_line_eq_ok_some_iff.mpr hreadable⟩
  · rw [← parse_line_eq_ok_none_iff]
    simp only [← parse_line_eq_ok_some_iff]
    cases _parse_line raw with
    | error error => simp
    | ok range => cases range <;> simp

theorem DocumentedLine.commas {BlockOctet : Nat → PyStr → Prop} {raw : PyStr} {start stop level : Int}
    (hline : DocumentedLine BlockOctet raw start stop level) : 2 ≤ raw.count 0x2C := by
  obtain ⟨lead, range_text, before, after, level_text, behind, description, rfl, _⟩ := hline
  simp only [List.count_append, List.count_cons_self]
  omega

/-- A line without a description is read although no documented form is without one, and a block with zeros before an
octet is not. -/
theorem parse_line_undocumented :
    (_parse_line (lit "10.0.0.1 , 100") = .ok (some ⟨0x0A000001, 0x0A000001, 100, []⟩) ∧
      ¬∃ start stop level, DocumentedLine PaddedOctet (lit "10.0.0.1 , 100") start stop level) ∧
    DocumentedLine PaddedOctet (lit "010.000.000.000/8 , 100 , x") 0x0A000000 0x0AFFFFFF 100 ∧
      _parse_line (lit "010.000.000.000/8 , 100 , x") = .error (.cidr (lit "010.000.000.000/8")) := by
  refine ⟨⟨by decide, ?_⟩, ?_, by decide⟩
  · rintro ⟨start, stop, level, hline⟩
    exact absurd hline.commas (by decide)
  · have haddress : AddressForm PaddedOctet 0x0A000000 (lit "010.000.000.000") :=
      ⟨10, 0, 0, 0, lit "010", lit "000", lit "000", lit "000",
        ⟨⟨by decide, 1, by decide, by decide⟩, ⟨by decide, 2, by decide, by decide⟩, ⟨by decide, 2, by decide, by decide⟩,
          ⟨by decide, 2, by decide, by decide⟩⟩, by decide, by decide⟩
    have hspace : Spaces (lit " ") := by unfold Spaces; decide
    have hnone : Spaces [] := by simp [Spaces]
    exact ⟨[], lit "010.000.000.000" ++ 0x2F :: decimal_text 8, lit " ", lit " ", lit "100", lit " ", lit " x", by decide,
      ⟨hnone, hspace, hspace, hspace⟩, .block haddress (by decide) (by decide), by decide⟩

end amuled.ipfilter
