import Mathlib.Data.Nat.Digits.Lemmas
import AmuleD.Utf8

namespace pystr

/-- A string as its code points, which may be lone surrogates. -/
abbrev PyStr := List Nat

/-- The code points of a literal. -/
def lit (text : String) : PyStr := text.toList.map Char.toNat

/-- `str.isspace`, for one character. -/
def isspace (point : Nat) : Bool :=
  (0x09 ≤ point && point ≤ 0x0D) || (0x1C ≤ point && point ≤ 0x20) || (0x2000 ≤ point && point ≤ 0x200A)
    || [0x85, 0xA0, 0x1680, 0x2028, 0x2029, 0x202F, 0x205F, 0x3000].contains point

/-- `int` takes no information separators for white space, as `str.strip` does. -/
def int_isspace (point : Nat) : Bool := isspace point && !(0x1C ≤ point && point ≤ 0x1F)

def strip_by (space : Nat → Bool) (text : PyStr) : PyStr :=
  (((text.dropWhile space).reverse).dropWhile space).reverse

def strip (text : PyStr) : PyStr := strip_by isspace text

/-- What `str.lower` makes of a character, as far as that is ASCII: the Kelvin sign and the dotted capital I are the
other characters of which it is. -/
def lower_point (point : Nat) : PyStr :=
  if 0x41 ≤ point ∧ point ≤ 0x5A then [point + 0x20]
  else if point = 0x212A then [0x6B]
  else if point = 0x130 then [0x69, 0x307]
  else [point]

def lower (text : PyStr) : PyStr := text.flatMap lower_point

/-- `text.split(separator)`, for a separator of one character. -/
def split (separator : Nat) (text : PyStr) : List PyStr := text.splitOn separator

/-- `text.replace(old, new)`, for an old text of one character. -/
def replace (old : Nat) (new text : PyStr) : PyStr := text.flatMap fun point => if point = old then new else [point]

/-- The zeros of the scripts that have decimal digits. -/
def decimal_zeros : List Nat :=
  [0x30, 0x660, 0x6F0, 0x7C0, 0x966, 0x9E6, 0xA66, 0xAE6, 0xB66, 0xBE6, 0xC66, 0xCE6, 0xD66, 0xDE6, 0xE50, 0xED0,
    0xF20, 0x1040, 0x1090, 0x17E0, 0x1810, 0x1946, 0x19D0, 0x1A80, 0x1A90, 0x1B50, 0x1BB0, 0x1C40, 0x1C50, 0xA620,
    0xA8D0, 0xA900, 0xA9D0, 0xA9F0, 0xAA50, 0xABF0, 0xFF10, 0x104A0, 0x10D30, 0x11066, 0x110F0, 0x11136, 0x111D0,
    0x112F0, 0x11450, 0x114D0, 0x11650, 0x116C0, 0x11730, 0x118E0, 0x11950, 0x11C50, 0x11D50, 0x11DA0, 0x11F50,
    0x16A60, 0x16AC0, 0x16B50, 0x1D7CE, 0x1D7D8, 0x1D7E2, 0x1D7EC, 0x1D7F6, 0x1E140, 0x1E2F0, 0x1E4F0, 0x1E950,
    0x1FBF0]

/-- The value of a decimal digit of any script. -/
def decimal (point : Nat) : Option Nat :=
  (decimal_zeros.find? fun first => first ≤ point && point < first + 10).map fun first => point - first

/-- The digits of a number, of which single underscores may separate two. The flag tells
whether a digit stands right before. -/
def literal_digits : Bool → PyStr → Option (List Nat)
  | after_digit, [] => if after_digit then some [] else none
  | after_digit, point :: rest =>
    if point = 0x5F then if after_digit then literal_digits false rest else none
    else
      match decimal point with
      | none => none
      | some digit => (literal_digits true rest).map (digit :: ·)

/-- The most digits of a number that are converted from or to text. -/
def max_str_digits : Nat := 4300

def unsigned (text : PyStr) : Option Nat :=
  match literal_digits false text with
  | none => none
  | some digits => if digits.length ≤ max_str_digits then some (Nat.ofDigits 10 digits.reverse) else none

/-- `int(text)`, or `none` where it raises `ValueError`. -/
def int_of (text : PyStr) : Option Int :=
  match strip_by int_isspace text with
  | [] => none
  | sign :: rest =>
    if sign = 0x2D then (unsigned rest).map fun value : Nat => -(value : Int)
    else if sign = 0x2B then (unsigned rest).map Int.ofNat
    else (unsigned (sign :: rest)).map Int.ofNat

def decimal_text (number : Nat) : PyStr :=
  if number = 0 then [0x30] else (Nat.digits 10 number).reverse.map fun digit => 0x30 + digit

/-- `str(number)`, or `none` where it raises `ValueError`. -/
def str_of (number : Int) : Option PyStr :=
  if (Nat.digits 10 number.natAbs).length ≤ max_str_digits then
    some (if number < 0 then 0x2D :: decimal_text number.natAbs else decimal_text number.natAbs)
  else none

/-- The value of a hexadecimal digit. -/
def hex_digit (point : Nat) : Option Nat :=
  if 0x30 ≤ point ∧ point ≤ 0x39 then some (point - 0x30)
  else if 0x41 ≤ point ∧ point ≤ 0x46 then some (point - 0x37)
  else if 0x61 ≤ point ∧ point ≤ 0x66 then some (point - 0x57)
  else none

/-- The byte that two hexadecimal digits stand for. -/
def hex_byte (high low : Nat) : Option UInt8 :=
  match hex_digit high, hex_digit low with
  | some high, some low => some (UInt8.ofNat (16 * high + low))
  | _, _ => none

/-- The white space that `bytes.fromhex` skips between two bytes. -/
def hex_space (point : Nat) : Bool := (0x09 ≤ point && point ≤ 0x0D) || point == 0x20

/-- `bytes.fromhex`, or `none` where it raises `ValueError`. -/
def fromhex : PyStr → Option (List UInt8)
  | [] => some []
  | [point] => if hex_space point then some [] else none
  | high :: low :: rest =>
    if hex_space high then fromhex (low :: rest)
    else
      match hex_byte high low with
      | some byte => (fromhex rest).map (byte :: ·)
      | none => none

/-- The hexadecimal digits without the small letters. -/
def is_upper_hex (point : Nat) : Bool := (0x30 ≤ point && point ≤ 0x39) || (0x41 ≤ point && point ≤ 0x46)

def upper_digit (digit : Nat) : Nat := if digit < 10 then 0x30 + digit else 0x37 + digit

/-- `raw.hex().upper()`. -/
def upper_hex (raw : List UInt8) : PyStr :=
  raw.flatMap fun byte => [upper_digit (byte.toNat / 16), upper_digit (byte.toNat % 16)]

def lower_digit (digit : Nat) : Nat := if digit < 10 then 0x30 + digit else 0x57 + digit

/-- Two hexadecimal digits with small letters. -/
def lower_hex2 (byte : UInt8) : PyStr := [lower_digit (byte.toNat / 16), lower_digit (byte.toNat % 16)]

/-- `raw.hex()`. -/
def lower_hex (raw : List UInt8) : PyStr := raw.flatMap lower_hex2

/-- A byte in the literal of a byte string. -/
def repr_byte (quote : Nat) (byte : UInt8) : PyStr :=
  if byte.toNat = quote ∨ byte = 0x5C then [0x5C, byte.toNat]
  else if byte = 0x09 then lit "\\t"
  else if byte = 0x0A then lit "\\n"
  else if byte = 0x0D then lit "\\r"
  else if byte < 0x20 ∨ 0x7F ≤ byte then lit "\\x" ++ lower_hex2 byte
  else [byte.toNat]

/-- `str(raw)` of bytes: their literal. -/
def str_of_bytes (raw : List UInt8) : PyStr :=
  let quote := if 0x27 ∈ raw ∧ 0x22 ∉ raw then 0x22 else 0x27
  0x62 :: quote :: (raw.flatMap (repr_byte quote) ++ [quote])

section Hexadecimal

theorem hex_digit_range {point digit : Nat} (hdigit : hex_digit point = some digit) : 0x30 ≤ point ∧ point ≤ 0x66 := by
  unfold hex_digit at hdigit
  split_ifs at hdigit <;> omega

theorem digits_of_hex_byte {high low : Nat} {byte : UInt8} (hbyte : hex_byte high low = some byte) :
    (hex_digit high).isSome ∧ (hex_digit low).isSome := by
  rw [hex_byte] at hbyte
  split at hbyte
  · rename_i hhigh hlow
    exact ⟨by rw [hhigh]; rfl, by rw [hlow]; rfl⟩
  · cases hbyte

theorem ascii_of_hex_byte {high low : Nat} {byte : UInt8} (hbyte : hex_byte high low = some byte) :
    high < 0x80 ∧ low < 0x80 := by
  obtain ⟨hhigh, hlow⟩ := digits_of_hex_byte hbyte
  obtain ⟨h, hhigh⟩ := Option.isSome_iff_exists.mp hhigh
  obtain ⟨l, hlow⟩ := Option.isSome_iff_exists.mp hlow
  have hhigh := hex_digit_range hhigh
  have hlow := hex_digit_range hlow
  omega

theorem hex_byte_of_low {point : Nat} (hdigit : hex_digit point = none) (high : Nat) : hex_byte high point = none := by
  cases hbyte : hex_byte high point with
  | none => rfl
  | some byte =>
    have hlow := (digits_of_hex_byte hbyte).2
    rw [hdigit] at hlow
    cases hlow

theorem hex_byte_of_high {point : Nat} (hdigit : hex_digit point = none) (low : Nat) : hex_byte point low = none := by
  cases hbyte : hex_byte point low with
  | none => rfl
  | some byte =>
    have hhigh := (digits_of_hex_byte hbyte).1
    rw [hdigit] at hhigh
    cases hhigh

theorem hex_digit_of_not_ascii {point : Nat} (hpoint : ¬point < 0x80) : hex_digit point = none := by
  cases hdigit : hex_digit point with
  | none => rfl
  | some digit =>
    have hrange := hex_digit_range hdigit
    omega

theorem hex_digit_upper : ∀ digit < 16, hex_digit (upper_digit digit) = some digit := by decide

theorem hex_space_upper : ∀ digit < 16, hex_space (upper_digit digit) = false := by decide

theorem hex_byte_of_digits {high low : Nat} {byte : UInt8} (hhigh : hex_digit high = some (byte.toNat / 16))
    (hlow : hex_digit low = some (byte.toNat % 16)) : hex_byte high low = some byte := by
  have hvalue : 16 * (byte.toNat / 16) + byte.toNat % 16 = byte.toNat := Nat.div_add_mod _ _
  rw [hex_byte, hhigh, hlow]
  simp only [hvalue, UInt8.ofNat_toNat]

theorem high_digit_lt (byte : UInt8) : byte.toNat / 16 < 16 := by
  have hlt := byte.toNat_lt
  omega

theorem low_digit_lt (byte : UInt8) : byte.toNat % 16 < 16 := Nat.mod_lt _ (by decide)

theorem hex_byte_upper (byte : UInt8) :
    hex_byte (upper_digit (byte.toNat / 16)) (upper_digit (byte.toNat % 16)) = some byte :=
  hex_byte_of_digits (hex_digit_upper _ (high_digit_lt byte)) (hex_digit_upper _ (low_digit_lt byte))

theorem upper_hex_cons (byte : UInt8) (rest : List UInt8) :
    upper_hex (byte :: rest) = upper_digit (byte.toNat / 16) :: upper_digit (byte.toNat % 16) :: upper_hex rest := rfl

theorem not_mem_upper_hex {point : Nat} (hpoint : ∀ digit < 16, upper_digit digit ≠ point) (raw : List UInt8) :
    point ∉ upper_hex raw := by
  intro hmem
  obtain ⟨byte, _, hmem⟩ := List.mem_flatMap.mp hmem
  rcases List.mem_pair.mp hmem with heq | heq
  · exact hpoint _ (high_digit_lt byte) heq.symm
  · exact hpoint _ (low_digit_lt byte) heq.symm

/-- Bytes that were written in hexadecimal are read back. -/
theorem fromhex_upper_hex (raw : List UInt8) : fromhex (upper_hex raw) = some raw := by
  induction raw with
  | nil => rfl
  | cons byte rest ih =>
    rw [upper_hex_cons, fromhex, hex_space_upper _ (high_digit_lt byte), if_neg Bool.false_ne_true, hex_byte_upper, ih]
    rfl

theorem length_upper_hex (raw : List UInt8) : (upper_hex raw).length = 2 * raw.length := by
  induction raw with
  | nil => rfl
  | cons byte rest ih =>
    rw [upper_hex_cons, List.length_cons, List.length_cons, List.length_cons, ih]
    omega

theorem hex_digit_lower : ∀ digit < 16, hex_digit (lower_digit digit) = some digit := by decide

theorem hex_space_lower : ∀ digit < 16, hex_space (lower_digit digit) = false := by decide

theorem fromhex_lower_hex (raw : List UInt8) : fromhex (lower_hex raw) = some raw := by
  induction raw with
  | nil => rfl
  | cons byte rest ih =>
    have hcons : lower_hex (byte :: rest) =
        lower_digit (byte.toNat / 16) :: lower_digit (byte.toNat % 16) :: lower_hex rest := rfl
    have hbyte := hex_byte_of_digits (hex_digit_lower _ (high_digit_lt byte)) (hex_digit_lower _ (low_digit_lt byte))
    rw [hcons, fromhex, hex_space_lower _ (high_digit_lt byte), if_neg Bool.false_ne_true, hbyte, ih]
    rfl

theorem hex_space_of_hex_byte {high low : Nat} {byte : UInt8} (hbyte : hex_byte high low = some byte) :
    hex_space high = false ∧ hex_space low = false := by
  have hspace : ∀ point : Nat, (hex_digit point).isSome → hex_space point = false := by
    intro point hpoint
    obtain ⟨digit, hdigit⟩ := Option.isSome_iff_exists.mp hpoint
    have hrange := hex_digit_range hdigit
    simp only [hex_space, Bool.or_eq_false_iff, Bool.and_eq_false_iff, decide_eq_false_iff_not, beq_eq_false_iff_ne]
    omega
  obtain ⟨hhigh, hlow⟩ := digits_of_hex_byte hbyte
  exact ⟨hspace high hhigh, hspace low hlow⟩

/-- Two characters of a text that was read are a byte, apart from its white space. -/
theorem length_of_fromhex {text : PyStr} {raw : List UInt8} (hread : fromhex text = some raw) :
    text.length = 2 * raw.length + text.countP hex_space := by
  induction text using fromhex.induct generalizing raw with
  | case1 =>
    rw [fromhex, Option.some.injEq] at hread
    rw [← hread]
    rfl
  | case2 point hspace =>
    rw [fromhex, if_pos hspace, Option.some.injEq] at hread
    rw [← hread, List.countP_cons_of_pos hspace]
    rfl
  | case3 point hspace =>
    rw [fromhex, if_neg hspace] at hread
    cases hread
  | case4 high low rest hspace ih =>
    rw [fromhex, if_pos hspace] at hread
    rw [List.length_cons, ih hread, List.countP_cons_of_pos hspace]
    rfl
  | case5 high low rest hspace byte hbyte ih =>
    rw [fromhex, if_neg hspace, hbyte] at hread
    obtain ⟨after, hafter, rfl⟩ := Option.map_eq_some_iff.mp hread
    have hlow := (hex_space_of_hex_byte hbyte).2
    rw [List.length_cons, List.length_cons, ih hafter, List.countP_cons_of_neg hspace,
      List.countP_cons_of_neg (by rw [hlow]; exact Bool.false_ne_true), List.length_cons]
    omega
  | case6 high low rest hspace hnone =>
    rw [fromhex, if_neg hspace, hnone] at hread
    cases hread

theorem exists_upper_digit {point : Nat} (hpoint : is_upper_hex point = true) :
    ∃ digit < 16, upper_digit digit = point := by
  have hall : ∀ point < 0x47, is_upper_hex point = true → ∃ digit < 16, upper_digit digit = point := by decide
  have hsmall : point < 0x47 := by
    simp only [is_upper_hex, Bool.or_eq_true, Bool.and_eq_true, decide_eq_true_eq] at hpoint
    omega
  exact hall point hsmall hpoint

/-- A text of pairs of digits, without small letters, is that of some bytes. -/
theorem exists_upper_hex {count : Nat} {text : PyStr} (hlength : text.length = 2 * count)
    (htext : ∀ point ∈ text, is_upper_hex point = true) :
    ∃ raw : List UInt8, raw.length = count ∧ upper_hex raw = text := by
  induction count generalizing text with
  | zero => exact ⟨[], rfl, (List.eq_nil_of_length_eq_zero hlength).symm⟩
  | succ count ih =>
    match text with
    | [] => exact absurd hlength (by simp)
    | [_] => exact absurd hlength (by simp only [List.length_singleton]; omega)
    | first :: second :: rest =>
      rw [List.forall_mem_cons, List.forall_mem_cons] at htext
      obtain ⟨high, hhigh, rfl⟩ := exists_upper_digit htext.1
      obtain ⟨low, hlow, rfl⟩ := exists_upper_digit htext.2.1
      have hrest : rest.length = 2 * count := by
        simp only [List.length_cons] at hlength
        omega
      obtain ⟨raw, hraw, rfl⟩ := ih hrest htext.2.2
      have hbyte : (UInt8.ofNat (16 * high + low)).toNat = 16 * high + low := utf8.toNat_ofNat (by omega)
      have hdiv : (16 * high + low) / 16 = high := by omega
      have hmod : (16 * high + low) % 16 = low := by omega
      exact ⟨UInt8.ofNat (16 * high + low) :: raw, by rw [List.length_cons, hraw],
        by rw [upper_hex_cons, hbyte, hdiv, hmod]⟩

end Hexadecimal

section Replace

variable {old point : Nat} {new : PyStr}

theorem replace_append (text more : PyStr) :
    replace old new (text ++ more) = replace old new text ++ replace old new more :=
  List.flatMap_append

theorem replace_cons_old (text : PyStr) : replace old new (old :: text) = new ++ replace old new text := by
  rw [replace, List.flatMap_cons, if_pos rfl, replace]

/-- A text that is replaced without coming back is gone. -/
theorem not_mem_replace (hnew : old ∉ new) (text : PyStr) : old ∉ replace old new text := by
  intro hmem
  obtain ⟨point, _, hmem⟩ := List.mem_flatMap.mp hmem
  split_ifs at hmem with hpoint
  · exact hnew hmem
  · exact hpoint (List.mem_singleton.mp hmem).symm

theorem replace_ne_nil (hnew : new ≠ []) {text : PyStr} (htext : text ≠ []) : replace old new text ≠ [] := by
  obtain ⟨point, rest, rfl⟩ := List.exists_cons_of_ne_nil htext
  rw [replace, List.flatMap_cons]
  split_ifs
  · exact List.append_ne_nil_of_left_ne_nil hnew _
  · exact List.cons_ne_nil _ _

theorem replace_cons_other (hpoint : point ≠ old) (text : PyStr) :
    replace old new (point :: text) = point :: replace old new text := by
  rw [replace, List.flatMap_cons, if_neg hpoint, replace, List.singleton_append]

end Replace

section Numbers

theorem decimal_ascii : ∀ digit < 10, decimal (0x30 + digit) = some digit := by decide

theorem literal_digits_ascii {digits : List Nat} (hdigits : ∀ digit ∈ digits, digit < 10) :
    literal_digits true (digits.map fun digit => 0x30 + digit) = some digits := by
  induction digits with
  | nil => rfl
  | cons digit rest ih =>
    rw [List.forall_mem_cons] at hdigits
    have hscore : 0x30 + digit ≠ 0x5F := by omega
    rw [List.map_cons, literal_digits, if_neg hscore, decimal_ascii digit hdigits.1, ih hdigits.2]
    rfl

theorem literal_digits_ascii_cons {digit : Nat} {digits : List Nat} (hdigits : ∀ d ∈ digit :: digits, d < 10) :
    literal_digits false ((digit :: digits).map fun d => 0x30 + d) = some (digit :: digits) := by
  rw [← literal_digits_ascii hdigits, List.map_cons, literal_digits, literal_digits]
  rw [List.forall_mem_cons] at hdigits
  have hscore : 0x30 + digit ≠ 0x5F := by omega
  rw [if_neg hscore, if_neg hscore]

theorem mem_decimal_text {number point : Nat} (hpoint : point ∈ decimal_text number) : 0x30 ≤ point ∧ point < 0x3A := by
  rw [decimal_text] at hpoint
  split at hpoint
  · rw [List.mem_singleton] at hpoint
    omega
  · obtain ⟨digit, hdigit, rfl⟩ := List.mem_map.mp hpoint
    have hlt := Nat.digits_lt_base (by decide) (List.mem_reverse.mp hdigit)
    omega

theorem decimal_text_ne_nil (number : Nat) : decimal_text number ≠ [] := by
  rw [decimal_text]
  split_ifs with hzero
  · exact List.cons_ne_nil _ _
  · rw [Ne, List.map_eq_nil_iff, List.reverse_eq_nil_iff, Nat.digits_eq_nil_iff_eq_zero]
    exact hzero

theorem unsigned_decimal_text {number : Nat} (hfits : (Nat.digits 10 number).length ≤ max_str_digits) :
    unsigned (decimal_text number) = some number := by
  rw [decimal_text]
  split_ifs with hzero
  · rw [hzero]
    rfl
  · have hlt : ∀ digit ∈ (Nat.digits 10 number).reverse, digit < 10 :=
      fun digit hdigit => Nat.digits_lt_base (by decide) (List.mem_reverse.mp hdigit)
    have hne : (Nat.digits 10 number).reverse ≠ [] := by
      rwa [Ne, List.reverse_eq_nil_iff, Nat.digits_eq_nil_iff_eq_zero]
    have hparsed : literal_digits false ((Nat.digits 10 number).reverse.map fun digit => 0x30 + digit) =
        some (Nat.digits 10 number).reverse := by
      obtain ⟨digit, digits, hdigits⟩ := List.exists_cons_of_ne_nil hne
      rw [hdigits] at hlt ⊢
      exact literal_digits_ascii_cons hlt
    rw [unsigned, hparsed]
    simp only [List.length_reverse, List.reverse_reverse, if_pos hfits, Nat.ofDigits_digits]

theorem strip_by_eq_self {space : Nat → Bool} {text : PyStr} (htext : ∀ point ∈ text, space point = false) :
    strip_by space text = text := by
  have hdrop : ∀ points : PyStr, (∀ point ∈ points, space point = false) → points.dropWhile space = points := by
    intro points hpoints
    cases points with
    | nil => rfl
    | cons point rest => exact List.dropWhile_cons_of_neg (by simp [hpoints point List.mem_cons_self])
  rw [strip_by, hdrop text htext, hdrop _ fun point hpoint => htext point (List.mem_reverse.mp hpoint),
    List.reverse_reverse]

/-- Nothing is stripped between two characters that are not white space. -/
theorem strip_by_ends {space : Nat → Bool} {first last : Nat} (hfirst : space first = false) (hlast : space last = false)
    (text : PyStr) : strip_by space (first :: (text ++ [last])) = first :: (text ++ [last]) := by
  have hfront : (first :: (text ++ [last])).dropWhile space = first :: (text ++ [last]) :=
    List.dropWhile_cons_of_neg (by rw [hfirst]; exact Bool.false_ne_true)
  have hback : (last :: (text.reverse ++ [first])).dropWhile space = last :: (text.reverse ++ [first]) :=
    List.dropWhile_cons_of_neg (by rw [hlast]; exact Bool.false_ne_true)
  have hreverse : (first :: (text ++ [last])).reverse = last :: (text.reverse ++ [first]) := by simp
  rw [strip_by, hfront, hreverse, hback, ← hreverse, List.reverse_reverse]

theorem str_of_nonneg {number : Int} {text : PyStr} (hnumber : 0 ≤ number) (htext : str_of number = some text) :
    text = decimal_text number.natAbs := by
  rw [str_of] at htext
  split at htext
  · rw [if_neg (Int.not_lt.mpr hnumber), Option.some.injEq] at htext
    exact htext.symm
  · cases htext

theorem int_isspace_eq_false {point : Nat} (hpoint : 0x21 ≤ point ∧ point < 0x80) : int_isspace point = false := by
  have hspace : ∀ point < 0x80, 0x21 ≤ point → isspace point = false := by decide
  rw [int_isspace, hspace point hpoint.2 hpoint.1, Bool.false_and]

/-- A number that has a decimal text is what the text reads as. -/
theorem int_of_str_of {number : Int} {text : PyStr} (htext : str_of number = some text) : int_of text = some number := by
  rw [str_of] at htext
  split at htext
  · rename_i hfits
    rw [Option.some.injEq] at htext
    have hread := unsigned_decimal_text hfits
    have hstrip : strip_by int_isspace text = text := by
      apply strip_by_eq_self
      intro point hpoint
      apply int_isspace_eq_false
      rw [← htext] at hpoint
      split_ifs at hpoint
      · rcases List.mem_cons.mp hpoint with rfl | hpoint
        · decide
        · have hrange := mem_decimal_text hpoint
          omega
      · have hrange := mem_decimal_text hpoint
        omega
    rw [int_of, hstrip, ← htext]
    split_ifs with hsign
    · have hvalue : -(number.natAbs : Int) = number := by omega
      simp only [if_true, hread, Option.map_some, hvalue]
    · obtain ⟨point, rest, hpoints⟩ := List.exists_cons_of_ne_nil (decimal_text_ne_nil number.natAbs)
      have hrange := mem_decimal_text (hpoints ▸ List.mem_cons_self)
      have hminus : point ≠ 0x2D := by omega
      have hplus : point ≠ 0x2B := by omega
      simp only [hpoints] at hread ⊢
      rw [if_neg hminus, if_neg hplus, hread, Option.map_some, Option.some.injEq]
      exact Int.natAbs_of_nonneg (Int.not_lt.mp hsign)
  · exact absurd htext (by simp)

theorem decimal_lt {point digit : Nat} (hdigit : decimal point = some digit) : digit < 10 := by
  rw [decimal, Option.map_eq_some_iff] at hdigit
  obtain ⟨first, hfirst, rfl⟩ := hdigit
  have hrange := List.find?_some hfirst
  rw [Bool.and_eq_true, decide_eq_true_iff, decide_eq_true_iff] at hrange
  omega

theorem literal_digits_lt {after_digit : Bool} {text : PyStr} {digits : List Nat}
    (hdigits : literal_digits after_digit text = some digits) : ∀ digit ∈ digits, digit < 10 := by
  induction text generalizing after_digit digits with
  | nil =>
    cases after_digit with
    | false => exact absurd hdigits (by simp [literal_digits])
    | true =>
      rw [literal_digits, if_pos rfl, Option.some.injEq] at hdigits
      rw [← hdigits]
      exact fun digit hdigit => absurd hdigit List.not_mem_nil
  | cons point rest ih =>
    rw [literal_digits] at hdigits
    split_ifs at hdigits
    · exact ih hdigits
    · cases hpoint : decimal point with
      | none => simp [hpoint] at hdigits
      | some digit =>
        simp only [hpoint, Option.map_eq_some_iff] at hdigits
        obtain ⟨after, hafter, rfl⟩ := hdigits
        rw [List.forall_mem_cons]
        exact ⟨decimal_lt hpoint, ih hafter⟩

/-- A number that was read has few enough digits to be written. -/
theorem digits_of_unsigned {text : PyStr} {number : Nat} (htext : unsigned text = some number) :
    (Nat.digits 10 number).length ≤ max_str_digits := by
  rw [unsigned] at htext
  split at htext
  · exact absurd htext (by simp)
  · rename_i digits hdigits
    split at htext
    · rename_i hfits
      rw [Option.some.injEq] at htext
      have hlt := Nat.ofDigits_lt_base_pow_length (by decide : 1 < 10) fun digit hdigit =>
        literal_digits_lt hdigits digit (List.mem_reverse.mp hdigit)
      rw [htext, List.length_reverse, ← Nat.digits_length_le_iff (by decide)] at hlt
      exact hlt.trans hfits
    · exact absurd htext (by simp)

/-- A number that was read has a text. -/
theorem str_of_int_of {text : PyStr} {number : Int} (htext : int_of text = some number) :
    ∃ again, str_of number = some again := by
  have hfits : (Nat.digits 10 number.natAbs).length ≤ max_str_digits := by
    rw [int_of] at htext
    split at htext
    · cases htext
    · split_ifs at htext
      · obtain ⟨value, hvalue, rfl⟩ := Option.map_eq_some_iff.mp htext
        rw [Int.natAbs_neg]
        exact digits_of_unsigned hvalue
      · obtain ⟨value, hvalue, rfl⟩ := Option.map_eq_some_iff.mp htext
        exact digits_of_unsigned hvalue
      · obtain ⟨value, hvalue, rfl⟩ := Option.map_eq_some_iff.mp htext
        exact digits_of_unsigned hvalue
  exact ⟨_, if_pos hfits⟩

end Numbers

end pystr
