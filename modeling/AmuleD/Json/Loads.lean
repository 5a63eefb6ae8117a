import AmuleD.Fields

open pystr

namespace json

/-- What `json.loads` builds; a number with a fraction, an exponent or without a finite value keeps its literal. -/
inductive Json where
  | null
  | bool (value : Bool)
  | int (value : Int)
  | float (literal : PyStr)
  | str (value : PyStr)
  | array (items : List Json)
  | object (entries : List (PyStr × Json))

inductive LoadError where
  | JSONDecodeError
  | ValueError
  | RecursionError
  deriving DecidableEq

inductive Token where
  | mark (point : Nat)
  | str (value : PyStr)
  | int (literal : PyStr)
  | literal (value : Json)
  | stray

/-- The white space between tokens. -/
def is_space (point : Nat) : Bool := point == 0x20 || point == 0x09 || point == 0x0A || point == 0x0D

/-- The brackets, the braces, the comma and the colon. -/
def is_mark (point : Nat) : Bool := [0x5B, 0x5D, 0x7B, 0x7D, 0x2C, 0x3A].contains point

/-- Neither white space nor a mark nor the quote of a string. -/
def is_word (point : Nat) : Bool := !(is_space point || is_mark point || point == 0x22)

/-- The characters that a backslash and a letter stand for. -/
def escapes : List (Nat × Nat) :=
  [(0x22, 0x22), (0x5C, 0x5C), (0x2F, 0x2F), (0x62, 0x08), (0x66, 0x0C), (0x6E, 0x0A), (0x72, 0x0D), (0x74, 0x09)]

def hex4 (a b c d : Nat) : Option Nat :=
  match hex_digit a, hex_digit b, hex_digit c, hex_digit d with
  | some a, some b, some c, some d => some (a * 0x1000 + b * 0x100 + c * 0x10 + d)
  | _, _, _, _ => none

/-- The characters of a string behind its opening quote, each with whether four digits gave it, and what follows the
closing quote. -/
def scan_units : PyStr → Option (List (Nat × Bool) × PyStr)
  | [] => none
  | point :: rest =>
    if point = 0x22 then some ([], rest)
    else if point = 0x5C then
      match rest with
      | [] => none
      | escape :: rest =>
        if escape = 0x75 then
          match rest with
          | a :: b :: c :: d :: rest =>
            match hex4 a b c d with
            | some unit => (scan_units rest).map fun scanned => ((unit, true) :: scanned.1, scanned.2)
            | none => none
          | _ => none
        else
          match escapes.lookup escape with
          | some unit => (scan_units rest).map fun scanned => ((unit, false) :: scanned.1, scanned.2)
          | none => none
    else if point < 0x20 then none
    else (scan_units rest).map fun scanned => ((point, false) :: scanned.1, scanned.2)

/-- Two surrogates that both came from digits are one character. -/
def join_surrogates : List (Nat × Bool) → PyStr
  | (high, true) :: (low, true) :: rest =>
    if (0xD800 ≤ high ∧ high ≤ 0xDBFF) ∧ 0xDC00 ≤ low ∧ low ≤ 0xDFFF then
      (0x10000 + (high - 0xD800) * 0x400 + (low - 0xDC00)) :: join_surrogates rest
    else high :: join_surrogates ((low, true) :: rest)
  | (point, _) :: rest => point :: join_surrogates rest
  | [] => []

def is_digit (point : Nat) : Bool := 0x30 ≤ point && point ≤ 0x39

/-- The integer part at the start of a text. -/
def integer (text : PyStr) : PyStr :=
  match text with
  | [] => []
  | point :: rest =>
    if point = 0x30 then [0x30] else if is_digit point then point :: rest.takeWhile is_digit else []

/-- The fraction at the start of a text, which is none without a digit. -/
def fraction (text : PyStr) : PyStr :=
  match text with
  | [] => []
  | point :: rest => if point = 0x2E ∧ rest.takeWhile is_digit ≠ [] then point :: rest.takeWhile is_digit else []

def exponent_sign (text : PyStr) : PyStr :=
  match text with
  | [] => []
  | point :: _ => if point = 0x2B ∨ point = 0x2D then [point] else []

/-- The exponent at the start of a text, which is none without a digit. -/
def exponent (text : PyStr) : PyStr :=
  match text with
  | [] => []
  | point :: rest =>
    let digits := (rest.drop (exponent_sign rest).length).takeWhile is_digit
    if (point = 0x65 ∨ point = 0x45) ∧ digits ≠ [] then point :: (exponent_sign rest ++ digits) else []

/-- The longest number at the start of a text. -/
def match_number (text : PyStr) : Option (Token × PyStr) :=
  let sign : PyStr := if text.head? = some 0x2D then [0x2D] else []
  let whole := integer (text.drop sign.length)
  let behind := text.drop (sign.length + whole.length)
  let part := fraction behind
  let power := exponent (behind.drop part.length)
  if whole = [] then none
  else if part = [] ∧ power = [] then some (.int (sign ++ whole), behind)
  else some (.literal (.float (sign ++ (whole ++ (part ++ power)))), behind.drop (part.length + power.length))

def keywords : List (PyStr × Json) :=
  [(lit "null", .null), (lit "true", .bool true), (lit "false", .bool false), (lit "NaN", .float (lit "NaN")),
    (lit "Infinity", .float (lit "Infinity")), (lit "-Infinity", .float (lit "-Infinity"))]

/-- The keyword or the number at the start of a word. -/
def scan_word (word : PyStr) : Option (Token × PyStr) :=
  match keywords.find? fun keyword => keyword.1.isPrefixOf word with
  | some keyword => some (.literal keyword.2, word.drop keyword.1.length)
  | none => match_number word

/-- The tokens of a word; what is left of it behind its value can follow no value. -/
def word_tokens (word : PyStr) : List Token :=
  match scan_word word with
  | none => [.stray]
  | some (token, []) => [token]
  | some (token, _ :: _) => [token, .stray]

/-- What stands between the quotes of a string, with the closing one. -/
inductive StringBody : PyStr → Prop where
  | close : StringBody [0x22]
  | escape {point : Nat} {body : PyStr} (hbody : StringBody body) : StringBody (0x5C :: point :: body)
  | plain {point : Nat} {body : PyStr} (hquote : point ≠ 0x22) (hescape : point ≠ 0x5C) (hbody : StringBody body) :
      StringBody (point :: body)

theorem StringBody.ne_nil {body : PyStr} (hbody : StringBody body) : body ≠ [] := by
  cases hbody <;> exact List.cons_ne_nil _ _

theorem hex_digit_plain {point digit : Nat} (hdigit : hex_digit point = some digit) : point ≠ 0x22 ∧ point ≠ 0x5C := by
  unfold hex_digit at hdigit
  split_ifs at hdigit <;> omega

theorem hex4_plain {a b c d unit : Nat} (hunit : hex4 a b c d = some unit) :
    ∀ point ∈ [a, b, c, d], point ≠ 0x22 ∧ point ≠ 0x5C := by
  rw [hex4] at hunit
  split at hunit
  · rename_i ha hb hc hd
    intro point hpoint
    simp only [List.mem_cons, List.not_mem_nil, or_false] at hpoint
    rcases hpoint with rfl | rfl | rfl | rfl
    · exact hex_digit_plain ha
    · exact hex_digit_plain hb
    · exact hex_digit_plain hc
    · exact hex_digit_plain hd
  · cases hunit

theorem scan_units_quote (rest : PyStr) : scan_units (0x22 :: rest) = some ([], rest) := by
  rw [scan_units.eq_def]
  rfl

theorem scan_units_digits {a b c d unit : Nat} (hunit : hex4 a b c d = some unit) (rest : PyStr) :
    scan_units (0x5C :: 0x75 :: a :: b :: c :: d :: rest) =
      (scan_units rest).map fun scanned => ((unit, true) :: scanned.1, scanned.2) := by
  rw [scan_units.eq_def]
  simp [hunit]

theorem scan_units_escape {escape unit : Nat} (hdigits : escape ≠ 0x75) (hunit : escapes.lookup escape = some unit)
    (rest : PyStr) : scan_units (0x5C :: escape :: rest) =
      (scan_units rest).map fun scanned => ((unit, false) :: scanned.1, scanned.2) := by
  rw [scan_units.eq_def]
  simp [hdigits, hunit]

theorem scan_units_plain {point : Nat} (hquote : point ≠ 0x22) (hescape : point ≠ 0x5C) (hcontrol : ¬point < 0x20)
    (rest : PyStr) : scan_units (point :: rest) =
      (scan_units rest).map fun scanned => ((point, false) :: scanned.1, scanned.2) := by
  rw [scan_units.eq_def]
  simp [hquote, hescape, hcontrol]

/-- A string is scanned up to its closing quote, whatever follows. -/
theorem scan_units_spec {text rest : PyStr} {units : List (Nat × Bool)}
    (hscanned : scan_units text = some (units, rest)) :
    ∃ body, StringBody body ∧ text = body ++ rest ∧ ∀ more, scan_units (body ++ more) = some (units, more) := by
  fun_induction scan_units text generalizing units rest with
  | case1 => cases hscanned
  | case2 after =>
    cases hscanned
    exact ⟨[0x22], .close, rfl, fun more => scan_units_quote more⟩
  | case4 a b c d after unit hunit hquote ih =>
    obtain ⟨⟨later, left⟩, hlater, hpair⟩ := Option.map_eq_some_iff.mp hscanned
    obtain ⟨body, hbody, rfl, hmore⟩ := ih hlater
    cases hpair
    have hplain := hex4_plain hunit
    simp only [List.forall_mem_cons] at hplain
    obtain ⟨ha, hb, hc, hd, _⟩ := hplain
    refine ⟨0x5C :: 0x75 :: a :: b :: c :: d :: body, .escape (.plain ha.1 ha.2 (.plain hb.1 hb.2 (.plain hc.1 hc.2
      (.plain hd.1 hd.2 hbody)))), rfl, fun more => ?_⟩
    simp only [List.cons_append, scan_units_digits hunit, hmore, Option.map_some]
  | case7 escape after hdigits unit hunit hquote ih =>
    obtain ⟨⟨later, left⟩, hlater, hpair⟩ := Option.map_eq_some_iff.mp hscanned
    obtain ⟨body, hbody, rfl, hmore⟩ := ih hlater
    cases hpair
    refine ⟨0x5C :: escape :: body, .escape hbody, rfl, fun more => ?_⟩
    simp only [List.cons_append, scan_units_escape hdigits hunit, hmore, Option.map_some]
  | case10 point after hquote hescape hcontrol ih =>
    obtain ⟨⟨later, left⟩, hlater, hpair⟩ := Option.map_eq_some_iff.mp hscanned
    obtain ⟨body, hbody, rfl, hmore⟩ := ih hlater
    cases hpair
    refine ⟨point :: body, .plain hquote hescape hbody, rfl, fun more => ?_⟩
    simp only [List.cons_append, scan_units_plain hquote hescape hcontrol, hmore, Option.map_some]
  | _ => cases hscanned

theorem length_scan_units {text rest : PyStr} {units : List (Nat × Bool)}
    (hscanned : scan_units text = some (units, rest)) : rest.length < text.length := by
  obtain ⟨body, hbody, rfl, _⟩ := scan_units_spec hscanned
  rw [List.length_append]
  have hpos := List.length_pos_iff.mpr hbody.ne_nil
  omega

/-- The tokens of a text, up to the first place where there is none. -/
def lex (text : PyStr) : List Token :=
  match text with
  | [] => []
  | point :: rest =>
    if is_space point then lex rest
    else if is_mark point then .mark point :: lex rest
    else if point = 0x22 then
      match _hscanned : scan_units rest with
      | none => [.stray]
      | some (units, after) => .str (join_surrogates units) :: lex after
    else word_tokens (point :: rest.takeWhile is_word) ++ lex (rest.dropWhile is_word)
termination_by text.length
decreasing_by
  · exact Nat.lt_succ_self _
  · exact Nat.lt_succ_self _
  · exact (length_scan_units _hscanned).trans (Nat.lt_succ_self _)
  · exact Nat.lt_succ_of_le ((List.dropWhile_suffix is_word).length_le)

/-- Where an array or an object that was begun goes on. -/
inductive Frame where
  | array (items : List Json)
  | object (entries : List (PyStr × Json)) (key : PyStr)

/-- What the parser has behind it, and so what may come next. -/
inductive Position where
  | value (stack : List Frame)
  | first_item (stack : List Frame)
  | after_item (items : List Json) (stack : List Frame)
  | first_key (stack : List Frame)
  | key (entries : List (PyStr × Json)) (stack : List Frame)
  | colon (entries : List (PyStr × Json)) (key : PyStr) (stack : List Frame)
  | after_pair (entries : List (PyStr × Json)) (stack : List Frame)
  | finished (value : Json)

/-- An entry of a dictionary, in the place of the one that its key had. -/
def set_entry (entries : List (PyStr × Json)) (key : PyStr) (value : Json) : List (PyStr × Json) :=
  match entries with
  | [] => [(key, value)]
  | entry :: rest => if entry.1 = key then (key, value) :: rest else entry :: set_entry rest key value

/-- A value is complete. -/
def give (stack : List Frame) (value : Json) : Position :=
  match stack with
  | [] => .finished value
  | .array items :: stack => .after_item (items ++ [value]) stack
  | .object entries key :: stack => .after_pair (set_entry entries key value) stack

/-- The first token of a value. -/
def begin_value (depth : Nat) (stack : List Frame) : Token → Except LoadError Position
  | .str value => .ok (give stack (.str value))
  | .literal value => .ok (give stack value)
  | .int literal =>
    match int_of literal with
    | some value => .ok (give stack (.int value))
    | none => .error .ValueError
  | .mark point =>
    if point = 0x5B then if stack.length < depth then .ok (.first_item stack) else .error .RecursionError
    else if point = 0x7B then if stack.length < depth then .ok (.first_key stack) else .error .RecursionError
    else .error .JSONDecodeError
  | .stray => .error .JSONDecodeError

/-- One token; containers may stand in each other up to the depth. -/
def step (depth : Nat) (position : Position) (token : Token) : Except LoadError Position :=
  match position, token with
  | .value stack, token => begin_value depth stack token
  | .first_item stack, .mark 0x5D => .ok (give stack (.array []))
  | .first_item stack, token => begin_value depth (.array [] :: stack) token
  | .after_item items stack, .mark 0x2C => .ok (.value (.array items :: stack))
  | .after_item items stack, .mark 0x5D => .ok (give stack (.array items))
  | .first_key stack, .mark 0x7D => .ok (give stack (.object []))
  | .first_key stack, .str key => .ok (.colon [] key stack)
  | .key entries stack, .str key => .ok (.colon entries key stack)
  | .colon entries key stack, .mark 0x3A => .ok (.value (.object entries key :: stack))
  | .after_pair entries stack, .mark 0x2C => .ok (.key entries stack)
  | .after_pair entries stack, .mark 0x7D => .ok (give stack (.object entries))
  | _, _ => .error .JSONDecodeError

/-- The value of a list of tokens. -/
def parse (depth : Nat) (tokens : List Token) : Except LoadError Json := do
  match ← tokens.foldlM (step depth) (.value []) with
  | .finished value => .ok value
  | _ => .error .JSONDecodeError

/-- `json.loads`, with the depth at which containers exhaust the recursion limit. -/
def loads (depth : Nat) (text : PyStr) : Except LoadError Json :=
  if text.head? = some 0xFEFF then .error .JSONDecodeError else parse depth (lex text)

/-- A value of JSON as Python holds it. -/
inductive Document (F : Type) where
  | null
  | bool (value : Bool)
  | int (value : Int)
  | float (value : F)
  | str (value : PyStr)
  | array (items : List (Document F))
  | object (entries : List (PyStr × Document F))

/-- `0.0`, whether a float is zero, and `float(number)`, `float(text)` and `int(value)`, which are `none` where they
raise. -/
structure Floats (F : Type) where
  zero : F
  of_int : Int → Option F
  of_str : PyStr → Option F
  to_int : F → Option Int
  is_zero : F → Bool

namespace Document

variable {F : Type}

/-- `value.get(key, default)`, or `none` where the value has no `get`. -/
def get (value : Document F) (key : PyStr) (default : Document F) : Option (Document F) :=
  match value with
  | .object entries => some ((entries.lookup key).getD default)
  | _ => none

/-- `value.items()`. -/
def items : Document F → Option (List (PyStr × Document F))
  | .object entries => some entries
  | _ => none

/-- Containers stand in each other up to the depth at which they exhaust the recursion limit of `json.dumps`. -/
def fits : Nat → Document F → Bool
  | 0, .array _ => false
  | 0, .object _ => false
  | depth + 1, .array items => items.all (fits depth)
  | depth + 1, .object entries => entries.all fun entry => fits depth entry.2
  | _, _ => true

variable (floats : Floats F)

def truthy : Document F → Bool
  | .null => false
  | .bool value => value
  | .int value => value ≠ 0
  | .float value => !floats.is_zero value
  | .str value => !value.isEmpty
  | .array items => !items.isEmpty
  | .object entries => !entries.isEmpty

/-- `int(value)`. -/
def to_int : Document F → Option Int
  | .bool value => some value.toInt
  | .int value => some value
  | .float value => floats.to_int value
  | .str value => int_of value
  | _ => none

/-- `float(value)`. -/
def to_float : Document F → Option F
  | .bool value => floats.of_int value.toInt
  | .int value => floats.of_int value
  | .float value => some value
  | .str value => floats.of_str value
  | _ => none

/-- `value or {}`. -/
def or_empty (value : Document F) : Document F := if value.truthy floats then value else .object []

theorem fits_object {depth : Nat} {entries : List (PyStr × Document F)} :
    (object entries).fits (depth + 1) = entries.all fun entry => entry.2.fits depth := by
  rw [fits]

end Document

end json
