import AmuleD.Fields

open pystr

namespace json

/-- A printable character of ASCII. -/
def Printable (point : Nat) : Prop := 0x20 ≤ point ∧ point < 0x7F

/-- What `json.dumps` writes for a float. -/
structure FloatText where
  text : PyStr
  printable : ∀ point ∈ text, Printable point
  deriving DecidableEq

/-- The key of a dictionary; `other` is one that `json.dumps` refuses. -/
inductive Key where
  | null
  | bool (value : Bool)
  | int (value : Int)
  | float (value : FloatText)
  | str (value : PyStr)
  | other
  deriving DecidableEq

/-- A value of Python as `json.dumps` looks at it: a tuple is a list, and `other` is anything that it refuses,
such as bytes, a set or a container that holds itself. -/
inductive Value where
  | null
  | bool (value : Bool)
  | int (value : Int)
  | float (value : FloatText)
  | str (value : PyStr)
  | list (items : List Value)
  | dict (entries : List (Key × Value))
  | other

inductive DumpError where
  | TypeError
  | ValueError
  | RecursionError
  deriving DecidableEq

/-- The four small hexadecimal digits of a code unit. -/
def digits4 (unit : Nat) : PyStr :=
  [lower_digit (unit / 0x1000 % 0x10), lower_digit (unit / 0x100 % 0x10), lower_digit (unit / 0x10 % 0x10),
    lower_digit (unit % 0x10)]

def unit_escape (unit : Nat) : PyStr := 0x5C :: 0x75 :: digits4 unit

/-- A character inside quotes, in printable ASCII. -/
def quoted_point (point : Nat) : PyStr :=
  if point = 0x22 ∨ point = 0x5C then [0x5C, point]
  else if 0x20 ≤ point ∧ point < 0x7F then [point]
  else if point = 0x0A then lit "\\n"
  else if point = 0x0D then lit "\\r"
  else if point = 0x09 then lit "\\t"
  else if point = 0x0C then lit "\\f"
  else if point = 0x08 then lit "\\b"
  else if point < 0x10000 then unit_escape point
  else unit_escape (0xD800 + (point - 0x10000) / 0x400) ++ unit_escape (0xDC00 + (point - 0x10000) % 0x400)

def quoted (value : PyStr) : PyStr := 0x22 :: (value.flatMap quoted_point ++ [0x22])

def bool_text (value : Bool) : PyStr := if value then lit "true" else lit "false"

def int_text (value : Int) : Except DumpError PyStr :=
  match str_of value with
  | some text => .ok text
  | none => .error .ValueError

/-- The text of a key, which becomes a string. -/
def key_text : Key → Except DumpError PyStr
  | .null => .ok (quoted (lit "null"))
  | .bool value => .ok (quoted (bool_text value))
  | .int value => (int_text value).map quoted
  | .float value => .ok (quoted value.text)
  | .str value => .ok (quoted value)
  | .other => .error .TypeError

/-- `json.dumps`, where containers may stand in each other up to the depth. -/
def dumps : Nat → Value → Except DumpError PyStr
  | _, .null => .ok (lit "null")
  | _, .bool value => .ok (bool_text value)
  | _, .int value => int_text value
  | _, .float value => .ok value.text
  | _, .str value => .ok (quoted value)
  | _, .other => .error .TypeError
  | 0, .list _ => .error .RecursionError
  | 0, .dict _ => .error .RecursionError
  | depth + 1, .list items => do
    let texts ← items.mapM (dumps depth)
    .ok (0x5B :: ((lit ", ").intercalate texts ++ [0x5D]))
  | depth + 1, .dict entries => do
    let texts ← entries.mapM fun entry => do
      let key ← key_text entry.1
      let value ← dumps depth entry.2
      .ok (key ++ (lit ": " ++ value))
    .ok (0x7B :: ((lit ", ").intercalate texts ++ [0x7D]))

/-- A key that has a text. -/
def Key.Plain : Key → Prop
  | .int value => (str_of value).isSome
  | .other => False
  | _ => True

/-- Built from the types of JSON, with integers that have a text and containers in each other up to the depth. -/
def Value.Plain : Nat → Value → Prop
  | _, .int value => (str_of value).isSome
  | _, .other => False
  | 0, .list _ => False
  | 0, .dict _ => False
  | depth + 1, .list items => ∀ item ∈ items, item.Plain depth
  | depth + 1, .dict entries => ∀ entry ∈ entries, entry.1.Plain ∧ entry.2.Plain depth
  | _, _ => True

section Plain

variable {α : Type} {depth : Nat}

theorem mapM_ok_iff {f : α → Except DumpError PyStr} {items : List α} :
    (∃ texts, items.mapM f = .ok texts) ↔ ∀ item ∈ items, ∃ text, f item = .ok text := by
  induction items with
  | nil => simp [pure, Except.pure]
  | cons item rest ih =>
    rw [List.mapM_cons, List.forall_mem_cons, ← ih]
    cases f item with
    | error error => simp [bind, Except.bind]
    | ok text =>
      cases rest.mapM f with
      | error error => simp [bind, Except.bind]
      | ok texts => simp [bind, Except.bind, pure, Except.pure]

theorem int_text_ok_iff {value : Int} : (∃ text, int_text value = .ok text) ↔ (str_of value).isSome := by
  rw [int_text]
  cases str_of value <;> simp

theorem key_text_ok_iff {key : Key} : (∃ text, key_text key = .ok text) ↔ key.Plain := by
  cases key with
  | int value =>
    rw [Key.Plain, ← int_text_ok_iff, key_text]
    cases int_text value <;> simp [Except.map]
  | _ => simp [key_text, Key.Plain]

theorem bind_ok_iff {x : Except DumpError α} {f : α → Except DumpError PyStr} :
    (∃ text, (x >>= f) = .ok text) ↔ ∃ value, x = .ok value ∧ ∃ text, f value = .ok text := by
  cases x <;> simp [bind, Except.bind]

/-- `json.dumps` gives a text exactly for the values that JSON has. -/
theorem dumps_ok_iff {value : Value} : (∃ text, dumps depth value = .ok text) ↔ value.Plain depth := by
  induction depth generalizing value with
  | zero =>
    cases value with
    | int value => exact int_text_ok_iff
    | _ => simp [dumps, Value.Plain]
  | succ depth ih =>
    cases value with
    | int value => exact int_text_ok_iff
    | list items =>
      rw [dumps, bind_ok_iff, Value.Plain]
      simp only [Except.ok.injEq, exists_eq', and_true, mapM_ok_iff, ih]
    | dict entries =>
      rw [dumps, bind_ok_iff, Value.Plain]
      simp only [Except.ok.injEq, exists_eq', and_true, mapM_ok_iff, bind_ok_iff, ih]
      refine forall₂_congr fun entry _ => ?_
      rw [← key_text_ok_iff, ← exists_and_right]
    | _ => simp [dumps, Value.Plain]

end Plain

section Printing

theorem printable_lower_digit : ∀ digit < 16, Printable (lower_digit digit) := by
  unfold Printable
  decide

theorem printable_digits4 (unit : Nat) : ∀ point ∈ digits4 unit, Printable point := by
  simp only [digits4, List.forall_mem_cons, List.not_mem_nil, false_implies, implies_true, and_true]
  exact ⟨printable_lower_digit _ (Nat.mod_lt _ (by decide)), printable_lower_digit _ (Nat.mod_lt _ (by decide)),
    printable_lower_digit _ (Nat.mod_lt _ (by decide)), printable_lower_digit _ (Nat.mod_lt _ (by decide))⟩

theorem printable_unit_escape (unit : Nat) : ∀ point ∈ unit_escape unit, Printable point := by
  rw [unit_escape, List.forall_mem_cons, List.forall_mem_cons]
  exact ⟨by unfold Printable; decide, by unfold Printable; decide, printable_digits4 unit⟩

theorem printable_quoted_point (point : Nat) : ∀ shown ∈ quoted_point point, Printable shown := by
  have hescapes : ∀ text ∈ [lit "\\n", lit "\\r", lit "\\t", lit "\\f", lit "\\b"], ∀ shown ∈ text,
      Printable shown := by
    unfold Printable
    decide
  unfold quoted_point
  split_ifs with hspecial hplain
  · rcases hspecial with rfl | rfl <;> unfold Printable <;> decide
  · simpa [Printable] using hplain
  · exact hescapes _ (by decide)
  · exact hescapes _ (by decide)
  · exact hescapes _ (by decide)
  · exact hescapes _ (by decide)
  · exact hescapes _ (by decide)
  · exact printable_unit_escape _
  · rw [List.forall_mem_append]
    exact ⟨printable_unit_escape _, printable_unit_escape _⟩

theorem printable_quoted (value : PyStr) : ∀ point ∈ quoted value, Printable point := by
  rw [quoted, List.forall_mem_cons, List.forall_mem_append, List.forall_mem_singleton]
  refine ⟨by unfold Printable; decide, fun shown hshown => ?_, by unfold Printable; decide⟩
  obtain ⟨point, _, hpoint⟩ := List.mem_flatMap.mp hshown
  exact printable_quoted_point point shown hpoint

theorem printable_lit {text : PyStr} (htext : (text.all fun point => 0x20 ≤ point && point < 0x7F) = true) :
    ∀ point ∈ text, Printable point := by
  intro point hpoint
  have hrange := List.all_eq_true.mp htext point hpoint
  rw [Bool.and_eq_true, decide_eq_true_iff, decide_eq_true_iff] at hrange
  exact hrange

theorem printable_bool_text (value : Bool) : ∀ point ∈ bool_text value, Printable point := by
  cases value <;> exact printable_lit (by decide)

theorem printable_int_text {value : Int} {text : PyStr} (htext : int_text value = .ok text) :
    ∀ point ∈ text, Printable point := by
  rw [int_text] at htext
  split at htext
  · rename_i hshown
    cases htext
    intro point hpoint
    rcases mem_str_of hshown point hpoint with rfl | hdigit
    · unfold Printable
      decide
    · unfold Printable
      omega
  · cases htext

theorem printable_key_text {key : Key} {text : PyStr} (htext : key_text key = .ok text) :
    ∀ point ∈ text, Printable point := by
  cases key with
  | int value =>
    rw [key_text] at htext
    cases hvalue : int_text value with
    | error error => rw [hvalue] at htext; cases htext
    | ok shown =>
      rw [hvalue] at htext
      cases htext
      exact printable_quoted shown
  | other => cases htext
  | _ => cases htext; exact printable_quoted _

theorem printable_intercalate {separator : PyStr} {texts : List PyStr} (hseparator : ∀ point ∈ separator, Printable point)
    (htexts : ∀ text ∈ texts, ∀ point ∈ text, Printable point) :
    ∀ point ∈ separator.intercalate texts, Printable point := by
  intro point hpoint
  obtain ⟨text, htext, hin⟩ := List.mem_flatten.mp hpoint
  have hcases : ∀ texts : List PyStr, text ∈ texts.intersperse separator → text = separator ∨ text ∈ texts := by
    intro texts
    induction texts with
    | nil => simp
    | cons first rest ih =>
      cases rest with
      | nil => exact fun hmem => Or.inr hmem
      | cons second others =>
        rw [List.intersperse_cons_cons, List.mem_cons, List.mem_cons]
        rintro (rfl | rfl | hmem)
        · exact Or.inr List.mem_cons_self
        · exact Or.inl rfl
        · exact (ih hmem).imp_right fun h => List.mem_cons_of_mem _ h
  rcases hcases texts htext with rfl | hmem
  · exact hseparator point hin
  · exact htexts text hmem point hin

theorem mapM_ok_mem {α : Type} {f : α → Except DumpError PyStr} {items : List α} {texts : List PyStr}
    (hmapped : items.mapM f = .ok texts) : ∀ text ∈ texts, ∃ item ∈ items, f item = .ok text := by
  induction items generalizing texts with
  | nil =>
    cases hmapped
    simp
  | cons item rest ih =>
    rw [List.mapM_cons] at hmapped
    cases hitem : f item with
    | error error => rw [hitem] at hmapped; cases hmapped
    | ok text =>
      cases hrest : rest.mapM f with
      | error error => rw [hitem, hrest] at hmapped; cases hmapped
      | ok others =>
        rw [hitem, hrest] at hmapped
        cases hmapped
        rw [List.forall_mem_cons]
        refine ⟨⟨item, List.mem_cons_self, hitem⟩, fun text htext => ?_⟩
        obtain ⟨other, hother, hsame⟩ := ih hrest text htext
        exact ⟨other, List.mem_cons_of_mem item hother, hsame⟩

/-- What `json.dumps` writes is printable ASCII, so it is one line. -/
theorem printable_dumps {depth : Nat} {value : Value} {text : PyStr} (htext : dumps depth value = .ok text) :
    ∀ point ∈ text, Printable point := by
  have hframe : ∀ {first last : Nat} {texts : List PyStr}, Printable first → Printable last →
      (∀ text ∈ texts, ∀ point ∈ text, Printable point) →
      ∀ point ∈ first :: ((lit ", ").intercalate texts ++ [last]), Printable point := by
    intro first last texts hfirst hlast htexts
    rw [List.forall_mem_cons, List.forall_mem_append, List.forall_mem_singleton]
    exact ⟨hfirst, printable_intercalate (printable_lit (by decide)) htexts, hlast⟩
  induction depth generalizing value text with
  | zero =>
    cases value with
    | null => cases htext; exact printable_lit (by decide)
    | bool value => cases htext; exact printable_bool_text value
    | int value => exact printable_int_text htext
    | float value => cases htext; exact value.printable
    | str value => cases htext; exact printable_quoted value
    | list => cases htext
    | dict => cases htext
    | other => cases htext
  | succ depth ih =>
    cases value with
    | null => cases htext; exact printable_lit (by decide)
    | bool value => cases htext; exact printable_bool_text value
    | int value => exact printable_int_text htext
    | float value => cases htext; exact value.printable
    | str value => cases htext; exact printable_quoted value
    | list items =>
      rw [dumps] at htext
      cases htexts : items.mapM (dumps depth) with
      | error error => rw [htexts] at htext; cases htext
      | ok texts =>
        rw [htexts] at htext
        cases htext
        refine hframe (by unfold Printable; decide) (by unfold Printable; decide) fun text hmem => ?_
        obtain ⟨item, _, hitem⟩ := mapM_ok_mem htexts text hmem
        exact ih hitem
    | dict entries =>
      rw [dumps] at htext
      cases htexts : entries.mapM (fun entry => do
          let key ← key_text entry.1
          let value ← dumps depth entry.2
          Except.ok (key ++ (lit ": " ++ value))) with
      | error error => rw [htexts] at htext; cases htext
      | ok texts =>
        rw [htexts] at htext
        cases htext
        refine hframe (by unfold Printable; decide) (by unfold Printable; decide) fun text hmem => ?_
        obtain ⟨entry, _, hentry⟩ := mapM_ok_mem htexts text hmem
        cases hkey : key_text entry.1 with
        | error error => rw [hkey] at hentry; cases hentry
        | ok key =>
          cases hvalue : dumps depth entry.2 with
          | error error => rw [hkey, hvalue] at hentry; cases hentry
          | ok value =>
            rw [hkey, hvalue] at hentry
            cases hentry
            rw [List.forall_mem_append, List.forall_mem_append]
            exact ⟨printable_key_text hkey, printable_lit (by decide), ih hvalue⟩
    | other => cases htext

end Printing

end json
