import AmuleD.PyStr

namespace pystr

/-- `text.rpartition(separator)` without the separator. -/
def rpartition (separator : Nat) (text : PyStr) : PyStr × PyStr :=
  ((text.reverse.dropWhile (· ≠ separator)).tail.reverse, (text.reverse.takeWhile (· ≠ separator)).reverse)

/-- The last separator is the one before a part that has none. -/
theorem rpartition_append {separator : Nat} {last : PyStr} (hlast : separator ∉ last) (before : PyStr) :
    rpartition separator (before ++ separator :: last) = (before, last) := by
  have hreverse : (before ++ separator :: last).reverse = last.reverse ++ separator :: before.reverse := by simp
  have hpoints : ∀ point ∈ last.reverse, decide (point ≠ separator) = true := by
    intro point hpoint
    rw [List.mem_reverse] at hpoint
    exact decide_eq_true fun heq => hlast (heq ▸ hpoint)
  rw [rpartition, hreverse, List.dropWhile_append_of_pos hpoints, List.takeWhile_append_of_pos hpoints,
    List.dropWhile_cons_of_neg (by simp), List.takeWhile_cons_of_neg (by simp), List.append_nil, List.tail_cons,
    List.reverse_reverse, List.reverse_reverse]

section Split

variable {separator : Nat} {text first : PyStr} {rest : List PyStr}

theorem split_of_not_mem (hnot : separator ∉ text) : split separator text = [text] := List.splitOn_eq_singleton hnot

theorem split_append_cons (hnot : separator ∉ first) (more : PyStr) :
    split separator (first ++ separator :: more) = first :: split separator more :=
  List.splitOn_append_cons_self_of_not_mem hnot more

/-- The first field is what stands before the first separator. -/
theorem split_eq_cons_iff : split separator text = first :: rest ↔ separator ∉ first ∧
    (text = first ∧ rest = [] ∨ ∃ more, text = first ++ separator :: more ∧ rest = split separator more) := by
  constructor
  · intro hsplit
    by_cases hmem : separator ∈ text
    · obtain ⟨before, more, htext, hbefore⟩ := List.eq_append_cons_of_mem hmem
      rw [htext, split_append_cons hbefore, List.cons.injEq] at hsplit
      obtain ⟨rfl, rfl⟩ := hsplit
      exact ⟨hbefore, Or.inr ⟨more, htext, rfl⟩⟩
    · rw [split_of_not_mem hmem, List.cons.injEq] at hsplit
      obtain ⟨rfl, rfl⟩ := hsplit
      exact ⟨hmem, Or.inl ⟨rfl, rfl⟩⟩
  · rintro ⟨hnot, ⟨rfl, rfl⟩ | ⟨more, rfl, rfl⟩⟩
    · exact split_of_not_mem hnot
    · exact split_append_cons hnot more

theorem split_eq_singleton_iff : split separator text = [first] ↔ text = first ∧ separator ∉ first := by
  rw [split_eq_cons_iff]
  constructor
  · rintro ⟨hnot, ⟨htext, _⟩ | ⟨more, _, hnil⟩⟩
    · exact ⟨htext, hnot⟩
    · exact absurd hnil.symm (List.splitOn_ne_nil separator more)
  · exact fun h => ⟨h.2, Or.inl ⟨h.1, rfl⟩⟩

theorem split_eq_cons_cons_iff {second : PyStr} : split separator text = first :: second :: rest ↔
    separator ∉ first ∧ ∃ more, text = first ++ separator :: more ∧ split separator more = second :: rest := by
  rw [split_eq_cons_iff]
  constructor
  · rintro ⟨hnot, ⟨_, hcons⟩ | ⟨more, htext, hmore⟩⟩
    · cases hcons
    · exact ⟨hnot, more, htext, hmore.symm⟩
  · rintro ⟨hnot, more, htext, hmore⟩
    exact ⟨hnot, Or.inr ⟨more, htext, hmore.symm⟩⟩

/-- `text.partition(separator)`, for a separator that is there. -/
theorem partition_append_cons (hnot : separator ∉ first) (more : PyStr) :
    ((first ++ separator :: more).takeWhile fun point => point ≠ separator) = first ∧
      ((first ++ separator :: more).dropWhile fun point => point ≠ separator) = separator :: more := by
  have hfirst : ∀ point ∈ first, decide (point ≠ separator) = true := by
    intro point hpoint
    rw [decide_eq_true_iff]
    rintro rfl
    exact hnot hpoint
  rw [List.takeWhile_append_of_pos hfirst, List.dropWhile_append_of_pos hfirst]
  simp

end Split

section Traverse

variable {α β : Type} {read : α → Option β} {texts : List α} {value : β} {values : List β}

theorem mapM_eq_some_nil : texts.mapM read = some [] ↔ texts = [] := by
  cases texts with
  | nil => simp
  | cons text rest => simp [List.mapM_cons, Option.bind_eq_some_iff]

theorem mapM_eq_some_cons : texts.mapM read = some (value :: values) ↔
    ∃ text rest, texts = text :: rest ∧ read text = some value ∧ rest.mapM read = some values := by
  cases texts with
  | nil => simp
  | cons text rest =>
    rw [List.mapM_cons]
    cases hread : read text with
    | none => simp [hread]
    | some first =>
      cases hrest : rest.mapM read with
      | none => simp [hrest]
      | some others => simp [hread, hrest]

end Traverse

section Strip

variable {space : Nat → Bool} {lead trail text : PyStr}

theorem dropWhile_eq_nil (hlead : ∀ point ∈ lead, space point = true) : lead.dropWhile space = [] := by
  have happend : (lead ++ []).dropWhile space = ([] : PyStr).dropWhile space := List.dropWhile_append_of_pos hlead
  rwa [List.append_nil, List.dropWhile_nil] at happend

theorem strip_by_lead (hlead : ∀ point ∈ lead, space point = true) (text : PyStr) :
    strip_by space (lead ++ text) = strip_by space text := by
  rw [strip_by, List.dropWhile_append_of_pos hlead, strip_by]

theorem strip_by_trail (htrail : ∀ point ∈ trail, space point = true) (text : PyStr) :
    strip_by space (text ++ trail) = strip_by space text := by
  have hreverse : ∀ point ∈ trail.reverse, space point = true :=
    fun point hpoint => htrail point (List.mem_reverse.mp hpoint)
  rw [strip_by, strip_by, List.dropWhile_append]
  split_ifs with hnil
  · rw [List.isEmpty_iff] at hnil
    rw [dropWhile_eq_nil htrail, hnil]
  · rw [List.reverse_append, List.dropWhile_append_of_pos hreverse]

/-- No white space stands at either end. -/
def Bare (space : Nat → Bool) (text : PyStr) : Prop :=
  (∀ point, text.head? = some point → space point = false) ∧ ∀ point, text.getLast? = some point → space point = false

theorem Bare.strip_by (hbare : Bare space text) : strip_by space text = text := by
  have hdrop : ∀ points : PyStr, (∀ point, points.head? = some point → space point = false) →
      points.dropWhile space = points := by
    intro points hhead
    cases points with
    | nil => rfl
    | cons point rest => exact List.dropWhile_cons_of_neg (by simp [hhead point rfl])
  have hlast : ∀ point, text.reverse.head? = some point → space point = false := by
    rw [List.head?_reverse]
    exact hbare.2
  rw [pystr.strip_by, hdrop text hbare.1, hdrop _ hlast, List.reverse_reverse]

theorem strip_by_around (hlead : ∀ point ∈ lead, space point = true) (htrail : ∀ point ∈ trail, space point = true)
    (hbare : Bare space text) : strip_by space (lead ++ (text ++ trail)) = text := by
  rw [strip_by_lead hlead, strip_by_trail htrail, hbare.strip_by]

/-- The white space at the end of a text comes off. -/
theorem exists_trail (space : Nat → Bool) (text : PyStr) : ∃ kept trail, text = kept ++ trail ∧
    (∀ point ∈ trail, space point = true) ∧ ∀ point, kept.getLast? = some point → space point = false := by
  induction text using List.reverseRecOn with
  | nil => exact ⟨[], [], rfl, by simp, by simp⟩
  | append_singleton text last ih =>
    by_cases hlast : space last = true
    · obtain ⟨kept, trail, rfl, htrail, hkept⟩ := ih
      refine ⟨kept, trail ++ [last], by rw [List.append_assoc], ?_, hkept⟩
      rw [List.forall_mem_append, List.forall_mem_singleton]
      exact ⟨htrail, hlast⟩
    · refine ⟨text ++ [last], [], by rw [List.append_nil], by simp, fun point hpoint => ?_⟩
      rw [List.getLast?_concat, Option.some.injEq] at hpoint
      rw [← hpoint]
      exact Bool.not_eq_true _ ▸ hlast

theorem mem_dropWhile_or {point : Nat} (hpoint : point ∈ text) : space point = true ∨ point ∈ text.dropWhile space := by
  rw [← List.takeWhile_append_dropWhile (p := space) (l := text)] at hpoint
  rcases List.mem_append.mp hpoint with htaken | hleft
  · exact Or.inl (List.all_eq_true.mp List.all_takeWhile _ htaken)
  · exact Or.inr hleft

/-- Only white space is stripped. -/
theorem mem_strip_by_or {point : Nat} (hpoint : point ∈ text) : space point = true ∨ point ∈ strip_by space text := by
  rcases mem_dropWhile_or hpoint with hspace | hleft
  · exact Or.inl hspace
  · rw [strip_by, List.mem_reverse]
    exact mem_dropWhile_or (List.mem_reverse.mpr hleft)

end Strip

section Characters

theorem mem_literal_digits {after_digit : Bool} {text : PyStr} {digits : List Nat}
    (hdigits : literal_digits after_digit text = some digits) :
    ∀ point ∈ text, point = 0x5F ∨ (decimal point).isSome := by
  induction text generalizing after_digit digits with
  | nil => simp
  | cons point rest ih =>
    rw [literal_digits] at hdigits
    rw [List.forall_mem_cons]
    split_ifs at hdigits with hscore hafter
    · exact ⟨Or.inl hscore, ih hdigits⟩
    · cases hpoint : decimal point with
      | none => simp [hpoint] at hdigits
      | some digit =>
        simp only [hpoint, Option.map_eq_some_iff] at hdigits
        obtain ⟨after, hafter, _⟩ := hdigits
        exact ⟨Or.inr rfl, ih hafter⟩

theorem mem_unsigned {text : PyStr} {number : Nat} (htext : unsigned text = some number) :
    ∀ point ∈ text, point = 0x5F ∨ (decimal point).isSome := by
  rw [unsigned] at htext
  split at htext
  · cases htext
  · rename_i digits hdigits
    exact mem_literal_digits hdigits

/-- The characters of a text that `int` reads. -/
theorem mem_int_of {text : PyStr} {number : Int} (htext : int_of text = some number) {point : Nat}
    (hpoint : point ∈ text) :
    int_isspace point = true ∨ point ∈ [0x2B, 0x2D, 0x5F] ∨ (decimal point).isSome := by
  have hsplit : int_isspace point = true ∨ point ∈ strip_by int_isspace text := mem_strip_by_or hpoint
  rcases hsplit with hspace | hmem
  · exact Or.inl hspace
  · right
    have hcases : ∀ rest number, unsigned rest = some number → point ∈ rest →
        point ∈ [0x2B, 0x2D, 0x5F] ∨ (decimal point).isSome := by
      intro rest number hread hin
      rcases mem_unsigned hread point hin with rfl | hdigit
      · exact Or.inl (by decide)
      · exact Or.inr hdigit
    rw [int_of] at htext
    split at htext
    · cases htext
    · rename_i sign rest hstripped
      rw [hstripped] at hmem
      split_ifs at htext with hminus hplus
      · obtain ⟨value, hvalue, _⟩ := Option.map_eq_some_iff.mp htext
        rcases List.mem_cons.mp hmem with rfl | hin
        · exact Or.inl (by simp [hminus])
        · exact hcases rest value hvalue hin
      · obtain ⟨value, hvalue, _⟩ := Option.map_eq_some_iff.mp htext
        rcases List.mem_cons.mp hmem with rfl | hin
        · exact Or.inl (by simp [hplus])
        · exact hcases rest value hvalue hin
      · obtain ⟨value, hvalue, _⟩ := Option.map_eq_some_iff.mp htext
        exact hcases _ value hvalue hmem

theorem mem_str_of {number : Int} {text : PyStr} (htext : str_of number = some text) :
    ∀ point ∈ text, point = 0x2D ∨ 0x30 ≤ point ∧ point < 0x3A := by
  rw [str_of] at htext
  split_ifs at htext with hfits hsign
  · rw [Option.some.injEq] at htext
    rw [← htext, List.forall_mem_cons]
    exact ⟨Or.inl rfl, fun point hpoint => Or.inr (mem_decimal_text hpoint)⟩
  · rw [Option.some.injEq] at htext
    rw [← htext]
    exact fun point hpoint => Or.inr (mem_decimal_text hpoint)

end Characters

section Padded

/-- The digits that a number is written with. -/
def shown (number : Nat) : List Nat := if number = 0 then [0] else (Nat.digits 10 number).reverse

theorem decimal_text_eq (number : Nat) : decimal_text number = (shown number).map fun digit => 0x30 + digit := by
  rw [decimal_text, shown]
  split_ifs <;> rfl

theorem shown_lt (number : Nat) : ∀ digit ∈ shown number, digit < 10 := by
  rw [shown]
  split_ifs
  · simp
  · exact fun digit hdigit => Nat.digits_lt_base (by decide) (List.mem_reverse.mp hdigit)

theorem ofDigits_shown (number : Nat) : Nat.ofDigits 10 (shown number).reverse = number := by
  rw [shown]
  split_ifs with hzero
  · rw [hzero]
    rfl
  · rw [List.reverse_reverse, Nat.ofDigits_digits]

/-- A number with zeros before it. -/
def padded (zeros number : Nat) : PyStr := List.replicate zeros 0x30 ++ decimal_text number

theorem padded_eq (zeros number : Nat) :
    padded zeros number = (List.replicate zeros 0 ++ shown number).map fun digit => 0x30 + digit := by
  rw [padded, decimal_text_eq, List.map_append, List.map_replicate]

theorem padded_ne_nil (zeros number : Nat) : padded zeros number ≠ [] :=
  List.append_ne_nil_of_right_ne_nil _ (decimal_text_ne_nil number)

theorem mem_padded {zeros number point : Nat} (hpoint : point ∈ padded zeros number) : 0x30 ≤ point ∧ point < 0x3A := by
  rcases List.mem_append.mp hpoint with hzero | hdigit
  · rw [List.eq_of_mem_replicate hzero]
    decide
  · exact mem_decimal_text hdigit

theorem unsigned_padded {zeros number : Nat} (hfits : (padded zeros number).length ≤ max_str_digits) :
    unsigned (padded zeros number) = some number := by
  have hlt : ∀ digit ∈ List.replicate zeros 0 ++ shown number, digit < 10 := by
    rw [List.forall_mem_append]
    refine ⟨fun digit hdigit => ?_, shown_lt number⟩
    rw [List.eq_of_mem_replicate hdigit]
    decide
  have hvalue : Nat.ofDigits 10 (List.replicate zeros 0 ++ shown number).reverse = number := by
    rw [List.reverse_append, List.reverse_replicate, Nat.ofDigits_append_replicate_zero, ofDigits_shown]
  rw [padded_eq, List.length_map] at hfits
  have hparsed : literal_digits false (padded zeros number) = some (List.replicate zeros 0 ++ shown number) := by
    have hne : List.replicate zeros 0 ++ shown number ≠ [] := by
      intro hnil
      exact padded_ne_nil zeros number (by rw [padded_eq, hnil, List.map_nil])
    obtain ⟨digit, digits, hdigits⟩ := List.exists_cons_of_ne_nil hne
    rw [padded_eq, hdigits]
    rw [hdigits] at hlt
    exact literal_digits_ascii_cons hlt
  rw [unsigned, hparsed]
  simp only [if_pos hfits, hvalue]

theorem int_of_digits {text : PyStr} (hne : text ≠ []) (hdigits : ∀ point ∈ text, 0x30 ≤ point ∧ point < 0x3A) :
    int_of text = (unsigned text).map Int.ofNat := by
  have hstrip : strip_by int_isspace text = text := by
    apply strip_by_eq_self
    intro point hpoint
    have hrange := hdigits point hpoint
    apply int_isspace_eq_false
    omega
  obtain ⟨point, rest, rfl⟩ := List.exists_cons_of_ne_nil hne
  have hrange := hdigits point List.mem_cons_self
  have hminus : point ≠ 0x2D := by omega
  have hplus : point ≠ 0x2B := by omega
  rw [int_of, hstrip]
  simp only [if_neg hminus, if_neg hplus]

theorem int_of_padded {zeros number : Nat} (hfits : (padded zeros number).length ≤ max_str_digits) :
    int_of (padded zeros number) = some (number : Int) := by
  rw [int_of_digits (padded_ne_nil zeros number) fun point => mem_padded, unsigned_padded hfits]
  rfl

end Padded

end pystr
