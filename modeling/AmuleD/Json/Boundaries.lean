import AmuleD.Json.Loads

open pystr

namespace json

section Numbers

/-- The characters of numbers. -/
def is_number_point (point : Nat) : Bool := is_digit point || [0x2B, 0x2D, 0x2E, 0x45, 0x65].contains point

/-- A part of a number that stands at the start of a text. -/
def NumberPrefix (part text : PyStr) : Prop := part <+: text ∧ ∀ point ∈ part, is_number_point point = true

variable {text part : PyStr}

theorem NumberPrefix.append {later : PyStr} (hpart : NumberPrefix part text)
    (hlater : NumberPrefix later (text.drop part.length)) : NumberPrefix (part ++ later) text := by
  obtain ⟨⟨rest, rfl⟩, hpoints⟩ := hpart
  rw [List.drop_left] at hlater
  refine ⟨List.prefix_append_right_inj part |>.mpr hlater.1, ?_⟩
  rw [List.forall_mem_append]
  exact ⟨hpoints, hlater.2⟩

theorem numberPrefix_nil (text : PyStr) : NumberPrefix [] text := ⟨List.nil_prefix, by simp⟩

theorem numberPrefix_digits (text : PyStr) : NumberPrefix (text.takeWhile is_digit) text := by
  refine ⟨List.takeWhile_prefix is_digit, fun point hpoint => ?_⟩
  rw [is_number_point, List.all_eq_true.mp List.all_takeWhile point hpoint, Bool.true_or]

theorem NumberPrefix.cons {point : Nat} (hpoint : is_number_point point = true) (hpart : NumberPrefix part text) :
    NumberPrefix (point :: part) (point :: text) := by
  refine ⟨List.cons_prefix_cons.mpr ⟨rfl, hpart.1⟩, ?_⟩
  rw [List.forall_mem_cons]
  exact ⟨hpoint, hpart.2⟩

theorem numberPrefix_integer (text : PyStr) : NumberPrefix (integer text) text := by
  unfold integer
  split
  · exact numberPrefix_nil _
  · split_ifs with hzero hdigit
    · rw [hzero]
      exact .cons (by decide) (numberPrefix_nil _)
    · exact .cons (by rw [is_number_point, hdigit, Bool.true_or]) (numberPrefix_digits _)
    · exact numberPrefix_nil _

theorem numberPrefix_fraction (text : PyStr) : NumberPrefix (fraction text) text := by
  unfold fraction
  split
  · exact numberPrefix_nil _
  · split_ifs with hdot
    · rw [hdot.1]
      exact .cons (by decide) (numberPrefix_digits _)
    · exact numberPrefix_nil _

theorem numberPrefix_exponent_sign (text : PyStr) : NumberPrefix (exponent_sign text) text := by
  unfold exponent_sign
  split
  · exact numberPrefix_nil _
  · split_ifs with hsign
    · refine .cons ?_ (numberPrefix_nil _)
      rcases hsign with rfl | rfl <;> decide
    · exact numberPrefix_nil _

theorem numberPrefix_exponent (text : PyStr) : NumberPrefix (exponent text) text := by
  unfold exponent
  split
  · exact numberPrefix_nil _
  · rename_i point rest
    dsimp only
    split_ifs with hpower
    · refine .cons ?_ ((numberPrefix_exponent_sign rest).append (numberPrefix_digits _))
      rcases hpower.1 with rfl | rfl <;> decide
    · exact numberPrefix_nil _

theorem NumberPrefix.split (hpart : NumberPrefix part text) : text = part ++ text.drop part.length := by
  obtain ⟨⟨rest, rfl⟩, _⟩ := hpart
  rw [List.drop_left]

/-- A number takes nothing but characters of numbers. -/
theorem match_number_spec {token : Token} {rest : PyStr} (hmatched : match_number text = some (token, rest)) :
    ∃ literal, text = literal ++ rest ∧ ∀ point ∈ literal, is_number_point point = true := by
  have hsign : NumberPrefix (if text.head? = some 0x2D then [0x2D] else []) text := by
    split_ifs with hminus
    · obtain ⟨after, rfl⟩ := List.head?_eq_some_iff.mp hminus
      exact .cons (by decide) (numberPrefix_nil _)
    · exact numberPrefix_nil _
  unfold match_number at hmatched
  dsimp only at hmatched
  generalize (if text.head? = some 0x2D then [0x2D] else [] : PyStr) = sign at hsign hmatched
  have hwhole := hsign.append (numberPrefix_integer _)
  generalize integer (text.drop sign.length) = whole at hwhole hmatched
  have hpart := hwhole.append (numberPrefix_fraction _)
  rw [← List.length_append] at hmatched
  generalize fraction (text.drop (sign ++ whole).length) = part at hpart hmatched
  have hpower := hpart.append (numberPrefix_exponent _)
  rw [List.drop_drop, ← List.length_append] at hmatched
  generalize exponent (text.drop (sign ++ whole ++ part).length) = power at hpower hmatched
  split_ifs at hmatched
  · cases hmatched
    exact ⟨_, hwhole.split, hwhole.2⟩
  · cases hmatched
    refine ⟨_, ?_, hpower.2⟩
    rw [List.drop_drop, ← List.length_append, ← List.length_append, ← List.append_assoc, ← hpower.split]

end Numbers

section Words

variable {word rest : PyStr} {token : Token}

/-- No value is written with a slash. -/
theorem scan_word_spec (hscanned : scan_word word = some (token, rest)) :
    ∃ literal, word = literal ++ rest ∧ 0x2F ∉ literal := by
  unfold scan_word at hscanned
  split at hscanned
  · rename_i keyword hfound
    have hmem := List.mem_of_find?_eq_some hfound
    have hstart := List.isPrefixOf_iff_prefix.mp
      (List.find?_some (p := fun keyword : PyStr × Json => keyword.1.isPrefixOf word) hfound)
    cases hscanned
    refine ⟨keyword.1, ?_, ?_⟩
    · obtain ⟨after, rfl⟩ := hstart
      rw [List.drop_left]
    · have hall : ∀ keyword ∈ keywords.map Prod.fst, 0x2F ∉ keyword := by decide
      exact hall _ (List.mem_map_of_mem hmem)
  · obtain ⟨literal, hword, hpoints⟩ := match_number_spec hscanned
    exact ⟨literal, hword, fun hmem => absurd (hpoints _ hmem) (by decide)⟩

end Words

section Lexing

variable {point : Nat} {word rest : PyStr}

theorem lex_nil : lex [] = [] := by rw [lex]

theorem lex_space (hspace : is_space point = true) (rest : PyStr) : lex (point :: rest) = lex rest := by
  rw [lex, if_pos hspace]

theorem not_space_of_mark (hmark : is_mark point = true) : is_space point = false := by
  have hall : ∀ point ∈ [0x5B, 0x5D, 0x7B, 0x7D, 0x2C, 0x3A], is_space point = false := by decide
  exact hall point (List.contains_iff_mem.mp hmark)

theorem lex_mark (hmark : is_mark point = true) (rest : PyStr) : lex (point :: rest) = .mark point :: lex rest := by
  rw [lex, if_neg (by rw [not_space_of_mark hmark]; exact Bool.false_ne_true), if_pos hmark]

theorem lex_string {units : List (Nat × Bool)} {text : PyStr} (hscanned : scan_units text = some (units, rest)) :
    lex (0x22 :: text) = .str (join_surrogates units) :: lex rest := by
  rw [lex, if_neg (by decide), if_neg (by decide), if_pos rfl]
  split
  · rename_i hnone
    rw [hscanned] at hnone
    cases hnone
  · rename_i units' after hsome
    rw [hscanned] at hsome
    cases hsome
    rfl

theorem is_word_iff : is_word point = true ↔ is_space point = false ∧ is_mark point = false ∧ point ≠ 0x22 := by
  simp [is_word, and_assoc]

theorem lex_word (hne : word ≠ []) (hword : ∀ point ∈ word, is_word point = true)
    (hend : ∀ point, rest.head? = some point → is_word point = false) :
    lex (word ++ rest) = word_tokens word ++ lex rest := by
  obtain ⟨point, others, rfl⟩ := List.exists_cons_of_ne_nil hne
  rw [List.forall_mem_cons] at hword
  obtain ⟨hspace, hmark, hquote⟩ := is_word_iff.mp hword.1
  have hstop : rest.takeWhile is_word = [] ∧ rest.dropWhile is_word = rest := by
    cases rest with
    | nil => exact ⟨rfl, rfl⟩
    | cons next after =>
      have hnext := hend next rfl
      exact ⟨List.takeWhile_cons_of_neg (by simp [hnext]), List.dropWhile_cons_of_neg (by simp [hnext])⟩
  rw [List.cons_append, lex, if_neg (by simp [hspace]), if_neg (by simp [hmark]), if_neg hquote,
    List.takeWhile_append_of_pos hword.2, List.dropWhile_append_of_pos hword.2, hstop.1, hstop.2, List.append_nil]

end Lexing

/-- A text, and the same with fillers at its token boundaries: before and behind tokens and white space, but never
inside a string or another token. -/
inductive Inserted (Filler : PyStr → Prop) : PyStr → PyStr → Prop where
  | done : Inserted Filler [] []
  | filler {filler text text' : PyStr} (hfiller : Filler filler) (hrest : Inserted Filler text text') :
      Inserted Filler text (filler ++ text')
  | space {point : Nat} {text text' : PyStr} (hspace : is_space point = true) (hrest : Inserted Filler text text') :
      Inserted Filler (point :: text) (point :: text')
  | mark {point : Nat} {text text' : PyStr} (hmark : is_mark point = true) (hrest : Inserted Filler text text') :
      Inserted Filler (point :: text) (point :: text')
  | string {units : List (Nat × Bool)} {body text text' : PyStr} (hbody : StringBody body)
      (hscanned : ∀ more, scan_units (body ++ more) = some (units, more)) (hrest : Inserted Filler text text') :
      Inserted Filler (0x22 :: (body ++ text)) (0x22 :: (body ++ text'))
  | word {token : Token} {word text text' : PyStr} (hne : word ≠ []) (hword : ∀ point ∈ word, is_word point = true)
      (hend : ∀ point, text.head? = some point → is_word point = false) (hvalue : scan_word word = some (token, []))
      (hrest : Inserted Filler text text') : Inserted Filler (word ++ text) (word ++ text')

/-- White space, also none. -/
def Blank (text : PyStr) : Prop := ∀ point ∈ text, is_space point = true

section Inserting

variable {Filler : PyStr → Prop} {text text' : PyStr}

theorem Inserted.mono {Wider : PyStr → Prop} (hinserted : Inserted Filler text text')
    (hwider : ∀ filler, Filler filler → Wider filler) : Inserted Wider text text' := by
  induction hinserted with
  | done => exact .done
  | filler hfiller _ ih => exact .filler (hwider _ hfiller) ih
  | space hspace _ ih => exact .space hspace ih
  | mark hmark _ ih => exact .mark hmark ih
  | string hbody hscanned _ ih => exact .string hbody hscanned ih
  | word hne hword hend hvalue _ ih => exact .word hne hword hend hvalue ih

theorem lex_blank {filler : PyStr} (hblank : Blank filler) (text : PyStr) : lex (filler ++ text) = lex text := by
  induction filler with
  | nil => rfl
  | cons point rest ih =>
    unfold Blank at hblank
    rw [List.forall_mem_cons] at hblank
    rw [List.cons_append, lex_space hblank.1, ih hblank.2]

/-- What holds of white space and of the start of a text holds of its start once white space is inserted. -/
theorem Inserted.head {P : Nat → Prop} (hspace : ∀ point, is_space point = true → P point)
    (hinserted : Inserted Blank text text') (hend : ∀ point, text.head? = some point → P point) :
    ∀ point, text'.head? = some point → P point := by
  induction hinserted with
  | done => exact hend
  | @filler filler text text' hfiller hrest ih =>
    cases filler with
    | nil => exact ih hend
    | cons first rest =>
      intro point hpoint
      rw [List.cons_append, List.head?_cons, Option.some.injEq] at hpoint
      exact hpoint ▸ hspace first (hfiller first List.mem_cons_self)
  | space => exact hend
  | mark => exact hend
  | string => exact hend
  | @word token word text text' hne hword =>
    obtain ⟨first, others, rfl⟩ := List.exists_cons_of_ne_nil hne
    exact hend

theorem not_word_of_space {point : Nat} (hspace : is_space point = true) : is_word point = false := by
  rw [is_word, hspace]
  rfl

/-- White space at token boundaries changes no token. -/
theorem Inserted.lex (hinserted : Inserted Blank text text') : lex text' = lex text := by
  induction hinserted with
  | done => rfl
  | filler hfiller _ ih => rw [lex_blank hfiller, ih]
  | space hspace _ ih => rw [lex_space hspace, lex_space hspace, ih]
  | mark hmark _ ih => rw [lex_mark hmark, lex_mark hmark, ih]
  | string _ hscanned _ ih => rw [lex_string (hscanned _), lex_string (hscanned _), ih]
  | word hne hword hend _ hrest ih => rw [lex_word hne hword hend,
      lex_word hne hword (hrest.head (fun _ => not_word_of_space) hend), ih]

end Inserting

section Texts

variable {depth : Nat} {text : PyStr}

theorem step_stray (position : Position) : step depth position .stray = .error .JSONDecodeError := by
  cases position <;> rfl

theorem foldlM_step_stray {tokens : List Token} {position last : Position}
    (hparsed : tokens.foldlM (step depth) position = .ok last) : .stray ∉ tokens := by
  induction tokens generalizing position with
  | nil => exact List.not_mem_nil
  | cons token rest ih =>
    rw [List.foldlM_cons] at hparsed
    cases hstep : step depth position token with
    | error error =>
      rw [hstep] at hparsed
      cases hparsed
    | ok next =>
      rw [hstep] at hparsed
      rw [List.mem_cons, not_or]
      refine ⟨?_, ih hparsed⟩
      rintro rfl
      rw [step_stray] at hstep
      cases hstep

theorem no_stray {value : Json} (hloaded : loads depth text = .ok value) : .stray ∉ lex text := by
  rw [loads] at hloaded
  split_ifs at hloaded
  rw [parse] at hloaded
  cases hfold : (lex text).foldlM (step depth) (.value []) with
  | error error =>
    rw [hfold] at hloaded
    cases hloaded
  | ok last => exact foldlM_step_stray hfold

/-- A text without a stray token falls into tokens and white space. -/
theorem inserted_self (Filler : PyStr → Prop) (hstray : .stray ∉ lex text) : Inserted Filler text text := by
  fun_induction lex text with
  | case1 => exact .done
  | case2 point rest hspace ih => exact .space hspace (ih hstray)
  | case3 point rest hspace hmark ih => exact .mark hmark (ih (List.not_mem_of_not_mem_cons hstray))
  | case4 => exact absurd List.mem_cons_self hstray
  | case5 rest units after hscanned _ _ ih =>
    obtain ⟨body, hbody, rfl, hmore⟩ := scan_units_spec hscanned
    exact .string hbody hmore (ih (List.not_mem_of_not_mem_cons hstray))
  | case6 point rest hspace hmark hquote ih =>
    rw [List.mem_append, not_or] at hstray
    have hfirst : is_word point = true :=
      is_word_iff.mpr ⟨Bool.not_eq_true _ ▸ hspace, Bool.not_eq_true _ ▸ hmark, hquote⟩
    have hword : ∀ other ∈ point :: rest.takeWhile is_word, is_word other = true := by
      rw [List.forall_mem_cons]
      exact ⟨hfirst, fun other hother => List.all_eq_true.mp List.all_takeWhile other hother⟩
    have hend : ∀ other, (rest.dropWhile is_word).head? = some other → is_word other = false := by
      intro other hother
      have hstop := List.head?_dropWhile_not is_word rest
      rw [hother] at hstop
      simpa using hstop
    obtain ⟨token, hvalue⟩ : ∃ token, scan_word (point :: rest.takeWhile is_word) = some (token, []) := by
      have htokens := hstray.1
      rw [word_tokens] at htokens
      split at htokens
      · exact absurd List.mem_cons_self htokens
      · rename_i token hscanned
        exact ⟨token, hscanned⟩
      · exact absurd (List.mem_cons_of_mem _ List.mem_cons_self) htokens
    have hinserted := Inserted.word (List.cons_ne_nil _ _) hword hend hvalue (ih hstray.2)
    rwa [List.cons_append, List.takeWhile_append_dropWhile] at hinserted

end Texts

end json
