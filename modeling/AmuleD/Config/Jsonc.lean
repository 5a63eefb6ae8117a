import AmuleD.Json.Boundaries

open pystr json

namespace amuled.jsonc

/-- What follows a block comment, behind its opening; nothing where it is not closed. -/
def skip_block : PyStr → PyStr
  | [] => []
  | point :: rest =>
    match rest with
    | [] => []
    | next :: after => if point = 0x2A ∧ next = 0x2F then after else skip_block rest

theorem length_skip_block (text : PyStr) : (skip_block text).length ≤ text.length := by
  induction text with
  | nil => exact le_refl _
  | cons point rest ih =>
    unfold skip_block
    split
    · exact Nat.zero_le _
    · split_ifs
      · simp only [List.length_cons]
        omega
      · exact ih.trans (Nat.le_succ _)

/-- The loop of `strip_jsonc_comments`, inside a string or outside. -/
def strip_from (in_string : Bool) (text : PyStr) : PyStr :=
  match text with
  | [] => []
  | ch :: rest =>
    if in_string then
      match rest with
      | [] => [ch]
      | next :: after =>
        if ch = 0x5C then ch :: next :: strip_from true after else ch :: strip_from (ch ≠ 0x22) (next :: after)
    else if ch = 0x22 then ch :: strip_from true rest
    else
      match rest with
      | [] => [ch]
      | next :: after =>
        if ch = 0x2F ∧ next = 0x2F then strip_from false (after.dropWhile fun point => point ≠ 0x0A)
        else if ch = 0x2F ∧ next = 0x2A then strip_from false (skip_block after)
        else ch :: strip_from false (next :: after)
termination_by text.length
decreasing_by
  · simp only [List.length_cons]; omega
  · simp only [List.length_cons]; omega
  · simp only [List.length_cons]; omega
  · have hle := (List.dropWhile_suffix (l := after) fun point => decide (point ≠ 0x0A)).length_le
    simp only [List.length_cons]
    omega
  · have hle := length_skip_block after
    simp only [List.length_cons]
    omega
  · simp only [List.length_cons]; omega

def strip_jsonc_comments (text : PyStr) : PyStr := strip_from false text

/-- `json5` is a package that may be missing. -/
def load_jsonc (depth : Nat) (json5_loads : Option (PyStr → Except LoadError Json)) (data : PyStr) :
    Except LoadError Json :=
  let cleaned := strip_jsonc_comments data
  match loads depth cleaned with
  | .error .JSONDecodeError =>
    match json5_loads with
    | some json5_loads => json5_loads cleaned
    | none => .error .JSONDecodeError
  | result => result

/-- A line comment up to the end of its line, or a block comment. -/
inductive Comment : PyStr → Prop where
  | line {body : PyStr} (hbody : 0x0A ∉ body) : Comment (0x2F :: 0x2F :: (body ++ [0x0A]))
  | block {body : PyStr} (hbody : ¬[0x2A, 0x2F] <:+: body) : Comment (0x2F :: 0x2A :: (body ++ [0x2A, 0x2F]))

/-- What is left of a comment: the end of its line, or nothing. -/
def Remnant (text : PyStr) : Prop := text = [0x0A] ∨ text = []

section Stripping

variable {ch : Nat} {body text text' : PyStr}

theorem strip_plain (hquote : ch ≠ 0x22) (hslash : ch ≠ 0x2F) (text : PyStr) :
    strip_from false (ch :: text) = ch :: strip_from false text := by
  rw [strip_from.eq_def]
  cases text with
  | nil => simp [hquote, strip_from]
  | cons next after => simp [hquote, hslash]

theorem strip_plains (hplain : ∀ point ∈ body, point ≠ 0x22 ∧ point ≠ 0x2F) (text : PyStr) :
    strip_from false (body ++ text) = body ++ strip_from false text := by
  induction body with
  | nil => rfl
  | cons ch rest ih =>
    rw [List.forall_mem_cons] at hplain
    rw [List.cons_append, strip_plain hplain.1.1 hplain.1.2, ih hplain.2, List.cons_append]

/-- A string is copied up to its closing quote. -/
theorem strip_body (hbody : StringBody body) (text : PyStr) :
    strip_from true (body ++ text) = body ++ strip_from false text := by
  induction hbody with
  | close =>
    rw [List.singleton_append, strip_from.eq_def]
    cases text with
    | nil => simp [strip_from]
    | cons next after => simp
  | @escape point rest hrest ih =>
    rw [List.cons_append, List.cons_append, strip_from.eq_def]
    simp [ih]
  | @plain point rest hquote hescape hrest ih =>
    rw [List.cons_append, strip_from.eq_def]
    cases hmore : rest ++ text with
    | nil => exact absurd (List.append_eq_nil_iff.mp hmore).1 hrest.ne_nil
    | cons next after => simp [hquote, hescape, ← hmore, ih]

theorem strip_string (hbody : StringBody body) (text : PyStr) :
    strip_from false (0x22 :: (body ++ text)) = 0x22 :: (body ++ strip_from false text) := by
  rw [strip_from.eq_def]
  simp [strip_body hbody]

theorem skip_block_body (hbody : ¬[0x2A, 0x2F] <:+: body) (text : PyStr) :
    skip_block (body ++ [0x2A, 0x2F] ++ text) = text := by
  induction body with
  | nil => rfl
  | cons point rest ih =>
    have hrest : ¬[0x2A, 0x2F] <:+: rest := fun hsub => hbody (hsub.trans (List.suffix_cons point rest).isInfix)
    rw [List.cons_append, List.cons_append]
    cases hmore : rest ++ [0x2A, 0x2F] ++ text with
    | nil => simp at hmore
    | cons next after =>
      have hopen : ¬(point = 0x2A ∧ next = 0x2F) := by
        rintro ⟨rfl, rfl⟩
        cases rest with
        | nil => simp at hmore
        | cons first others =>
          have hfirst : first = 0x2F := by
            rw [List.cons_append, List.cons_append, List.cons.injEq] at hmore
            exact hmore.1
          exact hbody ⟨[], others, by rw [hfirst]; rfl⟩
      rw [skip_block.eq_def]
      simp only [if_neg hopen]
      rw [← hmore, ih hrest]

/-- A comment leaves at most the end of its line. -/
theorem strip_comment {comment : PyStr} (hcomment : Comment comment) (text : PyStr) :
    ∃ remnant, Remnant remnant ∧ strip_from false (comment ++ text) = remnant ++ strip_from false text := by
  cases hcomment with
  | @line body hbody =>
    refine ⟨[0x0A], Or.inl rfl, ?_⟩
    have hskipped : (body ++ 0x0A :: text).dropWhile (fun point => point ≠ 0x0A) = 0x0A :: text :=
      (partition_append_cons hbody text).2
    have htext : 0x2F :: 0x2F :: (body ++ [0x0A]) ++ text = 0x2F :: 0x2F :: (body ++ 0x0A :: text) := by simp
    have hstep : ∀ after, strip_from false (0x2F :: 0x2F :: after) =
        strip_from false (after.dropWhile fun point => point ≠ 0x0A) := by
      intro after
      rw [strip_from.eq_def]
      simp
    rw [htext, hstep, hskipped, strip_plain (by decide) (by decide), List.singleton_append]
  | @block body hbody =>
    refine ⟨[], Or.inr rfl, ?_⟩
    have hstep : strip_from false (0x2F :: 0x2A :: (body ++ [0x2A, 0x2F] ++ text)) = strip_from false text := by
      rw [strip_from.eq_def]
      simp only [Bool.false_eq_true, if_false, skip_block_body hbody]
      rfl
    exact hstep

/-- Of a text with comments at token boundaries, the text is left, with ends of lines at such boundaries. -/
theorem strip_inserted (hinserted : Inserted Comment text text') :
    Inserted Remnant text (strip_jsonc_comments text') := by
  rw [strip_jsonc_comments]
  induction hinserted with
  | done =>
    rw [strip_from]
    exact .done
  | filler hfiller _ ih =>
    obtain ⟨remnant, hremnant, hstripped⟩ := strip_comment hfiller _
    rw [hstripped]
    exact .filler hremnant ih
  | @space point _ _ hspace _ ih =>
    have hplain : point ≠ 0x22 ∧ point ≠ 0x2F := by
      constructor <;> rintro rfl <;> exact absurd hspace (by decide)
    rw [strip_plain hplain.1 hplain.2]
    exact .space hspace ih
  | @mark point _ _ hmark _ ih =>
    have hplain : point ≠ 0x22 ∧ point ≠ 0x2F := by
      constructor <;> rintro rfl <;> exact absurd hmark (by decide)
    rw [strip_plain hplain.1 hplain.2]
    exact .mark hmark ih
  | string hbody hscanned _ ih =>
    rw [strip_string hbody]
    exact .string hbody hscanned ih
  | @word token word _ _ hne hword hend hvalue _ ih =>
    obtain ⟨literal, hliteral, hslash⟩ := scan_word_spec hvalue
    rw [List.append_nil] at hliteral
    subst hliteral
    have hplain : ∀ point ∈ word, point ≠ 0x22 ∧ point ≠ 0x2F := by
      intro point hpoint
      refine ⟨(is_word_iff.mp (hword point hpoint)).2.2, ?_⟩
      rintro rfl
      exact hslash hpoint
    rw [strip_plains hplain]
    exact .word hne hword hend hvalue ih

theorem blank_of_remnant {remnant : PyStr} (hremnant : Remnant remnant) : Blank remnant := by
  rcases hremnant with rfl | rfl
  · unfold Blank
    decide
  · exact fun _ hpoint => absurd hpoint List.not_mem_nil

end Stripping

/-- Every JSON text falls into tokens, before and behind which comments may be inserted. -/
theorem inserted_of_loads {depth : Nat} {text : PyStr} {value : Json} (hloaded : loads depth text = .ok value) :
    Inserted Comment text text := inserted_self Comment (no_stray hloaded)

/-- Comments at the token boundaries of a JSON text do not change its value, and of all that they leave its tokens as
they are: the strings with their quotes, escapes and comment markers too. -/
theorem load_jsonc_inserted (depth : Nat) (json5_loads : Option (PyStr → Except LoadError Json)) {text text' : PyStr}
    {value : Json} (hloaded : loads depth text = .ok value) (hinserted : Inserted Comment text text') :
    load_jsonc depth json5_loads text' = .ok value ∧ Inserted Remnant text (strip_jsonc_comments text') := by
  have hstripped := strip_inserted hinserted
  refine ⟨?_, hstripped⟩
  have hblank : Inserted Blank text (strip_jsonc_comments text') := hstripped.mono fun _ => blank_of_remnant
  rw [loads] at hloaded
  split_ifs at hloaded with hmark
  have hhead : (strip_jsonc_comments text').head? ≠ some 0xFEFF := by
    intro hhead
    refine hblank.head (P := fun point => point ≠ 0xFEFF) (fun point hspace => ?_) (fun point hpoint => ?_) _ hhead rfl
    · rintro rfl
      exact absurd hspace (by decide)
    · rintro rfl
      exact hmark hpoint
  have hsame : loads depth (strip_jsonc_comments text') = .ok value := by
    rw [loads, if_neg hhead, hblank.lex, hloaded]
  unfold load_jsonc
  simp only [hsame]

theorem load_jsonc_inserted_quotes :
    load_jsonc 1 none (lit "/*\"//*/[\"/*\"]") = .ok (.array [.str (lit "/*")]) ∧
      Inserted Remnant (lit "[\"/*\"]") (strip_jsonc_comments (lit "/*\"//*/[\"/*\"]")) := by
  have hstring : scan_units (lit "/*\"]") = some ([(0x2F, false), (0x2A, false)], [0x5D]) := by rfl
  have hlex : lex (lit "[\"/*\"]") = [.mark 0x5B, .str (lit "/*"), .mark 0x5D] := by
    change lex (0x5B :: 0x22 :: lit "/*\"]") = _
    rw [lex_mark (by decide), lex_string hstring, lex_mark (by decide), lex_nil]
    rfl
  have hloaded : loads 1 (lit "[\"/*\"]") = .ok (.array [.str (lit "/*")]) := by
    rw [loads, if_neg (by decide), hlex]
    rfl
  have hcomment : Comment (lit "/*\"//*/") := .block (by decide : ¬[0x2A, 0x2F] <:+: lit "\"//")
  exact load_jsonc_inserted 1 none hloaded (.filler hcomment (inserted_of_loads hloaded))

end amuled.jsonc
