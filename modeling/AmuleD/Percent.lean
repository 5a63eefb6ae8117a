import AmuleD.PyStr

open pystr

namespace percent

/-- The byte of the percent sequence that a text starts with. -/
def sequence : PyStr → Option UInt8
  | mark :: high :: low :: _ => if mark = 0x25 then hex_byte high low else none
  | _ => none

/-- Whether there is a percent sequence anywhere in a text. -/
def has_sequence : PyStr → Bool
  | [] => false
  | point :: rest => (sequence (point :: rest)).isSome || has_sequence rest

/-- The bytes of an ASCII text with its percent sequences replaced by their bytes. -/
def unquote_to_bytes : PyStr → List UInt8
  | point :: high :: low :: rest =>
    match sequence (point :: high :: low :: rest) with
    | some byte => byte :: unquote_to_bytes rest
    | none => UInt8.ofNat point :: unquote_to_bytes (high :: low :: rest)
  | text => text.map UInt8.ofNat

/-- The runs of ASCII characters are decoded by themselves, and the other characters stay. -/
def unquote_runs (run : PyStr) : PyStr → PyStr
  | [] => utf8.decode_replace (unquote_to_bytes run)
  | point :: rest =>
    if point < 0x80 then unquote_runs (run ++ [point]) rest
    else utf8.decode_replace (unquote_to_bytes run) ++ point :: unquote_runs [] rest

/-- `urllib.parse.unquote`. -/
def unquote (text : PyStr) : PyStr := unquote_runs [] text

section Bytes

theorem sequence_eq_some {text : PyStr} {byte : UInt8} (hsequence : sequence text = some byte) :
    ∃ high low rest, text = 0x25 :: high :: low :: rest ∧ hex_byte high low = some byte := by
  unfold sequence at hsequence
  split at hsequence
  · rename_i mark high low rest
    split at hsequence
    · rename_i hmark
      exact ⟨high, low, rest, by rw [hmark], hsequence⟩
    · cases hsequence
  · cases hsequence

theorem sequence_of_ne {mark : Nat} (hmark : mark ≠ 0x25) (rest : PyStr) : sequence (mark :: rest) = none := by
  unfold sequence
  split
  · rename_i heq
    rw [List.cons.injEq] at heq
    rw [if_neg (heq.1 ▸ hmark)]
  · rfl

theorem unquote_to_bytes_sequence {high low : Nat} {byte : UInt8} (hbyte : hex_byte high low = some byte)
    (rest : PyStr) : unquote_to_bytes (0x25 :: high :: low :: rest) = byte :: unquote_to_bytes rest := by
  have hsequence : sequence (0x25 :: high :: low :: rest) = some byte := by rw [sequence, if_pos rfl, hbyte]
  rw [unquote_to_bytes, hsequence]

theorem unquote_to_bytes_plain {point : Nat} {rest : PyStr} (hplain : sequence (point :: rest) = none) :
    unquote_to_bytes (point :: rest) = UInt8.ofNat point :: unquote_to_bytes rest := by
  match rest with
  | [] => rfl
  | [_] => rfl
  | _ :: _ :: _ => rw [unquote_to_bytes, hplain]

/-- Texts are taken apart at their percent sequences. -/
theorem sequence_induction {motive : PyStr → Prop} (nil : motive [])
    (escaped : ∀ high low byte rest, hex_byte high low = some byte → motive rest → motive (0x25 :: high :: low :: rest))
    (plain : ∀ point rest, sequence (point :: rest) = none → motive rest → motive (point :: rest)) :
    ∀ text, motive text := by
  intro text
  induction text using unquote_to_bytes.induct with
  | case1 point high low rest byte hsequence ih =>
    obtain ⟨high', low', rest', htext, hbyte⟩ := sequence_eq_some hsequence
    cases htext
    exact escaped high low byte rest hbyte ih
  | case2 point high low rest hnone ih => exact plain point _ hnone ih
  | case3 text hshort =>
    match text with
    | [] => exact nil
    | [point] => exact plain point [] rfl nil
    | [point, last] => exact plain point [last] rfl (plain last [] rfl nil)
    | point :: high :: low :: rest => exact absurd rfl (hshort point high low rest)

/-- A text without percent sequences stands for itself. -/
theorem unquote_to_bytes_of_plain {text : PyStr} (hplain : has_sequence text = false) :
    unquote_to_bytes text = text.map UInt8.ofNat := by
  induction text with
  | nil => rfl
  | cons point rest ih =>
    rw [has_sequence, Bool.or_eq_false_iff, Option.isSome_eq_false_iff, Option.isNone_iff_eq_none] at hplain
    rw [unquote_to_bytes_plain hplain.1, ih hplain.2, List.map_cons]

theorem length_unquote_to_bytes_le (text : PyStr) : (unquote_to_bytes text).length ≤ text.length := by
  induction text using sequence_induction with
  | nil => exact Nat.le_refl 0
  | escaped high low byte rest hbyte ih =>
    rw [unquote_to_bytes_sequence hbyte]
    simp only [List.length_cons]
    omega
  | plain point rest hplain ih =>
    rw [unquote_to_bytes_plain hplain]
    exact Nat.succ_le_succ ih

/-- A percent sequence makes the bytes fewer than the characters. -/
theorem length_unquote_to_bytes_lt {text : PyStr} (hsequence : has_sequence text = true) :
    (unquote_to_bytes text).length < text.length := by
  induction text using sequence_induction with
  | nil => cases hsequence
  | escaped high low byte rest hbyte ih =>
    have hrest := length_unquote_to_bytes_le rest
    rw [unquote_to_bytes_sequence hbyte]
    simp only [List.length_cons]
    omega
  | plain point rest hplain ih =>
    rw [has_sequence, hplain, Option.isSome_none, Bool.false_or] at hsequence
    rw [unquote_to_bytes_plain hplain]
    exact Nat.succ_lt_succ (ih hsequence)

end Bytes

section Sequences

/-- No sequence reaches over a character that is neither a percent sign nor a digit. -/
theorem sequence_append_apart {point : Nat} (hmark : point ≠ 0x25) (hdigit : hex_digit point = none)
    (text rest : PyStr) : sequence (text ++ point :: rest) = sequence text := by
  match text with
  | [] => exact sequence_of_ne hmark rest
  | [mark] =>
    cases rest with
    | nil => rfl
    | cons low after =>
      change (if mark = 0x25 then hex_byte point low else none) = none
      rw [hex_byte_of_high hdigit, ite_self]
  | [mark, high] =>
    change (if mark = 0x25 then hex_byte high point else none) = none
    rw [hex_byte_of_low hdigit, ite_self]
  | mark :: high :: low :: after => rfl

theorem has_sequence_append_apart {point : Nat} (hmark : point ≠ 0x25) (hdigit : hex_digit point = none)
    (text rest : PyStr) : has_sequence (text ++ point :: rest) = (has_sequence text || has_sequence rest) := by
  induction text with
  | nil =>
    rw [List.nil_append, has_sequence.eq_2, sequence_of_ne hmark]
    rfl
  | cons first after ih =>
    have hfirst := sequence_append_apart hmark hdigit (first :: after) rest
    rw [List.cons_append] at hfirst
    rw [List.cons_append, has_sequence, hfirst, ih, has_sequence.eq_2, Bool.or_assoc]

end Sequences

section Runs

variable {run : PyStr}

/-- A text without percent sequences is its own unquoted one. -/
theorem unquote_runs_of_plain {text : PyStr} (hascii : ∀ point ∈ run, point < 0x80)
    (hplain : has_sequence (run ++ text) = false) : unquote_runs run text = run ++ text := by
  induction text generalizing run with
  | nil =>
    rw [List.append_nil] at hplain ⊢
    rw [unquote_runs, unquote_to_bytes_of_plain hplain, utf8.decode_replace_ascii hascii]
  | cons point rest ih =>
    rw [unquote_runs]
    split_ifs with hpoint
    · have hrun : ∀ p ∈ run ++ [point], p < 0x80 := by
        intro p hp
        rcases List.mem_append.mp hp with hp | hp
        · exact hascii p hp
        · rw [List.mem_singleton.mp hp]
          exact hpoint
      rw [List.append_cons run point rest] at hplain ⊢
      exact ih hrun hplain
    · have hmark : point ≠ 0x25 := by omega
      rw [has_sequence_append_apart hmark (hex_digit_of_not_ascii hpoint), Bool.or_eq_false_iff] at hplain
      rw [unquote_to_bytes_of_plain hplain.1, utf8.decode_replace_ascii hascii,
        ih (fun p hp => absurd hp List.not_mem_nil) hplain.2, List.nil_append]

theorem length_unquote_runs_le (run text : PyStr) : (unquote_runs run text).length ≤ run.length + text.length := by
  induction text generalizing run with
  | nil => exact (utf8.length_decode_replace_le _).trans (length_unquote_to_bytes_le run)
  | cons point rest ih =>
    rw [unquote_runs]
    split_ifs
    · have hrest := ih (run ++ [point])
      rw [List.length_append, List.length_singleton] at hrest
      rw [List.length_cons]
      omega
    · have hrest := ih []
      have hrun := (utf8.length_decode_replace_le _).trans (length_unquote_to_bytes_le run)
      rw [List.length_nil] at hrest
      rw [List.length_append, List.length_cons, List.length_cons]
      omega

/-- A percent sequence makes the unquoted text shorter. -/
theorem length_unquote_runs_lt (run : PyStr) {text : PyStr} (hsequence : has_sequence (run ++ text) = true) :
    (unquote_runs run text).length < run.length + text.length := by
  induction text generalizing run with
  | nil =>
    rw [List.append_nil] at hsequence
    exact (utf8.length_decode_replace_le _).trans_lt (length_unquote_to_bytes_lt hsequence)
  | cons point rest ih =>
    rw [unquote_runs]
    split_ifs with hpoint
    · rw [List.append_cons] at hsequence
      have hrest := ih (run ++ [point]) hsequence
      rw [List.length_append, List.length_singleton] at hrest
      rw [List.length_cons]
      omega
    · have hmark : point ≠ 0x25 := by omega
      have hrun := (utf8.length_decode_replace_le _).trans (length_unquote_to_bytes_le run)
      have hrest := length_unquote_runs_le [] rest
      rw [List.length_nil] at hrest
      rw [has_sequence_append_apart hmark (hex_digit_of_not_ascii hpoint), Bool.or_eq_true] at hsequence
      rw [List.length_append, List.length_cons, List.length_cons]
      rcases hsequence with hleft | hright
      · have hshort := (utf8.length_decode_replace_le _).trans_lt (length_unquote_to_bytes_lt hleft)
        omega
      · have hshort := ih [] hright
        rw [List.length_nil] at hshort
        omega

/-- Unquoting keeps exactly the texts that have no percent sequence. -/
theorem unquote_eq_self_iff {text : PyStr} : unquote text = text ↔ has_sequence text = false := by
  constructor
  · intro hsame
    cases hsequence : has_sequence text with
    | false => rfl
    | true =>
      have hshort := length_unquote_runs_lt [] hsequence
      rw [← unquote, hsame, List.length_nil] at hshort
      omega
  · intro hplain
    have hempty : ∀ point ∈ ([] : PyStr), point < 0x80 := fun point hpoint => absurd hpoint List.not_mem_nil
    exact unquote_runs_of_plain hempty hplain

end Runs

section Quoting

variable {old high low : Nat}

/-- A sequence begins where it did when other characters are quoted. -/
theorem sequence_replace (hdigit : hex_digit old = none) (point : Nat) (rest : PyStr) :
    sequence (point :: replace old [0x25, high, low] rest) = sequence (point :: rest) := by
  have hsign : hex_digit 0x25 = none := by decide
  cases rest with
  | nil => rfl
  | cons first after =>
    by_cases hfirst : first = old
    · have hsequence : sequence (point :: old :: after) = none := by
        cases after with
        | nil => rfl
        | cons second more => rw [sequence, hex_byte_of_high hdigit, ite_self]
      rw [hfirst, replace_cons_old, hsequence, List.cons_append, List.cons_append, sequence, hex_byte_of_high hsign,
        ite_self]
    rw [replace_cons_other hfirst]
    cases after with
    | nil => rfl
    | cons second more =>
      by_cases hsecond : second = old
      · rw [hsecond, replace_cons_old, List.cons_append, sequence, sequence, hex_byte_of_low hsign,
          hex_byte_of_low hdigit]
      · rw [replace_cons_other hsecond, sequence, sequence]

variable (hbyte : hex_byte high low = some (UInt8.ofNat old)) (hmark : old ≠ 0x25) (hdigit : hex_digit old = none)
include hbyte hmark hdigit

/-- A character that does not belong to percent sequences is quoted without changing what is unquoted. -/
theorem unquote_to_bytes_replace (text : PyStr) :
    unquote_to_bytes (replace old [0x25, high, low] text) = unquote_to_bytes text := by
  induction text using sequence_induction with
  | nil => rfl
  | escaped first second byte rest hsequence ih =>
    obtain ⟨hfirst, hsecond⟩ := digits_of_hex_byte hsequence
    have hfirst_ne : first ≠ old := by
      rintro rfl
      rw [hdigit] at hfirst
      cases hfirst
    have hsecond_ne : second ≠ old := by
      rintro rfl
      rw [hdigit] at hsecond
      cases hsecond
    rw [replace_cons_other hmark.symm, replace_cons_other hfirst_ne, replace_cons_other hsecond_ne,
      unquote_to_bytes_sequence hsequence, unquote_to_bytes_sequence hsequence, ih]
  | plain point rest hplain ih =>
    by_cases hpoint : point = old
    · rw [hpoint] at hplain ⊢
      rw [replace_cons_old, List.cons_append, List.cons_append, List.singleton_append,
        unquote_to_bytes_sequence hbyte, unquote_to_bytes_plain hplain, ih]
    · have hreplaced : sequence (point :: replace old [0x25, high, low] rest) = none := by
        rw [sequence_replace hdigit, hplain]
      rw [replace_cons_other hpoint, unquote_to_bytes_plain hreplaced, unquote_to_bytes_plain hplain, ih]

theorem unquote_runs_replace (hold : old < 0x80) (run text : PyStr) :
    unquote_runs (replace old [0x25, high, low] run) (replace old [0x25, high, low] text) = unquote_runs run text := by
  induction text generalizing run with
  | nil =>
    change utf8.decode_replace (unquote_to_bytes (replace old [0x25, high, low] run)) = _
    rw [unquote_to_bytes_replace hbyte hmark hdigit]
    rfl
  | cons point rest ih =>
    have hrun := ih (run ++ [point])
    rw [replace_append] at hrun
    by_cases hpoint : point = old
    · rw [hpoint] at hrun ⊢
      rw [replace_cons_old, unquote_runs, if_pos hold, ← hrun, replace_cons_old]
      obtain ⟨hhigh, hlow⟩ := ascii_of_hex_byte hbyte
      have hsign : (0x25 : Nat) < 0x80 := by decide
      rw [List.cons_append, List.cons_append, List.singleton_append, unquote_runs, if_pos hsign, unquote_runs,
        if_pos hhigh, unquote_runs, if_pos hlow]
      simp only [List.append_assoc, List.cons_append, List.nil_append]
      rfl
    · rw [replace_cons_other hpoint] at hrun ⊢
      have hempty := ih []
      change unquote_runs [] (replace old [0x25, high, low] rest) = _ at hempty
      rw [unquote_runs, unquote_runs, unquote_to_bytes_replace hbyte hmark hdigit, hempty, ← hrun]
      rfl

/-- Quoting a character that does not belong to percent sequences does not change what is unquoted. -/
theorem unquote_replace (hold : old < 0x80) (text : PyStr) :
    unquote (replace old [0x25, high, low] text) = unquote text :=
  unquote_runs_replace hbyte hmark hdigit hold [] text

end Quoting

end percent
