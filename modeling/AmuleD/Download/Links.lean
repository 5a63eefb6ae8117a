import AmuleD.Percent
import AmuleD.Basic

open pystr percent

namespace amuled.download

/-- The exceptions of the link functions, of which callers expect the first. -/
inductive LinkError where
  | Ed2kLinkError (message : PyStr)
  | ValueError (message : PyStr)
  deriving DecidableEq

structure Ed2kFileLink where
  name : PyStr
  size : Int
  file_hash : Bytes
  deriving DecidableEq

def link_start : PyStr := lit "ed2k://|file|"

def build_ed2k_file_link (name : PyStr) (size : Int) (file_hash : Bytes) : Except LinkError PyStr :=
  if name = [] then .error (.Ed2kLinkError (lit "ED2K file name cannot be empty"))
  else if size < 0 then .error (.Ed2kLinkError (lit "ED2K file size cannot be negative"))
  else if file_hash.length ≠ 16 then .error (.Ed2kLinkError (lit "ED2K file hash must contain exactly 16 bytes"))
  else
    match str_of size with
    | none =>
      .error (.ValueError (lit ("Exceeds the limit (4300 digits) for integer string conversion; " ++
        "use sys.set_int_max_str_digits() to increase the limit")))
    | some size_text =>
      .ok (link_start ++ (replace 0x7C (lit "%7C") name ++ 0x7C :: (size_text ++ 0x7C :: (upper_hex file_hash ++
        lit "|/"))))

/-- The fields behind the start of a link. -/
def link_fields (link : PyStr) : List PyStr := split 0x7C ((strip link).drop link_start.length)

/-- The first three fields, one check after the other. -/
def parse_fields (encoded_name size_text hash_text : PyStr) : Except LinkError Ed2kFileLink :=
  if encoded_name = [] ∨ size_text = [] ∨ hash_text = [] then
    .error (.Ed2kLinkError (lit "ed2k file link has an empty field"))
  else
    match int_of size_text with
    | none => .error (.Ed2kLinkError (lit "invalid ED2K file size: " ++ size_text))
    | some size =>
      if size < 0 then .error (.Ed2kLinkError (lit "ED2K file size cannot be negative"))
      else if hash_text.length ≠ 32 then
        .error (.Ed2kLinkError (lit "ED2K file hash must contain 32 hexadecimal digits"))
      else
        match pystr.fromhex hash_text with
        | none => .error (.Ed2kLinkError (lit "invalid ED2K file hash: " ++ hash_text))
        | some file_hash =>
          if unquote encoded_name = [] then .error (.Ed2kLinkError (lit "ED2K file name cannot be empty"))
          else .ok ⟨unquote encoded_name, size, file_hash⟩

def parse_ed2k_file_link (link : PyStr) : Except LinkError Ed2kFileLink :=
  if link_start.isPrefixOf (lower (strip link)) then
    match link_fields link with
    | encoded_name :: size_text :: hash_text :: _ => parse_fields encoded_name size_text hash_text
    | _ => .error (.Ed2kLinkError (lit "ed2k file link must contain name, size, and hash fields"))
  else .error (.Ed2kLinkError (lit "not an ed2k file link"))

section RoundTrip

variable {name size_text : PyStr} {size : Int} {file_hash : Bytes}

theorem build_ok (hname : name ≠ []) (hsize : 0 ≤ size) (hhash : file_hash.length = 16)
    (htext : str_of size = some size_text) :
    build_ed2k_file_link name size file_hash =
      .ok (link_start ++ (replace 0x7C (lit "%7C") name ++ 0x7C :: (size_text ++ 0x7C :: (upper_hex file_hash ++
        lit "|/")))) := by
  rw [build_ed2k_file_link, if_neg hname, if_neg (Int.not_lt.mpr hsize), if_neg (not_not.mpr hhash), htext]

/-- A link that was built had everything that the builder asks for. -/
theorem build_cases {link : PyStr} (hbuilt : build_ed2k_file_link name size file_hash = .ok link) :
    name ≠ [] ∧ 0 ≤ size ∧ file_hash.length = 16 ∧ ∃ size_text, str_of size = some size_text := by
  rw [build_ed2k_file_link] at hbuilt
  split_ifs at hbuilt with hname hsize hhash
  split at hbuilt
  · cases hbuilt
  · rename_i text htext
    exact ⟨hname, Int.not_lt.mp hsize, not_not.mp hhash, text, htext⟩

theorem parse_fields_built (hname : name ≠ []) (hsize : 0 ≤ size) (hhash : file_hash.length = 16)
    (htext : str_of size = some size_text) :
    parse_fields (replace 0x7C (lit "%7C") name) size_text (upper_hex file_hash) =
      if unquote name = [] then .error (.Ed2kLinkError (lit "ED2K file name cannot be empty"))
      else .ok ⟨unquote name, size, file_hash⟩ := by
  have hquoted : replace 0x7C (lit "%7C") name ≠ [] := replace_ne_nil (by decide) hname
  have hdigits : size_text ≠ [] := str_of_nonneg hsize htext ▸ decimal_text_ne_nil _
  have hlength : (upper_hex file_hash).length = 32 := by rw [length_upper_hex, hhash]
  have hhex : upper_hex file_hash ≠ [] := List.ne_nil_of_length_pos (by rw [hlength]; decide)
  have hunquote : unquote (replace 0x7C (lit "%7C") name) = unquote name :=
    unquote_replace (by rfl) (by decide) (by rfl) (by decide) name
  rw [parse_fields, if_neg (by simp only [hquoted, hdigits, hhex, or_self, not_false_eq_true]), int_of_str_of htext]
  dsimp only
  rw [if_neg (Int.not_lt.mpr hsize), if_neg (not_not.mpr hlength), fromhex_upper_hex, hunquote]

/-- A text from the start of a link to a slash has nothing to strip. -/
theorem strip_link (text : PyStr) : strip (link_start ++ (text ++ [0x2F])) = link_start ++ (text ++ [0x2F]) := by
  have hlink : link_start ++ (text ++ [0x2F]) = 0x65 :: (link_start.tail ++ text ++ [0x2F]) := by
    rw [List.append_assoc, ← List.cons_append]
    rfl
  rw [strip, hlink]
  exact strip_by_ends (by rfl) (by rfl) _

theorem starts_as_link (text : PyStr) : link_start.isPrefixOf (lower (link_start ++ text)) = true := by
  have hlower : lower (link_start ++ text) = link_start ++ lower text := List.flatMap_append
  rw [hlower, List.isPrefixOf_iff_prefix]
  exact List.prefix_append _ _

/-- What a link is parsed into, whatever fields follow the first three. -/
theorem parse_text (hname : name ≠ []) (hsize : 0 ≤ size) (hhash : file_hash.length = 16)
    (htext : str_of size = some size_text) (tail : PyStr) :
    link_fields (link_start ++ (replace 0x7C (lit "%7C") name ++ 0x7C :: (size_text ++ 0x7C :: (upper_hex file_hash ++
        0x7C :: (tail ++ [0x2F]))))) =
        replace 0x7C (lit "%7C") name :: size_text :: upper_hex file_hash :: split 0x7C (tail ++ [0x2F]) ∧
      parse_ed2k_file_link (link_start ++ (replace 0x7C (lit "%7C") name ++ 0x7C :: (size_text ++ 0x7C ::
        (upper_hex file_hash ++ 0x7C :: (tail ++ [0x2F]))))) =
        if unquote name = [] then .error (.Ed2kLinkError (lit "ED2K file name cannot be empty"))
        else .ok ⟨unquote name, size, file_hash⟩ := by
  obtain ⟨link, hlink⟩ : ∃ link, link = link_start ++ (replace 0x7C (lit "%7C") name ++ 0x7C :: (size_text ++ 0x7C ::
      (upper_hex file_hash ++ 0x7C :: (tail ++ [0x2F])))) := ⟨_, rfl⟩
  have hstripped : strip link = link := by
    have hends : link = link_start ++ ((replace 0x7C (lit "%7C") name ++ 0x7C :: (size_text ++ 0x7C ::
        (upper_hex file_hash ++ 0x7C :: tail))) ++ [0x2F]) := by
      rw [hlink]
      simp only [List.append_assoc, List.cons_append]
    rw [hends, strip_link]
  have hname_bar : 0x7C ∉ replace 0x7C (lit "%7C") name := not_mem_replace (by decide) name
  have hsize_bar : 0x7C ∉ size_text := by
    rw [str_of_nonneg hsize htext]
    intro hmem
    have hrange := mem_decimal_text hmem
    omega
  have hhash_bar : 0x7C ∉ upper_hex file_hash := not_mem_upper_hex (by decide) file_hash
  have hfields : link_fields link =
      replace 0x7C (lit "%7C") name :: size_text :: upper_hex file_hash :: split 0x7C (tail ++ [0x2F]) := by
    rw [link_fields, hstripped, hlink, List.drop_left, split,
      List.splitOn_append_cons_self_of_not_mem hname_bar, List.splitOn_append_cons_self_of_not_mem hsize_bar,
      List.splitOn_append_cons_self_of_not_mem hhash_bar]
    rfl
  have hstart : link_start.isPrefixOf (lower (strip link)) = true := by
    rw [hstripped, hlink]
    exact starts_as_link _
  rw [← hlink]
  refine ⟨hfields, ?_⟩
  rw [parse_ed2k_file_link, if_pos hstart, hfields]
  exact parse_fields_built hname hsize hhash htext

/-- What a built link is parsed into. -/
theorem parse_built {link : PyStr} (hbuilt : build_ed2k_file_link name size file_hash = .ok link) :
    parse_ed2k_file_link link = if unquote name = [] then .error (.Ed2kLinkError (lit "ED2K file name cannot be empty"))
      else .ok ⟨unquote name, size, file_hash⟩ := by
  obtain ⟨hname, hsize, hhash, size_text, htext⟩ := build_cases hbuilt
  rw [build_ok hname hsize hhash htext, Except.ok.injEq] at hbuilt
  rw [← hbuilt]
  exact (parse_text hname hsize hhash htext []).2

theorem unquoted_eq_iff (hname : name ≠ []) :
    (if unquote name = [] then .error (.Ed2kLinkError (lit "ED2K file name cannot be empty"))
      else .ok ⟨unquote name, size, file_hash⟩ : Except LinkError Ed2kFileLink) = .ok ⟨name, size, file_hash⟩ ↔
      has_sequence name = false := by
  rw [← unquote_eq_self_iff]
  constructor
  · intro hparsed
    split_ifs at hparsed
    rw [Except.ok.injEq, Ed2kFileLink.mk.injEq] at hparsed
    exact hparsed.1
  · intro hsame
    rw [hsame, if_neg hname]

/-- Parsing a built link gives back what it was built of where the name has no percent sequence. -/
theorem parse_built_iff {link : PyStr} (hbuilt : build_ed2k_file_link name size file_hash = .ok link) :
    parse_ed2k_file_link link = .ok ⟨name, size, file_hash⟩ ↔ has_sequence name = false := by
  rw [parse_built hbuilt]
  exact unquoted_eq_iff (build_cases hbuilt).1

/-- A link is built and parsed again exactly where the name has no percent sequence and the size has a text. -/
theorem round_trip_iff (hname : name ≠ []) (hsize : 0 ≤ size) (hhash : file_hash.length = 16) :
    (∃ link, build_ed2k_file_link name size file_hash = .ok link ∧
        parse_ed2k_file_link link = .ok ⟨name, size, file_hash⟩) ↔
      has_sequence name = false ∧ (Nat.digits 10 size.natAbs).length ≤ max_str_digits := by
  constructor
  · rintro ⟨link, hbuilt, hparsed⟩
    obtain ⟨_, _, _, size_text, htext⟩ := build_cases hbuilt
    refine ⟨(parse_built_iff hbuilt).mp hparsed, ?_⟩
    rw [str_of] at htext
    split_ifs at htext with hfits <;> exact hfits
  · rintro ⟨hplain, hfits⟩
    have hbuilt := build_ok hname hsize hhash (if_pos hfits)
    exact ⟨_, hbuilt, (parse_built_iff hbuilt).mpr hplain⟩

/-- A link that was parsed had its fields in their places. -/
theorem parse_cases {link : PyStr} {parsed : Ed2kFileLink} (hparsed : parse_ed2k_file_link link = .ok parsed) :
    ∃ encoded_name size_text hash_text rest, link_fields link = encoded_name :: size_text :: hash_text :: rest ∧
      parsed.name = unquote encoded_name ∧ parsed.name ≠ [] ∧ int_of size_text = some parsed.size ∧ 0 ≤ parsed.size ∧
      hash_text.length = 32 ∧ pystr.fromhex hash_text = some parsed.file_hash := by
  rw [parse_ed2k_file_link] at hparsed
  split_ifs at hparsed
  split at hparsed
  · rename_i encoded_name size_text hash_text rest hfields
    rw [parse_fields] at hparsed
    split at hparsed
    · cases hparsed
    cases hint : int_of size_text with
    | none =>
      rw [hint] at hparsed
      cases hparsed
    | some size =>
      rw [hint] at hparsed
      cases hhex : pystr.fromhex hash_text with
      | none =>
        rw [hhex] at hparsed
        dsimp only at hparsed
        split_ifs at hparsed
      | some file_hash =>
        rw [hhex] at hparsed
        dsimp only at hparsed
        split_ifs at hparsed with hnegative hlength hname
        rw [Except.ok.injEq] at hparsed
        subst hparsed
        exact ⟨encoded_name, size_text, hash_text, rest, hfields, rfl, hname, hint, Int.not_lt.mp hnegative,
          not_not.mp hlength, hhex⟩
  · cases hparsed

end RoundTrip

/-- Links are built and parsed again where the name has no percent sequence and the size has no more digits than
can be converted, and parsed links are built again where the unquoted name has no percent sequence and there is no
white space in the hash. -/
theorem ed2k_link_round_trip_iff {name : PyStr} {size : Int} {file_hash : Bytes} (hname : name ≠ []) (hsize : 0 ≤ size)
    (hhash : file_hash.length = 16) :
    ((∃ link, build_ed2k_file_link name size file_hash = .ok link ∧
        parse_ed2k_file_link link = .ok ⟨name, size, file_hash⟩) ↔
      has_sequence name = false ∧ (Nat.digits 10 size.natAbs).length ≤ max_str_digits) ∧
    ∀ link parsed, parse_ed2k_file_link link = .ok parsed →
      ((∃ again, build_ed2k_file_link parsed.name parsed.size parsed.file_hash = .ok again ∧
          parse_ed2k_file_link again = .ok parsed) ↔
        has_sequence (unquote ((link_fields link).getD 0 [])) = false ∧
          ∀ point ∈ (link_fields link).getD 2 [], hex_space point = false) := by
  refine ⟨round_trip_iff hname hsize hhash, ?_⟩
  intro link parsed hparsed
  obtain ⟨encoded_name, size_text, hash_text, rest, hfields, hname_eq, hname, hint, hsize, hlength, hhex⟩ :=
    parse_cases hparsed
  have hcount := length_of_fromhex hhex
  have hspaces : parsed.file_hash.length = 16 ↔ ∀ point ∈ hash_text, hex_space point = false := by
    have hzero : hash_text.countP hex_space = 0 ↔ ∀ point ∈ hash_text, hex_space point = false := by
      simp only [List.countP_eq_zero, Bool.not_eq_true]
    rw [← hzero]
    omega
  obtain ⟨again_text, hagain⟩ := str_of_int_of hint
  rw [hfields, List.getD_cons_zero, List.getD_cons_succ, List.getD_cons_succ, List.getD_cons_zero, ← hname_eq, ← hspaces]
  constructor
  · rintro ⟨again, hbuilt, hagain⟩
    exact ⟨(parse_built_iff hbuilt).mp hagain, (build_cases hbuilt).2.2.1⟩
  · rintro ⟨hplain, hhash⟩
    have hbuilt := build_ok hname hsize hhash hagain
    exact ⟨_, hbuilt, (parse_built_iff hbuilt).mpr hplain⟩

theorem ed2k_link_round_trip_iff_one :
    ((∃ link, build_ed2k_file_link (lit "a|b") 7 (List.replicate 16 0) = .ok link ∧
        parse_ed2k_file_link link = .ok ⟨lit "a|b", 7, List.replicate 16 0⟩) ↔
      has_sequence (lit "a|b") = false ∧ (Nat.digits 10 (7 : Int).natAbs).length ≤ max_str_digits) ∧
    ∀ link parsed, parse_ed2k_file_link link = .ok parsed →
      ((∃ again, build_ed2k_file_link parsed.name parsed.size parsed.file_hash = .ok again ∧
          parse_ed2k_file_link again = .ok parsed) ↔
        has_sequence (unquote ((link_fields link).getD 0 [])) = false ∧
          ∀ point ∈ (link_fields link).getD 2 [], hex_space point = false) :=
  ed2k_link_round_trip_iff (by decide) (by decide) List.length_replicate

/-- A name with a percent sequence comes back as another one. -/
theorem percent_name_changes :
    build_ed2k_file_link (lit "a%20b") 7 (List.replicate 16 0) =
        .ok (lit "ed2k://|file|a%20b|7|00000000000000000000000000000000|/") ∧
      parse_ed2k_file_link (lit "ed2k://|file|a%20b|7|00000000000000000000000000000000|/") =
        .ok ⟨lit "a b", 7, List.replicate 16 0⟩ ∧
      lit "a b" ≠ lit "a%20b" := by
  refine ⟨?_, ?_, ?_⟩
  · decide
  · decide
  · decide

end amuled.download
