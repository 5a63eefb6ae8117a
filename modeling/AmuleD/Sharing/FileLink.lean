import AmuleD.Download.Links
import AmuleD.Hashes.Ed2k

open chunking percent pystr
open amuled.download amuled.ed2k

namespace amuled.sharing

inductive FileLinkError where
  | SharingError (message : PyStr)
  | ValueError (message : PyStr)

/-- What a link needs of a shared file. -/
structure LinkedFile where
  name : PyStr
  size : Nat
  file_hash : Bytes
  hash_result : Option Ed2kHashResult

def part_hashes_field (part_hashes : List Bytes) : PyStr :=
  if part_hashes = [] then [] else lit "p=" ++ [0x3A].intercalate (part_hashes.map upper_hex) ++ lit "|"

def generate_ed2k_link (file : LinkedFile) (include_part_hashes : Bool) : Except FileLinkError PyStr :=
  match str_of file.size with
  | none => .error (.ValueError (lit "Exceeds the limit (4300 digits) for integer string conversion"))
  | some size_text =>
    let link := link_start ++ (replace 0x7C (lit "%7C") file.name ++ 0x7C :: (size_text ++ 0x7C ::
      (upper_hex file.file_hash ++ [0x7C])))
    if include_part_hashes then
      match file.hash_result with
      | none => .error (.SharingError (lit "part hashes require an ED2K hash result"))
      | some result =>
        if result.chunk_hashes = [] then .error (.SharingError (lit "part hashes require an ED2K hash result"))
        else .ok (link ++ part_hashes_field result.chunk_hashes.dropLast ++ lit "/")
    else .ok (link ++ lit "/")

/-- The shared file that a scan makes of a hash result. -/
def LinkedFile.of_result (name : PyStr) (result : Ed2kHashResult) : LinkedFile :=
  ⟨name, result.file_size, result.file_hash, some result⟩

def scanned (md4 : Md4) (name : PyStr) (content : Bytes) : LinkedFile :=
  .of_result name (ed2k_hash_file md4 content PARTSIZE partSize_pos)

/-- The part hashes that a `p=` field lists. -/
def listed_part_hashes (field : PyStr) : Option (List Bytes) :=
  if (lit "p=").isPrefixOf field then (split 0x3A (field.drop 2)).mapM pystr.fromhex else none

/-- The link of a file is read back with its name, size and hash, and every part hash that it lists is one of the
hashes of which the file hash is the MD4, and none is missing. -/
def LinkDescribes (md4 : Md4) (name : PyStr) (content : Bytes) : Prop :=
  ∃ link, generate_ed2k_link (scanned md4 name content) true = .ok link ∧
    parse_ed2k_file_link link = .ok ⟨name, content.length, (reference md4 PARTSIZE content).file_hash⟩ ∧
    ∀ field ∈ (link_fields link).drop 3, (lit "p=").isPrefixOf field = true →
      ∃ hashes, listed_part_hashes field = some hashes ∧
        md4.md4_digest hashes.flatten = (reference md4 PARTSIZE content).file_hash

section Proofs

variable {md4 : Md4} {name : PyStr} {content : Bytes}

theorem scanned_eq (md4 : Md4) (name : PyStr) (content : Bytes) :
    scanned md4 name content = .of_result name (reference md4 PARTSIZE content) := by
  rw [scanned, ed2k_hash_file_eq]

theorem file_size_eq (md4 : Md4) (content : Bytes) : (reference md4 PARTSIZE content).file_size = content.length := by
  rw [reference_eq]
  rfl

theorem chunk_hashes_eq (md4 : Md4) (content : Bytes) :
    (reference md4 PARTSIZE content).chunk_hashes =
      (whole PARTSIZE content).map md4.md4_digest ++ [md4.md4_digest (rest PARTSIZE content)] := by
  rw [reference_eq]
  exact referenceChunkHashes_eq partSize_pos content

/-- The part hashes of a field are read back. -/
theorem listed_eq {part_hashes : List Bytes} (hne : part_hashes ≠ []) :
    listed_part_hashes (lit "p=" ++ [0x3A].intercalate (part_hashes.map upper_hex)) = some part_hashes := by
  have hstart : (lit "p=").isPrefixOf (lit "p=" ++ [0x3A].intercalate (part_hashes.map upper_hex)) = true :=
    List.isPrefixOf_iff_prefix.mpr (List.prefix_append _ _)
  have hcolons : ∀ text ∈ part_hashes.map upper_hex, 0x3A ∉ text := by
    intro text htext
    obtain ⟨raw, _, rfl⟩ := List.mem_map.mp htext
    exact not_mem_upper_hex (by decide) raw
  have hread : ∀ hashes : List Bytes, (hashes.map upper_hex).mapM pystr.fromhex = some hashes := by
    intro hashes
    induction hashes with
    | nil => rfl
    | cons hash hashes ih =>
      rw [List.map_cons, List.mapM_cons, fromhex_upper_hex, ih]
      rfl
  have hdrop : (lit "p=" ++ [0x3A].intercalate (part_hashes.map upper_hex)).drop 2 =
      [0x3A].intercalate (part_hashes.map upper_hex) := rfl
  rw [listed_part_hashes, if_pos hstart, hdrop, split, List.splitOn_intercalate 0x3A hcolons
    (List.map_eq_nil_iff.not.mpr hne), hread]

theorem whole_eq_nil_iff : whole PARTSIZE content = [] ↔ content.length < PARTSIZE := by
  rw [whole, List.map_eq_nil_iff, List.range_eq_nil, Nat.div_eq_zero_iff]
  exact or_iff_right partSize_pos.ne'

/-- The hash of a file with a whole part is the MD4 of all its chunk hashes. -/
theorem file_hash_eq (hlarge : ¬ content.length < PARTSIZE) :
    (reference md4 PARTSIZE content).file_hash =
      md4.md4_digest (((whole PARTSIZE content).map md4.md4_digest).flatten ++
        md4.md4_digest (rest PARTSIZE content)) := by
  have hwhole : whole PARTSIZE content ≠ [] := fun hnil => hlarge (whole_eq_nil_iff.mp hnil)
  rw [reference_eq, referenceChunkHashes_eq partSize_pos, Ed2kHasher.resultOf]
  dsimp only
  rw [if_neg ?_, List.flatten_append, List.flatten_singleton]
  rw [List.length_append, List.length_map, List.length_singleton]
  have hpos := List.length_pos_of_ne_nil hwhole
  omega

theorem mem_intercalate {point separator : Nat} {texts : List PyStr} (hmem : point ∈ [separator].intercalate texts) :
    point = separator ∨ ∃ text ∈ texts, point ∈ text := by
  induction texts with
  | nil => cases hmem
  | cons first texts ih =>
    cases texts with
    | nil =>
      rw [List.intercalate_singleton] at hmem
      exact .inr ⟨first, List.mem_cons_self, hmem⟩
    | cons second texts =>
      rw [List.intercalate_cons_cons, List.append_assoc, List.mem_append, List.mem_append, List.mem_singleton] at hmem
      rcases hmem with hfirst | hsep | hrest
      · exact .inr ⟨first, List.mem_cons_self, hfirst⟩
      · exact .inl hsep
      · refine (ih hrest).imp_right ?_
        rintro ⟨text, htext, hin⟩
        exact ⟨text, List.mem_cons_of_mem _ htext, hin⟩

/-- What follows the hash in a link: the field of the part hashes, where there are any, and a slash. -/
theorem split_part_hashes_field (part_hashes : List Bytes) :
    split 0x7C (part_hashes_field part_hashes ++ [0x2F]) =
      if part_hashes = [] then [lit "/"]
      else [lit "p=" ++ [0x3A].intercalate (part_hashes.map upper_hex), lit "/"] := by
  rw [part_hashes_field]
  split
  · rfl
  · have hbar : 0x7C ∉ lit "p=" ++ [0x3A].intercalate (part_hashes.map upper_hex) := by
      intro hmem
      rcases List.mem_append.mp hmem with hmark | htexts
      · exact absurd hmark (by decide)
      · rcases mem_intercalate htexts with hcolon | ⟨text, htext, hin⟩
        · cases hcolon
        · obtain ⟨raw, _, rfl⟩ := List.mem_map.mp htext
          exact not_mem_upper_hex (by decide) raw hin
    have hend : lit "|" ++ [0x2F] = 0x7C :: lit "/" := rfl
    rw [List.append_assoc, hend, split, List.splitOn_append_cons_self_of_not_mem hbar]
    rfl

theorem str_of_length (hdigits : (Nat.digits 10 content.length).length ≤ max_str_digits) :
    str_of (content.length : Int) = some (decimal_text content.length) := by
  have hnonneg : ¬ (content.length : Int) < 0 := Int.not_lt.mpr (Int.natCast_nonneg _)
  rw [str_of, Int.natAbs_natCast, if_pos hdigits, if_neg hnonneg]

theorem generate_of_result {name size_text : PyStr} {result : Ed2kHashResult}
    (htext : str_of result.file_size = some size_text) (hne : result.chunk_hashes ≠ []) :
    generate_ed2k_link (.of_result name result) true =
      .ok (link_start ++ (replace 0x7C (lit "%7C") name ++ 0x7C :: (size_text ++ 0x7C ::
        (upper_hex result.file_hash ++ 0x7C :: (part_hashes_field result.chunk_hashes.dropLast ++ [0x2F]))))) := by
  have hslash : lit "/" = [0x2F] := rfl
  rw [generate_ed2k_link, LinkedFile.of_result]
  dsimp only
  rw [htext]
  dsimp only
  rw [if_pos rfl, if_neg hne, hslash]
  simp only [List.append_assoc, List.cons_append, List.nil_append]

theorem generate_eq (md4 : Md4) (name : PyStr) (content : Bytes)
    (hdigits : (Nat.digits 10 content.length).length ≤ max_str_digits) :
    generate_ed2k_link (scanned md4 name content) true =
      .ok (link_start ++ (replace 0x7C (lit "%7C") name ++ 0x7C :: (decimal_text content.length ++ 0x7C ::
        (upper_hex (reference md4 PARTSIZE content).file_hash ++ 0x7C ::
          (part_hashes_field ((whole PARTSIZE content).map md4.md4_digest) ++ [0x2F]))))) := by
  have hne : (reference md4 PARTSIZE content).chunk_hashes ≠ [] := by
    rw [chunk_hashes_eq]
    exact List.append_ne_nil_of_right_ne_nil _ (List.cons_ne_nil _ _)
  have htext : str_of ((reference md4 PARTSIZE content).file_size : Int) = some (decimal_text content.length) := by
    rw [file_size_eq]
    exact str_of_length hdigits
  rw [scanned_eq, generate_of_result htext hne, chunk_hashes_eq, List.dropLast_concat]

/-- The link that is made, and what is read of it. -/
theorem exists_link (md4 : Md4) (hname : name ≠ []) (hdigits : (Nat.digits 10 content.length).length ≤ max_str_digits) :
    ∃ link, generate_ed2k_link (scanned md4 name content) true = .ok link ∧
      (parse_ed2k_file_link link = .ok ⟨name, content.length, (reference md4 PARTSIZE content).file_hash⟩ ↔
        has_sequence name = false) ∧
      (link_fields link).drop 3 = if (whole PARTSIZE content).map md4.md4_digest = [] then [lit "/"]
        else [lit "p=" ++ [0x3A].intercalate (((whole PARTSIZE content).map md4.md4_digest).map upper_hex), lit "/"] := by
  have hhash : (reference md4 PARTSIZE content).file_hash.length = 16 := ed2k.length_file_hash partSize_pos content
  obtain ⟨hfields, hparsed⟩ := parse_text hname (Int.natCast_nonneg content.length) hhash (str_of_length hdigits)
    (part_hashes_field ((whole PARTSIZE content).map md4.md4_digest))
  refine ⟨_, generate_eq md4 name content hdigits, ?_, ?_⟩
  · rw [hparsed]
    exact unquoted_eq_iff hname
  · rw [hfields, List.drop_succ_cons, List.drop_succ_cons, List.drop_succ_cons, List.drop_zero]
    exact split_part_hashes_field _

theorem generate_of_no_text {result : Ed2kHashResult} (hnone : str_of result.file_size = none) (link : PyStr) :
    generate_ed2k_link (.of_result name result) true ≠ .ok link := by
  rw [generate_ed2k_link, LinkedFile.of_result]
  dsimp only
  rw [hnone]
  exact nofun

theorem generate_of_long (hdigits : ¬ (Nat.digits 10 content.length).length ≤ max_str_digits) (link : PyStr) :
    generate_ed2k_link (scanned md4 name content) true ≠ .ok link := by
  have hnone : str_of ((reference md4 PARTSIZE content).file_size : Int) = none := by
    rw [file_size_eq, str_of, Int.natAbs_natCast, if_neg hdigits]
  rw [scanned_eq]
  exact generate_of_no_text hnone link

/-- What a link of a size that has a text describes. -/
theorem linkDescribes_of_digits (md4 : Md4) (hname : name ≠ [])
    (hdigits : (Nat.digits 10 content.length).length ≤ max_str_digits) :
    LinkDescribes md4 name content ↔
      has_sequence name = false ∧
        (content.length < PARTSIZE ∨ md4.md4_digest ((whole PARTSIZE content).map md4.md4_digest).flatten =
          md4.md4_digest (((whole PARTSIZE content).map md4.md4_digest).flatten ++
            md4.md4_digest (rest PARTSIZE content))) := by
  obtain ⟨link, hgenerated, hparsed, hfields⟩ := exists_link md4 hname hdigits
  have hdescribes : LinkDescribes md4 name content ↔ has_sequence name = false ∧
      ∀ field ∈ (link_fields link).drop 3, (lit "p=").isPrefixOf field = true →
        ∃ hashes, listed_part_hashes field = some hashes ∧
          md4.md4_digest hashes.flatten = (reference md4 PARTSIZE content).file_hash := by
    rw [← hparsed]
    constructor
    · rintro ⟨other, hother, hread⟩
      cases hgenerated.symm.trans hother
      exact hread
    · exact fun hread => ⟨link, hgenerated, hread⟩
  rw [hdescribes, hfields]
  refine and_congr_right fun _ => ?_
  have hslash : ¬ (lit "p=").isPrefixOf (lit "/") = true := by decide
  by_cases hsmall : content.length < PARTSIZE
  · have hnone : (whole PARTSIZE content).map md4.md4_digest = [] :=
      List.map_eq_nil_iff.mpr (whole_eq_nil_iff.mpr hsmall)
    refine iff_of_true ?_ (.inl hsmall)
    rw [if_pos hnone]
    intro field hfield hlists
    rw [List.mem_singleton.mp hfield] at hlists
    exact absurd hlists hslash
  · have hsome : (whole PARTSIZE content).map md4.md4_digest ≠ [] :=
      fun hnil => hsmall (whole_eq_nil_iff.mp (List.map_eq_nil_iff.mp hnil))
    rw [if_neg hsome, or_iff_right hsmall, ← file_hash_eq hsmall]
    constructor
    · intro hlisted
      obtain ⟨hashes, hread, hsame⟩ := hlisted _ List.mem_cons_self
        (List.isPrefixOf_iff_prefix.mpr (List.prefix_append _ _))
      rw [listed_eq hsome, Option.some.injEq] at hread
      rwa [hread]
    · intro hsame field hfield hlists
      rcases List.mem_pair.mp hfield with rfl | rfl
      · exact ⟨_, listed_eq hsome, hsame⟩
      · exact absurd hlists hslash

/-- The link of a scanned file describes it exactly where its name has no percent sequence, its size has no more digits
than can be converted, and it has no whole part, or the MD4 of the hashes of its whole parts is that of all its chunk
hashes. -/
theorem linkDescribes_iff (md4 : Md4) {name : PyStr} (hname : name ≠ []) (content : Bytes) :
    LinkDescribes md4 name content ↔
      has_sequence name = false ∧ (Nat.digits 10 content.length).length ≤ max_str_digits ∧
        (content.length < PARTSIZE ∨ md4.md4_digest ((whole PARTSIZE content).map md4.md4_digest).flatten =
          md4.md4_digest (((whole PARTSIZE content).map md4.md4_digest).flatten ++
            md4.md4_digest (rest PARTSIZE content))) := by
  by_cases hdigits : (Nat.digits 10 content.length).length ≤ max_str_digits
  · rw [linkDescribes_of_digits md4 hname hdigits, and_iff_right hdigits]
  · refine iff_of_false ?_ fun h => hdigits h.2.1
    rintro ⟨link, hlink, -⟩
    exact generate_of_long hdigits link hlink

end Proofs

section Samples

/-- A hash that tells the length of what it hashes. -/
def lengthHash : HashFn 16 := ⟨fun data => UInt8.ofNat data.length :: List.replicate 15 0, fun _ => rfl⟩

/-- A file of one byte. -/
theorem linkDescribes_iff_one_byte : LinkDescribes (Md4.buffered (zeroHash 16)) (lit "a") [7] :=
  (linkDescribes_iff (Md4.buffered (zeroHash 16)) (by decide) [7]).mpr ⟨by decide, by decide, .inl (by decide)⟩

/-- A file that is one whole part: its link lists one part hash, and the file hash is the MD4 of two. -/
theorem whole_part_not_described :
    ¬ LinkDescribes (Md4.buffered lengthHash) (lit "a") (List.replicate PARTSIZE 0) := by
  obtain ⟨content, hcontent⟩ : ∃ content : Bytes, content = List.replicate PARTSIZE 0 := ⟨_, rfl⟩
  have hlength : content.length = PARTSIZE := by rw [hcontent, List.length_replicate]
  obtain ⟨hashes, hhashes⟩ : ∃ hashes, hashes =
      ((whole PARTSIZE content).map (Md4.buffered lengthHash).md4_digest).flatten := ⟨_, rfl⟩
  have hsixteen : hashes.length = 16 := by
    have hone : PARTSIZE / PARTSIZE = 1 := Nat.div_self partSize_pos
    rw [hhashes, List.length_flatten, whole, hlength, hone]
    rfl
  have hlast : ((Md4.buffered lengthHash).md4_digest (rest PARTSIZE content)).length = 16 :=
    (Md4.buffered lengthHash).hash.length_apply _
  rw [← hcontent, linkDescribes_of_digits _ (by decide) (by rw [hlength]; decide), ← hhashes]
  rintro ⟨-, hsmall | hsame⟩
  · exact absurd hlength hsmall.ne
  · rw [Md4.md4_digest_buffered, Md4.md4_digest_buffered] at hsame
    have hfirst := congrArg List.head? hsame
    change some (UInt8.ofNat hashes.length) = some (UInt8.ofNat _) at hfirst
    rw [List.length_append, hsixteen, hlast] at hfirst
    exact absurd hfirst (by decide)

end Samples

end amuled.sharing
