import Mathlib.Data.List.Chain
import Mathlib.Data.List.Infix
import AmuleD.Codec.Tags

open littleendian cursor

namespace amuled.server

/-- One entry of an `OP_SEARCHRESULT`. -/
structure SearchResult where
  file_hash : Bytes
  client_id : Nat
  client_port : Nat
  tags : List Ed2kTag
  deriving DecidableEq

namespace SearchResult

/-- The value of the first tag with a given `name_id`. -/
def tag_value (result : SearchResult) (name_id : UInt8) : Option TagValue :=
  (result.tags.find? fun tag => tag.identifier = .name_id name_id).map Ed2kTag.value

/-- The source count. A `bool` is an `int` in Python. -/
def sources (result : SearchResult) : ℤ :=
  match result.tag_value 0x15 with
  | some (.int value) => value
  | some (.bool value) => if value then 1 else 0
  | _ => 0

end SearchResult

def read_search_result : BinaryRead SearchResult := do
  let file_hash ← read_hash16
  let client_id ← read_u32
  let client_port ← read_u16
  let tag_count ← read_u32
  let tags ← repeatN read_new_tag tag_count
  pure ⟨file_hash, client_id, client_port, tags⟩

/-- The entries, which both parsers read alike. -/
def read_search_results : BinaryRead (List SearchResult) := do
  let result_count ← read_u32
  repeatN read_search_result result_count

/-- The end of the payload: a flag that says whether there are more results, or nothing. -/
def read_more_results : BinaryRead Bool := do
  let reader ← get
  if reader.remaining = 1 then (fun more_byte => more_byte = 1) <$> read_u8
  else if reader.remaining ≠ 0 then
    throw (.ProtocolError s!"OP_SEARCHRESULT has {reader.remaining} unexpected trailing bytes")
  else pure false

/-- `parse_search_results`, which turns the exceptions of the codec into its own. -/
def parse_search_results (payload : Bytes) : Except Exc (List SearchResult × Bool) :=
  match (do pure (← read_search_results, ← read_more_results) : BinaryRead _) ⟨payload, 0⟩ with
  | .ok (response, _) => .ok response
  | .error (.CodecError message) => .error (.ProtocolError s!"malformed OP_SEARCHRESULT: {message}")
  | .error (.TagError message) => .error (.ProtocolError s!"malformed OP_SEARCHRESULT: {message}")
  | .error e => .error e

/-- `_parse_global_search_result_lenient`, which does not look at what follows the entries. -/
def parse_global_search_result_lenient (payload : Bytes) : Except Exc (List SearchResult) :=
  Prod.fst <$> read_search_results ⟨payload, 0⟩

/-- What the parser of a global result looks for in the message of a `ProtocolError`. -/
def trailing_marker : String := "unexpected trailing bytes"

def parse_global_search_result (payload : Bytes) : Except Exc (List SearchResult) :=
  match parse_search_results payload with
  | .ok (results, _) => .ok results
  | .error (.ProtocolError message) =>
    if trailing_marker.toList <:+: message.toList then parse_global_search_result_lenient payload
    else .error (.GlobalUdpSearchError s!"malformed OP_GLOBSEARCHRES: {message}")
  | .error e => .error e

section Messages

/-- No `i` is followed by an `l`, and the text does not end in an `i`. -/
def Apart (text : List Char) : Prop :=
  text.IsChain (fun a b => a = 'i' → b ≠ 'l') ∧ ∀ c ∈ text.getLast?, c ≠ 'i'

instance (text : List Char) : Decidable (Apart text) :=
  @instDecidableAnd _ _ inferInstance (Option.decidableForallMem text.getLast?)

theorem Apart.append {front back : List Char} (hfront : Apart front) (hback : Apart back) :
    Apart (front ++ back) := by
  constructor
  · rw [List.isChain_append]
    exact ⟨hfront.1, hback.1, fun a ha _ _ hi => absurd hi (hfront.2 a ha)⟩
  · intro c hc
    cases hlast : back.getLast? with
    | none =>
      rw [List.getLast?_append, hlast, Option.none_or] at hc
      exact hfront.2 c hc
    | some last =>
      rw [List.getLast?_append, hlast, Option.some_or] at hc
      exact hback.2 c (hlast ▸ hc)

theorem apart_of_not_mem {text : List Char} (hi : 'i' ∉ text) : Apart text := by
  constructor
  · apply List.Pairwise.isChain
    rw [List.pairwise_iff_forall_sublist]
    intro a b hsublist ha
    subst ha
    exact absurd (hsublist.subset List.mem_cons_self) hi
  · rintro c hc rfl
    exact hi (List.mem_of_getLast? hc)

/-- Such a text does not contain what the parser looks for. -/
theorem Apart.not_marker {text : List Char} (h : Apart text) : ¬ trailing_marker.toList <:+: text := by
  intro hmarker
  have hchain := List.IsChain.infix h.1 hmarker
  revert hchain
  decide

theorem mem_toDigits {base value : Nat} {c : Char} (hc : c ∈ Nat.toDigits base value) :
    ∃ digit, c = Nat.digitChar digit := by
  have hcore : ∀ fuel value digits, (∀ d ∈ digits, ∃ digit, d = Nat.digitChar digit) →
      ∀ d ∈ Nat.toDigitsCore base fuel value digits, ∃ digit, d = Nat.digitChar digit := by
    intro fuel
    induction fuel with
    | zero =>
      intro value digits hdigits
      exact hdigits
    | succ fuel ih =>
      intro value digits hdigits
      have hcons : ∀ d ∈ Nat.digitChar (value % base) :: digits, ∃ digit, d = Nat.digitChar digit := by
        rw [List.forall_mem_cons]
        exact ⟨⟨_, rfl⟩, hdigits⟩
      rw [Nat.toDigitsCore]
      split
      · exact hcons
      · exact ih _ _ hcons
  exact hcore _ _ [] (fun _ hd => absurd hd List.not_mem_nil) c hc

theorem digitChar_ne_i (digit : Nat) : Nat.digitChar digit ≠ 'i' ∧ (Nat.digitChar digit).toUpper ≠ 'i' := by
  by_cases hdigit : digit < 16
  · have hall : ∀ n < 16, Nat.digitChar n ≠ 'i' ∧ (Nat.digitChar n).toUpper ≠ 'i' := by decide
    exact hall digit hdigit
  · rw [Nat.digitChar_eq_star.mpr (not_lt.mp hdigit)]
    decide

theorem apart_repr (value : Nat) : Apart (toString value).toList := by
  apply apart_of_not_mem
  intro hi
  rw [show (toString value).toList = Nat.toDigits 10 value from String.toList_ofList] at hi
  obtain ⟨digit, hdigit⟩ := mem_toDigits hi
  exact (digitChar_ne_i digit).1 hdigit.symm

theorem apart_hex_upper (width value : Nat) : Apart (hex_upper width value).toList := by
  have htext : (hex_upper width value).toList =
      "0x".toList ++ ((Nat.toDigits 16 value).map Char.toUpper).leftpad width '0' :=
    String.toList_append.trans (congrArg ("0x".toList ++ ·) String.toList_ofList)
  have hprefix : Apart "0x".toList := by decide
  rw [htext]
  apply hprefix.append
  apply apart_of_not_mem
  rw [List.leftpad, List.mem_append]
  rintro (hpad | hdigits)
  · exact absurd (List.eq_of_mem_replicate hpad) (by decide)
  · obtain ⟨c, hc, hupper⟩ := List.mem_map.mp hdigits
    obtain ⟨digit, rfl⟩ := mem_toDigits hc
    exact (digitChar_ne_i digit).2 hupper

/-- The message of an exception of the codec. -/
def message_of : Exc → String
  | .CodecError message => message
  | .TagError message => message
  | _ => ""

theorem apart_message {e : Exc} (he : e.TagFailure) : Apart (message_of e).toList := by
  cases he with
  | short n reader =>
    have hneed : Apart "unexpected end of data: need ".toList := by decide
    have hbytes : Apart " bytes at pos ".toList := by decide
    have hpos : Apart ", ".toList := by decide
    have honly : Apart "only ".toList := by decide
    have hremaining : Apart " remaining".toList := by decide
    simp only [message_of, unexpected_end, String.toList_append]
    exact ((((hneed.append (apart_repr n)).append hbytes).append (apart_repr reader.pos)).append hpos).append
      ((honly.append (apart_repr reader.remaining)).append hremaining)
  | name => decide
  | type tag_type =>
    have htype : Apart "unsupported tag type: ".toList := by decide
    simp only [message_of, String.toList_append]
    exact htype.append (apart_hex_upper 2 tag_type)

end Messages

theorem fails_search_results : Raises read_search_results Exc.TagFailure := by
  have hresult : Raises read_search_result Exc.TagFailure := by
    refine (fails_bytes 16).bind fun file_hash => (fails_uint 4).bind fun client_id => ?_
    refine (fails_uint 2).bind fun client_port => (fails_uint 4).bind fun tag_count => ?_
    exact (Raises.repeatN fails_new_tag tag_count).bind fun tags => Raises.pure _
  exact (fails_uint 4).bind fun result_count => Raises.repeatN hresult result_count

/-- A payload that ends inside its entries is refused, and the refusal says nothing of trailing bytes. -/
theorem parse_search_results_error {payload : Bytes} {e : Exc}
    (hread : read_search_results ⟨payload, 0⟩ = .error e) :
    parse_search_results payload = .error (.ProtocolError s!"malformed OP_SEARCHRESULT: {message_of e}") := by
  have hfailure := fails_search_results _ e hread
  rw [parse_search_results, bind_error hread]
  cases hfailure with
  | short n reader => rfl
  | name => rfl
  | type tag_type => rfl

/-- After its entries a payload ends, or goes on with a flag, or is refused for its trailing bytes. -/
theorem parse_search_results_ok {payload : Bytes} {results : List SearchResult} {reader : BinaryReader}
    (hread : read_search_results ⟨payload, 0⟩ = .ok (results, reader)) :
    (∃ more, parse_search_results payload = .ok (results, more)) ∨
      parse_search_results payload =
        .error (.ProtocolError s!"OP_SEARCHRESULT has {reader.remaining} unexpected trailing bytes") := by
  have hget : (get : BinaryRead BinaryReader) reader = .ok (reader, reader) := rfl
  rw [parse_search_results, bind_ok hread]
  by_cases hone : reader.remaining = 1
  · have hfits : ¬ reader.pos + 1 > reader.data.length := by
      rw [Cursor.remaining] at hone
      omega
    have hmore : read_more_results reader =
        .ok (decide (decode (reader.data.extract reader.pos (reader.pos + 1)) = 1), ⟨reader.data, reader.pos + 1⟩) := by
      rw [read_more_results, bind_ok hget, if_pos hone]
      simp only [Functor.map, StateT.map, read_u8, read_uint, read_bytes, takeN, if_neg hfits]
      rfl
    rw [bind_ok hmore]
    exact .inl ⟨_, rfl⟩
  · by_cases hzero : reader.remaining = 0
    · have hmore : read_more_results reader = .ok (false, reader) := by
        rw [read_more_results, bind_ok hget, if_neg hone, if_neg (not_not.mpr hzero)]
        rfl
      rw [bind_ok hmore]
      exact .inl ⟨_, rfl⟩
    · have hmore : read_more_results reader = .error
          (.ProtocolError s!"OP_SEARCHRESULT has {reader.remaining} unexpected trailing bytes") := by
        rw [read_more_results, bind_ok hget, if_neg hone, if_pos hzero]
        rfl
      rw [bind_error hmore]
      exact .inr rfl

/-- A global result is read up to its last entry, whatever follows, or it is refused as malformed. -/
theorem parse_global_search_result_eq (payload : Bytes) :
    parse_global_search_result payload =
      match read_search_results ⟨payload, 0⟩ with
      | .ok (results, _) => .ok results
      | .error e => .error (.GlobalUdpSearchError
          ("malformed OP_GLOBSEARCHRES: " ++ ("malformed OP_SEARCHRESULT: " ++ message_of e))) := by
  cases hread : read_search_results ⟨payload, 0⟩ with
  | error e =>
    have hprefix : Apart "malformed OP_SEARCHRESULT: ".toList := by decide
    have hmessage : Apart (s!"malformed OP_SEARCHRESULT: {message_of e}").toList := by
      rw [String.toList_append]
      exact hprefix.append (apart_message (fails_search_results _ e hread))
    simp only [parse_global_search_result, parse_search_results_error hread]
    rw [if_neg hmessage.not_marker]
    rfl
  | ok result =>
    obtain ⟨results, reader⟩ := result
    rcases parse_search_results_ok hread with ⟨more, hparse⟩ | hparse
    · simp only [parse_global_search_result, hparse]
    · have hmarker : trailing_marker.toList <:+:
          (s!"OP_SEARCHRESULT has {reader.remaining} unexpected trailing bytes").toList := by
        have hend : trailing_marker.toList <:+ " unexpected trailing bytes".toList := by decide
        rw [String.toList_append]
        exact (hend.trans (List.suffix_append _ _)).isInfix
      simp only [parse_global_search_result, hparse]
      rw [if_pos hmarker, parse_global_search_result_lenient, hread]
      rfl

end amuled.server
