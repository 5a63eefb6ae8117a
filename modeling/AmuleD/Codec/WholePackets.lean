import AmuleD.Peer.Hello
import AmuleD.Peer.Ladder
import AmuleD.Server.SearchResults
import AmuleD.Server.ServerMet
import AmuleD.Server.SourceLookups
import AmuleD.Streams.Delimited

open cursor littleendian

namespace amuled

section Fields

/-- An integer that was read stands in the buffer as it is written. -/
theorem of_read_uint {width value : Nat} {after : BinaryReader} (before tail : Bytes)
    (hread : read_uint width ⟨before ++ tail, before.length⟩ = .ok (value, after)) :
    ∃ rest, tail = encode width value ++ rest ∧ value < 256 ^ width ∧
      after = ⟨before ++ tail, (before ++ encode width value).length⟩ := by
  obtain ⟨raw, hraw, rfl⟩ := of_map_ok hread
  obtain ⟨rest, htail, hlength, hafter⟩ := of_takeN_ok before tail hraw
  rw [← hlength, encode_decode]
  exact ⟨rest, htail, decode_lt raw, hafter⟩

theorem delimited_bytes (n : Nat) : Delimited (read_bytes n) := Delimited.takeN _ n

theorem delimited_uint (width : Nat) : Delimited (read_uint width) := (delimited_bytes width).map

theorem delimited_identifier (type_byte : Nat) : Delimited (read_identifier type_byte) := by
  have hid := (delimited_uint 1).map (f := fun id => TagIdentifier.name_id (UInt8.ofNat id))
  apply Delimited.ite hid
  apply (delimited_uint 2).bind
  intro name_length
  apply Delimited.ite hid
  apply (delimited_bytes name_length).bind
  intro raw
  cases utf8_decode raw with
  | some name => exact Delimited.pure _
  | none => exact Delimited.throw _

theorem delimited_string_value (tag_type : Nat) : Delimited (read_string_value tag_type) :=
  Delimited.ite (delimited_bytes _).map ((delimited_uint 2).bind fun length => (delimited_bytes length).map)

theorem delimited_value (tag_type : Nat) : Delimited (read_value tag_type) := by
  have hsized : ∀ (read : BinaryRead Nat) (make : Bytes → TagValue), Delimited read →
      Delimited (read >>= fun length => make <$> read_bytes length) :=
    fun read make hread => hread.bind fun length => (delimited_bytes length).map
  apply Delimited.ite (delimited_string_value tag_type).map
  apply Delimited.ite (delimited_bytes 16).map
  apply Delimited.ite (delimited_bytes 4).map
  apply Delimited.ite (delimited_uint 1).map
  apply Delimited.ite (delimited_uint 1).map
  apply Delimited.ite (delimited_uint 2).map
  apply Delimited.ite (delimited_uint 4).map
  apply Delimited.ite (delimited_uint 8).map
  apply Delimited.ite (hsized read_u32 TagValue.bytes (delimited_uint 4))
  apply Delimited.ite (hsized read_u8 TagValue.bytes (delimited_uint 1))
  apply Delimited.ite
  · exact (delimited_uint 2).bind fun bool_count => (delimited_bytes _).map
  · exact Delimited.throw _

theorem delimited_new_tag : Delimited read_new_tag :=
  (delimited_uint 1).bind fun type_byte =>
    (delimited_identifier type_byte).bind fun _ => (delimited_value _).bind fun _ => Delimited.pure _

end Fields

section Servers

open server

theorem delimited_found_source (obfuscated : Bool) : Delimited (read_found_source obfuscated) := by
  apply (delimited_uint 4).bind
  intro client_id
  apply (delimited_uint 2).bind
  intro client_port
  apply Delimited.ite
  · apply (delimited_uint 1).bind
    intro crypt_options
    apply Delimited.ite
    · exact (delimited_bytes 16).bind fun user_hash => Delimited.pure _
    · exact Delimited.pure _
  · exact Delimited.pure _

theorem delimited_found_sources (obfuscated : Bool) : Delimited (read_found_sources obfuscated) :=
  (delimited_bytes 16).bind fun _ => (delimited_uint 1).bind fun source_count =>
    ((delimited_found_source obfuscated).repeatN source_count).bind fun _ => Delimited.pure _

theorem delimited_server_status : Delimited read_server_status :=
  (delimited_uint 4).bind fun _ => (delimited_uint 4).bind fun _ => Delimited.pure _

theorem delimited_string_utf8 : Delimited read_string_utf8 := by
  apply (delimited_uint 2).bind
  intro length
  apply (delimited_bytes length).bind
  intro raw
  cases utf8_decode raw with
  | some text => exact Delimited.pure text
  | none => exact Delimited.throw _

theorem prefixFree_parse_whole {α : Type} {read : BinaryRead α} (hread : Delimited read) (label : String) :
    PrefixFree (parse_whole label read) := by
  apply prefixFree_of_delimited hread
  intro payload value hparse
  rw [parse_whole] at hparse
  split at hparse
  · cases hparse
  · cases hparse
  · cases hparse
  · rename_i made reader hok
    split_ifs at hparse with hend
    exact ⟨made, reader, hok, not_not.mp hend⟩

theorem delimited_reading {α : Type} {read : BinaryRead α} (hread : Delimited read) :
    Delimited (server_met.reading read) := by
  apply hread.of_ok
  intro cursor result
  rw [server_met.reading]
  cases read cursor <;> simp [Except.mapError]

theorem delimited_checked (ip port : Nat) (tags : List Ed2kTag) :
    Delimited (server_met.ServerRecord.checked ip port tags) := by
  rw [server_met.ServerRecord.checked]
  split_ifs
  · exact Delimited.pure _
  · exact Delimited.throw _
  · exact Delimited.throw _

theorem delimited_server_met : Delimited server_met.read_server_met := by
  have hrecord : Delimited server_met.read_server_record :=
    (delimited_reading (delimited_uint 4)).bind fun ip => (delimited_reading (delimited_uint 2)).bind fun port =>
      (delimited_reading (delimited_uint 4)).bind fun tag_count =>
        ((delimited_reading delimited_new_tag).repeatN tag_count).bind fun tags => delimited_checked ip port tags
  apply (delimited_reading (delimited_uint 1)).bind
  intro version
  apply Delimited.ite
  · exact Delimited.throw _
  · exact (delimited_reading (delimited_uint 4)).bind fun count => hrecord.repeatN count

theorem prefixFree_server_met : PrefixFree server_met.parse_server_met := by
  apply prefixFree_of_delimited delimited_server_met
  intro data value hparse
  rw [server_met.parse_server_met] at hparse
  split at hparse
  · cases hparse
  · rename_i made reader hok
    split_ifs at hparse with hend
    exact ⟨made, reader, hok, not_not.mp hend⟩

end Servers

section Peers

open peer

theorem delimited_offsets (width : Nat) : Delimited (read_offsets width) :=
  (delimited_uint width).bind fun _ => (delimited_uint width).bind fun _ => (delimited_uint width).bind fun _ =>
    Delimited.pure _

theorem delimited_request (width : Nat) : Delimited (read_request width) :=
  (delimited_bytes 16).bind fun _ => (delimited_offsets width).bind fun _ => (delimited_offsets width).bind fun _ =>
    Delimited.pure _

theorem delimited_filename_answer : Delimited read_filename_answer :=
  (delimited_bytes 16).bind fun _ =>
    ((delimited_uint 2).bind fun length => delimited_bytes length).bind fun _ => Delimited.pure _

theorem delimited_file_status : Delimited read_file_status :=
  (delimited_bytes 16).bind fun _ => (delimited_uint 2).bind fun _ => (delimited_bytes _).bind fun _ =>
    Delimited.pure _

theorem malformed_eq_ok_iff {α : Type} {label : String} {parsed : Except Exc (α × BinaryReader)}
    {result : α × BinaryReader} : malformed label parsed = .ok result ↔ parsed = .ok result := by
  cases parsed with
  | ok other => rfl
  | error e => cases e <;> simp [malformed]

/-- A parser that goes on with what was read, and refuses what is left. -/
theorem prefixFree_malformed {α γ : Type} {read : BinaryRead α} {parse : Bytes → Except Exc γ} (hread : Delimited read)
    (label : String) (finish : α × BinaryReader → Except Exc γ)
    (hparse : ∀ payload, parse payload = malformed label (read ⟨payload, 0⟩) >>= finish)
    (hfinish : ∀ result value, finish result = .ok value → result.2.remaining = 0) : PrefixFree parse := by
  apply prefixFree_of_delimited hread
  intro payload value hok
  rw [hparse] at hok
  obtain ⟨result, hresult, hvalue⟩ := bind_eq_ok_iff.mp hok
  exact ⟨result.1, result.2, malformed_eq_ok_iff.mp hresult, hfinish result value hvalue⟩

theorem prefixFree_queue_rank : PrefixFree parse_queue_rank := by
  apply prefixFree_malformed (delimited_uint 4) "OP_QUEUERANK" _ fun _ => rfl
  intro result value hvalue
  dsimp only at hvalue
  split_ifs at hvalue with hend
  exact not_not.mp hend

theorem prefixFree_request (opcode_name : String) (width : Nat) : PrefixFree (parse_request opcode_name width) := by
  apply prefixFree_malformed (delimited_request width) opcode_name _ fun _ => rfl
  intro result value hvalue
  dsimp only at hvalue
  split_ifs at hvalue with hend
  exact not_not.mp hend

theorem prefixFree_filename_answer : PrefixFree parse_filename_answer := by
  apply prefixFree_malformed delimited_filename_answer "OP_REQFILENAMEANSWER" _ fun _ => rfl
  intro result value hvalue
  dsimp only at hvalue
  split at hvalue
  · cases hvalue
  · split_ifs at hvalue with hend
    exact not_not.mp hend

theorem prefixFree_file_status : PrefixFree parse_file_status := by
  apply prefixFree_malformed delimited_file_status "OP_FILESTATUS" _ fun _ => rfl
  intro result value hvalue
  dsimp only at hvalue
  split_ifs at hvalue with hend
  exact not_not.mp hend

/-- The user hash of a HELLO as a reader: a first byte that is no length is read again. -/
def read_hash_field : BinaryRead Bytes := fun reader => do
  let (hash_len, after) ← read_u8 reader
  if hash_len = 16 then read_hash16 after else read_bytes 16 reader

/-- A first byte that is no length is the first byte of the hash. -/
theorem read_hash_field_ok_iff (reader : BinaryReader) (result : Bytes × BinaryReader) :
    read_hash_field reader = .ok result ↔ (read_u8 >>= fun hash_len =>
      if hash_len = 16 then read_hash16 else (UInt8.ofNat hash_len :: ·) <$> read_bytes 15) reader = .ok result := by
  by_cases hfirst : reader.pos + 1 ≤ reader.data.length
  · have hbyte : read_u8 reader = .ok ((reader.data[reader.pos]).toNat, ⟨reader.data, reader.pos + 1⟩) := by
      have hpiece : reader.data.extract reader.pos (reader.pos + 1) = [reader.data[reader.pos]] := by
        rw [List.extract_eq_take_drop, Nat.add_sub_cancel_left, List.drop_eq_getElem_cons hfirst]
        rfl
      rw [read_u8, read_uint, read_bytes]
      simp only [Functor.map, StateT.map, takeN_ok hfirst, hpiece]
      rfl
    rw [read_hash_field, hbyte, bind_ok hbyte]
    change (if _ then _ else _) = _ ↔ _
    by_cases hcanonical : (reader.data[reader.pos]).toNat = 16
    · rw [if_pos hcanonical, if_pos hcanonical]
    · rw [if_neg hcanonical, if_neg hcanonical, UInt8.ofNat_toNat]
      by_cases hfits : reader.pos + 16 ≤ reader.data.length
      · have hrest : reader.data.extract reader.pos (reader.pos + 16) =
            reader.data[reader.pos] :: reader.data.extract (reader.pos + 1) (reader.pos + 1 + 15) := by
          rw [List.extract_eq_take_drop, List.extract_eq_take_drop, Nat.add_sub_cancel_left, Nat.add_sub_cancel_left,
            List.drop_eq_getElem_cons hfirst, List.take_succ_cons]
        have hlater : read_bytes 15 ⟨reader.data, reader.pos + 1⟩ = .ok (_, ⟨reader.data, reader.pos + 1 + 15⟩) :=
          takeN_ok hfits
        simp only [Functor.map, StateT.map, hlater]
        simp only [read_bytes, takeN_ok hfits, hrest]
        rfl
      · simp only [read_bytes, Functor.map, StateT.map, takeN]
        rw [if_pos (by omega), if_pos (by omega)]
        simp [Except.bind, bind]
  · have hshort : read_u8 reader = .error (unexpected_end 1 reader) := by
      simp only [read_u8, read_uint, read_bytes, Functor.map, StateT.map, takeN]
      rw [if_pos (by omega)]
      rfl
    rw [read_hash_field, hshort, bind_error hshort]
    simp [bind, Except.bind]

theorem delimited_hash_field : Delimited read_hash_field := by
  apply Delimited.of_ok _ read_hash_field_ok_iff
  apply (delimited_uint 1).bind
  intro hash_len
  apply Delimited.ite
  · exact delimited_bytes 16
  · exact (delimited_bytes 15).map

theorem delimited_hello_fields (user_hash : Bytes) : Delimited (read_hello_fields user_hash) := by
  have htags : Delimited parse_hello_tags := by
    apply (delimited_uint 4).bind
    intro tag_count
    apply (delimited_new_tag.repeatN tag_count).of_ok
    intro cursor result
    rw [except_tag_error]
    cases repeatN read_new_tag tag_count cursor with
    | ok other => rfl
    | error e => cases e <;> simp
  exact (delimited_uint 4).bind fun _ => (delimited_uint 2).bind fun _ => htags.bind fun _ =>
    (delimited_uint 4).bind fun _ => (delimited_uint 2).bind fun _ => Delimited.pure _

theorem prefixFree_hello_body (label : String) : PrefixFree fun payload => parsed_body payload label := by
  apply prefixFree_of_delimited (delimited_hash_field.bind delimited_hello_fields)
  intro payload body hparsed
  have hbody : parse_hello_body payload label = .ok body := by
    rw [parsed_body] at hparsed
    split at hparsed
    · cases hparsed
    · exact hparsed
  obtain ⟨⟨user_hash, between⟩, hfield, hrest⟩ := bind_eq_ok_iff.mp hbody
  obtain ⟨⟨made, reader⟩, hfields, hend⟩ := bind_eq_ok_iff.mp hrest
  dsimp only at hend
  split_ifs at hend with hleft
  refine ⟨made, reader, ?_, not_not.mp hleft⟩
  rw [bind_ok (show read_hash_field ⟨payload, 0⟩ = .ok (user_hash, between) from hfield)]
  exact hfields

/-- A parser that goes on with what another one has parsed. -/
theorem prefixFree_bind {α γ : Type} {parse : Bytes → Except Exc α} (hparse : PrefixFree parse)
    (next : α → Except Exc γ) : PrefixFree fun payload => parse payload >>= next := by
  intro payload more value hvalue hmore
  obtain ⟨made, hmade, _⟩ := bind_eq_ok_iff.mp hvalue
  obtain ⟨e, hfails⟩ := hparse payload more made hmade hmore
  refine ⟨e, ?_⟩
  dsimp only
  rw [hfails]
  rfl

end Peers

section Search

open server

theorem delimited_search_results : Delimited read_search_results := by
  have hresult : Delimited read_search_result :=
    (delimited_bytes 16).bind fun _ => (delimited_uint 4).bind fun _ => (delimited_uint 2).bind fun _ =>
      (delimited_uint 4).bind fun tag_count => (delimited_new_tag.repeatN tag_count).bind fun _ => Delimited.pure _
  exact (delimited_uint 4).bind fun result_count => hresult.repeatN result_count

/-- Behind the entries of a result that is accepted stands at most its flag. -/
theorem read_of_search_results {payload : Bytes} {results : List SearchResult} {more : Bool}
    (hparse : parse_search_results payload = .ok (results, more)) :
    ∃ reader, read_search_results ⟨payload, 0⟩ = .ok (results, reader) ∧ reader.remaining ≤ 1 := by
  cases hread : read_search_results ⟨payload, 0⟩ with
  | error e =>
    rw [parse_search_results_error hread] at hparse
    cases hparse
  | ok read =>
    obtain ⟨made, reader⟩ := read
    have hget : (get : BinaryRead BinaryReader) reader = .ok (reader, reader) := rfl
    by_cases hfew : reader.remaining ≤ 1
    · refine ⟨reader, ?_, hfew⟩
      rcases parse_search_results_ok hread with ⟨other, hok⟩ | hrefused
      · rw [hok] at hparse
        cases hparse
        rfl
      · rw [hrefused] at hparse
        cases hparse
    · exfalso
      have hmore : read_more_results reader = .error
          (.ProtocolError s!"OP_SEARCHRESULT has {reader.remaining} unexpected trailing bytes") := by
        rw [read_more_results, bind_ok hget, if_neg (by omega), if_pos (by omega)]
        rfl
      rw [parse_search_results, bind_ok hread, bind_error hmore] at hparse
      cases hparse

/-- The results of a search can only be continued by their flag. -/
theorem search_results_continued {payload extra : Bytes} {results others : List SearchResult} {more further : Bool}
    (hparse : parse_search_results payload = .ok (results, more)) (hextra : extra ≠ [])
    (hlonger : parse_search_results (payload ++ extra) = .ok (others, further)) :
    extra.length = 1 ∧ others = results := by
  obtain ⟨reader, hread, _⟩ := read_of_search_results hparse
  obtain ⟨last, hlast, hfew⟩ := read_of_search_results hlonger
  obtain ⟨front, rest, htail, _, hreads⟩ := delimited_search_results [] payload results reader hread
  have hsame := hreads.run (rest ++ extra)
  rw [← List.append_assoc, ← htail] at hsame
  rw [hsame] at hlast
  cases hlast
  refine ⟨?_, rfl⟩
  have hlength : 0 < extra.length := List.length_pos_of_ne_nil hextra
  rw [Cursor.remaining, htail] at hfew
  simp only [List.length_append] at hfew
  omega

end Search

/-- No payload that is accepted is continued by another one that is, so a packet that was cut or that runs into the next
one is refused and never read as a different one. The results of a search alone may be continued, by their flag. -/
theorem whole_packets_prefix_free :
    (PrefixFree server_met.parse_server_met ∧
      (∀ obfuscated, PrefixFree fun payload => server.parse_found_sources payload obfuscated) ∧
      PrefixFree server.parse_server_status ∧ PrefixFree server.parse_server_message) ∧
    (PrefixFree peer.parse_hello ∧ PrefixFree peer.parse_hello_answer ∧ PrefixFree peer.parse_filename_answer ∧
      PrefixFree peer.parse_file_status ∧ PrefixFree peer.parse_queue_rank ∧ PrefixFree peer.parse_request_parts ∧
      PrefixFree peer.parse_request_parts_i64) ∧
    ∀ payload extra results others more further,
      server.parse_search_results payload = .ok (results, more) → extra ≠ [] →
      server.parse_search_results (payload ++ extra) = .ok (others, further) → extra.length = 1 ∧ others = results :=
  ⟨⟨prefixFree_server_met, fun obfuscated => prefixFree_parse_whole (delimited_found_sources obfuscated) _,
      prefixFree_parse_whole delimited_server_status _, prefixFree_parse_whole delimited_string_utf8 _⟩,
    ⟨prefixFree_bind (prefixFree_hello_body _) _, prefixFree_bind (prefixFree_hello_body _) _,
      prefixFree_filename_answer, prefixFree_file_status, prefixFree_queue_rank, prefixFree_request _ 4,
      prefixFree_request _ 8⟩,
    fun _ _ _ _ _ _ hparse hextra hlonger => search_results_continued hparse hextra hlonger⟩

end amuled
