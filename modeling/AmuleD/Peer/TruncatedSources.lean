import AmuleD.Peer.SourceExchange

open littleendian

namespace amuled.peer

/-- The bytes of one entry of a source-exchange answer. -/
def entry_width (version : Nat) : Nat :=
  12 + (if version ≥ 2 then 16 else 0) + if version ≥ 4 then 1 else 0

/-- The count of entries that a payload announces at an offset. -/
def announced (payload : Bytes) (offset : Nat) : Nat := decode ((payload.drop offset).take 2)

/-- An exception that is not one of the codec's own. -/
def Foreign (exc : Exc) : Prop := ∀ message, exc ≠ .PeerCodecError message

section Entry

variable {version : Nat} {data : Bytes}

theorem unpack_ident_of_length (version : Nat) {buffer : Bytes} (hwidth : buffer.length = 4) :
    ∃ client_id, unpack_ident version buffer = .ok client_id := by
  rw [unpack_ident]
  split
  · exact ⟨_, struct_unpack_of_length (by simpa using hwidth)⟩
  · exact ⟨_, struct_unpack_of_length hwidth⟩

theorem unpack_ident_of_ne (version : Nat) {buffer : Bytes} (hwidth : buffer.length ≠ 4) :
    unpack_ident version buffer = .error .StructError := by
  rw [unpack_ident]
  split
  · exact struct_unpack_of_ne (by simpa using hwidth)
  · exact struct_unpack_of_ne hwidth

/-- The fields of an entry behind its first twelve bytes. -/
def parse_tail (version client_id port server_ip server_port : Nat) (data : Bytes) :
    Except Exc (SXSource × Bytes) :=
  let user_hash := if version ≥ 2 then some (data.take 16) else none
  let data := if version ≥ 2 then data.drop 16 else data
  if version ≥ 4 then
    match data with
    | [] => throw .IndexError
    | connect_options :: data =>
      pure (⟨client_id, port, server_ip, server_port, user_hash, connect_options.toNat⟩, data)
  else
    pure (⟨client_id, port, server_ip, server_port, user_hash, 0⟩, data)

theorem parse_sx_entry_fixed (version : Nat) (hfixed : 12 ≤ data.length) :
    ∃ client_id port server_ip server_port, parse_sx_entry data version =
      parse_tail version client_id port server_ip server_port (data.drop 12) := by
  obtain ⟨client_id, hident⟩ := unpack_ident_of_length version (show (data.take 4).length = 4 by
    rw [List.length_take]; omega)
  refine ⟨client_id, decode ((data.drop 4).take 2), decode ((data.drop 6).take 4),
    decode ((data.drop 10).take 2), ?_⟩
  rw [parse_sx_entry, hident, ok_bind, struct_unpack_slice _ _ _ (by omega), ok_bind,
    struct_unpack_slice _ _ _ (by omega), ok_bind, struct_unpack_slice _ _ _ (by omega), ok_bind]
  rfl

/-- A cut in the first twelve bytes hits a field that is unpacked. -/
theorem parse_sx_entry_short (version : Nat) (hshort : data.length < 12) :
    parse_sx_entry data version = .error .StructError := by
  rw [parse_sx_entry]
  by_cases hident : data.length < 4
  · rw [unpack_ident_of_ne version (by rw [List.length_take]; omega), error_bind]
  obtain ⟨client_id, hid⟩ := unpack_ident_of_length version (show (data.take 4).length = 4 by
    rw [List.length_take]; omega)
  rw [hid, ok_bind]
  by_cases hport : data.length < 6
  · rw [struct_unpack_slice_short _ _ _ hport (by decide), error_bind]
  rw [struct_unpack_slice _ _ _ (by omega), ok_bind]
  by_cases hip : data.length < 10
  · rw [struct_unpack_slice_short _ _ _ hip (by decide), error_bind]
  rw [struct_unpack_slice _ _ _ (by omega), ok_bind, struct_unpack_slice_short _ _ _ hshort (by decide), error_bind]

/-- A whole entry is read with a user hash of sixteen bytes, up to its end. -/
theorem parse_sx_entry_of_le (hwhole : entry_width version ≤ data.length) :
    ∃ source, source.HashFits ∧
      parse_sx_entry data version = .ok (source, data.drop (entry_width version)) := by
  have hfixed : 12 ≤ data.length := by
    rw [entry_width] at hwhole
    omega
  obtain ⟨client_id, port, server_ip, server_port, hparse⟩ := parse_sx_entry_fixed version hfixed
  rw [hparse]
  rw [entry_width] at hwhole ⊢
  by_cases hsecond : version ≥ 2
  · have hhash : ((data.drop 12).take 16).length = 16 := by
      rw [List.length_take, List.length_drop]
      rw [if_pos hsecond] at hwhole
      omega
    have hfits : ∀ connect_options, SXSource.HashFits ⟨client_id, port, server_ip, server_port,
        some ((data.drop 12).take 16), connect_options⟩ := by
      intro connect_options user_hash huser
      rw [← Option.some.inj huser]
      exact hhash
    by_cases hfourth : version ≥ 4
    · rw [if_pos hsecond, if_pos hfourth] at hwhole ⊢
      have hlast : 28 < data.length := by omega
      have hcons : data.drop 28 = data[28] :: data.drop 29 := List.drop_eq_getElem_cons hlast
      refine ⟨_, hfits data[28].toNat, ?_⟩
      rw [parse_tail]
      simp only [if_pos hsecond, if_pos hfourth, List.drop_drop, hcons]
      rfl
    · rw [if_pos hsecond, if_neg hfourth]
      refine ⟨_, hfits 0, ?_⟩
      rw [parse_tail]
      simp only [if_pos hsecond, if_neg hfourth, List.drop_drop]
      rfl
  · have hfourth : ¬ version ≥ 4 := by omega
    have hfits : SXSource.HashFits ⟨client_id, port, server_ip, server_port, none, 0⟩ := by
      intro user_hash huser
      cases huser
    refine ⟨_, hfits, ?_⟩
    rw [parse_tail]
    simp only [if_neg hsecond, if_neg hfourth]
    rfl

/-- A cut entry is an error of another kind, or comes back with a short user hash. -/
theorem parse_sx_entry_of_lt (hcut : data.length < entry_width version) :
    (∃ exc, Foreign exc ∧ parse_sx_entry data version = .error exc) ∨
      ∃ source rest, ¬ source.HashFits ∧ parse_sx_entry data version = .ok (source, rest) := by
  by_cases hshort : data.length < 12
  · exact .inl ⟨.StructError, by intro message; simp, parse_sx_entry_short version hshort⟩
  obtain ⟨client_id, port, server_ip, server_port, hparse⟩ := parse_sx_entry_fixed version (not_lt.mp hshort)
  rw [entry_width] at hcut
  by_cases hsecond : version ≥ 2
  · by_cases hfourth : version ≥ 4
    · rw [if_pos hsecond, if_pos hfourth] at hcut
      have hnil : data.drop 28 = [] := List.drop_eq_nil_of_le (by omega)
      refine .inl ⟨.IndexError, by intro message; simp, ?_⟩
      rw [hparse, parse_tail]
      simp only [if_pos hsecond, if_pos hfourth, List.drop_drop, hnil]
      rfl
    · rw [if_pos hsecond, if_neg hfourth] at hcut
      refine .inr ⟨⟨client_id, port, server_ip, server_port, some ((data.drop 12).take 16), 0⟩,
        (data.drop 12).drop 16, ?_, ?_⟩
      · intro hfits
        have hlength := hfits _ rfl
        rw [List.length_take, List.length_drop] at hlength
        omega
      · rw [hparse, parse_tail]
        simp only [if_pos hsecond, if_neg hfourth]
        rfl
  · rw [if_neg hsecond, if_neg (by omega)] at hcut
    omega

end Entry

section Entries

variable {version count : Nat} {data : Bytes}

theorem parse_sx_entries_of_le (hwhole : count * entry_width version ≤ data.length) :
    ∃ sources, sources.length = count ∧ (∀ source ∈ sources, source.HashFits) ∧
      parse_sx_entries version count data = .ok sources := by
  induction count generalizing data with
  | zero => exact ⟨[], rfl, by simp, rfl⟩
  | succ count ih =>
    rw [Nat.succ_mul] at hwhole
    obtain ⟨source, hfits, hparse⟩ := parse_sx_entry_of_le (show entry_width version ≤ data.length by omega)
    obtain ⟨sources, hlength, hrest, hsources⟩ := @ih (data.drop (entry_width version))
      (by rw [List.length_drop]; omega)
    refine ⟨source :: sources, by rw [List.length_cons, hlength], ?_, ?_⟩
    · rw [List.forall_mem_cons]
      exact ⟨hfits, hrest⟩
    · rw [parse_sx_entries, hparse, ok_bind]
      simp only [hsources]
      rfl

/-- The loop returns sources or raises an exception that is not the codec's. -/
theorem parse_sx_entries_outcome (version count : Nat) (data : Bytes) :
    (∃ exc, Foreign exc ∧ parse_sx_entries version count data = .error exc) ∨
      ∃ sources, parse_sx_entries version count data = .ok sources := by
  induction count generalizing data with
  | zero => exact .inr ⟨[], rfl⟩
  | succ count ih =>
    have hentry : (∃ exc, Foreign exc ∧ parse_sx_entry data version = .error exc) ∨
        ∃ source rest, parse_sx_entry data version = .ok (source, rest) := by
      by_cases hcut : data.length < entry_width version
      · obtain herror | ⟨source, rest, _, hparse⟩ := parse_sx_entry_of_lt hcut
        · exact .inl herror
        · exact .inr ⟨source, rest, hparse⟩
      · obtain ⟨source, _, hparse⟩ := parse_sx_entry_of_le (not_lt.mp hcut)
        exact .inr ⟨source, _, hparse⟩
    rw [parse_sx_entries]
    obtain ⟨exc, hforeign, hparse⟩ | ⟨source, rest, hparse⟩ := hentry
    · exact .inl ⟨exc, hforeign, by rw [hparse, error_bind]⟩
    · rw [hparse, ok_bind]
      obtain ⟨exc, hforeign, hlater⟩ | ⟨sources, hlater⟩ := ih rest
      · exact .inl ⟨exc, hforeign, by simp only [hlater]; rfl⟩
      · exact .inr ⟨source :: sources, by simp only [hlater]; rfl⟩

/-- Where the entries do not all fit, the loop fails in the first one that is cut or returns
its short user hash. -/
theorem parse_sx_entries_of_lt (hcut : data.length < count * entry_width version) :
    (∃ exc, Foreign exc ∧ parse_sx_entries version count data = .error exc) ∨
      ∃ sources, (∃ source ∈ sources, ¬ source.HashFits) ∧
        parse_sx_entries version count data = .ok sources := by
  induction count generalizing data with
  | zero => omega
  | succ count ih =>
    rw [Nat.succ_mul] at hcut
    rw [parse_sx_entries]
    by_cases hfirst : data.length < entry_width version
    · obtain ⟨exc, hforeign, hparse⟩ | ⟨source, rest, hbad, hparse⟩ := parse_sx_entry_of_lt hfirst
      · exact .inl ⟨exc, hforeign, by rw [hparse, error_bind]⟩
      · rw [hparse, ok_bind]
        obtain ⟨exc, hforeign, hlater⟩ | ⟨sources, hlater⟩ := parse_sx_entries_outcome version count rest
        · exact .inl ⟨exc, hforeign, by simp only [hlater]; rfl⟩
        · exact .inr ⟨source :: sources, ⟨source, List.mem_cons_self, hbad⟩, by simp only [hlater]; rfl⟩
    · obtain ⟨source, _, hparse⟩ := parse_sx_entry_of_le (not_lt.mp hfirst)
      rw [hparse, ok_bind]
      obtain ⟨exc, hforeign, hlater⟩ | ⟨sources, ⟨bad, hmem, hbad⟩, hlater⟩ :=
        @ih (data.drop (entry_width version)) (by rw [List.length_drop]; omega)
      · exact .inl ⟨exc, hforeign, by simp only [hlater]; rfl⟩
      · exact .inr ⟨source :: sources, ⟨bad, List.mem_cons_of_mem source hmem, hbad⟩,
          by simp only [hlater]; rfl⟩

end Entries

/-- What a caller may rely on: the codec's own error, or as many entries as announced, all
inside the payload and with whole user hashes. -/
def Dependable (payload : Bytes) (header version : Nat) (parsed : Except Exc (Nat × Bytes × List SXSource)) :
    Prop :=
  match parsed with
  | .error exc => ¬ Foreign exc
  | .ok (_, _, sources) => sources.length = announced payload (header - 2) ∧
      header + sources.length * entry_width version ≤ payload.length ∧
      ∀ source ∈ sources, source.HashFits

/-- The entries that a payload announces are there. -/
def Whole (payload : Bytes) (header version : Nat) : Prop :=
  header + announced payload (header - 2) * entry_width version ≤ payload.length

section Answers

variable {payload file_hash : Bytes} {header version : Nat}

/-- The two parsers behind their length checks. -/
theorem dependable_entries_iff (hheader : header ≤ payload.length) :
    Dependable payload header version (do
      let sources ← parse_sx_entries version (announced payload (header - 2)) (payload.drop header)
      pure (version, file_hash, sources)) ↔ Whole payload header version := by
  have hlength : (payload.drop header).length = payload.length - header := List.length_drop
  rw [Whole]
  by_cases hwhole : announced payload (header - 2) * entry_width version ≤ (payload.drop header).length
  · obtain ⟨sources, hcount, hfits, hsources⟩ := parse_sx_entries_of_le hwhole
    rw [hsources, ok_bind, pure_eq_ok, Dependable, hcount]
    exact iff_of_true ⟨rfl, by omega, hfits⟩ (by omega)
  · refine iff_of_false ?_ (by omega)
    obtain ⟨exc, hforeign, hsources⟩ | ⟨sources, ⟨bad, hmem, hbad⟩, hsources⟩ :=
      parse_sx_entries_of_lt (not_le.mp hwhole)
    · rw [hsources, error_bind, Dependable]
      exact fun hcodec => hcodec hforeign
    · rw [hsources, ok_bind, pure_eq_ok, Dependable]
      exact fun hsound => hbad (hsound.2.2 bad hmem)

end Answers

/-- Both parsers check the header alone: a payload with a header is parsed dependably exactly
where the entries that it announces are all there. -/
theorem parse_answers_dependable_iff (payload : Bytes) (version : Nat) :
    (Dependable payload 19 (payload.headD 0).toNat (parse_answer_sources2 payload) ↔
      payload.length < 19 ∨ Whole payload 19 (payload.headD 0).toNat) ∧
    (Dependable payload 18 version (parse_answer_sources payload version) ↔
      payload.length < 18 ∨ Whole payload 18 version) := by
  have hcodec : ∀ message, ¬ Foreign (.PeerCodecError message) := fun message hforeign => hforeign message rfl
  constructor
  · cases payload with
    | nil => exact iff_of_true (hcodec _) (.inl (by decide))
    | cons version rest =>
      rw [parse_answer_sources2]
      by_cases hshort : (version :: rest).length < 19
      · rw [if_pos hshort]
        exact iff_of_true (hcodec _) (.inl hshort)
      · have hcount : struct_unpack 2 ((rest.drop 16).take 2) = .ok (announced (version :: rest) (19 - 2)) := by
          apply struct_unpack_slice
          rw [List.length_cons] at hshort
          omega
        rw [if_neg hshort]
        simp only [hcount, ok_bind]
        rw [or_iff_right hshort]
        exact dependable_entries_iff (not_lt.mp hshort)
  · rw [parse_answer_sources]
    by_cases hshort : payload.length < 18
    · rw [if_pos hshort]
      exact iff_of_true (hcodec _) (.inl hshort)
    · have hcount : struct_unpack 2 ((payload.drop 16).take 2) = .ok (announced payload (18 - 2)) := by
        apply struct_unpack_slice
        omega
      rw [if_neg hshort]
      simp only [hcount, ok_bind]
      rw [or_iff_right hshort]
      exact dependable_entries_iff (not_lt.mp hshort)

/-- A header that announces one entry and nothing behind it. -/
theorem parse_answers_not_dependable :
    ¬ ((∀ payload : Bytes, Dependable payload 19 (payload.headD 0).toNat (parse_answer_sources2 payload)) ∧
      ∀ (payload : Bytes) (version : Nat),
        Dependable payload 18 version (parse_answer_sources payload version)) := by
  rintro ⟨hall, _⟩
  have hparse : parse_answer_sources2 (4 :: (List.replicate 16 0 ++ [1, 0])) = .error .StructError := by
    decide +kernel
  have hbad := hall (4 :: (List.replicate 16 0 ++ [1, 0]))
  rw [hparse, Dependable] at hbad
  exact hbad (by intro message; simp)

end amuled.peer
