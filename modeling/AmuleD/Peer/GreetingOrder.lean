import AmuleD.Peer.Greeting
import AmuleD.Peer.PreEngineRuns

open amuled.security

namespace amuled.peer_handshake

open peer peer.pre_engine

/-- A well-formed packet of a peer that does not sign. -/
inductive Told where
  | hello (answers : Bool) (payload : Bytes) (parsed : Hello) (hparse : parse_hello payload = .ok parsed)
  | emuleinfo (payload : Bytes) (hlength : 3 ≤ payload.length)
  | emuleinfo_answer (payload : Bytes) (hlength : 3 ≤ payload.length)
  | secident_state (payload : Bytes) (hparse : ∃ parsed, parse_secident_state_payload payload = .ok parsed)
  | publickey (payload : Bytes) (hparse : ∃ peer_blob, parse_publickey_payload payload = .ok peer_blob)
  | file_status (payload : Bytes) (hparse : ∃ status, parse_file_status payload = .ok status)

namespace Told

def packet : Told → Packet
  | hello answers payload _ _ => ⟨EDONKEY, if answers then HELLOANSWER else HELLO, payload⟩
  | emuleinfo payload _ => ⟨EMULE, EMULEINFO, payload⟩
  | emuleinfo_answer payload _ => ⟨EMULE, EMULEINFOANSWER, payload⟩
  | secident_state payload _ => ⟨EMULE, SECIDENTSTATE, payload⟩
  | publickey payload _ => ⟨EMULE, PUBLICKEY, payload⟩
  | file_status payload _ => ⟨EDONKEY, FILESTATUS, payload⟩

/-- The HELLO of a packet that has one. -/
def hello? : Told → Option Hello
  | hello _ _ parsed _ => some parsed
  | _ => none

def is_info : Told → Bool
  | emuleinfo .. => true
  | emuleinfo_answer .. => true
  | _ => false

def is_answer : Told → Bool
  | emuleinfo_answer .. => true
  | _ => false

/-- An answer of exactly three bytes. -/
def Short : Told → Prop
  | emuleinfo_answer payload _ => payload.length = 3
  | _ => False

instance : DecidablePred Short := fun told => by
  cases told <;> unfold Short <;> infer_instance

end Told

/-- The peer announces that it can identify itself, to a session that can. -/
def Capable (able : Bool) (tags : List Ed2kTag) : Bool :=
  able && tags ≠ [] && miso1_secident_support tags ≠ 0

namespace Known

def challenge (able : Bool) (known : Known) : Known :=
  if !known.sui_challenged && Capable able known.peer_tags then
    { known with sui_challenged := true, sui_deadline := true }
  else known

/-- What a packet that is not short changes. -/
def hear (able : Bool) (known : Known) : Told → Known
  | .hello _ _ parsed _ =>
    { known with hello_seen := true, peer := some (.of_hello parsed), peer_tags := parsed.tags }
  | .emuleinfo _ _ => challenge able { known with info_seen := true }
  | .emuleinfo_answer payload _ =>
    challenge able { known with
      info_seen := true
      peer := known.peer.map fun peer =>
        { peer with
          emule_version := payload.head?.map UInt8.toNat
          compression := (payload.getD 3 0).toNat.testBit 0 } }
  | .secident_state _ _ => known
  | .publickey _ _ => known
  | .file_status _ _ => known

def done (known : Known) (grace_over : Bool) : Bool :=
  known.hello_seen && known.info_seen && (!known.sui_deadline || grace_over)

/-- The result of the handshake and whether a challenge was sent. -/
def listen (able : Bool) (known : Known) : List (Told × Bool) → Except Exc (PeerInfo × List Ed2kTag) × Bool
  | [] => (.error (.PeerSessionError "timed out waiting for peer packet"), known.sui_challenged)
  | (told, grace_over) :: rest =>
    if told.Short then (.error .IndexError, known.sui_challenged)
    else if (known.hear able told).done grace_over then
      (match (known.hear able told).peer with
        | none => .error (.PeerSessionError "peer handshake finished without HELLOANSWER")
        | some peer => .ok (peer, (known.hear able told).peer_tags),
        (known.hear able told).sui_challenged)
    else (known.hear able told).listen able rest

end Known

section Simulation

variable {rsa : Rsa} (me : Local rsa) (exchange : Exchange rsa)

theorem maybe_challenge_sui_known :
    (exchange._maybe_challenge_sui me).toKnown = exchange.toKnown.challenge (has_keys exchange.secure_ident) ∧
      (exchange._maybe_challenge_sui me).secure_ident = exchange.secure_ident := by
  unfold Exchange._maybe_challenge_sui Exchange.may_challenge Known.challenge Capable
  simp only [Bool.and_assoc]
  split
  · exact ⟨rfl, rfl⟩
  · exact ⟨rfl, rfl⟩

theorem on_packet_emule (opcode : UInt8) (payload : Bytes) :
    exchange.on_packet me ⟨EMULE, opcode, payload⟩ =
      if opcode = EMULEINFOANSWER then exchange.on_emuleinfo_answer me payload
      else if opcode = EMULEINFO then .ok (exchange.on_emuleinfo me)
      else if opcode = SECIDENTSTATE then exchange.on_secident_state payload
      else if opcode = PUBLICKEY then exchange.on_publickey payload
      else if opcode = SIGNATURE then exchange.on_signature payload
      else .ok exchange := by
  rw [Exchange.on_packet, if_neg (show EMULE ≠ EDONKEY by decide), if_pos rfl]

theorem on_packet_edonkey (opcode : UInt8) (payload : Bytes) :
    exchange.on_packet me ⟨EDONKEY, opcode, payload⟩ =
      if opcode = HELLOANSWER then exchange.on_hello me payload false
      else if opcode = HELLO then exchange.on_hello me payload true
      else if opcode = FILESTATUS then .ok (exchange.capture_file_status payload)
      else .ok exchange := by
  rw [Exchange.on_packet, if_pos rfl]

/-- A challenge of the peer changes only what is kept of the identification. -/
theorem on_secident_state_known {payload : Bytes}
    (hparse : ∃ parsed, parse_secident_state_payload payload = .ok parsed) :
    ∃ next, exchange.on_secident_state payload = .ok next ∧ next.toKnown = exchange.toKnown ∧
      next.secure_ident = exchange.secure_ident := by
  rw [Exchange.on_secident_state]
  split
  · rename_i hkeys
    have hprovider : ∃ provider, exchange.secure_ident = some provider ∧ provider.has_keys = true := by
      unfold has_keys at hkeys
      cases hsecure : exchange.secure_ident with
      | none =>
        rw [hsecure] at hkeys
        cases hkeys
      | some provider =>
        rw [hsecure] at hkeys
        exact ⟨provider, rfl, hkeys⟩
    have hanswers : ∃ result, peer.pre_engine.on_secident_state exchange.secure_ident exchange._sui payload =
        .ok result := (on_secident_state_ok_iff hparse).mpr hprovider
    obtain ⟨⟨_sui, answers⟩, hanswers⟩ := hanswers
    rw [hanswers, ok_bind]
    exact ⟨_, rfl, rfl, rfl⟩
  · obtain ⟨⟨state, challenge⟩, hparsed⟩ := hparse
    rw [hparsed, ok_bind]
    exact ⟨_, rfl, rfl, rfl⟩

theorem compression_of_long {payload : Bytes} (hlength : 3 ≤ payload.length) (hlong : payload.length ≠ 3) :
    compression_of payload = .ok ((payload.getD 3 0).toNat.testBit 0) := by
  have hget : payload[3]? = some (payload.getD 3 0) := by
    rw [List.getD_eq_getElem?_getD, List.getElem?_eq_getElem (by omega), Option.getD_some]
  rw [compression_of, if_pos hlength, hget]

theorem on_packet_told {told : Told} (hfull : ¬told.Short) :
    ∃ next, exchange.on_packet me told.packet = .ok next ∧
      next.toKnown = exchange.toKnown.hear (has_keys exchange.secure_ident) told ∧
        next.secure_ident = exchange.secure_ident := by
  cases told with
  | hello answers payload parsed hparse =>
    rw [Told.packet, on_packet_edonkey]
    cases answers with
    | false =>
      rw [if_neg Bool.false_ne_true, if_neg (by decide), if_pos rfl, Exchange.on_hello, hparse, ok_bind]
      exact ⟨_, rfl, rfl, rfl⟩
    | true =>
      rw [if_pos rfl, if_pos rfl, Exchange.on_hello, hparse, ok_bind]
      exact ⟨_, rfl, rfl, rfl⟩
  | emuleinfo payload hlength =>
    rw [Told.packet, on_packet_emule, if_neg (by decide), if_pos rfl]
    exact ⟨_, rfl, maybe_challenge_sui_known me _⟩
  | emuleinfo_answer payload hlength =>
    rw [Told.packet, on_packet_emule, if_pos rfl, Exchange.on_emuleinfo_answer,
      compression_of_long hlength hfull, ok_bind]
    exact ⟨_, rfl, maybe_challenge_sui_known me _⟩
  | secident_state payload hparse =>
    rw [Told.packet, on_packet_emule, if_neg (by decide), if_neg (by decide), if_pos rfl]
    exact on_secident_state_known exchange hparse
  | publickey payload hparse =>
    obtain ⟨peer_blob, hblob⟩ := hparse
    rw [Told.packet, on_packet_emule, if_neg (by decide), if_neg (by decide), if_neg (by decide), if_pos rfl]
    have hbranch : exchange.on_publickey payload =
        .ok { exchange with _sui := { exchange._sui with peer_blob := peer_blob } } := by
      rw [Exchange.on_publickey, hblob, ok_bind]
    exact ⟨_, hbranch, rfl, rfl⟩
  | file_status payload hparse =>
    rw [Told.packet, on_packet_edonkey, if_neg (by decide), if_neg (by decide), if_pos rfl]
    refine ⟨_, rfl, ?_, ?_⟩
    · unfold Exchange.capture_file_status
      split <;> rfl
    · unfold Exchange.capture_file_status
      split <;> rfl

/-- An answer of three bytes has no fourth. -/
theorem on_packet_short {told : Told} (hshort : told.Short) :
    exchange.on_packet me told.packet = .error .IndexError := by
  cases told with
  | emuleinfo_answer payload hlength =>
    have hget : payload[3]? = none := List.getElem?_eq_none (Nat.le_of_eq hshort)
    rw [Told.packet, on_packet_emule, if_pos rfl, Exchange.on_emuleinfo_answer, compression_of, if_pos hlength, hget,
      error_bind]
  | _ => exact hshort.elim

/-- The arrival of what a peer tells. -/
def arrival (heard : Told × Bool) : Arrival := ⟨heard.1.packet, heard.2⟩

/-- What the handshake comes to is what is known of the peer. -/
theorem receive_eq (heard : List (Told × Bool)) (exchange : Exchange rsa) :
    ((exchange.receive me (heard.map arrival)).1, (exchange.receive me (heard.map arrival)).2.sui_challenged) =
      exchange.toKnown.listen (has_keys exchange.secure_ident) heard := by
  induction heard generalizing exchange with
  | nil => rfl
  | cons first rest ih =>
    obtain ⟨told, grace_over⟩ := first
    rw [List.map_cons, Exchange.receive, Known.listen, arrival]
    by_cases hshort : told.Short
    · rw [if_pos hshort, on_packet_short me exchange hshort]
    · obtain ⟨next, hnext, hknown, hsecure⟩ := on_packet_told me exchange hshort
      rw [if_neg hshort, hnext, ← hknown, ← hsecure]
      dsimp only
      by_cases hdone : next.toKnown.done grace_over = true
      · rw [if_pos hdone]
        unfold Known.done at hdone
        rw [if_pos hdone, Exchange.finish]
        cases next.peer with
        | none => rfl
        | some peer => rfl
      · rw [if_neg hdone]
        unfold Known.done at hdone
        rw [if_neg hdone]
        exact ih next

end Simulation

section Listening

variable {able : Bool} {known : Known}

theorem not_capable_nil (able : Bool) : Capable able [] = false := by simp [Capable]

/-- A challenge is not taken back. -/
theorem sui_challenged_hear (hchallenged : known.sui_challenged = true) (told : Told) :
    (known.hear able told).sui_challenged = true := by
  cases told with
  | emuleinfo payload hlength =>
    rw [Known.hear, Known.challenge]
    split <;> first | rfl | exact hchallenged
  | emuleinfo_answer payload hlength =>
    rw [Known.hear, Known.challenge]
    split <;> first | rfl | exact hchallenged
  | _ => exact hchallenged

theorem listen_challenged (heard : List (Told × Bool)) (hchallenged : known.sui_challenged = true) :
    (known.listen able heard).2 = true := by
  induction heard generalizing known with
  | nil => exact hchallenged
  | cons first rest ih =>
    rw [Known.listen]
    split
    · exact hchallenged
    · split
      · exact sui_challenged_hear hchallenged _
      · exact ih (sui_challenged_hear hchallenged _)

variable (able known) in
/-- What a packet without a HELLO changes while no challenge is sent. -/
theorem hear_of_no_hello {told : Told} (hnone : told.hello? = none) (hcapable : Capable able known.peer_tags = false) :
    known.hear able told =
      { known with info_seen := known.info_seen || told.is_info, peer := (known.hear able told).peer } := by
  cases told with
  | hello answers payload parsed hparse => cases hnone
  | emuleinfo payload hlength =>
    simp only [Known.hear, Known.challenge, hcapable, Bool.and_false, if_neg Bool.false_ne_true, Told.is_info,
      Bool.or_true]
  | emuleinfo_answer payload hlength =>
    simp only [Known.hear, Known.challenge, hcapable, Bool.and_false, if_neg Bool.false_ne_true, Told.is_info,
      Bool.or_true]
  | _ => simp only [Known.hear, Told.is_info, Bool.or_false]

theorem peer_hear {told : Told} (hnone : told.hello? = none)
    (hpeer : told.is_answer = true → known.peer = none) : (known.hear able told).peer = known.peer := by
  cases told with
  | hello answers payload parsed hparse => cases hnone
  | emuleinfo payload hlength =>
    rw [Known.hear, Known.challenge]
    split <;> rfl
  | emuleinfo_answer payload hlength =>
    rw [Known.hear, Known.challenge]
    split <;> simp [hpeer rfl]
  | _ => rfl

def timed_out : Except Exc (PeerInfo × List Ed2kTag) × Bool :=
  (.error (.PeerSessionError "timed out waiting for peer packet"), false)

variable {heard : List (Told × Bool)}

/-- Without a HELLO the handshake waits in vain. -/
theorem listen_of_no_hello (hfull : ∀ told ∈ heard, ¬told.1.Short) (hnone : ∀ told ∈ heard, told.1.hello? = none)
    (hseen : known.hello_seen = false) (hchallenged : known.sui_challenged = false) (htags : known.peer_tags = []) :
    known.listen able heard = timed_out := by
  induction heard generalizing known with
  | nil => rw [Known.listen, hchallenged, timed_out]
  | cons first rest ih =>
    have hhear := hear_of_no_hello able known (hnone first List.mem_cons_self)
      (by rw [htags, not_capable_nil])
    rw [Known.listen, if_neg (hfull first List.mem_cons_self), Known.done, hhear]
    dsimp only
    rw [hseen, Bool.false_and, Bool.false_and, if_neg Bool.false_ne_true]
    exact ih (fun told htold => hfull told (List.mem_cons_of_mem _ htold))
      (fun told htold => hnone told (List.mem_cons_of_mem _ htold)) rfl hchallenged htags

/-- So it does without the information of the peer, and it sends no challenge. -/
theorem listen_of_no_info (hfull : ∀ told ∈ heard, ¬told.1.Short) (hnone : ∀ told ∈ heard, told.1.is_info = false)
    (hseen : known.info_seen = false) (hchallenged : known.sui_challenged = false) :
    known.listen able heard = timed_out := by
  induction heard generalizing known with
  | nil => rw [Known.listen, hchallenged, timed_out]
  | cons first rest ih =>
    have hhear : (known.hear able first.1).info_seen = false ∧ (known.hear able first.1).sui_challenged = false := by
      have hfirst := hnone first List.mem_cons_self
      cases htold : first.1 with
      | emuleinfo payload hlength =>
        rw [htold] at hfirst
        cases hfirst
      | emuleinfo_answer payload hlength =>
        rw [htold] at hfirst
        cases hfirst
      | _ => exact ⟨hseen, hchallenged⟩
    rw [Known.listen, if_neg (hfull first List.mem_cons_self), Known.done, hhear.1, Bool.and_false, Bool.false_and,
      if_neg Bool.false_ne_true]
    exact ih (fun told htold => hfull told (List.mem_cons_of_mem _ htold))
      (fun told htold => hnone told (List.mem_cons_of_mem _ htold)) hhear.1 hhear.2

/-- What is known while all HELLOs say the same of the peer. -/
structure Known.Steady (peer : PeerInfo) (tags : List Ed2kTag) (known : Known) : Prop where
  unchallenged : known.sui_challenged = false ∧ known.sui_deadline = false
  peer_eq : known.peer = if known.hello_seen then some peer else none
  peer_tags_eq : known.peer_tags = if known.hello_seen then tags else []

theorem Known.Steady.not_capable {peer : PeerInfo} {tags : List Ed2kTag} (hsteady : known.Steady peer tags)
    (hcapable : Capable able tags = false) : Capable able known.peer_tags = false := by
  rw [hsteady.peer_tags_eq]
  split
  · exact hcapable
  · exact not_capable_nil able

theorem Known.Steady.hear {peer : PeerInfo} {tags : List Ed2kTag} {told : Told} (hsteady : known.Steady peer tags)
    (hcapable : Capable able tags = false) (hanswer : told.is_answer = false)
    (hsame : ∀ hello, told.hello? = some hello → PeerInfo.of_hello hello = peer ∧ hello.tags = tags) :
    (known.hear able told).Steady peer tags ∧
      ((known.hear able told).hello_seen = true ↔ known.hello_seen = true ∨ told.hello? ≠ none) ∧
        ((known.hear able told).info_seen = true ↔ known.info_seen = true ∨ told.is_info = true) := by
  by_cases hnone : told.hello? = none
  · have hpeer : (known.hear able told).peer = known.peer :=
      peer_hear hnone fun htrue => absurd (hanswer.symm.trans htrue) Bool.false_ne_true
    rw [hear_of_no_hello able known hnone (hsteady.not_capable hcapable), hpeer]
    refine ⟨⟨hsteady.unchallenged, hsteady.peer_eq, hsteady.peer_tags_eq⟩, ?_, ?_⟩
    · exact (or_iff_left (not_not.mpr hnone)).symm
    · rw [Bool.or_eq_true]
  · cases told with
    | hello answers payload parsed hparse =>
      obtain ⟨hinfo, htags⟩ := hsame parsed rfl
      refine ⟨⟨hsteady.unchallenged, congrArg some hinfo, htags⟩, ?_, ?_⟩
      · exact iff_of_true rfl (.inr hnone)
      · exact (or_iff_left Bool.false_ne_true).symm
    | _ => exact absurd rfl hnone

theorem not_short_of_not_answer {told : Told} (hanswer : told.is_answer = false) : ¬told.Short := by
  intro hshort
  cases told with
  | emuleinfo_answer payload hlength => cases hanswer
  | _ => exact hshort.elim

/-- The handshake returns what all HELLOs say, where no answer adds to it and no challenge is sent. -/
theorem listen_of_steady {peer : PeerInfo} {tags : List Ed2kTag} (hcapable : Capable able tags = false)
    (hfull : ∀ told ∈ heard, told.1.is_answer = false)
    (hsame : ∀ told ∈ heard, ∀ hello, told.1.hello? = some hello → PeerInfo.of_hello hello = peer ∧ hello.tags = tags)
    (hsteady : known.Steady peer tags) (hwaiting : ¬(known.hello_seen = true ∧ known.info_seen = true))
    (hhello : known.hello_seen = true ∨ ∃ told ∈ heard, told.1.hello? ≠ none)
    (hinfo : known.info_seen = true ∨ ∃ told ∈ heard, told.1.is_info = true) :
    known.listen able heard = (.ok (peer, tags), false) := by
  induction heard generalizing known with
  | nil =>
    have hseen := hhello.resolve_right fun ⟨_, htold, _⟩ => List.not_mem_nil htold
    have hinfoSeen := hinfo.resolve_right fun ⟨_, htold, _⟩ => List.not_mem_nil htold
    exact absurd ⟨hseen, hinfoSeen⟩ hwaiting
  | cons first rest ih =>
    have hanswer := hfull first List.mem_cons_self
    obtain ⟨hnext, hhelloNext, hinfoNext⟩ := hsteady.hear hcapable hanswer (hsame first List.mem_cons_self)
    have hlater : ∀ P : Told → Prop, (∃ told ∈ first :: rest, P told.1) → P first.1 ∨ ∃ told ∈ rest, P told.1 := by
      rintro P ⟨told, htold, hP⟩
      obtain rfl | htold := List.mem_cons.mp htold
      · exact .inl hP
      · exact .inr ⟨told, htold, hP⟩
    have hhelloRest : (known.hear able first.1).hello_seen = true ∨ ∃ told ∈ rest, told.1.hello? ≠ none := by
      rw [hhelloNext, or_assoc]
      exact hhello.imp_right (hlater fun told => told.hello? ≠ none)
    have hinfoRest : (known.hear able first.1).info_seen = true ∨ ∃ told ∈ rest, told.1.is_info = true := by
      rw [hinfoNext, or_assoc]
      exact hinfo.imp_right (hlater fun told => told.is_info = true)
    rw [Known.listen, if_neg (not_short_of_not_answer hanswer), Known.done, hnext.unchallenged.2]
    split
    · rename_i hdone
      rw [Bool.not_false, Bool.true_or, Bool.and_true, Bool.and_eq_true] at hdone
      rw [hnext.peer_eq, hnext.peer_tags_eq, if_pos hdone.1, if_pos hdone.1, hnext.unchallenged.1]
    · rename_i hdone
      rw [Bool.not_false, Bool.true_or, Bool.and_true, Bool.and_eq_true] at hdone
      exact ih (fun told htold => hfull told (List.mem_cons_of_mem _ htold))
        (fun told htold => hsame told (List.mem_cons_of_mem _ htold)) hnext hdone hhelloRest hinfoRest

theorem not_short_of_hello {told : Told} {parsed : Hello} (htold : told.hello? = some parsed) : ¬told.Short := by
  cases told with
  | emuleinfo_answer payload hlength => cases htold
  | _ => exact not_false

theorem hear_hello {told : Told} {parsed : Hello} (htold : told.hello? = some parsed) :
    known.hear able told =
      { known with hello_seen := true, peer := some (.of_hello parsed), peer_tags := parsed.tags } := by
  cases told with
  | hello answers payload other hparse =>
    obtain rfl : other = parsed := Option.some.inj htold
    rfl
  | _ => cases htold

/-- Where a HELLO comes last, nothing is kept of the information before it, and no challenge is sent. -/
theorem listen_hello_last {parsed : Hello} {told : Told} (htold : told.hello? = some parsed) (grace_over : Bool)
    (rest : List (Told × Bool)) (hfull : ∀ told ∈ heard, ¬told.1.Short)
    (hnone : ∀ told ∈ heard, told.1.hello? = none) (hpeer : known.peer = none) (htags : known.peer_tags = [])
    (hchallenged : known.sui_challenged = false) (hdeadline : known.sui_deadline = false)
    (hseen : known.hello_seen = false) (hinfo : known.info_seen = true ∨ ∃ told ∈ heard, told.1.is_info = true) :
    known.listen able (heard ++ (told, grace_over) :: rest) = (.ok (.of_hello parsed, parsed.tags), false) := by
  induction heard generalizing known with
  | nil =>
    have hinfoSeen := hinfo.resolve_right fun ⟨_, htold, _⟩ => List.not_mem_nil htold
    rw [List.nil_append, Known.listen, if_neg (not_short_of_hello htold), Known.done, hear_hello htold]
    dsimp only
    rw [hinfoSeen, hdeadline, hchallenged]
    rfl
  | cons first rest' ih =>
    have hfirst := hnone first List.mem_cons_self
    have hhear := hear_of_no_hello able known hfirst (by rw [htags, not_capable_nil])
    rw [peer_hear hfirst fun _ => hpeer] at hhear
    rw [List.cons_append, Known.listen, if_neg (hfull first List.mem_cons_self), Known.done, hhear]
    dsimp only
    rw [hseen, Bool.false_and, Bool.false_and, if_neg Bool.false_ne_true]
    refine ih (fun told htold => hfull told (List.mem_cons_of_mem _ htold))
      (fun told htold => hnone told (List.mem_cons_of_mem _ htold)) hpeer htags hchallenged hdeadline rfl ?_
    rw [Bool.or_eq_true, or_assoc]
    refine hinfo.imp_right ?_
    rintro ⟨other, hother, hinfoOther⟩
    obtain rfl | hother := List.mem_cons.mp hother
    · exact .inl hinfoOther
    · exact .inr ⟨other, hother, hinfoOther⟩

/-- What is known after a HELLO alone. -/
def greeted (parsed : Hello) : Known := ⟨true, false, false, false, some (.of_hello parsed), parsed.tags⟩

theorem listen_hello_first {told : Told} {parsed : Hello} (htold : told.hello? = some parsed)
    (rest : List (Told × Bool)) :
    Known.nothing.listen able ((told, false) :: rest) = (greeted parsed).listen able rest := by
  rw [Known.listen, if_neg (not_short_of_hello htold), hear_hello htold]
  rfl

/-- The information of a peer that is capable is followed by a challenge. -/
theorem listen_greeted_capable {parsed : Hello} {info : Told} (hinfo : info.is_info = true) (hfull : ¬info.Short)
    (hcapable : Capable able parsed.tags = true) (rest : List (Told × Bool)) :
    ((greeted parsed).listen able ((info, false) :: rest)).2 = true := by
  have hchallenged : ((greeted parsed).hear able info).sui_challenged = true := by
    cases info with
    | emuleinfo payload hlength =>
      simp only [Known.hear, Known.challenge, greeted, hcapable, Bool.not_false, Bool.and_true, if_true]
    | emuleinfo_answer payload hlength =>
      simp only [Known.hear, Known.challenge, greeted, hcapable, Bool.not_false, Bool.and_true, if_true]
    | _ => cases hinfo
  rw [Known.listen, if_neg hfull]
  split
  · exact hchallenged
  · exact listen_challenged rest hchallenged

/-- The version in an answer is kept where the HELLO came before it. -/
theorem listen_greeted_answer {parsed : Hello} {info : Told} (hanswer : info.is_answer = true) (hfull : ¬info.Short)
    (hcapable : Capable able parsed.tags = false) (rest : List (Told × Bool)) :
    ∃ peer version, ((greeted parsed).listen able ((info, false) :: rest)).1 = .ok (peer, parsed.tags) ∧
      peer.emule_version = some version := by
  cases info with
  | emuleinfo_answer payload hlength =>
    obtain ⟨first, payload, rfl⟩ := List.exists_cons_of_length_pos (show 0 < payload.length by omega)
    rw [Known.listen, if_neg hfull]
    simp only [Known.hear, Known.challenge, greeted, hcapable, Bool.and_false, if_neg Bool.false_ne_true]
    exact ⟨_, first.toNat, rfl, rfl⟩
  | _ => cases hanswer

end Listening

/-- Two handshakes end without an unexpected exception and with the same result, and both or neither send a
challenge. -/
structure Agree {rsa : Rsa} (first second : Ending rsa) : Prop where
  expected : ∀ e, first.1 = .error e ∨ second.1 = .error e → ∃ message, e = .PeerSessionError message
  same : first.1 = second.1
  challenged : first.2.sui_challenged = second.2.sui_challenged

/-- No answer is short; and where there are both a HELLO and information, no information is an answer, all HELLOs say
the same, and none of them announces what would be challenged. -/
structure Alike (able : Bool) (packets : List Told) : Prop where
  long : ∀ told ∈ packets, ¬told.Short
  unanswered : (∃ told ∈ packets, told.hello? ≠ none) → ∀ told ∈ packets, told.is_answer = false
  incapable : (∃ told ∈ packets, told.is_info = true) →
    ∀ told ∈ packets, ∀ hello, told.hello? = some hello → Capable able hello.tags = false
  same : (∃ told ∈ packets, told.is_info = true) →
    ∀ first ∈ packets, ∀ second ∈ packets, ∀ hello other, first.hello? = some hello → second.hello? = some other →
      PeerInfo.of_hello hello = PeerInfo.of_hello other ∧ hello.tags = other.tags

section Order

variable {able : Bool} {packets : List Told}

/-- Packets that arrive promptly. -/
def prompt (packets : List Told) : List (Told × Bool) := packets.map fun told => (told, false)

theorem map_fst_prompt : (prompt packets).map Prod.fst = packets := by
  rw [prompt, List.map_map]
  exact List.map_id packets

/-- What the arrivals of the packets come to in any order. -/
def Agrees (able : Bool) (packets : List Told) : Prop :=
  ∀ first second : List (Told × Bool), (first.map Prod.fst).Perm packets → (second.map Prod.fst).Perm packets →
    (∀ e, (Known.nothing.listen able first).1 = .error e ∨ (Known.nothing.listen able second).1 = .error e →
      ∃ message, e = .PeerSessionError message) ∧
      Known.nothing.listen able first = Known.nothing.listen able second

theorem hello?_of_is_info {told : Told} (hinfo : told.is_info = true) : told.hello? = none := by
  cases told with
  | hello answers payload parsed hparse => cases hinfo
  | _ => rfl

theorem is_info_of_is_answer {told : Told} (hanswer : told.is_answer = true) : told.is_info = true := by
  cases told with
  | emuleinfo_answer payload hlength => rfl
  | _ => cases hanswer

/-- All packets without a HELLO may arrive first. -/
theorem listen_of_agrees {first : List (Told × Bool)} (hagrees : Agrees able packets)
    (hfirst : (first.map Prod.fst).Perm packets) (hlong : ∀ told ∈ packets, ¬told.Short)
    (hinfo : ∃ told ∈ packets, told.is_info = true) {told : Told} (htold : told ∈ packets) {hello : Hello}
    (hhello : told.hello? = some hello) :
    Known.nothing.listen able first = (.ok (.of_hello hello, hello.tags), false) := by
  obtain ⟨front, back, rfl⟩ := List.append_of_mem htold
  let silent : Told → Bool := fun told => told.hello?.isNone
  let nameless := (front ++ back).filter silent
  let others := (front ++ back).filter fun told => !silent told
  have hperm : (nameless ++ told :: others).Perm (front ++ told :: back) :=
    (List.perm_middle.trans ((List.filter_append_perm silent (front ++ back)).cons told)).trans List.perm_middle.symm
  have hnameless : ∀ other ∈ nameless, other ∈ front ++ told :: back ∧ other.hello? = none := by
    intro other hother
    refine ⟨hperm.mem_iff.mp (List.mem_append_left _ hother), ?_⟩
    exact Option.isNone_iff_eq_none.mp (List.mem_filter.mp hother).2
  have hinfoFront : ∃ other ∈ nameless, other.is_info = true := by
    obtain ⟨info, hmem, hinfo⟩ := hinfo
    refine ⟨info, ?_, hinfo⟩
    have hsilent := hello?_of_is_info hinfo
    have hne : info ≠ told := by
      rintro rfl
      rw [hsilent] at hhello
      cases hhello
    rw [List.mem_append, List.mem_cons] at hmem
    refine List.mem_filter.mpr ⟨List.mem_append.mpr (hmem.imp_right fun h => h.resolve_left hne), ?_⟩
    exact Option.isNone_iff_eq_none.mpr hsilent
  have harranged : ((prompt nameless ++ (told, false) :: prompt others).map Prod.fst).Perm (front ++ told :: back) := by
    rw [List.map_append, List.map_cons, map_fst_prompt, map_fst_prompt]
    exact hperm
  rw [(hagrees first _ hfirst harranged).2]
  have hprompt : ∀ other ∈ prompt nameless, other.1 ∈ nameless := by
    intro other hother
    obtain ⟨told, htold, rfl⟩ := List.mem_map.mp hother
    exact htold
  refine listen_hello_last hhello false (prompt others) (fun other hother => ?_) (fun other hother => ?_) rfl rfl rfl
    rfl rfl (.inr ?_)
  · exact hlong other.1 (hnameless other.1 (hprompt other hother)).1
  · exact (hnameless other.1 (hprompt other hother)).2
  · obtain ⟨info, hmem, hinfo⟩ := hinfoFront
    exact ⟨(info, false), List.mem_map_of_mem hmem, hinfo⟩

theorem agrees_of_alike (halike : Alike able packets) : Agrees able packets := by
  have hresult : ∃ result : Except Exc (PeerInfo × List Ed2kTag) × Bool,
      (∀ e, result.1 = .error e → ∃ message, e = .PeerSessionError message) ∧
        ∀ heard : List (Told × Bool), (heard.map Prod.fst).Perm packets → Known.nothing.listen able heard = result := by
    have hmem : ∀ {heard : List (Told × Bool)}, (heard.map Prod.fst).Perm packets → ∀ told ∈ heard, told.1 ∈ packets :=
      fun hperm told htold => hperm.mem_iff.mp (List.mem_map_of_mem htold)
    have hback : ∀ {heard : List (Told × Bool)}, (heard.map Prod.fst).Perm packets → ∀ P : Told → Prop,
        (∃ told ∈ packets, P told) → ∃ told ∈ heard, P told.1 := by
      rintro heard hperm P ⟨told, htold, hP⟩
      obtain ⟨pair, hpair, rfl⟩ := List.mem_map.mp (hperm.mem_iff.mpr htold)
      exact ⟨pair, hpair, hP⟩
    have htimed : ∀ e, (timed_out).1 = .error e → ∃ message, e = .PeerSessionError message :=
      fun e he => ⟨_, (Except.error.inj he).symm⟩
    by_cases hhello : ∃ told ∈ packets, told.hello? ≠ none
    · by_cases hinfo : ∃ told ∈ packets, told.is_info = true
      · obtain ⟨told, htold, hsome⟩ := id hhello
        obtain ⟨hello, hsome⟩ := Option.ne_none_iff_exists'.mp hsome
        refine ⟨(.ok (.of_hello hello, hello.tags), false), (fun e he => by cases he), fun heard hperm => ?_⟩
        refine listen_of_steady (halike.incapable hinfo told htold hello hsome)
          (fun told htold => halike.unanswered hhello told.1 (hmem hperm told htold))
          (fun other hother parsed hparsed => ?_) ⟨⟨rfl, rfl⟩, rfl, rfl⟩ (fun hboth => Bool.false_ne_true hboth.1)
          (.inr (hback hperm (fun told => told.hello? ≠ none) hhello))
          (.inr (hback hperm (fun told => told.is_info = true) hinfo))
        exact halike.same hinfo other.1 (hmem hperm other hother) told htold parsed hello hparsed hsome
      · refine ⟨timed_out, htimed, fun heard hperm => ?_⟩
        refine listen_of_no_info (fun told htold => halike.long told.1 (hmem hperm told htold))
          (fun told htold => ?_) rfl rfl
        exact Bool.eq_false_iff.mpr fun htrue => hinfo ⟨told.1, hmem hperm told htold, htrue⟩
    · refine ⟨timed_out, htimed, fun heard hperm => ?_⟩
      refine listen_of_no_hello (fun told htold => halike.long told.1 (hmem hperm told htold))
        (fun told htold => ?_) rfl rfl rfl
      exact not_not.mp fun hsome => hhello ⟨told.1, hmem hperm told htold, hsome⟩
  obtain ⟨result, hexpected, hall⟩ := hresult
  intro first second hfirst hsecond
  rw [hall first hfirst, hall second hsecond]
  exact ⟨fun e he => hexpected e (or_self_iff.mp he), rfl⟩

/-- Two packets may arrive before all others. -/
theorem perm_two {first second : Told} (hfirst : first ∈ packets) (hsecond : second ∈ packets) (hne : first ≠ second) :
    ∃ rest, (first :: second :: rest).Perm packets := by
  obtain ⟨front, back, rfl⟩ := List.append_of_mem hfirst
  have hrest : second ∈ front ++ back := by
    rw [List.mem_append, List.mem_cons] at hsecond
    exact List.mem_append.mpr (hsecond.imp_right fun h => h.resolve_left hne.symm)
  obtain ⟨front', back', hsplit⟩ := List.append_of_mem hrest
  refine ⟨front' ++ back', ((List.perm_middle.symm.trans (List.Perm.of_eq hsplit.symm)).cons first).trans ?_⟩
  exact List.perm_middle.symm

theorem alike_of_agrees (hagrees : Agrees able packets) : Alike able packets := by
  have hlong : ∀ told ∈ packets, ¬told.Short := by
    intro told htold hshort
    obtain ⟨front, back, hsplit⟩ := List.append_of_mem htold
    have hperm : ((prompt (told :: (front ++ back))).map Prod.fst).Perm packets := by
      rw [map_fst_prompt, hsplit]
      exact List.perm_middle.symm
    obtain ⟨message, hmessage⟩ := (hagrees _ _ hperm hperm).1 .IndexError
      (.inl (by rw [prompt, List.map_cons, Known.listen, if_pos hshort]))
    cases hmessage
  -- A HELLO before all information, which comes to the same as one behind it.
  have hfirst : ∀ hello ∈ packets, ∀ info ∈ packets, ∀ parsed, hello.hello? = some parsed → info.is_info = true →
      ∃ rest, (greeted parsed).listen able ((info, false) :: rest) = (.ok (.of_hello parsed, parsed.tags), false) := by
    intro hello hhello info hinfo parsed hparsed hisInfo
    have hne : hello ≠ info := by
      rintro rfl
      rw [hello?_of_is_info hisInfo] at hparsed
      cases hparsed
    obtain ⟨rest, hperm⟩ := perm_two hhello hinfo hne
    have hprompt : ((prompt (hello :: info :: rest)).map Prod.fst).Perm packets := by
      rw [map_fst_prompt]
      exact hperm
    refine ⟨prompt rest, ?_⟩
    rw [← listen_hello_first hparsed]
    exact listen_of_agrees hagrees hprompt hlong ⟨info, hinfo, hisInfo⟩ hhello hparsed
  have hincapable : ∀ hello ∈ packets, ∀ info ∈ packets, ∀ parsed, hello.hello? = some parsed → info.is_info = true →
      Capable able parsed.tags = false := by
    intro hello hhello info hinfo parsed hparsed hisInfo
    obtain ⟨rest, hlisten⟩ := hfirst hello hhello info hinfo parsed hparsed hisInfo
    by_contra hcapable
    have hchallenged := listen_greeted_capable hisInfo (hlong info hinfo) (Bool.not_eq_false _ |>.mp hcapable) rest
    rw [hlisten] at hchallenged
    cases hchallenged
  refine ⟨hlong, ?_, ?_, ?_⟩
  · rintro ⟨hello, hhello, hsome⟩ info hinfo
    obtain ⟨parsed, hparsed⟩ := Option.ne_none_iff_exists'.mp hsome
    by_contra hanswer
    have hanswer := Bool.not_eq_false _ |>.mp hanswer
    have hisInfo := is_info_of_is_answer hanswer
    obtain ⟨rest, hlisten⟩ := hfirst hello hhello info hinfo parsed hparsed hisInfo
    obtain ⟨peer, version, hpeer, hversion⟩ := listen_greeted_answer hanswer (hlong info hinfo)
      (hincapable hello hhello info hinfo parsed hparsed hisInfo) rest
    rw [hlisten] at hpeer
    cases hpeer
    cases hversion
  · rintro ⟨info, hinfo, hisInfo⟩ hello hhello parsed hparsed
    exact hincapable hello hhello info hinfo parsed hparsed hisInfo
  · intro hinfo first hfirst second hsecond hello other hhello hother
    have hperm : ((prompt packets).map Prod.fst).Perm packets := List.Perm.of_eq map_fst_prompt
    have hone := listen_of_agrees hagrees hperm hlong hinfo hfirst hhello
    rw [listen_of_agrees hagrees hperm hlong hinfo hsecond hother] at hone
    obtain ⟨hpeer, htags⟩ := Prod.mk.inj (Except.ok.inj (Prod.mk.inj hone).1)
    exact ⟨hpeer.symm, htags.symm⟩

end Order

section Handshake

variable {rsa : Rsa} (me : Local rsa)

theorem handshake_eq_listen (heard : List (Told × Bool)) :
    ((handshake me (heard.map arrival)).1, (handshake me (heard.map arrival)).2.sui_challenged) =
      Known.nothing.listen (has_keys me.secure_ident) heard := receive_eq me heard (Exchange.init me)

theorem agree_handshakes_iff {packets : List Told} :
    Agrees (has_keys me.secure_ident) packets ↔
      ∀ first second : List (Told × Bool), (first.map Prod.fst).Perm packets → (second.map Prod.fst).Perm packets →
        Agree (handshake me (first.map arrival)) (handshake me (second.map arrival)) := by
  constructor
  · intro hagrees first second hfirst hsecond
    obtain ⟨hexpected, hsame⟩ := hagrees first second hfirst hsecond
    rw [← handshake_eq_listen, ← handshake_eq_listen] at hexpected hsame
    exact ⟨hexpected, (Prod.mk.inj hsame).1, (Prod.mk.inj hsame).2⟩
  · intro hagree first second hfirst hsecond
    obtain ⟨hexpected, hsame, hchallenged⟩ := hagree first second hfirst hsecond
    rw [← handshake_eq_listen, ← handshake_eq_listen]
    exact ⟨hexpected, Prod.ext hsame hchallenged⟩

/-- The handshake does not depend on the order of what a peer sends, exactly where no answer is short, no version
comes with a HELLO, all HELLOs say the same, and nobody is challenged. -/
theorem handshake_perm_iff (packets : List Told) :
    (∀ first second : List (Told × Bool), (first.map Prod.fst).Perm packets → (second.map Prod.fst).Perm packets →
      Agree (handshake me (first.map arrival)) (handshake me (second.map arrival))) ↔
      Alike (has_keys me.secure_ident) packets := by
  rw [← agree_handshakes_iff]
  exact ⟨alike_of_agrees, agrees_of_alike⟩

end Handshake

/-- A HELLO without tags. -/
def sampleGreeting : Told :=
  .hello true (0x10 :: List.replicate 16 0xAB ++ [1, 0, 0, 0, 0x36, 0x12, 0, 0, 0, 0, 0, 0, 0, 0, 0, 0])
    ⟨List.replicate 16 0xAB, 1, 0x1236, "", 0, []⟩ rfl

/-- An answer with the version and one option. -/
def sampleVersion : Told := .emuleinfo_answer [0x3C, 0xC5, 0x00, 0x01] (by decide)

theorem sampleVersion_forgotten :
    ¬∀ (rsa : Rsa) (me : Local rsa) (packets : List Told) (first second : List (Told × Bool)),
      (first.map Prod.fst).Perm packets → (second.map Prod.fst).Perm packets →
        Agree (handshake me (first.map arrival)) (handshake me (second.map arrival)) := by
  intro hall
  have hagrees := (agree_handshakes_iff ⟨none, [], [], 1⟩).mpr (hall sampleRsa ⟨none, [], [], 1⟩ [sampleGreeting, sampleVersion])
  have hanswer := (alike_of_agrees hagrees).unanswered ⟨sampleGreeting, List.mem_cons_self, Option.some_ne_none _⟩
    sampleVersion (List.mem_cons_of_mem _ List.mem_cons_self)
  cases hanswer

end amuled.peer_handshake
