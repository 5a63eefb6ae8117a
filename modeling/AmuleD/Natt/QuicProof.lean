import AmuleD.Basic

namespace amuled.natt

/-- `b"EAQN1"`. -/
def PROOF_MAGIC : Bytes := [0x45, 0x41, 0x51, 0x4E, 0x31]

def PROOF_LEN : Nat := 37

def no_hash : Bytes := List.replicate 16 0

/-- The hash of the user and of the peer. One that is empty counts as none. -/
structure Identity where
  user_hash : Bytes
  peer_user_hash : Option Bytes

def build_local_proof (our_user_hash : Bytes) (peer_user_hash : Option Bytes) : Bytes :=
  PROOF_MAGIC ++ our_user_hash ++ (peer_user_hash.filter fun hash => hash ≠ []).getD no_hash

def validate_remote_proof (proof : Bytes) (identity : Identity) : Bool :=
  if proof.length < PROOF_LEN ∨ proof.take 5 ≠ PROOF_MAGIC then false
  else if proof.extract 21 37 ≠ identity.user_hash ∧ proof.extract 21 37 ≠ no_hash then false
  else
    match identity.peer_user_hash.filter fun hash => hash ≠ [] with
    | none => true
    | some peer_user_hash => proof.extract 5 21 = peer_user_hash ∨ proof.extract 5 21 = no_hash

/-- One end of a connection: its role, whom it expects, and the streams that can be written. -/
structure QuicSide where
  is_client : Bool
  identity : Identity
  can_send : Nat → Bool

structure StreamDataReceived where
  stream_id : Nat
  data : Bytes

/-- What the events change: `reader` are the bytes that were fed, `sent` the proofs that were written. -/
structure NattQuicProtocol where
  proof_ok : Bool
  dead : Bool
  reader : Bytes
  proof_buffer : Bytes
  remote_stream_id : Option Nat
  sent : List (Nat × Bytes)

def NattQuicProtocol.new : NattQuicProtocol := ⟨false, false, [], [], none, []⟩

/-- What the events bring, whatever their streams. -/
def received (events : List StreamDataReceived) : Bytes := events.flatMap StreamDataReceived.data

section Events

variable (side : QuicSide)

/-- An accepted proof with what is behind it. Where the answer cannot be written, an exception comes before that is
fed. -/
def NattQuicProtocol.accept (protocol : NattQuicProtocol) (stream_id : Nat) (proof rest : Bytes) : NattQuicProtocol :=
  let protocol := { protocol with proof_ok := true }
  if side.is_client then { protocol with reader := protocol.reader ++ rest }
  else if side.can_send stream_id then
    { protocol with
      sent := protocol.sent ++ [(stream_id, build_local_proof side.identity.user_hash (some (proof.extract 5 21)))]
      reader := protocol.reader ++ rest }
  else protocol

/-- `quic_event_received`, for the data of a stream. -/
def NattQuicProtocol.quic_event_received (protocol : NattQuicProtocol) (event : StreamDataReceived) :
    NattQuicProtocol :=
  let protocol := { protocol with remote_stream_id := some event.stream_id }
  if protocol.proof_ok then { protocol with reader := protocol.reader ++ event.data }
  else
    let buffer := protocol.proof_buffer ++ event.data
    if buffer.length < PROOF_LEN then { protocol with proof_buffer := buffer }
    else
      let proof := buffer.take PROOF_LEN
      let rest := buffer.drop PROOF_LEN
      let protocol := { protocol with proof_buffer := [] }
      if validate_remote_proof proof side.identity then protocol.accept side event.stream_id proof rest
      else { protocol with dead := true }

def NattQuicProtocol.run (protocol : NattQuicProtocol) (events : List StreamDataReceived) : NattQuicProtocol :=
  events.foldl (NattQuicProtocol.quic_event_received side) protocol

/-- The first bytes of a stream are a proof that is accepted. -/
def Accepted (stream : Bytes) : Prop := validate_remote_proof (stream.take PROOF_LEN) side.identity = true

/-- The proof guards the stream: it depends on nothing but the bytes that come in what is accepted and fed, and a server
answers a proof that is accepted once. -/
structure Guards (events : List StreamDataReceived) : Prop where
  opened : (NattQuicProtocol.new.run side events).proof_ok = true ↔ Accepted side (received events)
  fed : Accepted side (received events) →
    (NattQuicProtocol.new.run side events).reader = (received events).drop PROOF_LEN
  kept : ¬ Accepted side (received events) → (NattQuicProtocol.new.run side events).reader = []
  answered : side.is_client = false → Accepted side (received events) → ∃ stream_id,
    (NattQuicProtocol.new.run side events).sent =
      [(stream_id, build_local_proof side.identity.user_hash (some ((received events).extract 5 21)))]
  silent : ¬ Accepted side (received events) → (NattQuicProtocol.new.run side events).sent = []

/-- The pieces of the length of a proof that the cutting of the events makes, each with the stream of its last event.
What is left of an event behind a piece does not count for the next one. -/
def windows (buffer : Bytes) : List StreamDataReceived → List (Nat × Bytes)
  | [] => []
  | event :: rest =>
    if (buffer ++ event.data).length < PROOF_LEN then windows (buffer ++ event.data) rest
    else (event.stream_id, (buffer ++ event.data).take PROOF_LEN) :: windows [] rest

end Events

section Proofs

variable {side : QuicSide} {protocol : NattQuicProtocol} {events : List StreamDataReceived}

theorem validate_of_short {proof : Bytes} (hshort : proof.length < PROOF_LEN) (identity : Identity) :
    validate_remote_proof proof identity = false := if_pos (.inl hshort)

/-- The first piece is the first bytes of the stream, however it is cut. -/
theorem windows_first {buffer : Bytes} (hbuffer : buffer.length < PROOF_LEN) :
    match windows buffer events with
    | [] => (buffer ++ received events).length < PROOF_LEN
    | (_, window) :: _ => window = (buffer ++ received events).take PROOF_LEN := by
  induction events generalizing buffer with
  | nil =>
    change (buffer ++ []).length < PROOF_LEN
    rwa [List.append_nil]
  | cons event events ih =>
    have hreceived : buffer ++ received (event :: events) = buffer ++ event.data ++ received events :=
      (List.append_assoc _ _ _).symm
    rw [windows, hreceived]
    by_cases hshort : (buffer ++ event.data).length < PROOF_LEN
    · rw [if_pos hshort]
      exact ih hshort
    · rw [if_neg hshort]
      exact (List.take_append_of_le_length (Nat.not_lt.mp hshort)).symm

theorem run_cons (side : QuicSide) (protocol : NattQuicProtocol) (event : StreamDataReceived)
    (events : List StreamDataReceived) :
    protocol.run side (event :: events) = (protocol.quic_event_received side event).run side events := rfl

theorem received_cons (event : StreamDataReceived) (events : List StreamDataReceived) :
    received (event :: events) = event.data ++ received events := rfl

section Unopened

variable (hunopened : protocol.proof_ok = false)

include hunopened

/-- Too few bytes are kept. -/
theorem event_short (event : StreamDataReceived) (hshort : (protocol.proof_buffer ++ event.data).length < PROOF_LEN) :
    protocol.quic_event_received side event =
      { protocol with
        remote_stream_id := some event.stream_id
        proof_buffer := protocol.proof_buffer ++ event.data } := by
  simp only [NattQuicProtocol.quic_event_received, hunopened, Bool.false_eq_true, if_false, if_pos hshort]

/-- A piece that is rejected empties the buffer. -/
theorem event_rejected (event : StreamDataReceived)
    (hfull : ¬ (protocol.proof_buffer ++ event.data).length < PROOF_LEN)
    (hrejected : ¬ Accepted side (protocol.proof_buffer ++ event.data)) :
    protocol.quic_event_received side event =
      { protocol with remote_stream_id := some event.stream_id, proof_buffer := [], dead := true } := by
  simp only [NattQuicProtocol.quic_event_received, hunopened, Bool.false_eq_true, if_false, if_neg hfull]
  exact if_neg hrejected

theorem event_accepted (event : StreamDataReceived)
    (hfull : ¬ (protocol.proof_buffer ++ event.data).length < PROOF_LEN)
    (haccepted : Accepted side (protocol.proof_buffer ++ event.data)) :
    protocol.quic_event_received side event =
      NattQuicProtocol.accept side
        { protocol with remote_stream_id := some event.stream_id, proof_buffer := [] } event.stream_id
        ((protocol.proof_buffer ++ event.data).take PROOF_LEN)
        ((protocol.proof_buffer ++ event.data).drop PROOF_LEN) := by
  simp only [NattQuicProtocol.quic_event_received, hunopened, Bool.false_eq_true, if_false, if_neg hfull]
  exact if_pos haccepted

end Unopened

theorem accept_opens (side : QuicSide) (protocol : NattQuicProtocol) (stream_id : Nat) (proof rest : Bytes) :
    (protocol.accept side stream_id proof rest).proof_ok = true := by
  rw [NattQuicProtocol.accept]
  split
  · rfl
  · split <;> rfl

theorem accept_writable (protocol : NattQuicProtocol) {stream_id : Nat}
    (hwritable : side.is_client = true ∨ side.can_send stream_id = true)
    (proof rest : Bytes) :
    (protocol.accept side stream_id proof rest).reader = protocol.reader ++ rest ∧
      (protocol.accept side stream_id proof rest).sent = protocol.sent ++ if side.is_client then [] else
        [(stream_id, build_local_proof side.identity.user_hash (some (proof.extract 5 21)))] := by
  rw [NattQuicProtocol.accept]
  by_cases hclient : side.is_client = true
  · rw [if_pos hclient, if_pos hclient]
    exact ⟨rfl, (List.append_nil _).symm⟩
  · rw [if_neg hclient, if_neg hclient, if_pos (hwritable.resolve_left hclient)]
    exact ⟨rfl, rfl⟩

theorem accept_unwritable {stream_id : Nat} (hserver : side.is_client = false)
    (hunwritable : side.can_send stream_id = false) (proof rest : Bytes) :
    (protocol.accept side stream_id proof rest).sent = protocol.sent := by
  rw [NattQuicProtocol.accept, if_neg (by rw [hserver]; exact Bool.false_ne_true),
    if_neg (by rw [hunwritable]; exact Bool.false_ne_true)]

/-- Once the proof was accepted, everything is fed. -/
theorem run_opened (hopened : protocol.proof_ok = true) (events : List StreamDataReceived) :
    (protocol.run side events).proof_ok = true ∧
      (protocol.run side events).reader = protocol.reader ++ received events ∧
      (protocol.run side events).sent = protocol.sent := by
  induction events generalizing protocol with
  | nil => exact ⟨hopened, (List.append_nil _).symm, rfl⟩
  | cons event events ih =>
    have hstep : protocol.quic_event_received side event =
      { protocol with remote_stream_id := some event.stream_id, reader := protocol.reader ++ event.data } :=
        if_pos hopened
    have hstays : (protocol.quic_event_received side event).proof_ok = true := by
      rw [hstep]
      exact hopened
    obtain ⟨hok, hreader, hsent⟩ := ih hstays
    rw [run_cons, received_cons, ← List.append_assoc, hreader, hsent, hstep]
    rw [hstep] at hok
    exact ⟨hok, rfl, rfl⟩

theorem accepted_take_iff {stream : Bytes} : Accepted side (stream.take PROOF_LEN) ↔ Accepted side stream := by
  rw [Accepted, Accepted, List.take_take, Nat.min_self]

/-- As long as every piece is rejected, nothing is fed. -/
theorem run_rejected (hunopened : protocol.proof_ok = false)
    (hrejected : ∀ piece ∈ windows protocol.proof_buffer events, ¬ Accepted side piece.2) :
    (protocol.run side events).proof_ok = false ∧ (protocol.run side events).reader = protocol.reader ∧
      (protocol.run side events).sent = protocol.sent := by
  induction events generalizing protocol with
  | nil => exact ⟨hunopened, rfl, rfl⟩
  | cons event events ih =>
    rw [run_cons]
    rw [windows] at hrejected
    by_cases hshort : (protocol.proof_buffer ++ event.data).length < PROOF_LEN
    · rw [if_pos hshort] at hrejected
      rw [event_short hunopened event hshort]
      exact ih hunopened hrejected
    · rw [if_neg hshort, List.forall_mem_cons, accepted_take_iff] at hrejected
      rw [event_rejected hunopened event hshort hrejected.1]
      exact ih hunopened hrejected.2

/-- A piece that is accepted opens the stream, whichever it is. -/
theorem run_accepted (hunopened : protocol.proof_ok = false)
    (haccepted : ∃ piece ∈ windows protocol.proof_buffer events, Accepted side piece.2) :
    (protocol.run side events).proof_ok = true := by
  induction events generalizing protocol with
  | nil =>
    obtain ⟨piece, hpiece, -⟩ := haccepted
    cases hpiece
  | cons event events ih =>
    rw [run_cons]
    rw [windows] at haccepted
    by_cases hshort : (protocol.proof_buffer ++ event.data).length < PROOF_LEN
    · rw [if_pos hshort] at haccepted
      rw [event_short hunopened event hshort]
      exact ih hunopened haccepted
    · simp only [if_neg hshort, List.mem_cons, exists_eq_or_imp, accepted_take_iff] at haccepted
      by_cases hnow : Accepted side (protocol.proof_buffer ++ event.data)
      · rw [event_accepted hunopened event hshort hnow]
        exact (run_opened (accept_opens side _ _ _ _) events).1
      · rw [event_rejected hunopened event hshort hnow]
        exact ih hunopened (haccepted.resolve_left hnow)

/-- A run whose first piece is accepted: the events until then fill the buffer, those behind are fed. -/
theorem run_first {stream_id : Nat} {window : Bytes} {later : List (Nat × Bytes)}
    (hunopened : protocol.proof_ok = false)
    (hfirst : windows protocol.proof_buffer events = (stream_id, window) :: later) (haccepted : Accepted side window) :
    ∃ (before : NattQuicProtocol) (rest : Bytes) (after : List StreamDataReceived),
      before.reader = protocol.reader ∧ before.sent = protocol.sent ∧
        (protocol.proof_buffer ++ received events).drop PROOF_LEN = rest ++ received after ∧
          protocol.run side events = (before.accept side stream_id window rest).run side after := by
  induction events generalizing protocol with
  | nil => cases hfirst
  | cons event events ih =>
    rw [run_cons, received_cons, ← List.append_assoc]
    rw [windows] at hfirst
    by_cases hshort : (protocol.proof_buffer ++ event.data).length < PROOF_LEN
    · rw [if_pos hshort] at hfirst
      rw [event_short hunopened event hshort]
      have hnext : ({ protocol with
        remote_stream_id := some event.stream_id
        proof_buffer := protocol.proof_buffer ++ event.data } : NattQuicProtocol).proof_ok = false := hunopened
      exact ih hnext hfirst
    · rw [if_neg hshort] at hfirst
      cases hfirst
      rw [event_accepted hunopened event hshort (accepted_take_iff.mp haccepted)]
      have hdrop : (protocol.proof_buffer ++ event.data ++ received events).drop PROOF_LEN =
        (protocol.proof_buffer ++ event.data).drop PROOF_LEN ++ received events :=
          List.drop_append_of_le_length (Nat.not_lt.mp hshort)
      exact ⟨{ protocol with remote_stream_id := some event.stream_id, proof_buffer := [] }, _, events, rfl, rfl, hdrop,
        rfl⟩

/-- Where the first bytes are no proof, no later piece may be one. -/
theorem guards_iff_of_rejected (hrejected : ¬ Accepted side (received events)) :
    Guards side events ↔ ∀ piece ∈ windows [] events, ¬ Accepted side piece.2 := by
  have hunopened : NattQuicProtocol.new.proof_ok = false := rfl
  constructor
  · intro hguards piece hpiece haccepted
    exact hrejected (hguards.opened.mp (run_accepted hunopened ⟨piece, hpiece, haccepted⟩))
  · intro hpieces
    obtain ⟨hclosed, hreader, hsent⟩ := run_rejected hunopened hpieces
    refine ⟨iff_of_false ?_ hrejected, fun h => absurd h hrejected, fun _ => hreader, fun _ h => absurd h hrejected,
      fun _ => hsent⟩
    rw [hclosed]
    exact Bool.false_ne_true

/-- Where the first piece is a proof, a server must be able to answer it. -/
theorem guards_iff_of_accepted {stream_id : Nat} {later : List (Nat × Bytes)}
    (hfirst : windows [] events = (stream_id, (received events).take PROOF_LEN) :: later)
    (haccepted : Accepted side (received events)) :
    Guards side events ↔ side.is_client = true ∨ side.can_send stream_id = true := by
  have hunopened : NattQuicProtocol.new.proof_ok = false := rfl
  obtain ⟨before, rest, after, hreader, hsent, hdrop, hrun⟩ :=
    run_first hunopened hfirst (accepted_take_iff.mpr haccepted)
  obtain ⟨hopen, hfed, hkept⟩ :=
    run_opened (accept_opens side before stream_id ((received events).take PROOF_LEN) rest) after
  rw [← hrun] at hopen hfed hkept
  constructor
  · intro hguards
    by_contra hunwritable
    rw [not_or, Bool.not_eq_true, Bool.not_eq_true] at hunwritable
    obtain ⟨answered_id, hanswered⟩ := hguards.answered hunwritable.1 haccepted
    rw [hkept, accept_unwritable hunwritable.1 hunwritable.2, hsent] at hanswered
    cases hanswered
  · intro hwritable
    obtain ⟨hreads, hsends⟩ := accept_writable before hwritable ((received events).take PROOF_LEN) rest
    have hall : (NattQuicProtocol.new.run side events).reader = (received events).drop PROOF_LEN := by
      rw [hfed, hreads, hreader, List.append_assoc, ← hdrop]
      rfl
    have hanswer : ((received events).take PROOF_LEN).extract 5 21 = (received events).extract 5 21 := by
      rw [List.extract_eq_take_drop, List.extract_eq_take_drop, List.drop_take, List.take_take]
      rfl
    refine ⟨iff_of_true hopen haccepted, fun _ => hall, fun h => absurd haccepted h, fun hserver _ => ⟨stream_id, ?_⟩,
      fun h => absurd haccepted h⟩
    rw [hkept, hsends, hsent, hserver, ← hanswer]
    rfl

/-- What is fed depends on the bytes alone, not on how they are cut. -/
theorem Guards.reader_eq {events' : List StreamDataReceived} (h : Guards side events) (h' : Guards side events')
    (hsame : received events = received events') :
    (NattQuicProtocol.new.run side events).reader = (NattQuicProtocol.new.run side events').reader := by
  by_cases haccepted : Accepted side (received events)
  · rw [h.fed haccepted, h'.fed (hsame ▸ haccepted), hsame]
  · rw [h.kept haccepted, h'.kept (hsame ▸ haccepted)]

/-- The proof guards the stream exactly where the first piece is accepted, which a server can answer, or none is. -/
theorem guards_iff (side : QuicSide) (events : List StreamDataReceived) :
    Guards side events ↔
      (∃ stream_id window, (windows [] events).head? = some (stream_id, window) ∧ Accepted side window ∧
        (side.is_client = true ∨ side.can_send stream_id = true)) ∨
      ∀ piece ∈ windows [] events, ¬ Accepted side piece.2 := by
  have hshape : match windows [] events with
      | [] => (received events).length < PROOF_LEN
      | (_, window) :: _ => window = (received events).take PROOF_LEN := windows_first (by decide)
  cases hwindows : windows [] events with
  | nil =>
    rw [hwindows] at hshape
    have hshort : ¬ Accepted side (received events) := by
      rw [Accepted, List.take_of_length_le hshape.le, validate_of_short hshape]
      exact Bool.false_ne_true
    rw [guards_iff_of_rejected hshort, hwindows]
    exact iff_of_true (fun _ hpiece => absurd hpiece List.not_mem_nil)
      (.inr fun _ hpiece => absurd hpiece List.not_mem_nil)
  | cons piece later =>
    obtain ⟨stream_id, window⟩ := piece
    rw [hwindows] at hshape
    dsimp only at hshape
    subst hshape
    by_cases haccepted : Accepted side (received events)
    · rw [guards_iff_of_accepted hwindows haccepted]
      constructor
      · exact fun hwritable => .inl ⟨stream_id, _, rfl, accepted_take_iff.mpr haccepted, hwritable⟩
      · rintro (⟨first_id, window, hhead, -, hwritable⟩ | hnone)
        · cases hhead
          exact hwritable
        · exact absurd (accepted_take_iff.mpr haccepted) (hnone _ List.mem_cons_self)
    · rw [guards_iff_of_rejected haccepted, hwindows]
      refine (or_iff_right ?_).symm
      rintro ⟨first_id, window, hhead, hwindow, -⟩
      cases hhead
      exact haccepted (accepted_take_iff.mp hwindow)

end Proofs

section Samples

/-- A server without a hash that knows no peer, on a stream that can be written. -/
def sampleServer : QuicSide := ⟨false, ⟨no_hash, none⟩, fun _ => true⟩

/-- A proof behind as many bytes that are none, in an event of its own. -/
def sampleLateProof : List StreamDataReceived :=
  [⟨0, List.replicate 37 0⟩, ⟨0, build_local_proof no_hash none⟩]

/-- The second proof is accepted after the first one was rejected. -/
theorem sampleLateProof_accepted : ¬ Guards sampleServer sampleLateProof := by
  intro hguards
  have haccepted := hguards.opened.mp (by decide)
  rw [Accepted] at haccepted
  exact absurd haccepted (by decide)

end Samples

end amuled.natt
