import AmuleD.Peer.Handshake

open exactread keystream

namespace amuled.peer

/-- The accepting side: in `accept_basic_client`, or with the session that it returned. -/
inductive Acceptor where
  | accepting (task : Reader UInt8 (Except Exc (Bytes × AcceptorSession)))
  | accepted (session : AcceptorSession)

/-- Both ends of a connection, the bytes on the wires and in the acceptor's reader, and
the plain bytes that were sent and received so far. -/
structure Conversation where
  dialer : BasicObfuscationSession
  acceptor : Acceptor
  requests : Bytes
  buffer : Bytes
  answers : Bytes
  dialer_sent : Bytes
  dialer_received : Bytes
  acceptor_sent : Bytes
  acceptor_received : Bytes

inductive Event where
  | reach_acceptor (count : Nat)
  | acceptor_reads (count : Nat)
  | reach_dialer (count : Nat)
  | dialer_sends (message : Bytes)
  | acceptor_sends (message : Bytes)

namespace Conversation

/-- The acceptor's task goes on with the bytes in its reader. -/
def wake (s : Conversation) : Except Exc Conversation :=
  match s.acceptor with
  | .accepted _ => .ok s
  | .accepting task =>
    match resume task s.buffer with
    | (.done (.error e), _) => .error e
    | (.done (.ok (response, session)), rest) =>
      .ok { s with acceptor := .accepted session, buffer := rest, answers := s.answers ++ response }
    | (.take count next, rest) => .ok { s with acceptor := .accepting (.take count next), buffer := rest }

/-- A piece of the answers reaches the dialer, in its handshake or after it. -/
def dialer_gets (arc4 : Bytes → Nat → UInt8) (s : Conversation) (data rest : Bytes) :
    Except Exc Conversation :=
  if s.dialer.is_established then
    match s.dialer.decrypt arc4 data with
    | .error e => .error e
    | .ok (plain, dialer) =>
      .ok { s with dialer := dialer, answers := rest, dialer_received := s.dialer_received ++ plain }
  else
    match s.dialer.feed_response arc4 data with
    | (.error e, _) => .error e
    | (.ok none, dialer) => .ok { s with dialer := dialer, answers := rest }
    | (.ok (some leftover), dialer) =>
      .ok { s with dialer := dialer, answers := rest, dialer_received := s.dialer_received ++ leftover }

/-- A side sends once its handshake is complete. -/
def step (arc4 : Bytes → Nat → UInt8) (s : Conversation) : Event → Except Exc Conversation
  | .reach_acceptor count =>
    { s with requests := s.requests.drop count, buffer := s.buffer ++ s.requests.take count }.wake
  | .acceptor_reads count =>
    match s.acceptor with
    | .accepting _ => .ok s
    | .accepted session =>
      let plain := session.decrypt arc4 (s.buffer.take count)
      .ok { s with acceptor := .accepted plain.2, buffer := s.buffer.drop count,
                   acceptor_received := s.acceptor_received ++ plain.1 }
  | .reach_dialer count => s.dialer_gets arc4 (s.answers.take count) (s.answers.drop count)
  | .dialer_sends message =>
    if s.dialer.is_established then
      match s.dialer.encrypt arc4 message with
      | .error e => .error e
      | .ok (wire, dialer) =>
        .ok { s with dialer := dialer, requests := s.requests ++ wire,
                     dialer_sent := s.dialer_sent ++ message }
    else .ok s
  | .acceptor_sends message =>
    match s.acceptor with
    | .accepting _ => .ok s
    | .accepted session =>
      let wire := session.encrypt arc4 message
      .ok { s with acceptor := .accepted wire.2, answers := s.answers ++ wire.1,
                   acceptor_sent := s.acceptor_sent ++ message }

/-- The connection after the dialer's request and a sequence of events. -/
def run (c : BasicConnection) (events : List Event) : Except Exc Conversation := do
  let (request, dialer) ← c.dial
  events.foldlM (step c.arc4)
    { dialer := dialer, acceptor := .accepting c.accept, requests := request, buffer := [],
      answers := [], dialer_sent := [], dialer_received := [], acceptor_sent := [],
      acceptor_received := [] }

variable {c : BasicConnection} {s s' : Conversation}

/-- The acceptor has read a front of the request, which it does not finish. -/
structure Accepting (c : BasicConnection) (s : Conversation) : Prop where
  dialer : s.dialer = c.dialer
  answers : s.answers = []
  task : ∃ front, c.request = front ++ s.requests ∧ s.requests ≠ [] ∧
    s.acceptor = .accepting (resume c.accept front).1 ∧ s.buffer = (resume c.accept front).2
  dialer_sent : s.dialer_sent = []
  dialer_received : s.dialer_received = []
  acceptor_sent : s.acceptor_sent = []
  acceptor_received : s.acceptor_received = []

/-- The acceptor has answered, and the dialer has a front of its response. -/
structure Negotiating (c : BasicConnection) (s : Conversation) : Prop where
  state : s.dialer._state = .negotiating
  requests : s.requests = []
  buffer : s.buffer = []
  acceptor : ∃ session rest, s.acceptor = .accepted session ∧
    Rc4Stream.Carries c.arc4 s.dialer._send session._recv [] [] ∧
    Rc4Stream.Carries c.arc4 session._send s.dialer._recv s.answers rest ∧
    s.dialer._rx ++ rest = c.response ++ s.acceptor_sent
  short : s.dialer._rx.length < c.response.length
  known : s.dialer._peer_pad_len = none ∨ s.dialer._peer_pad_len = some c.resp_pad.length
  dialer_sent : s.dialer_sent = []
  dialer_received : s.dialer_received = []
  acceptor_received : s.acceptor_received = []

/-- Both handshakes are complete, and what was not yet received is on the wires. -/
structure Established (c : BasicConnection) (s : Conversation) : Prop where
  state : s.dialer._state = .encrypting
  acceptor : ∃ session to_acceptor to_dialer, s.acceptor = .accepted session ∧
    Rc4Stream.Carries c.arc4 s.dialer._send session._recv (s.buffer ++ s.requests) to_acceptor ∧
    Rc4Stream.Carries c.arc4 session._send s.dialer._recv s.answers to_dialer ∧
    s.dialer_sent = s.acceptor_received ++ to_acceptor ∧
    s.acceptor_sent = s.dialer_received ++ to_dialer

def Aligned (c : BasicConnection) (s : Conversation) : Prop :=
  Accepting c s ∨ Negotiating c s ∨ Established c s

theorem Accepting.reach_acceptor (h : Accepting c s) (count : Nat) :
    ∃ s', step c.arc4 s (.reach_acceptor count) = .ok s' ∧ Aligned c s' := by
  obtain ⟨front, hrequest, hopen, hacceptor, hbuffer⟩ := h.task
  have hresume := resume_append c.accept front (s.requests.take count)
  rw [← hbuffer] at hresume
  have hsplit : (front ++ s.requests.take count) ++ s.requests.drop count = c.request := by
    rw [List.append_assoc, List.take_append_drop, hrequest]
  simp only [step, wake, hacceptor, ← hresume]
  by_cases hlast : s.requests.drop count = []
  · have hall := c.accept_request
    rw [← hsplit, hlast, List.append_nil] at hall
    rw [hall]
    refine ⟨_, rfl, .inr (.inl ?_)⟩
    have hlength := c.length_response
    constructor
    · exact congrArg BasicObfuscationSession._state h.dialer
    · exact hlast
    · rfl
    · refine ⟨c.acceptor, c.response, rfl, ?_, ?_, ?_⟩
      · rw [h.dialer]
        exact ⟨rfl, .empty _⟩
      · rw [h.dialer, h.answers]
        exact ⟨rfl, rfl, rfl⟩
      · rw [h.dialer, h.acceptor_sent, List.append_nil]
        rfl
    · rw [h.dialer]
      change 0 < c.response.length
      omega
    · exact .inl (congrArg BasicObfuscationSession._peer_pad_len h.dialer)
    · exact h.dialer_sent
    · exact h.dialer_received
    · exact h.acceptor_received
  · have hnot := not_done_of_front (hsplit.symm ▸ c.accept_request) hlast
    cases htask : resume c.accept (front ++ s.requests.take count) with
    | mk task rest =>
      cases task with
      | done result => exact absurd (congrArg Prod.fst htask) (hnot result)
      | take wanted next =>
        refine ⟨_, rfl, .inl ?_⟩
        constructor
        · exact h.dialer
        · exact h.answers
        · exact ⟨front ++ s.requests.take count, hsplit.symm, hlast, by rw [htask], by rw [htask]⟩
        · exact h.dialer_sent
        · exact h.dialer_received
        · exact h.acceptor_sent
        · exact h.acceptor_received

/-- A side that is not ready leaves everything as it is. -/
theorem Accepting.step_eq (h : Accepting c s) (event : Event) :
    (∃ count, event = .reach_acceptor count) ∨ (∃ count, event = .reach_dialer count) ∨
      step c.arc4 s event = .ok s := by
  obtain ⟨front, _, _, hacceptor, _⟩ := h.task
  have hstate : s.dialer._state = .negotiating := congrArg BasicObfuscationSession._state h.dialer
  cases event with
  | reach_acceptor count => exact .inl ⟨count, rfl⟩
  | reach_dialer count => exact .inr (.inl ⟨count, rfl⟩)
  | acceptor_reads count => exact .inr (.inr (by rw [step, hacceptor]))
  | dialer_sends message =>
    right; right
    rw [step, BasicObfuscationSession.is_established, hstate]
    rfl
  | acceptor_sends message => exact .inr (.inr (by rw [step, hacceptor]))

theorem Accepting.reach_dialer (h : Accepting c s) (count : Nat) :
    step c.arc4 s (.reach_dialer count) = .ok s := by
  have hstate : s.dialer._state = .negotiating := congrArg BasicObfuscationSession._state h.dialer
  rw [step, h.answers, List.take_nil, List.drop_nil, dialer_gets,
    BasicObfuscationSession.is_established, if_neg (by simp [hstate]),
    BasicObfuscationSession.feed_response, if_neg (by simp [hstate]), if_pos rfl]
  have hanswers := h.answers
  cases s
  cases hanswers
  rfl

theorem dialer_gets_ok {data rest : Bytes} {returned : Option Bytes}
    (hstate : s.dialer._state = .negotiating)
    (hresult : (s.dialer.feed_response c.arc4 data).1 = .ok returned) :
    s.dialer_gets c.arc4 data rest = .ok { s with
      dialer := (s.dialer.feed_response c.arc4 data).2, answers := rest,
      dialer_received := s.dialer_received ++ returned.getD [] } := by
  rw [dialer_gets, BasicObfuscationSession.is_established, if_neg (by simp [hstate])]
  cases hfed : s.dialer.feed_response c.arc4 data with
  | mk result dialer =>
    rw [hfed] at hresult
    cases returned with
    | none =>
      simp only at hresult
      simp [hresult]
    | some leftover =>
      simp only at hresult
      simp [hresult]

theorem Negotiating.reach_dialer (h : Negotiating c s) (count : Nat) :
    ∃ s', step c.arc4 s (.reach_dialer count) = .ok s' ∧ Aligned c s' := by
  obtain ⟨session, rest, hacceptor, hto_acceptor, hto_dialer, htext⟩ := h.acceptor
  rw [← List.take_append_drop count s.answers] at hto_dialer
  obtain ⟨hsend, hcarries, hwait | hdone⟩ :=
    c.feed_response_eq h.state hto_dialer htext h.short h.known
  · obtain ⟨hresult, hstate, hrx, hshort, hknown⟩ := hwait
    refine ⟨_, dialer_gets_ok h.state hresult, .inr (.inl ?_)⟩
    constructor
    · exact hstate
    · exact h.requests
    · exact h.buffer
    · refine ⟨session, _, hacceptor, ?_, hcarries, ?_⟩
      · rwa [hsend]
      · rw [hrx, List.append_assoc, List.take_append_drop, htext]
    · exact hshort
    · exact hknown
    · exact h.dialer_sent
    · exact (List.append_nil _).trans h.dialer_received
    · exact h.acceptor_received
  · obtain ⟨leftover, hresult, hstate, hfront⟩ := hdone
    refine ⟨_, dialer_gets_ok h.state hresult, .inr (.inr ?_)⟩
    have hsent : s.acceptor_sent = leftover ++ rest.drop (s.answers.take count).length := by
      have hboth : c.response ++ s.acceptor_sent =
          c.response ++ (leftover ++ rest.drop (s.answers.take count).length) := by
        rw [← htext, ← List.append_assoc, ← hfront, List.append_assoc, List.take_append_drop]
      exact List.append_cancel_left hboth
    constructor
    · exact hstate
    · refine ⟨session, [], _, hacceptor, ?_, hcarries, ?_, ?_⟩
      · rw [h.buffer, h.requests, hsend]
        exact hto_acceptor
      · rw [h.dialer_sent, h.acceptor_received]
        rfl
      · rw [h.dialer_received]
        exact hsent

/-- While the dialer waits, the acceptor reads nothing more and may already send. -/
theorem Negotiating.step_ok (h : Negotiating c s) (event : Event) :
    ∃ s', step c.arc4 s event = .ok s' ∧ Aligned c s' := by
  obtain ⟨session, rest, hacceptor, hto_acceptor, hto_dialer, htext⟩ := h.acceptor
  cases event with
  | reach_dialer count => exact h.reach_dialer count
  | reach_acceptor count =>
    refine ⟨s, ?_, .inr (.inl h)⟩
    have hrequests := h.requests
    have hbuffer := h.buffer
    cases s
    cases hrequests
    cases hbuffer
    cases hacceptor
    simp [step, wake]
  | acceptor_reads count =>
    refine ⟨s, ?_, .inr (.inl h)⟩
    have hreceived := h.acceptor_received
    have hbuffer := h.buffer
    cases s
    cases hreceived
    cases hbuffer
    cases hacceptor
    simp [step, AcceptorSession.decrypt, Rc4Stream.crypt, crypt]
  | dialer_sends message =>
    refine ⟨s, ?_, .inr (.inl h)⟩
    rw [step, BasicObfuscationSession.is_established, h.state]
    rfl
  | acceptor_sends message =>
    simp only [step, hacceptor, AcceptorSession.encrypt]
    refine ⟨_, rfl, .inr (.inl ?_)⟩
    constructor
    · exact h.state
    · exact h.requests
    · exact h.buffer
    · refine ⟨_, rest ++ message, rfl, hto_acceptor, hto_dialer.send message, ?_⟩
      rw [← List.append_assoc, htext, List.append_assoc]
    · exact h.short
    · exact h.known
    · exact h.dialer_sent
    · exact h.dialer_received
    · exact h.acceptor_received

theorem Established.step_ok (h : Established c s) (event : Event) :
    ∃ s', step c.arc4 s event = .ok s' ∧ Established c s' := by
  obtain ⟨hstate, session, to_acceptor, to_dialer, hacceptor, hto_acceptor, hto_dialer, hdialer_sent,
    hacceptor_sent⟩ := h
  cases event with
  | reach_acceptor count =>
    simp only [step, wake, hacceptor]
    refine ⟨_, rfl, hstate, session, to_acceptor, to_dialer, rfl, ?_, hto_dialer,
      hdialer_sent, hacceptor_sent⟩
    rwa [List.append_assoc, List.take_append_drop]
  | acceptor_reads count =>
    rw [← List.take_append_drop count s.buffer, List.append_assoc] at hto_acceptor
    simp only [step, hacceptor, AcceptorSession.decrypt, hto_acceptor.decrypt]
    refine ⟨_, rfl, hstate, _, _, to_dialer, rfl, hto_acceptor.receive, hto_dialer, ?_,
      hacceptor_sent⟩
    rw [List.append_assoc, List.take_append_drop, hdialer_sent]
  | reach_dialer count =>
    rw [← List.take_append_drop count s.answers] at hto_dialer
    simp only [step, dialer_gets, BasicObfuscationSession.is_established,
      BasicObfuscationSession.decrypt, hstate, decide_true, if_true, ne_eq, not_true, if_false,
      hto_dialer.decrypt]
    refine ⟨_, rfl, rfl, session, to_acceptor, _, hacceptor, hto_acceptor, hto_dialer.receive,
      hdialer_sent, ?_⟩
    rw [List.append_assoc, List.take_append_drop, hacceptor_sent]
  | dialer_sends message =>
    simp only [step, BasicObfuscationSession.is_established,
      BasicObfuscationSession.encrypt, hstate, decide_true, if_true, ne_eq, not_true, if_false]
    refine ⟨_, rfl, rfl, session, to_acceptor ++ message, to_dialer, hacceptor, ?_, hto_dialer,
      ?_, hacceptor_sent⟩
    · rw [← List.append_assoc]
      exact hto_acceptor.send message
    · rw [hdialer_sent, List.append_assoc]
  | acceptor_sends message =>
    simp only [step, hacceptor, AcceptorSession.encrypt]
    refine ⟨_, rfl, hstate, _, to_acceptor, to_dialer ++ message, rfl, hto_acceptor,
      hto_dialer.send message, hdialer_sent, ?_⟩
    rw [hacceptor_sent, List.append_assoc]

theorem Aligned.step_ok (h : Aligned c s) (event : Event) :
    ∃ s', step c.arc4 s event = .ok s' ∧ Aligned c s' := by
  obtain haccepting | hnegotiating | hestablished := h
  · obtain ⟨count, rfl⟩ | ⟨count, rfl⟩ | hsame := haccepting.step_eq event
    · exact haccepting.reach_acceptor count
    · exact ⟨s, haccepting.reach_dialer count, .inl haccepting⟩
    · exact ⟨s, hsame, .inl haccepting⟩
  · exact hnegotiating.step_ok event
  · obtain ⟨s', hstep, hkept⟩ := hestablished.step_ok event
    exact ⟨s', hstep, .inr (.inr hkept)⟩

theorem Aligned.foldlM (h : Aligned c s) (events : List Event) :
    ∃ s', events.foldlM (step c.arc4) s = .ok s' ∧ Aligned c s' := by
  induction events generalizing s with
  | nil => exact ⟨s, rfl, h⟩
  | cons event rest ih =>
    obtain ⟨next, hstep, hnext⟩ := h.step_ok event
    obtain ⟨s', hrun, haligned⟩ := ih hnext
    refine ⟨s', ?_, haligned⟩
    rw [List.foldlM_cons, hstep]
    exact hrun

theorem aligned_run (c : BasicConnection) (events : List Event) :
    ∃ s, run c events = .ok s ∧ Aligned c s := by
  rw [run, c.dial_eq]
  apply Aligned.foldlM
  left
  constructor
  · rfl
  · rfl
  · exact ⟨[], rfl, by rw [c.request_eq]; exact List.cons_ne_nil _ _, rfl, rfl⟩
  · rfl
  · rfl
  · rfl
  · rfl

end Conversation

end amuled.peer
