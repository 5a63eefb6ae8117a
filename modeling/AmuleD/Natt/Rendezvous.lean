import AmuleD.Bytes.LittleEndian
import AmuleD.Basic
import AmuleD.Dict
import AmuleD.Runs
import Mathlib.Algebra.Order.Ring.Rat

open littleendian

namespace amuled.natt

def CLIENT_UDP_PROTOCOL : UInt8 := 0xC5

def OP_NATT_ENDPOINT_HINT : UInt8 := 0xAA

def UDP_RESERVEDPROT2 : UInt8 := 0xB2

def NATT_FRAME_CAPS : UInt8 := 0x02

def NATT_FRAME_CAPS_ACK : UInt8 := 0x03

def CAPS_MAGIC : Nat := 0x43514145

def CAPS_VERSION : UInt8 := 1

def CAPS_MIN_SIZE : Nat := 4 + 1 + 1 + 16 + 16 + 16

def ENDPOINT_HINT_SIZE : Nat := 1 + 16 + 16 + 16 + 4 + 2 + 1

def CONNECT_OPT_NAT_TRAVERSAL_UTP : UInt8 := 0x80

def NAT_EXPECT_TTL : ℚ := 30

def _MAX_EXPECTATIONS : Nat := 64

/-- An IP and a UDP port. -/
abbrev Endpoint := String × Nat

def build_client_udp_packet (opcode : UInt8) (payload : Bytes) : Bytes :=
  [CLIENT_UDP_PROTOCOL] ++ encode 4 (payload.length + 1) ++ [opcode] ++ payload

def parse_client_udp_packet (data : Bytes) : Option (UInt8 × Bytes) :=
  if data.length < 6 ∨ data.headD 0 ≠ CLIENT_UDP_PROTOCOL then none
  else
    let length := decode (data.extract 1 5)
    if length < 1 ∨ data.length < 5 + length then none else some (data.getD 5 0, data.extract 6 (5 + length))

def u32_to_ip (value : Nat) : String :=
  s!"{value / 2 ^ 24 % 256}.{value / 2 ^ 16 % 256}.{value / 2 ^ 8 % 256}.{value % 256}"

structure EndpointHint where
  target_hash : Bytes
  serving_buddy_id : Bytes
  file_hash : Bytes
  target_ip : String
  target_port : Nat
  target_options : UInt8
  deriving DecidableEq

def parse_endpoint_hint_payload (payload : Bytes) : Except Exc EndpointHint :=
  if payload.length ≠ ENDPOINT_HINT_SIZE then
    .error (.NattError s!"endpoint hint size {payload.length} != {ENDPOINT_HINT_SIZE}")
  else if payload.headD 0 ≠ 1 then .error (.NattError s!"endpoint hint version {payload.headD 0} != 1")
  else
    .ok ⟨payload.extract 1 17, payload.extract 17 33, payload.extract 33 49, u32_to_ip (decode (payload.extract 49 53)),
      decode (payload.extract 53 55), payload.getD 55 0⟩

structure Caps where
  options : UInt8
  sender_hash : Bytes
  expected_hash : Bytes
  file_hash : Bytes

def build_caps_payload (options : UInt8) (sender_hash : Bytes) (expected_hash file_hash : Option Bytes) : Bytes :=
  encode 4 CAPS_MAGIC ++ [CAPS_VERSION, options] ++ sender_hash ++ expected_hash.getD (List.replicate 16 0) ++
    file_hash.getD (List.replicate 16 0)

def parse_caps_payload (payload : Bytes) : Except Exc Caps :=
  if payload.length < CAPS_MIN_SIZE then .error (.NattError s!"caps frame too short: {payload.length}")
  else
    let magic := decode (payload.extract 0 4)
    let version := payload.getD 4 0
    if magic ≠ CAPS_MAGIC ∨ version ≠ CAPS_VERSION then
      .error (.NattError s!"caps magic/version mismatch: {hex magic}/{version}")
    else .ok ⟨payload.getD 5 0, payload.extract 6 22, payload.extract 22 38, payload.extract 38 54⟩

inductive Future (α : Type) where
  | pending
  | cancelled
  | result (value : α)
  deriving DecidableEq

/-- `Future.cancel`. -/
def Future.cancel {α : Type} : Future α → Future α
  | .pending => .cancelled
  | future => future

structure Expectation where
  ip : String
  port : Nat
  expires : ℚ
  user_hash : Option Bytes
  file_hash : Option Bytes
  hint_future : Future EndpointHint
  caps_future : Future UInt8
  deriving DecidableEq

/-- Where an attempt stands: it waits for a hint or for capabilities on the future of an expectation, or its
handshake is over. -/
inductive Phase where
  | hint (expectation : Nat)
  | caps (expectation : Nat)
  | over
  deriving DecidableEq

/-- A `rendezvous_connect` in progress. -/
structure Attempt where
  target_user_hash : Bytes
  file_hash : Bytes
  phase : Phase
  deriving DecidableEq

/-- The session. Expectations are numbered as they are made, and `made` keeps also those that have left the
table, since an attempt may still wait on them. -/
structure NattUdpSession where
  user_hash : Bytes
  port_window : Nat
  _expectations : List Nat
  made : Dict Nat Expectation
  count : Nat
  attempts : Dict Nat Attempt
  _peer_caps : Dict Endpoint UInt8
  sent : List (Bytes × Endpoint)

namespace NattUdpSession

variable (session : NattUdpSession)

/-- What a test finds of a numbered expectation. -/
def test (p : Expectation → Bool) (id : Nat) : Bool := (session.made.get id).any p

def register_expectation (now : ℚ) (ip : String) (port : Nat) (user_hash file_hash : Option Bytes) : NattUdpSession :=
  let pruned := session._expectations.filter (session.test fun expectation => now < expectation.expires)
  let table := pruned ++ [session.count]
  { session with
    _expectations := if _MAX_EXPECTATIONS < table.length then table.tail else table
    made := session.made.set session.count ⟨ip, port, now + NAT_EXPECT_TTL, user_hash, file_hash, .pending, .pending⟩
    count := session.count + 1 }

/-- An expectation for exactly this endpoint. -/
def at_endpoint (addr : Endpoint) (expectation : Expectation) : Bool :=
  expectation.ip = addr.1 && expectation.port = addr.2

def in_window (addr : Endpoint) (expectation : Expectation) : Bool :=
  expectation.ip = addr.1 && decide (((expectation.port : ℤ) - addr.2).natAbs ≤ session.port_window)

def match_expectation (addr : Endpoint) : Option Nat :=
  session._expectations.find? (session.test (at_endpoint addr)) <|>
    if session.port_window ≠ 0 then session._expectations.find? (session.test (session.in_window addr)) else none

/-- The test of `_match_hint`. -/
def for_target (hint : EndpointHint) (expectation : Expectation) : Bool :=
  expectation.file_hash = some hint.file_hash &&
    (expectation.user_hash = none || expectation.user_hash = some hint.target_hash)

def match_hint (hint : EndpointHint) : Option Nat := session._expectations.find? (session.test (for_target hint))

/-- `set_result` on the hint future of an expectation that is not done. -/
def resolve_hint (id : Nat) (hint : EndpointHint) : NattUdpSession :=
  match session.made.get id with
  | none => session
  | some expectation =>
    if expectation.hint_future = .pending then
      { session with made := session.made.set id { expectation with hint_future := .result hint } }
    else session

def resolve_caps (id : Nat) (options : UInt8) : NattUdpSession :=
  match session.made.get id with
  | none => session
  | some expectation =>
    if expectation.caps_future = .pending then
      { session with made := session.made.set id { expectation with caps_future := .result options } }
    else session

def on_endpoint_hint (payload : Bytes) : NattUdpSession :=
  match parse_endpoint_hint_payload payload with
  | .error _ => session
  | .ok hint =>
    match session.match_hint hint with
    | none => session
    | some id => session.resolve_hint id hint

/-- The capabilities are meant for us. -/
def addressed (caps : Caps) : Bool :=
  caps.expected_hash = List.replicate 16 0 || caps.expected_hash = session.user_hash

/-- The answer to capabilities that are no answer themselves. -/
def caps_ack (caps : Caps) : Bytes :=
  build_client_udp_packet UDP_RESERVEDPROT2 ([NATT_FRAME_CAPS_ACK] ++
    build_caps_payload CONNECT_OPT_NAT_TRAVERSAL_UTP session.user_hash (some caps.sender_hash)
      (if caps.file_hash ≠ List.replicate 16 0 then some caps.file_hash else none))

def on_caps (payload : Bytes) (addr : Endpoint) (ack : Bool) : NattUdpSession :=
  match parse_caps_payload payload with
  | .error _ => session
  | .ok caps =>
    if session.addressed caps then
      let known := { session with _peer_caps := session._peer_caps.set addr caps.options }
      let resolved := match known.match_expectation addr with
        | none => known
        | some id => known.resolve_caps id caps.options
      if ack then resolved else { resolved with sent := resolved.sent ++ [(session.caps_ack caps, addr)] }
    else session

/-- `datagram_received`, of the datagrams that reach the futures. -/
def datagram_received (data : Bytes) (addr : Endpoint) : NattUdpSession :=
  match parse_client_udp_packet data with
  | none => session
  | some (opcode, payload) =>
    if opcode = OP_NATT_ENDPOINT_HINT then session.on_endpoint_hint payload
    else if opcode = UDP_RESERVEDPROT2 then
      match payload with
      | [] => session
      | frame_op :: body =>
        if frame_op = NATT_FRAME_CAPS ∨ frame_op = NATT_FRAME_CAPS_ACK then
          session.on_caps body addr (frame_op = NATT_FRAME_CAPS_ACK)
        else session
    else session

/-- The expectation of an attempt for its target, with which it waits for capabilities. -/
def expect_target (number : Nat) (attempt : Attempt) (now : ℚ) (target : Endpoint) : NattUdpSession :=
  let registered := session.register_expectation now target.1 target.2 (some attempt.target_user_hash)
    (some attempt.file_hash)
  { registered with attempts := registered.attempts.set number { attempt with phase := .caps session.count } }

/-- `rendezvous_connect` starts: for a target with an IPv6 endpoint at that endpoint, else with an expectation
of a hint from the buddy. -/
def rendezvous_connect (number : Nat) (now : ℚ) (buddy : Endpoint) (target_user_hash file_hash : Bytes)
    (target_v6 : Option Endpoint) : NattUdpSession :=
  match target_v6 with
  | some target => session.expect_target number ⟨target_user_hash, file_hash, .over⟩ now target
  | none =>
    let registered := session.register_expectation now buddy.1 buddy.2 (some target_user_hash) (some file_hash)
    { registered with
      attempts := registered.attempts.set number ⟨target_user_hash, file_hash, .hint session.count⟩ }

/-- The task of an attempt runs on once the future it waits for has a result. -/
def proceed (number : Nat) (now : ℚ) : NattUdpSession :=
  match session.attempts.get number with
  | none => session
  | some attempt =>
    match attempt.phase with
    | .hint id =>
      match (session.made.get id).map Expectation.hint_future with
      | some (.result hint) => session.expect_target number attempt now (hint.target_ip, hint.target_port)
      | _ => session
    | .caps id =>
      match (session.made.get id).map Expectation.caps_future with
      | some (.result _) => { session with attempts := session.attempts.set number { attempt with phase := .over } }
      | _ => session
    | .over => session

/-- Nobody waits for a future that is cancelled. -/
def cancel_future (phase : Phase) : NattUdpSession :=
  match phase with
  | .hint id =>
    match session.made.get id with
    | none => session
    | some expectation =>
      { session with
        made := session.made.set id { expectation with hint_future := expectation.hint_future.cancel } }
  | .caps id =>
    match session.made.get id with
    | none => session
    | some expectation =>
      { session with
        made := session.made.set id { expectation with caps_future := expectation.caps_future.cancel } }
  | .over => session

/-- An attempt is left by a timeout, a cancellation or an error. `wait_for` cancels the future it waits for,
unless that is shielded or the attempt is not at its wait. -/
def leave (number : Nat) (at_wait : Bool) : NattUdpSession :=
  match session.attempts.get number with
  | none => session
  | some attempt =>
    let left := { session with attempts := session.attempts.set number { attempt with phase := .over } }
    if at_wait then left.cancel_future attempt.phase else left

end NattUdpSession

/-- What happens to a session: an attempt starts, runs on or is left, or a datagram arrives. -/
inductive RendezvousEvent where
  | start (number : Nat) (now : ℚ) (buddy : Endpoint) (target_user_hash file_hash : Bytes)
      (target_v6 : Option Endpoint)
  | proceed (number : Nat) (now : ℚ)
  | leave (number : Nat) (at_wait : Bool)
  | datagram (data : Bytes) (addr : Endpoint) (now : ℚ)

namespace NattUdpSession

def new (user_hash : Bytes) (port_window : Nat) : NattUdpSession :=
  ⟨user_hash, port_window, [], .empty, 0, .empty, .empty, []⟩

def step (session : NattUdpSession) : RendezvousEvent → NattUdpSession
  | .start number now buddy target_user_hash file_hash target_v6 =>
    session.rendezvous_connect number now buddy target_user_hash file_hash target_v6
  | .proceed number now => session.proceed number now
  | .leave number at_wait => session.leave number at_wait
  | .datagram data addr _ => session.datagram_received data addr

/-- The datagram is a hint. -/
def IsHint (data : Bytes) (hint : EndpointHint) : Prop :=
  ∃ payload, parse_client_udp_packet data = some (OP_NATT_ENDPOINT_HINT, payload) ∧
    parse_endpoint_hint_payload payload = .ok hint

/-- The datagram has capabilities that are meant for us. -/
def IsCaps (session : NattUdpSession) (data : Bytes) (caps : Caps) : Prop :=
  ∃ frame_op body, parse_client_udp_packet data = some (UDP_RESERVEDPROT2, frame_op :: body) ∧
    (frame_op = NATT_FRAME_CAPS ∨ frame_op = NATT_FRAME_CAPS_ACK) ∧ parse_caps_payload body = .ok caps ∧
    session.addressed caps = true

/-- An attempt waits on the expectation, which is one for the target of the hint. -/
def AwaitsHint (session : NattUdpSession) (hint : EndpointHint) (id : Nat) : Prop :=
  ∃ number attempt expectation, session.attempts.get number = some attempt ∧ attempt.phase = .hint id ∧
    session.made.get id = some expectation ∧ expectation.hint_future = .pending ∧ for_target hint expectation = true

/-- An attempt waits on the expectation, which is one for the endpoint. -/
def AwaitsCaps (session : NattUdpSession) (addr : Endpoint) (id : Nat) : Prop :=
  ∃ number attempt expectation, session.attempts.get number = some attempt ∧ attempt.phase = .caps id ∧
    session.made.get id = some expectation ∧ expectation.caps_future = .pending ∧ at_endpoint addr expectation = true

/-- The lifetime of the expectation is not over. -/
def Alive (session : NattUdpSession) (now : ℚ) (id : Nat) : Prop :=
  session.test (fun expectation => now < expectation.expires) id = true

/-- A hint, or capabilities from an endpoint, for which an attempt waits resolves the future of such an attempt,
and not of one whose lifetime is over. -/
def Completes (session : NattUdpSession) : RendezvousEvent → Prop
  | .datagram data addr now =>
    (∀ hint, IsHint data hint → (∃ id, session.AwaitsHint hint id) →
      ∃ id, session.AwaitsHint hint id ∧ session.Alive now id ∧
        ((session.datagram_received data addr).made.get id).map Expectation.hint_future = some (.result hint)) ∧
    ∀ caps, session.IsCaps data caps → (∃ id, session.AwaitsCaps addr id) →
      ∃ id, session.AwaitsCaps addr id ∧ session.Alive now id ∧
        ((session.datagram_received data addr).made.get id).map Expectation.caps_future = some (.result caps.options)
  | _ => True

/-- In the table an expectation for which an attempt waits and whose lifetime is not over stands before all others
that pass the test. -/
def Foremost (session : NattUdpSession) (now : ℚ) (p : Expectation → Bool) (awaited : Nat → Prop) : Prop :=
  ∃ front id back, session._expectations = front ++ id :: back ∧ awaited id ∧ session.Alive now id ∧
    ∀ earlier ∈ front, session.test p earlier = false

/-- No expectation of an earlier attempt stands in the way of one for which a datagram arrives. -/
def Unshadowed (session : NattUdpSession) : RendezvousEvent → Prop
  | .datagram data addr now =>
    (∀ hint, IsHint data hint → (∃ id, session.AwaitsHint hint id) →
      session.Foremost now (for_target hint) (session.AwaitsHint hint)) ∧
    ∀ caps, session.IsCaps data caps → (∃ id, session.AwaitsCaps addr id) →
      session.Foremost now (at_endpoint addr) (session.AwaitsCaps addr)
  | _ => True

variable {session : NattUdpSession} {data : Bytes} {addr : Endpoint} {now : ℚ}

theorem foremost_iff {p : Expectation → Bool} {awaited : Nat → Prop}
    (hawaited : ∀ id, awaited id → session.test p id = true) :
    session.Foremost now p awaited ↔
      ∃ id, session._expectations.find? (session.test p) = some id ∧ awaited id ∧ session.Alive now id := by
  constructor
  · rintro ⟨front, id, back, htable, hwaits, halive, hfront⟩
    refine ⟨id, ?_, hwaits, halive⟩
    rw [List.find?_eq_some_iff_append]
    exact ⟨hawaited id hwaits, front, back, htable, fun earlier hmem => by rw [hfront earlier hmem]; rfl⟩
  · rintro ⟨id, hfind, hwaits, halive⟩
    obtain ⟨_, front, back, htable, hfront⟩ := List.find?_eq_some_iff_append.mp hfind
    exact ⟨front, id, back, htable, hwaits, halive, fun earlier hmem => by simpa using hfront earlier hmem⟩

theorem test_of_awaitsHint {hint : EndpointHint} {id : Nat} (h : session.AwaitsHint hint id) :
    session.test (for_target hint) id = true := by
  obtain ⟨_, _, expectation, _, _, hmade, _, htarget⟩ := h
  rw [test, hmade, Option.any_some, htarget]

theorem test_of_awaitsCaps {id : Nat} (h : session.AwaitsCaps addr id) :
    session.test (at_endpoint addr) id = true := by
  obtain ⟨_, _, expectation, _, _, hmade, _, hendpoint⟩ := h
  rw [test, hmade, Option.any_some, hendpoint]

/-- What a hint does to the hint future of an expectation that an attempt waits on. -/
theorem hint_resolved_iff {hint : EndpointHint} (hhint : IsHint data hint) {id : Nat}
    (hwaits : session.AwaitsHint hint id) :
    ((session.datagram_received data addr).made.get id).map Expectation.hint_future = some (.result hint) ↔
      session.match_hint hint = some id := by
  obtain ⟨payload, hpacket, hparse⟩ := hhint
  obtain ⟨_, _, expectation, _, _, hmade, hpending, _⟩ := hwaits
  simp only [datagram_received, hpacket, if_true, on_endpoint_hint, hparse]
  cases hmatch : session.match_hint hint with
  | none => simp [hmade, hpending]
  | some other =>
    rw [Option.some.injEq]
    by_cases hsame : other = id
    · subst hsame
      simp [resolve_hint, hmade, hpending]
    · have hkept : (session.resolve_hint other hint).made.get id = session.made.get id := by
        rw [resolve_hint]
        cases session.made.get other with
        | none => rfl
        | some found =>
          by_cases hopen : found.hint_future = .pending
          · simp only [if_pos hopen]
            exact Dict.get_set_of_ne (Ne.symm hsame) ..
          · simp only [if_neg hopen]
      simp [hkept, hmade, hpending, hsame]

/-- The table of known capabilities does not matter for the futures. -/
theorem made_resolve_caps (known : Dict Endpoint UInt8) (id : Nat) (options : UInt8) :
    ({ session with _peer_caps := known }.resolve_caps id options).made = (session.resolve_caps id options).made := by
  simp only [resolve_caps]
  cases session.made.get id with
  | none => rfl
  | some found => by_cases hopen : found.caps_future = .pending <;> simp [hopen]

theorem made_on_caps {payload : Bytes} {caps : Caps} (hparse : parse_caps_payload payload = .ok caps)
    (haddressed : session.addressed caps = true) (ack : Bool) :
    (session.on_caps payload addr ack).made = match session.match_expectation addr with
      | none => session.made
      | some id => (session.resolve_caps id caps.options).made := by
  have hmatch : { session with _peer_caps := session._peer_caps.set addr caps.options }.match_expectation addr =
      session.match_expectation addr := rfl
  simp only [on_caps, hparse, haddressed, if_true, hmatch]
  cases session.match_expectation addr with
  | none => cases ack <;> rfl
  | some id => cases ack <;> simp [made_resolve_caps]

/-- What capabilities do to the future of an expectation that an attempt waits on. -/
theorem caps_resolved_iff {caps : Caps} (hcaps : session.IsCaps data caps) {id : Nat}
    (hwaits : session.AwaitsCaps addr id) :
    ((session.datagram_received data addr).made.get id).map Expectation.caps_future = some (.result caps.options) ↔
      session.match_expectation addr = some id := by
  obtain ⟨frame_op, body, hpacket, hframe, hparse, haddressed⟩ := hcaps
  obtain ⟨_, _, expectation, _, _, hmade, hpending, _⟩ := hwaits
  have hopcode : UDP_RESERVEDPROT2 ≠ OP_NATT_ENDPOINT_HINT := by decide
  simp only [datagram_received, hpacket, if_neg hopcode, if_true, if_pos hframe, made_on_caps hparse haddressed]
  cases hmatch : session.match_expectation addr with
  | none => simp [hmade, hpending]
  | some other =>
    rw [Option.some.injEq]
    by_cases hsame : other = id
    · subst hsame
      simp [resolve_caps, hmade, hpending]
    · have hkept : (session.resolve_caps other caps.options).made.get id = session.made.get id := by
        rw [resolve_caps]
        cases session.made.get other with
        | none => rfl
        | some found =>
          by_cases hopen : found.caps_future = .pending
          · simp only [if_pos hopen]
            exact Dict.get_set_of_ne (Ne.symm hsame) ..
          · simp only [if_neg hopen]
      simp [hkept, hmade, hpending, hsame]

/-- An expectation for exactly the endpoint is the first one for it, if the table has one. -/
theorem match_expectation_eq_some_iff {id : Nat} (hendpoint : session.test (at_endpoint addr) id = true) :
    session.match_expectation addr = some id ↔
      session._expectations.find? (session.test (at_endpoint addr)) = some id := by
  rw [match_expectation]
  cases hfind : session._expectations.find? (session.test (at_endpoint addr)) with
  | some found => rfl
  | none =>
    have hwindow : ∀ p, session._expectations.find? (session.test p) ≠ some id := by
      intro p hfound
      rw [List.find?_eq_none] at hfind
      exact hfind id (List.mem_of_find?_eq_some hfound) hendpoint
    constructor
    · intro hmatch
      by_cases hport : session.port_window ≠ 0
      · rw [if_pos hport] at hmatch
        exact absurd hmatch (hwindow _)
      · rw [if_neg hport] at hmatch
        cases hmatch
    · intro hnone
      cases hnone

/-- A datagram completes what waits for it exactly if no earlier expectation stands in its way. -/
theorem completes_iff_unshadowed (event : RendezvousEvent) : session.Completes event ↔ session.Unshadowed event := by
  cases event with
  | start number now buddy target_user_hash file_hash target_v6 => exact Iff.rfl
  | proceed number now => exact Iff.rfl
  | leave number at_wait => exact Iff.rfl
  | datagram data addr now =>
    apply and_congr
    · apply forall_congr'
      intro hint
      apply forall_congr'
      intro hhint
      apply imp_congr_right
      intro _
      rw [foremost_iff fun id => test_of_awaitsHint]
      apply exists_congr
      intro id
      constructor
      · rintro ⟨hwaits, halive, hresolved⟩
        exact ⟨(hint_resolved_iff hhint hwaits).mp hresolved, hwaits, halive⟩
      · rintro ⟨hfind, hwaits, halive⟩
        exact ⟨hwaits, halive, (hint_resolved_iff hhint hwaits).mpr hfind⟩
    · apply forall_congr'
      intro caps
      apply forall_congr'
      intro hcaps
      apply imp_congr_right
      intro _
      rw [foremost_iff fun id => test_of_awaitsCaps]
      apply exists_congr
      intro id
      constructor
      · rintro ⟨hwaits, halive, hresolved⟩
        have hmatch := (caps_resolved_iff hcaps hwaits).mp hresolved
        exact ⟨(match_expectation_eq_some_iff (test_of_awaitsCaps hwaits)).mp hmatch, hwaits, halive⟩
      · rintro ⟨hfind, hwaits, halive⟩
        have hmatch := (match_expectation_eq_some_iff (test_of_awaitsCaps hwaits)).mpr hfind
        exact ⟨hwaits, halive, (caps_resolved_iff hcaps hwaits).mpr hmatch⟩

/-- Over a whole run every datagram completes what waits for it exactly if it finds nothing in its way. -/
theorem rendezvous_completes_iff (user_hash : Bytes) (port_window : Nat) (events : List RendezvousEvent) :
    runs.AllSteps step (new user_hash port_window) Completes events ↔
      runs.AllSteps step (new user_hash port_window) Unshadowed events := by
  apply forall_congr'
  intro part
  apply forall_congr'
  intro event
  apply imp_congr_right
  intro _
  exact completes_iff_unshadowed event

/-- An attempt is given up, and repeated a second later. -/
def repeated : List RendezvousEvent :=
  [.start 0 0 ("192.0.2.1", 4672) (List.replicate 16 1) (List.replicate 16 2) none, .leave 0 true,
    .start 1 6 ("192.0.2.1", 4672) (List.replicate 16 1) (List.replicate 16 2) none]

def repeatedPayload : Bytes :=
  [1] ++ List.replicate 16 1 ++ List.replicate 16 3 ++ List.replicate 16 2 ++ [7, 2, 0, 192, 0x40, 0x12, 0x80]

/-- The hint that both attempts were to wait for. -/
def repeatedHint : Bytes := build_client_udp_packet OP_NATT_ENDPOINT_HINT repeatedPayload

def repeatedTarget : EndpointHint :=
  ⟨List.replicate 16 1, List.replicate 16 3, List.replicate 16 2, "192.0.2.7", 4672, 0x80⟩

/-- The hint goes to the first attempt, whose future is cancelled, and the second one waits on. -/
theorem repeated_hint_lost :
    (repeated.foldl step (new (List.replicate 16 9) 0)).AwaitsHint repeatedTarget 1 ∧
      ¬ (repeated.foldl step (new (List.replicate 16 9) 0)).Completes
        (.datagram repeatedHint ("192.0.2.1", 4672) 7) := by
  have hawaits : (repeated.foldl step (new (List.replicate 16 9) 0)).AwaitsHint repeatedTarget 1 :=
    ⟨1, ⟨List.replicate 16 1, List.replicate 16 2, .hint 1⟩,
      ⟨"192.0.2.1", 4672, 36, some (List.replicate 16 1), some (List.replicate 16 2), .pending, .pending⟩,
      by decide +kernel, rfl, by decide +kernel, rfl, by decide +kernel⟩
  refine ⟨hawaits, ?_⟩
  rintro ⟨hhints, _⟩
  have hhint : IsHint repeatedHint repeatedTarget := ⟨repeatedPayload, by decide +kernel, rfl⟩
  obtain ⟨id, hwaits, _, hresolved⟩ := hhints repeatedTarget hhint ⟨1, hawaits⟩
  -- The first match is the expectation that was cancelled.
  have hmatch : (repeated.foldl step (new (List.replicate 16 9) 0)).match_hint repeatedTarget = some 0 := by
    decide +kernel
  have hcancelled : ((repeated.foldl step (new (List.replicate 16 9) 0)).made.get 0).map Expectation.hint_future =
      some .cancelled := by
    decide +kernel
  have hfirst := (hint_resolved_iff hhint hwaits).mp hresolved
  rw [hmatch] at hfirst
  cases hfirst
  obtain ⟨_, _, expectation, _, _, hmade, hpending, _⟩ := hwaits
  rw [hmade, Option.map_some, hpending] at hcancelled
  cases hcancelled

end NattUdpSession

end amuled.natt
