import AmuleD.Json.Boundaries
import AmuleD.Json.Dumps

open pystr json

namespace amuled.kernel_control

abbrev Bytes := List UInt8

/-- The limit of a stream reader, where the server names none. -/
def DEFAULT_LIMIT : Nat := 2 ^ 16

/-- The exceptions between a line and its handler that the loop itself meets. -/
inductive RequestError where
  | UnicodeDecodeError (line : Bytes)
  | loads (error : LoadError) (line : Bytes)
  | no_get (request : Json)
  | str (value : Json)
  | not_mapping (result : Value)

/-- How a handler ends, a coroutine once it was awaited: with a value, with an `Exception` (and its `repr`, which may
raise), or with a `BaseException` such as `CancelledError`. -/
inductive Outcome where
  | returned (result : Value)
  | raised (repr : Option PyStr)
  | aborted

/-- What the loop depends on: the recursion limits of the JSON module, the texts of exceptions and of names, `str` of a
value that is no string, which may raise, and what the handlers do at their turn. -/
structure Server where
  loads_depth : Nat
  dumps_depth : Nat
  repr_error : RequestError → PyStr
  repr_str : PyStr → PyStr
  str : Json → Option PyStr
  _handlers : PyStr → Option (Nat → Json → Outcome)

/-- Why the connection is closed. -/
inductive Closing where
  | overrun
  | repr
  | aborted
  | dumps (error : DumpError)
  | encode

/-- `line.decode("utf-8")`. -/
def decode (line : Bytes) : Option PyStr :=
  if utf8.encode (utf8.decode_replace line) = some line then some (utf8.decode_replace line) else none

/-- What `readline` makes of the bytes before the next end of a line. -/
def readline (content : Bytes) : Except Closing Bytes :=
  if DEFAULT_LIMIT < content.length then .error .overrun else .ok (content ++ [0x0A])

def error_response (reason : PyStr) : List (Key × Value) :=
  [(.str (lit "status"), .str (lit "error")), (.str (lit "reason"), .str reason)]

/-- `{"status": "ok", **result}`. -/
def ok_response (result : List (Key × Value)) : List (Key × Value) :=
  (.str (lit "status"), (result.lookup (.str (lit "status"))).getD (.str (lit "ok"))) ::
    result.filter fun entry => entry.1 ≠ .str (lit "status")

namespace Server

def request_of (server : Server) (line : Bytes) : Except RequestError Json :=
  match decode line with
  | none => .error (.UnicodeDecodeError line)
  | some text =>
    match loads server.loads_depth text with
    | .ok request => .ok request
    | .error error => .error (.loads error line)

/-- `str(request.get("command", ""))`. -/
def command_of (server : Server) : Json → Except RequestError PyStr
  | .object entries =>
    match entries.lookup (lit "command") with
    | none => .ok []
    | some (.str name) => .ok name
    | some value =>
      match server.str value with
      | some name => .ok name
      | none => .error (.str value)
  | request => .error (.no_get request)

/-- The request of a line and the name of its command. -/
def named_request (server : Server) (line : Bytes) : Except RequestError (Json × PyStr) := do
  let request ← server.request_of line
  let name ← server.command_of request
  .ok (request, name)

/-- The `try` block with its `except`, at the turn of one line. -/
def answer (server : Server) (turn : Nat) (line : Bytes) : Except Closing (List (Key × Value)) :=
  match server.named_request line with
  | .error error => .ok (error_response (server.repr_error error))
  | .ok (request, name) =>
    match server._handlers name with
    | none => .ok (error_response (lit "unknown command: " ++ server.repr_str name))
    | some handler =>
      match handler turn request with
      | .returned (.dict result) => .ok (ok_response result)
      | .returned result => .ok (error_response (server.repr_error (.not_mapping result)))
      | .raised (some text) => .ok (error_response text)
      | .raised none => .error .repr
      | .aborted => .error .aborted

/-- One turn of the loop: the bytes of the response, or why there are none. -/
def respond (server : Server) (turn : Nat) (content : Bytes) : Except Closing Bytes := do
  let line ← readline content
  let response ← server.answer turn line
  match dumps (server.dumps_depth + 1) (.dict response) with
  | .error error => .error (.dumps error)
  | .ok text =>
    match utf8.encode (text ++ [0x0A]) with
    | some raw => .ok raw
    | none => .error .encode

/-- The responses to the lines of one connection, and why it was closed if it was. -/
def _on_client (server : Server) (turn : Nat) : List Bytes → List Bytes × Option Closing
  | [] => ([], none)
  | content :: rest =>
    match server.respond turn content with
    | .error closing => ([], some closing)
    | .ok raw => (raw :: (server._on_client (turn + 1) rest).1, (server._on_client (turn + 1) rest).2)

/-- The handler that the line names is called and returns. -/
def Returned (server : Server) (turn : Nat) (line : Bytes) : Prop :=
  ∃ request name handler result, server.named_request line = .ok (request, name) ∧
    server._handlers name = some handler ∧ handler turn request = .returned result

/-- One line of JSON, with status ok only if the handler returned and with status error if it did not. -/
def Answers (server : Server) (turn : Nat) (line raw : Bytes) : Prop :=
  ∃ response text, dumps (server.dumps_depth + 1) (.dict response) = .ok text ∧
    utf8.encode (text ++ [0x0A]) = some raw ∧ 0x0A ∉ text ∧
    (response.lookup (.str (lit "status")) = some (.str (lit "ok")) → server.Returned turn line) ∧
    (¬server.Returned turn line → response.lookup (.str (lit "status")) = some (.str (lit "error")))

/-- Every line is answered in its turn, and the connection is open behind the last one. -/
structure Serves (server : Server) (turn : Nat) (lines : List Bytes) : Prop where
  stays : (server._on_client turn lines).2 = none
  count : (server._on_client turn lines).1.length = lines.length
  each : ∀ index content raw, lines[index]? = some content → (server._on_client turn lines).1[index]? = some raw →
    server.Answers (turn + index) (content ++ [0x0A]) raw

/-- The line is within the limit, and a handler that it calls returns what JSON has or anything but a dictionary, or
raises an exception that has a `repr`. -/
def Answerable (server : Server) (turn : Nat) (content : Bytes) : Prop :=
  content.length ≤ DEFAULT_LIMIT ∧
    ∀ request name handler, server.named_request (content ++ [0x0A]) = .ok (request, name) →
      server._handlers name = some handler →
        handler turn request ≠ .aborted ∧ handler turn request ≠ .raised none ∧
          ∀ result, handler turn request = .returned (.dict result) →
            (Value.dict (ok_response result)).Plain (server.dumps_depth + 1)

section Turns

variable {server : Server} {turn : Nat} {content line : Bytes}

theorem encode_ascii {text : PyStr} (htext : ∀ point ∈ text, point < 0x80) : ∃ raw, utf8.encode text = some raw := by
  have hpoints : text.mapM utf8.encode_point = some (text.map fun point => [UInt8.ofNat point]) := by
    induction text with
    | nil => rfl
    | cons point rest ih =>
      rw [List.forall_mem_cons] at htext
      exact mapM_eq_some_cons.mpr ⟨point, rest, rfl, if_pos htext.1, ih htext.2⟩
  exact ⟨_, by rw [utf8.encode, hpoints, Option.map_some]⟩

theorem error_response_plain (reason : PyStr) (depth : Nat) :
    (Value.dict (error_response reason)).Plain (depth + 1) := by
  rw [Value.Plain, error_response]
  simp [Key.Plain, Value.Plain]

theorem respond_eq (hlength : content.length ≤ DEFAULT_LIMIT) {response : List (Key × Value)}
    (hanswer : server.answer turn (content ++ [0x0A]) = .ok response) :
    server.respond turn content =
      match dumps (server.dumps_depth + 1) (.dict response) with
      | .error error => .error (.dumps error)
      | .ok text =>
        match utf8.encode (text ++ [0x0A]) with
        | some raw => .ok raw
        | none => .error .encode := by
  rw [respond, readline, if_neg (Nat.not_lt.mpr hlength)]
  simp only [bind, Except.bind, hanswer]

/-- A response that `json.dumps` can write is one line. -/
theorem respond_of_plain {response : List (Key × Value)} (hlength : content.length ≤ DEFAULT_LIMIT)
    (hanswer : server.answer turn (content ++ [0x0A]) = .ok response)
    (hplain : (Value.dict response).Plain (server.dumps_depth + 1)) :
    ∃ text raw, server.respond turn content = .ok raw ∧
      dumps (server.dumps_depth + 1) (.dict response) = .ok text ∧ utf8.encode (text ++ [0x0A]) = some raw ∧
      0x0A ∉ text := by
  obtain ⟨text, htext⟩ := dumps_ok_iff.mpr hplain
  have hprintable := printable_dumps htext
  have hascii : ∀ point ∈ text ++ [0x0A], point < 0x80 := by
    rw [List.forall_mem_append, List.forall_mem_singleton]
    refine ⟨fun point hpoint => ?_, by decide⟩
    have hrange := hprintable point hpoint
    unfold Printable at hrange
    omega
  obtain ⟨raw, hraw⟩ := encode_ascii hascii
  refine ⟨text, raw, ?_, htext, hraw, fun hmem => ?_⟩
  · rw [respond_eq hlength hanswer]
    simp only [htext, hraw]
  · have hrange := hprintable _ hmem
    unfold Printable at hrange
    omega

theorem respond_of_not_plain {response : List (Key × Value)} (hlength : content.length ≤ DEFAULT_LIMIT)
    (hanswer : server.answer turn (content ++ [0x0A]) = .ok response)
    (hplain : ¬(Value.dict response).Plain (server.dumps_depth + 1)) :
    ∃ closing, server.respond turn content = .error closing := by
  rw [respond_eq hlength hanswer]
  cases htext : dumps (server.dumps_depth + 1) (.dict response) with
  | error error => exact ⟨_, rfl⟩
  | ok text => exact absurd (dumps_ok_iff.mp ⟨text, htext⟩) hplain

theorem lookup_error_response (reason : PyStr) :
    (error_response reason).lookup (.str (lit "status")) = some (.str (lit "error")) := by rfl

/-- An error response is always sent, and it is what a line wants whose handler does not return. -/
theorem respond_error (reason : PyStr) (hlength : content.length ≤ DEFAULT_LIMIT)
    (hanswer : server.answer turn (content ++ [0x0A]) = .ok (error_response reason)) :
    ∃ raw, server.respond turn content = .ok raw ∧ server.Answers turn (content ++ [0x0A]) raw := by
  obtain ⟨text, raw, hrespond, htext, hraw, hline⟩ :=
    respond_of_plain hlength hanswer (error_response_plain reason server.dumps_depth)
  refine ⟨raw, hrespond, error_response reason, text, htext, hraw, hline, fun hok => ?_, fun _ => rfl⟩
  rw [lookup_error_response, Option.some.injEq] at hok
  injection hok with hsame
  exact absurd hsame (by decide)

theorem answerable_iff_of_handler {request : Json} {name : PyStr} {handler : Nat → Json → Outcome}
    (hlength : content.length ≤ DEFAULT_LIMIT)
    (hnamed : server.named_request (content ++ [0x0A]) = .ok (request, name))
    (hhandler : server._handlers name = some handler) :
    server.Answerable turn content ↔ handler turn request ≠ .aborted ∧ handler turn request ≠ .raised none ∧
      ∀ result, handler turn request = .returned (.dict result) →
        (Value.dict (ok_response result)).Plain (server.dumps_depth + 1) := by
  constructor
  · exact fun h => h.2 request name handler hnamed hhandler
  · refine fun h => ⟨hlength, fun request' name' handler' hnamed' hhandler' => ?_⟩
    rw [hnamed] at hnamed'
    cases hnamed'
    rw [hhandler] at hhandler'
    cases hhandler'
    exact h

/-- One turn, for a line whose command has a handler. -/
theorem respond_handled {request : Json} {name : PyStr} {handler : Nat → Json → Outcome}
    (hlength : content.length ≤ DEFAULT_LIMIT)
    (hnamed : server.named_request (content ++ [0x0A]) = .ok (request, name))
    (hhandler : server._handlers name = some handler) :
    (server.Answerable turn content ∧ ∃ raw, server.respond turn content = .ok raw ∧
      server.Answers turn (content ++ [0x0A]) raw) ∨
    (¬server.Answerable turn content ∧ ∃ closing, server.respond turn content = .error closing) := by
  rw [answerable_iff_of_handler hlength hnamed hhandler]
  have hanswer : server.answer turn (content ++ [0x0A]) = match handler turn request with
      | .returned (.dict result) => .ok (ok_response result)
      | .returned result => .ok (error_response (server.repr_error (.not_mapping result)))
      | .raised (some text) => .ok (error_response text)
      | .raised none => .error .repr
      | .aborted => .error .aborted := by
    rw [answer, hnamed]
    simp only [hhandler]
  have hcloses : ∀ {closing}, server.answer turn (content ++ [0x0A]) = .error closing →
      server.respond turn content = .error closing := by
    intro closing hclosed
    rw [respond, readline, if_neg (Nat.not_lt.mpr hlength)]
    simp only [bind, Except.bind, hclosed]
  cases hend : handler turn request with
  | aborted =>
    rw [hend] at hanswer
    exact Or.inr ⟨by simp, _, hcloses hanswer⟩
  | raised repr =>
    cases repr with
    | none =>
      rw [hend] at hanswer
      exact Or.inr ⟨by simp, _, hcloses hanswer⟩
    | some text =>
      rw [hend] at hanswer
      exact Or.inl ⟨by simp, respond_error text hlength hanswer⟩
  | returned result =>
    rw [hend] at hanswer
    cases result with
    | dict result =>
      have hreturned : server.Returned turn (content ++ [0x0A]) := ⟨request, name, handler, _, hnamed, hhandler, hend⟩
      by_cases hplain : (Value.dict (ok_response result)).Plain (server.dumps_depth + 1)
      · obtain ⟨text, raw, hrespond, htext, hraw, hline⟩ := respond_of_plain hlength hanswer hplain
        exact Or.inl ⟨by simpa using hplain, raw, hrespond, _, text, htext, hraw, hline, fun _ => hreturned,
          fun hnot => absurd hreturned hnot⟩
      · exact Or.inr ⟨by simpa using hplain, respond_of_not_plain hlength hanswer hplain⟩
    | _ => exact Or.inl ⟨by simp, respond_error _ hlength hanswer⟩

/-- One turn either answers its line or closes the connection. -/
theorem respond_spec (server : Server) (turn : Nat) (content : Bytes) :
    (server.Answerable turn content ∧ ∃ raw, server.respond turn content = .ok raw ∧
      server.Answers turn (content ++ [0x0A]) raw) ∨
    (¬server.Answerable turn content ∧ ∃ closing, server.respond turn content = .error closing) := by
  by_cases hlength : content.length ≤ DEFAULT_LIMIT
  swap
  · right
    refine ⟨fun h => hlength h.1, .overrun, ?_⟩
    rw [respond, readline, if_pos (Nat.not_le.mp hlength)]
    rfl
  cases hnamed : server.named_request (content ++ [0x0A]) with
  | error error =>
    left
    refine ⟨⟨hlength, fun request name handler hok => ?_⟩, respond_error (server.repr_error error) hlength ?_⟩
    · rw [hnamed] at hok
      cases hok
    · rw [answer, hnamed]
  | ok named =>
    obtain ⟨request, name⟩ := named
    cases hhandler : server._handlers name with
    | none =>
      left
      refine ⟨⟨hlength, fun request' name' handler hok hsome => ?_⟩,
        respond_error (lit "unknown command: " ++ server.repr_str name) hlength ?_⟩
      · rw [hnamed] at hok
        cases hok
        rw [hhandler] at hsome
        cases hsome
      · rw [answer, hnamed]
        simp only [hhandler]
    | some handler => exact respond_handled hlength hnamed hhandler

end Turns

/-- A connection is served as long as every line can be answered. -/
theorem serves_from_iff (server : Server) (turn : Nat) (lines : List Bytes) :
    server.Serves turn lines ↔
      ∀ index content, lines[index]? = some content → server.Answerable (turn + index) content := by
  induction lines generalizing turn with
  | nil => exact iff_of_true ⟨rfl, rfl, by simp⟩ (by simp)
  | cons content rest ih =>
    have hsplit : (∀ index other, (content :: rest)[index]? = some other → server.Answerable (turn + index) other) ↔
        server.Answerable turn content ∧
          ∀ index other, rest[index]? = some other → server.Answerable (turn + 1 + index) other := by
      constructor
      · refine fun h => ⟨h 0 content rfl, fun index other hother => ?_⟩
        rw [Nat.add_assoc, Nat.add_comm 1]
        exact h (index + 1) other hother
      · rintro ⟨hfirst, hrest⟩ index other hother
        cases index with
        | zero =>
          cases hother
          exact hfirst
        | succ index =>
          rw [Nat.add_comm index, ← Nat.add_assoc]
          exact hrest index other hother
    rw [hsplit, ← ih]
    rcases server.respond_spec turn content with ⟨hanswerable, raw, hrespond, hanswers⟩ |
      ⟨hunanswerable, closing, hclosed⟩
    · rw [and_iff_right hanswerable]
      have hrun : server._on_client turn (content :: rest) =
          (raw :: (server._on_client (turn + 1) rest).1, (server._on_client (turn + 1) rest).2) := by
        rw [_on_client, hrespond]
      constructor
      · rintro ⟨hstays, hcount, heach⟩
        rw [hrun] at hstays hcount heach
        refine ⟨hstays, Nat.succ_inj.mp hcount, fun index other found hother hfound => ?_⟩
        rw [Nat.add_assoc, Nat.add_comm 1]
        exact heach (index + 1) other found hother hfound
      · rintro ⟨hstays, hcount, heach⟩
        refine ⟨by rw [hrun]; exact hstays, by rw [hrun]; exact congrArg Nat.succ hcount, ?_⟩
        rw [hrun]
        intro index other found hother hfound
        cases index with
        | zero =>
          cases hother
          cases hfound
          exact hanswers
        | succ index =>
          rw [Nat.add_comm index, ← Nat.add_assoc]
          exact heach index other found hother hfound
    · refine iff_of_false (fun h => ?_) fun h => hunanswerable h.1
      have hstays := h.stays
      rw [_on_client, hclosed] at hstays
      cases hstays

/-- A connection is answered line by line and stays open exactly where every line can be answered. -/
theorem keeps_serving_iff (server : Server) (lines : List Bytes) :
    server.Serves 0 lines ↔ ∀ index content, lines[index]? = some content → server.Answerable index content := by
  rw [serves_from_iff]
  simp only [Nat.zero_add]

/-- A server whose handler for the empty command returns a dictionary with an object of its own in it. -/
def sampleServer : Server where
  loads_depth := 900
  dumps_depth := 900
  repr_error := fun _ => []
  repr_str := fun name => name
  str := fun _ => none
  _handlers := fun name => if name = [] then some fun _ _ => .returned (.dict [(.str (lit "peer"), .other)]) else none

/-- The line of an empty object. -/
def sampleRequest : Bytes := [0x7B, 0x7D]

/-- A line beyond the limit and a result that is no JSON each end the connection without a response. -/
theorem sampleServer_closes :
    (sampleServer._on_client 0 [List.replicate (DEFAULT_LIMIT + 1) 0x20, sampleRequest] = ([], some .overrun) ∧
      ¬sampleServer.Serves 0 [List.replicate (DEFAULT_LIMIT + 1) 0x20, sampleRequest]) ∧
    sampleServer._on_client 0 [sampleRequest, sampleRequest] = ([], some (.dumps .TypeError)) ∧
      ¬sampleServer.Serves 0 [sampleRequest, sampleRequest] := by
  have hlong : sampleServer._on_client 0 [List.replicate (DEFAULT_LIMIT + 1) 0x20, sampleRequest] =
      ([], some .overrun) := by
    have hlength : DEFAULT_LIMIT < (List.replicate (DEFAULT_LIMIT + 1) (0x20 : UInt8)).length := by
      rw [List.length_replicate]
      exact Nat.lt_succ_self _
    rw [_on_client, respond, readline, if_pos hlength]
    rfl
  have hnamed : sampleServer.named_request (sampleRequest ++ [0x0A]) = .ok (.object [], []) := by
    have hdecode : decode (sampleRequest ++ [0x0A]) = some [0x7B, 0x7D, 0x0A] := by decide
    have hlex : lex [0x7B, 0x7D, 0x0A] = [.mark 0x7B, .mark 0x7D] := by
      rw [lex_mark (by decide), lex_mark (by decide), lex_space (by decide), lex_nil]
    have hloads : loads sampleServer.loads_depth [0x7B, 0x7D, 0x0A] = .ok (.object []) := by
      rw [loads, if_neg (by decide), hlex]
      rfl
    rw [named_request, request_of, hdecode]
    simp only [hloads]
    rfl
  have hobject : sampleServer._on_client 0 [sampleRequest, sampleRequest] = ([], some (.dumps .TypeError)) := by
    have hanswer : sampleServer.answer 0 (sampleRequest ++ [0x0A]) = .ok (ok_response [(.str (lit "peer"), .other)]) := by
      rw [answer, hnamed]
      rfl
    rw [_on_client, respond_eq (by decide) hanswer]
    rfl
  refine ⟨⟨hlong, fun hserves => ?_⟩, hobject, fun hserves => ?_⟩
  · have hstays := hserves.stays
    rw [hlong] at hstays
    cases hstays
  · have hstays := hserves.stays
    rw [hobject] at hstays
    cases hstays

end Server

end amuled.kernel_control
