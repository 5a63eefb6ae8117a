import AmuleD.Codec.Packet
import AmuleD.Download.Queue
import AmuleD.Runs

namespace amuled.download.dials

def HIGH_ID_THRESHOLD : Nat := 16000000

def client_id_to_ip (client_id : Nat) : String :=
  let value := client_id % 2 ^ 32
  s!"{value / 2 ^ 24 % 256}.{value / 2 ^ 16 % 256}.{value / 2 ^ 8 % 256}.{value % 256}"

/-- A row of the table of sources, without what only callbacks read. -/
structure SourceRow where
  client_id : Nat
  client_port : Nat
  user_hash : Option String
  source_type : Option String
  ipv6 : Option String

structure Endpoint where
  host : String
  port : Nat
  user_hash : Option Bytes
  source_type : String

/-- A runner, with the addresses of its host and the peers that have no needed part of the file. -/
structure DownloadRunner where
  plain_dial_ok : Bool
  crypt_layer_required : Bool
  self_record_filter : Bool
  own_userhash : Option Bytes
  own_ips : List String
  nns : String → Nat → Bool

/-- The user hash of a row. An empty text is none, and so is one that is no hexadecimal. -/
def SourceRow.key (row : SourceRow) : Option Bytes :=
  match row.user_hash with
  | none => none
  | some raw_hash => if raw_hash = "" then none else fromhex raw_hash.toList

namespace DownloadRunner

variable (runner : DownloadRunner)

/-- What `resolve_sources` makes of a row, unless it skips it. -/
def dialable (row : SourceRow) : Option Endpoint :=
  if row.client_id < HIGH_ID_THRESHOLD then none
  else if row.key = none ∧ runner.plain_dial_ok = false then none
  else if runner.self_record_filter ∧ row.ipv6.getD "" ≠ "" ∧ row.ipv6.getD "" ∈ runner.own_ips then none
  else if row.key ≠ none ∧ row.key = runner.own_userhash then none
  else some ⟨client_id_to_ip row.client_id, row.client_port, row.key, row.source_type.getD ""⟩

/-- The loop of `resolve_sources`. Of several rows with one address only the first counts. -/
def resolve (seen : List (String × Nat)) : List SourceRow → List Endpoint
  | [] => []
  | row :: rest =>
    match runner.dialable row with
    | none => resolve seen rest
    | some endpoint =>
      if seen.contains (endpoint.host, endpoint.port) then resolve seen rest
      else if runner.nns endpoint.host endpoint.port then resolve seen rest
      else endpoint :: resolve ((endpoint.host, endpoint.port) :: seen) rest

def resolve_sources (rows : List SourceRow) : List Endpoint := runner.resolve [] rows

end DownloadRunner

/-- How the BASIC handshake ends: with a session, with an `ObfuscationError`, or with another exception. -/
inductive Negotiation where
  | established
  | refused (message : String)
  | raised (e : Exc)

/-- What a dial meets. -/
structure Dial where
  opens : Except String Unit
  negotiation : Negotiation

/-- The transport of a `PeerClient`. -/
structure PeerClient where
  target_userhash : Option Bytes
  connected : Bool
  _obf : Bool

/-- A packet on the wire, and whether it went through a `BasicObfuscationSession`. -/
structure Sent where
  packet : Packet
  obfuscated : Bool

namespace PeerClient

/-- The constructor takes an empty hash for none. -/
def new (target_userhash : Option Bytes) : PeerClient :=
  ⟨target_userhash.filter fun user_hash => user_hash ≠ [], false, false⟩

def connect (client : PeerClient) (endpoint : Endpoint) (dial : Dial) : Except Exc PeerClient :=
  match dial.opens with
  | .error e => .error (.PeerSessionError s!"cannot connect to peer {endpoint.host}:{endpoint.port}: {e}")
  | .ok _ =>
    match client.target_userhash with
    | none => .ok { client with connected := true }
    | some _ =>
      match dial.negotiation with
      | .established => .ok { client with connected := true, _obf := true }
      | .refused e =>
        .error (.PeerSessionError s!"obfuscation handshake failed with {endpoint.host}:{endpoint.port}: {e}")
      | .raised e => .error e

/-- What a ladder does with its session. -/
inductive Operation where
  | send (packet : Packet)
  | close

/-- `_send` on a closed session writes nothing. -/
def operate (session : PeerClient × List Sent) : Operation → PeerClient × List Sent
  | .send packet => if session.1.connected then (session.1, session.2 ++ [⟨packet, session.1._obf⟩]) else session
  | .close => ({ session.1 with connected := false, _obf := false }, session.2)

end PeerClient

/-- Python's `text in message`. -/
def contains (message text : String) : Bool := decide (text.toList <:+: message.toList)

/-- What an attempt meets: its first dial and the one of the fallback, and what it does after its HELLO. -/
structure Circumstances where
  first : Dial
  fallback : Dial
  hello : Bytes
  operations : List PeerClient.Operation

namespace DownloadRunner

variable (runner : DownloadRunner)

/-- The dial of `_attempt_peer`, with the plain fallback for a peer that ignores the handshake. -/
def dial (endpoint : Endpoint) (circumstances : Circumstances) : Except Exc PeerClient :=
  match (PeerClient.new endpoint.user_hash).connect endpoint circumstances.first with
  | .ok client => .ok client
  | .error (.PeerSessionError message) =>
    if endpoint.user_hash = none ∨ contains message "BASIC handshake" = false ∨ runner.plain_dial_ok = false ∨
        runner.crypt_layer_required = true then
      .error (.PeerSessionError message)
    else (PeerClient.new none).connect endpoint circumstances.fallback
  | .error e => .error e

/-- The callbacks do not dial: their connections come in, or are streams over UDP. -/
def dials_out (endpoint : Endpoint) : Bool :=
  endpoint.source_type ≠ "kad6" && endpoint.source_type ≠ "kad3" && endpoint.source_type ≠ "kad5"

/-- What `_attempt_peer` sends over a dialled connection, the first of which is a HELLO, or `none` where it does not
use the endpoint. -/
def attempt_peer (endpoint : Endpoint) (circumstances : Circumstances) : Option (List Sent) :=
  if dials_out endpoint then
    match runner.dial endpoint circumstances with
    | .error _ => none
    | .ok client =>
      let operations := .send ⟨EDONKEY, 0x01, circumstances.hello⟩ :: circumstances.operations
      some (operations.foldl PeerClient.operate (client, [])).2
  else none

/-- Whatever the circumstances, nothing is sent in plain, and an endpoint without a key is not used. -/
def OnlyObfuscated (rows : List SourceRow) : Prop :=
  ∀ endpoint ∈ runner.resolve_sources rows, ∀ circumstances sent,
    runner.attempt_peer endpoint circumstances = some sent →
      (∀ packet ∈ sent, packet.obfuscated = true) ∧ endpoint.user_hash.getD [] ≠ []

/-- A row is the first one with its address that a lookup resolves. -/
def FirstOfAddress (rows : List SourceRow) (row : SourceRow) (endpoint : Endpoint) : Prop :=
  ∃ front rest, rows = front ++ row :: rest ∧ runner.dialable row = some endpoint ∧
    runner.nns endpoint.host endpoint.port = false ∧
    ∀ earlier ∈ front, ∀ other, runner.dialable earlier = some other →
      (other.host, other.port) ≠ (endpoint.host, endpoint.port)

variable {runner}

theorem firstOfAddress_cons {row other : SourceRow} {rest : List SourceRow} {endpoint : Endpoint} :
    runner.FirstOfAddress (row :: rest) other endpoint ↔
      (other = row ∧ runner.dialable row = some endpoint ∧ runner.nns endpoint.host endpoint.port = false) ∨
      (runner.FirstOfAddress rest other endpoint ∧ ∀ earlier, runner.dialable row = some earlier →
        (earlier.host, earlier.port) ≠ (endpoint.host, endpoint.port)) := by
  constructor
  · rintro ⟨front, back, hrows, hdialable, hnns, hfirst⟩
    cases front with
    | nil =>
      cases hrows
      exact Or.inl ⟨rfl, hdialable, hnns⟩
    | cons first front =>
      cases hrows
      obtain ⟨hrow, hlater⟩ := List.forall_mem_cons.mp hfirst
      exact Or.inr ⟨⟨front, back, rfl, hdialable, hnns, hlater⟩, hrow⟩
  · rintro (⟨rfl, hdialable, hnns⟩ | ⟨⟨front, back, rfl, hdialable, hnns, hlater⟩, hrow⟩)
    · exact ⟨[], rest, rfl, hdialable, hnns, fun earlier hmem => by cases hmem⟩
    · exact ⟨row :: front, back, rfl, hdialable, hnns, List.forall_mem_cons.mpr ⟨hrow, hlater⟩⟩

theorem mem_resolve_iff {seen : List (String × Nat)} {rows : List SourceRow} {endpoint : Endpoint} :
    endpoint ∈ runner.resolve seen rows ↔
      (endpoint.host, endpoint.port) ∉ seen ∧ ∃ row, runner.FirstOfAddress rows row endpoint := by
  induction rows generalizing seen with
  | nil =>
    refine iff_of_false List.not_mem_nil ?_
    rintro ⟨_, row, front, back, hrows, _⟩
    simp at hrows
  | cons row rest ih =>
    rw [resolve]
    simp only [firstOfAddress_cons]
    cases hdialable : runner.dialable row with
    | none =>
      rw [ih]
      simp
    | some resolved =>
      simp only [Option.some.injEq, forall_eq']
      -- A row that is passed over cannot be the first one of an address that is resolved later.
      have hpassed : ((endpoint.host, endpoint.port) ∉ seen → runner.nns endpoint.host endpoint.port = false →
          (resolved.host, resolved.port) ≠ (endpoint.host, endpoint.port)) →
          (endpoint ∈ runner.resolve seen rest ↔ (endpoint.host, endpoint.port) ∉ seen ∧ ∃ other,
            (other = row ∧ resolved = endpoint ∧ runner.nns endpoint.host endpoint.port = false) ∨
            (runner.FirstOfAddress rest other endpoint ∧
              (resolved.host, resolved.port) ≠ (endpoint.host, endpoint.port))) := by
        intro hother
        rw [ih]
        apply and_congr_right
        intro hnew
        constructor
        · rintro ⟨other, hfirst⟩
          have hneeded : runner.nns endpoint.host endpoint.port = false := by
            obtain ⟨_, _, _, _, hneeded, _⟩ := hfirst
            exact hneeded
          exact ⟨other, Or.inr ⟨hfirst, hother hnew hneeded⟩⟩
        · rintro ⟨other, ⟨_, hsame, hneeded⟩ | ⟨hfirst, _⟩⟩
          · exact absurd (congrArg (fun e => (e.host, e.port)) hsame) (hother hnew hneeded)
          · exact ⟨other, hfirst⟩
      by_cases hseen : (resolved.host, resolved.port) ∈ seen
      · rw [if_pos (List.contains_iff_mem.mpr hseen)]
        apply hpassed
        intro hnew _ hsame
        rw [hsame] at hseen
        exact hnew hseen
      · rw [if_neg (mt List.contains_iff_mem.mp hseen)]
        by_cases hnns : runner.nns resolved.host resolved.port = true
        · rw [if_pos hnns]
          apply hpassed
          intro _ hneeded hsame
          obtain ⟨hhost, hport⟩ := Prod.mk.inj hsame
          rw [hhost, hport, hneeded] at hnns
          cases hnns
        · rw [if_neg hnns, List.mem_cons, ih, List.mem_cons, not_or]
          constructor
          · rintro (rfl | ⟨⟨hne, hnew⟩, other, hfirst⟩)
            · exact ⟨hseen, row, Or.inl ⟨rfl, rfl, Bool.eq_false_of_not_eq_true hnns⟩⟩
            · exact ⟨hnew, other, Or.inr ⟨hfirst, Ne.symm hne⟩⟩
          · rintro ⟨hnew, other, ⟨_, hsame, _⟩ | ⟨hfirst, hne⟩⟩
            · exact Or.inl hsame.symm
            · exact Or.inr ⟨⟨Ne.symm hne, hnew⟩, other, hfirst⟩

theorem user_hash_of_first {rows : List SourceRow} {row : SourceRow} {endpoint : Endpoint}
    (hfirst : runner.FirstOfAddress rows row endpoint) : endpoint.user_hash = row.key := by
  obtain ⟨_, _, _, hdialable, _⟩ := hfirst
  rw [dialable] at hdialable
  split_ifs at hdialable
  cases hdialable
  rfl

/-- All that a session has sent is obfuscated, and so is what it will send. -/
def Obfuscated (session : PeerClient × List Sent) : Prop :=
  (session.1.connected = true → session.1._obf = true) ∧ ∀ packet ∈ session.2, packet.obfuscated = true

theorem obfuscated_operate {session : PeerClient × List Sent} (operation : PeerClient.Operation)
    (hsession : Obfuscated session) : Obfuscated (PeerClient.operate session operation) := by
  obtain ⟨hobf, hsent⟩ := hsession
  cases operation with
  | close =>
    refine ⟨fun hconnected => ?_, hsent⟩
    cases hconnected
  | send packet =>
    rw [PeerClient.operate]
    by_cases hconnected : session.1.connected = true
    · rw [if_pos hconnected]
      refine ⟨hobf, ?_⟩
      rw [List.forall_mem_append, List.forall_mem_singleton]
      exact ⟨hsent, hobf hconnected⟩
    · rw [if_neg hconnected]
      exact ⟨hobf, hsent⟩

/-- A client with a key connects with a session or not at all. -/
theorem connect_keyed {user_hash : Bytes} (hkey : user_hash ≠ []) {endpoint : Endpoint} {dial : Dial}
    {client : PeerClient} (hconnect : (PeerClient.new (some user_hash)).connect endpoint dial = .ok client) :
    client._obf = true := by
  have htarget : (PeerClient.new (some user_hash)).target_userhash = some user_hash := by
    simp [PeerClient.new, hkey]
  rw [PeerClient.connect, htarget] at hconnect
  cases hopens : dial.opens with
  | error e =>
    rw [hopens] at hconnect
    cases hconnect
  | ok opened =>
    simp only [hopens] at hconnect
    cases hnegotiation : dial.negotiation with
    | established =>
      rw [hnegotiation] at hconnect
      cases hconnect
      rfl
    | refused e =>
      rw [hnegotiation] at hconnect
      cases hconnect
    | raised e =>
      rw [hnegotiation] at hconnect
      cases hconnect

/-- A client without a key connects in plain. -/
theorem connect_unkeyed {user_hash : Option Bytes} (hkey : user_hash.getD [] = []) (endpoint : Endpoint) {dial : Dial}
    (hopens : dial.opens = .ok ()) :
    (PeerClient.new user_hash).connect endpoint dial = .ok ⟨none, true, false⟩ := by
  have hnew : PeerClient.new user_hash = ⟨none, false, false⟩ := by
    cases user_hash with
    | none => rfl
    | some raw =>
      rw [Option.getD_some] at hkey
      simp [PeerClient.new, hkey]
  rw [hnew, PeerClient.connect, hopens]

/-- Where obfuscation is required, a dial with a key has no fallback. -/
theorem dial_keyed (hrequired : runner.crypt_layer_required = true) {endpoint : Endpoint} {user_hash : Bytes}
    (hkey : endpoint.user_hash = some user_hash) (hsome : user_hash ≠ []) {circumstances : Circumstances}
    {client : PeerClient} (hdial : runner.dial endpoint circumstances = .ok client) : client._obf = true := by
  rw [dial, hkey] at hdial
  cases hconnect : (PeerClient.new (some user_hash)).connect endpoint circumstances.first with
  | ok connected =>
    rw [hconnect] at hdial
    cases hdial
    exact connect_keyed hsome hconnect
  | error e =>
    rw [hconnect] at hdial
    simp only [hrequired, or_true, if_true] at hdial
    split at hdial
    · rename_i hsame
      cases hsame
    · cases hdial
    · cases hdial

/-- A plain dial is open to anyone who is at the address. -/
def plainDial : Circumstances := ⟨⟨.ok (), .established⟩, ⟨.ok (), .established⟩, [], []⟩

theorem attempt_unkeyed {endpoint : Endpoint} (hkey : endpoint.user_hash.getD [] = [])
    (hdials : dials_out endpoint = true) :
    runner.attempt_peer endpoint plainDial = some [⟨⟨EDONKEY, 0x01, []⟩, false⟩] := by
  have hdial : runner.dial endpoint plainDial = .ok ⟨none, true, false⟩ := by
    rw [dial, connect_unkeyed hkey endpoint rfl]
  rw [attempt_peer, if_pos hdials, hdial]
  rfl

theorem attempt_keyed (hrequired : runner.crypt_layer_required = true) {endpoint : Endpoint} {user_hash : Bytes}
    (hkey : endpoint.user_hash = some user_hash) (hsome : user_hash ≠ []) {circumstances : Circumstances}
    {sent : List Sent} (hattempt : runner.attempt_peer endpoint circumstances = some sent) :
    ∀ packet ∈ sent, packet.obfuscated = true := by
  rw [attempt_peer] at hattempt
  split at hattempt
  · cases hdial : runner.dial endpoint circumstances with
    | error e =>
      rw [hdial] at hattempt
      cases hattempt
    | ok client =>
      rw [hdial] at hattempt
      cases hattempt
      have hstart : Obfuscated (client, []) :=
        ⟨fun _ => dial_keyed hrequired hkey hsome hdial, fun packet hmem => absurd hmem List.not_mem_nil⟩
      have hend : Obfuscated ((.send ⟨EDONKEY, 0x01, circumstances.hello⟩ :: circumstances.operations).foldl
          PeerClient.operate (client, [])) :=
        runs.invariant hstart (fun session operation hkept => obfuscated_operate operation hkept) _
      exact hend.2
  · cases hattempt

/-- Where obfuscation is required, nothing is sent in plain exactly if each row that is dialled out, the first one of
its address, has a key that is not empty. -/
theorem only_obfuscated_iff (hrequired : runner.crypt_layer_required = true) (rows : List SourceRow) :
    runner.OnlyObfuscated rows ↔ ∀ row endpoint, runner.FirstOfAddress rows row endpoint →
      dials_out endpoint = true → row.key.getD [] ≠ [] := by
  constructor
  · intro honly row endpoint hfirst hdials hkey
    rw [← user_hash_of_first hfirst] at hkey
    have hmem : endpoint ∈ runner.resolve_sources rows := mem_resolve_iff.mpr ⟨List.not_mem_nil, row, hfirst⟩
    exact (honly endpoint hmem plainDial _ (attempt_unkeyed hkey hdials)).2 hkey
  · intro hkeys endpoint hmem circumstances sent hattempt
    obtain ⟨_, row, hfirst⟩ := mem_resolve_iff.mp hmem
    have hdials : dials_out endpoint = true := by
      rw [attempt_peer] at hattempt
      by_contra hcallback
      rw [if_neg hcallback] at hattempt
      cases hattempt
    have hkey := hkeys row endpoint hfirst hdials
    rw [← user_hash_of_first hfirst] at hkey
    cases huser : endpoint.user_hash with
    | none =>
      rw [huser] at hkey
      exact absurd rfl hkey
    | some user_hash =>
      rw [huser] at hkey
      exact ⟨attempt_keyed hrequired huser hkey hattempt, hkey⟩

/-- A runner that requires obfuscation and may dial in plain. -/
def strictRunner : DownloadRunner := ⟨true, true, false, none, [], fun _ _ => false⟩

/-- A row with some text for a user hash. -/
def sampleRow (user_hash : Option String) : SourceRow := ⟨0xC0A80101, 4662, user_hash, none, none⟩

theorem only_obfuscated_keyed :
    strictRunner.OnlyObfuscated [sampleRow (some "000102030405060708090A0B0C0D0E0F")] := by
  refine (only_obfuscated_iff rfl _).mpr ?_
  rintro row endpoint ⟨front, rest, hrows, _⟩ _
  have hrow : row ∈ [sampleRow (some "000102030405060708090A0B0C0D0E0F")] := by
    rw [hrows]
    exact List.mem_append_right front List.mem_cons_self
  rw [List.mem_singleton.mp hrow]
  decide +kernel

/-- A row without a user hash is dialled in plain though obfuscation is required. -/
theorem plain_dial_sends : ¬ strictRunner.OnlyObfuscated [sampleRow none] := by
  intro honly
  have hfirst : strictRunner.FirstOfAddress [sampleRow none] (sampleRow none)
      ⟨client_id_to_ip 0xC0A80101, 4662, none, ""⟩ :=
    ⟨[], [], rfl, rfl, rfl, fun earlier hmem => absurd hmem List.not_mem_nil⟩
  have hmem := mem_resolve_iff.mpr ⟨List.not_mem_nil, sampleRow none, hfirst⟩
  have hplain := (honly _ hmem plainDial _ (attempt_unkeyed rfl rfl)).1 _ List.mem_cons_self
  cases hplain

end DownloadRunner

end amuled.download.dials
