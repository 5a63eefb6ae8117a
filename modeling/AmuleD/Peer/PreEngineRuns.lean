import AmuleD.Peer.PreEngineAnswers
import AmuleD.Runs

open amuled.aich amuled.security

namespace amuled.peer.pre_engine

/-- A packet that its parser accepts, of the kinds whose parser stands outside a `try`. The others may be malformed. -/
structure WellFormed (incoming : Incoming) : Prop where
  secident_state : incoming.opcode = SECIDENTSTATE →
    ∃ parsed, parse_secident_state_payload incoming.payload = .ok parsed
  publickey : incoming.opcode = PUBLICKEY → ∃ peer_blob, parse_publickey_payload incoming.payload = .ok peer_blob
  signature : incoming.opcode = SIGNATURE →
    ∃ kind signature, parse_signature_payload incoming.payload = .ok (signature, kind)

theorem WellFormed.of_ne {incoming : Incoming} (hsecident : incoming.opcode ≠ SECIDENTSTATE)
    (hpublickey : incoming.opcode ≠ PUBLICKEY) (hsignature : incoming.opcode ≠ SIGNATURE) : WellFormed incoming :=
  ⟨fun hopcode => absurd hopcode hsecident, fun hopcode => absurd hopcode hpublickey,
    fun hopcode => absurd hopcode hsignature⟩

/-- The condition on a packet, the providers and what came before it, under which its branch raises nothing. -/
def Safe {rsa : Rsa} (services : Services) (hello : Hello) (run : Option (SecureIdentProvider rsa) × Loop)
    (incoming : Incoming) : Prop :=
  let ⟨opcode, payload, surroundings⟩ := incoming
  if opcode = SECIDENTSTATE then ∃ provider, run.1 = some provider ∧ provider.has_keys = true
  else if opcode = REQUESTSOURCES2 then
    ∀ version req_hash, asks_sources2 services surroundings hello.tags payload = some (version, req_hash) →
      SourcesFit 19 version (surroundings.sources req_hash)
  else if opcode = REQUESTSOURCES then
    ∀ req_hash, asks_sources services surroundings hello.tags payload = some req_hash →
      ∃ peer_sx1 : Nat, run.2.locals.peer_sx1 = some peer_sx1 ∧ SourcesFit 18 peer_sx1 (surroundings.sources req_hash)
  else if opcode = AICHREQUEST then
    ∀ req_hash req_part req_master, parse_aich_request_payload payload = .ok (req_hash, req_part, req_master) →
      ∃ found, surroundings.resolve req_hash = .ok found ∧ ∀ shared, found = some shared → shared.path ≠ "" →
        ¬ Oversized services.sha1 surroundings.disk shared req_part req_master
  else if opcode = REQUESTFILENAME then
    ∀ req_hash, parse_file_hash_payload payload = .ok req_hash →
      ∃ found, surroundings.resolve req_hash.val = .ok found ∧
        ∀ shared, found = some shared → (utf8_encode shared.name).length < 2 ^ 16
  else if opcode = HASHSETREQUEST then
    ∀ req_hash, parse_file_hash_payload payload = .ok req_hash →
      ∃ found, surroundings.resolve req_hash.val = .ok found ∧ ∀ shared, found = some shared →
        ∃ content, surroundings.disk shared.path = .file content ∧
          1 + (hash_set services.md4 shared content).length < 2 ^ 16
  else True

section Steps

variable {rsa : Rsa} {services : Services} {hello : Hello} {run : Option (SecureIdentProvider rsa) × Loop}
  {incoming : Incoming}

/-- A branch raises nothing exactly if its packet is safe. -/
theorem branch_ok_iff (hwell : WellFormed incoming) :
    (∃ result, branch services incoming.surroundings hello.tags run.1 run.2.locals incoming.opcode
      incoming.payload = .ok result) ↔ Safe services hello run incoming := by
  rw [branch, Safe]
  by_cases hsecident : incoming.opcode = SECIDENTSTATE
  · rw [if_pos hsecident, if_pos hsecident]
    exact on_secident_state_ok_iff (hwell.secident_state hsecident)
  rw [if_neg hsecident, if_neg hsecident]
  by_cases hpublickey : incoming.opcode = PUBLICKEY
  · obtain ⟨peer_blob, hparse⟩ := hwell.publickey hpublickey
    rw [if_pos hpublickey, on_publickey, hparse, hpublickey]
    simp [PUBLICKEY, REQUESTSOURCES2, REQUESTSOURCES, AICHREQUEST, REQUESTFILENAME, HASHSETREQUEST]
  rw [if_neg hpublickey]
  by_cases hsources2 : incoming.opcode = REQUESTSOURCES2
  · rw [if_pos hsources2, if_pos hsources2]
    exact on_request_sources2_ok_iff
  rw [if_neg hsources2, if_neg hsources2]
  by_cases hsources : incoming.opcode = REQUESTSOURCES
  · rw [if_pos hsources, if_pos hsources]
    exact on_request_sources_ok_iff
  rw [if_neg hsources, if_neg hsources]
  by_cases haich : incoming.opcode = AICHREQUEST
  · rw [if_pos haich, if_pos haich]
    exact handle_aich_request_ok_iff
  rw [if_neg haich, if_neg haich]
  by_cases hname : incoming.opcode = REQUESTFILENAME
  · rw [if_pos hname, if_pos hname]
    exact on_request_filename_ok_iff
  rw [if_neg hname, if_neg hname]
  by_cases hhashes : incoming.opcode = HASHSETREQUEST
  · rw [if_pos hhashes, if_pos hhashes]
    exact on_hashset_request_ok_iff
  rw [if_neg hhashes, if_neg hhashes, iff_true]
  by_cases hinfo : incoming.opcode = EMULEINFO
  · obtain ⟨answer, hanswer⟩ := on_emuleinfo_ok run.2.locals
    rw [if_pos hinfo, hanswer]
    exact ⟨_, rfl⟩
  · exact ⟨_, if_neg hinfo⟩

/-- What a packet does to a run: it is over, it starts the upload, a signature is checked, or a branch is taken. -/
inductive Reception {rsa : Rsa} (services : Services) (hello : Hello) (run : Option (SecureIdentProvider rsa) × Loop)
    (incoming : Incoming) : Option (SecureIdentProvider rsa) × Loop → Prop where
  | ended (hended : run.2.position ≠ .looping) : Reception services hello run incoming run
  | upload (hlooping : run.2.position = .looping) (hopcode : incoming.opcode = STARTUPLOADREQ) :
    Reception services hello run incoming (run.1, { run.2 with position := .upload incoming.payload })
  | refused (e : Exc) (hlooping : run.2.position = .looping) (hopcode : incoming.opcode = SIGNATURE)
    (hsignature : on_signature run.1 hello.user_hash run.2.locals incoming.payload = .error e) :
    Reception services hello run incoming (run.1, { run.2 with position := .raised e })
  | checked (secure_ident : Option (SecureIdentProvider rsa)) (hlooping : run.2.position = .looping)
    (hopcode : incoming.opcode = SIGNATURE)
    (hsignature : on_signature run.1 hello.user_hash run.2.locals incoming.payload = .ok secure_ident) :
    Reception services hello run incoming (secure_ident, run.2)
  | raised (e : Exc) (hlooping : run.2.position = .looping) (hupload : incoming.opcode ≠ STARTUPLOADREQ)
    (hopcode : incoming.opcode ≠ SIGNATURE)
    (hbranch : branch services incoming.surroundings hello.tags run.1 run.2.locals incoming.opcode
      incoming.payload = .error e) :
    Reception services hello run incoming (run.1, { run.2 with position := .raised e })
  | replied (result : Locals × List Packet) (hlooping : run.2.position = .looping)
    (hupload : incoming.opcode ≠ STARTUPLOADREQ) (hopcode : incoming.opcode ≠ SIGNATURE)
    (hbranch : branch services incoming.surroundings hello.tags run.1 run.2.locals incoming.opcode
      incoming.payload = .ok result) :
    Reception services hello run incoming
      (run.1, { run.2 with locals := result.1, sent := run.2.sent ++ result.2 })

theorem reception_receive (services : Services) (hello : Hello) (run : Option (SecureIdentProvider rsa) × Loop)
    (incoming : Incoming) : Reception services hello run incoming (receive services hello run incoming) := by
  obtain ⟨secure_ident, loop⟩ := run
  simp only [receive]
  by_cases hlooping : loop.position = .looping
  · rw [if_neg (not_not.mpr hlooping)]
    by_cases hupload : incoming.opcode = STARTUPLOADREQ
    · rw [if_pos hupload]
      exact .upload hlooping hupload
    rw [if_neg hupload]
    by_cases hsignature : incoming.opcode = SIGNATURE
    · rw [if_pos hsignature]
      cases hchecked : on_signature secure_ident hello.user_hash loop.locals incoming.payload with
      | error e => exact .refused e hlooping hsignature hchecked
      | ok checked => exact .checked checked hlooping hsignature hchecked
    rw [if_neg hsignature]
    cases hbranch : branch services incoming.surroundings hello.tags secure_ident loop.locals incoming.opcode
        incoming.payload with
    | error e => exact .raised e hlooping hupload hsignature hbranch
    | ok result => exact .replied result hlooping hupload hsignature hbranch
  · rw [if_pos hlooping]
    exact .ended hlooping

/-- A challenge is only sent by a session with a provider. -/
def Challenged {rsa : Rsa} (run : Option (SecureIdentProvider rsa) × Loop) : Prop :=
  run.2.locals.challenge_out ≠ none → run.1 ≠ none

theorem on_signature_keeps_provider {verified : Option (SecureIdentProvider rsa)} {user_hash payload : Bytes}
    {locals : Locals} {secure_ident : Option (SecureIdentProvider rsa)} (hsome : secure_ident ≠ none)
    (hsignature : on_signature secure_ident user_hash locals payload = .ok verified) : verified ≠ none := by
  obtain ⟨⟨signature, kind⟩, -, hsignature⟩ := bind_eq_ok_iff.mp hsignature
  simp only at hsignature
  split at hsignature
  · obtain ⟨provider, -, hmarked⟩ := bind_eq_ok_iff.mp hsignature
    cases hmarked
    exact Option.some_ne_none _
  · cases hsignature
    exact hsome

theorem Challenged.receive (hchallenged : Challenged run) (incoming : Incoming) :
    Challenged (receive services hello run incoming) := by
  have hreception := reception_receive services hello run incoming
  generalize pre_engine.receive services hello run incoming = after at hreception ⊢
  cases hreception with
  | ended hended => exact hchallenged
  | upload hlooping hopcode => exact hchallenged
  | refused e hlooping hopcode hsignature => exact hchallenged
  | checked secure_ident hlooping hopcode hsignature =>
    intro hchallenge
    exact on_signature_keeps_provider (hchallenged hchallenge) hsignature
  | raised e hlooping hupload hopcode hbranch => exact hchallenged
  | replied result hlooping hupload hopcode hbranch =>
    intro hchallenge
    rw [(branch_replied hbranch).challenge_out] at hchallenge
    exact hchallenged hchallenge

/-- What a packet asks of a session that can be answered. -/
def Incoming.question (services : Services) (hello : Hello) (incoming : Incoming) : Option (Question × Bytes) :=
  asked services incoming.surroundings hello.tags incoming.opcode incoming.payload

/-- The run is in its loop, and has answered what was asked, in order. -/
structure Served (services : Services) (hello : Hello) (incomings : List Incoming)
    (run : Option (SecureIdentProvider rsa) × Loop) : Prop where
  looping : run.2.position = .looping
  answers : run.2.sent.filterMap answered = incomings.filterMap (Incoming.question services hello)

/-- A run stays served by one more packet exactly if the packet is safe. -/
theorem served_concat_iff {incomings : List Incoming} (hwell : WellFormed incoming)
    (hupload : incoming.opcode ≠ STARTUPLOADREQ) (hchallenged : Challenged run) :
    Served services hello (incomings ++ [incoming]) (receive services hello run incoming) ↔
      Served services hello incomings run ∧ Safe services hello run incoming := by
  have hreception := reception_receive services hello run incoming
  generalize pre_engine.receive services hello run incoming = after at hreception ⊢
  cases hreception with
  | ended hended =>
    constructor
    · intro hserved
      exact absurd hserved.looping hended
    · rintro ⟨hserved, -⟩
      exact absurd hserved.looping hended
  | upload hlooping hopcode => exact absurd hopcode hupload
  | refused e hlooping hopcode hsignature =>
    obtain ⟨verified, hverified⟩ := @on_signature_eq_ok rsa run.1 run.2.locals incoming.payload hello.user_hash
      (hwell.signature hopcode) hchallenged
    rw [hverified] at hsignature
    cases hsignature
  | checked secure_ident hlooping hopcode hsignature =>
    have hquestion : incoming.question services hello = none := by
      rw [Incoming.question, hopcode]
      rfl
    have hsafe : Safe services hello run incoming := by
      simp [Safe, hopcode, SIGNATURE, SECIDENTSTATE, REQUESTSOURCES2, REQUESTSOURCES, AICHREQUEST, REQUESTFILENAME,
        HASHSETREQUEST]
    constructor
    · rintro ⟨-, hanswers⟩
      rw [List.filterMap_append, List.filterMap_cons_none hquestion, List.filterMap_nil, List.append_nil] at hanswers
      exact ⟨⟨hlooping, hanswers⟩, hsafe⟩
    · rintro ⟨⟨-, hanswers⟩, -⟩
      refine ⟨hlooping, ?_⟩
      rw [List.filterMap_append, List.filterMap_cons_none hquestion, List.filterMap_nil, List.append_nil]
      exact hanswers
  | raised e hlooping hupload hopcode hbranch =>
    constructor
    · intro hserved
      cases hserved.looping
    · rintro ⟨-, hsafe⟩
      obtain ⟨result, hresult⟩ := (branch_ok_iff hwell).mpr hsafe
      rw [hbranch] at hresult
      cases hresult
  | replied result hlooping hupload hopcode hbranch =>
    have hsafe : Safe services hello run incoming := (branch_ok_iff hwell).mp ⟨result, hbranch⟩
    have hnew : result.2.filterMap answered = [incoming].filterMap (Incoming.question services hello) := by
      rw [(branch_replied hbranch).answers, List.filterMap_cons]
      cases hquestion : incoming.question services hello with
      | none => rw [← Incoming.question, hquestion]; rfl
      | some question => rw [← Incoming.question, hquestion]; rfl
    constructor
    · rintro ⟨-, hanswers⟩
      rw [List.filterMap_append, List.filterMap_append, hnew] at hanswers
      exact ⟨⟨hlooping, List.append_cancel_right hanswers⟩, hsafe⟩
    · rintro ⟨⟨-, hanswers⟩, -⟩
      refine ⟨hlooping, ?_⟩
      rw [List.filterMap_append, List.filterMap_append, hnew, hanswers]

end Steps

section Runs

variable {rsa : Rsa}

theorem challenged_enter (secure_ident : Option (SecureIdentProvider rsa)) (tags : List Ed2kTag) (urandom : Bytes) :
    Challenged (secure_ident, Loop.enter secure_ident tags urandom) := by
  rintro hchallenge rfl
  exact hchallenge rfl

theorem served_enter (services : Services) (hello : Hello) (secure_ident : Option (SecureIdentProvider rsa))
    (urandom : Bytes) (hordinary : is_buddy hello.tags = false) :
    Served services hello [] (secure_ident, Loop.enter secure_ident hello.tags urandom) := by
  refine ⟨?_, ?_⟩
  · simp [Loop.enter, hordinary]
  · simp only [Loop.enter, List.filterMap_nil]
    cases challenge_to secure_ident hello.tags urandom with
    | none => rfl
    | some challenge => rfl

/-- A run over well-formed packets stays in its loop and answers each request once, in order, exactly if each
packet is safe when it comes. -/
theorem packets_answered (services : Services) (hello : Hello) (secure_ident : Option (SecureIdentProvider rsa))
    (urandom : Bytes) (incomings : List Incoming) (hordinary : is_buddy hello.tags = false)
    (hwell : ∀ incoming ∈ incomings, WellFormed incoming ∧ incoming.opcode ≠ STARTUPLOADREQ) :
    Served services hello incomings
        (incomings.foldl (receive services hello) (secure_ident, Loop.enter secure_ident hello.tags urandom)) ↔
      runs.AllSteps (receive services hello) (secure_ident, Loop.enter secure_ident hello.tags urandom)
        (Safe services hello) incomings := by
  induction incomings using List.reverseRecOn with
  | nil => exact iff_of_true (served_enter services hello secure_ident urandom hordinary) runs.allSteps_nil
  | append_singleton incomings incoming ih =>
    obtain ⟨hlast, hupload⟩ := hwell incoming (List.mem_append_right _ List.mem_cons_self)
    have hbefore := ih fun other hother => hwell other (List.mem_append_left _ hother)
    have hchallenged : Challenged (incomings.foldl (receive services hello)
        (secure_ident, Loop.enter secure_ident hello.tags urandom)) :=
      runs.invariant (challenged_enter secure_ident hello.tags urandom)
        (fun run other hkept => hkept.receive other) incomings
    rw [List.foldl_concat, served_concat_iff hlast hupload hchallenged, hbefore, runs.allSteps_concat]

end Runs

section Samples

/-- Keys of one byte, whose signatures end as the signed data do. -/
def sampleRsa : Rsa where
  PublicKey := UInt8
  PrivateKey := UInt8
  import_key blob := blob.head?
  sign key data := key :: data.reverse.take 10
  verify key data signature := signature = key :: data.reverse.take 10

def sampleServices : Services := ⟨zeroHash 20, Md4.buffered (zeroHash 16), true⟩

/-- A peer that announces the second version of the legacy source exchange. -/
def sampleHello : Hello := ⟨List.replicate 16 7, 0, 4662, "", 0, [⟨.name_id 0xFA, UINT32, .int 0x2000⟩]⟩

/-- No file is shared, and one source is known for every file. -/
def sampleSurroundings : Surroundings where
  state_factory := .ok fun _ => .ok none
  disk := fun _ => .absent "no such file"
  known_sources := fun _ => some [⟨1, 4662, 0, 0, none, 0⟩]

def sampleSources2 : Incoming := ⟨REQUESTSOURCES2, 2 :: 0 :: 0 :: List.replicate 16 9, sampleSurroundings⟩

def sampleSources : Incoming := ⟨REQUESTSOURCES, List.replicate 16 9, sampleSurroundings⟩

theorem wellFormed_samples : ∀ incoming ∈ [sampleSources2, sampleSources],
    WellFormed incoming ∧ incoming.opcode ≠ STARTUPLOADREQ := by
  have hopcodes : ∀ incoming ∈ [sampleSources2, sampleSources],
      (incoming.opcode ≠ SECIDENTSTATE ∧ incoming.opcode ≠ PUBLICKEY ∧ incoming.opcode ≠ SIGNATURE) ∧
        incoming.opcode ≠ STARTUPLOADREQ := by
    simp [sampleSources2, sampleSources, SECIDENTSTATE, PUBLICKEY, SIGNATURE, STARTUPLOADREQ, REQUESTSOURCES,
      REQUESTSOURCES2]
  intro incoming hmem
  obtain ⟨⟨hsecident, hpublickey, hsignature⟩, hupload⟩ := hopcodes incoming hmem
  exact ⟨.of_ne hsecident hpublickey hsignature, hupload⟩

/-- A session of a listener without secure identification. -/
def sampleRun : Option (SecureIdentProvider sampleRsa) × Loop :=
  (none, Loop.enter (none : Option (SecureIdentProvider sampleRsa)) sampleHello.tags [])

/-- A request in each version, of which the first binds what the second needs. -/
theorem packets_answered_sample : Served sampleServices sampleHello [sampleSources2, sampleSources]
    ([sampleSources2, sampleSources].foldl (receive sampleServices sampleHello) sampleRun) := by
  have hbound : (receive sampleServices sampleHello sampleRun sampleSources2).2.locals.peer_sx1 = some 2 := by
    decide +kernel
  apply (packets_answered sampleServices sampleHello none [] _ (by decide) wellFormed_samples).mpr
  rw [runs.allSteps_cons, runs.allSteps_cons]
  refine ⟨?_, ?_, runs.allSteps_nil⟩
  · intro version req_hash hasks
    have hsample : asks_sources2 sampleServices sampleSurroundings sampleHello.tags sampleSources2.payload =
        some (2, List.replicate 16 9) := by decide +kernel
    obtain ⟨rfl, rfl⟩ := Prod.mk.inj (Option.some.inj (hsample.symm.trans hasks))
    exact ⟨by decide +kernel, by decide +kernel⟩
  · intro req_hash hasks
    have hsample : asks_sources sampleServices sampleSurroundings sampleHello.tags sampleSources.payload =
        some (List.replicate 16 9) := by decide +kernel
    obtain rfl := Option.some.inj (hsample.symm.trans hasks)
    exact ⟨2, hbound, by decide +kernel, by decide +kernel⟩

/-- Without the first of them the second leaves the loop with an exception. -/
theorem legacy_request_raises : ¬ ∀ (rsa : Rsa) services hello (secure_ident : Option (SecureIdentProvider rsa)) urandom
    incomings, is_buddy hello.tags = false →
      (∀ incoming ∈ incomings, WellFormed incoming ∧ incoming.opcode ≠ STARTUPLOADREQ) →
        Served services hello incomings
          (incomings.foldl (receive services hello) (secure_ident, Loop.enter secure_ident hello.tags urandom)) := by
  intro hall
  have hserved := hall sampleRsa sampleServices sampleHello none [] [sampleSources] (by decide) fun incoming hmem =>
    wellFormed_samples incoming (List.mem_cons_of_mem _ hmem)
  have hraised : (receive sampleServices sampleHello sampleRun sampleSources).2.position =
      .raised .UnboundLocalError := by decide +kernel
  have hlooping : (receive sampleServices sampleHello sampleRun sampleSources).2.position = .looping :=
    hserved.looping
  rw [hraised] at hlooping
  cases hlooping

end Samples

end amuled.peer.pre_engine
