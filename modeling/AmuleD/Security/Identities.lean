import Mathlib.Logic.Function.Basic
import AmuleD.Peer.PreEngineRuns
import AmuleD.Peer.Settled

open amuled.peer amuled.peer.pre_engine

namespace amuled.security

/-- An incoming session, with the peer behind it. -/
structure Visit (Peer : Type) where
  peer : Peer
  hello : Hello
  loop : Loop

/-- The provider that all sessions share, and the open sessions. Beside them: what the peers have signed, and the
keys under which hashes were verified. -/
structure World (Peer : Type) (rsa : Rsa) where
  provider : SecureIdentProvider rsa
  visits : Nat → Option (Visit Peer)
  signed : List (Peer × Bytes)
  verified_under : List (Bytes × rsa.PublicKey)

/-- A peer signs some bytes, opens a session with a HELLO of its choice, sends a packet, or is gone. -/
inductive WorldEvent (Peer : Type) where
  | sign (peer : Peer) (data : Bytes)
  | hello (i : Nat) (peer : Peer) (hello : Hello) (urandom : Bytes)
  | packet (i : Nat) (incoming : Incoming)
  | closed (i : Nat)

/-- The key under which a packet has the hash of its session verified. -/
def accepted_key (rsa : Rsa) (loop : Loop) (incoming : Incoming) : Option rsa.PublicKey :=
  if loop.position = .looping ∧ incoming.opcode = SIGNATURE then
    match parse_signature_payload incoming.payload with
    | .error _ => none
    | .ok (signature, _) =>
      if verifies rsa loop.locals signature then rsa.import_key loop.locals.peer_blob else none
  else none

/-- A session that an exception has left is closed. -/
def Visit.settle {Peer : Type} (visit : Visit Peer) (loop : Loop) : Option (Visit Peer) :=
  match loop.position with
  | .raised _ => none
  | _ => some { visit with loop := loop }

namespace World

variable {Peer : Type} {rsa : Rsa}

def start (keys : Option (KeyPair rsa)) : World Peer rsa := ⟨⟨keys, .empty⟩, fun _ => none, [], []⟩

def verified (world : World Peer rsa) (user_hash : Bytes) : Prop :=
  (world.provider.evaluate (hex_lower user_hash)).verified = true

instance (world : World Peer rsa) (user_hash : Bytes) : Decidable (world.verified user_hash) :=
  inferInstanceAs (Decidable (_ = true))

def after (services : Services) (world : World Peer rsa) : WorldEvent Peer → World Peer rsa
  | .sign peer data => { world with signed := (peer, data) :: world.signed }
  | .hello i peer hello urandom =>
    match world.visits i with
    | some _ => world
    | none =>
      let visit : Visit Peer := ⟨peer, hello, Loop.enter (some world.provider) hello.tags urandom⟩
      { world with visits := Function.update world.visits i (some visit) }
  | .packet i incoming =>
    match world.visits i with
    | none => world
    | some visit =>
      let (secure_ident, loop) := receive services visit.hello (some world.provider, visit.loop) incoming
      { world with
        provider := secure_ident.getD world.provider
        visits := Function.update world.visits i (visit.settle loop)
        verified_under := match accepted_key rsa visit.loop incoming with
          | none => world.verified_under
          | some key => (visit.hello.user_hash, key) :: world.verified_under }
  | .closed i => { world with visits := Function.update world.visits i none }

/-- The peer of a session holds a key, and has signed the challenge of the session with it. -/
def HasSigned (pubkey : Peer → rsa.PublicKey) (world : World Peer rsa) (visit : Visit Peer) (key : rsa.PublicKey) :
    Prop :=
  pubkey visit.peer = key ∧ ∃ challenge blob, visit.loop.locals.challenge_out = some challenge ∧
    rsa.import_key blob = some key ∧ (visit.peer, build_challenge_data blob challenge 0 []) ∈ world.signed

/-- Once a hash is verified under a key, a session that claims it is a signed session of the holder of the key. -/
def Protected (pubkey : Peer → rsa.PublicKey) (world : World Peer rsa) : Prop :=
  ∀ i visit key, world.visits i = some visit → (visit.hello.user_hash, key) ∈ world.verified_under →
    world.verified visit.hello.user_hash → world.HasSigned pubkey visit key

/-- A signature that is accepted was made by the holder of the key. -/
def Unforged (pubkey : Peer → rsa.PublicKey) (world : World Peer rsa) : WorldEvent Peer → Prop
  | .packet i incoming => ∀ visit key challenge, world.visits i = some visit →
      accepted_key rsa visit.loop incoming = some key → visit.loop.locals.challenge_out = some challenge →
        ∃ peer, pubkey peer = key ∧
          (peer, build_challenge_data visit.loop.locals.peer_blob challenge 0 []) ∈ world.signed
  | _ => True

/-- No session opens for a hash that is verified already, and a hash is verified under the own key of the peer of
the only session that claims it. -/
def Undisputed (pubkey : Peer → rsa.PublicKey) (world : World Peer rsa) : WorldEvent Peer → Prop
  | .hello i _ hello _ => world.visits i = none → ¬ world.verified hello.user_hash
  | .packet i incoming => ∀ visit key, world.visits i = some visit →
      accepted_key rsa visit.loop incoming = some key → pubkey visit.peer = key ∧
        ∀ j other, world.visits j = some other → other.hello.user_hash = visit.hello.user_hash → j = i
  | _ => True

end World

section Steps

variable {Peer : Type} {rsa : Rsa} {services : Services}

theorem strip_lower_hex_lower (raw : Bytes) : strip_lower (hex_lower raw) = hex_lower raw := by
  rw [strip_lower, strip_hex_lower, map_toLower_hex_lower, String.ofList_toList]

theorem accepted_key_of_ne {loop : Loop} {incoming : Incoming} (hopcode : incoming.opcode ≠ SIGNATURE) :
    accepted_key rsa loop incoming = none := if_neg fun hboth => hopcode hboth.2

/-- A packet marks the hash of its session exactly if it is an accepted signature. -/
theorem receive_provider (hello : Hello) (provider : SecureIdentProvider rsa) (loop : Loop) (incoming : Incoming) :
    (receive services hello (some provider, loop) incoming).1 = some (match accepted_key rsa loop incoming with
      | none => provider
      | some _ => provider.mark_verified (hex_lower hello.user_hash)) := by
  have hreception := reception_receive services hello (some provider, loop) incoming
  generalize receive services hello (some provider, loop) incoming = after at hreception ⊢
  cases hreception with
  | ended hended =>
    rw [accepted_key, if_neg fun hboth => hended hboth.1]
  | upload hlooping hopcode =>
    have hother : incoming.opcode ≠ SIGNATURE := by
      rw [hopcode]
      decide
    rw [accepted_key_of_ne hother]
  | refused e hlooping hopcode hsignature =>
    rw [accepted_key, if_pos ⟨hlooping, hopcode⟩]
    rw [on_signature] at hsignature
    cases hparse : parse_signature_payload incoming.payload with
    | error e => rfl
    | ok parsed =>
      rw [hparse, ok_bind] at hsignature
      simp only at hsignature
      split at hsignature
      · cases hsignature
      · cases hsignature
  | checked secure_ident hlooping hopcode hsignature =>
    rw [accepted_key, if_pos ⟨hlooping, hopcode⟩]
    obtain ⟨⟨signature, kind⟩, hparse, hsignature⟩ := bind_eq_ok_iff.mp hsignature
    simp only [hparse] at hsignature ⊢
    by_cases hverifies : verifies rsa loop.locals signature = true
    · rw [if_pos hverifies] at hsignature ⊢
      cases hsignature
      rw [verifies] at hverifies
      cases hchallenge : loop.locals.challenge_out with
      | none => simp [hchallenge] at hverifies
      | some challenge =>
        simp only [hchallenge, Bool.and_eq_true] at hverifies
        obtain ⟨key, hkey, -⟩ := verify_signature_eq_true hverifies.2
        rw [hkey]
    · rw [if_neg hverifies] at hsignature ⊢
      cases hsignature
      rfl
  | raised e hlooping hupload hopcode hbranch => rw [accepted_key_of_ne hopcode]
  | replied result hlooping hupload hopcode hbranch => rw [accepted_key_of_ne hopcode]

/-- The challenge of a session stays. -/
theorem receive_challenge_out (hello : Hello) (run : Option (SecureIdentProvider rsa) × Loop) (incoming : Incoming) :
    (receive services hello run incoming).2.locals.challenge_out = run.2.locals.challenge_out := by
  have hreception := reception_receive services hello run incoming
  generalize receive services hello run incoming = after at hreception ⊢
  cases hreception with
  | ended hended => rfl
  | upload hlooping hopcode => rfl
  | refused e hlooping hopcode hsignature => rfl
  | checked secure_ident hlooping hopcode hsignature => rfl
  | raised e hlooping hupload hopcode hbranch => rfl
  | replied result hlooping hupload hopcode hbranch => exact (branch_replied hbranch).challenge_out

/-- An accepted signature answers a challenge. -/
theorem challenge_of_accepted {loop : Loop} {incoming : Incoming} {key : rsa.PublicKey}
    (haccepted : accepted_key rsa loop incoming = some key) :
    ∃ challenge, loop.locals.challenge_out = some challenge ∧ rsa.import_key loop.locals.peer_blob = some key := by
  rw [accepted_key] at haccepted
  split at haccepted
  · split at haccepted
    · cases haccepted
    · rename_i signature kind hparse
      by_cases hverifies : verifies rsa loop.locals signature = true
      · rw [if_pos hverifies] at haccepted
        rw [verifies] at hverifies
        cases hchallenge : loop.locals.challenge_out with
        | none => simp [hchallenge] at hverifies
        | some challenge => exact ⟨challenge, rfl, haccepted⟩
      · rw [if_neg hverifies] at haccepted
        cases haccepted
  · cases haccepted

end Steps

/-- A later state of a session. -/
structure Visit.Continues {Peer : Type} (before later : Visit Peer) : Prop where
  peer : later.peer = before.peer
  hello : later.hello = before.hello
  challenge_out : later.loop.locals.challenge_out = before.loop.locals.challenge_out

namespace World

section Steps

variable {Peer : Type} {rsa : Rsa} {services : Services} {pubkey : Peer → rsa.PublicKey} {world : World Peer rsa}

theorem HasSigned.later {after : World Peer rsa} {before later : Visit Peer} {key : rsa.PublicKey}
    (hsigned : world.HasSigned pubkey before key) (hgrown : world.signed ⊆ after.signed)
    (hcontinues : before.Continues later) : after.HasSigned pubkey later key := by
  obtain ⟨hkey, challenge, blob, hchallenge, hblob, hmem⟩ := hsigned
  rw [← hcontinues.peer] at hkey hmem
  rw [← hcontinues.challenge_out] at hchallenge
  exact ⟨hkey, challenge, blob, hchallenge, hblob, hgrown hmem⟩

theorem visits_packet_of_ne {i j : Nat} (hne : j ≠ i) (incoming : Incoming) :
    (world.after services (.packet i incoming)).visits j = world.visits j := by
  rw [after]
  cases hi : world.visits i with
  | none => rfl
  | some visit => exact Function.update_of_ne hne _ _

/-- Every session after a packet is a session before it, and only the one that received it may have changed. -/
theorem visit_of_packet {i j : Nat} {visit later : Visit Peer} {incoming : Incoming} (hi : world.visits i = some visit)
    (hj : (world.after services (.packet i incoming)).visits j = some later) :
    ∃ before, world.visits j = some before ∧ before.Continues later := by
  by_cases hsame : j = i
  · subst hsame
    simp only [after, hi, Function.update_self, Visit.settle] at hj
    split at hj
    · cases hj
    · cases hj
      exact ⟨visit, hi, rfl, rfl, receive_challenge_out visit.hello _ incoming⟩
  · rw [visits_packet_of_ne hsame] at hj
    exact ⟨later, hj, rfl, rfl, rfl⟩

/-- A packet without an accepted signature verifies nothing. -/
theorem packet_of_ignored {i : Nat} {visit : Visit Peer} {incoming : Incoming} (hi : world.visits i = some visit)
    (hignored : accepted_key rsa visit.loop incoming = none) :
    (world.after services (.packet i incoming)).provider = world.provider ∧
      (world.after services (.packet i incoming)).verified_under = world.verified_under := by
  simp only [after, hi, hignored, receive_provider, Option.getD_some, and_self]

/-- An accepted signature verifies the hash of its session. -/
theorem packet_of_accepted {i : Nat} {visit : Visit Peer} {incoming : Incoming} {key : rsa.PublicKey}
    (hi : world.visits i = some visit) (haccepted : accepted_key rsa visit.loop incoming = some key) :
    (world.after services (.packet i incoming)).provider =
        world.provider.mark_verified (hex_lower visit.hello.user_hash) ∧
      (world.after services (.packet i incoming)).verified_under =
        (visit.hello.user_hash, key) :: world.verified_under := by
  simp only [after, hi, haccepted, receive_provider, Option.getD_some, and_self]

theorem verified_of_mark {after : World Peer rsa} {marked user_hash : Bytes}
    (hprovider : after.provider = world.provider.mark_verified (hex_lower marked)) :
    after.verified user_hash ↔ user_hash = marked ∨ world.verified user_hash := by
  rw [verified, hprovider, SecureIdentProvider.verified_mark_verified_iff, strip_lower_hex_lower, strip_lower_hex_lower,
    hex_lower_injective.eq_iff, verified]

/-- What holds throughout: sessions are protected, and a hash with a key is verified. -/
structure Kept (pubkey : Peer → rsa.PublicKey) (world : World Peer rsa) : Prop where
  guarded : world.Protected pubkey
  recorded : ∀ user_hash key, (user_hash, key) ∈ world.verified_under → world.verified user_hash

theorem kept_start (keys : Option (KeyPair rsa)) : Kept pubkey (start keys) := by
  refine ⟨?_, ?_⟩
  · intro i visit key hvisit
    cases hvisit
  · intro user_hash key hmem
    cases hmem

/-- Sessions that go on, of a provider that stays, are kept. -/
theorem Kept.of_continues {after : World Peer rsa} (hkept : Kept pubkey world)
    (hvisits : ∀ j later, after.visits j = some later →
      ∃ before, world.visits j = some before ∧ before.Continues later)
    (hprovider : after.provider = world.provider) (hgrown : world.signed ⊆ after.signed)
    (hrecords : after.verified_under = world.verified_under) : Kept pubkey after := by
  have hverified : ∀ user_hash, after.verified user_hash ↔ world.verified user_hash := fun user_hash => by
    rw [verified, hprovider, verified]
  refine ⟨?_, ?_⟩
  · intro j later key hj hmem hlater
    obtain ⟨before, hbefore, hcontinues⟩ := hvisits j later hj
    rw [hrecords, hcontinues.hello] at hmem
    rw [hverified, hcontinues.hello] at hlater
    exact (hkept.guarded j before key hbefore hmem hlater).later hgrown hcontinues
  · intro user_hash key hmem
    rw [hrecords] at hmem
    exact (hverified user_hash).mpr (hkept.recorded user_hash key hmem)

theorem Kept.hello (hkept : Kept pubkey world) {i : Nat} {peer : Peer} {hello : Hello} {urandom : Bytes}
    (hundisputed : world.Undisputed pubkey (.hello i peer hello urandom)) :
    Kept pubkey (world.after services (.hello i peer hello urandom)) := by
  cases hi : world.visits i with
  | some visit =>
    simp only [after, hi]
    exact hkept
  | none =>
    have hfresh := hundisputed hi
    simp only [after, hi]
    refine ⟨?_, hkept.recorded⟩
    intro j visit key hj hmem hverified
    by_cases hsame : j = i
    · subst hsame
      simp only [Function.update_self] at hj
      cases hj
      exact absurd hverified hfresh
    · simp only [Function.update_of_ne hsame] at hj
      exact hkept.guarded j visit key hj hmem hverified

theorem Kept.packet (hown : Function.Injective pubkey) (hkept : Kept pubkey world) {i : Nat} {incoming : Incoming}
    (hunforged : world.Unforged pubkey (.packet i incoming))
    (hundisputed : world.Undisputed pubkey (.packet i incoming)) :
    Kept pubkey (world.after services (.packet i incoming)) := by
  cases hi : world.visits i with
  | none =>
    simp only [after, hi]
    exact hkept
  | some visit =>
    have hsigned : (world.after services (.packet i incoming)).signed = world.signed := by simp only [after, hi]
    have hgrown : world.signed ⊆ (world.after services (.packet i incoming)).signed := hsigned ▸ List.Subset.refl _
    cases haccepted : accepted_key rsa visit.loop incoming with
    | none =>
      obtain ⟨hprovider, hrecords⟩ := @packet_of_ignored Peer rsa services world i visit incoming hi haccepted
      exact hkept.of_continues (fun j later hj => visit_of_packet hi hj) hprovider hgrown hrecords
    | some key =>
      obtain ⟨hprovider, hrecords⟩ := @packet_of_accepted Peer rsa services world i visit incoming key hi haccepted
      obtain ⟨hpeer, honly⟩ := hundisputed visit key hi haccepted
      obtain ⟨challenge, hchallenge, hblob⟩ := challenge_of_accepted haccepted
      obtain ⟨holder, hholder, hmade⟩ := hunforged visit key challenge hi haccepted hchallenge
      obtain rfl := hown (hholder.trans hpeer.symm)
      have hvisit : world.HasSigned pubkey visit key := ⟨hpeer, challenge, _, hchallenge, hblob, hmade⟩
      refine ⟨?_, ?_⟩
      · intro j later other hj hmem hverified
        obtain ⟨before, hbefore, hcontinues⟩ := visit_of_packet hi hj
        rw [hrecords, hcontinues.hello] at hmem
        rw [verified_of_mark hprovider, hcontinues.hello] at hverified
        refine HasSigned.later ?_ hgrown hcontinues
        by_cases hsame : j = i
        · subst hsame
          obtain rfl := Option.some.inj (hi.symm.trans hbefore)
          rcases List.mem_cons.mp hmem with hnew | hold
          · rw [(Prod.mk.inj hnew).2]
            exact hvisit
          · exact hkept.guarded j visit other hi hold (hkept.recorded _ other hold)
        · have hdifferent : before.hello.user_hash ≠ visit.hello.user_hash :=
            fun hclaims => hsame (honly j before hbefore hclaims)
          rcases List.mem_cons.mp hmem with hnew | hold
          · exact absurd (Prod.mk.inj hnew).1 hdifferent
          · exact hkept.guarded j before other hbefore hold (hkept.recorded _ other hold)
      · intro user_hash other hmem
        rw [hrecords] at hmem
        rw [verified_of_mark hprovider]
        rcases List.mem_cons.mp hmem with hnew | hold
        · exact .inl (Prod.mk.inj hnew).1
        · exact .inr (hkept.recorded user_hash other hold)

theorem Kept.after (hown : Function.Injective pubkey) (hkept : Kept pubkey world) {event : WorldEvent Peer}
    (hunforged : world.Unforged pubkey event) (hundisputed : world.Undisputed pubkey event) :
    Kept pubkey (world.after services event) := by
  cases event with
  | sign peer data =>
    refine hkept.of_continues (fun j later hj => ⟨later, hj, rfl, rfl, rfl⟩) rfl ?_ rfl
    exact List.subset_cons_self _ _
  | hello i peer hello urandom => exact hkept.hello hundisputed
  | packet i incoming => exact hkept.packet hown hunforged hundisputed
  | closed i =>
    refine hkept.of_continues (fun j later hj => ?_) rfl (List.Subset.refl _) rfl
    by_cases hsame : j = i
    · subst hsame
      simp only [World.after, Function.update_self] at hj
      cases hj
    · simp only [World.after, Function.update_of_ne hsame] at hj
      exact ⟨later, hj, rfl, rfl, rfl⟩

end Steps

end World

/-- In every run in which a hash is never claimed once it is verified, and is verified under the own key of its only
session, no session enjoys a verification that its peer has not earned. -/
theorem identities_protected {Peer : Type} {rsa : Rsa} {pubkey : Peer → rsa.PublicKey}
    (hown : Function.Injective pubkey) (services : Services) (keys : Option (KeyPair rsa))
    (events : List (WorldEvent Peer))
    (hunforged : runs.AllSteps (World.after services) (.start keys) (World.Unforged pubkey) events)
    (hundisputed : runs.AllSteps (World.after services) (.start keys) (World.Undisputed pubkey) events) :
    ∀ part, part <+: events → (part.foldl (World.after services) (.start keys)).Protected pubkey := by
  intro part hpart
  have hboth : runs.AllSteps (World.after services) (.start keys)
      (fun world event => world.Unforged pubkey event ∧ world.Undisputed pubkey event) part := by
    intro front event hfront
    exact ⟨hunforged front event (hfront.trans hpart), hundisputed front event (hfront.trans hpart)⟩
  exact (runs.invariant_of_allSteps (World.kept_start keys)
    (fun world event hkept hstep => hkept.after hown hstep.1 hstep.2) hboth).guarded

section Samples

def sampleBlob : Bytes := 5 :: List.replicate 10 0

def samplePublickey : Incoming := ⟨PUBLICKEY, 11 :: sampleBlob, sampleSurroundings⟩

/-- The signature of the challenge 1. -/
def sampleSignature : Incoming :=
  ⟨SIGNATURE, 11 :: sampleRsa.sign (5 : UInt8) (build_challenge_data sampleBlob 1 0 []), sampleSurroundings⟩

/-- A peer that announces secure identification. -/
def sampleAnnounced : Hello := ⟨List.replicate 16 7, 0, 4662, "", 0, [⟨.name_id 0xFA, UINT32, .int 0x30000⟩]⟩

def sampleKeys : KeyPair sampleRsa where
  key := (9 : UInt8)
  public_blob := List.replicate 11 9
  length_public_blob := by decide
  sign_ne_nil data := List.cons_ne_nil _ _
  length_sign data := by
    simp only [sampleRsa, List.length_cons, List.length_take, List.length_replicate]
    omega

/-- The key of a peer is its name. -/
def samplePubkey (peer : UInt8) : sampleRsa.PublicKey := peer

theorem samplePubkey_injective : Function.Injective samplePubkey := fun _ _ hsame => hsame

/-- The peer 5 opens a session, signs its challenge and sends its key. -/
def sampleOpening : List (WorldEvent UInt8) :=
  [.hello 0 5 sampleAnnounced [1, 0, 0, 0], .sign 5 (build_challenge_data sampleBlob 1 0 []),
    .packet 0 samplePublickey]

def sampleOpened : World UInt8 sampleRsa :=
  sampleOpening.foldl (World.after sampleServices) (.start (some sampleKeys))

theorem sampleOpened_visit : (sampleOpened.visits 0).map (fun visit => (visit.peer, visit.loop.locals)) =
    some (5, ⟨some 1, none, sampleBlob, none⟩) := by decide +kernel

theorem sampleOpened_visits {j : Nat} {other : Visit UInt8} (hj : sampleOpened.visits j = some other) : j = 0 := by
  by_contra hne
  rw [sampleOpened, sampleOpening, List.foldl_cons, List.foldl_cons, List.foldl_cons, List.foldl_nil,
    World.visits_packet_of_ne hne] at hj
  simp [World.after, World.start, Function.update_of_ne hne] at hj

/-- The signature of the session is accepted under the key of its peer. -/
theorem sampleOpened_accepts {visit : Visit UInt8} {key : sampleRsa.PublicKey}
    (hvisit : sampleOpened.visits 0 = some visit) (haccepted : accepted_key sampleRsa visit.loop sampleSignature = some key) :
    samplePubkey visit.peer = key ∧ visit.peer = 5 ∧ visit.loop.locals = ⟨some 1, none, sampleBlob, none⟩ := by
  have hstate := sampleOpened_visit
  rw [hvisit, Option.map_some, Option.some.injEq, Prod.mk.injEq] at hstate
  obtain ⟨hpeer, hlocals⟩ := hstate
  obtain ⟨challenge, -, hblob⟩ := challenge_of_accepted haccepted
  rw [hlocals] at hblob
  refine ⟨?_, hpeer, hlocals⟩
  rw [hpeer]
  exact Option.some.inj hblob

theorem sampleOpening_unforged : runs.AllSteps (World.after sampleServices) (.start (some sampleKeys))
    (World.Unforged samplePubkey) (sampleOpening ++ [.packet 0 sampleSignature]) := by
  rw [runs.allSteps_concat]
  constructor
  · rw [sampleOpening, runs.allSteps_cons, runs.allSteps_cons, runs.allSteps_cons]
    refine ⟨trivial, trivial, ?_, runs.allSteps_nil⟩
    intro visit key challenge hvisit haccepted
    rw [accepted_key_of_ne (by decide)] at haccepted
    cases haccepted
  · intro visit key challenge hvisit haccepted hchallenge
    obtain ⟨hkey, hpeer, hlocals⟩ := sampleOpened_accepts hvisit haccepted
    rw [hlocals] at hchallenge ⊢
    cases hchallenge
    refine ⟨5, hpeer ▸ hkey, ?_⟩
    exact List.mem_cons_self

theorem sampleOpening_undisputed : runs.AllSteps (World.after sampleServices) (.start (some sampleKeys))
    (World.Undisputed samplePubkey) (sampleOpening ++ [.packet 0 sampleSignature]) := by
  rw [runs.allSteps_concat]
  constructor
  · rw [sampleOpening, runs.allSteps_cons, runs.allSteps_cons, runs.allSteps_cons]
    refine ⟨fun _ => ?_, trivial, ?_, runs.allSteps_nil⟩
    · decide +kernel
    · intro visit key hvisit haccepted
      rw [accepted_key_of_ne (by decide)] at haccepted
      cases haccepted
  · intro visit key hvisit haccepted
    obtain ⟨hkey, -, -⟩ := sampleOpened_accepts hvisit haccepted
    exact ⟨hkey, fun j other hj _ => sampleOpened_visits hj⟩

theorem identities_protected_sample :
    runs.AllSteps (World.after sampleServices) (.start (some sampleKeys)) (World.Undisputed samplePubkey)
        (sampleOpening ++ [.packet 0 sampleSignature]) ∧
      ∀ part, part <+: sampleOpening ++ [.packet 0 sampleSignature] →
        (part.foldl (World.after sampleServices) (.start (some sampleKeys))).Protected samplePubkey :=
  ⟨sampleOpening_undisputed, identities_protected samplePubkey_injective sampleServices (some sampleKeys) _
    sampleOpening_unforged sampleOpening_undisputed⟩

/-- The peer 6 then opens a session for the hash that the peer 5 has verified. -/
def sampleImpostor : List (WorldEvent UInt8) :=
  sampleOpening ++ [.packet 0 sampleSignature] ++ [.hello 1 6 sampleAnnounced [2, 0, 0, 0]]

/-- It is verified at once. -/
theorem impostor_verified : ¬ ∀ (Peer : Type) (rsa : Rsa) (pubkey : Peer → rsa.PublicKey),
    Function.Injective pubkey → ∀ services (keys : Option (KeyPair rsa)) events,
      runs.AllSteps (World.after services) (.start keys) (World.Unforged pubkey) events →
        ∀ part, part <+: events → (part.foldl (World.after services) (.start keys)).Protected pubkey := by
  intro hall
  have hunforged : runs.AllSteps (World.after sampleServices) (.start (some sampleKeys))
      (World.Unforged samplePubkey) sampleImpostor :=
    runs.allSteps_concat.mpr ⟨sampleOpening_unforged, trivial⟩
  have hprotected := hall UInt8 sampleRsa samplePubkey samplePubkey_injective sampleServices (some sampleKeys)
    sampleImpostor hunforged sampleImpostor List.prefix_rfl
  obtain ⟨visit, hvisit, hpeer, hhello⟩ : ∃ visit, (sampleImpostor.foldl (World.after sampleServices)
      (.start (some sampleKeys))).visits 1 = some visit ∧ visit.peer = 6 ∧
        visit.hello.user_hash = List.replicate 16 7 := ⟨_, rfl, rfl, rfl⟩
  have hrecorded : (List.replicate 16 7, (5 : UInt8)) ∈ (sampleImpostor.foldl (World.after sampleServices)
      (.start (some sampleKeys))).verified_under := List.mem_cons_self
  have hverified : (sampleImpostor.foldl (World.after sampleServices) (.start (some sampleKeys))).verified
      (List.replicate 16 7) := by decide +kernel
  rw [← hhello] at hrecorded hverified
  have hkey := (hprotected 1 visit (5 : UInt8) hvisit hrecorded hverified).1
  rw [hpeer] at hkey
  exact absurd hkey (show ¬ (6 : UInt8) = 5 by decide)

end Samples

end amuled.security
