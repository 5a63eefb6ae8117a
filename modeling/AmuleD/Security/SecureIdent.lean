import AmuleD.Codec.Struct
import AmuleD.Dict
import AmuleD.Upload.Queue

open littleendian
open amuled.upload (strip)

namespace amuled.security

def MAX_PUBKEY_SIZE : Nat := 80

/-- PyCryptodome's RSA keys and their `pkcs1_15` signatures over SHA-1. An import that raises, and a
verification that raises, is `none` and `false`. -/
structure Rsa where
  PublicKey : Type
  PrivateKey : Type
  import_key : Bytes → Option PublicKey
  sign : PrivateKey → Bytes → Bytes
  verify : PublicKey → Bytes → Bytes → Bool

/-- The keys of a provider, after `ensure_keys` has checked the blob. A signature is as long as the modulus,
which the blob contains. -/
structure KeyPair (rsa : Rsa) where
  key : rsa.PrivateKey
  public_blob : Bytes
  length_public_blob : public_blob.length ≤ MAX_PUBKEY_SIZE
  sign_ne_nil : ∀ data, rsa.sign key data ≠ []
  length_sign : ∀ data, (rsa.sign key data).length ≤ public_blob.length

structure SecureIdentProvider (rsa : Rsa) where
  _key : Option (KeyPair rsa)
  _verified : Dict String Bool

inductive SecureIdentState where
  | NOT_AVAILABLE
  | ID_NEEDED
  | SIGNED_ID
  deriving DecidableEq

structure SecureIdentInfo where
  user_hash : String
  state : SecureIdentState
  verified : Bool
  bonus_multiplier : Nat
  detail : String
  deriving DecidableEq

/-- The signed bytes: the key of the signer, the challenge, and the address block where there is one. -/
def build_challenge_data (signer_pubkey_blob : Bytes) (challenge ip_kind : Nat) (ip_bytes : Bytes) : Bytes :=
  signer_pubkey_blob ++ encode 4 (challenge % 2 ^ 32) ++
    if ip_kind = 0 then [] else ip_bytes ++ [UInt8.ofNat ip_kind]

/-- `user_hash.strip().lower()`. Python's `lower` changes characters outside ASCII too, of which a hash in
hexadecimal digits has none. -/
def strip_lower (user_hash : String) : String :=
  String.ofList ((strip user_hash.toList).map Char.toLower)

section Verification

variable {rsa : Rsa}

def verify_data (rsa : Rsa) (pubkey_blob signature data : Bytes) : Bool :=
  if 10 ≤ pubkey_blob.length ∧ pubkey_blob.length ≤ MAX_PUBKEY_SIZE then
    match rsa.import_key pubkey_blob with
    | none => false
    | some pub => rsa.verify pub data signature
  else false

def verify_signature (rsa : Rsa) (signer_pubkey_blob signature : Bytes) (challenge ip_kind : Nat)
    (ip_bytes : Bytes) : Bool :=
  if 10 ≤ signer_pubkey_blob.length ∧ signer_pubkey_blob.length ≤ MAX_PUBKEY_SIZE then
    verify_data rsa signer_pubkey_blob signature
      (build_challenge_data signer_pubkey_blob challenge ip_kind ip_bytes)
  else false

/-- A signature is accepted under a key that the blob imports to. -/
theorem verify_signature_eq_true {blob signature : Bytes} {challenge : Nat}
    (hverified : verify_signature rsa blob signature challenge 0 [] = true) :
    ∃ key, rsa.import_key blob = some key ∧
      rsa.verify key (build_challenge_data blob challenge 0 []) signature = true := by
  rw [verify_signature] at hverified
  split at hverified
  · rename_i hlength
    rw [verify_data, if_pos hlength] at hverified
    cases hkey : rsa.import_key blob with
    | none => simp [hkey] at hverified
    | some key => exact ⟨key, rfl, by simpa only [hkey] using hverified⟩
  · cases hverified

end Verification

namespace SecureIdentProvider

variable {rsa : Rsa}

def has_keys (provider : SecureIdentProvider rsa) : Bool := provider._key.isSome

def keys (provider : SecureIdentProvider rsa) : Except Exc (KeyPair rsa) :=
  match provider._key with
  | none => .error (.SecureIdentError "SecureIdent keys are not initialized")
  | some keys => .ok keys

def public_blob (provider : SecureIdentProvider rsa) : Except Exc Bytes := do
  let keys ← provider.keys
  .ok keys.public_blob

def create_signature (provider : SecureIdentProvider rsa) (challenge ip_kind : Nat) (ip_bytes : Bytes) :
    Except Exc Bytes := do
  let keys ← provider.keys
  .ok (rsa.sign keys.key (build_challenge_data keys.public_blob challenge ip_kind ip_bytes))

def mark_verified (provider : SecureIdentProvider rsa) (user_hash : String) : SecureIdentProvider rsa :=
  { provider with _verified := provider._verified.set (strip_lower user_hash) true }

def evaluate (provider : SecureIdentProvider rsa) (user_hash : String) : SecureIdentInfo :=
  let uh := strip_lower user_hash
  let verified := (provider._verified.get uh).getD false
  { user_hash := uh
    state := if verified then .SIGNED_ID else .NOT_AVAILABLE
    verified := verified
    bonus_multiplier := if verified then 2 else 1
    detail := if verified then "secure ident verified" else "not verified" }

@[simp] theorem key_mark_verified (provider : SecureIdentProvider rsa) (user_hash : String) :
    (provider.mark_verified user_hash)._key = provider._key := rfl

/-- Marking one hash is the only way to verify it. -/
theorem verified_mark_verified_iff (provider : SecureIdentProvider rsa) (marked user_hash : String) :
    ((provider.mark_verified marked).evaluate user_hash).verified = true ↔
      strip_lower user_hash = strip_lower marked ∨ (provider.evaluate user_hash).verified = true := by
  by_cases hsame : strip_lower user_hash = strip_lower marked
  · simp [evaluate, mark_verified, hsame]
  · simp [evaluate, mark_verified, hsame, Dict.get_set_of_ne hsame]

end SecureIdentProvider

end amuled.security
