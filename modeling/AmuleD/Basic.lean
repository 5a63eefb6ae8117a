import Mathlib.Algebra.Order.Ring.Int
import Mathlib.Data.List.Forall2

namespace amuled

/-- Python's `bytes`. -/
abbrev Bytes := List UInt8

/-- The exception classes the modelled code raises or lets through. The
classes the program defines carry the message it formats; the built-in ones
carry none, since no caller reads it. `NonTermination` stands for a loop or a
recursion that never returns. -/
inductive Exc where
  | AichError (message : String)
  | CodecError (message : String)
  | DownloadQueueError (message : String)
  | GlobalUdpSearchError (message : String)
  | KadPacketError (message : String)
  | KadSearchError (message : String)
  | ListenerError (message : String)
  | NattError (message : String)
  | ObfuscationError (message : String)
  | PacketError (message : String)
  | PartFileError (message : String)
  | PeerCodecError (message : String)
  | PeerSessionError (message : String)
  | ProtocolError (message : String)
  | PublishError (message : String)
  | RuntimeError (message : String)
  | SecureIdentError (message : String)
  | ServerSessionError (message : String)
  | TagError (message : String)
  | UdpObfuscationError (message : String)
  | UploadEngineError (message : String)
  | UploadQueueError (message : String)
  | ValueError (message : String)
  | AttributeError
  | DatabaseError
  | IndexError
  | OSError
  | RecursionError
  | StructError
  | TypeError
  | UnboundLocalError
  | NonTermination
  deriving DecidableEq, Repr

/-- A hash function with digests of a fixed width: `hashlib.sha1` or
PyCryptodome's MD4, of which nothing else is assumed. -/
structure HashFn (width : Nat) where
  digest : Bytes → Bytes
  length_digest : ∀ data, (digest data).length = width

instance (width : Nat) : CoeFun (HashFn width) (fun _ => Bytes → Bytes) := ⟨HashFn.digest⟩

@[simp] theorem HashFn.length_apply {width : Nat} (hash : HashFn width) (data : Bytes) :
    (hash data).length = width := hash.length_digest data

/-- A hash whose digests are all zero. -/
def zeroHash (width : Nat) : HashFn width := ⟨fun _ => List.replicate width 0, by simp⟩

/-- The ED2K part size. -/
def PARTSIZE : Nat := 9728000

theorem partSize_pos : 0 < PARTSIZE := by decide

/-- The AICH block size. It does not divide `PARTSIZE`: a part holds 52 whole
blocks and a short one. -/
def BLOCKSIZE : Nat := 184320

/-- Python's `format(value, '#x')`. -/
def hex (value : Nat) : String := "0x" ++ String.ofList (Nat.toDigits 16 value)

/-- Python's `format(value, '0{width}X')` after `0x`. -/
def hex_upper (width value : Nat) : String :=
  "0x" ++ String.ofList (((Nat.toDigits 16 value).map Char.toUpper).leftpad width '0')

/-- Python's `raw.hex().lower()`. -/
def hex_lower (raw : Bytes) : String :=
  String.ofList (raw.flatMap fun byte => [Nat.digitChar (byte.toNat / 16), Nat.digitChar (byte.toNat % 16)])

theorem bind_eq_ok_iff {α β : Type} {x : Except Exc α} {f : α → Except Exc β} {y : β} :
    (x >>= f) = .ok y ↔ ∃ a, x = .ok a ∧ f a = .ok y := by
  cases x <;> simp [bind, Except.bind]

@[simp] theorem ok_bind {α β : Type} (a : α) (f : α → Except Exc β) :
    ((.ok a : Except Exc α) >>= f) = f a := rfl

@[simp] theorem error_bind {α β : Type} (e : Exc) (f : α → Except Exc β) :
    ((.error e : Except Exc α) >>= f) = .error e := rfl

@[simp] theorem throw_eq_error {α : Type} (e : Exc) :
    (throw e : Except Exc α) = .error e := rfl

@[simp] theorem pure_eq_ok {α : Type} (a : α) : (pure a : Except Exc α) = .ok a := rfl

/-- A list comprehension succeeds where each of its elements does. -/
theorem mapM_eq_ok_iff {α β : Type} {f : α → Except Exc β} {xs : List α} {ys : List β} :
    xs.mapM f = .ok ys ↔ List.Forall₂ (fun x y => f x = .ok y) xs ys := by
  induction xs generalizing ys with
  | nil =>
    rw [List.mapM_nil, List.forall₂_nil_left_iff, pure_eq_ok, Except.ok.injEq]
    exact eq_comm
  | cons x xs ih =>
    rw [List.mapM_cons, List.forall₂_cons_left_iff]
    constructor
    · intro hmapped
      obtain ⟨y, hy, hafter⟩ := bind_eq_ok_iff.mp hmapped
      obtain ⟨rest, hrest, hys⟩ := bind_eq_ok_iff.mp hafter
      cases hys
      exact ⟨y, rest, hy, ih.mp hrest, rfl⟩
    · rintro ⟨y, rest, hy, hrest, rfl⟩
      rw [hy, ok_bind, ih.mpr hrest, ok_bind, pure_eq_ok]

theorem exists_mapM_iff {α β : Type} {f : α → Except Exc β} {xs : List α} :
    (∃ ys, xs.mapM f = .ok ys) ↔ ∀ x ∈ xs, ∃ y, f x = .ok y := by
  simp only [mapM_eq_ok_iff]
  induction xs with
  | nil => simp
  | cons x xs ih =>
    rw [List.forall_mem_cons, ← ih]
    constructor
    · rintro ⟨ys, _ | ⟨hy, hrest⟩⟩
      exact ⟨⟨_, hy⟩, _, hrest⟩
    · rintro ⟨⟨y, hy⟩, rest, hrest⟩
      exact ⟨y :: rest, .cons hy hrest⟩

/-- Adjacent slices of one list join to the slice that covers both. -/
theorem extract_append_extract {α : Type} (data : List α) {start middle stop : Nat}
    (hfirst : start ≤ middle) (hlast : middle ≤ stop) :
    data.extract start middle ++ data.extract middle stop = data.extract start stop := by
  simp only [List.extract_eq_take_drop]
  have hsplit : stop - start = (middle - start) + (stop - middle) := by omega
  rw [hsplit, List.take_add, List.drop_drop]
  congr 3
  omega

/-- A slice of a slice is a slice of the list. -/
theorem extract_extract {α : Type} (data : List α) {start stop first last : Nat}
    (hinside : last ≤ stop - start) :
    (data.extract start stop).extract first last = data.extract (start + first) (start + last) := by
  simp only [List.extract_eq_take_drop, List.drop_take, List.take_take, List.drop_drop]
  congr 1
  omega

/-- The slice of a list in which a piece stands. -/
theorem extract_piece {α : Type} {front piece rest : List α} {start stop : Nat} (hstart : front.length = start)
    (hstop : start + piece.length = stop) : (front ++ (piece ++ rest)).extract start stop = piece := by
  subst hstart hstop
  rw [List.extract_eq_take_drop, List.drop_left, Nat.add_sub_cancel_left, List.take_left]

theorem length_extract_of_le {α : Type} {data : List α} {start stop : Nat}
    (hbound : stop ≤ data.length) : (data.extract start stop).length = stop - start := by
  simp only [List.extract_eq_take_drop, List.length_take, List.length_drop]
  omega

end amuled
