import Mathlib.Algebra.Order.Field.Rat
import Mathlib.Algebra.Order.Monoid.Unbundled.WithTop
import Mathlib.Data.Prod.Lex
import AmuleD.Basic
import AmuleD.Sorting.Stable

open sorting

namespace amuled.upload

/-- A waiting client. The bonus is a double that is never NaN: the queue takes it
through `max(0.0, …)`. -/
structure UploadClient where
  user_hash : String
  client_id : Nat
  client_port : Nat
  nickname : String
  requested_hash : String
  file_priority : Int
  credit_bonus : WithTop ℚ
  enqueued_at : ℚ
  rank : Nat
  deriving DecidableEq

/-- The key of both tables: the hashes of the user and of the file. -/
abbrev Key := String × String

namespace UploadClient

def key (client : UploadClient) : Key := (client.user_hash, client.requested_hash)

/-- The sort key of `_recompute`. -/
def rank_key (client : UploadClient) : ℤ ×ₗ (WithTop ℚ)ᵒᵈ ×ₗ ℚ :=
  toLex (-client.file_priority, toLex (OrderDual.toDual client.credit_bonus, client.enqueued_at))

/-- The sort key of `next_for_slot` and of `waiting`. -/
def arrival_key (client : UploadClient) : ℤ ×ₗ ℚ :=
  toLex (-client.file_priority, client.enqueued_at)

def with_rank (client : UploadClient) (rank : Nat) : UploadClient := { client with rank := rank }

end UploadClient

/-- What the credit callback answers for each waiting client while the ranks are
recomputed. There is no answer where it raises, or where the queue has none. -/
abbrev Credits := Key → Option (WithTop ℚ)

/-- The clock and the credit callback as one operation reads them; the callback is
asked anew in each `_recompute` of the operation. -/
structure Moment where
  now : ℚ
  credits : Nat → Credits

/-- The upload queue. The waiting clients are listed as the dictionary holds
them, in the order of their insertion. -/
structure UploadQueue where
  max_slots : Int
  slot_ttl : ℚ
  _waiting : List UploadClient
  _slots : List (Key × ℚ)

structure Snapshot where
  max_slots : Int
  active_slots : Nat
  waiting : Nat
  queue : List UploadClient

/-- Python's `str.isspace`, for one character. -/
def isspace (c : Char) : Bool :=
  (0x09 ≤ c.toNat && c.toNat ≤ 0x0D) || (0x1C ≤ c.toNat && c.toNat ≤ 0x20)
    || (0x2000 ≤ c.toNat && c.toNat ≤ 0x200A)
    || [0x85, 0xA0, 0x1680, 0x2028, 0x2029, 0x202F, 0x205F, 0x3000].contains c.toNat

def strip (text : List Char) : List Char :=
  (((text.dropWhile isspace).reverse).dropWhile isspace).reverse

def isHexDigit (c : Char) : Bool := c.isDigit || ('a' ≤ c && c ≤ 'f') || ('A' ≤ c && c ≤ 'F')

/-- `_normalize_hash`. Python's `lower` changes characters outside ASCII too, but
never into a hexadecimal digit, so that such a text is refused either way. -/
def normalize_hash (file_hash : String) : Except Exc String :=
  let normalized := (strip file_hash.toList).map Char.toLower
  if normalized.length = 32 ∧ normalized.all isHexDigit then
    pure (String.ofList normalized)
  else
    throw (.UploadQueueError "file hash must contain exactly 32 hexadecimal digits")

/-- Every method of the queue first normalizes the two hashes it is given. -/
def normalize_key (user_hash requested_hash : String) : Except Exc Key := do
  let normalized_user ← normalize_hash user_hash
  let normalized_file ← normalize_hash requested_hash
  pure (normalized_user, normalized_file)

def refresh_credit (credits : Credits) (client : UploadClient) : UploadClient :=
  match credits client.key with
  | none => client
  | some bonus => { client with credit_bonus := max 0 bonus }

/-- The clients with their positions in the sorted list, from one, as ranks. -/
def assign_ranks (clients : List UploadClient) : List UploadClient :=
  let ordered := sorted UploadClient.rank_key clients
  clients.map fun client => client.with_rank (ordered.idxOf client + 1)

namespace UploadQueue

/-- `UploadQueue.__init__`. -/
def new (max_slots : Int) (slot_ttl : ℚ) : UploadQueue := ⟨max_slots, slot_ttl, [], []⟩

def is_waiting (queue : UploadQueue) (key : Key) : Prop := key ∈ queue._waiting.map UploadClient.key

def holds_slot (queue : UploadQueue) (key : Key) : Prop := key ∈ queue._slots.map Prod.fst

instance (queue : UploadQueue) (key : Key) : Decidable (queue.is_waiting key) :=
  inferInstanceAs (Decidable (_ ∈ _))

instance (queue : UploadQueue) (key : Key) : Decidable (queue.holds_slot key) :=
  inferInstanceAs (Decidable (_ ∈ _))

/-- `self._waiting.get(key)`. -/
def get_waiting (queue : UploadQueue) (key : Key) : Option UploadClient :=
  queue._waiting.find? fun client => client.key = key

/-- `self._waiting.pop(key, None)`. -/
def pop_waiting (queue : UploadQueue) (key : Key) : UploadQueue :=
  { queue with _waiting := queue._waiting.filter fun client => client.key ≠ key }

/-- `del self._slots[key]`. -/
def del_slot (queue : UploadQueue) (key : Key) : UploadQueue :=
  { queue with _slots := queue._slots.filter fun slot => slot.1 ≠ key }

def recompute (queue : UploadQueue) (credits : Credits) : UploadQueue :=
  { queue with _waiting := assign_ranks (queue._waiting.map (refresh_credit credits)) }

/-- The rank that a lookup of the key finds, or the default. -/
def rank_or_zero (queue : UploadQueue) (key : Key) : Nat :=
  ((queue.get_waiting key).map UploadClient.rank).getD 0

/-- The client that `enqueue` makes. -/
def newcomer (now : ℚ) (key : Key) (client_id client_port : Nat) (nickname : String)
    (file_priority : Int) : UploadClient where
  user_hash := key.1
  client_id := client_id
  client_port := client_port
  nickname := nickname
  requested_hash := key.2
  file_priority := file_priority
  credit_bonus := 1
  enqueued_at := now
  rank := 0

def enqueue (queue : UploadQueue) (moment : Moment) (user_hash : String)
    (client_id client_port : Nat) (nickname requested_hash : String) (file_priority : Int) :
    Except Exc (Nat × UploadQueue) := do
  let key ← normalize_key user_hash requested_hash
  if queue.is_waiting key ∨ queue.holds_slot key then
    let recomputed := queue.recompute (moment.credits 0)
    match recomputed.get_waiting key with
    | some client => pure (client.rank, recomputed)
    | none =>
      let recomputed := recomputed.recompute (moment.credits 1)
      pure (recomputed.rank_or_zero key, recomputed)
  else
    let client := newcomer moment.now key client_id client_port nickname file_priority
    let admitted := { queue with _waiting := queue._waiting ++ [client] }
    let recomputed := admitted.recompute (moment.credits 0)
    pure (recomputed.rank_or_zero key, recomputed)

def rank_of (queue : UploadQueue) (user_hash requested_hash : String) :
    Except Exc (Option Nat) := do
  let key ← normalize_key user_hash requested_hash
  pure ((queue.get_waiting key).map UploadClient.rank)

def waiting (queue : UploadQueue) : List UploadClient :=
  sorted UploadClient.arrival_key queue._waiting

def next_for_slot (queue : UploadQueue) : Option UploadClient :=
  if queue.max_slots ≤ queue._slots.length then none
  else (sorted UploadClient.arrival_key queue._waiting).head?

def grant_slot (queue : UploadQueue) (moment : Moment) (user_hash requested_hash : String) :
    Except Exc UploadQueue := do
  let key ← normalize_key user_hash requested_hash
  if queue.holds_slot key then
    throw (.UploadQueueError
      s!"slot already granted: user_hash={key.1}, requested_hash={key.2}")
  if queue.max_slots ≤ queue._slots.length then
    throw (.UploadQueueError
      s!"no free upload slots: active={queue._slots.length}, max={queue.max_slots}")
  if (queue.next_for_slot.map UploadClient.key) ≠ some key then
    throw (.UploadQueueError
      s!"client is not at head of queue or no free slot: user_hash={key.1}, requested_hash={key.2}")
  let granted := { queue with _slots := queue._slots ++ [(key, moment.now)] }
  pure ((granted.pop_waiting key).recompute (moment.credits 0))

def release_slot (queue : UploadQueue) (user_hash requested_hash : String) :
    Except Exc (Bool × UploadQueue) := do
  let key ← normalize_key user_hash requested_hash
  if queue.holds_slot key then pure (true, queue.del_slot key) else pure (false, queue)

def is_active (queue : UploadQueue) (user_hash requested_hash : String) : Except Exc Bool := do
  let key ← normalize_key user_hash requested_hash
  pure (decide (queue.holds_slot key))

def expired_slots (queue : UploadQueue) (now : ℚ) : List Key :=
  (queue._slots.filter fun slot => queue.slot_ttl ≤ now - slot.2).map Prod.fst

def cancel (queue : UploadQueue) (moment : Moment) (user_hash requested_hash : String) :
    Except Exc (Bool × UploadQueue) := do
  let key ← normalize_key user_hash requested_hash
  if queue.is_waiting key ∨ queue.holds_slot key then
    pure (true, ((queue.pop_waiting key).del_slot key).recompute (moment.credits 0))
  else
    pure (false, queue)

def snapshot (queue : UploadQueue) : Snapshot where
  max_slots := queue.max_slots
  active_slots := queue._slots.length
  waiting := queue.waiting.length
  queue := queue.waiting

end UploadQueue

/-- A call of one of the queue's methods. -/
inductive Operation where
  | enqueue (user_hash : String) (client_id client_port : Nat) (nickname requested_hash : String)
      (file_priority : Int)
  | grant_slot (user_hash requested_hash : String)
  | release_slot (user_hash requested_hash : String)
  | cancel (user_hash requested_hash : String)
  | next_for_slot
  | rank_of (user_hash requested_hash : String)

/-- The queue after an operation, which leaves it as it is when it raises. -/
def UploadQueue.after (queue : UploadQueue) (moment : Moment) : Operation → UploadQueue
  | .enqueue user_hash client_id client_port nickname requested_hash file_priority =>
    match queue.enqueue moment user_hash client_id client_port nickname requested_hash
        file_priority with
    | .ok (_, queue') => queue'
    | .error _ => queue
  | .grant_slot user_hash requested_hash =>
    match queue.grant_slot moment user_hash requested_hash with
    | .ok queue' => queue'
    | .error _ => queue
  | .release_slot user_hash requested_hash =>
    match queue.release_slot user_hash requested_hash with
    | .ok (_, queue') => queue'
    | .error _ => queue
  | .cancel user_hash requested_hash =>
    match queue.cancel moment user_hash requested_hash with
    | .ok (_, queue') => queue'
    | .error _ => queue
  | .next_for_slot => queue
  | .rank_of _ _ => queue

end amuled.upload
