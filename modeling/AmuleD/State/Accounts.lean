import AmuleD.Runs
import AmuleD.Upload.Credits
import AmuleD.Walks

open amuled.upload

namespace amuled.accounts

/-- The tables of the clients: the byte counts, and how many hellos came. -/
structure Clients where
  client_credits : Ledger
  seen_clients : Dict String Nat

namespace Clients

def see_client (clients : Clients) (user_hash : String) : Except Exc Clients := do
  let normalized ← normalize_user_hash user_hash
  let hellos := (clients.seen_clients.get normalized).getD 0
  if hellos + 1 ≤ BIGINT_MAX then pure { clients with seen_clients := clients.seen_clients.set normalized (hellos + 1) }
  else throw .DatabaseError

def record_traffic (clients : Clients) (user_hash : String) (uploaded downloaded : Int) : Except Exc Clients := do
  let client_credits ← upload.record_traffic clients.client_credits user_hash uploaded downloaded
  let normalized ← normalize_user_hash user_hash
  let hellos := (clients.seen_clients.get normalized).getD 0
  pure ⟨client_credits, clients.seen_clients.set normalized hellos⟩

/-- The row of the client after the `UPDATE`, or `none` for a client without one. -/
def refund_traffic (clients : Clients) (user_hash : String) (uploaded downloaded : Int) :
    Except Exc (Option Credit × Clients) := do
  if uploaded < 0 ∨ downloaded < 0 then throw (.ValueError "uploaded/downloaded must be non-negative")
  let normalized ← normalize_user_hash user_hash
  match clients.client_credits.get normalized with
  | none => pure (none, clients)
  | some row =>
    let refunded : Credit :=
      ⟨if (row.uploaded : Int) - uploaded < 0 then 0 else row.uploaded - uploaded.toNat,
        if (row.downloaded : Int) - downloaded < 0 then 0 else row.downloaded - downloaded.toNat⟩
    pure (some refunded, { clients with client_credits := clients.client_credits.set normalized refunded })

end Clients

/-- The calls that change the tables of the clients. -/
inductive ClientCall where
  | see_client (user_hash : String)
  | record_traffic (user_hash : String) (uploaded downloaded : Int)
  | refund_traffic (user_hash : String) (uploaded downloaded : Int)

namespace ClientCall

def user_hash : ClientCall → String
  | see_client user_hash => user_hash
  | record_traffic user_hash _ _ => user_hash
  | refund_traffic user_hash _ _ => user_hash

/-- The tables after a call that returns. -/
def call (clients : Clients) : ClientCall → Except Exc Clients
  | see_client user_hash => clients.see_client user_hash
  | record_traffic user_hash uploaded downloaded => clients.record_traffic user_hash uploaded downloaded
  | refund_traffic user_hash uploaded downloaded => Prod.snd <$> clients.refund_traffic user_hash uploaded downloaded

/-- What a call adds to the served bytes of its client. -/
def served : ClientCall → Option ℤ
  | see_client _ => none
  | record_traffic _ uploaded _ => some uploaded
  | refund_traffic _ uploaded _ => some (-uploaded)

/-- What a call adds to the received bytes of its client. -/
def received : ClientCall → Option ℤ
  | see_client _ => none
  | record_traffic _ _ downloaded => some downloaded
  | refund_traffic _ _ downloaded => some (-downloaded)

def is_hello : ClientCall → Bool
  | see_client _ => true
  | _ => false

def is_record : ClientCall → Bool
  | record_traffic _ _ _ => true
  | _ => false

/-- The call is about the client of a row. -/
def of_user (user : String) (call : ClientCall) : Bool :=
  match normalize_user_hash call.user_hash with
  | .ok normalized => normalized = user
  | .error _ => false

end ClientCall

/-- The tables after a call, with the calls that returned so far. A call that raises changes nothing. -/
def called (state : Clients × List ClientCall) (call : ClientCall) : Clients × List ClientCall :=
  match call.call state.1 with
  | .ok clients => (clients, state.2 ++ [call])
  | .error _ => state

def after (calls : List ClientCall) : Clients × List ClientCall := calls.foldl called (⟨.empty, .empty⟩, [])

def clients_after (calls : List ClientCall) : Clients := (after calls).1

/-- The calls of a list that return. -/
def returned (calls : List ClientCall) : List ClientCall := (after calls).2

namespace Clients

/-- The byte counts of a client, which are zero without a row. -/
def credit (clients : Clients) (user : String) : Credit := (clients.client_credits.get user).getD ⟨0, 0⟩

def hellos (clients : Clients) (user : String) : Nat := (clients.seen_clients.get user).getD 0

end Clients

variable {clients next : Clients} {call : ClientCall} {user : String}

/-- The step of an amount that a call makes for a client. -/
def ClientCall.step (amount : ClientCall → Option ℤ) (user : String) (call : ClientCall) : Option ℤ :=
  if call.of_user user then amount call else none

/-- An amount after a step, where there is one. -/
def stepped (height : ℤ) (step : Option ℤ) : ℤ := step.elim height fun step => max 0 (height + step)

/-- What a call that returns does to the rows of a client. -/
structure Tallies (user : String) (call : ClientCall) (clients next : Clients) : Prop where
  uploaded : ((next.credit user).uploaded : ℤ) =
    stepped (clients.credit user).uploaded (call.step ClientCall.served user)
  downloaded : ((next.credit user).downloaded : ℤ) =
    stepped (clients.credit user).downloaded (call.step ClientCall.received user)
  hellos : next.hellos user = clients.hellos user + if call.of_user user ∧ call.is_hello then 1 else 0
  known : (next.client_credits.get user).isSome =
    ((clients.client_credits.get user).isSome || (call.of_user user && call.is_record))

theorem of_user_of_ok {normalized : String} (hhash : normalize_user_hash call.user_hash = .ok normalized) :
    call.of_user user = decide (normalized = user) := by
  rw [ClientCall.of_user, hhash]

theorem tallies_of_other (hother : call.of_user user = false)
    (hcredits : next.client_credits.get user = clients.client_credits.get user)
    (hseen : next.seen_clients.get user = clients.seen_clients.get user) : Tallies user call clients next where
  uploaded := by rw [Clients.credit, hcredits, ClientCall.step, hother]; rfl
  downloaded := by rw [Clients.credit, hcredits, ClientCall.step, hother]; rfl
  hellos := by rw [Clients.hellos, hseen, hother]; simp [Clients.hellos]
  known := by rw [hcredits, hother, Bool.false_and, Bool.or_false]

theorem tallies_see_client {user_hash : String} (hcall : clients.see_client user_hash = .ok next) :
    Tallies user (.see_client user_hash) clients next := by
  obtain ⟨normalized, hhash, hcall⟩ := bind_eq_ok_iff.mp hcall
  have hof : (ClientCall.see_client user_hash).of_user user = decide (normalized = user) := of_user_of_ok hhash
  simp only at hcall
  split at hcall
  · cases hcall
    by_cases huser : normalized = user
    · subst huser
      refine ⟨?_, ?_, ?_, ?_⟩ <;>
        simp [ClientCall.step, hof, ClientCall.served, ClientCall.received, ClientCall.is_hello, ClientCall.is_record,
          stepped, Clients.credit, Clients.hellos]
    · exact tallies_of_other (by simpa [hof] using huser) rfl (Dict.get_set_of_ne (Ne.symm huser) _ _)
  · cases hcall

theorem exists_of_record_traffic {ledger ledger' : Ledger} {user_hash : String} {uploaded downloaded : Int}
    (hcall : upload.record_traffic ledger user_hash uploaded downloaded = .ok ledger') :
    ∃ normalized, normalize_user_hash user_hash = .ok normalized ∧ 0 ≤ uploaded ∧ 0 ≤ downloaded ∧
      ledger' = ledger.set normalized ⟨((ledger.get normalized).getD ⟨0, 0⟩).uploaded + uploaded.toNat,
        ((ledger.get normalized).getD ⟨0, 0⟩).downloaded + downloaded.toNat⟩ := by
  unfold upload.record_traffic at hcall
  by_cases hnegative : uploaded < 0 ∨ downloaded < 0
  · rw [if_pos hnegative] at hcall
    cases hcall
  rw [if_neg hnegative] at hcall
  obtain ⟨normalized, hhash, hcall⟩ := bind_eq_ok_iff.mp hcall
  obtain ⟨row, hrow, hset⟩ := bind_eq_ok_iff.mp hcall
  cases hset
  simp only [accumulate] at hrow
  split at hrow
  · cases hrow
    exact ⟨normalized, hhash, by omega, by omega, rfl⟩
  · cases hrow

theorem tallies_record_traffic {user_hash : String} {uploaded downloaded : Int}
    (hcall : clients.record_traffic user_hash uploaded downloaded = .ok next) :
    Tallies user (.record_traffic user_hash uploaded downloaded) clients next := by
  obtain ⟨client_credits, hledger, hcall⟩ := bind_eq_ok_iff.mp hcall
  obtain ⟨normalized, hhash, hcall⟩ := bind_eq_ok_iff.mp hcall
  obtain ⟨same, hsame, hup, hdown, hset⟩ := exists_of_record_traffic hledger
  cases hhash.symm.trans hsame
  cases hcall
  have hof : (ClientCall.record_traffic user_hash uploaded downloaded).of_user user = decide (normalized = user) :=
    of_user_of_ok hhash
  by_cases huser : normalized = user
  · subst huser
    refine ⟨?_, ?_, ?_, ?_⟩ <;>
      simp only [ClientCall.step, hof, ClientCall.served, ClientCall.received, ClientCall.is_hello,
        ClientCall.is_record, stepped, Clients.credit, Clients.hellos, hset, Dict.get_set_self, decide_true, if_true, Option.getD_some,
        Option.elim_some]
    · omega
    · omega
    · simp
    · simp
  · subst hset
    exact tallies_of_other (by simpa [hof] using huser) (Dict.get_set_of_ne (Ne.symm huser) _ _)
      (Dict.get_set_of_ne (Ne.symm huser) _ _)

theorem tallies_refund_traffic {user_hash : String} {uploaded downloaded : Int} {row : Option Credit}
    (hcall : clients.refund_traffic user_hash uploaded downloaded = .ok (row, next)) :
    Tallies user (.refund_traffic user_hash uploaded downloaded) clients next := by
  unfold Clients.refund_traffic at hcall
  by_cases hnegative : uploaded < 0 ∨ downloaded < 0
  · rw [if_pos hnegative] at hcall
    cases hcall
  rw [if_neg hnegative] at hcall
  obtain ⟨normalized, hhash, hcall⟩ := bind_eq_ok_iff.mp hcall
  have hof : (ClientCall.refund_traffic user_hash uploaded downloaded).of_user user = decide (normalized = user) :=
    of_user_of_ok hhash
  cases hrow : clients.client_credits.get normalized with
  | none =>
    rw [hrow] at hcall
    cases hcall
    by_cases huser : normalized = user
    · subst huser
      refine ⟨?_, ?_, ?_, ?_⟩ <;>
        simp only [ClientCall.step, hof, ClientCall.served, ClientCall.received, ClientCall.is_hello,
          ClientCall.is_record, stepped, Clients.credit, Clients.hellos, hrow, decide_true, if_true, Option.getD_none, Option.elim_some]
      · omega
      · omega
      · simp
      · simp
    · exact tallies_of_other (by simpa [hof] using huser) rfl rfl
  | some there =>
    simp only [hrow] at hcall
    cases hcall
    by_cases huser : normalized = user
    · subst huser
      refine ⟨?_, ?_, ?_, ?_⟩ <;>
        simp only [ClientCall.step, hof, ClientCall.served, ClientCall.received, ClientCall.is_hello,
          ClientCall.is_record, stepped, Clients.credit, Clients.hellos, hrow, Dict.get_set_self, decide_true, if_true, Option.getD_some,
          Option.elim_some]
      · split <;> omega
      · split <;> omega
      · simp
      · simp
    · exact tallies_of_other (by simpa [hof] using huser) (Dict.get_set_of_ne (Ne.symm huser) _ _) rfl

theorem tallies_call (hcall : call.call clients = .ok next) : Tallies user call clients next := by
  cases call with
  | see_client user_hash => exact tallies_see_client hcall
  | record_traffic user_hash uploaded downloaded => exact tallies_record_traffic hcall
  | refund_traffic user_hash uploaded downloaded =>
    rw [ClientCall.call] at hcall
    cases hrefund : clients.refund_traffic user_hash uploaded downloaded with
    | error e =>
      rw [hrefund] at hcall
      cases hcall
    | ok result =>
      rw [hrefund] at hcall
      cases hcall
      exact tallies_refund_traffic hrefund

/-- The rows of a client say what the calls that returned come to. -/
structure Accounted (user : String) (state : Clients × List ClientCall) : Prop where
  uploaded : ((state.1.credit user).uploaded : ℤ) =
    walks.level (state.2.filterMap (ClientCall.step ClientCall.served user))
  downloaded : ((state.1.credit user).downloaded : ℤ) =
    walks.level (state.2.filterMap (ClientCall.step ClientCall.received user))
  hellos : state.1.hellos user = state.2.countP fun call => call.of_user user && call.is_hello
  known : (state.1.client_credits.get user).isSome = state.2.any fun call => call.of_user user && call.is_record

theorem level_filterMap_concat (amount : ClientCall → Option ℤ) (history : List ClientCall) (call : ClientCall) :
    walks.level ((history ++ [call]).filterMap amount) =
      stepped (walks.level (history.filterMap amount)) (amount call) := by
  rw [List.filterMap_append]
  cases hamount : amount call with
  | none => simp [stepped, hamount]
  | some step =>
    have hone : [call].filterMap amount = [step] := by simp [hamount]
    rw [hone, walks.level_concat]
    rfl

theorem Accounted.concat {history : List ClientCall} (h : Accounted user (clients, history))
    (htallies : Tallies user call clients next) : Accounted user (next, history ++ [call]) where
  uploaded := by rw [level_filterMap_concat, ← h.uploaded, htallies.uploaded]
  downloaded := by rw [level_filterMap_concat, ← h.downloaded, htallies.downloaded]
  hellos := by
    rw [htallies.hellos, h.hellos, List.countP_append, List.countP_singleton]
    simp only [Bool.and_eq_true]
  known := by
    rw [htallies.known, h.known, List.any_append]
    simp

/-- After any calls about any clients, the counts of each client are the most that the last amounts of its own calls
that returned add up to, a record for and a refund against it; its hellos are counted, and it has a credit row exactly
if something was recorded for it. -/
theorem client_rows_by_history (calls : List ClientCall) (user : String) :
    IsGreatest {count : ℤ | ∃ later, later <:+ (returned calls).filterMap (ClientCall.step ClientCall.served user) ∧
        later.sum = count} ((clients_after calls).credit user).uploaded ∧
      IsGreatest {count : ℤ | ∃ later, later <:+ (returned calls).filterMap (ClientCall.step ClientCall.received user) ∧
        later.sum = count} ((clients_after calls).credit user).downloaded ∧
      (clients_after calls).hellos user = (returned calls).countP (fun call => call.of_user user && call.is_hello) ∧
      (((clients_after calls).client_credits.get user).isSome ↔
        ∃ call ∈ returned calls, call.of_user user ∧ call.is_record) := by
  have haccounted : Accounted user (after calls) := by
    refine runs.invariant ?_ ?_ calls
    · exact ⟨rfl, rfl, rfl, rfl⟩
    · intro state call hstate
      rw [called]
      cases hcall : call.call state.1 with
      | error e => exact hstate
      | ok next => exact hstate.concat (tallies_call hcall)
  obtain ⟨huploaded, hdownloaded, hhellos, hknown⟩ := haccounted
  refine ⟨?_, ?_, hhellos, ?_⟩
  · rw [clients_after, huploaded]
    exact walks.isGreatest_level _
  · rw [clients_after, hdownloaded]
    exact walks.isGreatest_level _
  · rw [clients_after, hknown, List.any_eq_true]
    simp only [Bool.and_eq_true]
    rfl

end amuled.accounts
