import AmuleD.Basic
import AmuleD.Dict
import AmuleD.Runs

namespace amuled.peer

/-- The future of a reservation, with the connection that is its result. -/
inductive Reservation where
  | pending
  | cancelled
  | result (connection : Nat)
  deriving DecidableEq

/-- The task in `expect_connection_from`: it waits, or its time is up or it was cancelled and the exception is
thrown at its `await` when it runs again, or it has left. -/
inductive Caller where
  | waiting
  | interrupted
  | returned (connection : Nat)
  | raised
  deriving DecidableEq

structure Waiter where
  ip : String
  future : Reservation
  caller : Caller
  deriving DecidableEq

/-- What becomes of an accepted connection. -/
inductive Fate where
  | handed (waiter : Nat)
  | session
  deriving DecidableEq

/-- The reservations of an `IncomingPeerServer`. Waiters are numbered as they come, and so are the connections
that are accepted, which are those that no limit has refused. -/
structure DialBackServer where
  _expected : Dict String (List Nat)
  waiters : Dict Nat Waiter
  opened : Nat
  fates : List Fate

/-- What a running event loop does next to the reservations: a task calls `expect_connection_from`, the time of
one is up or it is cancelled, one that is ready runs on, or a connection is accepted. -/
inductive DialBackEvent where
  | expect (ip : String)
  | interrupt (waiter : Nat)
  | resume (waiter : Nat)
  | accept (ip : String)

namespace DialBackServer

def new : DialBackServer := ⟨.empty, .empty, 0, []⟩

/-- The waiters that are reserved for an address. -/
def reservedFor (self : DialBackServer) (ip : String) : List Nat := (self._expected.get ip).getD []

/-- An address without waiters has no entry. -/
def keep (self : DialBackServer) (ip : String) (waiters : List Nat) : Dict String (List Nat) :=
  if waiters = [] then self._expected.erase ip else self._expected.set ip waiters

/-- The start of `expect_connection_from`, up to its `await`. -/
def expect_connection_from (self : DialBackServer) (ip : String) : DialBackServer where
  _expected := self._expected.set ip (self.reservedFor ip ++ [self.opened])
  waiters := self.waiters.set self.opened ⟨ip, .pending, .waiting⟩
  opened := self.opened + 1
  fates := self.fates

/-- `Future.cancel`. -/
def cancel : Reservation → Reservation
  | .pending => .cancelled
  | future => future

/-- `wait_for` cancels the task when the time is up, as its canceller does: the future it waits for is
cancelled if it can be, and the task raises when it runs again, even if the future has a result by now. -/
def interrupt (self : DialBackServer) (id : Nat) : DialBackServer :=
  match self.waiters.get id with
  | none => self
  | some waiter =>
    if waiter.caller = .waiting then
      { self with waiters := self.waiters.set id { waiter with future := cancel waiter.future, caller := .interrupted } }
    else self

/-- The caller leaves through the `finally` clause. -/
def leave (self : DialBackServer) (id : Nat) (waiter : Waiter) (caller : Caller) : DialBackServer :=
  { self with
    _expected := self.keep waiter.ip ((self.reservedFor waiter.ip).erase id)
    waiters := self.waiters.set id { waiter with caller } }

/-- The event loop runs a caller whose future is done, or that was interrupted. -/
def resume (self : DialBackServer) (id : Nat) : DialBackServer :=
  match self.waiters.get id with
  | none => self
  | some waiter =>
    match waiter.caller, waiter.future with
    | .waiting, .result connection => self.leave id waiter (.returned connection)
    | .interrupted, _ => self.leave id waiter .raised
    | _, _ => self

/-- The waiter that `_on_client` takes gets the connection unless its future is done. -/
def hand_over (self : DialBackServer) (id : Nat) (waiter : Waiter) : DialBackServer :=
  if waiter.future = .pending then
    { self with
      waiters := self.waiters.set id { waiter with future := .result self.fates.length }
      fates := self.fates ++ [.handed id] }
  else { self with fates := self.fates ++ [.session] }

/-- `_on_client`, once a connection has passed the limits. -/
def on_client (self : DialBackServer) (ip : String) : DialBackServer :=
  let popped := { self with _expected := self.keep ip (self.reservedFor ip).tail }
  match (self.reservedFor ip).head? with
  | none => { popped with fates := popped.fates ++ [.session] }
  | some id =>
    match self.waiters.get id with
    | none => { popped with fates := popped.fates ++ [.session] }
    | some waiter => popped.hand_over id waiter

def step (self : DialBackServer) : DialBackEvent → DialBackServer
  | .expect ip => self.expect_connection_from ip
  | .interrupt id => self.interrupt id
  | .resume id => self.resume id
  | .accept ip => self.on_client ip

/-- The server after a sequence of events. -/
def after (events : List DialBackEvent) : DialBackServer := events.foldl step new

/-- A waiter that has not been handed a connection and whose time is not up. -/
def Live (self : DialBackServer) (ip : String) (id : Nat) : Prop :=
  ∃ waiter, self.waiters.get id = some waiter ∧ waiter.ip = ip ∧ waiter.future = .pending

/-- A connection goes to the oldest live waiter of its address, and to none only where there is none. -/
def Due (self : DialBackServer) (ip : String) : Fate → Prop
  | .handed id => self.Live ip id ∧ ∀ other, self.Live ip other → id ≤ other
  | .session => ∀ id, ¬ self.Live ip id

/-- Each connection that was handed over is the result of one waiter and of no other, and the task of that
waiter has it or will have it. -/
structure Delivered (acceptor : DialBackServer) : Prop where
  handed : ∀ connection id, acceptor.fates[connection]? = some (.handed id) ↔
    ∃ waiter, acceptor.waiters.get id = some waiter ∧ waiter.future = .result connection
  received : ∀ id waiter connection, acceptor.waiters.get id = some waiter → waiter.future = .result connection →
    waiter.caller = .waiting ∨ waiter.caller = .returned connection

/-- What holds of the reservations throughout: each list has waiters for its address in the order in which they
came, every live one among them and none that was handed a connection. -/
structure Consistent (acceptor : DialBackServer) : Prop where
  ordered : ∀ ip, (acceptor.reservedFor ip).Pairwise (· < ·)
  reserved : ∀ ip id, id ∈ acceptor.reservedFor ip →
    ∃ waiter, acceptor.waiters.get id = some waiter ∧ waiter.ip = ip ∧ ∀ connection, waiter.future ≠ .result connection
  live : ∀ ip id, acceptor.Live ip id → id ∈ acceptor.reservedFor ip
  fresh : ∀ id, acceptor.opened ≤ id → acceptor.waiters.get id = none
  handed : ∀ connection id, acceptor.fates[connection]? = some (.handed id) ↔
    ∃ waiter, acceptor.waiters.get id = some waiter ∧ waiter.future = .result connection
  settled : ∀ id waiter, acceptor.waiters.get id = some waiter → waiter.caller ≠ .waiting → waiter.future ≠ .pending

theorem reservedFor_of_expected {self other : DialBackServer} {ip : String} {waiters : List Nat}
    (hexpected : other._expected = self.keep ip waiters) (address : String) :
    other.reservedFor address = if address = ip then waiters else self.reservedFor address := by
  rw [reservedFor, hexpected, keep]
  by_cases haddress : address = ip
  · subst haddress
    by_cases hnone : waiters = []
    · rw [if_pos hnone, Dict.get_erase_self, if_pos rfl, hnone, Option.getD_none]
    · rw [if_neg hnone, Dict.get_set_self, if_pos rfl, Option.getD_some]
  · rw [if_neg haddress, reservedFor]
    split
    · rw [Dict.get_erase_of_ne haddress]
    · rw [Dict.get_set_of_ne haddress]

theorem reservedFor_expect (self : DialBackServer) (ip address : String) :
    (self.expect_connection_from ip).reservedFor address =
      if address = ip then self.reservedFor ip ++ [self.opened] else self.reservedFor address := by
  rw [reservedFor, expect_connection_from]
  by_cases haddress : address = ip
  · subst haddress
    rw [Dict.get_set_self, if_pos rfl, Option.getD_some]
  · rw [Dict.get_set_of_ne haddress, if_neg haddress, reservedFor]

theorem Consistent.new : DialBackServer.new.Consistent where
  ordered ip := List.Pairwise.nil
  reserved ip id hid := by cases hid
  live ip id hlive := by
    obtain ⟨waiter, hget, _⟩ := hlive
    cases hget
  fresh id _ := rfl
  handed connection id := by simp [DialBackServer.new]
  settled id waiter hget := by cases hget

theorem Consistent.expect {self : DialBackServer} (h : self.Consistent) (ip : String) :
    (self.expect_connection_from ip).Consistent := by
  have hnew : self.waiters.get self.opened = none := h.fresh self.opened le_rfl
  have hbefore : ∀ address id, id ∈ self.reservedFor address → id < self.opened := by
    intro address id hid
    obtain ⟨waiter, hget, _⟩ := h.reserved address id hid
    by_contra hlate
    rw [h.fresh id (Nat.not_lt.mp hlate)] at hget
    cases hget
  constructor
  · intro address
    rw [reservedFor_expect]
    split
    · rw [List.pairwise_append]
      refine ⟨h.ordered ip, List.pairwise_singleton _ _, ?_⟩
      intro id hid other hother
      rw [List.mem_singleton.mp hother]
      exact hbefore ip id hid
    · exact h.ordered address
  · intro address id hid
    rw [reservedFor_expect] at hid
    simp only [expect_connection_from]
    split at hid
    · rename_i haddress
      rcases List.mem_append.mp hid with hold | hlast
      · obtain ⟨waiter, hget, hwaiter⟩ := h.reserved ip id hold
        refine ⟨waiter, ?_, haddress ▸ hwaiter⟩
        rw [Dict.get_set_of_ne (Nat.ne_of_lt (hbefore ip id hold))]
        exact hget
      · rw [List.mem_singleton.mp hlast, Dict.get_set_self]
        exact ⟨_, rfl, haddress.symm, by simp⟩
    · obtain ⟨waiter, hget, hwaiter⟩ := h.reserved address id hid
      refine ⟨waiter, ?_, hwaiter⟩
      rw [Dict.get_set_of_ne (Nat.ne_of_lt (hbefore address id hid))]
      exact hget
  · rintro address id ⟨waiter, hget, hip, hpending⟩
    rw [reservedFor_expect]
    rcases Dict.get_set_eq_some_iff.mp hget with ⟨rfl, rfl⟩ | ⟨_, hold⟩
    · rw [if_pos hip.symm]
      exact List.mem_append_right _ (List.mem_singleton_self _)
    · have hmem := h.live address id ⟨waiter, hold, hip, hpending⟩
      split
      · rename_i haddress
        rw [haddress] at hmem
        exact List.mem_append_left _ hmem
      · exact hmem
  · intro id hid
    have hlater : self.opened < id := hid
    rw [expect_connection_from, Dict.get_set_of_ne (Nat.ne_of_gt hlater)]
    exact h.fresh id (Nat.le_of_lt hlater)
  · intro connection id
    rw [expect_connection_from, h.handed]
    by_cases hid : id = self.opened
    · subst hid
      rw [Dict.get_set_self, hnew]
      simp
    · rw [Dict.get_set_of_ne hid]
  · intro id waiter hget hcaller
    rcases Dict.get_set_eq_some_iff.mp hget with ⟨rfl, rfl⟩ | ⟨_, hold⟩
    · exact absurd rfl hcaller
    · exact h.settled id waiter hold hcaller

/-- The reservations stay consistent where a waiter that no longer waits is updated, and where it leaves. -/
theorem Consistent.update {self : DialBackServer} (h : self.Consistent) {id : Nat} {waiter : Waiter} (waiter' : Waiter)
    (hget : self.waiters.get id = some waiter) (hip : waiter'.ip = waiter.ip) (hdone : waiter'.future ≠ .pending)
    (hresult : ∀ connection, waiter'.future = .result connection ↔ waiter.future = .result connection)
    {expected : Dict String (List Nat)}
    (hexpected : expected = self._expected ∨ expected = self.keep waiter.ip ((self.reservedFor waiter.ip).erase id)) :
    Consistent { self with _expected := expected, waiters := self.waiters.set id waiter' } := by
  set other : DialBackServer := { self with _expected := expected, waiters := self.waiters.set id waiter' }
  have hshort : ∀ address, (other.reservedFor address).Sublist (self.reservedFor address) := by
    intro address
    rcases hexpected with hsame | herased
    · rw [reservedFor, show other._expected = self._expected from hsame, ← reservedFor]
    · rw [@reservedFor_of_expected self other _ _ herased]
      split
      · rename_i haddress
        exact haddress ▸ List.erase_sublist
      · exact List.Sublist.refl _
  have hothers : ∀ address earlier, earlier ≠ id → earlier ∈ self.reservedFor address →
      earlier ∈ other.reservedFor address := by
    intro address earlier hne hmem
    rcases hexpected with hsame | herased
    · rwa [reservedFor, show other._expected = self._expected from hsame, ← reservedFor]
    · rw [@reservedFor_of_expected self other _ _ herased]
      split
      · rename_i haddress
        rw [haddress] at hmem
        exact (List.mem_erase_of_ne hne).mpr hmem
      · exact hmem
  constructor
  · exact fun address => (h.ordered address).sublist (hshort address)
  · intro address earlier hmem
    obtain ⟨found, hfound, haddress, hnone⟩ := h.reserved address earlier ((hshort address).subset hmem)
    by_cases hid : earlier = id
    · subst hid
      rw [hget] at hfound
      cases hfound
      refine ⟨waiter', Dict.get_set_self .., hip.trans haddress, ?_⟩
      intro connection hconnection
      exact hnone connection ((hresult connection).mp hconnection)
    · exact ⟨found, (Dict.get_set_of_ne hid ..).trans hfound, haddress, hnone⟩
  · rintro address earlier ⟨found, hfound, haddress, hpending⟩
    rcases Dict.get_set_eq_some_iff.mp hfound with ⟨_, rfl⟩ | ⟨hne, hold⟩
    · exact absurd hpending hdone
    · exact hothers address earlier hne (h.live address earlier ⟨found, hold, haddress, hpending⟩)
  · intro late hlate
    have hne : late ≠ id := by
      rintro rfl
      rw [h.fresh late hlate] at hget
      cases hget
    exact (Dict.get_set_of_ne hne ..).trans (h.fresh late hlate)
  · intro connection earlier
    rw [h.handed connection earlier]
    by_cases hid : earlier = id
    · subst hid
      simp only [other, Dict.get_set_self, hget, Option.some.injEq, exists_eq_left', hresult]
    · simp only [other, Dict.get_set_of_ne hid]
  · intro earlier found hfound hcaller
    rcases Dict.get_set_eq_some_iff.mp hfound with ⟨_, rfl⟩ | ⟨_, hold⟩
    · exact hdone
    · exact h.settled earlier found hold hcaller

theorem Consistent.interrupt {self : DialBackServer} (h : self.Consistent) (id : Nat) : (self.interrupt id).Consistent := by
  rw [DialBackServer.interrupt]
  cases hget : self.waiters.get id with
  | none => exact h
  | some waiter =>
    by_cases hwaiting : waiter.caller = .waiting
    · simp only [if_pos hwaiting]
      apply h.update ⟨waiter.ip, cancel waiter.future, .interrupted⟩ hget rfl _ _ (.inl rfl)
      · cases waiter.future <;> simp [cancel]
      · intro connection
        cases waiter.future <;> simp [cancel]
    · simp only [if_neg hwaiting]
      exact h

theorem Consistent.leave {self : DialBackServer} (h : self.Consistent) {id : Nat} {waiter : Waiter}
    (hget : self.waiters.get id = some waiter) (hdone : waiter.future ≠ .pending) (caller : Caller) :
    (self.leave id waiter caller).Consistent :=
  h.update { waiter with caller } hget rfl hdone (fun _ => Iff.rfl) (.inr rfl)

theorem Consistent.resume {self : DialBackServer} (h : self.Consistent) (id : Nat) : (self.resume id).Consistent := by
  rw [DialBackServer.resume]
  cases hget : self.waiters.get id with
  | none => exact h
  | some waiter =>
    have hleave := h.leave hget
    cases hcaller : waiter.caller with
    | waiting =>
      cases hfuture : waiter.future with
      | pending => simpa only [hcaller, hfuture] using h
      | cancelled => simpa only [hcaller, hfuture] using h
      | result connection =>
        simp only [hcaller, hfuture]
        exact hleave (by rw [hfuture]; simp) _
    | interrupted =>
      simp only [hcaller]
      exact hleave (h.settled id waiter hget (by rw [hcaller]; simp)) _
    | returned connection => simpa only [hcaller] using h
    | raised => simpa only [hcaller] using h

/-- What an accepted connection does: there is nobody to take it, or the first waiter does, or the first waiter was
cancelled and the connection is served although others may wait. -/
inductive Accepted (self : DialBackServer) (ip : String) : DialBackServer → Prop where
  | unreserved (hnone : self.reservedFor ip = []) :
      Accepted self ip { self with _expected := self.keep ip [], fates := self.fates ++ [.session] }
  | handed (id : Nat) (rest : List Nat) (waiter : Waiter) (hreserved : self.reservedFor ip = id :: rest)
      (hget : self.waiters.get id = some waiter) (hip : waiter.ip = ip) (hpending : waiter.future = .pending) :
      Accepted self ip
        { self with
          _expected := self.keep ip rest
          waiters := self.waiters.set id { waiter with future := .result self.fates.length }
          fates := self.fates ++ [.handed id] }
  | passed (id : Nat) (rest : List Nat) (waiter : Waiter) (hreserved : self.reservedFor ip = id :: rest)
      (hget : self.waiters.get id = some waiter) (hcancelled : waiter.future = .cancelled) :
      Accepted self ip { self with _expected := self.keep ip rest, fates := self.fates ++ [.session] }

theorem Consistent.accepted {self : DialBackServer} (h : self.Consistent) (ip : String) :
    Accepted self ip (self.on_client ip) := by
  cases hreserved : self.reservedFor ip with
  | nil =>
    simp only [on_client, hreserved, List.head?_nil, List.tail_nil]
    exact .unreserved hreserved
  | cons id rest =>
    obtain ⟨waiter, hget, hip, hnone⟩ := h.reserved ip id (by rw [hreserved]; exact List.mem_cons_self)
    simp only [on_client, hreserved, List.head?_cons, List.tail_cons, hget, hand_over]
    cases hfuture : waiter.future with
    | pending =>
      simp only [if_true]
      exact .handed id rest waiter hreserved hget hip hfuture
    | cancelled =>
      simp only [reduceCtorEq, if_false]
      exact .passed id rest waiter hreserved hget hfuture
    | result connection => exact absurd hfuture (hnone connection)

theorem getElem?_snoc_handed {fates : List Fate} {fate : Fate} {connection id : Nat} :
    (fates ++ [fate])[connection]? = some (.handed id) ↔
      fates[connection]? = some (.handed id) ∨ connection = fates.length ∧ fate = .handed id := by
  rcases Nat.lt_trichotomy connection fates.length with hless | rfl | hgreater
  · rw [List.getElem?_append_left hless]
    simp [Nat.ne_of_lt hless]
  · simp
  · rw [List.getElem?_eq_none (by simp; omega), List.getElem?_eq_none (Nat.le_of_lt hgreater)]
    simp [Nat.ne_of_gt hgreater]

/-- A connection that is served leaves the reservations consistent, where no live waiter was dropped for it. -/
theorem Consistent.serve {self : DialBackServer} (h : self.Consistent) {ip : String} {rest : List Nat}
    (hrest : rest.Sublist (self.reservedFor ip)) (hlive : ∀ id, self.Live ip id → id ∈ rest) :
    Consistent { self with _expected := self.keep ip rest, fates := self.fates ++ [.session] } := by
  set other : DialBackServer := { self with _expected := self.keep ip rest, fates := self.fates ++ [.session] }
  have hreserved : ∀ address, other.reservedFor address = if address = ip then rest else self.reservedFor address :=
    @reservedFor_of_expected self other ip rest rfl
  constructor
  · intro address
    rw [hreserved]
    split
    · exact (h.ordered ip).sublist hrest
    · exact h.ordered address
  · intro address id hid
    rw [hreserved] at hid
    split at hid
    · rename_i haddress
      exact haddress ▸ h.reserved ip id (hrest.subset hid)
    · exact h.reserved address id hid
  · intro address id hid
    rw [hreserved]
    split
    · rename_i haddress
      exact hlive id (haddress ▸ hid)
    · exact h.live address id hid
  · exact h.fresh
  · intro connection id
    rw [← h.handed connection id]
    simp [other, getElem?_snoc_handed]
  · exact h.settled

/-- A connection that is handed over leaves the reservations consistent. -/
theorem Consistent.hand {self : DialBackServer} (h : self.Consistent) {ip : String} {id : Nat} {rest : List Nat}
    {waiter : Waiter} (hreserved : self.reservedFor ip = id :: rest) (hget : self.waiters.get id = some waiter)
    (hip : waiter.ip = ip) (hpending : waiter.future = .pending) :
    Consistent
      { self with
        _expected := self.keep ip rest
        waiters := self.waiters.set id { waiter with future := .result self.fates.length }
        fates := self.fates ++ [.handed id] } := by
  set other : DialBackServer :=
    { self with
      _expected := self.keep ip rest
      waiters := self.waiters.set id { waiter with future := .result self.fates.length }
      fates := self.fates ++ [.handed id] }
  have hkept : ∀ address, other.reservedFor address = if address = ip then rest else self.reservedFor address :=
    @reservedFor_of_expected self other ip rest rfl
  have hordered := h.ordered ip
  rw [hreserved, List.pairwise_cons] at hordered
  -- The waiter that got the connection is in no list any more.
  have hgone : ∀ address earlier, earlier ∈ other.reservedFor address →
      earlier ≠ id ∧ earlier ∈ self.reservedFor address := by
    intro address earlier hmem
    rw [hkept] at hmem
    split at hmem
    · rename_i haddress
      rw [haddress, hreserved]
      exact ⟨Nat.ne_of_gt (hordered.1 earlier hmem), List.mem_cons_of_mem id hmem⟩
    · rename_i haddress
      refine ⟨?_, hmem⟩
      rintro rfl
      obtain ⟨found, hfound, hfoundIp, _⟩ := h.reserved address earlier hmem
      rw [hget] at hfound
      cases hfound
      exact haddress (hfoundIp.symm.trans hip)
  constructor
  · intro address
    rw [hkept]
    split
    · exact hordered.2
    · exact h.ordered address
  · intro address earlier hmem
    obtain ⟨hne, hold⟩ := hgone address earlier hmem
    obtain ⟨found, hfound, hfoundIp, hnone⟩ := h.reserved address earlier hold
    exact ⟨found, (Dict.get_set_of_ne hne ..).trans hfound, hfoundIp, hnone⟩
  · rintro address earlier ⟨found, hfound, hfoundIp, hfoundPending⟩
    rcases Dict.get_set_eq_some_iff.mp hfound with ⟨_, rfl⟩ | ⟨hne, hold⟩
    · cases hfoundPending
    · have hmem := h.live address earlier ⟨found, hold, hfoundIp, hfoundPending⟩
      rw [hkept]
      split
      · rename_i haddress
        rw [haddress, hreserved, List.mem_cons] at hmem
        exact hmem.resolve_left hne
      · exact hmem
  · intro late hlate
    have hne : late ≠ id := by
      rintro rfl
      rw [h.fresh late hlate] at hget
      cases hget
    exact (Dict.get_set_of_ne hne ..).trans (h.fresh late hlate)
  · intro connection earlier
    simp only [other, getElem?_snoc_handed, h.handed connection earlier]
    by_cases hid : earlier = id
    · subst hid
      simp [hget, hpending, eq_comm]
    · simp [Dict.get_set_of_ne hid, Ne.symm hid]
  · intro earlier found hfound hcaller
    rcases Dict.get_set_eq_some_iff.mp hfound with ⟨_, rfl⟩ | ⟨_, hold⟩
    · simp
    · exact h.settled earlier found hold hcaller

theorem Consistent.not_live {self : DialBackServer} {ip : String} {id : Nat} {waiter : Waiter}
    (hget : self.waiters.get id = some waiter) (hdone : waiter.future ≠ .pending) : ¬ self.Live ip id := by
  rintro ⟨found, hfound, _, hpending⟩
  rw [hget] at hfound
  cases hfound
  exact hdone hpending

theorem Consistent.accept {self : DialBackServer} (h : self.Consistent) (ip : String) : (self.on_client ip).Consistent := by
  have haccepted := h.accepted ip
  generalize self.on_client ip = next at haccepted ⊢
  cases haccepted with
  | unreserved hnone => exact h.serve (List.nil_sublist _) fun id hlive => hnone ▸ h.live ip id hlive
  | handed id rest waiter hreserved hget hip hpending => exact h.hand hreserved hget hip hpending
  | passed id rest waiter hreserved hget hcancelled =>
    apply h.serve
    · rw [hreserved]
      exact List.sublist_cons_self id rest
    · intro other hlive
      have hmem := h.live ip other hlive
      rw [hreserved, List.mem_cons] at hmem
      apply hmem.resolve_left
      rintro rfl
      exact Consistent.not_live hget (by rw [hcancelled]; simp) hlive

theorem Consistent.step {self : DialBackServer} (h : self.Consistent) (event : DialBackEvent) :
    (self.step event).Consistent := by
  cases event with
  | expect ip => exact h.expect ip
  | interrupt id => exact h.interrupt id
  | resume id => exact h.resume id
  | accept ip => exact h.accept ip

theorem after_snoc (events : List DialBackEvent) (event : DialBackEvent) :
    after (events ++ [event]) = (after events).step event := List.foldl_concat ..

theorem consistent_after (events : List DialBackEvent) : (after events).Consistent := by
  apply runs.invariant Consistent.new
  intro self event hconsistent
  exact hconsistent.step event

/-- The first waiter of an address is a live one, if there is any: no waiter that was interrupted stands before a
live one. -/
def HeadLive (self : DialBackServer) (ip : String) : Prop :=
  ∀ id, (self.reservedFor ip).head? = some id → self.Live ip id ∨ ∀ other, ¬ self.Live ip other

/-- The waiter has no connection that its task has not taken yet. -/
def Undelivered (self : DialBackServer) (id : Nat) : Prop :=
  ∀ waiter connection, self.waiters.get id = some waiter → waiter.caller = .waiting →
    waiter.future ≠ .result connection

/-- An accepted connection goes where it is due exactly if no interrupted waiter stands before a live one. -/
theorem Consistent.due_iff {self : DialBackServer} (h : self.Consistent) (ip : String) :
    (∃ fate, (self.on_client ip).fates = self.fates ++ [fate] ∧ self.Due ip fate) ↔ self.HeadLive ip := by
  have haccepted := h.accepted ip
  generalize self.on_client ip = next at haccepted ⊢
  cases haccepted with
  | unreserved hnone =>
    have hnobody : ∀ id, ¬ self.Live ip id := by
      intro id hlive
      have hmem := h.live ip id hlive
      rw [hnone] at hmem
      cases hmem
    constructor
    · exact fun _ _ _ => .inr hnobody
    · exact fun _ => ⟨.session, rfl, hnobody⟩
  | handed id rest waiter hreserved hget hip hpending =>
    have hlive : self.Live ip id := ⟨waiter, hget, hip, hpending⟩
    constructor
    · intro _ first hfirst
      rw [hreserved] at hfirst
      cases hfirst
      exact .inl hlive
    · intro _
      refine ⟨.handed id, rfl, hlive, ?_⟩
      intro other hother
      have hordered := h.ordered ip
      have hmem := h.live ip other hother
      rw [hreserved, List.pairwise_cons] at hordered
      rw [hreserved, List.mem_cons] at hmem
      rcases hmem with rfl | hrest
      · exact le_rfl
      · exact Nat.le_of_lt (hordered.1 other hrest)
  | passed id rest waiter hreserved hget hcancelled =>
    have hnot : ¬ self.Live ip id := Consistent.not_live hget (by rw [hcancelled]; simp)
    constructor
    · rintro ⟨fate, hfates, hdue⟩ first hfirst
      have hsession := List.append_cancel_left hfates
      cases hsession
      exact .inr hdue
    · intro hhead
      have hnobody := (hhead id (by rw [hreserved]; rfl)).resolve_left hnot
      exact ⟨.session, rfl, hnobody⟩

/-- Each connection that was handed over is with its task or on its way to it. -/
def Received (self : DialBackServer) : Prop :=
  ∀ id waiter connection, self.waiters.get id = some waiter → waiter.future = .result connection →
    waiter.caller = .waiting ∨ waiter.caller = .returned connection

theorem Received.expect {self : DialBackServer} (h : self.Received) (ip : String) :
    (self.expect_connection_from ip).Received := by
  intro id waiter connection hget hresult
  rcases Dict.get_set_eq_some_iff.mp hget with ⟨_, rfl⟩ | ⟨_, hold⟩
  · cases hresult
  · exact h id waiter connection hold hresult

theorem Received.accept {self : DialBackServer} (h : self.Received) (hconsistent : self.Consistent) (ip : String) :
    (self.on_client ip).Received := by
  have haccepted := hconsistent.accepted ip
  generalize self.on_client ip = next at haccepted ⊢
  cases haccepted with
  | unreserved hnone => exact h
  | passed id rest waiter hreserved hget hcancelled => exact h
  | handed id rest waiter hreserved hget hip hpending =>
    intro other found connection hfound hresult
    rcases Dict.get_set_eq_some_iff.mp hfound with ⟨_, rfl⟩ | ⟨_, hold⟩
    · left
      by_contra hcaller
      exact hconsistent.settled id waiter hget hcaller hpending
    · exact h other found connection hold hresult

theorem Received.leave {self : DialBackServer} (h : self.Received) {id : Nat} {waiter : Waiter} {caller : Caller}
    (hcaller : ∀ connection, waiter.future = .result connection → caller = .returned connection) :
    (self.leave id waiter caller).Received := by
  intro other found connection hget hresult
  rcases Dict.get_set_eq_some_iff.mp hget with ⟨_, rfl⟩ | ⟨_, hold⟩
  · exact .inr (hcaller connection hresult)
  · exact h other found connection hold hresult

/-- No task that is interrupted holds a connection, so that one that raises loses none. -/
theorem Received.resume {self : DialBackServer} (h : self.Received) (id : Nat) : (self.resume id).Received := by
  rw [DialBackServer.resume]
  cases hget : self.waiters.get id with
  | none => exact h
  | some waiter =>
    cases hcaller : waiter.caller with
    | waiting =>
      cases hfuture : waiter.future with
      | pending => simpa only [hcaller, hfuture] using h
      | cancelled => simpa only [hcaller, hfuture] using h
      | result connection =>
        simp only [hcaller, hfuture]
        apply h.leave
        intro other hother
        rw [hfuture] at hother
        cases hother
        rfl
    | interrupted =>
      simp only [hcaller]
      apply h.leave
      intro connection hresult
      rcases h id waiter connection hget hresult with hwaiting | hreturned
      · rw [hcaller] at hwaiting
        cases hwaiting
      · rw [hcaller] at hreturned
        cases hreturned
    | returned connection => simpa only [hcaller] using h
    | raised => simpa only [hcaller] using h

theorem Received.interrupt_iff {self : DialBackServer} (h : self.Received) (id : Nat) :
    (self.interrupt id).Received ↔ self.Undelivered id := by
  rw [DialBackServer.interrupt]
  cases hget : self.waiters.get id with
  | none =>
    constructor
    · intro _ waiter _ hfound
      rw [hget] at hfound
      cases hfound
    · exact fun _ => h
  | some waiter =>
    by_cases hwaiting : waiter.caller = .waiting
    · simp only [if_pos hwaiting]
      constructor
      · intro hreceived found connection hfound _ hresult
        rw [hget] at hfound
        cases hfound
        have hcancel : cancel waiter.future = .result connection := by rw [hresult]; rfl
        rcases hreceived id _ connection (Dict.get_set_self ..) hcancel with hlost | hlost <;> cases hlost
      · intro hundelivered other found connection hfound hresult
        rcases Dict.get_set_eq_some_iff.mp hfound with ⟨_, rfl⟩ | ⟨_, hold⟩
        · have hnot := hundelivered waiter connection hget hwaiting
          cases hfuture : waiter.future with
          | pending => simp [hfuture, cancel] at hresult
          | cancelled => simp [hfuture, cancel] at hresult
          | result held =>
            simp only [hfuture, cancel] at hresult
            exact absurd (hfuture.trans hresult) hnot
        · exact h other found connection hold hresult
    · simp only [if_neg hwaiting]
      constructor
      · intro _ found connection hfound hcaller
        rw [hget] at hfound
        cases hfound
        exact absurd hcaller hwaiting
      · exact fun _ => h

/-- The steps that keep a run in order: no connection is accepted while an interrupted waiter stands before a live
one, and no task is interrupted between the arrival of its connection and its next run. -/
def Orderly (self : DialBackServer) : DialBackEvent → Prop
  | .accept ip => self.HeadLive ip
  | .interrupt id => self.Undelivered id
  | .expect _ | .resume _ => True

/-- In an orderly run no connection that was handed over is lost. -/
theorem received_after {events : List DialBackEvent} (horderly : runs.AllSteps step new Orderly events) :
    (after events).Received := by
  have hkept : (after events).Consistent ∧ (after events).Received := by
    refine @runs.invariant_of_allSteps _ _ step new (fun self => self.Consistent ∧ self.Received) Orderly ?_ ?_
      events horderly
    · refine ⟨.new, ?_⟩
      intro id waiter connection hget
      cases hget
    · rintro self event ⟨hconsistent, hreceived⟩ hstep
      refine ⟨hconsistent.step event, ?_⟩
      cases event with
      | accept ip => exact hreceived.accept hconsistent ip
      | interrupt id => exact (Received.interrupt_iff hreceived id).mpr hstep
      | expect ip => exact hreceived.expect ip
      | resume id => exact hreceived.resume id
  exact hkept.2

/-- Over a whole run each accepted connection goes where it is due and reaches the task it was handed to, exactly
if every step of the run is in order. -/
theorem dial_backs_iff (events : List DialBackEvent) :
    (∀ part, part <+: events → (after part).Delivered) ∧
      (∀ part ip, part ++ [.accept ip] <+: events →
        ∃ fate, (after (part ++ [.accept ip])).fates = (after part).fates ++ [fate] ∧ (after part).Due ip fate) ↔
    ∀ part event, part ++ [event] <+: events → (after part).Orderly event := by
  constructor
  · rintro ⟨hdelivered, hdue⟩ part event hprefix
    have hpart : part <+: events := (List.prefix_append part [event]).trans hprefix
    cases event with
    | accept ip =>
      have hserved := hdue part ip hprefix
      rw [after_snoc] at hserved
      exact ((consistent_after part).due_iff ip).mp hserved
    | interrupt id =>
      have hreceived := (hdelivered _ hprefix).received
      rw [after_snoc] at hreceived
      exact (Received.interrupt_iff (hdelivered part hpart).received id).mp hreceived
    | expect ip => trivial
    | resume id => trivial
  · intro horderly
    constructor
    · intro part hprefix
      have hsteps : runs.AllSteps step new Orderly events := horderly
      have hreceived := received_after (hsteps.of_part hprefix)
      exact ⟨(consistent_after part).handed, hreceived⟩
    · intro part ip hprefix
      rw [after_snoc]
      exact ((consistent_after part).due_iff ip).mpr (horderly part _ hprefix)

/-- Two waiters for one address, of which the first is interrupted before a connection is accepted. -/
def overtaken : List DialBackEvent := [.expect "10.0.0.1", .expect "10.0.0.1", .interrupt 0]

/-- The connection is served as a session while the second waiter still waits, and so is a connection lost whose
waiter is interrupted before it runs. -/
theorem dial_back_missed :
    ((after (overtaken ++ [.accept "10.0.0.1"])).fates = [.session] ∧ (after overtaken).Live "10.0.0.1" 1) ∧
      ¬ (after [.expect "10.0.0.1", .accept "10.0.0.1", .interrupt 0, .resume 0]).Delivered := by
  refine ⟨⟨by decide +kernel, ?_⟩, ?_⟩
  · exact ⟨⟨"10.0.0.1", .pending, .waiting⟩, by decide +kernel, rfl, rfl⟩
  · intro hdelivered
    have hget : (after [.expect "10.0.0.1", .accept "10.0.0.1", .interrupt 0, .resume 0]).waiters.get 0 =
        some ⟨"10.0.0.1", .result 0, .raised⟩ := by decide +kernel
    rcases hdelivered.received 0 _ 0 hget rfl with hlost | hlost <;> cases hlost

end DialBackServer

end amuled.peer
