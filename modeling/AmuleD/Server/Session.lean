import Mathlib.Algebra.Order.Ring.Int
import Mathlib.Data.Prod.Lex
import AmuleD.PyStr
import AmuleD.Sorting.Stable

open pystr sorting

namespace amuled.server_session

/-- What a candidate needs of a record of either list; a static one has its host, the other its address. -/
structure Record where
  host : PyStr
  port : Int
  priority : Int

structure Candidate where
  ip_str : PyStr
  port : Int
  is_static : Bool
  priority : Int
  deriving DecidableEq

def Candidate.key (candidate : Candidate) : PyStr × Int := (candidate.ip_str, candidate.port)

/-- The key of `candidates.sort`. -/
def Candidate.rank (candidate : Candidate) : ℤ ×ₗ ℤ :=
  toLex (if candidate.is_static then 0 else 1, -candidate.priority)

def _record_to_candidate (is_static : Bool) (record : Record) : Option Candidate :=
  if strip record.host = [] then none else some ⟨strip record.host, record.port, is_static, record.priority⟩

/-- The first candidate of each address is kept. -/
def see (seen : List Candidate) (candidate : Candidate) : List Candidate :=
  if candidate.key ∈ seen.map Candidate.key then seen else seen ++ [candidate]

/-- The candidates of the two lists; there is no blacklist where it could not be read. -/
def _build_candidates (static_records met_records : List Record) (blacklist : Option (List (PyStr × Int))) :
    List Candidate :=
  let seen := (static_records.filterMap (_record_to_candidate true) ++
    met_records.filterMap (_record_to_candidate false)).foldl see []
  let candidates := match blacklist with
    | none => seen
    | some blacklist => seen.filter fun candidate => candidate.key ∉ blacklist
  sorted Candidate.rank candidates

/-- How a held session ends: it is lost or stopped, or its task is cancelled. -/
inductive Hold where
  | ended
  | cancelled
  deriving DecidableEq

/-- What becomes of an attempt: the factory raises, or the client it made fails to connect or to log in, or both calls
return with or without a login, or the task is cancelled in one of them. -/
inductive Outcome where
  | no_client
  | failed (error : PyStr)
  | not_logged_in
  | logged_in (hold : Hold)
  | cancelled
  deriving DecidableEq

def Outcome.LogsIn (outcome : Outcome) : Prop := ∃ hold, outcome = .logged_in hold

/-- The manager, and the clients that were made and not closed, each by the number of its attempt. -/
structure Manager where
  _pos : Nat
  _attempts : Nat
  _logins : Nat
  _last_error : Option PyStr
  _connected : Bool
  _server : Option (PyStr × Int)
  _autoconnect : Bool
  opened : List Nat

def Manager.init : Manager := ⟨0, 0, 0, none, false, none, true, []⟩

/-- How a pass over the candidates ends. -/
inductive End where
  | exhausted
  | login (candidate : Candidate) (hold : Hold)
  | cancelled (candidate : Candidate)

namespace Manager

def opening (manager : Manager) : Manager := { manager with opened := manager._attempts :: manager.opened }

/-- `_hold_session`, with the client of the last attempt. -/
def _hold_session (manager : Manager) (candidate : Candidate) : Hold → Manager
  | .ended =>
    { manager with _connected := false, _server := none, opened := manager.opened.erase manager._attempts }
  | .cancelled => { manager with _connected := true, _server := some candidate.key }

/-- The `for` loop over the rotated candidates: those that failed, how it ended, and the manager then. A client that
fails is closed in its attempt. -/
def try_rotated (num start : Nat) (outcomes : Nat → Outcome) (manager : Manager) (idx : Nat) :
    List Candidate → List Candidate × End × Manager
  | [] => ([], .exhausted, manager)
  | candidate :: rest =>
    let manager := { manager with _pos := (start + idx) % num, _attempts := manager._attempts + 1 }
    let next := fun manager => try_rotated num start outcomes manager (idx + 1) rest
    match outcomes idx with
    | .no_client => (candidate :: (next manager).1, (next manager).2)
    | .failed error =>
      (candidate :: (next { manager with _last_error := some error }).1,
        (next { manager with _last_error := some error }).2)
    | .not_logged_in => (candidate :: (next manager.opening).1, (next manager.opening).2)
    | .logged_in hold =>
      ([], .login candidate hold,
        { manager.opening with _logins := manager._logins + 1 }._hold_session candidate hold)
    | .cancelled => ([], .cancelled candidate, manager.opening)

end Manager

/-- The candidates from the start position on, around the list. -/
def rotated (candidates : List Candidate) (start : Nat) : List Candidate :=
  candidates.drop start ++ candidates.take start

/-- A pass over some candidates: where it began, the outcomes it met, and what it came to. -/
structure Pass where
  start : Nat
  candidates : List Candidate
  outcomes : Nat → Outcome
  failed : List Candidate
  ending : End
  after : Manager

/-- The candidates in the order of their attempts. -/
def Pass.tried (pass : Pass) : List Candidate :=
  match pass.ending with
  | .exhausted => pass.failed
  | .login candidate _ => pass.failed ++ [candidate]
  | .cancelled candidate => pass.failed ++ [candidate]

/-- One turn of `run`: what the configuration and the loaders give, and the outcomes of its attempts. -/
structure Turn where
  autoconnect : Bool
  static_records : List Record
  met_records : List Record
  blacklist : Option (List (PyStr × Int))
  outcomes : Nat → Outcome

def Turn.candidates (turn : Turn) : List Candidate :=
  _build_candidates turn.static_records turn.met_records turn.blacklist

namespace Manager

/-- The pass of a turn that has candidates. -/
def pass (manager : Manager) (turn : Turn) : Pass :=
  let num := turn.candidates.length
  let start := manager._pos % num
  let result :=
    { manager with _autoconnect := true }.try_rotated num start turn.outcomes 0 (rotated turn.candidates start)
  ⟨start, turn.candidates, turn.outcomes, result.1, result.2.1, result.2.2⟩

/-- `run`, as the passes that it makes; a cancellation ends it. -/
def run (manager : Manager) : List Turn → List Pass
  | [] => []
  | turn :: rest =>
    if turn.autoconnect = false then { manager with _autoconnect := false }.run rest
    else if turn.candidates = [] then
      { manager with _autoconnect := true, _last_error := some (lit "no candidate servers") }.run rest
    else
      let pass := manager.pass turn
      match pass.ending with
      | .exhausted => pass :: pass.after.run rest
      | .login _ .ended => pass :: pass.after.run rest
      | .login _ .cancelled => [pass]
      | .cancelled _ => [pass]

end Manager

end amuled.server_session
