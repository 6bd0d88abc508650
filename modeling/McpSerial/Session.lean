import McpSerial.Policy

/-! Sessions and their lifecycle (`serial/session.rs`), as the release build
runs it: the `debug_assert!` of a transition is no check. -/

namespace McpSerial

inductive WritePolicy where
  | allow
  | confirm
  | deny
  deriving DecidableEq, Repr

namespace WritePolicy

/-- The derived order, by variant. -/
def rank : WritePolicy → Nat
  | allow => 0
  | confirm => 1
  | deny => 2

/-- `Ord::max`: the more restrictive of the two. -/
def max (p q : WritePolicy) : WritePolicy := if p.rank ≤ q.rank then q else p

theorem rank_max (p q : WritePolicy) : (p.max q).rank = Nat.max p.rank q.rank := by
  cases p <;> cases q <;> rfl

end WritePolicy

inductive SessionState where
  | opening
  | ready
  | closing
  | closed
  deriving DecidableEq, Repr

def SessionState.name : SessionState → String
  | opening => "Opening"
  | ready => "Ready"
  | closing => "Closing"
  | closed => "Closed"

/-- An `Arc<Mutex<P>>`. Clones of one `Arc` are one handle, so `Arc::ptr_eq` is equality. -/
abbrev Handle := Nat

structure SessionArgs where
  portPath : String
  baud : Nat
  defaultTimeoutMs : Nat
  writePolicy : WritePolicy
  consoleSettings : ConsoleSettings
  commandPolicy : CommandPolicy

structure Session extends SessionArgs where
  id : String
  state : SessionState
  port : Option Handle

namespace Session

def opening (id : String) (args : SessionArgs) : Session :=
  { toSessionArgs := args, id, state := .opening, port := none }

def transitionToReady (s : Session) (port : Handle) : Session :=
  { s with state := .ready, port := some port }

/-- The session after `begin_close`, and whether the transition was valid. -/
def beginClose (s : Session) : Bool × Session :=
  match s.state with
  | .ready | .opening => (true, { s with state := .closing, port := none })
  | .closing | .closed => (false, s)

def finishClose (s : Session) : Session := { s with state := .closed }

def restoreReady (s : Session) (port : Handle) : Session :=
  { s with state := .ready, port := some port }

def isReady (s : Session) : Bool := s.state = .ready

theorem isReady_iff {s : Session} : s.isReady = true ↔ s.state = .ready := decide_eq_true_iff

end Session
end McpSerial
