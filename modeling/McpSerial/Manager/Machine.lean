import McpSerial.Interaction.Schedule
import McpSerial.Manager.Table
import McpSerial.Profiles

/-! What the server asks of its surroundings and how they may answer: the
session table behind the manager lock, the port mutexes, the ports, the clock
and the host. Time and tokens only show in the answers they lead to. -/

namespace McpSerial
open Interaction

/-- The cancellation token of an operation: one that nobody cancels, the one of the tool
call, or one that is cancelled when the operation starts. -/
inductive Token where
  | never
  | call
  | cancelled
  deriving DecidableEq, Repr

/-- How a future awaited under a deadline and a token came back. -/
inductive Poll (α : Type) where
  | ready (a : α)
  | elapsed
  | cancelled

inductive Request where
  | reserve (args : SessionArgs)
  | backendOpen (portPath : String) (baud : Nat)
  | completeOpen (id : String) (result : Except SerialError Handle)
  | beginClose (id : String)
  /-- `restore_ready`, answered by whether the session was still there. -/
  | restoreReady (id : String) (port : Handle)
  /-- `finish_close` and the removal, answered by whether the session was still there. -/
  | finishClose (id : String)
  /-- `sessions.get(id)` in a critical section that changes nothing. -/
  | get (id : String)
  | values
  | lock (port : Handle) (token : Token)
  | unlock (port : Handle)
  /-- `deadline.checked_duration_since(Instant::now())` is some. -/
  | timeLeft
  /-- The turns a read loop gets before its deadline passes. -/
  | turns
  /-- `started.elapsed().as_millis()`. -/
  | elapsedMs
  /-- `cancellation.is_cancelled()`. -/
  | isCancelled (token : Token)
  /-- `tokio::select!` takes the cancelled branch before it polls the other. -/
  | cancelPicked (token : Token)
  | write (port : Handle) (data : List UInt8) (token : Token)
  | flush (port : Handle) (token : Token)
  | read (port : Handle) (max : Nat) (token : Token)
  | availablePorts
  /-- `std::fs::canonicalize`, none on an error. -/
  | canonicalize (path : String)

@[reducible] def Response : Request → Type
  | .reserve _ => Except SerialError String
  | .backendOpen .. => Except SerialError Handle
  | .completeOpen .. => Except SerialError String
  | .beginClose _ => Except SerialError (Option Handle)
  | .restoreReady .. => Bool
  | .finishClose _ => Bool
  | .get _ => Option Session
  | .values => List Session
  | .lock .. => Poll Unit
  | .unlock _ => Unit
  | .timeLeft => Bool
  | .turns => Nat
  | .elapsedMs => Nat
  | .isCancelled _ => Bool
  | .cancelPicked _ => Bool
  | .write _ data _ => Poll (Except String {n : Nat // n ≤ data.length})
  | .flush .. => Poll (Except String Unit)
  | .read _ max _ => Poll (Except String {bytes : List UInt8 // bytes.length ≤ max})
  | .availablePorts => Except String (List SerialPortInfo)
  | .canonicalize _ => Option String

abbrev Ask := Interaction.Event Request Response

structure ManagerState where
  sessions : Sessions
  owner : Handle → Option Nat
  nextHandle : Handle

def ManagerState.init : ManagerState := ⟨∅, fun _ => none, 0⟩

def Token.tells (token : Token) : Bool → Prop
  | true => token ≠ .never
  | false => token ≠ .cancelled

/-- A poll under the token of an operation: an operation without one is never cancelled. -/
def Poll.allowed {α : Type} (token : Token) : Poll α → Prop
  | .cancelled => token ≠ .never
  | _ => True

/-- How the surroundings answer thread `t` in `σ`, and the state they are in then.
A backend that opens a port makes a new handle, and a mutex is granted when free. -/
def answers (σ : ManagerState) (t : Nat) : (r : Request) → Response r → ManagerState → Prop
  | .reserve args, x, σ' =>
    ∃ draws sessions, σ.sessions.reserve args draws = some (x, sessions) ∧ σ' = { σ with sessions }
  | .backendOpen .., .ok port, σ' =>
    port = σ.nextHandle ∧ σ' = { σ with nextHandle := σ.nextHandle + 1 }
  | .backendOpen .., .error _, σ' => σ' = σ
  | .completeOpen id result, x, σ' =>
    x = (σ.sessions.completeOpen id result).1 ∧
      σ' = { σ with sessions := (σ.sessions.completeOpen id result).2 }
  | .beginClose id, x, σ' =>
    x = (σ.sessions.beginClose id).1 ∧ σ' = { σ with sessions := (σ.sessions.beginClose id).2 }
  | .restoreReady id port, x, σ' =>
    x = (σ.sessions.lookup id).isSome ∧ σ' = { σ with sessions := σ.sessions.restoreReady id port }
  | .finishClose id, x, σ' =>
    x = (σ.sessions.lookup id).isSome ∧ σ' = { σ with sessions := σ.sessions.finishClose id }
  | .get id, x, σ' => x = σ.sessions.lookup id ∧ σ' = σ
  | .values, x, σ' => x.Perm σ.sessions.values ∧ σ' = σ
  | .lock port _, .ready _, σ' =>
    σ.owner port = none ∧ σ' = { σ with owner := Function.update σ.owner port (some t) }
  | .lock _ token, x, σ' => x.allowed token ∧ σ' = σ
  | .unlock port, _, σ' => σ' = { σ with owner := Function.update σ.owner port none }
  | .isCancelled token, x, σ' => token.tells x ∧ σ' = σ
  | .cancelPicked token, x, σ' => (x = true → token ≠ .never) ∧ σ' = σ
  | .write _ _ token, x, σ' => x.allowed token ∧ σ' = σ
  | .flush _ token, x, σ' => x.allowed token ∧ σ' = σ
  | .read _ _ token, x, σ' => x.allowed token ∧ σ' = σ
  | .timeLeft, _, σ' => σ' = σ
  | .turns, _, σ' => σ' = σ
  | .elapsedMs, _, σ' => σ' = σ
  | .availablePorts, _, σ' => σ' = σ
  | .canonicalize _, _, σ' => σ' = σ

abbrev machine : Machine Request Response where
  State := ManagerState
  init := .init
  answers := answers

end McpSerial
