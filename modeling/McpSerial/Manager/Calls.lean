import McpSerial.Manager.Moves

/-! Calls on a `SessionManager`, run by any number of threads. -/

namespace McpSerial
open Interaction Interaction.Discipline

inductive ManagerCall where
  | open (args : SessionArgs)
  | close (id : String) (timeoutMs : Nat)
  | write (id : String) (data : List UInt8) (token : Token)
  | read (id : String) (maxBytes timeoutMs : Nat) (token : Token)
  | readUntil (id pattern : String) (timeoutMs : Nat) (token : Token)
  | drain (id : String) (maxBytes : Nat) (token : Token)
  | clearInput (id : String) (maxBytes : Nat) (token : Token)
  | exec (id : String) (command : List UInt8) (expect : String) (timeoutMs : Nat)
      (options : ExecOptions) (token : Token)

def ManagerCall.sessionId : ManagerCall → Option String
  | .open _ => none
  | .close id _ | .write id _ _ | .read id _ _ _ | .readUntil id _ _ _ | .drain id _ _
  | .clearInput id _ _ | .exec id _ _ _ _ _ => some id

inductive ManagerResult where
  | opened (id : String)
  | closed
  | written (n : Nat)
  | read (outcome : ReadOutcome)
  | ran (outcome : ExecOutcome)
  deriving DecidableEq, Repr

abbrev ManagerProgram := Program Request Response (Except SerialError ManagerResult)

abbrev ManagerLabel := Label Request Response ManagerCall
abbrev ManagerThread := Thread Request Response ManagerCall (Except SerialError ManagerResult)
abbrev ManagerConfig := Config machine ManagerCall (Except SerialError ManagerResult)

def managerOp (env : Environment) (rx : RegexCrate) : ManagerCall → Op ManagerResult
  | .open args => do return .opened (← openWithConsoleAndPolicy env args)
  | .close id timeoutMs => do
    closeWithTimeout id timeoutMs
    return .closed
  | .write id data token => do return .written (← writeWithCancel id data token)
  | .read id maxBytes timeoutMs token => do
    return .read (← readWithCancel id maxBytes timeoutMs token)
  | .readUntil id pattern timeoutMs token => do
    return .ran (← readUntilWithCancel rx id pattern timeoutMs token)
  | .drain id maxBytes token => do return .read (← drain id maxBytes token)
  | .clearInput id maxBytes token => do return .read (← clearInput id maxBytes token)
  | .exec id command expect timeoutMs options token => do
    return .ran (← execWithOptions rx id command expect timeoutMs options token)

def managerCode (env : Environment) (rx : RegexCrate) (call : ManagerCall) : ManagerProgram :=
  (managerOp env rx call).run

theorem Concludes.follows {α : Type} {p : Op α} (h : Concludes p) :
    lifecycle.Follows .idle p.run fun ρ _ => Role.Settled ρ := by
  apply Follows.mono h
  intro ρ result hρ
  cases result with
  | ok a => exact hρ
  | error e => exact hρ

theorem Concludes.map {α β : Type} {p : Op α} (h : Concludes p) (f : α → β) :
    Concludes (do return f (← p)) := by
  unfold Concludes
  rw [meets_bind]
  exact h

theorem managerCode_orderly (env : Environment) (rx : RegexCrate) :
    Orderly (managerCode env rx) := by
  intro call
  apply Concludes.follows
  cases call with
  | «open» args => exact (concludes_openWithConsoleAndPolicy env args).map _
  | close id timeoutMs => exact (concludes_closeWithTimeout id timeoutMs).map _
  | write id data token => exact (concludes_writeWithCancel id data token).map _
  | read id maxBytes timeoutMs token =>
    exact (concludes_readWithCancel id maxBytes timeoutMs token).map _
  | readUntil id pattern timeoutMs token =>
    exact (concludes_readUntilWithCancel rx id pattern timeoutMs token).map _
  | drain id maxBytes token => exact (concludes_drain id maxBytes token).map _
  | clearInput id maxBytes token => exact (concludes_drain id maxBytes token).map _
  | exec id command expect timeoutMs options token =>
    exact (concludes_execWithOptions rx id command expect timeoutMs options token).map _

/-! ## A session opened by the first thread -/

def defaultEnv : Environment := ⟨none, none, fun _ => .error "not parsed"⟩

def noRegex : RegexCrate := ⟨fun _ => .error "not supported"⟩

def emptyRegex : Regex := ⟨fun text => some ⟨[], [], text, rfl⟩⟩

def emptyRegexes : RegexCrate := ⟨fun _ => .ok emptyRegex⟩

def plainOptions : ExecOptions := ⟨false, .unknown, .lf⟩

def firstArgs : SessionArgs :=
  { portPath := "/dev/ttyUSB0"
    baud := defaultBaud
    defaultTimeoutMs := McpSerial.defaultTimeoutMs
    writePolicy := .allow
    consoleSettings := {}
    commandPolicy := {} }

def firstId : String := "00000000000000000000000000000000"

def firstSession : Session := (Session.opening firstId firstArgs).transitionToReady (0 : Nat)

def firstState : ManagerState := ⟨AList.singleton firstId firstSession, fun _ => none, (1 : Nat)⟩

def firstTrace : List ManagerLabel :=
  [.start 0 (.open firstArgs), .act 0 ⟨.reserve firstArgs, .ok firstId⟩,
    .act 0 ⟨.backendOpen firstArgs.portPath defaultBaud, .ok (0 : Nat)⟩,
    .act 0 ⟨.completeOpen firstId (.ok (0 : Nat)), .ok firstId⟩]

/-- A session on another port; its id is drawn when that of the first is taken. -/
def secondArgs : SessionArgs := { firstArgs with portPath := "/dev/ttyUSB1" }

def secondId : String := "01010101010101010101010101010101"

def twoDraws : List (Except String (Vector UInt8 16)) :=
  [.ok (Vector.replicate 16 0), .ok (Vector.replicate 16 1)]

theorem first_run_of (rx : RegexCrate) : ∃ threads,
    Run machine (managerCode defaultEnv rx) firstTrace ⟨firstState, threads⟩ ∧
    (∀ t, t ≠ 0 → threads t = none) ∧
    ∃ th, threads 0 = some th ∧ th.rest = .ret (.ok (.opened firstId)) := by
  have h₀ : Run machine (managerCode defaultEnv rx) [] _ := .refl
  have h₁ := h₀.start 0 (.open firstArgs) rfl
  have h₂ := h₁.act 0 (r := .reserve firstArgs) (.ok firstId) rfl
    ⟨[.ok (Vector.replicate 16 0)], _, rfl, rfl⟩
  have h₃ := h₂.act 0 (r := .backendOpen firstArgs.portPath defaultBaud) (.ok (0 : Nat)) rfl
    ⟨rfl, rfl⟩
  have h₄ := h₃.act 0 (r := .completeOpen firstId (.ok (0 : Nat))) (.ok firstId) rfl ⟨rfl, rfl⟩
  refine ⟨_, h₄, fun t ht => ?_, _, rfl, rfl⟩
  simp [Config.put, Function.update_of_ne ht, initial]

theorem first_run : ∃ threads, Run machine (managerCode defaultEnv noRegex) firstTrace
      ⟨firstState, threads⟩ ∧
    (∀ t, t ≠ 0 → threads t = none) ∧
    ∃ th, threads 0 = some th ∧ th.rest = .ret (.ok (.opened firstId)) := first_run_of noRegex

end McpSerial
