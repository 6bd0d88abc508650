import McpSerial.Interaction.Fallible
import McpSerial.Manager.Machine
import McpSerial.Parser

/-! The operations of `SessionManager` (`serial/manager.rs`). A loop that reads
until its deadline recurses on the turns the clock leaves it. -/

namespace McpSerial
open Interaction
open Interaction.Fallible (ofResult attempt releasing)

abbrev Op := Fallible Request Response SerialError

abbrev ask (r : Request) : Op (Response r) := Fallible.ask r

structure SessionSnapshot where
  sessionId : String
  port : String
  baud : Nat
  state : String
  defaultTimeoutMs : Nat
  writePolicy : WritePolicy
  consoleSettings : ConsoleSettings
  commandPolicy : CommandPolicySummary
  deriving DecidableEq, Repr

def snapshot (s : Session) : SessionSnapshot :=
  { sessionId := s.id
    port := s.portPath
    baud := s.baud
    state := s.state.name
    defaultTimeoutMs := s.defaultTimeoutMs
    writePolicy := s.writePolicy
    consoleSettings := s.consoleSettings
    commandPolicy := s.commandPolicy.summary }

inductive ReadStatus where
  | complete
  | timedOut
  | eof
  | cancelled
  deriving DecidableEq, Repr

def ReadStatus.asStr : ReadStatus → String
  | complete => "complete"
  | timedOut => "timed_out"
  | eof => "eof"
  | cancelled => "cancelled"

structure ReadOutcome where
  data : List UInt8
  status : ReadStatus
  bytesRead : Nat
  truncated : Bool
  deriving DecidableEq, Repr

structure ExecOptions where
  clearBeforeWrite : Bool
  echoMode : EchoMode
  lineEnding : LineEnding
  deriving DecidableEq, Repr

inductive ExecStatus where
  | matched
  | timedOut
  | eof
  | cancelled
  deriving DecidableEq, Repr

def ExecStatus.asStr : ExecStatus → String
  | matched => "matched"
  | timedOut => "timed_out"
  | eof => "eof"
  | cancelled => "cancelled"

structure ExecOutcome where
  status : ExecStatus
  output : List UInt8
  bytesWritten : Nat
  bytesRead : Nat
  elapsedMs : Nat
  truncated : Bool
  matchDetails : Option MatchDetails
  commandWritten : Bool
  sessionUsable : Bool
  clearedBeforeWrite : Option ReadOutcome
  deriving DecidableEq, Repr

def drainTotalMs : Nat := 100

/-! ## Lookups -/

def getOr (id : String) : Op Session := do
  match ← ask (.get id) with
  | some s => return s
  | none => throw (.sessionNotFound id)

def writePolicy (id : String) : Op WritePolicy := do return (← getOr id).writePolicy

def consoleSettings (id : String) : Op ConsoleSettings := do return (← getOr id).consoleSettings

def commandPolicy (id : String) : Op CommandPolicy := do return (← getOr id).commandPolicy

def getSession (id : String) : Op SessionSnapshot := do return snapshot (← getOr id)

def sessions : Op (List SessionSnapshot) := do return (← ask .values).map snapshot

def checkoutPortAndTimeout (id : String) : Op (Handle × Nat) := do
  let s ← getOr id
  match s.port with
  | some port => return (port, s.defaultTimeoutMs)
  | none => throw (.invalidState id s.state.name "Ready")

def checkoutPort (id : String) : Op Handle := do return (← checkoutPortAndTimeout id).1

def ensurePortStillReady (id : String) (checkedOut : Handle) : Op Unit := do
  let s ← getOr id
  if s.port = some checkedOut ∧ s.isReady then return ()
  else throw (.invalidState id s.state.name "Ready")

/-! ## The port under its lock -/

def lockPort (port : Handle) (timeoutMs : Nat) (token : Token) : Op Unit := do
  if ← ask .timeLeft then
    match ← ask (.lock port token) with
    | .ready _ => return ()
    | .elapsed => throw (.timeout timeoutMs)
    | .cancelled => throw .cancelled
  else throw (.timeout timeoutMs)

def writeAll (port : Handle) (timeoutMs : Nat) (token : Token) : List UInt8 → Nat → Op Unit
  | [], _ => return ()
  | _ :: data, skip + 1 => writeAll port timeoutMs token data skip
  | b :: data, 0 => do
    match ← ask (.write port (b :: data) token) with
    -- a port that takes nothing would be offered the same bytes for ever
    | .ready (.ok ⟨0, _⟩) => throw (.io "write: write zero")
    | .ready (.ok ⟨n + 1, _⟩) => writeAll port timeoutMs token data n
    | .ready (.error e) => throw (.io s!"write: {e}")
    | .elapsed => throw (.timeout timeoutMs)
    | .cancelled => throw .cancelled

def writeAllDeadline (port : Handle) (data : List UInt8) (timeoutMs : Nat) (token : Token) :
    Op Unit := do
  if ← ask .timeLeft then
    -- `select!` may take the branch of a cancelled token before it polls the write
    if ← ask (.cancelPicked token) then throw .cancelled
    else writeAll port timeoutMs token data 0
  else throw (.timeout timeoutMs)

def flushDeadline (port : Handle) (timeoutMs : Nat) (token : Token) : Op Unit := do
  if ← ask .timeLeft then
    match ← ask (.flush port token) with
    | .ready (.ok _) => return ()
    | .ready (.error e) => throw (.io s!"flush: {e}")
    | .elapsed => throw (.timeout timeoutMs)
    | .cancelled => throw .cancelled
  else throw (.timeout timeoutMs)

def chunkLen : Nat := 4096

def readOutcome (acc : List UInt8) (status : ReadStatus) (truncated : Bool) : ReadOutcome :=
  { data := acc, status, bytesRead := acc.length, truncated }

/-- The loop of `read_locked` and of `read_idle_locked`, which differ in the window
of one read only. -/
def readLoop (port : Handle) (maxBytes : Nat) (token : Token) : Nat → List UInt8 → Op ReadOutcome
  | turns, acc =>
    if maxBytes ≤ acc.length then
      return readOutcome acc .complete (maxBytes ≤ acc.length)
    else
      match turns with
      -- `turns` are the reads that start before the deadline
      | 0 => return readOutcome acc .timedOut false
      | turns + 1 => do
        match ← ask (.read port (min (maxBytes - acc.length) chunkLen) token) with
        | .cancelled => return readOutcome acc .cancelled false
        | .elapsed => return readOutcome acc .timedOut false
        | .ready (.error e) => throw (.io s!"read: {e}")
        | .ready (.ok bytes) =>
          if bytes.1.isEmpty then return readOutcome acc .eof false
          else readLoop port maxBytes token turns (acc ++ bytes.1)

def readLocked (port : Handle) (maxBytes : Nat) (token : Token) : Op ReadOutcome := do
  readLoop port maxBytes token (← ask .turns) []

def readIdleLocked (port : Handle) (maxBytes : Nat) (token : Token) : Op ReadOutcome := do
  readLoop port maxBytes token (← ask .turns) []

def visibleMatchDetails (m : PatternMatcher) (echoBoundarySeen : Bool) : Option MatchDetails :=
  if echoBoundarySeen then m.matchDetails else none

structure UntilOutcome where
  status : ExecStatus
  bytesRead : Nat
  matchDetails : Option MatchDetails
  matcher : PatternMatcher

def readUntilLoop (port : Handle) (token : Token) (lineEnding : LineEnding) :
    Nat → PatternMatcher → Nat → Bool → Op UntilOutcome
  | 0, m, bytesRead, seen => return ⟨.timedOut, bytesRead, visibleMatchDetails m seen, m⟩
  | turns + 1, m, bytesRead, seen => do
    match ← ask (.read port chunkLen token) with
    | .cancelled => return ⟨.cancelled, bytesRead, visibleMatchDetails m seen, m⟩
    | .elapsed => return ⟨.timedOut, bytesRead, visibleMatchDetails m seen, m⟩
    | .ready (.error e) => throw (.io s!"read: {e}")
    | .ready (.ok bytes) =>
      let n := bytesRead + bytes.1.length
      -- no bytes: the end of the stream, where nothing new can match
      if bytes.1.isEmpty then
        let status := if seen && m.isMatch then .matched else .eof
        return ⟨status, bytesRead, visibleMatchDetails m seen, m⟩
      else if seen then
        let (hit, m) := m.push bytes.1
        if hit then return ⟨.matched, n, m.matchDetails, m⟩
        else readUntilLoop port token lineEnding turns m n true
      else
        -- as long as the echoed line has not ended, the chunk may be all echo
        let m := m.pushWithoutMatching bytes.1
        match echoLineBoundary m.live lineEnding with
        | none => readUntilLoop port token lineEnding turns m n false
        | some boundary =>
          -- the rest of the chunk is behind the echo and is searched at once
          let m := m.setSearchStart boundary
          if m.isMatch then return ⟨.matched, n, m.matchDetails, m⟩
          else readUntilLoop port token lineEnding turns m n true

def readUntilLocked (port : Handle) (m : PatternMatcher) (token : Token) (echoMode : EchoMode)
    (lineEnding : LineEnding) : Op UntilOutcome := do
  readUntilLoop port token lineEnding (← ask .turns) m 0 (echoMode ≠ .line)

/-! ## Open and close -/

def openWithConsoleAndPolicy (env : Environment) (args : SessionArgs) : Op String := do
  if matchesAllowlist env args.portPath then
    -- the entry comes before the device, so the limit holds while the device is opened
    let id ← ofResult (← ask (.reserve args))
    let result ← ask (.backendOpen args.portPath args.baud)
    ofResult (← ask (.completeOpen id result))
  else throw (.portNotAllowed args.portPath)

def closeWithTimeout (id : String) (timeoutMs : Nat) : Op Unit := do
  match ← ofResult (← ask (.beginClose id)) with
  | some port =>
    match ← attempt (lockPort port timeoutMs .never) with
    | .ok _ =>
      -- with the lock nobody is at work on the port any more
      ask (.unlock port)
      let _ ← ask (.finishClose id)
    | .error e =>
      -- whoever holds the lock goes on, on a session that is `Ready` again
      let _ ← ask (.restoreReady id port)
      throw e
  -- still `Opening`: there is no port to wait for
  | none =>
    let _ ← ask (.finishClose id)

def close (id : String) : Op Unit := closeWithTimeout id maxTimeoutMs

/-! ## Input and output -/

/-- `body` with the lock on `port` held and the session checked again under it. -/
def withPort {α : Type} (id : String) (port : Handle) (timeoutMs : Nat) (token : Token)
    (body : Op α) : Op α := do
  lockPort port timeoutMs token
  releasing (.unlock port) do
    -- a close may have come in while this call waited for the lock
    ensurePortStillReady id port
    body

def writeWithCancel (id : String) (data : List UInt8) (token : Token) : Op Nat := do
  let (port, timeoutMs) ← checkoutPortAndTimeout id
  withPort id port timeoutMs token do
    writeAllDeadline port data timeoutMs token
    flushDeadline port timeoutMs token
    return data.length

def readWithCancel (id : String) (maxBytes timeoutMs : Nat) (token : Token) : Op ReadOutcome := do
  let port ← checkoutPort id
  withPort id port timeoutMs token (readLocked port maxBytes token)

def readUntilWithCancel (rx : RegexCrate) (id pattern : String) (timeoutMs : Nat) (token : Token) :
    Op ExecOutcome := do
  let port ← checkoutPort id
  let matcher ← ofResult (PatternMatcher.new rx pattern)
  withPort id port timeoutMs token do
    let found ← readUntilLocked port matcher token .unknown .none
    let output := found.matcher.intoBuffer
    return { status := found.status
             output
             bytesWritten := 0
             bytesRead := found.bytesRead
             elapsedMs := ← ask .elapsedMs
             truncated := maxReadBuffer ≤ output.length
             matchDetails := found.matchDetails
             commandWritten := false
             sessionUsable := true
             clearedBeforeWrite := none }

def drain (id : String) (maxBytes : Nat) (token : Token) : Op ReadOutcome := do
  let port ← checkoutPort id
  withPort id port drainTotalMs token (readIdleLocked port maxBytes token)

def clearInput (id : String) (maxBytes : Nat) (token : Token) : Op ReadOutcome :=
  drain id maxBytes token

/-- The outcome of an `exec` that was cancelled before it wrote. -/
def cancelledBeforeWrite (elapsedMs : Nat) (cleared : Option ReadOutcome) : ExecOutcome :=
  { status := .cancelled
    output := []
    bytesWritten := 0
    bytesRead := 0
    elapsedMs
    truncated := false
    matchDetails := none
    commandWritten := false
    sessionUsable := true
    clearedBeforeWrite := cleared }

/-- The first phase of `exec_with_options` under the lock. -/
def clearBefore (port : Handle) (options : ExecOptions) (token : Token) :
    Op (Option ReadOutcome) := do
  if options.clearBeforeWrite then some <$> readIdleLocked port maxReadBuffer token
  else return none

def execCleared (port : Handle) (command : List UInt8) (matcher : PatternMatcher) (timeoutMs : Nat)
    (options : ExecOptions) (token : Token) (cleared : Option ReadOutcome) : Op ExecOutcome := do
  if ← ask (.isCancelled token) then
    return cancelledBeforeWrite (← ask .elapsedMs) cleared
  else
    writeAllDeadline port command timeoutMs token
    flushDeadline port timeoutMs token
    let found ← readUntilLocked port matcher token options.echoMode options.lineEnding
    let output := found.matcher.intoBuffer
    return { status := found.status
             output
             bytesWritten := command.length
             bytesRead := found.bytesRead
             elapsedMs := ← ask .elapsedMs
             truncated := maxReadBuffer ≤ output.length
             matchDetails := found.matchDetails
             commandWritten := true
             sessionUsable := true
             clearedBeforeWrite := cleared }

def execWithOptions (rx : RegexCrate) (id : String) (command : List UInt8) (expect : String)
    (timeoutMs : Nat) (options : ExecOptions) (token : Token) : Op ExecOutcome := do
  if maxWriteChunk < command.length then
    throw (.invalidParam "command"
      s!"command is {command.length} bytes; max per write is {maxWriteChunk}")
  else
    let port ← checkoutPort id
    let matcher ← ofResult (PatternMatcher.new rx expect)
    if ← ask (.isCancelled token) then return cancelledBeforeWrite 0 none
    else
      withPort id port timeoutMs token do
        let cleared ← clearBefore port options token
        execCleared port command matcher timeoutMs options token cleared

end McpSerial
