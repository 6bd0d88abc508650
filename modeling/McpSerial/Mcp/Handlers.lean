import McpSerial.Mcp.Confirmation

/-! The tool handlers (`mcp/mod.rs`): validation, the gates and the operation they guard. -/

namespace McpSerial
open Interaction Utf8

abbrev Handler := Program Request Response

def done (result : CallToolResult) : Handler CallToolResponse := return .complete result

def refused (err : SerialError) (sessionId : Option String) : CallToolResult :=
  toolError err sessionId false false

inductive WriteGate where
  | proceed
  | blocked (result : CallToolResult)
  | elicit (ask : InputRequiredResult)

def WriteGate.refused (err : SerialError) (sessionId : String) : WriteGate :=
  .blocked (McpSerial.refused err (some sessionId))

/-! ## Ports and profiles (`serial/mod.rs`) -/

def availablePorts : Op (List SerialPortInfo) := do
  match ← ask .availablePorts with
  | .ok raw => return raw
  | .error e => throw (.io s!"available_ports: {e}")

def listPorts (env : Environment) (profiles : List DeviceProfile) : Op (List PortDescriptor) := do
  return enrichWithProfiles (filterAllowlisted env (← availablePorts)) profiles

def resolveDevice (env : Environment) (deviceName : String) (profiles : List DeviceProfile) :
    Op ResolvedDevice := do
  match profiles.find? fun p => p.name == deviceName with
  | none => throw (.deviceNotFound deviceName)
  | some profile =>
    let ports := filterAllowlisted env (← availablePorts)
    match ports.find? fun port => profileMatchesPort profile port with
    | none => throw (.deviceNotFound deviceName)
    | some port => return resolvedFromProfile profile port.port

def canonical (path : String) : Op String := do return (← ask (.canonicalize path)).getD path

/-- The descriptors of the host's ports under their canonical paths. -/
def canonicalPorts : List SerialPortInfo → Op (List PortDescriptor)
  | [] => return []
  | info :: raw => do
    let port := PortDescriptor.ofInfo info
    let path ← canonical port.port
    return { port with port := path } :: (← canonicalPorts raw)

def resolvePortProfile (portPath : String) (profiles : List DeviceProfile) :
    Op (Option ResolvedDevice) := do
  if profiles.isEmpty then return none
  else
    let ports ← canonicalPorts (← availablePorts)
    let path ← canonical portPath
    return (matchPortProfile path ports profiles).map fun resolved => { resolved with portPath }

namespace McpServer

variable (srv : McpServer)

/-! ## Gates -/

def gateByPolicy (sessionId : String) (confirmed : Bool) (context : RequestContext)
    (inputResponses : Option InputResponses) (tool : String) (payload : List UInt8) :
    WritePolicy → Handler WriteGate
  | .deny => return .refused (.writeForbidden sessionId) sessionId
  | .confirm =>
    -- `confirm: true` does not count where the person at the client can be asked
    if clientCanElicit context then
      let key := confirmationKey srv sessionId tool payload
      match inputResponses.bind (·.lookup key) with
      -- the first round: the request comes back with an answer under this key, or not at all
      | none => do
        match ← (McpSerial.getSession sessionId).run with
        | .error err => return .refused err sessionId
        | .ok snapshot => return .elicit (confirmationRequest srv snapshot tool payload key)
      | some answer =>
        match confirmationAnswer srv answer with
        | .ok _ => return .proceed
        | .error action => return .refused (.confirmationDeclined sessionId action) sessionId
    else if confirmed then return .proceed
    else return .refused (.confirmationRequired sessionId) sessionId
  | .allow => return .proceed

def gateWrite (sessionId : String) (confirmed : Bool) (context : RequestContext)
    (inputResponses : Option InputResponses) (tool : String) (payload : List UInt8) :
    Handler WriteGate := do
  match ← (writePolicy sessionId).run with
  | .error err => return .refused err sessionId
  | .ok policy =>
    srv.gateByPolicy sessionId confirmed context inputResponses tool payload policy

def gateCommandPolicy (sessionId : String) (command : List Char) (sessionLineEnding : LineEnding)
    (requestedLineEnding : Option LineEnding) : Handler (Option CallToolResult) := do
  match ← (commandPolicy sessionId).run with
  | .error err => return some (refused err (some sessionId))
  | .ok policy =>
    return (policy.check command sessionLineEnding requestedLineEnding).map
      fun rule => refused (.commandBlocked rule) (some sessionId)

def gateRawWritePolicy (sessionId : String) : Handler (Option CallToolResult) := do
  match ← (commandPolicy sessionId).run with
  | .error err => return some (refused err (some sessionId))
  | .ok policy =>
    -- the rules are about complete commands, which raw bytes need not be
    if policy.isEmpty then return none
    else return some (refused (.rawWriteForbidden sessionId) (some sessionId))

def operationTimeoutMs (sessionId : String) (requested : Option Nat) : Op Nat := do
  match requested with
  | some timeoutMs => return min timeoutMs maxTimeoutMs
  | none => return (← McpSerial.getSession sessionId).defaultTimeoutMs

/-! ## Handlers -/

def defaultReadMaxBytes : Nat := 4096

def listPorts : Handler CallToolResponse := do
  match ← (McpSerial.listPorts srv.toEnvironment srv.profiles).run with
  | .ok ports => done (.listPorts ports)
  | .error err => done (refused err none)

/-- What the resolution of `port` or `device` settles before a session is opened. -/
structure OpenTarget where
  portPath : String
  baud : Nat
  profilePolicy : WritePolicy
  consoleSettings : ConsoleSettings
  profileDeny : List String
  profileAllow : List String

def OpenTarget.ofResolved (portPath : String) (p : OpenParams) (resolved : ResolvedDevice) :
    OpenTarget :=
  { portPath
    baud := p.baud.getD resolved.baud
    profilePolicy := resolved.writePolicy
    consoleSettings := resolved.consoleSettings
    profileDeny := resolved.denyPatterns
    profileAllow := resolved.allowPatterns }

def openTarget (p : OpenParams) : Op OpenTarget := do
  match p.port, p.device with
  | some _, some _ => throw (.invalidParam "port/device" "specify 'device' or 'port', not both")
  | none, none =>
    throw (.invalidParam "port/device" "missing required parameter: 'port' or 'device'")
  | some port, none =>
    -- a profile binds its hardware by path as well as by name
    match ← resolvePortProfile port srv.profiles with
    | some resolved => return .ofResolved port p resolved
    | none =>
      return { portPath := port
               baud := p.baud.getD defaultBaud
               profilePolicy := .allow
               consoleSettings := {}
               profileDeny := []
               profileAllow := [] }
  | none, some device =>
    let resolved ← resolveDevice srv.toEnvironment device srv.profiles
    return .ofResolved resolved.portPath p resolved

def openArgs (p : OpenParams) (target : OpenTarget) : Except SerialError SessionArgs := do
  let globalDeny ← globalDenyPatterns srv.toEnvironment
  let commandPolicy ← CommandPolicy.compile srv.toRegexCrate globalDeny target.profileDeny
    target.profileAllow (p.denyPatterns.getD [])
  let consoleSettings ← match p.lineEnding with
    | none => pure target.consoleSettings
    | some lineEnding =>
      let profileLineEnding := target.consoleSettings.lineEnding
      -- what the console takes for a terminator is for the profile to say
      if !commandPolicy.isEmpty && profileLineEnding ≠ .none && lineEnding ≠ profileLineEnding then
        throw (.invalidParam "line_ending" "cannot override a guarded profile's line_ending")
      else pure { target.consoleSettings with lineEnding }
  return { portPath := target.portPath
           baud := target.baud
           defaultTimeoutMs := min (p.timeoutMs.getD defaultTimeoutMs) maxTimeoutMs
           writePolicy := target.profilePolicy.max (p.writePolicy.getD .allow)
           consoleSettings
           commandPolicy }

/-- Every error of `serial.open` is one refusal without a session. -/
def openSession (p : OpenParams) : Op String := do
  let args ← Fallible.ofResult (openArgs srv p (← openTarget srv p))
  openWithConsoleAndPolicy srv.toEnvironment args

def «open» (p : OpenParams) : Handler CallToolResponse := do
  match ← (openSession srv p).run with
  | .ok sessionId => done (.open ⟨sessionId⟩)
  | .error err => done (refused err none)

def sessions : Handler CallToolResponse := do
  match ← McpSerial.sessions.run with
  | .ok sessions => done (.sessions sessions)
  | .error err => done (refused err none)

def getSession (p : GetSessionParams) : Handler CallToolResponse := do
  match ← (McpSerial.getSession p.sessionId).run with
  | .ok session => done (.getSession session)
  | .error err => done (refused err (some p.sessionId))

def sendWrite (p : WriteParams) : Handler CallToolResponse := do
  match ← (writeWithCancel p.sessionId (asBytes p.data) .call).run with
  | .ok bytesWritten => done (.write ⟨bytesWritten⟩)
  | .error err => done (toolError err (some p.sessionId) err.possibleSerialSideEffect false)

def write (p : WriteParams) (context : RequestContext) (inputResponses : Option InputResponses) :
    Handler CallToolResponse := do
  if maxWriteChunk < (asBytes p.data).length then
    done (refused (.invalidParam "data"
      s!"'data' is {(asBytes p.data).length} bytes; max per write is {maxWriteChunk}")
      (some p.sessionId))
  else
    match ← gateRawWritePolicy p.sessionId with
    | some blocked => done blocked
    | none =>
      match ← gateWrite srv p.sessionId (p.confirm.getD false) context inputResponses
        "serial.write" (asBytes p.data) with
      | .proceed => sendWrite p
      | .blocked blocked => done blocked
      | .elicit ask => return .inputRequired ask

def read (p : ReadParams) : Handler CallToolResponse := do
  match ← (operationTimeoutMs p.sessionId p.timeoutMs).run with
  | .error err => done (refused err (some p.sessionId))
  | .ok timeoutMs =>
    let maxBytes := min (p.maxBytes.getD defaultReadMaxBytes) maxReadBuffer
    match ← (readWithCancel p.sessionId maxBytes timeoutMs .call).run with
    | .ok outcome => done (.read (readResult outcome))
    | .error err => done (toolError err (some p.sessionId) false err.possibleSerialSideEffect)

def drain (p : DrainParams) : Handler CallToolResponse := do
  let maxBytes := min (p.maxBytes.getD maxReadBuffer) maxReadBuffer
  match ← (McpSerial.drain p.sessionId maxBytes .call).run with
  | .ok outcome => done (.read (readResult outcome))
  | .error err => done (toolError err (some p.sessionId) false err.possibleSerialSideEffect)

def clearInput (p : DrainParams) : Handler CallToolResponse := do
  let maxBytes := min (p.maxBytes.getD maxReadBuffer) maxReadBuffer
  match ← (McpSerial.clearInput p.sessionId maxBytes .call).run with
  | .ok outcome => done (.clearInput (clearInputResult outcome))
  | .error err => done (toolError err (some p.sessionId) false err.possibleSerialSideEffect)

def readUntil (p : ReadUntilParams) : Handler CallToolResponse := do
  match ← (operationTimeoutMs p.sessionId p.timeoutMs).run with
  | .error err => done (refused err (some p.sessionId))
  | .ok timeoutMs =>
    match ← (readUntilWithCancel srv.toRegexCrate p.sessionId p.pattern timeoutMs .call).run with
    | .ok outcome => done (.readUntil (readUntilResult outcome))
    | .error err => done (toolError err (some p.sessionId) false err.possibleSerialSideEffect)

structure ExecPlan where
  lineEnding : LineEnding
  echoMode : EchoMode
  semanticPrompt : SemanticPrompt
  transmitted : List UInt8

def execPlan (p : ExecParams) (defaults : ConsoleSettings) : ExecPlan :=
  let lineEnding := p.lineEnding.getD defaults.lineEnding
  { lineEnding
    echoMode := p.echoMode.getD defaults.echoMode
    semanticPrompt := p.semanticPrompt.getD defaults.semanticPrompt
    transmitted := lineEnding.appendTo (asBytes p.command) }

/-- The checks on the arguments alone, before the session is looked up. -/
def execArgumentError (p : ExecParams) : Option SerialError :=
  if maxWriteChunk < (asBytes p.command).length then
    some (.invalidParam "command"
      s!"'command' is {(asBytes p.command).length} bytes; max per write is {maxWriteChunk}")
  else if p.expect.isEmpty then some (.invalidParam "expect" "must not be empty")
  else
    match boundedRegex srv.toRegexCrate p.expect with
    | .error reason => some (.invalidParam "expect" reason)
    | .ok _ => none

/-- The checks on the line that will be sent. -/
def execPlanError (plan : ExecPlan) : Option SerialError :=
  if plan.echoMode = .line ∧ plan.lineEnding = .none then
    some (.invalidParam "echo_mode" "`line` requires line_ending to be `lf`, `cr`, or `crlf`")
  else if maxWriteChunk < plan.transmitted.length then
    some (.invalidParam "command"
      (s!"command plus {plan.lineEnding.debug} line ending is {plan.transmitted.length} bytes; " ++
        s!"max per write is {maxWriteChunk}"))
  else none

def sendExec (p : ExecParams) (plan : ExecPlan) : Handler CallToolResponse := do
  match ← (operationTimeoutMs p.sessionId p.timeoutMs).run with
  | .error err => done (refused err (some p.sessionId))
  | .ok timeoutMs =>
    let options : ExecOptions :=
      { clearBeforeWrite := p.clearBeforeWrite.getD false
        echoMode := plan.echoMode
        lineEnding := plan.lineEnding }
    match ← (execWithOptions srv.toRegexCrate p.sessionId plan.transmitted p.expect timeoutMs
      options .call).run with
    | .ok outcome =>
      done (.exec (execResult outcome plan.lineEnding plan.echoMode plan.semanticPrompt
        (p.normalizeOutput.getD false)))
    | .error err =>
      let possibleWrite := err.possibleSerialSideEffect
      done (toolError err (some p.sessionId) possibleWrite possibleWrite)

def exec (p : ExecParams) (context : RequestContext) (inputResponses : Option InputResponses) :
    Handler CallToolResponse := do
  match execArgumentError srv p with
  | some err => done (refused err (some p.sessionId))
  | none =>
    match ← (consoleSettings p.sessionId).run with
    | .error err => done (refused err (some p.sessionId))
    | .ok defaults =>
      -- the rules see the command as the caller gave it, without a terminator
      match ← gateCommandPolicy p.sessionId p.command.toList defaults.lineEnding p.lineEnding with
      | some blocked => done blocked
      | none =>
        let plan := execPlan p defaults
        match execPlanError plan with
        | some err => done (refused err (some p.sessionId))
        | none =>
          -- the person is asked about the bytes that will be sent, terminator included
          match ← gateWrite srv p.sessionId (p.confirm.getD false) context inputResponses
            "serial.exec" plan.transmitted with
          | .proceed => sendExec srv p plan
          | .blocked blocked => done blocked
          | .elicit ask => return .inputRequired ask

def close (p : CloseParams) : Handler CallToolResponse := do
  match ← (McpSerial.close p.sessionId).run with
  | .ok _ => done (.close true)
  | .error err => done (refused err (some p.sessionId))

end McpServer

/-! ## Calls -/

inductive ToolCall where
  | listPorts
  | open (p : OpenParams)
  | sessions
  | getSession (p : GetSessionParams)
  | write (p : WriteParams) (context : RequestContext) (inputResponses : Option InputResponses)
  | read (p : ReadParams)
  | drain (p : DrainParams)
  | clearInput (p : DrainParams)
  | readUntil (p : ReadUntilParams)
  | exec (p : ExecParams) (context : RequestContext) (inputResponses : Option InputResponses)
  | close (p : CloseParams)

def toolCode (srv : McpServer) : ToolCall → Handler CallToolResponse
  | .listPorts => srv.listPorts
  | .open p => srv.open p
  | .sessions => McpServer.sessions
  | .getSession p => McpServer.getSession p
  | .write p context inputResponses => srv.write p context inputResponses
  | .read p => McpServer.read p
  | .drain p => McpServer.drain p
  | .clearInput p => McpServer.clearInput p
  | .readUntil p => srv.readUntil p
  | .exec p context inputResponses => srv.exec p context inputResponses
  | .close p => McpServer.close p

end McpSerial
