import McpSerial.Manager.Operations

/-! The messages of the tool layer (`mcp/mod.rs`): parameters, results and the parts of
a request that the write gate reads. -/

namespace McpSerial

/-! ## Requests -/

structure OpenParams where
  port : Option String
  device : Option String
  baud : Option Nat
  timeoutMs : Option Nat
  writePolicy : Option WritePolicy
  denyPatterns : Option (List String)
  lineEnding : Option LineEnding
  deriving DecidableEq, Repr

structure WriteParams where
  sessionId : String
  data : String
  confirm : Option Bool
  deriving DecidableEq, Repr

structure GetSessionParams where
  sessionId : String
  deriving DecidableEq, Repr

structure ReadParams where
  sessionId : String
  maxBytes : Option Nat
  timeoutMs : Option Nat
  deriving DecidableEq, Repr

structure DrainParams where
  sessionId : String
  maxBytes : Option Nat
  deriving DecidableEq, Repr

structure ReadUntilParams where
  sessionId : String
  pattern : String
  timeoutMs : Option Nat
  deriving DecidableEq, Repr

structure CloseParams where
  sessionId : String
  deriving DecidableEq, Repr

structure ExecParams where
  sessionId : String
  command : String
  expect : String
  lineEnding : Option LineEnding
  echoMode : Option EchoMode
  semanticPrompt : Option SemanticPrompt
  confirm : Option Bool
  clearBeforeWrite : Option Bool
  normalizeOutput : Option Bool
  timeoutMs : Option Nat
  deriving DecidableEq, Repr

structure ElicitationCapability where
  form : Bool
  url : Bool
  deriving DecidableEq, Repr

/-- What the gate reads of `RequestContext`: the protocol revision, a date, and
the elicitation capability among the client's. -/
structure RequestContext where
  protocolVersion : Option String
  elicitation : Option ElicitationCapability
  deriving DecidableEq, Repr

abbrev InputResponses := List (String × Value)

inductive ElicitationAction where
  | accept
  | decline
  | cancel
  | other
  deriving DecidableEq, Repr

structure ElicitResult where
  action : ElicitationAction
  content : Option Value

/-- What the process and its libraries supply to the server: the environment, the regex
crate, the hash under the keys drawn at start, `serde_json` on an `ElicitResult` and the
characters that `Debug` writes as `\u` escapes. -/
structure McpServer extends Environment, RegexCrate where
  profiles : List DeviceProfile
  hash : List UInt8 → UInt64
  elicitResult : Value → Option ElicitResult
  escapes : Char → Bool

/-! ## Results -/

structure OpenResult where
  sessionId : String
  deriving DecidableEq, Repr

structure WriteResult where
  bytesWritten : Nat
  deriving DecidableEq, Repr

structure ReadResult where
  data : List Char
  status : String
  timedOut : Bool
  bytesRead : Nat
  truncated : Bool
  sessionUsable : Bool
  outputIsUntrusted : Bool
  deriving DecidableEq, Repr

structure ClearInputResult where
  status : String
  bytesRead : Nat
  discardedBytes : Nat
  truncated : Bool
  sessionUsable : Bool
  deriving DecidableEq, Repr

structure ReadUntilResult where
  data : List Char
  matched : Bool
  status : String
  bytesRead : Nat
  truncated : Bool
  matchDetails : Option MatchDetails
  sessionUsable : Bool
  outputIsUntrusted : Bool
  deriving DecidableEq, Repr

structure ExecResult where
  status : String
  output : List Char
  rawOutput : List Char
  normalizedOutput : Option (List Char)
  commandOutput : Option (List Char)
  commandOutputSource : Option String
  semanticStatus : Option String
  exitCode : Option Int
  ok : Bool
  bytesWritten : Nat
  bytesRead : Nat
  elapsedMs : Nat
  truncated : Bool
  matchDetails : Option MatchDetails
  commandWritten : Bool
  sessionUsable : Bool
  clearedBeforeWrite : Option ClearInputResult
  outputIsUntrusted : Bool
  deriving DecidableEq, Repr

structure ToolErrorBody where
  type : String
  message : String
  code : Int
  data : Value
  retryable : Bool
  sessionId : Option String
  commandWritten : Bool
  bytesConsumed : Bool
  sessionUsable : Bool

/-- The structured content of a `CallToolResult`, before it is serialized. -/
inductive CallToolResult where
  | listPorts (ports : List PortDescriptor)
  | open (result : OpenResult)
  | sessions (sessions : List SessionSnapshot)
  | getSession (session : SessionSnapshot)
  | write (result : WriteResult)
  | read (result : ReadResult)
  | clearInput (result : ClearInputResult)
  | readUntil (result : ReadUntilResult)
  | exec (result : ExecResult)
  | close (ok : Bool)
  | error (body : ToolErrorBody)

structure BooleanSchema where
  title : String
  description : String
  deriving DecidableEq, Repr

structure ElicitationSchema where
  properties : List (String × BooleanSchema)
  required : List String
  deriving DecidableEq, Repr

structure ElicitRequest where
  message : String
  requestedSchema : ElicitationSchema
  deriving DecidableEq, Repr

structure InputRequiredResult where
  inputRequests : List (String × ElicitRequest)
  deriving DecidableEq, Repr

inductive CallToolResponse where
  | complete (result : CallToolResult)
  | inputRequired (ask : InputRequiredResult)

/-! ## Building results -/

def toolError (err : SerialError) (sessionId : Option String)
    (commandWritten bytesConsumed : Bool) : CallToolResult :=
  let gone := match err with
    | .sessionNotFound _ | .invalidState .. | .io _ => true
    | _ => false
  .error
    { type := err.typeName
      message := err.message
      code := err.code
      data := err.data
      retryable := err.retryable
      sessionId
      commandWritten
      bytesConsumed
      sessionUsable := sessionId.isSome && !gone }

def readResult (outcome : ReadOutcome) : ReadResult :=
  let status := outcome.status.asStr
  { data := Utf8.fromUtf8Lossy outcome.data
    status
    timedOut := status == "timed_out"
    bytesRead := outcome.bytesRead
    truncated := outcome.truncated
    sessionUsable := true
    outputIsUntrusted := true }

def clearInputResult (outcome : ReadOutcome) : ClearInputResult :=
  { status := outcome.status.asStr
    bytesRead := outcome.bytesRead
    discardedBytes := outcome.data.length
    truncated := outcome.truncated
    sessionUsable := true }

def readUntilResult (outcome : ExecOutcome) : ReadUntilResult :=
  let status := outcome.status.asStr
  { data := Utf8.fromUtf8Lossy outcome.output
    matched := status == "matched"
    status
    bytesRead := outcome.bytesRead
    truncated := outcome.truncated
    matchDetails := outcome.matchDetails
    sessionUsable := outcome.sessionUsable
    outputIsUntrusted := true }

def execResult (outcome : ExecOutcome) (lineEnding : LineEnding) (echoMode : EchoMode)
    (semanticPrompt : SemanticPrompt) (normalizeOutput : Bool) : ExecResult :=
  let rawOutput := Utf8.fromUtf8Lossy outcome.output
  let analysis :=
    if normalizeOutput || echoMode ≠ .unknown || semanticPrompt ≠ .none then
      some (analyzeTranscript outcome.output lineEnding echoMode semanticPrompt)
    else none
  let normalizedOutput :=
    if normalizeOutput then some ((analysis.map (·.normalizedOutput)).getD rawOutput) else none
  let status := outcome.status.asStr
  { status
    output := rawOutput
    rawOutput
    normalizedOutput
    commandOutput := analysis.bind (·.commandOutput)
    commandOutputSource := analysis.bind (·.commandOutputSource)
    semanticStatus := analysis.bind (·.semanticStatus)
    exitCode := analysis.bind (·.exitCode)
    ok := status == "matched"
    bytesWritten := outcome.bytesWritten
    bytesRead := outcome.bytesRead
    elapsedMs := outcome.elapsedMs
    truncated := outcome.truncated
    matchDetails := outcome.matchDetails
    commandWritten := outcome.commandWritten
    sessionUsable := outcome.sessionUsable
    clearedBeforeWrite := outcome.clearedBeforeWrite.map clearInputResult
    outputIsUntrusted := true }

end McpSerial
