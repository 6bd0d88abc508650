import McpSerial.Mcp.Messages

/-! The JSON that the results of the tools are serialized to (`serde::Serialize`). -/

namespace McpSerial

def Value.text (cs : List Char) : Value := .string (String.ofList cs)

/-! ## Enumerations, under their renamed variants -/

def WritePolicy.serialize : WritePolicy → Value
  | .allow => .string "allow"
  | .confirm => .string "confirm"
  | .deny => .string "deny"

def LineEnding.serialize : LineEnding → Value
  | .none => .string "none"
  | .lf => .string "lf"
  | .cr => .string "cr"
  | .crlf => .string "crlf"

def EchoMode.serialize : EchoMode → Value
  | .unknown => .string "unknown"
  | .none => .string "none"
  | .line => .string "line"

def SemanticPrompt.serialize : SemanticPrompt → Value
  | .none => .string "none"
  | .osc3008 => .string "osc3008"

/-! ## Records -/

def ConsoleSettings.serialize (c : ConsoleSettings) : Value :=
  .object
    [("line_ending", c.lineEnding.serialize), ("echo_mode", c.echoMode.serialize),
      ("semantic_prompt", c.semanticPrompt.serialize)]

def CommandPolicySummary.serialize (s : CommandPolicySummary) : Value :=
  .object
    [("deny_rule_count", .nat s.denyRuleCount), ("allow_rule_count", .nat s.allowRuleCount),
      ("mutation_via_exec_only", .bool s.mutationViaExecOnly)]

def SessionSnapshot.serialize (s : SessionSnapshot) : Value :=
  .object
    [("session_id", .string s.sessionId), ("port", .string s.port), ("baud", .nat s.baud),
      ("state", .string s.state), ("default_timeout_ms", .nat s.defaultTimeoutMs),
      ("write_policy", s.writePolicy.serialize), ("console_settings", s.consoleSettings.serialize),
      ("command_policy", s.commandPolicy.serialize)]

def PortDescriptor.serialize (p : PortDescriptor) : Value :=
  .object
    [("port", .string p.port), ("vid", .ofOption (p.vid.map .nat)),
      ("pid", .ofOption (p.pid.map .nat)), ("serial", .ofOption (p.serial.map .string)),
      ("device", .ofOption (p.device.map .string)),
      ("description", .ofOption (p.description.map .string))]

def OpenResult.fields (r : OpenResult) : List (String × Value) :=
  [("session_id", .string r.sessionId)]

def WriteResult.fields (r : WriteResult) : List (String × Value) :=
  [("bytes_written", .nat r.bytesWritten)]

def ReadResult.fields (r : ReadResult) : List (String × Value) :=
  [("data", .text r.data), ("status", .string r.status), ("timed_out", .bool r.timedOut),
    ("bytes_read", .nat r.bytesRead), ("truncated", .bool r.truncated),
    ("session_usable", .bool r.sessionUsable),
    ("output_is_untrusted", .bool r.outputIsUntrusted)]

def ClearInputResult.fields (r : ClearInputResult) : List (String × Value) :=
  [("status", .string r.status), ("bytes_read", .nat r.bytesRead),
    ("discarded_bytes", .nat r.discardedBytes), ("truncated", .bool r.truncated),
    ("session_usable", .bool r.sessionUsable)]

def MatchDetails.serialize (d : MatchDetails) : Value :=
  .object [("text", .text d.text), ("start_byte", .nat d.startByte), ("end_byte", .nat d.endByte)]

def ReadUntilResult.fields (r : ReadUntilResult) : List (String × Value) :=
  [("data", .text r.data), ("matched", .bool r.matched), ("status", .string r.status),
    ("bytes_read", .nat r.bytesRead), ("truncated", .bool r.truncated),
    ("match_details", .ofOption (r.matchDetails.map MatchDetails.serialize)),
    ("session_usable", .bool r.sessionUsable),
    ("output_is_untrusted", .bool r.outputIsUntrusted)]

def ExecResult.fields (r : ExecResult) : List (String × Value) :=
  [("status", .string r.status), ("output", .text r.output), ("raw_output", .text r.rawOutput),
    ("normalized_output", .ofOption (r.normalizedOutput.map .text)),
    ("command_output", .ofOption (r.commandOutput.map .text)),
    ("command_output_source", .ofOption (r.commandOutputSource.map .string)),
    ("semantic_status", .ofOption (r.semanticStatus.map .string)),
    ("exit_code", .ofOption (r.exitCode.map fun code => .number (.int code))),
    ("ok", .bool r.ok), ("bytes_written", .nat r.bytesWritten), ("bytes_read", .nat r.bytesRead),
    ("elapsed_ms", .nat r.elapsedMs), ("truncated", .bool r.truncated),
    ("match_details", .ofOption (r.matchDetails.map MatchDetails.serialize)),
    ("command_written", .bool r.commandWritten), ("session_usable", .bool r.sessionUsable),
    ("cleared_before_write",
      .ofOption (r.clearedBeforeWrite.map fun cleared => .object cleared.fields)),
    ("output_is_untrusted", .bool r.outputIsUntrusted)]

def ToolErrorBody.fields (b : ToolErrorBody) : List (String × Value) :=
  [("type", .string b.type), ("message", .string b.message), ("code", .number (.int b.code)),
    ("data", b.data), ("retryable", .bool b.retryable),
    ("session_id", .ofOption (b.sessionId.map .string)),
    ("command_written", .bool b.commandWritten), ("bytes_consumed", .bool b.bytesConsumed),
    ("session_usable", .bool b.sessionUsable)]

/-! ## Results -/

structure StructuredResult where
  structuredContent : Option Value
  isError : Option Bool

def CallToolResult.fields : CallToolResult → List (String × Value)
  | .listPorts ports => [("ports", .array (ports.map PortDescriptor.serialize))]
  | .open result => result.fields
  | .sessions all => [("sessions", .array (all.map SessionSnapshot.serialize))]
  | .getSession session => [("session", session.serialize)]
  | .write result => result.fields
  | .read result => result.fields
  | .clearInput result => result.fields
  | .readUntil result => result.fields
  | .exec result => result.fields
  | .close ok => [("ok", .bool ok)]
  | .error body => [("error", .object body.fields)]

def CallToolResult.isError : CallToolResult → Bool
  | .error _ => true
  | _ => false

/-- `CallToolResult::structured`, and `CallToolResult::structured_error` for an error. -/
def CallToolResult.structured (result : CallToolResult) : StructuredResult :=
  { structuredContent := some (.object result.fields)
    isError := some result.isError }

end McpSerial
