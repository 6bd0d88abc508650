import Mathlib.Data.String.Basic
import McpSerial.Mcp.Handlers
import McpSerial.Mcp.Rendering
import McpSerial.Selection.Fields

/-! The rows that `call_tool` writes to the audit journal (`mcp/journal.rs`, and the entries of
`serial/journal.rs`). -/

namespace McpSerial
open Utf8

/-- `serde_json::Map`, a `BTreeMap`. -/
structure JsonObject where
  fields : List (String × Value)
  ascending : Fields.Ascending fields

def JsonObject.get (o : JsonObject) (key : String) : Option Value := o.fields.lookup key

structure ErrorData where
  code : Int
  message : String
  data : Option Value

structure CallToolRequest where
  name : String
  arguments : Option JsonObject
  inputResponses : Option InputResponses

/-! ## Entries -/

def maxIdentifierChars : Nat := 128

structure JournalEntry where
  ts : String
  sessionId : String
  tool : String
  direction : String
  summary : Value

def clipIdentifier (value : String) : String :=
  String.ofList (value.toList.take maxIdentifierChars)

namespace JournalEntry

def dirCall : String := "call"

def dirResult : String := "result"

def noSession : String := "none"

def new (ts sessionId tool direction : String) (summary : Value) : JournalEntry :=
  { ts
    sessionId := clipIdentifier sessionId
    tool := clipIdentifier tool
    direction
    summary }

end JournalEntry

/-! ## Summaries -/

def maxArgKeys : Nat := 16

def maxJournalFieldChars : Nat := 128

def responseKind : CallToolResponse → String
  | .complete _ => "complete"
  | .inputRequired _ => "input_required"

def clipped (value : String) : String := String.ofList (value.toList.take maxJournalFieldChars)

/-- The byte length of a string field, 0 without one. -/
def byteLen (value : Value) (key : String) : Nat :=
  (((value.get key).bind Value.asStr).map fun s => (asBytes s).length).getD 0

def objectKeys : Value → List String
  | .object fields => ((fields.map Prod.fst).take maxArgKeys).map clipped
  | _ => []

def optionalString (value : Value) (key : String) : Option String :=
  ((value.get key).bind Value.asStr).map clipped

def optionalSessionId (value : Value) : Option String := optionalString value "session_id"

def optionalU64 (value : Value) (key : String) : Option Nat := (value.get key).bind Value.asU64

def optionalBool (value : Value) (key : String) : Option Bool := (value.get key).bind Value.asBool

def arrayLen (value : Option Value) (key : String) : Nat :=
  (((value.bind (·.get key)).bind Value.asArray).map List.length).getD 0

def callSessionId (args : Value) : String :=
  (optionalSessionId args).getD JournalEntry.noSession

def resultSessionId (tool : String) (args : Value) (result : Except ErrorData StructuredResult) :
    String :=
  let minted :=
    match result with
    | .ok ok => (ok.structuredContent.bind (·.get "session_id")).bind Value.asStr
    | .error _ => none
  if tool = "serial.open" then (minted.map clipped).getD (callSessionId args)
  else callSessionId args

def argKeys (args : Value) : Value := .array ((objectKeys args).map .string)

def callSummary (tool : String) (args : Value) (mrtrRetry : Bool) : Value :=
  match tool with
  | "serial.open" => .object
    [("write_policy", .ofOption ((optionalString args "write_policy").map .string)),
      ("port", .ofOption ((optionalString args "port").map .string)),
      ("device", .ofOption ((optionalString args "device").map .string)),
      ("line_ending", .ofOption ((optionalString args "line_ending").map .string)),
      ("caller_deny_rule_count", .nat (arrayLen (some args) "deny_patterns")),
      ("arg_keys", argKeys args)]
  | "serial.write" => .object
    [("session_id", .ofOption ((optionalSessionId args).map .string)),
      ("bytes", .nat (byteLen args "data")),
      ("confirm", .ofOption ((optionalBool args "confirm").map .bool)),
      ("mrtr_retry", .bool mrtrRetry),
      ("arg_keys", argKeys args)]
  | "serial.exec" => .object
    [("session_id", .ofOption ((optionalSessionId args).map .string)),
      ("command_bytes", .nat (byteLen args "command")),
      ("expect_bytes", .nat (byteLen args "expect")),
      ("timeout_ms", .ofOption ((optionalU64 args "timeout_ms").map .nat)),
      ("confirm", .ofOption ((optionalBool args "confirm").map .bool)),
      ("mrtr_retry", .bool mrtrRetry),
      ("clear_before_write", .ofOption ((optionalBool args "clear_before_write").map .bool)),
      ("normalize_output", .ofOption ((optionalBool args "normalize_output").map .bool)),
      ("line_ending", .ofOption ((optionalString args "line_ending").map .string)),
      ("echo_mode", .ofOption ((optionalString args "echo_mode").map .string)),
      ("semantic_prompt", .ofOption ((optionalString args "semantic_prompt").map .string)),
      ("arg_keys", argKeys args)]
  | _ => .object [("arg_keys", argKeys args)]

def errorSummary (content : Option Value) : Value :=
  let error := content.bind (·.get "error")
  let blocked := error.filter fun e => (e.get "type").bind Value.asStr = some "command_blocked"
  let rule := (blocked.bind fun e => (e.get "data").bind (·.get "rule")).bind Value.asStr
  .object
    [("ok", .bool false), ("is_error", .bool true),
      ("error_code", .ofOption (error.bind (·.get "code"))),
      ("error_type", .ofOption (error.bind (·.get "type"))),
      ("matched_rule", .ofOption ((rule.map clipped).map .string))]

def toolSummary (tool : String) (content : Option Value) : Value :=
  let data := content.getD .null
  let field (key : String) : Value := .ofOption (data.get key)
  match tool with
  | "serial.list_ports" => .object
    [("ok", .bool true), ("port_count", .nat (arrayLen content "ports"))]
  | "serial.open" => .object [("ok", .bool true), ("session_id", field "session_id")]
  | "serial.write" => .object [("ok", .bool true), ("bytes_written", field "bytes_written")]
  | "serial.read" => .object
    [("ok", .bool true), ("bytes", .nat (byteLen data "data")), ("status", field "status"),
      ("truncated", field "truncated")]
  | "serial.read_until" => .object
    [("ok", .bool true), ("bytes", .nat (byteLen data "data")), ("status", field "status"),
      ("matched", field "matched"), ("truncated", field "truncated")]
  | "serial.exec" => .object
    [("ok", .bool true), ("output_bytes", .nat (byteLen data "output")),
      ("status", field "status"), ("exec_ok", field "ok"),
      ("command_written", field "command_written"), ("truncated", field "truncated"),
      ("command_output_source", field "command_output_source"),
      ("semantic_status", field "semantic_status"), ("exit_code", field "exit_code")]
  | "serial.close" => .object [("ok", .bool true), ("closed", field "ok")]
  | _ => .object [("ok", .bool true), ("has_structured_content", .bool content.isSome)]

def resultSummary (tool : String) (result : Except ErrorData StructuredResult) : Value :=
  match result with
  | .error e => .object [("ok", .bool false), ("error_code", .number (.int e.code))]
  | .ok callResult =>
    if callResult.isError = some true then errorSummary callResult.structuredContent
    else toolSummary tool callResult.structuredContent

/-! ## The two rows of a call -/

def CallToolRequest.argsValue (request : CallToolRequest) : Value :=
  match request.arguments with
  | some arguments => .object arguments.fields
  | none => .null

def callRow (ts : String) (request : CallToolRequest) : JournalEntry :=
  .new ts (callSessionId request.argsValue) request.name JournalEntry.dirCall
    (callSummary request.name request.argsValue request.inputResponses.isSome)

def resultRow (ts : String) (request : CallToolRequest)
    (result : Except ErrorData CallToolResponse) : JournalEntry :=
  let row (r : Except ErrorData StructuredResult) : JournalEntry :=
    .new ts (resultSessionId request.name request.argsValue r) request.name JournalEntry.dirResult
      (resultSummary request.name r)
  match result with
  | .ok (.complete ok) => row (.ok ok.structured)
  | .ok other =>
    .new ts (callSessionId request.argsValue) request.name JournalEntry.dirResult
      (.object [("ok", .bool true), ("result_type", .string (responseKind other))])
  | .error e => row (.error e)

end McpSerial
