/-! Typed errors of the serial library (`errors.rs`) and the JSON values they carry. -/

namespace McpSerial

inductive Number where
  | int (n : Int)
  | float (text : String)
  deriving DecidableEq, Repr

inductive Value where
  | null
  | bool (b : Bool)
  | number (n : Number)
  | string (s : String)
  | array (items : List Value)
  | object (fields : List (String × Value))

namespace Value

def get (v : Value) (key : String) : Option Value :=
  match v with
  | object fields => fields.lookup key
  | _ => none

def asBool : Value → Option Bool
  | bool b => some b
  | _ => none

def asStr : Value → Option String
  | string s => some s
  | _ => none

/-- Integers beyond the range of `u64` are parsed as floats. -/
def asU64 : Value → Option Nat
  | number (.int n) => if 0 ≤ n then some n.toNat else none
  | _ => none

def asArray : Value → Option (List Value)
  | array items => some items
  | _ => none

def ofOption : Option Value → Value
  | some v => v
  | none => null

def nat (n : Nat) : Value := number (.int n)

end Value

inductive SerialError where
  | portNotAllowed (port : String)
  | portNotFound (port : String)
  | portBusy (port : String)
  | sessionNotFound (sessionId : String)
  | invalidState (sessionId state expected : String)
  | timeout (timeoutMs : Nat)
  | io (message : String)
  | maxSessionsReached (max : Nat)
  | invalidParam (name reason : String)
  | deviceNotFound (device : String)
  | cancelled
  | writeForbidden (sessionId : String)
  | confirmationRequired (sessionId : String)
  | commandBlocked (rule : String)
  | rawWriteForbidden (sessionId : String)
  | confirmationDeclined (sessionId action : String)
  deriving DecidableEq, Repr

namespace SerialError

def message : SerialError → String
  | portNotAllowed port => s!"port '{port}' is not in the allowlist"
  | portNotFound port => s!"port '{port}' not found"
  | portBusy port => s!"port '{port}' is busy (held by another process)"
  | sessionNotFound id => s!"unknown session_id '{id}'"
  | invalidState id state expected =>
    s!"session '{id}' is in state {state}, expected {expected}"
  | timeout ms => s!"operation timed out after {ms} ms"
  | io message => s!"i/o error: {message}"
  | maxSessionsReached max => s!"maximum of {max} concurrent sessions reached"
  | invalidParam name reason => s!"invalid parameter '{name}': {reason}"
  | deviceNotFound device =>
    s!"device '{device}' not found in profiles or not currently connected"
  | cancelled => "operation cancelled"
  | writeForbidden id => s!"session '{id}' is read-only (write_policy=deny)"
  | confirmationRequired id =>
    s!"session '{id}' requires confirm=true to write (write_policy=confirm)"
  | commandBlocked rule => s!"command blocked by server-owned policy rule '{rule}'"
  | rawWriteForbidden id =>
    s!"session '{id}' has a command policy; use serial.exec instead of serial.write"
  | confirmationDeclined id action =>
    s!"session '{id}' write was not confirmed by the user (elicitation {action})"

def code : SerialError → Int
  | portNotAllowed _ => -32001
  | portNotFound _ => -32002
  | sessionNotFound _ => -32003
  | invalidState .. => -32004
  | timeout _ => -32005
  | io _ => -32006
  | maxSessionsReached _ => -32007
  | invalidParam .. => -32008
  | deviceNotFound _ => -32009
  | portBusy _ => -32010
  | cancelled => -32011
  | writeForbidden _ => -32012
  | confirmationRequired _ => -32013
  | commandBlocked _ => -32014
  | rawWriteForbidden _ => -32015
  | confirmationDeclined .. => -32016

def data : SerialError → Value
  | portNotAllowed port | portNotFound port | portBusy port => .object [("port", .string port)]
  | sessionNotFound id => .object [("session_id", .string id)]
  | invalidState id state expected =>
    .object [("session_id", .string id), ("state", .string state), ("expected", .string expected)]
  | timeout ms => .object [("timeout_ms", .number (.int ms))]
  | io message => .object [("message", .string message)]
  | maxSessionsReached max => .object [("max", .number (.int max))]
  | invalidParam name reason => .object [("name", .string name), ("reason", .string reason)]
  | deviceNotFound device => .object [("device", .string device)]
  | cancelled => .object []
  | writeForbidden id => .object [("session_id", .string id), ("write_policy", .string "deny")]
  | confirmationRequired id =>
    .object [("session_id", .string id), ("write_policy", .string "confirm")]
  | commandBlocked rule => .object [("rule", .string rule)]
  | rawWriteForbidden id =>
    .object [("session_id", .string id), ("mutation_via_exec_only", .bool true)]
  | confirmationDeclined id action =>
    .object [("session_id", .string id), ("write_policy", .string "confirm"),
      ("elicitation", .string action)]

def typeName : SerialError → String
  | portNotAllowed _ => "port_not_allowed"
  | portNotFound _ => "port_not_found"
  | portBusy _ => "port_busy"
  | sessionNotFound _ => "unknown_session"
  | invalidState .. => "invalid_session_state"
  | timeout _ => "timeout"
  | io _ => "io_error"
  | maxSessionsReached _ => "max_sessions_reached"
  | invalidParam .. => "invalid_parameter"
  | deviceNotFound _ => "device_not_found"
  | cancelled => "cancelled"
  | writeForbidden _ => "write_forbidden"
  | confirmationRequired _ => "confirmation_required"
  | commandBlocked _ => "command_blocked"
  | rawWriteForbidden _ => "raw_write_forbidden"
  | confirmationDeclined .. => "confirmation_declined"

def retryable : SerialError → Bool
  | portBusy _ | portNotFound _ | deviceNotFound _ | io _ | cancelled => true
  | _ => false

def possibleSerialSideEffect : SerialError → Bool
  | io _ | timeout _ | cancelled => true
  | _ => false

theorem code_mem_reserved (e : SerialError) : -32099 ≤ e.code ∧ e.code ≤ -32000 := by
  cases e <;> simp [code]

/-- A client can branch on the code: it determines the variant, hence its type name. -/
theorem typeName_eq_of_code_eq {e e' : SerialError} (h : e.code = e'.code) :
    e.typeName = e'.typeName := by
  cases e <;> cases e' <;> simp_all [code, typeName]

end SerialError
end McpSerial
