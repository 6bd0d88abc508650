import McpSerial.Mcp.Journal

/-! What is sent and received does not show in the journal: two calls that differ only in
their payloads, of one size, leave the same rows. -/

namespace McpSerial
open Utf8 Fields

/-! ## Calls and results that differ in what is sent and received -/

def Value.byteCount : Value → Nat
  | .string s => (asBytes s).length
  | _ => 0

def Value.itemCount : Value → Nat
  | .array items => items.length
  | _ => 0

def payloadKeys : List String := ["data", "command", "expect"]

/-- Two values of the argument `key` that differ at most in what is sent. -/
def SamePayloadSize (key : String) (v w : Value) : Prop :=
  if key ∈ payloadKeys then v.byteCount = w.byteCount
  else if key = "deny_patterns" then v.itemCount = w.itemCount
  else v = w

theorem SamePayloadSize.refl (key : String) (v : Value) : SamePayloadSize key v v := by
  unfold SamePayloadSize
  split_ifs <;> rfl

structure CallToolRequest.SameButPayload (r r' : CallToolRequest) : Prop where
  name : r.name = r'.name
  retry : r.inputResponses.isSome = r'.inputResponses.isSome
  arguments : Option.Rel
    (fun a a' => ∀ key, Option.Rel (SamePayloadSize key) (a.get key) (a'.get key))
    r.arguments r'.arguments

def MatchDetails.blanked (d : MatchDetails) : MatchDetails := { d with text := [] }

/-- The result without the text of the device and of its message. A blocked command keeps
the rule that blocked it. -/
def CallToolResult.blanked : CallToolResult → CallToolResult
  | .read r => .read { r with data := [] }
  | .readUntil r =>
    .readUntil { r with data := [], matchDetails := r.matchDetails.map MatchDetails.blanked }
  | .exec r =>
    .exec { r with
      output := []
      rawOutput := []
      normalizedOutput := none
      commandOutput := none
      matchDetails := r.matchDetails.map MatchDetails.blanked }
  | .error body =>
    .error { body with
      message := ""
      data := if body.type = "command_blocked" then body.data else .null }
  | r => r

def CallToolResult.textBytes : CallToolResult → Nat
  | .read r => (encode r.data).length
  | .readUntil r => (encode r.data).length
  | .exec r => (encode r.output).length
  | _ => 0

structure CallToolResult.SameButText (x y : CallToolResult) : Prop where
  blanked : x.blanked = y.blanked
  textBytes : x.textBytes = y.textBytes

/-! ## The call row -/

section Call

variable {r r' : CallToolRequest} {v w : Value}

structure SameArguments (v w : Value) : Prop where
  keys : objectKeys v = objectKeys w
  visible : ∀ key, key ∉ payloadKeys → key ≠ "deny_patterns" → v.get key = w.get key
  sizes : ∀ key ∈ payloadKeys, byteLen v key = byteLen w key
  count : arrayLen (some v) "deny_patterns" = arrayLen (some w) "deny_patterns"

theorem byteLen_eq (v : Value) (key : String) :
    byteLen v key = ((v.get key).map Value.byteCount).getD 0 := by
  unfold byteLen
  cases v.get key with
  | none => rfl
  | some field => cases field <;> rfl

theorem arrayLen_eq (v : Value) (key : String) :
    arrayLen (some v) key = ((v.get key).map Value.itemCount).getD 0 := by
  show ((((v.get key).bind Value.asArray)).map List.length).getD 0 = _
  cases v.get key with
  | none => rfl
  | some field => cases field <;> rfl

theorem sameArguments_object {a a' : JsonObject}
    (h : ∀ key, Option.Rel (SamePayloadSize key) (a.get key) (a'.get key)) :
    SameArguments (.object a.fields) (.object a'.fields) := by
  refine ⟨?_, ?_, ?_, ?_⟩
  · have hkeys : a.fields.map Prod.fst = a'.fields.map Prod.fst := by
      apply a.ascending.keys_eq a'.ascending
      intro key
      have hsome : (a.get key).map (fun _ => ()) = (a'.get key).map fun _ => () :=
        map_eq_of_rel (h key) fun _ _ _ => rfl
      simpa [JsonObject.get] using congrArg Option.isSome hsome
    show ((a.fields.map Prod.fst).take maxArgKeys).map clipped = _
    rw [hkeys]
    rfl
  · intro key hpayload hpatterns
    have hsame : (a.get key).map id = (a'.get key).map id := by
      apply map_eq_of_rel (h key)
      intro v w hvw
      unfold SamePayloadSize at hvw
      rwa [if_neg hpayload, if_neg hpatterns] at hvw
    show a.get key = a'.get key
    simpa using hsame
  · intro key hkey
    rw [byteLen_eq, byteLen_eq]
    apply congrArg (Option.getD · 0)
    apply map_eq_of_rel (h key)
    intro v w hvw
    unfold SamePayloadSize at hvw
    rwa [if_pos hkey] at hvw
  · rw [arrayLen_eq, arrayLen_eq]
    apply congrArg (Option.getD · 0)
    exact map_eq_of_rel (h "deny_patterns") fun _ _ hvw => hvw

theorem CallToolRequest.SameButPayload.sameArguments (h : r.SameButPayload r') :
    SameArguments r.argsValue r'.argsValue := by
  have harguments := h.arguments
  unfold CallToolRequest.argsValue
  generalize r.arguments = arguments at harguments
  generalize r'.arguments = arguments' at harguments
  cases harguments with
  | some hfields => exact sameArguments_object hfields
  | none => exact ⟨rfl, fun _ _ _ => rfl, fun _ _ => rfl, rfl⟩

theorem SameArguments.callSessionId (h : SameArguments v w) :
    callSessionId v = callSessionId w := by
  unfold McpSerial.callSessionId optionalSessionId optionalString
  rw [h.visible "session_id" (by simp [payloadKeys]) (by simp)]

theorem SameArguments.callSummary (h : SameArguments v w) (tool : String) (retry : Bool) :
    callSummary tool v retry = callSummary tool w retry := by
  have hkeys : argKeys v = argKeys w := by
    unfold argKeys
    rw [h.keys]
  have hdata : byteLen v "data" = byteLen w "data" := h.sizes "data" (by simp [payloadKeys])
  have hcommand : byteLen v "command" = byteLen w "command" :=
    h.sizes "command" (by simp [payloadKeys])
  have hexpect : byteLen v "expect" = byteLen w "expect" :=
    h.sizes "expect" (by simp [payloadKeys])
  unfold McpSerial.callSummary optionalSessionId optionalString optionalBool optionalU64
  rw [hkeys, h.count, hdata, hcommand, hexpect]
  simp (disch := simp [payloadKeys]) only [h.visible]

end Call

/-! ## The result row -/

def textKeys : List String :=
  ["data", "output", "raw_output", "normalized_output", "command_output", "match_details", "error"]

def CallToolResult.sizedKey : CallToolResult → Option String
  | .read _ | .readUntil _ => some "data"
  | .exec _ => some "output"
  | _ => none

section Result

variable {x y : CallToolResult} {key : String}

theorem agree_blanked (x : CallToolResult) : AgreeOff textKeys x.fields x.blanked.fields := by
  cases x with
  | read r =>
    refine AgreeOff.cons (AgreeOff.refl _ _) rfl fun hkey => absurd ?_ hkey
    simp [textKeys]
  | readUntil r =>
    simp [AgreeOff, CallToolResult.fields, CallToolResult.blanked, ReadUntilResult.fields, textKeys]
  | exec r =>
    simp [AgreeOff, CallToolResult.fields, CallToolResult.blanked, ExecResult.fields, textKeys]
  | error body => simp [AgreeOff, CallToolResult.fields, CallToolResult.blanked, textKeys]
  | _ => exact AgreeOff.refl _ _

theorem byteLen_fields (x : CallToolResult) (hkey : key = "data" ∨ key = "output") :
    byteLen (.object x.fields) key = if x.sizedKey = some key then x.textBytes else 0 := by
  rcases hkey with rfl | rfl <;> cases x <;>
    simp [byteLen, CallToolResult.fields, CallToolResult.sizedKey, CallToolResult.textBytes,
      ReadResult.fields, ReadUntilResult.fields, ExecResult.fields, OpenResult.fields,
      WriteResult.fields, ClearInputResult.fields, Value.get, List.lookup_cons, Value.asStr,
      Value.text, asBytes]

theorem sizedKey_blanked (x : CallToolResult) : x.blanked.sizedKey = x.sizedKey := by
  cases x <;> rfl

theorem isError_blanked (x : CallToolResult) : x.blanked.isError = x.isError := by
  cases x <;> rfl

theorem errorSummary_error (body : ToolErrorBody) :
    errorSummary (some (.object (CallToolResult.error body).fields)) =
      .object
        [("ok", .bool false), ("is_error", .bool true), ("error_code", .number (.int body.code)),
          ("error_type", .string body.type),
          ("matched_rule", .ofOption (if body.type = "command_blocked" then
            (((body.data.get "rule").bind Value.asStr).map clipped).map .string else none))] := by
  have htype : (Value.object body.fields).get "type" = some (.string body.type) := rfl
  have hcode : (Value.object body.fields).get "code" = some (.number (.int body.code)) := rfl
  have hdata : (Value.object body.fields).get "data" = some body.data := rfl
  unfold errorSummary
  have herror : (some (Value.object (CallToolResult.error body).fields)).bind (·.get "error") =
      some (.object body.fields) := rfl
  rw [herror]
  by_cases hblocked : body.type = "command_blocked"
  · simp [htype, hcode, hdata, hblocked, Value.asStr, Value.ofOption, Option.filter]
  · simp [htype, hcode, hblocked, Value.asStr, Value.ofOption, Option.filter]

theorem errorSummary_blanked (x : CallToolResult) :
    errorSummary (some (.object x.blanked.fields)) = errorSummary (some (.object x.fields)) := by
  cases x with
  | error body =>
    unfold CallToolResult.blanked
    rw [errorSummary_error, errorSummary_error]
    by_cases hblocked : body.type = "command_blocked"
    · dsimp only
      rw [if_pos hblocked, if_pos hblocked, if_pos hblocked]
    · dsimp only
      rw [if_neg hblocked, if_neg hblocked]
  | _ => rfl

theorem CallToolResult.SameButText.byteLen (h : x.SameButText y)
    (hkey : key = "data" ∨ key = "output") :
    byteLen (.object x.fields) key = byteLen (.object y.fields) key := by
  rw [byteLen_fields x hkey, byteLen_fields y hkey, ← sizedKey_blanked x, ← sizedKey_blanked y,
    h.blanked, h.textBytes]

theorem CallToolResult.SameButText.get (h : x.SameButText y) (hkey : key ∉ textKeys) :
    (Value.object x.fields).get key = (Value.object y.fields).get key := by
  have hagree := agree_blanked x
  rw [h.blanked] at hagree
  exact (hagree.trans (agree_blanked y).symm).lookup hkey

theorem CallToolResult.SameButText.toolSummary (h : x.SameButText y) (tool : String) :
    toolSummary tool (some (.object x.fields)) = toolSummary tool (some (.object y.fields)) := by
  have hports : arrayLen (some (.object x.fields)) "ports" =
      arrayLen (some (.object y.fields)) "ports" := by
    rw [arrayLen_eq, arrayLen_eq, h.get (by simp [textKeys])]
  unfold McpSerial.toolSummary
  rw [hports]
  simp (disch := simp [textKeys]) only [Option.getD_some, Option.isSome_some, h.get, h.byteLen]

theorem CallToolResult.SameButText.resultSummary (h : x.SameButText y) (tool : String) :
    resultSummary tool (.ok x.structured) = resultSummary tool (.ok y.structured) := by
  have hisError : x.isError = y.isError := by
    rw [← isError_blanked, h.blanked, isError_blanked]
  have herror : errorSummary (some (.object x.fields)) =
      errorSummary (some (.object y.fields)) := by
    rw [← errorSummary_blanked, h.blanked, errorSummary_blanked]
  show (if some x.isError = some true then errorSummary (some (.object x.fields))
    else McpSerial.toolSummary tool (some (.object x.fields))) = _
  rw [hisError, herror, h.toolSummary]
  rfl

theorem CallToolResult.SameButText.resultSessionId (h : x.SameButText y) (tool : String)
    {v w : Value} (hv : SameArguments v w) :
    resultSessionId tool v (.ok x.structured) = resultSessionId tool w (.ok y.structured) := by
  have hminted : (Value.object x.fields).get "session_id" =
      (Value.object y.fields).get "session_id" := h.get (by simp [textKeys])
  unfold McpSerial.resultSessionId
  rw [hv.callSessionId]
  dsimp only [CallToolResult.structured, Option.bind_some]
  rw [hminted]

end Result

/-- Two calls that differ only in payloads of one size leave the same call row, and with
results that differ only in texts of one size the same result row. -/
theorem journal_hides_payloads {r r' : CallToolRequest} (hr : r.SameButPayload r')
    (ts ts' : String) :
    callRow ts r = { callRow ts' r' with ts } ∧
    ∀ x x' : CallToolResult, x.SameButText x' →
      resultRow ts r (.ok (.complete x)) =
        { resultRow ts' r' (.ok (.complete x')) with ts } := by
  have hargs := hr.sameArguments
  constructor
  · unfold callRow
    rw [hargs.callSessionId, hr.name, hr.retry, hargs.callSummary]
    rfl
  · intro x x' hx
    show JournalEntry.new ts (resultSessionId r.name r.argsValue (.ok x.structured)) r.name _
      (resultSummary r.name (.ok x.structured)) = _
    rw [hx.resultSessionId r.name hargs, hx.resultSummary, hr.name]
    rfl

/-- A typed password and the answer to it. -/
theorem journal_hides_payloads_login : ∃ (r r' : CallToolRequest) (x x' : CallToolResult),
    r.argsValue.get "command" = some (.string "hunter2") ∧
    r'.argsValue.get "command" = some (.string "letmein") ∧ x ≠ x' ∧
    callRow "t" r = callRow "t" r' ∧
    resultRow "t" r (.ok (.complete x)) = resultRow "t" r' (.ok (.complete x')) := by
  let request (command : String) : CallToolRequest :=
    { name := "serial.exec"
      arguments := some
        { fields := [("command", .string command), ("expect", .string "#"),
            ("session_id", .string "s")]
          ascending := by
            show List.Pairwise (· < ·) ["command", "expect", "session_id"]
            decide }
      inputResponses := none }
  let result (data : String) : CallToolResult :=
    .read
      { data := data.toList
        status := "complete"
        timedOut := false
        bytesRead := 2
        truncated := false
        sessionUsable := true
        outputIsUntrusted := true }
  have hsame : (request "hunter2").SameButPayload (request "letmein") := by
    refine ⟨rfl, rfl, .some fun key => ?_⟩
    show Option.Rel (SamePayloadSize key) (List.lookup key _) (List.lookup key _)
    by_cases hkey : key = "command"
    · subst hkey
      refine .some ?_
      unfold SamePayloadSize
      rw [if_pos (by simp [payloadKeys])]
      show (asBytes "hunter2").length = (asBytes "letmein").length
      decide
    · let others : List (String × Value) := [("expect", .string "#"), ("session_id", .string "s")]
      have hothers (v : Value) :
          List.lookup key (("command", v) :: others) = others.lookup key := by
        rw [List.lookup_cons, beq_false_of_ne hkey]
      refine (hothers (.string "hunter2")).symm ▸ (hothers (.string "letmein")).symm ▸ ?_
      cases others.lookup key with
      | none => exact .none
      | some v => exact .some (SamePayloadSize.refl key v)
  have htext : (result "ok").SameButText (result "no") := ⟨rfl, rfl⟩
  refine ⟨request "hunter2", request "letmein", result "ok", result "no", rfl, rfl,
    by simp [result], ?_⟩
  obtain ⟨hcall, hresult⟩ := journal_hides_payloads hsame "t" "t"
  exact ⟨hcall, hresult _ _ htext⟩

end McpSerial
