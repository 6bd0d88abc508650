import McpSerial.Mcp.AuditTrail
import McpSerial.Mcp.Parameters

/-! Under which session the journal puts a row. -/

namespace McpSerial
open Interaction

/-! ## Session ids -/

theorem length_randomSessionId {draw : Except String (Vector UInt8 16)} {id : String}
    (h : randomSessionId draw = .ok id) : id.length = 32 := by
  cases draw with
  | error e => cases h
  | ok bytes =>
    cases h
    rw [String.length_ofList, List.length_flatMap]
    have hbytes : (bytes.toList.map fun b => (hexByte b).length) = List.replicate 16 2 := by
      rw [List.eq_replicate_iff, List.length_map, Vector.length_toList]
      exact ⟨rfl, fun n hn => by obtain ⟨b, _, rfl⟩ := List.mem_map.mp hn; rfl⟩
    rw [hbytes]
    rfl

theorem length_nextSessionId {sessions : Sessions} {draws : List (Except String (Vector UInt8 16))}
    {id : String} (h : sessions.nextSessionId draws = some (.ok id)) : id.length = 32 := by
  induction draws with
  | nil => cases h
  | cons draw draws ih =>
    unfold Sessions.nextSessionId at h
    split at h
    · cases h
    · next hdraw =>
      split at h
      · exact ih h
      · cases h
        exact length_randomSessionId hdraw

theorem length_of_reserve {sessions sessions' : Sessions} {args : SessionArgs}
    {draws : List (Except String (Vector UInt8 16))} {id : String}
    (h : sessions.reserve args draws = some (.ok id, sessions')) : id.length = 32 := by
  unfold Sessions.reserve at h
  split at h
  · cases h
  split at h
  · cases h
  obtain ⟨x, hx, hmap⟩ := Option.map_eq_some_iff.mp h
  cases x with
  | error e => cases hmap
  | ok id' =>
    cases hmap
    exact length_nextSessionId hx

/-! ## Clipping -/

theorem clipIdentifier_eq_iff {s id : String} (h : id.length < 128) :
    clipIdentifier s = id ↔ s = id := by
  have hlong (t : String) : (clipIdentifier t).toList = t.toList.take 128 := String.toList_ofList
  constructor
  · intro hclip
    have htake : s.toList.take 128 = id.toList := hclip ▸ (hlong s).symm
    have hlength := congrArg List.length htake
    rw [List.length_take, String.length_toList, String.length_toList] at hlength
    have hshort : s.toList.length ≤ 128 := by
      rw [String.length_toList]
      omega
    rw [List.take_of_length_le hshort] at htake
    exact String.toList_inj.mp htake
  · rintro rfl
    have hshort : s.toList.length ≤ 128 := by
      rw [String.length_toList]
      omega
    rw [← String.toList_inj, hlong, List.take_of_length_le hshort]

theorem clipped_eq_iff {s id : String} (h : id.length < 128) : clipped s = id ↔ s = id :=
  clipIdentifier_eq_iff h

/-! ## The session of a row -/

def named (request : CallToolRequest) : Option String :=
  (request.argsValue.get "session_id").bind Value.asStr

def minted (request : CallToolRequest) (result : Except ErrorData CallToolResponse) :
    Option String :=
  if request.name = "serial.open" then
    match result with
    | .ok (.complete (.open opened)) => some opened.sessionId
    | _ => none
  else none

/-- An id that no clipping shortens and that does not stand for no session. -/
structure Distinct (id : String) : Prop where
  short : id.length < 128
  ne_none : JournalEntry.noSession ≠ id

variable {id : String} {request : CallToolRequest}

theorem callSessionId_eq_iff (hid : Distinct id) :
    callSessionId request.argsValue = id ↔ named request = some id := by
  show (((named request).map clipped).getD JournalEntry.noSession) = id ↔ _
  cases hnamed : named request with
  | none => simpa using hid.ne_none
  | some s =>
    rw [Option.map_some, Option.getD_some, clipped_eq_iff hid.short, Option.some.injEq]

theorem callRow_sessionId (hid : Distinct id) (ts : String) :
    (callRow ts request).sessionId = id ↔ named request = some id := by
  show clipIdentifier (callSessionId request.argsValue) = id ↔ _
  rw [clipIdentifier_eq_iff hid.short, callSessionId_eq_iff hid]

theorem session_id_of_fields (result : CallToolResult) :
    ((Value.object result.fields).get "session_id").bind Value.asStr =
      match result with
      | .open opened => some opened.sessionId
      | _ => none := by
  cases result <;> rfl

theorem resultSessionId_eq_iff (hid : Distinct id) (result : Except ErrorData CallToolResult) :
    resultSessionId request.name request.argsValue (result.map CallToolResult.structured) = id ↔
      (minted request (result.map .complete)).or (named request) = some id := by
  unfold resultSessionId minted
  by_cases hopen : request.name = "serial.open"
  · rw [if_pos hopen, if_pos hopen]
    cases result with
    | error e => exact callSessionId_eq_iff hid
    | ok ok =>
      have hfields := session_id_of_fields ok
      show (((((Value.object ok.fields).get "session_id").bind Value.asStr).map clipped).getD
        (callSessionId request.argsValue)) = id ↔ _
      rw [hfields]
      cases ok with
      | «open» opened =>
        show clipped opened.sessionId = id ↔ some opened.sessionId = some id
        rw [clipped_eq_iff hid.short, Option.some.injEq]
      | _ => exact callSessionId_eq_iff hid
  · rw [if_neg hopen, if_neg hopen]
    exact callSessionId_eq_iff hid

theorem resultRow_sessionId (hid : Distinct id) (ts : String)
    (result : Except ErrorData CallToolResponse) :
    (resultRow ts request result).sessionId = id ↔
      (minted request result).or (named request) = some id := by
  rcases result with e | (ok | other)
  · exact (clipIdentifier_eq_iff hid.short).trans (resultSessionId_eq_iff hid (.error e))
  · exact (clipIdentifier_eq_iff hid.short).trans (resultSessionId_eq_iff hid (.ok ok))
  · have hminted : minted request (.ok (.inputRequired other)) = none := by
      unfold minted
      split <;> rfl
    rw [hminted, Option.none_or]
    exact callRow_sessionId hid ts

theorem distinct_of_reserve {sessions sessions' : Sessions} {args : SessionArgs}
    {draws : List (Except String (Vector UInt8 16))}
    (h : sessions.reserve args draws = some (.ok id, sessions')) : Distinct id := by
  have hlength := length_of_reserve h
  refine ⟨by omega, ?_⟩
  rintro rfl
  exact absurd hlength (by decide)

/-- A session's rows are those of the calls that name it and of the result that told its id,
and no others: whatever the arguments are, clipping and the sentinel mix up no sessions. -/
theorem session_rows (srv : McpServer) (route : Router) {tr : List CallLabel}
    {c : Config journaledMachine ClientCall (Except ErrorData CallToolResponse)}
    (h : Run journaledMachine (callTool srv route true) tr c) {u : Nat} {args : SessionArgs}
    {id : String} (hid : .act u ⟨.inl (.reserve args), .ok id⟩ ∈ tr) {t : Nat}
    {th : Thread (Request ⊕ JournalRequest) (SumResp Response JournalResponse) ClientCall
      (Except ErrorData CallToolResponse)} (ht : c.threads t = some th) :
    ∀ row ∈ rows th.past,
      (∃ ts, row.1 = callRow ts th.call.request ∧
        (row.1.sessionId = id ↔ named th.call.request = some id)) ∨
      ∃ ts result, Runs (dispatch srv route th.call) (erasePast th.past) (.ret result) ∧
        row.1 = resultRow ts th.call.request result ∧
        (row.1.sessionId = id ↔
          (minted th.call.request result).or (named th.call.request) = some id) := by
  obtain ⟨_, _, d, d', _, _, hstep, _⟩ := Steps.step_of_mem h hid
  obtain ⟨⟨draws, sessions, hreserve, _⟩, _⟩ := hstep.answers
  have hdistinct := distinct_of_reserve hreserve
  intro row hrow
  have htrail := trail_of_runs (Run.started h ht).runs
  generalize rows th.past = logged at hrow htrail
  have hcalled {ts : String} {outcome : LogOutcome}
      (heq : row = (callRow ts th.call.request, outcome)) :
      ∃ ts, row.1 = callRow ts th.call.request ∧
        (row.1.sessionId = id ↔ named th.call.request = some id) := by
    subst heq
    exact ⟨ts, rfl, callRow_sessionId hdistinct ts⟩
  cases htrail with
  | received => cases hrow
  | called ts outcome => exact .inl (hcalled (List.mem_singleton.mp hrow))
  | @answered ts ts' outcome outcome' result ran =>
    rcases List.mem_cons.mp hrow with heq | hrow
    · exact .inl (hcalled heq)
    · obtain rfl := List.mem_singleton.mp hrow
      exact .inr ⟨ts', result, ran, rfl, resultRow_sessionId hdistinct ts' result⟩

def refusedRequest (_ : ClientCall) : ErrorData := ⟨-32602, "invalid params", none⟩

theorem session_rows_opened : ∃ tr c th,
    Run journaledMachine (callTool wordServer (toolRouter refusedRequest) true) tr c ∧
      c.threads 0 = some th ∧ routed (toolRouter refusedRequest) th.call =
        some (.open guardedParams) ∧
      ∀ row ∈ rows th.past,
        (∃ ts, row.1 = callRow ts th.call.request ∧
          (row.1.sessionId = firstId ↔ named th.call.request = some firstId)) ∨
        ∃ ts result,
          Runs (dispatch wordServer (toolRouter refusedRequest) th.call) (erasePast th.past)
            (.ret result) ∧
          row.1 = resultRow ts th.call.request result ∧
          (row.1.sessionId = firstId ↔
            (minted th.call.request result).or (named th.call.request) = some firstId) := by
  obtain ⟨threads, hrun, -⟩ := guarded_run
  have hreads : routed (toolRouter refusedRequest) (ToolCall.open guardedParams).toClient =
      some (.open guardedParams) := by
    have hfits : (ToolCall.open guardedParams).Fits := ⟨nofun, nofun⟩
    rw [routed, toolRouter, readCall_toClient hfits]
    rfl
  have hunder : ∀ t toolCall, .start t toolCall ∈ guardedTrace →
      ∃ call, routed (toolRouter refusedRequest) call = some toolCall := by
    intro t toolCall hstart
    simp only [guardedTrace, List.mem_cons, Label.start.injEq, reduceCtorEq, List.not_mem_nil,
      or_false] at hstart
    exact ⟨_, hstart.2 ▸ hreads⟩
  obtain ⟨tr, c, habove, herase, hmirrors, -⟩ := Run.above
    (over_callTool wordServer (toolRouter refusedRequest) true) journalMachine_answering hrun hunder
  have hreserve : .act 0 ⟨.reserve guardedArgs, .ok firstId⟩ ∈ guardedTrace :=
    List.mem_cons_of_mem _ List.mem_cons_self
  obtain ⟨th', ht', -⟩ := Run.thread_of_act hrun hreserve
  have hstart := (Run.started hrun ht').start_mem
  simp only [guardedTrace, List.mem_cons, Label.start.injEq, reduceCtorEq, List.not_mem_nil,
    or_false, true_and] at hstart
  have hthread := hmirrors.threads 0
  rw [ht'] at hthread
  generalize hth : c.threads 0 = o at hthread
  cases hthread with
  | @same th _ same =>
    refine ⟨tr, c, th, habove, hth, hstart ▸ same.call, ?_⟩
    exact session_rows wordServer (toolRouter refusedRequest) habove
      (act_mem_of_erase (herase ▸ hreserve)) hth

end McpSerial
