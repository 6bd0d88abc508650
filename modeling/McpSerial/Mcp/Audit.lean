import McpSerial.Interaction.Layers
import McpSerial.Journal.Writer
import McpSerial.Mcp.Calls

/-! `call_tool` (`mcp/mod.rs`), the one way to the tools: a row of the journal before the tool
runs and one after. The lock in the writer makes one step of every `log`. -/

namespace McpSerial
open Interaction Json

inductive JournalRequest where
  /-- `iso8601_now()`. -/
  | now
  | log (entry : JournalEntry)

@[reducible] def JournalResponse : JournalRequest → Type
  | .now => String
  | .log _ => LogOutcome

/-- The calls of `log` so far and the writer that they left behind. -/
structure JournalState where
  calls : List LogCall
  writer : JournalFile

def journalAnswers (σ : JournalState) (_ : Nat) :
    (r : JournalRequest) → JournalResponse r → JournalState → Prop
  | .now, ts, σ' => (∃ clock, ts = iso8601Now clock) ∧ σ' = σ
  | .log entry, outcome, σ' => ∃ events writer,
    Runs (log entry σ.writer) events (.ret (outcome, writer)) ∧
      σ' = ⟨σ.calls ++ [⟨entry, σ.writer, events, outcome⟩], writer⟩

abbrev journalMachine : Machine JournalRequest JournalResponse where
  State := JournalState
  init := ⟨[], .new⟩
  answers := journalAnswers

structure ClientCall where
  request : CallToolRequest
  context : RequestContext

/-- `tool_router`: the handler and its parameters, or the error of a request for a tool that
there is not, or whose parameters are not those of the tool. -/
abbrev Router := ClientCall → Except ErrorData ToolCall

abbrev CallCode (α : Type) :=
  Program (Request ⊕ JournalRequest) (SumResp Response JournalResponse) α

def asked (r : JournalRequest) : CallCode (JournalResponse r) := .ask (.inr r) .ret

/-- `JournalEntry::new` and `j.log(&entry)`, if the server has a journal. -/
def logRow (journal : Bool) (row : String → JournalEntry) : CallCode Unit :=
  if journal then do
    let ts ← asked .now
    let _ ← asked (.log (row ts))
  else return ()

/-- `tool_router.call(tcc)`. -/
def dispatch (srv : McpServer) (route : Router) (call : ClientCall) :
    Handler (Except ErrorData CallToolResponse) :=
  match route call with
  | .error e => return .error e
  | .ok toolCall => do return .ok (← toolCode srv toolCall)

def callTool (srv : McpServer) (route : Router) (journal : Bool) (call : ClientCall) :
    CallCode (Except ErrorData CallToolResponse) := do
  logRow journal fun ts => callRow ts call.request
  let result ← (dispatch srv route call).raise
  logRow journal fun ts => resultRow ts call.request result
  return result

abbrev journaledMachine : Machine (Request ⊕ JournalRequest) (SumResp Response JournalResponse) :=
  machine.beside journalMachine

/-! ## The journal out of the way -/

def routed (route : Router) (call : ClientCall) : Option ToolCall := (route call).toOption

def SameResponse (_ : ClientCall) (result : Except ErrorData CallToolResponse)
    (response : CallToolResponse) : Prop := result = .ok response

theorem silent_logRow (journal : Bool) (row : String → JournalEntry) :
    Silent (logRow journal row) := by
  cases journal with
  | false => trivial
  | true => exact fun _ _ => trivial

/-- Around a silent beginning and a silent end, the program below is what it was. -/
theorem erases_logged {srv : McpServer} {route : Router} {call : ClientCall} {toolCall : ToolCall}
    (hroute : route call = .ok toolCall)
    {f : Except ErrorData CallToolResponse → CallCode (Except ErrorData CallToolResponse)}
    (hf : ∀ response, Erases (SameResponse call) (f (.ok response)) (.ret response)) :
    Erases (SameResponse call) ((dispatch srv route call).raise >>= f) (toolCode srv toolCall) := by
  have hdispatch : dispatch srv route call =
      toolCode srv toolCall >>= fun response => .ret (.ok response) := by
    unfold dispatch
    rw [hroute]
    rfl
  rw [hdispatch, Program.raise_bind, Program.bind_assoc]
  exact erases_raise_bind hf

theorem over_callTool (srv : McpServer) (route : Router) (journal : Bool) :
    Over (routed route) SameResponse (callTool srv route journal) (toolCode srv) := by
  intro call
  constructor
  · intro toolCall hcall
    have hroute : route call = .ok toolCall := by
      unfold routed at hcall
      cases hr : route call with
      | error e => rw [hr] at hcall; cases hcall
      | ok toolCall' => rw [hr] at hcall; cases hcall; rfl
    apply erases_bind_of_silent (silent_logRow journal _)
    apply erases_logged hroute
    intro response
    exact erases_bind_of_silent (silent_logRow journal _) (.ret rfl)
  · intro hcall
    have hroute : ∃ e, route call = .error e := by
      unfold routed at hcall
      cases hr : route call with
      | error e => exact ⟨e, rfl⟩
      | ok toolCall => rw [hr] at hcall; cases hcall
    obtain ⟨e, hroute⟩ := hroute
    have hdispatch : dispatch srv route call = .ret (.error e) := by
      unfold dispatch
      rw [hroute]
      rfl
    have hend : Silent (logRow journal (fun ts => resultRow ts call.request (.error e)) >>=
        fun _ => .ret (.error e : Except ErrorData CallToolResponse)) :=
      silent_bind (silent_logRow journal _) fun _ => trivial
    unfold callTool
    rw [hdispatch]
    exact silent_bind (silent_logRow journal _) fun _ => hend

/-- A call of `log` ends, whatever happens: its waits have deadlines. -/
theorem journalMachine_answering : journalMachine.Answering := by
  rintro σ t (_ | entry)
  · exact ⟨iso8601Now none, σ, ⟨none, rfl⟩, rfl⟩
  · by_cases hmax : maxJournalRowBytes < entry.toVec.length
    · have hrun : Runs (log entry σ.writer) [] (.ret (.tooLarge, σ.writer)) := by
        unfold log
        rw [if_pos hmax]
        exact .refl _
      exact ⟨.tooLarge, _, [], σ.writer, hrun, rfl⟩
    · have hrun : Runs (log entry σ.writer) [⟨.lock, false⟩] (.ret (.lockTimedOut, σ.writer)) := by
        unfold log
        rw [if_neg hmax]
        exact .step (.refl _)
      exact ⟨.lockTimedOut, _, [⟨.lock, false⟩], σ.writer, hrun, rfl⟩

/-! ### A call on a fresh server -/

def sessionsRouter : Router := fun call =>
  if call.request.name = "serial.sessions" then .ok .sessions
  else .error ⟨-32602, "tool not found", none⟩

def sessionsCall : ClientCall := ⟨⟨"serial.sessions", none, none⟩, plainContext⟩

def noSessions : Except ErrorData CallToolResponse := .ok (.complete (.sessions []))

theorem sessionsRows_fit : (callRow (iso8601Now none) sessionsCall.request).line.length +
    (resultRow (iso8601Now none) sessionsCall.request noSessions).line.length ≤
      journalBufferBytes := by
  decide +kernel

/-- The file refuses the first row of the call and takes both with the second. -/
theorem sessions_run : ∃ tr c th,
    Run journaledMachine (callTool wordServer sessionsRouter true) tr c ∧
      c.threads 0 = some th ∧ th.call = sessionsCall ∧ th.rest = .ret noSessions ∧
      c.shared.2.calls = retriedCalls (callRow (iso8601Now none) sessionsCall.request)
        (resultRow (iso8601Now none) sessionsCall.request noSessions) := by
  have hlog := retried_first sessionsRows_fit
  have hlog' := retried_second sessionsRows_fit
  have h₀ : Run journaledMachine (callTool wordServer sessionsRouter true) [] _ := .refl
  have h₁ := h₀.start 0 sessionsCall rfl
  have h₂ := h₁.act 0 (r := .inr .now) (iso8601Now none) (s := (.init, ⟨[], .new⟩)) rfl
    ⟨⟨⟨none, rfl⟩, rfl⟩, rfl⟩
  have h₃ := h₂.act 0 (r := .inr (.log _)) .failed
    (s := (.init, ⟨[⟨_, .new, _, .failed⟩], ⟨[], _⟩⟩)) rfl ⟨⟨_, _, hlog, rfl⟩, rfl⟩
  have h₄ := h₃.act 0 (r := .inl .values) []
    (s := (.init, ⟨[⟨_, .new, _, .failed⟩], ⟨[], _⟩⟩)) rfl ⟨⟨.refl _, rfl⟩, rfl⟩
  have h₅ := h₄.act 0 (r := .inr .now) (iso8601Now none)
    (s := (.init, ⟨[⟨_, .new, _, .failed⟩], ⟨[], _⟩⟩)) rfl ⟨⟨⟨none, rfl⟩, rfl⟩, rfl⟩
  have h₆ := h₅.act 0 (r := .inr (.log _)) .written
    (s := (.init, ⟨[⟨_, .new, _, .failed⟩, ⟨_, ⟨[], _⟩, _, .written⟩], .new⟩)) rfl
    ⟨⟨_, .new, hlog', rfl⟩, rfl⟩
  exact ⟨_, _, _, h₆, rfl, rfl, rfl, rfl⟩

/-- Every run of the server with its journal is a run of the tools once the journal is erased,
and whatever the tools can do next they can do behind it: calls go on, return what they would
have returned, and new calls start, in whatever state the journal is. -/
theorem journal_transparent (srv : McpServer) (route : Router) (journal : Bool)
    {tr : List (Label (Request ⊕ JournalRequest) (SumResp Response JournalResponse) ClientCall)}
    {c : Config journaledMachine ClientCall (Except ErrorData CallToolResponse)}
    (h : Run journaledMachine (callTool srv route journal) tr c) :
    ∃ d : Config machine ToolCall CallToolResponse,
      Run machine (toolCode srv) (erase (routed route) tr) d ∧
      Mirrors (routed route) SameResponse c d ∧
      (∀ l d', Step (toolCode srv) d l d' →
        (∀ t toolCall, l = .start t toolCall →
          c.threads t = none ∧ ∃ call, route call = .ok toolCall) →
        ∃ tr' c', Steps (callTool srv route journal) c tr' c' ∧ erase (routed route) tr' = [l] ∧
          Mirrors (routed route) SameResponse c' d') ∧
      ∀ t th th' response, c.threads t = some th → d.threads t = some th' →
        th'.rest = .ret response →
        ∃ tr' c' th₁, Steps (callTool srv route journal) c tr' c' ∧ erase (routed route) tr' = [] ∧
          Mirrors (routed route) SameResponse c' d ∧ c'.threads t = some th₁ ∧
          th₁.call = th.call ∧ th₁.rest = .ret (.ok response) := by
  obtain ⟨d, hrun, hmirrors⟩ := h.below (over_callTool srv route journal)
  refine ⟨d, hrun, hmirrors, fun l d' hstep hfresh => ?_, fun t th th' response ht ht' hret => ?_⟩
  · have hroutes : ∀ t toolCall, l = .start t toolCall →
        c.threads t = none ∧ ∃ call, routed route call = some toolCall := by
      intro t toolCall hl
      obtain ⟨hfree, call, hroute⟩ := hfresh t toolCall hl
      exact ⟨hfree, call, by rw [routed, hroute]; rfl⟩
    obtain ⟨tr', c', hsteps, herase, hm, -⟩ :=
      hmirrors.lift (over_callTool srv route journal) journalMachine_answering hstep hroutes
    exact ⟨tr', c', hsteps, herase, hm⟩
  · obtain ⟨tr', c', th₁, hsteps, herase, hm, ht₁, hcall, -, hreturns, -⟩ :=
      hmirrors.catch_up (callTool srv route journal) journalMachine_answering ht ht'
    obtain ⟨result, hrest, hresult⟩ := hreturns response hret
    exact ⟨tr', c', th₁, hsteps, herase, hm, ht₁, hcall, hrest.trans (congrArg _ hresult)⟩

theorem journal_transparent_sessions : ∃ tr c, ∃ d : Config machine ToolCall CallToolResponse,
    Run journaledMachine (callTool wordServer sessionsRouter true) tr c ∧
      Run machine (toolCode wordServer) (erase (routed sessionsRouter) tr) d ∧
      Mirrors (routed sessionsRouter) SameResponse c d := by
  obtain ⟨tr, c, th, hrun, -⟩ := sessions_run
  obtain ⟨d, hbelow, hmirrors, -⟩ := journal_transparent wordServer sessionsRouter true hrun
  exact ⟨tr, c, d, hrun, hbelow, hmirrors⟩

end McpSerial
