import McpSerial.Journal.Reading
import McpSerial.Mcp.Audit

/-! What the journal holds of a call: its row before the tool runs, the row of its result after,
and nothing that no call logged. -/

namespace McpSerial
open Interaction Json Framing

/-! ## What rows are made of -/

section Integral

variable {v : Value} {content : Option Value}

theorem integral_ofOption {o : Option Value} (h : ∀ v, o = some v → v.Integral) :
    (Value.ofOption o).Integral := by
  cases o with
  | none => trivial
  | some v => exact h v rfl

theorem integral_ofOption_map {α : Type} {o : Option α} {f : α → Value}
    (h : ∀ a, (f a).Integral) : (Value.ofOption (o.map f)).Integral := by
  cases o with
  | none => trivial
  | some a => exact h a

theorem integralItems_map {α : Type} {f : α → Value} (h : ∀ a, (f a).Integral) (as : List α) :
    Value.IntegralItems (as.map f) := by
  induction as with
  | nil => trivial
  | cons a as ih => exact ⟨h a, ih⟩

theorem integralFields_lookup {fields : List (String × Value)} (h : Value.IntegralFields fields)
    {key : String} {v : Value} (hv : fields.lookup key = some v) : v.Integral := by
  induction fields with
  | nil => cases hv
  | cons f fields ih =>
    rw [List.lookup_cons] at hv
    split at hv
    · cases hv
      exact h.1
    · exact ih h.2 hv

theorem Value.Integral.get (h : v.Integral) {key : String} {w : Value} (hw : v.get key = some w) :
    w.Integral := by
  cases v with
  | object fields => exact integralFields_lookup h hw
  | _ => cases hw

theorem integral_argKeys (args : Value) : (argKeys args).Integral :=
  integralItems_map integral_string _

theorem integral_callSummary (tool : String) (args : Value) (mrtrRetry : Bool) :
    (callSummary tool args mrtrRetry).Integral := by
  have hstring (o : Option String) : (Value.ofOption (o.map .string)).Integral :=
    integral_ofOption_map integral_string
  have hbool (o : Option Bool) : (Value.ofOption (o.map .bool)).Integral :=
    integral_ofOption_map integral_bool
  have hnat (o : Option Nat) : (Value.ofOption (o.map .nat)).Integral :=
    integral_ofOption_map integral_nat
  have hkeys : (argKeys args).Integral := integral_argKeys args
  unfold callSummary
  split <;> simp [hstring, hbool, hnat, hkeys]

theorem integral_toolSummary (tool : String) (h : ∀ v, content = some v → v.Integral) :
    (toolSummary tool content).Integral := by
  have hfield (key : String) : (Value.ofOption ((content.getD .null).get key)).Integral := by
    apply integral_ofOption
    intro w hw
    cases content with
    | none => cases hw
    | some v => exact (h v rfl).get hw
  unfold toolSummary
  split <;> simp [hfield]

theorem integral_session (s : SessionSnapshot) : s.serialize.Integral := by
  have hpolicy (p : WritePolicy) : p.serialize.Integral := by cases p <;> trivial
  have hending (e : LineEnding) : e.serialize.Integral := by cases e <;> trivial
  have hecho (e : EchoMode) : e.serialize.Integral := by cases e <;> trivial
  have hprompt (p : SemanticPrompt) : p.serialize.Integral := by cases p <;> trivial
  simp [SessionSnapshot.serialize, ConsoleSettings.serialize, CommandPolicySummary.serialize,
    hpolicy, hending, hecho, hprompt]

theorem integral_port (p : PortDescriptor) : p.serialize.Integral := by
  have hstring (o : Option String) : (Value.ofOption (o.map .string)).Integral :=
    integral_ofOption_map integral_string
  simp [PortDescriptor.serialize, hstring, integral_ofOption_map integral_nat]

theorem integral_matchDetails (d : MatchDetails) : d.serialize.Integral := by
  simp [MatchDetails.serialize]

theorem integral_cleared (r : ClearInputResult) : (Value.object r.fields).Integral := by
  simp [ClearInputResult.fields]

theorem integral_exec (r : ExecResult) : (Value.object r.fields).Integral := by
  simp [ExecResult.fields, integral_ofOption_map integral_string,
    integral_ofOption_map integral_text, integral_ofOption_map integral_int,
    integral_ofOption_map integral_matchDetails, integral_ofOption_map integral_cleared]

theorem CallToolResult.integral {result : CallToolResult} (h : result.isError = false) :
    (Value.object result.fields).Integral := by
  cases result with
  | listPorts ports => exact ⟨integralItems_map integral_port ports, trivial⟩
  | sessions all => exact ⟨integralItems_map integral_session all, trivial⟩
  | getSession session => exact ⟨integral_session session, trivial⟩
  | clearInput r => exact integral_cleared r
  | exec r => exact integral_exec r
  | readUntil r =>
    simp [CallToolResult.fields, ReadUntilResult.fields,
      integral_ofOption_map integral_matchDetails]
  | error body => cases h
  | _ =>
    simp [CallToolResult.fields, OpenResult.fields, WriteResult.fields, ReadResult.fields]

theorem integral_errorSummary (body : ToolErrorBody) :
    (errorSummary (some (.object (CallToolResult.error body).fields))).Integral := by
  have hrule (o : Option String) : (Value.ofOption (o.map .string)).Integral :=
    integral_ofOption_map integral_string
  have hcode : (Value.ofOption ((Value.object body.fields).get "code")).Integral := integral_int _
  have htype : (Value.ofOption ((Value.object body.fields).get "type")).Integral := trivial
  exact ⟨trivial, trivial, hcode, htype, hrule _, trivial⟩

theorem integral_resultSummary (tool : String) (result : Except ErrorData CallToolResult) :
    (resultSummary tool (result.map CallToolResult.structured)).Integral := by
  cases result with
  | error e => exact ⟨trivial, integral_int _, trivial⟩
  | ok ok =>
    by_cases herror : ok.isError = true
    · cases ok with
      | error body => exact integral_errorSummary body
      | _ => cases herror
    · have hnot : ¬(some ok.isError = some true) := fun h => herror (Option.some.inj h)
      show (if some ok.isError = some true then _ else toolSummary tool _).Integral
      rw [if_neg hnot]
      apply integral_toolSummary
      rintro _ ⟨⟩
      exact CallToolResult.integral (Bool.eq_false_iff.mpr herror)

theorem integral_callRow (ts : String) (request : CallToolRequest) :
    (callRow ts request).summary.Integral := integral_callSummary ..

theorem integral_resultRow (ts : String) (request : CallToolRequest)
    (result : Except ErrorData CallToolResponse) :
    (resultRow ts request result).summary.Integral := by
  rcases result with e | (ok | other)
  · exact integral_resultSummary request.name (.error e)
  · exact integral_resultSummary request.name (.ok ok)
  · trivial

end Integral

/-! ## The rows of a call -/

abbrev CallEvent := Event (Request ⊕ JournalRequest) (SumResp Response JournalResponse)

abbrev CallLabel :=
  Label (Request ⊕ JournalRequest) (SumResp Response JournalResponse) ClientCall

def rowOf : CallEvent → Option (JournalEntry × LogOutcome)
  | ⟨.inr (.log entry), outcome⟩ => some (entry, outcome)
  | _ => none

def rows (past : List CallEvent) : List (JournalEntry × LogOutcome) := past.filterMap rowOf

/-- The rows of a call whose tool was given the answers `past`. -/
inductive Trail (srv : McpServer) (route : Router) (call : ClientCall) (past : List Ask) :
    List (JournalEntry × LogOutcome) → Prop where
  | received (none : past = []) : Trail srv route call past []
  | called (ts : String) (outcome : LogOutcome) :
      Trail srv route call past [(callRow ts call.request, outcome)]
  | answered (ts ts' : String) (outcome outcome' : LogOutcome)
      {result : Except ErrorData CallToolResponse}
      (ran : Runs (dispatch srv route call) past (.ret result)) :
      Trail srv route call past
        [(callRow ts call.request, outcome), (resultRow ts' call.request result, outcome')]

abbrev auditing (srv : McpServer) (route : Router) (call : ClientCall) :
    Discipline (Request ⊕ JournalRequest) (SumResp Response JournalResponse) where
  State := List (JournalEntry × LogOutcome) × List Ask
  admits s
    | .inl _ => ∃ ts outcome, s.1 = [(callRow ts call.request, outcome)]
    | .inr .now => True
    | .inr (.log entry) =>
      (s = ([], []) ∧ ∃ ts, entry = callRow ts call.request) ∨
        ∃ ts outcome ts' result, s.1 = [(callRow ts call.request, outcome)] ∧
          Runs (dispatch srv route call) s.2 (.ret result) ∧
          entry = resultRow ts' call.request result
  advance s
    | .inl r, x => (s.1, s.2 ++ [⟨r, x⟩])
    | .inr .now, _ => s
    | .inr (.log entry), outcome => (s.1 ++ [(entry, outcome)], s.2)

variable {srv : McpServer} {route : Router} {call : ClientCall}

theorem auditing_after (s : List (JournalEntry × LogOutcome) × List Ask) (past : List CallEvent) :
    (auditing srv route call).after s past = (s.1 ++ rows past, s.2 ++ erasePast past) := by
  induction past generalizing s with
  | nil => simp [rows, erasePast]
  | cons e past ih =>
    rw [Discipline.after_cons, ih]
    rcases e with ⟨_ | _ | entry, x⟩ <;>
      simp [auditing, rows, rowOf, erasePast, eraseEvent, List.filterMap_cons]

theorem follows_dispatch {rows : List (JournalEntry × LogOutcome)} {ts : String}
    {outcome : LogOutcome} (hrows : rows = [(callRow ts call.request, outcome)]) {past : List Ask}
    {p : Handler (Except ErrorData CallToolResponse)}
    (h : Runs (dispatch srv route call) past p) :
    (auditing srv route call).Follows (rows, past) p.raise fun s result =>
      s.1 = rows ∧ Runs (dispatch srv route call) s.2 (.ret result) := by
  induction p generalizing past with
  | ret result => exact ⟨rfl, h⟩
  | ask r next ih => exact ⟨⟨ts, outcome, hrows⟩, fun x => ih x (h.snoc x)⟩

theorem follows_logRow {row : String → JournalEntry}
    {s : List (JournalEntry × LogOutcome) × List Ask}
    {Q : List (JournalEntry × LogOutcome) × List Ask → Unit → Prop}
    (h : ∀ ts, (auditing srv route call).admits s (.inr (.log (row ts))) ∧
      ∀ outcome, Q (s.1 ++ [(row ts, outcome)], s.2) ()) :
    (auditing srv route call).Follows s (logRow true row) Q :=
  ⟨trivial, fun ts => ⟨(h ts).1, (h ts).2⟩⟩

theorem follows_callTool (srv : McpServer) (route : Router) (call : ClientCall) :
    (auditing srv route call).Follows ([], []) (callTool srv route true call) fun s result =>
      ∃ ts outcome ts' outcome', s.1 =
        [(callRow ts call.request, outcome), (resultRow ts' call.request result, outcome')] := by
  unfold callTool
  simp only [Discipline.follows_bind, Discipline.follows_pure]
  apply follows_logRow
  refine fun ts => ⟨.inl ⟨rfl, ts, rfl⟩, fun outcome => ?_⟩
  have hrows : [] ++ [(callRow ts call.request, outcome)] = [(callRow ts call.request, outcome)] :=
    rfl
  apply (follows_dispatch hrows (.refl _)).mono
  rintro ⟨_, past⟩ result ⟨rfl, hran⟩
  apply follows_logRow
  exact fun ts' => ⟨.inr ⟨ts, outcome, ts', result, rfl, hran, rfl⟩,
    fun outcome' => ⟨ts, outcome, ts', outcome', rfl⟩⟩

/-- At every point of a call the rows are those of `Trail`. -/
theorem trail_of_runs {past : List CallEvent} {rest : CallCode (Except ErrorData CallToolResponse)}
    (h : Runs (callTool srv route true call) past rest) :
    Trail srv route call (erasePast past) (rows past) := by
  have hkeeps := (follows_callTool srv route call).invariant
    (I := fun s : List (JournalEntry × LogOutcome) × List Ask => Trail srv route call s.2 s.1) h
    (.received rfl) ?_
  · rw [auditing_after] at hkeeps
    exact hkeeps
  · rintro ⟨logged, tool⟩ (r | _ | entry) x htrail hadmits
    · obtain ⟨ts, outcome, rfl⟩ := hadmits
      exact .called ts outcome
    · exact htrail
    · rcases hadmits with ⟨hs, ts, rfl⟩ | ⟨ts, outcome, ts', result, rfl, hran, rfl⟩
      · cases hs
        exact .called ts x
      · exact .answered ts ts' outcome x hran

def labelRow : CallLabel → Option (JournalEntry × LogOutcome)
  | .start _ _ => none
  | .act _ e => rowOf e

def LogCall.row (call : LogCall) : JournalEntry × LogOutcome := (call.entry, call.outcome)

/-- The journal is a run of `log`, of the rows that the steps log, in their order. -/
theorem journal_calls {α : Type} {code : ClientCall → CallCode α} {tr : List CallLabel}
    {c : Config journaledMachine ClientCall α} (h : Run journaledMachine code tr c) :
    LogRun c.shared.2.calls c.shared.2.writer ∧
      c.shared.2.calls.map LogCall.row = tr.filterMap labelRow := by
  induction h with
  | refl => exact ⟨.start, rfl⟩
  | @snoc tr c' c'' l init last ih =>
    obtain ⟨hlog, hrows⟩ := ih
    rw [List.filterMap_append, ← hrows]
    cases last with
    | start t call free => exact ⟨hlog, (List.append_nil _).symm⟩
    | @act t call past r next x s at_ask answer =>
      show LogRun s.2.calls s.2.writer ∧ s.2.calls.map LogCall.row = _
      rcases r with r | _ | entry
      · rw [answer.2]
        exact ⟨hlog, (List.append_nil _).symm⟩
      · rw [answer.1.2]
        exact ⟨hlog, (List.append_nil _).symm⟩
      · obtain ⟨⟨events, writer, hrun, hs⟩, -⟩ := answer
        rw [hs]
        exact ⟨hlog.snoc hrun, List.map_append⟩

theorem rows_sublist (t : Nat) (tr : List CallLabel) :
    (rows (eventsOf t tr)).Sublist (tr.filterMap labelRow) := by
  induction tr using List.reverseRecOn with
  | nil => exact List.Sublist.refl _
  | append_singleton tr l ih =>
    rw [List.filterMap_append]
    cases l with
    | start u call =>
      rw [eventsOf_snoc_start]
      exact ih.trans (List.sublist_append_left ..)
    | act u e =>
      rw [eventsOf_snoc_act, rows, List.filterMap_append]
      apply ih.append
      split
      · exact List.Sublist.refl _
      · exact List.nil_sublist _

def written (logged : List (JournalEntry × LogOutcome)) : List (JournalEntry × LogOutcome) :=
  logged.filter fun row => row.2 = .written

theorem written_calls (calls : List LogCall) :
    written (calls.map LogCall.row) = (succeeded calls).map LogCall.row := by
  rw [written, List.filter_map]
  rfl

theorem integral_of_trail {past : List Ask} {logged : List (JournalEntry × LogOutcome)}
    (h : Trail srv route call past logged) : ∀ row ∈ logged, row.1.summary.Integral := by
  cases h with
  | received => nofun
  | called ts outcome => exact List.forall_mem_singleton.mpr (integral_callRow ts call.request)
  | answered ts ts' outcome outcome' ran =>
    exact List.forall_mem_cons.mpr ⟨integral_callRow ts call.request,
      List.forall_mem_singleton.mpr (integral_resultRow ts' call.request _)⟩

theorem logged_by {tr : List CallLabel}
    {c : Config journaledMachine ClientCall (Except ErrorData CallToolResponse)}
    (h : Run journaledMachine (callTool srv route true) tr c) {logged : LogCall}
    (hlogged : logged ∈ c.shared.2.calls) :
    ∃ t th, c.threads t = some th ∧ logged.row ∈ rows th.past := by
  have hmem : logged.row ∈ tr.filterMap labelRow :=
    (journal_calls h).2 ▸ List.mem_map_of_mem hlogged
  obtain ⟨l, hl, hrow⟩ := List.mem_filterMap.mp hmem
  cases l with
  | start t call => cases hrow
  | act t e =>
    obtain ⟨th, ht, he⟩ := Run.thread_of_act h hl
    exact ⟨t, th, ht, List.mem_filterMap.mpr ⟨e, he, hrow⟩⟩

/-- In every run of the server, of any number of calls in any order: a tool asks for nothing
before the row of its call was logged, a call returns only when the row of its result is, and
the journal is what the calls logged, row by row. -/
theorem audit_trail (srv : McpServer) (route : Router) {tr : List CallLabel}
    {c : Config journaledMachine ClientCall (Except ErrorData CallToolResponse)}
    (h : Run journaledMachine (callTool srv route true) tr c) :
    (∀ t th, c.threads t = some th →
      Trail srv route th.call (erasePast th.past) (rows th.past) ∧
      (rows th.past).Sublist (c.shared.2.calls.map LogCall.row) ∧
      (∀ r next, th.rest = .ask (.inl r) next →
        ∃ ts outcome, rows th.past = [(callRow ts th.call.request, outcome)]) ∧
      ∀ result, th.rest = .ret result → ∃ ts outcome ts' outcome', rows th.past =
        [(callRow ts th.call.request, outcome),
          (resultRow ts' th.call.request result, outcome')]) ∧
    c.shared.2.calls.map LogCall.row = tr.filterMap labelRow ∧
    ∀ logged ∈ c.shared.2.calls, ∃ t th, c.threads t = some th ∧ logged.row ∈ rows th.past := by
  refine ⟨fun t th ht => ?_, (journal_calls h).2, fun logged => logged_by h⟩
  have hstarted := Run.started h ht
  have hruns := hstarted.runs
  refine ⟨trail_of_runs hruns, ?_, fun r next hask => ?_, fun result hret => ?_⟩
  · rw [(journal_calls h).2, hstarted.past_eq]
    exact rows_sublist t tr
  · have hadmits := (follows_callTool srv route th.call).asks (hask ▸ hruns)
    rwa [auditing_after] at hadmits
  · have hreturns := (follows_callTool srv route th.call).returns (hret ▸ hruns)
    rwa [auditing_after] at hreturns

theorem audit_trail_sessions : ∃ tr c th,
    Run journaledMachine (callTool wordServer sessionsRouter true) tr c ∧
      c.threads 0 = some th ∧ ∃ ts outcome ts' outcome', rows th.past =
        [(callRow ts sessionsCall.request, outcome),
          (resultRow ts' sessionsCall.request noSessions, outcome')] := by
  obtain ⟨tr, c, th, hrun, ht, hcall, hrest, -⟩ := sessions_run
  obtain ⟨-, -, -, hreturned⟩ := (audit_trail wordServer sessionsRouter hrun).1 0 th ht
  exact ⟨tr, c, th, hrun, ht, hcall ▸ hreturned _ hrest⟩

/-! ## What is read from the file -/

mutual

theorem Value.Integral.oneLine {v : Value} (h : v.Integral) : v.OneLine := by
  cases v with
  | number n =>
    cases n with
    | float text => cases h
    | int n =>
      intro hmem
      exact absurd (isNumberChar_of_mem_decimal hmem) (by decide)
  | array items => exact Value.IntegralItems.oneLine h
  | object fields => exact Value.IntegralFields.oneLine h
  | _ => trivial

theorem Value.IntegralItems.oneLine {items : List Value} (h : Value.IntegralItems items) :
    Value.OneLineItems items := by
  cases items with
  | nil => trivial
  | cons v items => exact ⟨h.1.oneLine, Value.IntegralItems.oneLine h.2⟩

theorem Value.IntegralFields.oneLine {fields : List (String × Value)}
    (h : Value.IntegralFields fields) : Value.OneLineFields fields := by
  cases fields with
  | nil => trivial
  | cons f fields => exact ⟨h.1.oneLine, Value.IntegralFields.oneLine h.2⟩

end

/-- Whatever the calls of a run were, and whatever the file had in it: unless a row broke off,
a reader that reads the rows alone reads those whose write and flush succeeded from the lines of
the file as they were logged, in the order in which they were. -/
theorem journal_read_back (srv : McpServer) (route : Router) {tr : List CallLabel}
    {c : Config journaledMachine ClientCall (Except ErrorData CallToolResponse)}
    (h : Run journaledMachine (callTool srv route true) tr c) {before : List UInt8}
    (hbefore : Ended [newline] before) (hwhole : NoneTorn before c.shared.2.calls)
    (parse : List UInt8 → Option JournalEntry)
    (hparse : ∀ logged ∈ c.shared.2.calls, logged.entry.summary.Integral →
      parse logged.entry.toVec = some logged.entry.sorted) :
    ((written (tr.filterMap labelRow)).map fun row => some row.1.sorted).Sublist
      ((lines [newline] (journalText before c.shared.2.calls)).map parse) := by
  obtain ⟨hlog, hrows⟩ := journal_calls h
  have hintegral : ∀ logged ∈ c.shared.2.calls, logged.entry.summary.Integral := by
    intro logged hlogged
    obtain ⟨t, th, ht, hrow⟩ := logged_by h hlogged
    exact integral_of_trail (trail_of_runs (Run.started h ht).runs) _ hrow
  have hlines := (succeeded_lines hlog hbefore
    (fun logged hlogged => (hintegral logged hlogged).oneLine) hwhole).2.map parse
  rw [← hrows, written_calls, List.map_map]
  rw [List.map_map] at hlines
  have hread : (succeeded c.shared.2.calls).map ((fun row => some row.1.sorted) ∘ LogCall.row) =
      (succeeded c.shared.2.calls).map (parse ∘ fun logged => logged.entry.toVec) := by
    refine List.map_congr_left fun logged hlogged => ?_
    have hmem := List.mem_of_mem_filter hlogged
    exact (hparse logged hmem (hintegral logged hmem)).symm
  rwa [hread]

theorem journal_read_back_sessions : ∃ tr c,
    Run journaledMachine (callTool wordServer sessionsRouter true) tr c ∧
      [some (resultRow (iso8601Now none) sessionsCall.request noSessions).sorted].Sublist
        ((lines [newline] (journalText [] c.shared.2.calls)).map JournalEntry.fromSlice) := by
  obtain ⟨tr, c, th, hrun, -, -, -, hcalls⟩ := sessions_run
  have hwhole : NoneTorn [] c.shared.2.calls := hcalls ▸ retried_noneTorn sessionsRows_fit
  have hread := journal_read_back wordServer sessionsRouter hrun (.inl rfl) hwhole
    JournalEntry.fromSlice fun _ _ hintegral => fromSlice_toVec hintegral
  rw [← (journal_calls hrun).2, hcalls] at hread
  exact ⟨tr, c, hrun, hcalls ▸ hread⟩

end McpSerial
