import McpSerial.Mcp.GuardedLines

/-! Everything the device of a session was sent, accounted for by the responses of the calls. -/

namespace McpSerial
open Interaction Interaction.Discipline Utf8 Framing

/-- What the response says of a call that was let through with `payload` and got `data`, which
is not empty, through to a device: a success is about all of it, and an error owns up. -/
def Accounted (payload data : List UInt8) : CallToolResponse → Prop
  | .complete (.write result) => data = payload ∧ result.bytesWritten = payload.length
  | .complete (.exec result) =>
    result.commandWritten = true ∧ data = payload ∧ result.bytesWritten = payload.length
  | .complete (.error body) => body.commandWritten = true
  | _ => False

/-- Every call on `id` has returned, and none with an error behind bytes that it wrote. -/
def Unbroken (c : ToolConfig) (id : String) : Prop :=
  ∀ t th, c.threads t = some th → th.call.sessionId = some id →
    ∃ response, th.rest = .ret response ∧
      ∀ body, response = .complete (.error body) → body.commandWritten = false

/-- `line` is the command of `t`, an `exec` on `id` that the policy in `args` accepts. -/
def CommandOf (c : ToolConfig) (id : String) (args : SessionArgs) (t : Nat)
    (line : List UInt8) : Prop :=
  ∃ th p context inputResponses, c.threads t = some th ∧ th.call = .exec p context inputResponses ∧
    p.sessionId = id ∧
    args.commandPolicy.check p.command.toList args.consoleSettings.lineEnding p.lineEnding = none ∧
    line = asBytes p.command

section Calls

variable {srv : McpServer} {id : String} {args : SessionArgs} {A : Option Session → Prop}
  {call : ToolCall} {payload data : List UInt8}

theorem Gated.sends_eq (h : Gated srv id args call payload) (hsends : call.Sends A data)
    (hA : ∀ y, A (some y) → y.toSessionArgs = args) : data = payload := by
  cases h with
  | write => exact hsends
  | exec names authorized accepted line own_line =>
    obtain ⟨y, hy, rfl⟩ := hsends
    obtain rfl := hA y hy
    exact line.symm

theorem Gated.names (h : Gated srv id args call payload) : call.sessionId = some id := by
  cases h with
  | write names => exact congrArg some names
  | exec names => exact congrArg some names

theorem accounted {l : IoLog} {response : CallToolResponse}
    (h : ToolReports (call.Sends A) l response) (hgated : Gated srv id args call payload)
    (hA : ∀ y, A (some y) → y.toSessionArgs = args) (hne : l.written ≠ []) :
    Accounted payload l.written response := by
  have hwhole {n : Nat} (hsent : SentWhole (call.Sends A) l n) :
      l.written = payload ∧ n = payload.length := by
    have hpayload := hgated.sends_eq hsent.whole hA
    exact ⟨hpayload, hpayload ▸ hsent.count⟩
  cases response with
  | inputRequired ask => exact absurd h.1 hne
  | complete result =>
    cases result with
    | error body => exact eq_true_of_ne_false fun hwritten => hne (h.1 hwritten)
    | write result => exact hwhole h
    | exec result =>
      have hwritten : result.commandWritten = true :=
        eq_true_of_ne_false fun hwritten => hne (h.2 hwritten)
      exact ⟨hwritten, hwhole (h.1 hwritten)⟩
    | _ => exact absurd h hne

end Calls

section Runs

variable {srv : McpServer} {tr : List ToolLabel} {c : ToolConfig} {id : String}
  {args : SessionArgs} {port : Handle} {t : Nat}

/-- A call that got anything through to the port of a session passed the gates of the session
with a payload that begins so, and its response accounts for it. -/
theorem sent_accounted (h : Run machine (toolCode srv) tr c) (hfresh : FreshIds tr)
    (hopened : Opened tr id args port) (ht : t ∈ lockOrder port tr) (hsent : sent t tr ≠ []) :
    ∃ th payload, c.threads t = some th ∧ Gated srv id args th.call payload ∧
      sent t tr <+: payload ∧
      ∀ response, th.rest = .ret response → Accounted payload (sent t tr) response := by
  have hserial := (toolCode_orderly srv).serialized h
  have hblock : block t (ioEvents port tr) ≠ [] := by
    intro hnone
    rw [← hserial.sent_eq ht, hnone] at hsent
    exact hsent rfl
  obtain ⟨⟨u, e⟩, hown⟩ := List.exists_mem_of_ne_nil _ hblock
  obtain ⟨hmem, rfl⟩ := mem_block.mp hown
  obtain ⟨hact, hio⟩ := mem_ioEvents.mp hmem
  obtain ⟨th, hth, he⟩ := h.thread_of_act hact
  obtain ⟨payload, hgated, hprefix⟩ := sent_gated h hfresh hopened hth he hio hsent
  refine ⟨th, payload, hth, hgated, hprefix, fun response hret => ?_⟩
  have hstarted := Run.started h hth
  have hruns : Runs (toolCode srv th.call) th.past (.ret response) := hret ▸ hstarted.runs
  have hreports : ToolReports (th.call.Sends (Found th)) (IoLog.run th.past) response :=
    (toolCode_ioLog srv (Found th) th.call).returns hruns _ (assuming_after (finds_found th))
  have hwritten : (IoLog.run th.past).written = sent u tr := by
    rw [IoLog.run_written, hstarted.past_eq]
    rfl
  rw [← hwritten] at hsent ⊢
  exact accounted hreports hgated (found_args h hfresh hopened hth hgated.names) hsent

theorem received_eq (h : Run machine (toolCode srv) tr c) (port : Handle) :
    received port tr = (lockOrder port tr).flatMap fun t => sent t tr := by
  have hserial := (toolCode_orderly srv).serialized h
  rw [received, (hserial.blocks port).flatMap_eq]
  exact List.flatMap_congr fun t ht => hserial.sent_eq ht

/-- In an unbroken session whose policy has rules, whoever sends anything sends its line. -/
theorem sent_command (h : Run machine (toolCode srv) tr c) (hfresh : FreshIds tr)
    (hopened : Opened tr id args port) (hguarded : args.commandPolicy.isEmpty = false)
    (hunbroken : Unbroken c id) (ht : t ∈ lockOrder port tr) (hsent : sent t tr ≠ []) :
    ∃ line, CommandOf c id args t line ∧
      sent t tr = line ++ args.consoleSettings.lineEnding.bytes := by
  obtain ⟨th, payload, hth, hgated, _, haccounted⟩ := sent_accounted h hfresh hopened ht hsent
  obtain ⟨response, hret, herror⟩ := hunbroken t th hth hgated.names
  have haccounted := haccounted response hret
  have hwhole : sent t tr = payload := by
    cases response with
    | inputRequired ask => exact haccounted.elim
    | complete result =>
      cases result with
      | error body =>
        have hwritten : body.commandWritten = true := haccounted
        rw [herror body rfl] at hwritten
        cases hwritten
      | write result => exact haccounted.1
      | exec result => exact haccounted.2.1
      | _ => exact haccounted.elim
  generalize hcall : th.call = call at hgated
  cases hgated with
  | write names authorized unguarded =>
    rw [hguarded] at unguarded
    cases unguarded
  | exec names authorized accepted line own_line =>
    exact ⟨_, ⟨th, _, _, _, hth, hcall, names, accepted, rfl⟩, hwhole.trans (own_line hguarded)⟩

end Runs

theorem exists_left {R : Nat → List UInt8 → Prop} {ts : List Nat} {ls : List (List UInt8)}
    {l : List UInt8} (h : List.Forall₂ R ts ls) (hl : l ∈ ls) : ∃ t, R t l := by
  induction h with
  | nil => cases hl
  | @cons t _ _ _ hR _ ih =>
    rcases List.mem_cons.mp hl with rfl | hl
    · exact ⟨t, hR⟩
    · exact ih hl

/-- In every run: the bytes that the device of a session has got are those of the calls on the
session in the order of their locks, each the beginning of a payload that passed every gate,
and the response of the call says what became of it. -/
theorem device_stream (srv : McpServer) {tr : List ToolLabel} {c : ToolConfig}
    (h : Run machine (toolCode srv) tr c) (hfresh : FreshIds tr) {id : String} {args : SessionArgs}
    {port : Handle} (hopened : Opened tr id args port) :
    received port tr = (lockOrder port tr).flatMap (fun t => sent t tr) ∧
      (lockOrder port tr).Nodup ∧
      ∀ t ∈ lockOrder port tr, sent t tr ≠ [] →
        ∃ th payload, c.threads t = some th ∧ Gated srv id args th.call payload ∧
          sent t tr <+: payload ∧
          ∀ response, th.rest = .ret response → Accounted payload (sent t tr) response := by
  have hserial := (toolCode_orderly srv).serialized h
  exact ⟨received_eq h port, (hserial.blocks port).nodup,
    fun t ht => sent_accounted h hfresh hopened ht⟩

/-- The error of the `exec` that broke off owns up to the two bytes it had written. -/
theorem device_stream_broken_off : ∃ tr c, ∃ th : ToolThread,
    Run machine (toolCode wordServer) tr c ∧ c.threads 1 = some th ∧
      received (0 : Nat) tr = [114, 101] ∧
      ∃ payload, Gated wordServer firstId guardedArgs th.call payload ∧
        [114, 101] <+: payload ∧
        Accounted payload [114, 101]
          (.complete (toolError (.timeout 100) (some firstId) true true)) := by
  obtain ⟨threads, owner, th, h, hth, _, hret, _⟩ := broken_off_run
  have hopened : Opened brokenOffTrace firstId guardedArgs (0 : Nat) :=
    ⟨0, by simp [Reserved, brokenOffTrace, guardedTrace],
      by simp [Readied, brokenOffTrace, guardedTrace]⟩
  have hfresh : FreshIds brokenOffTrace := by
    unfold FreshIds
    decide
  obtain ⟨_, _, hsent⟩ := device_stream wordServer h hfresh hopened
  have hdata : sent 1 brokenOffTrace = [114, 101] := rfl
  obtain ⟨th', payload, hth', hgated, hprefix, haccounted⟩ := hsent 1 (by decide) (by decide)
  obtain rfl : th = th' := Option.some.inj (hth.symm.trans hth')
  rw [hdata] at hprefix haccounted
  exact ⟨_, _, th, h, hth, rfl, payload, hgated, hprefix, haccounted _ hret⟩

/-- In every run: as long as no call on a guarded session is in flight or has answered that it
failed behind bytes it had written, what the device has got is exactly the accepted commands
of the calls that sent any, each as one line, in the order of their locks. -/
theorem guarded_transcript (srv : McpServer) {tr : List ToolLabel} {c : ToolConfig}
    (h : Run machine (toolCode srv) tr c) (hfresh : FreshIds tr) {id : String} {args : SessionArgs}
    {port : Handle} (hopened : Opened tr id args port)
    (hguarded : args.commandPolicy.isEmpty = false) (hunbroken : Unbroken c id) :
    ∃ commands,
      List.Forall₂ (CommandOf c id args)
        ((lockOrder port tr).filter fun t => sent t tr ≠ []) commands ∧
      received port tr = commands.flatMap (· ++ args.consoleSettings.lineEnding.bytes) ∧
      lines args.consoleSettings.lineEnding.bytes (received port tr) = commands := by
  obtain ⟨commands, hcommands, hstream⟩ :=
    exists_lines fun t ht => sent_command h hfresh hopened hguarded hunbroken (t := t) ht
  rw [← received_eq h port] at hstream
  refine ⟨commands, hcommands, hstream, ?_⟩
  have haccepts : ∀ line ∈ commands, args.consoleSettings.lineEnding ≠ .none ∧
      Clean args.consoleSettings.lineEnding.bytes line := by
    intro line hline
    obtain ⟨t, _, p, _, _, _, _, _, haccepted, rfl⟩ := exists_left hcommands hline
    have haccepts := (CommandPolicy.check_eq_none hguarded).mp haccepted
    exact ⟨haccepts.terminated, clean_of_printable haccepts.printable _⟩
  rw [hstream]
  cases commands with
  | nil => rfl
  | cons line commands =>
    have hending := LineEnding.bytes_ne_nil (haccepts line List.mem_cons_self).1
    have hlines := lines_flatMap (f := []) hending (fun l hl => (haccepts l hl).2) rfl
    rwa [List.append_nil] at hlines

/-! ## An `exec` without an answer -/

def quietTrace : List ToolLabel :=
  wholeLineTrace ++
    [⟨.timeLeft, true⟩, ⟨.flush (0 : Nat) .call, .ready (.ok ())⟩, ⟨.turns, (0 : Nat)⟩,
      ⟨.elapsedMs, (100 : Nat)⟩, ⟨.unlock (0 : Nat), ()⟩].map (Label.act 1)

theorem quiet_run : ∃ threads owner th result,
    Run machine (toolCode wordServer) quietTrace
      ⟨⟨AList.singleton firstId guardedSession, owner, (1 : Nat)⟩, threads⟩ ∧
    threads 1 = some th ∧ th.rest = .ret (.complete (.exec result)) := by
  obtain ⟨threads, h₀, hfree⟩ := guarded_run
  have h₁ := h₀.start 1 (.exec (execParams "re") plainContext none) (hfree 1 (by decide))
  have h₂ := h₁.act 1 (r := .get firstId) (some guardedSession) rfl ⟨rfl, rfl⟩
  have h₃ := h₂.act 1 (r := .get firstId) (some guardedSession) rfl ⟨rfl, rfl⟩
  have h₄ := h₃.act 1 (r := .get firstId) (some guardedSession) rfl ⟨rfl, rfl⟩
  have h₅ := h₄.act 1 (r := .get firstId) (some guardedSession) rfl ⟨rfl, rfl⟩
  have h₆ := h₅.act 1 (r := .isCancelled .call) false rfl ⟨nofun, rfl⟩
  have h₇ := h₆.act 1 (r := .timeLeft) true rfl rfl
  have h₈ := h₇.act 1 (r := .lock (0 : Nat) .call) (.ready ()) rfl ⟨rfl, rfl⟩
  have h₉ := h₈.act 1 (r := .get firstId) (some guardedSession) rfl ⟨rfl, rfl⟩
  have h₁₀ := h₉.act 1 (r := .isCancelled .call) false rfl ⟨nofun, rfl⟩
  have h₁₁ := h₁₀.act 1 (r := .timeLeft) true rfl rfl
  have h₁₂ := h₁₁.act 1 (r := .cancelPicked .call) false rfl ⟨nofun, rfl⟩
  have h₁₃ := h₁₂.act 1 (r := .write (0 : Nat) [114, 101, 10] .call) (.ready (.ok ⟨3, by decide⟩))
    rfl ⟨trivial, rfl⟩
  have h₁₄ := h₁₃.act 1 (r := .timeLeft) true rfl rfl
  have h₁₅ := h₁₄.act 1 (r := .flush (0 : Nat) .call) (.ready (.ok ())) rfl ⟨trivial, rfl⟩
  have h₁₆ := h₁₅.act 1 (r := .turns) (0 : Nat) rfl rfl
  have h₁₇ := h₁₆.act 1 (r := .elapsedMs) (100 : Nat) rfl rfl
  have h₁₈ := h₁₇.act 1 (r := .unlock (0 : Nat)) () rfl rfl
  exact ⟨_, _, _, _, h₁₈, rfl, rfl⟩

/-- The device of the `exec` without an answer has got its command and nothing else. -/
theorem guarded_transcript_quiet : ∃ tr c, Run machine (toolCode wordServer) tr c ∧
    received (0 : Nat) tr = [114, 101, 10] ∧
    ∃ commands, List.Forall₂ (CommandOf c firstId guardedArgs) [1] commands ∧
      received (0 : Nat) tr = commands.flatMap (· ++ [10]) ∧
      lines [10] (received (0 : Nat) tr) = commands := by
  obtain ⟨threads, owner, th, result, h, hth, hret⟩ := quiet_run
  have hopened : Opened quietTrace firstId guardedArgs (0 : Nat) :=
    ⟨0, by simp [Reserved, quietTrace, wholeLineTrace, brokenOffTrace, guardedTrace],
      by simp [Readied, quietTrace, wholeLineTrace, brokenOffTrace, guardedTrace]⟩
  have hfresh : FreshIds quietTrace := by
    unfold FreshIds
    decide
  refine ⟨_, _, h, rfl, guarded_transcript wordServer h hfresh hopened rfl fun t th' hth' hid => ?_⟩
  have hstart : t = 0 ∧ th'.call = .open guardedParams ∨
      t = 1 ∧ th'.call = .exec (execParams "re") plainContext none := by
    simpa [quietTrace, wholeLineTrace, brokenOffTrace, guardedTrace] using
      (Run.started h hth').start_mem
  rcases hstart with ⟨rfl, hcall⟩ | ⟨rfl, _⟩
  · rw [hcall] at hid
    cases hid
  · obtain rfl : th = th' := Option.some.inj (hth.symm.trans hth')
    refine ⟨_, hret, fun body hbody => ?_⟩
    cases hbody

end McpSerial
