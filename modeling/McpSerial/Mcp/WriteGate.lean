import McpSerial.Manager.Atomicity
import McpSerial.Mcp.SideEffects

/-! What the gates have made sure of whenever bytes are handed to a port. -/

namespace McpSerial
open Interaction Interaction.Discipline Utf8

/-- What the write policy of a session that was opened with `args` asks of a call. -/
structure Authorized (srv : McpServer) (id : String) (args : SessionArgs) (confirm : Option Bool)
    (context : RequestContext) (inputResponses : Option InputResponses) (tool : String)
    (payload : List UInt8) : Prop where
  not_denied : args.writePolicy ≠ .deny
  answered : args.writePolicy = .confirm → clientCanElicit context →
    ∃ answer content,
      inputResponses.bind (·.lookup (confirmationKey srv id tool payload)) = some answer ∧
      srv.elicitResult answer = some ⟨.accept, some content⟩ ∧
      content.get "confirm" = some (.bool true)
  flagged : args.writePolicy = .confirm → clientCanElicit context = false → confirm = some true
  sized : payload.length ≤ maxWriteChunk

/-- A call on the session `id`, opened with `args`, that passed every gate with `payload`. -/
inductive Gated (srv : McpServer) (id : String) (args : SessionArgs) :
    ToolCall → List UInt8 → Prop where
  | write {p : WriteParams} {context : RequestContext} {inputResponses : Option InputResponses}
      (names : p.sessionId = id)
      (authorized : Authorized srv id args p.confirm context inputResponses "serial.write"
        (asBytes p.data))
      (unguarded : args.commandPolicy.isEmpty = true) :
      Gated srv id args (.write p context inputResponses) (asBytes p.data)
  | exec {p : ExecParams} {context : RequestContext} {inputResponses : Option InputResponses}
      {payload : List UInt8} (names : p.sessionId = id)
      (authorized : Authorized srv id args p.confirm context inputResponses "serial.exec" payload)
      (accepted : args.commandPolicy.check p.command.toList args.consoleSettings.lineEnding
        p.lineEnding = none)
      (line : payload = (p.lineEnding.getD args.consoleSettings.lineEnding).appendTo
        (asBytes p.command))
      (own_line : args.commandPolicy.isEmpty = false →
        payload = asBytes p.command ++ args.consoleSettings.lineEnding.bytes) :
      Gated srv id args (.exec p context inputResponses) payload

section Gates

variable {srv : McpServer} {id tool : String} {args : SessionArgs} {A : Option Session → Prop}
  {call : ToolCall} {payload : List UInt8} {confirm : Option Bool} {context : RequestContext}
  {inputResponses : Option InputResponses}

theorem Confirmed.authorized
    (h : Confirmed srv id (confirm.getD false) context inputResponses tool payload
      args.writePolicy) (sized : payload.length ≤ maxWriteChunk) :
    Authorized srv id args confirm context inputResponses tool payload := by
  generalize hpolicy : args.writePolicy = policy at h
  cases h with
  | allowed =>
    constructor
    · rw [hpolicy]
      decide
    · intro hconfirm
      rw [hpolicy] at hconfirm
      cases hconfirm
    · intro hconfirm
      rw [hpolicy] at hconfirm
      cases hconfirm
    · exact sized
  | answered elicits given accepts =>
    constructor
    · rw [hpolicy]
      decide
    · intro _ _
      obtain ⟨content, hresult, hflag⟩ := confirmationAnswer_eq_ok.mp accepts
      exact ⟨_, content, given, hresult, hflag⟩
    · intro _ hcannot
      rw [hcannot] at elicits
      cases elicits
    · exact sized
  | flagged elicits flag =>
    constructor
    · rw [hpolicy]
      decide
    · intro _ hcan
      rw [elicits] at hcan
      cases hcan
    · intro _ _
      cases confirm with
      | none => cases flag
      | some b => exact congrArg some flag
    · exact sized

theorem Permitted.gated (h : Permitted srv A call payload) (hid : call.sessionId = some id)
    (hA : ∀ y, A (some y) → y.toSessionArgs = args) : Gated srv id args call payload := by
  cases h with
  | @write p context inputResponses y z hy hz passes confirmed =>
    obtain rfl : p.sessionId = id := Option.some.inj hid
    obtain rfl := hA y hy
    have hwritePolicy : z.writePolicy = y.writePolicy := congrArg SessionArgs.writePolicy (hA z hz)
    rw [hwritePolicy] at confirmed
    exact .write rfl (confirmed.authorized passes.fits) passes.unguarded
  | @exec p context inputResponses y z w hy hz hw passes confirmed =>
    obtain rfl : p.sessionId = id := Option.some.inj hid
    obtain rfl := hA y hy
    have hwritePolicy : w.writePolicy = y.writePolicy := congrArg SessionArgs.writePolicy (hA w hw)
    have hpolicy : z.commandPolicy = y.commandPolicy := congrArg SessionArgs.commandPolicy (hA z hz)
    have haccepted := passes.accepted
    rw [hwritePolicy] at confirmed
    rw [hpolicy] at haccepted
    refine .exec rfl (confirmed.authorized passes.fits) haccepted rfl fun hguarded => ?_
    have haccepts := (CommandPolicy.check_eq_none hguarded).mp haccepted
    show (p.lineEnding.getD y.consoleSettings.lineEnding).appendTo (asBytes p.command) = _
    rw [haccepts.ending]
    rfl

end Gates

/-! ## At any point of a call -/

section Calls

variable {srv : McpServer} {A : Option Session → Prop} {call : ToolCall} {es : List Ask}
  {q : Handler CallToolResponse}

theorem toolCode_coherent (k : Runs (toolCode srv call) es q)
    (hA : ∀ e ∈ es, Finds call.sessionId A e.req e.resp) :
    IoLog.Coherent (Permitted srv A call) (IoLog.run es) := by
  refine (toolCode_ioLog srv A call).invariant (I := fun s => ∀ l, s = some l →
    IoLog.Coherent (Permitted srv A call) l) k ?_ ?_ _ (assuming_after hA)
  · rintro _ ⟨⟩
    exact ⟨nofun, fun _ => rfl⟩
  · intro s r x hs hr l hl
    by_cases hx : Finds call.sessionId A r x
    · cases s with
      | none =>
        rw [show (Discipline.assuming _ _).advance none r x = none from ite_self none] at hl
        cases hl
      | some l₀ =>
        rw [assuming_advance_of hx] at hl
        cases hl
        exact (hs l₀ rfl).advance (hr l₀ rfl) x
    · rw [assuming_advance_not hx] at hl
      cases hl

theorem IoLog.run_written (es : List Ask) : (IoLog.run es).written = es.flatMap accepted := by
  have hwritten := ioLog_after_written (P := fun _ => True) {} es
  rwa [List.nil_append] at hwritten

/-- Whatever a call has written is a prefix of what it was let through with. -/
theorem written_permitted (k : Runs (toolCode srv call) es q)
    (hA : ∀ e ∈ es, Finds call.sessionId A e.req e.resp) (hne : es.flatMap accepted ≠ []) :
    ∃ payload, Permitted srv A call payload ∧ es.flatMap accepted <+: payload := by
  have hcoherent := toolCode_coherent k hA
  rw [← IoLog.run_written] at hne ⊢
  cases hpayload : (IoLog.run es).payload with
  | none => exact absurd (hcoherent.unwritten hpayload) hne
  | some payload => exact ⟨payload, hcoherent.payload payload hpayload⟩

/-- What a call hands to a port completes what it was let through with. -/
theorem handed_permitted {port : Handle} {data : List UInt8} {token : Token}
    {next : Response (.write port data token) → Handler CallToolResponse}
    (k : Runs (toolCode srv call) es (.ask (.write port data token) next))
    (hA : ∀ e ∈ es, Finds call.sessionId A e.req e.resp) :
    Permitted srv A call (es.flatMap accepted ++ data) := by
  have hcoherent := toolCode_coherent k hA
  have hadmits : IoLog.admits (Permitted srv A call) (IoLog.run es) (.write port data token) :=
    (toolCode_ioLog srv A call).asks k _ (assuming_after hA)
  obtain ⟨_, hfirst, hlater⟩ := hadmits
  rw [← IoLog.run_written]
  cases hpayload : (IoLog.run es).payload with
  | none =>
    rw [hcoherent.unwritten hpayload]
    exact hfirst hpayload
  | some payload =>
    rw [hlater payload hpayload]
    exact (hcoherent.payload payload hpayload).1

end Calls

/-! ## In a run -/

def Opened {κ : Type} (tr : List (Label Request Response κ)) (id : String) (args : SessionArgs)
    (port : Handle) : Prop :=
  ∃ v, Reserved tr v id args ∧ Readied tr v id port

section Runs

variable {srv : McpServer} {tr before after : List ToolLabel} {c : ToolConfig} {id : String}
  {args : SessionArgs} {port : Handle} {t : Nat} {th : ToolThread} {data : List UInt8}
  {token : Token} {x : Response (.write port data token)}

theorem found_args (h : Run machine (toolCode srv) tr c) (hfresh : FreshIds tr)
    (hopened : Opened tr id args port) (ht : c.threads t = some th)
    (hid : th.call.sessionId = some id) : ∀ y, Found th (some y) → y.toSessionArgs = args := by
  rintro y ⟨id', hid', hget⟩
  obtain rfl : id = id' := Option.some.inj (hid.symm.trans hid')
  have hmem : .act t ⟨.get id, some y⟩ ∈ tr := mem_eventsOf.mp ((Run.started h ht).past_eq ▸ hget)
  obtain ⟨v, hreserved, _⟩ := hopened
  obtain ⟨u, hu⟩ := (toolCode_orderly srv).found_reserved h hmem
  exact (hfresh.reserved_unique hu hreserved).2

theorem Permitted.writes {A : Option Session → Prop} {call : ToolCall} {payload : List UInt8}
    (h : Permitted srv A call payload) : call.usesPort ∧ ∃ id, call.sessionId = some id := by
  cases h with
  | write => exact ⟨rfl, _, rfl⟩
  | exec => exact ⟨rfl, _, rfl⟩

theorem names_session (h : Run machine (toolCode srv) tr c) (hopened : Opened tr id args port)
    (ht : c.threads t = some th) {A : Option Session → Prop} {payload : List UInt8}
    (hpermitted : Permitted srv A th.call payload) {e : Ask} (he : e ∈ th.past)
    (hio : e.req.ioPort = some port) : th.call.sessionId = some id := by
  have hcode := toolCode_orderly srv
  obtain ⟨huses, id', hid'⟩ := hpermitted.writes
  have hruns := (Run.started h ht).runs
  obtain ⟨u, hu⟩ := hcode.io_readied h ht (toolCode_usesPort srv huses hid' hruns) he hio
  obtain ⟨v, _, hv⟩ := hopened
  rw [hcode.port_unique h hv hu]
  exact hid'

/-- A call that hands bytes to the port of a session has passed the gates of that session. -/
theorem handed_gated (h : Run machine (toolCode srv) tr c) (hfresh : FreshIds tr)
    (hopened : Opened tr id args port)
    (htr : tr = before ++ .act t ⟨.write port data token, x⟩ :: after) :
    ∃ th, c.threads t = some th ∧ Gated srv id args th.call (sent t before ++ data) := by
  obtain ⟨d, d', hbefore, hstep, hafter⟩ := (htr ▸ h).step_at
  have hrest := (Steps.refl.snoc hstep).append hafter
  cases hstep with
  | @act _ call past _ next _ s at_ask answer =>
    obtain ⟨th, ht, hcall, es, hpast⟩ := hrest.thread_mono at_ask
    dsimp only at hcall hpast
    have hstarted := Run.started hbefore at_ask
    have hmem : .act t ⟨.write port data token, x⟩ ∈ tr := by rw [htr]; simp
    have hevent : (⟨.write port data token, x⟩ : Ask) ∈ th.past := by
      rw [(Run.started h ht).past_eq]
      exact mem_eventsOf.mpr hmem
    have hfinds : ∀ e ∈ past, Finds call.sessionId (Found th) e.req e.resp := by
      intro e he
      rw [← hcall]
      exact finds_found th e (by rw [hpast]; exact List.mem_append_left _ he)
    have hpermitted : Permitted srv (Found th) th.call (sent t before ++ data) := by
      have hhanded := handed_permitted hstarted.runs hfinds
      rw [hstarted.past_eq] at hhanded
      rw [hcall]
      exact hhanded
    have hid := names_session h hopened ht hpermitted hevent rfl
    exact ⟨th, ht, hpermitted.gated hid (found_args h hfresh hopened ht hid)⟩

/-- The bytes that a call has sent to the port of a session begin what it was let through with. -/
theorem sent_gated (h : Run machine (toolCode srv) tr c) (hfresh : FreshIds tr)
    (hopened : Opened tr id args port) (ht : c.threads t = some th) {e : Ask} (he : e ∈ th.past)
    (hio : e.req.ioPort = some port) (hsent : sent t tr ≠ []) :
    ∃ payload, Gated srv id args th.call payload ∧ sent t tr <+: payload := by
  have hstarted := Run.started h ht
  have hpast : sent t tr = th.past.flatMap accepted := by
    rw [hstarted.past_eq]
    rfl
  rw [hpast] at hsent ⊢
  obtain ⟨payload, hpermitted, hprefix⟩ := written_permitted hstarted.runs (finds_found th) hsent
  have hid := names_session h hopened ht hpermitted he hio
  exact ⟨payload, hpermitted.gated hid (found_args h hfresh hopened ht hid), hprefix⟩

end Runs

theorem Gated.not_denied {srv : McpServer} {id : String} {args : SessionArgs} {call : ToolCall}
    {payload : List UInt8} (h : Gated srv id args call payload) : args.writePolicy ≠ .deny := by
  cases h with
  | write _ authorized => exact authorized.not_denied
  | exec _ authorized => exact authorized.not_denied

/-- Every byte sequence handed to the port of a session completes the payload of one
`serial.write` or `serial.exec` call on it that passed all its gates, and the port of a
session that denies writes is never handed any. -/
theorem write_gate_sound (srv : McpServer) {tr : List ToolLabel} {c : ToolConfig}
    (h : Run machine (toolCode srv) tr c) (hfresh : FreshIds tr) {id : String} {args : SessionArgs}
    {port : Handle} (hopened : Opened tr id args port) :
    (∀ before after t data token x, tr = before ++ .act t ⟨.write port data token, x⟩ :: after →
      ∃ th, c.threads t = some th ∧ Gated srv id args th.call (sent t before ++ data)) ∧
    (args.writePolicy = .deny → received port tr = [] ∧
      ∀ t data token x, .act t ⟨.write port data token, x⟩ ∉ tr) := by
  have hhanded (before after t data token x)
      (htr : tr = before ++ .act t ⟨.write port data token, x⟩ :: after) :=
    handed_gated h hfresh hopened htr
  refine ⟨hhanded, fun hdeny => ?_⟩
  have hnone (t data token x) : .act t ⟨.write port data token, x⟩ ∉ tr := by
    intro hmem
    obtain ⟨before, after, htr⟩ := List.append_of_mem hmem
    obtain ⟨th, _, hgated⟩ := hhanded before after t data token x htr
    exact hgated.not_denied hdeny
  refine ⟨List.flatMap_eq_nil_iff.mpr fun e he => ?_, hnone⟩
  obtain ⟨hmem, hio⟩ := mem_ioEvents.mp he
  obtain ⟨t, r, x⟩ := e
  cases r with
  | write p data token =>
    cases hio
    exact absurd hmem (hnone t data token x)
  | _ => rfl

theorem write_gate_sound_broken_off : ∃ tr c, Run machine (toolCode wordServer) tr c ∧
    FreshIds tr ∧ Opened tr firstId guardedArgs (0 : Nat) ∧
    ∃ th, c.threads 1 = some th ∧
      Gated wordServer firstId guardedArgs th.call ([] ++ [114, 101, 10]) := by
  obtain ⟨threads, owner, th, h, ht, _⟩ := broken_off_run
  have hopened : Opened brokenOffTrace firstId guardedArgs (0 : Nat) :=
    ⟨0, by simp [Reserved, brokenOffTrace, guardedTrace],
      by simp [Readied, brokenOffTrace, guardedTrace]⟩
  have hfresh : FreshIds brokenOffTrace := by
    unfold FreshIds
    decide
  have hsound := write_gate_sound wordServer h hfresh hopened
  exact ⟨_, _, h, hfresh, hopened, hsound.1 (brokenOffTrace.take 16) (brokenOffTrace.drop 17) 1
    [114, 101, 10] .call (.ready (.ok ⟨2, by decide⟩)) rfl⟩

end McpSerial
