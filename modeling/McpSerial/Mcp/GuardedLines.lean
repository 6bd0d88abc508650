import McpSerial.Mcp.WriteGate
import McpSerial.PolicyFraming

/-! The lines that the device behind a guarded session gets. -/

namespace McpSerial
open Interaction Interaction.Discipline Utf8 Framing

/-- Every terminated line that the device behind `port` has got is the command of an `exec`
on the session `id` that the command policy in `args` accepts. -/
def LinesAccepted (tr : List ToolLabel) (c : ToolConfig) (id : String) (args : SessionArgs)
    (port : Handle) : Prop :=
  ∀ line ∈ lines args.consoleSettings.lineEnding.bytes (received port tr),
    ∃ t th p context inputResponses, c.threads t = some th ∧
      th.call = .exec p context inputResponses ∧ p.sessionId = id ∧
      args.commandPolicy.check p.command.toList args.consoleSettings.lineEnding p.lineEnding =
        none ∧
      line = asBytes p.command

/-- Whenever a call begins to send to `port`, the device has got no unterminated fragment. -/
def StartsLines (tr : List ToolLabel) (port : Handle) (e : LineEnding) : Prop :=
  ∀ before after t data token x, tr = before ++ .act t ⟨.write port data token, x⟩ :: after →
    sent t before = [] → Ended e.bytes (received port before)

theorem StartsLines.of_unwritten {tr : List ToolLabel} {port : Handle} {e : LineEnding}
    (h : ∀ t data token x, .act t ⟨.write port data token, x⟩ ∉ tr) : StartsLines tr port e := by
  intro before after t data token x htr
  exact absurd (by rw [htr]; simp) (h t data token x)

theorem StartsLines.snoc {tr : List ToolLabel} {port : Handle} {e : LineEnding} {l : ToolLabel}
    (h : StartsLines tr port e)
    (hlast : ∀ t data token x, l = .act t ⟨.write port data token, x⟩ → sent t tr = [] →
      Ended e.bytes (received port tr)) : StartsLines (tr ++ [l]) port e := by
  intro before after t data token x htr
  rcases snoc_eq_append_cons htr with ⟨rfl, hl⟩ | ⟨after', rfl⟩
  · exact hlast t data token x hl.symm
  · exact h before after' t data token x rfl

section Runs

variable {srv : McpServer} {tr : List ToolLabel} {c : ToolConfig} {id : String}
  {args : SessionArgs} {port : Handle} {t : Nat}

/-- What a call has sent to a guarded session begins one accepted line. -/
theorem sent_line (h : Run machine (toolCode srv) tr c) (hfresh : FreshIds tr)
    (hopened : Opened tr id args port) (hguarded : args.commandPolicy.isEmpty = false)
    (ht : t ∈ lockOrder port tr) (hsent : sent t tr ≠ []) :
    ∃ th p context inputResponses, c.threads t = some th ∧
      th.call = .exec p context inputResponses ∧ p.sessionId = id ∧
      args.commandPolicy.check p.command.toList args.consoleSettings.lineEnding p.lineEnding =
        none ∧
      sent t tr <+: asBytes p.command ++ args.consoleSettings.lineEnding.bytes := by
  have hserial := (toolCode_orderly srv).serialized h
  have hblock : block t (ioEvents port tr) ≠ [] := by
    intro hnone
    rw [← hserial.sent_eq ht, hnone] at hsent
    exact hsent rfl
  obtain ⟨⟨u, e⟩, hown⟩ := List.exists_mem_of_ne_nil _ hblock
  obtain ⟨hmem, rfl⟩ := mem_block.mp hown
  obtain ⟨hact, hio⟩ := mem_ioEvents.mp hmem
  obtain ⟨th, hth, he⟩ := h.thread_of_act hact
  obtain ⟨payload, hgated, hprefix⟩ := sent_gated h hfresh hopened hth he hio hsent
  generalize hcall : th.call = call at hgated
  cases hgated with
  | write names authorized unguarded =>
    rw [hguarded] at unguarded
    cases unguarded
  | exec names authorized accepted line own_line =>
    rw [own_line hguarded] at hprefix
    exact ⟨th, _, _, _, hth, hcall, names, accepted, hprefix⟩

/-- Whoever sends anything starts where those before it have ended their lines. -/
theorem StartsLines.ended {e : LineEnding} (hstarts : StartsLines tr port e)
    (h : Run machine (toolCode srv) tr c) {us vs : List Nat}
    (horder : lockOrder port tr = us ++ t :: vs) (hsent : sent t tr ≠ []) :
    Ended e.bytes (us.flatMap fun u => sent u tr) := by
  have hserial := (toolCode_orderly srv).serialized h
  obtain ⟨before, ⟨r, x⟩, after, htr, hbefore, hfirst⟩ := exists_first_sent hsent
  cases r with
  | write p data token =>
    have hmem : (t, ⟨.write p data token, x⟩) ∈ ioEvents p tr :=
      mem_ioEvents.mpr ⟨by rw [htr]; simp, rfl⟩
    have hlocked : t ∈ lockOrder port tr := by rw [horder]; simp
    obtain rfl := hserial.single t port p hlocked ((hserial.blocks p).tag_mem hmem)
    rw [← hserial.received_before htr rfl horder hbefore]
    exact hstarts before after t data token x htr hbefore
  | _ => exact absurd rfl hfirst

end Runs

/-- As long as no call begins to send behind an unterminated fragment, every line that the
device behind a guarded session gets is one accepted command. -/
theorem guarded_lines (srv : McpServer) {tr : List ToolLabel} {c : ToolConfig}
    (h : Run machine (toolCode srv) tr c) (hfresh : FreshIds tr) {id : String} {args : SessionArgs}
    {port : Handle} (hopened : Opened tr id args port)
    (hguarded : args.commandPolicy.isEmpty = false)
    (hstarts : StartsLines tr port args.consoleSettings.lineEnding) :
    LinesAccepted tr c id args port := by
  have hserial := (toolCode_orderly srv).serialized h
  have hreceived : received port tr = (lockOrder port tr).flatMap fun u => sent u tr := by
    rw [received, (hserial.blocks port).flatMap_eq]
    exact List.flatMap_congr fun t ht => hserial.sent_eq ht
  have haccepts {p : ExecParams} (haccepted : args.commandPolicy.check p.command.toList
      args.consoleSettings.lineEnding p.lineEnding = none) :=
    (CommandPolicy.check_eq_none hguarded).mp haccepted
  unfold LinesAccepted
  rw [hreceived]
  by_cases hending : args.consoleSettings.lineEnding = .none
  · -- without a terminator no command is accepted, so nothing was sent
    have hnothing : ((lockOrder port tr).flatMap fun u => sent u tr) = [] := by
      refine List.flatMap_eq_nil_iff.mpr fun u hu => by_contra fun hsent => ?_
      obtain ⟨th, p, _, _, _, _, _, haccepted, _⟩ :=
        sent_line h hfresh hopened hguarded hu hsent
      exact (haccepts haccepted).terminated hending
    rw [hnothing]
    intro line hline
    cases hline
  · let Accepted (line : List UInt8) : Prop :=
      Clean args.consoleSettings.lineEnding.bytes line ∧
      ∃ t th p context inputResponses, c.threads t = some th ∧
        th.call = .exec p context inputResponses ∧ p.sessionId = id ∧
        args.commandPolicy.check p.command.toList args.consoleSettings.lineEnding p.lineEnding =
          none ∧ line = asBytes p.command
    have hframed : Framed Accepted args.consoleSettings.lineEnding.bytes
        ((lockOrder port tr).flatMap fun u => sent u tr) := by
      apply framed_flatMap (LineEnding.bytes_ne_nil hending) (LineEnding.bytes_nodup _)
        fun _ hl => hl.1
      · -- each block is one accepted line or a part of it
        intro u hu hsent
        obtain ⟨th, p, context, inputResponses, hth, hcall, hid, haccepted, hprefix⟩ :=
          sent_line h hfresh hopened hguarded hu hsent
        exact ⟨asBytes p.command, ⟨clean_of_printable (haccepts haccepted).printable _,
          u, th, p, context, inputResponses, hth, hcall, hid, haccepted, rfl⟩, hprefix⟩
      · -- and it begins where a line has ended
        intro us u vs horder hsent
        exact hstarts.ended h horder hsent
    intro line hline
    exact (hframed.lines (LineEnding.bytes_ne_nil hending) (fun _ hl => hl.1) line hline).2

def wholeLineTrace : List ToolLabel :=
  brokenOffTrace.take 16 ++
    [.act 1 ⟨.write (0 : Nat) [114, 101, 10] .call, .ready (.ok ⟨3, by decide⟩)⟩]

/-- Had all of its bytes been taken, the `exec` would have sent one accepted line. -/
theorem guarded_lines_whole : ∃ tr c, Run machine (toolCode wordServer) tr c ∧
    FreshIds tr ∧ Opened tr firstId guardedArgs (0 : Nat) ∧
    StartsLines tr (0 : Nat) .lf ∧ lines [10] (received (0 : Nat) tr) = [asBytes "re"] ∧
    LinesAccepted tr c firstId guardedArgs (0 : Nat) := by
  obtain ⟨threads, owner, th, hbroken, _⟩ := broken_off_run
  have hsplit : brokenOffTrace = brokenOffTrace.take 16 ++
      .act 1 ⟨.write (0 : Nat) [114, 101, 10] .call, .ready (.ok ⟨2, by decide⟩)⟩ ::
        brokenOffTrace.drop 17 := rfl
  obtain ⟨d, d', hbefore, hstep, _⟩ := (hsplit ▸ hbroken).step_at
  cases hstep with
  | act _ at_ask _ =>
    have h := Run.act hbefore 1 (r := .write (0 : Nat) [114, 101, 10] .call)
      (.ready (.ok ⟨3, by decide⟩)) at_ask ⟨trivial, rfl⟩
    have hfresh : FreshIds wholeLineTrace := by
      unfold FreshIds
      decide
    have hopened : Opened wholeLineTrace firstId guardedArgs (0 : Nat) :=
      ⟨0, by simp [Reserved, wholeLineTrace, brokenOffTrace, guardedTrace],
        by simp [Readied, wholeLineTrace, brokenOffTrace, guardedTrace]⟩
    have hstarts : StartsLines wholeLineTrace (0 : Nat) .lf := by
      apply StartsLines.snoc
      · exact .of_unwritten (by simp [brokenOffTrace, guardedTrace])
      · exact fun _ _ _ _ _ _ => .inl rfl
    exact ⟨wholeLineTrace, _, h, hfresh, hopened, hstarts, rfl,
      guarded_lines wordServer h hfresh hopened (by decide) hstarts⟩

/-- The time of an `exec` is up after `re`, and an accepted `boot` makes it the blocked
`reboot`. -/
theorem fragment_joined : ∃ tr c, Run machine (toolCode wordServer) tr c ∧ FreshIds tr ∧
    Opened tr firstId guardedArgs (0 : Nat) ∧ guardedArgs.commandPolicy.isEmpty = false ∧
    lines [10] (received (0 : Nat) tr) = [asBytes "reboot"] ∧
    guardedArgs.commandPolicy.check "reboot".toList .lf none = some "deny.caller.0" ∧
    ¬LinesAccepted tr c firstId guardedArgs (0 : Nat) := by
  obtain ⟨threads, owner, th, h₀, _, _, _, hfree, hnone⟩ := broken_off_run
  have h₁ := h₀.start 2 (.exec (execParams "boot") plainContext none) (hnone 2 (by decide))
  have h₂ := h₁.act 2 (r := .get firstId) (some guardedSession) rfl ⟨rfl, rfl⟩
  have h₃ := h₂.act 2 (r := .get firstId) (some guardedSession) rfl ⟨rfl, rfl⟩
  have h₄ := h₃.act 2 (r := .get firstId) (some guardedSession) rfl ⟨rfl, rfl⟩
  have h₅ := h₄.act 2 (r := .get firstId) (some guardedSession) rfl ⟨rfl, rfl⟩
  have h₆ := h₅.act 2 (r := .isCancelled .call) false rfl ⟨nofun, rfl⟩
  have h₇ := h₆.act 2 (r := .timeLeft) true rfl rfl
  have h₈ := h₇.act 2 (r := .lock (0 : Nat) .call) (.ready ()) rfl ⟨hfree, rfl⟩
  have h₉ := h₈.act 2 (r := .get firstId) (some guardedSession) rfl ⟨rfl, rfl⟩
  have h₁₀ := h₉.act 2 (r := .isCancelled .call) false rfl ⟨nofun, rfl⟩
  have h₁₁ := h₁₀.act 2 (r := .timeLeft) true rfl rfl
  have h₁₂ := h₁₁.act 2 (r := .cancelPicked .call) false rfl ⟨nofun, rfl⟩
  have h₁₃ := h₁₂.act 2 (r := .write (0 : Nat) [98, 111, 111, 116, 10] .call)
    (.ready (.ok ⟨5, by decide⟩)) rfl ⟨trivial, rfl⟩
  refine ⟨_, _, h₁₃, ?_, ?_, ?_, ?_, ?_, ?_⟩
  · unfold FreshIds
    decide
  · exact ⟨0, by simp [Reserved, brokenOffTrace, guardedTrace],
      by simp [Readied, brokenOffTrace, guardedTrace]⟩
  · rfl
  · decide
  · decide
  · intro haccepted
    obtain ⟨_, _, p, _, _, _, _, _, hcheck, hline⟩ := haccepted (asBytes "reboot") (by decide)
    rw [← asBytes_injective hline] at hcheck
    have haccepts := (CommandPolicy.check_eq_none (by decide)).mp hcheck
    exact absurd haccepts.unmatched (by decide)

end McpSerial
