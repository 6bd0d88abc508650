import McpSerial.Manager.Openings
import McpSerial.Mcp.Tightening
import McpSerial.Mcp.WriteGate

/-! What the operator sets up holds in every run: the devices of the allowlist, the limits
of a session and the patterns that are denied everywhere. -/

namespace McpSerial
open Interaction Interaction.Discipline Utf8

/-! ## The allowlist -/

def Continues (pre value : List Char) : Prop :=
  ∃ suffix, value = pre ++ suffix ∧ suffix ≠ [] ∧ '/' ∉ suffix

theorem globMatch_star (pre value : List Char) :
    globMatch (pre ++ ['*']) value = true ↔ Continues pre value := by
  have hstar : globMatch (pre ++ ['*']) value = (decide (pre.length < value.length) &&
      pre.isPrefixOf value && !(value.drop pre.length).contains '/') := by
    unfold globMatch
    rw [if_pos List.getLast?_concat, List.dropLast_concat]
  rw [hstar, Bool.and_eq_true, Bool.and_eq_true, decide_eq_true_iff, List.isPrefixOf_iff_prefix,
    Bool.not_eq_true', List.contains_eq_mem, decide_eq_false_iff_not]
  constructor
  · rintro ⟨⟨hlength, suffix, rfl⟩, hslash⟩
    rw [List.drop_left] at hslash
    refine ⟨suffix, rfl, ?_, hslash⟩
    rintro rfl
    simp at hlength
  · rintro ⟨suffix, rfl, hne, hslash⟩
    rw [List.drop_left]
    refine ⟨⟨?_, List.prefix_append ..⟩, hslash⟩
    rw [List.length_append]
    exact Nat.lt_add_of_pos_right (List.length_pos_of_ne_nil hne)

/-- A USB serial adapter right under `/dev`. -/
def UsbSerial (path : String) : Prop :=
  Continues "/dev/ttyUSB".toList path.toList ∨ Continues "/dev/ttyACM".toList path.toList

theorem matchesAllowlist_default {env : Environment} (h : env.allowlist = none) (path : String) :
    matchesAllowlist env path = true ↔ UsbSerial path := by
  have hany : matchesAllowlist env path =
      (globMatch ("/dev/ttyUSB".toList ++ ['*']) path.toList ||
        (globMatch ("/dev/ttyACM".toList ++ ['*']) path.toList || false)) := by
    unfold matchesAllowlist
    rw [h]
    rfl
  rw [hany, Bool.or_false, Bool.or_eq_true, globMatch_star, globMatch_star]
  rfl

/-! ## Every session -/

theorem bind_eq_ok {ε α β : Type} {x : Except ε α} {f : α → Except ε β} {b : β} :
    (x >>= f) = .ok b ↔ ∃ a, x = .ok a ∧ f a = .ok b := by
  cases x with
  | error e => exact ⟨nofun, nofun⟩
  | ok a => exact ⟨fun h => ⟨a, rfl, h⟩, fun ⟨_, ha, h⟩ => Except.ok.inj ha ▸ h⟩

theorem openArgs_limits {srv : McpServer} {p : OpenParams} {target : McpServer.OpenTarget}
    {args : SessionArgs} (h : srv.openArgs p target = .ok args) :
    args.defaultTimeoutMs ≤ maxTimeoutMs ∧ args.portPath = target.portPath ∧
      args.baud = target.baud := by
  unfold McpServer.openArgs at h
  obtain ⟨globalDeny, _, h⟩ := bind_eq_ok.mp h
  obtain ⟨policy, _, h⟩ := bind_eq_ok.mp h
  dsimp only at h
  split at h
  · obtain ⟨console, _, h⟩ := bind_eq_ok.mp h
    cases h
    exact ⟨Nat.min_le_right .., rfl, rfl⟩
  · split at h
    · obtain ⟨_, hthrow, _⟩ := bind_eq_ok.mp h
      cases hthrow
    · obtain ⟨console, _, h⟩ := bind_eq_ok.mp h
      cases h
      exact ⟨Nat.min_le_right .., rfl, rfl⟩

section Runs

variable {srv : McpServer} {tr : List ToolLabel} {c : ToolConfig}

theorem found_accepted (h : Run machine (toolCode srv) tr c) {t : Nat} {th : ToolThread}
    (ht : c.threads t = some th) {y : Session} (hy : Found th (some y)) :
    Accepted srv y.toSessionArgs := by
  obtain ⟨id, _, hget⟩ := hy
  have hmem : .act t ⟨.get id, some y⟩ ∈ tr := mem_eventsOf.mp ((Run.started h ht).past_eq ▸ hget)
  obtain ⟨u, hu⟩ := (toolCode_orderly srv).found_reserved h hmem
  exact (toolCode_opens srv).reserved h hu

theorem opened_allowed (h : Run machine (toolCode srv) tr c) {t : Nat} {path : String}
    {baud : Nat} {x : Except SerialError Handle} (ht : .act t ⟨.backendOpen path baud, x⟩ ∈ tr) :
    matchesAllowlist srv.toEnvironment path = true := by
  obtain ⟨id, args, hreserved, rfl, _⟩ := (toolCode_opens srv).backendOpen h ht
  exact ((toolCode_opens srv).reserved h hreserved).1

end Runs

/-- In every run the backend is only asked for devices on the allowlist, which are USB serial
adapters right under `/dev` when the operator sets none, and every session in the table is for
such a device, under a timeout of at most the maximum. -/
theorem devices_allowed (srv : McpServer) {tr : List ToolLabel} {c : ToolConfig}
    (h : Run machine (toolCode srv) tr c) :
    (∀ t path baud x, .act t ⟨.backendOpen path baud, x⟩ ∈ tr →
      matchesAllowlist srv.toEnvironment path = true) ∧
    (∀ id s, c.shared.sessions.lookup id = some s →
      matchesAllowlist srv.toEnvironment s.portPath = true ∧
        s.defaultTimeoutMs ≤ maxTimeoutMs) ∧
    (srv.allowlist = none →
      (∀ t path baud x, .act t ⟨.backendOpen path baud, x⟩ ∈ tr → UsbSerial path) ∧
      ∀ id s, c.shared.sessions.lookup id = some s → UsbSerial s.portPath) := by
  have hopens := toolCode_opens srv
  have hcode := toolCode_orderly srv
  have hsession {id : String} {s : Session} (hs : c.shared.sessions.lookup id = some s) :=
    hopens.session hcode h hs
  refine ⟨fun t path baud x ht => opened_allowed h ht, fun id s hs => ?_, fun hdefault => ⟨?_, ?_⟩⟩
  · obtain ⟨hallowed, p, target, hargs⟩ := hsession hs
    exact ⟨hallowed, (openArgs_limits hargs).1⟩
  · exact fun t path baud x ht => (matchesAllowlist_default hdefault path).mp (opened_allowed h ht)
  · exact fun id s hs => (matchesAllowlist_default hdefault s.portPath).mp (hsession hs).1

theorem devices_allowed_guarded : UsbSerial "/dev/ttyUSB0" := by
  obtain ⟨threads, h, _⟩ := guarded_run
  exact ((devices_allowed wordServer h).2.2 rfl).1 0 "/dev/ttyUSB0" defaultBaud (.ok (0 : Nat))
    (by simp [guardedTrace])

/-! ## Patterns denied everywhere -/

theorem Accepted.denies {srv : McpServer} {args : SessionArgs} (h : Accepted srv args)
    {globalDeny : List String} (hglobal : globalDenyPatterns srv.toEnvironment = .ok globalDeny)
    {pattern : String} (hpattern : pattern ∈ globalDeny) :
    ∃ rule ∈ args.commandPolicy.deny, Compiles srv.toRegexCrate pattern rule := by
  obtain ⟨_, p, target, hargs⟩ := h
  obtain ⟨globalDeny', hglobal', hcompile⟩ := (openArgs_eq_ok hargs).policy
  rw [hglobal] at hglobal'
  cases hglobal'
  obtain ⟨global, profile, caller, hfrom⟩ := compile_eq_ok hcompile
  obtain ⟨rule, hrule, hcompiles⟩ :=
    exists_rule (compileRulesFrom_eq_ok hfrom.from_global) hpattern
  refine ⟨rule, ?_, hcompiles⟩
  rw [hfrom.deny]
  exact List.mem_append_left _ (List.mem_append_left _ hrule)

/-- A call that is let through on sessions with the operator's rules is an `exec` whose
command matches none of them. -/
theorem Permitted.undenied {srv : McpServer} {A : Option Session → Prop} {call : ToolCall}
    {payload : List UInt8} (h : Permitted srv A call payload) {pattern : String}
    (hA : ∀ y, A (some y) →
      ∃ rule ∈ y.commandPolicy.deny, Compiles srv.toRegexCrate pattern rule) :
    ∃ p context inputResponses regex, call = .exec p context inputResponses ∧
      boundedRegex srv.toRegexCrate pattern = .ok regex ∧
      regex.isMatch p.command.toList = false := by
  have hguarded {y : Session} (hy : A (some y)) : y.commandPolicy.isEmpty = false := by
    obtain ⟨rule, hrule, _⟩ := hA y hy
    unfold CommandPolicy.isEmpty
    rw [List.isEmpty_eq_false_iff.mpr (List.ne_nil_of_mem hrule), Bool.false_and]
  cases h with
  | write hy hz passes confirmed =>
    have hempty := passes.unguarded
    rw [hguarded hy] at hempty
    cases hempty
  | @exec p context inputResponses y z w hy hz hw passes confirmed =>
    obtain ⟨rule, hrule, hcompiles⟩ := hA z hz
    have haccepts := (CommandPolicy.check_eq_none (hguarded hz)).mp passes.accepted
    exact ⟨p, context, inputResponses, rule.regex, rfl, hcompiles,
      (matchedRule_eq_none.mp haccepts.unmatched).1 rule hrule⟩

/-- In every run: once the operator denies a pattern everywhere, bytes are handed to a port
only by an `exec` whose command the pattern, which then compiles, does not match, whatever
the profile, the caller and the client have asked for. -/
theorem global_deny_enforced (srv : McpServer) {tr : List ToolLabel} {c : ToolConfig}
    (h : Run machine (toolCode srv) tr c) {globalDeny : List String}
    (hglobal : globalDenyPatterns srv.toEnvironment = .ok globalDeny) {pattern : String}
    (hpattern : pattern ∈ globalDeny) {t : Nat} {port : Handle} {data : List UInt8} {token : Token}
    {x : Response (.write port data token)} (ht : .act t ⟨.write port data token, x⟩ ∈ tr) :
    ∃ th p context inputResponses regex, c.threads t = some th ∧
      th.call = .exec p context inputResponses ∧
      boundedRegex srv.toRegexCrate pattern = .ok regex ∧
      regex.isMatch p.command.toList = false := by
  obtain ⟨before, after, d, d', rfl, hbefore, hstep, hafter⟩ := Steps.step_of_mem h ht
  have hrest := (Steps.refl.snoc hstep).append hafter
  cases hstep with
  | @act _ call past _ next _ s at_ask answer =>
    obtain ⟨th, hth, hcall, _⟩ := hrest.thread_mono at_ask
    have hstarted := Run.started hbefore at_ask
    have hpermitted := handed_permitted hstarted.runs (finds_found ⟨call, past, _⟩)
    obtain ⟨p, context, inputResponses, regex, hexec, hregex, hmatch⟩ :=
      hpermitted.undenied fun y hy => (found_accepted hbefore at_ask hy).denies hglobal hpattern
    exact ⟨th, p, context, inputResponses, regex, hth, hcall.trans hexec, hregex, hmatch⟩

def denyingServer : McpServer :=
  { wordServer with
    denyPatterns := some "[\"reboot\"]"
    parseStrings := fun value =>
      if value = "[\"reboot\"]" then .ok ["reboot"] else .error "not parsed" }

def deniedParams : OpenParams := { guardedParams with denyPatterns := none }

def deniedArgs : SessionArgs :=
  { guardedArgs with
    commandPolicy := { deny := [⟨"deny.global.0", ⟨findWord "reboot".toList⟩⟩] } }

def deniedSession : Session := (Session.opening firstId deniedArgs).transitionToReady (0 : Nat)

/-- The bytes of `re` and its line ending are handed over. -/
theorem global_deny_enforced_exec : ∃ (c : ToolConfig) (th : ToolThread) (p : ExecParams)
    (context : RequestContext) (inputResponses : Option InputResponses) (regex : Regex),
    c.threads 1 = some th ∧ th.call = .exec p context inputResponses ∧
      boundedRegex denyingServer.toRegexCrate "reboot" = .ok regex ∧
      regex.isMatch p.command.toList = false := by
  have h₀ : Run machine (toolCode denyingServer) [] _ := .refl
  have h₁ := h₀.start 0 (.open deniedParams) rfl
  have h₂ := h₁.act 0 (r := .reserve deniedArgs) (.ok firstId) rfl
    ⟨[.ok (Vector.replicate 16 0)], _, rfl, rfl⟩
  have h₃ := h₂.act 0 (r := .backendOpen "/dev/ttyUSB0" defaultBaud) (.ok (0 : Nat)) rfl
    ⟨rfl, rfl⟩
  have h₄ := h₃.act 0 (r := .completeOpen firstId (.ok (0 : Nat))) (.ok firstId) rfl ⟨rfl, rfl⟩
  have h₅ := h₄.start 1 (.exec (execParams "re") plainContext none) rfl
  have h₆ := h₅.act 1 (r := .get firstId) (some deniedSession) rfl ⟨rfl, rfl⟩
  have h₇ := h₆.act 1 (r := .get firstId) (some deniedSession) rfl ⟨rfl, rfl⟩
  have h₈ := h₇.act 1 (r := .get firstId) (some deniedSession) rfl ⟨rfl, rfl⟩
  have h₉ := h₈.act 1 (r := .get firstId) (some deniedSession) rfl ⟨rfl, rfl⟩
  have h₁₀ := h₉.act 1 (r := .isCancelled .call) false rfl ⟨nofun, rfl⟩
  have h₁₁ := h₁₀.act 1 (r := .timeLeft) true rfl rfl
  have h₁₂ := h₁₁.act 1 (r := .lock (0 : Nat) .call) (.ready ()) rfl ⟨rfl, rfl⟩
  have h₁₃ := h₁₂.act 1 (r := .get firstId) (some deniedSession) rfl ⟨rfl, rfl⟩
  have h₁₄ := h₁₃.act 1 (r := .isCancelled .call) false rfl ⟨nofun, rfl⟩
  have h₁₅ := h₁₄.act 1 (r := .timeLeft) true rfl rfl
  have h₁₆ := h₁₅.act 1 (r := .cancelPicked .call) false rfl ⟨nofun, rfl⟩
  have h₁₇ := h₁₆.act 1 (r := .write (0 : Nat) [114, 101, 10] .call)
    (.ready (.ok ⟨3, by decide⟩)) rfl ⟨trivial, rfl⟩
  exact ⟨_, global_deny_enforced denyingServer h₁₇ rfl (List.mem_singleton.mpr rfl) (t := 1)
    (List.mem_append_right _ List.mem_cons_self)⟩

end McpSerial
