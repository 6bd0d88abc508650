import McpSerial.Manager.Identity
import McpSerial.Mcp.Calls

/-! What a caller's own `deny_patterns`, `write_policy` and `line_ending` can do to a session:
they add to what the server and the profile ask for, and take nothing away. -/

namespace McpSerial
open Interaction Interaction.Program Interaction.Discipline Utf8

/-! ## Compiled rules -/

def Compiles (rx : RegexCrate) (pattern : String) (rule : Rule) : Prop :=
  boundedRegex rx pattern = .ok rule.regex

section Rules

variable {rx : RegexCrate} {pre : String} {index : Nat} {patterns : List String}
  {rules : List Rule} {policy : CommandPolicy} {command : List Char}

theorem compileRulesFrom_eq_ok (h : compileRulesFrom rx pre index patterns = .ok rules) :
    List.Forall₂ (Compiles rx) patterns rules := by
  induction patterns generalizing index rules with
  | nil =>
    cases h
    exact .nil
  | cons pattern patterns ih =>
    unfold compileRulesFrom at h
    cases hregex : boundedRegex rx pattern with
    | error error =>
      rw [hregex] at h
      cases h
    | ok regex =>
      rw [hregex] at h
      dsimp only at h
      cases hrest : compileRulesFrom rx pre (index + 1) patterns with
      | error e =>
        rw [hrest] at h
        cases h
      | ok rest =>
        rw [hrest] at h
        cases h
        exact .cons hregex (ih hrest)

/-- A policy is the rules of its four sources. -/
structure CompiledFrom (rx : RegexCrate)
    (globalDeny profileDeny profileAllow callerDeny : List String)
    (policy : CommandPolicy) (global profile caller : List Rule) : Prop where
  deny : policy.deny = global ++ profile ++ caller
  from_global : compileRules rx "deny.global" globalDeny = .ok global
  from_profile : compileRules rx "deny.profile" profileDeny = .ok profile
  from_caller : compileRules rx "deny.caller" callerDeny = .ok caller
  from_allow : compileRules rx "allow.profile" profileAllow = .ok policy.allow

theorem compile_eq_ok {globalDeny profileDeny profileAllow callerDeny : List String}
    (h : CommandPolicy.compile rx globalDeny profileDeny profileAllow callerDeny = .ok policy) :
    ∃ global profile caller,
      CompiledFrom rx globalDeny profileDeny profileAllow callerDeny policy
        global profile caller := by
  unfold CommandPolicy.compile at h
  cases hglobal : compileRules rx "deny.global" globalDeny with
  | error e =>
    rw [hglobal] at h
    cases h
  | ok global =>
    cases hprofile : compileRules rx "deny.profile" profileDeny with
    | error e =>
      rw [hglobal, hprofile] at h
      cases h
    | ok profile =>
      cases hcaller : compileRules rx "deny.caller" callerDeny with
      | error e =>
        rw [hglobal, hprofile, hcaller] at h
        cases h
      | ok caller =>
        cases hallow : compileRules rx "allow.profile" profileAllow with
        | error e =>
          rw [hglobal, hprofile, hcaller, hallow] at h
          cases h
        | ok allow =>
          rw [hglobal, hprofile, hcaller, hallow] at h
          cases h
          exact ⟨global, profile, caller, rfl, hglobal, hprofile, hcaller, hallow⟩

theorem exists_rule {pattern : String} (h : List.Forall₂ (Compiles rx) patterns rules)
    (hpattern : pattern ∈ patterns) : ∃ rule ∈ rules, Compiles rx pattern rule := by
  induction h with
  | nil => cases hpattern
  | cons hrule _ ih =>
    rcases List.mem_cons.mp hpattern with rfl | hpattern
    · exact ⟨_, List.mem_cons_self, hrule⟩
    · obtain ⟨rule, hmem, hcompiles⟩ := ih hpattern
      exact ⟨rule, List.mem_cons_of_mem _ hmem, hcompiles⟩

theorem exists_pattern {rule : Rule} (h : List.Forall₂ (Compiles rx) patterns rules)
    (hrule : rule ∈ rules) : ∃ pattern ∈ patterns, Compiles rx pattern rule := by
  induction h with
  | nil => cases hrule
  | cons hcompiles _ ih =>
    rcases List.mem_cons.mp hrule with rfl | hrule
    · exact ⟨_, List.mem_cons_self, hcompiles⟩
    · obtain ⟨pattern, hmem, hcompiles⟩ := ih hrule
      exact ⟨pattern, List.mem_cons_of_mem _ hmem, hcompiles⟩

theorem matchedRule_eq_none : policy.matchedRule command = none ↔
    (∀ rule ∈ policy.deny, rule.regex.isMatch command = false) ∧
      (policy.allow ≠ [] → ∃ rule ∈ policy.allow, rule.regex.isMatch command = true) := by
  unfold CommandPolicy.matchedRule
  cases hdeny : policy.deny.find? fun rule => rule.regex.isMatch command with
  | some rule =>
    have hmatch := List.find?_some hdeny
    have hmem := List.mem_of_find?_eq_some hdeny
    refine iff_of_false nofun fun h => ?_
    rw [h.1 rule hmem] at hmatch
    cases hmatch
  | none =>
    have hunmatched : ∀ rule ∈ policy.deny, rule.regex.isMatch command = false := by
      simpa using List.find?_eq_none.mp hdeny
    cases hallow : policy.allow with
    | nil => simpa using hunmatched
    | cons rule rules =>
      have hany : (∃ r ∈ rule :: rules, r.regex.isMatch command = true) ↔
          (rule :: rules).any (fun r => r.regex.isMatch command) = true := List.any_eq_true.symm
      rw [hany]
      cases (rule :: rules).any fun r => r.regex.isMatch command with
      | true => simpa using hunmatched
      | false => simp

end Rules

/-! ## Tighter policies -/

/-- `b` denies what `a` denies and allows what it allows. -/
structure CommandPolicy.TighterThan (b a : CommandPolicy) : Prop where
  deny : ∀ rule ∈ a.deny, ∃ rule' ∈ b.deny, rule'.regex = rule.regex
  allow : b.allow = a.allow

section Tighter

variable {a b : CommandPolicy} {command : List Char} {e : LineEnding}
  {requested : Option LineEnding}

theorem CommandPolicy.isEmpty_iff : a.isEmpty = true ↔ a.deny = [] ∧ a.allow = [] := by
  simp [CommandPolicy.isEmpty]

theorem CommandPolicy.TighterThan.isEmpty (h : b.TighterThan a) (hb : b.isEmpty = true) :
    a.isEmpty = true := by
  obtain ⟨hdeny, hallow⟩ := CommandPolicy.isEmpty_iff.mp hb
  refine CommandPolicy.isEmpty_iff.mpr ⟨List.eq_nil_iff_forall_not_mem.mpr fun rule hrule => ?_,
    h.allow ▸ hallow⟩
  obtain ⟨rule', hmem, _⟩ := h.deny rule hrule
  rw [hdeny] at hmem
  cases hmem

theorem CommandPolicy.TighterThan.unmatched (h : b.TighterThan a)
    (hb : b.matchedRule command = none) : a.matchedRule command = none := by
  obtain ⟨hdeny, hallow⟩ := matchedRule_eq_none.mp hb
  rw [h.allow] at hallow
  refine matchedRule_eq_none.mpr ⟨fun rule hrule => ?_, hallow⟩
  obtain ⟨rule', hmem, hsame⟩ := h.deny rule hrule
  rw [← hsame]
  exact hdeny rule' hmem

theorem CommandPolicy.TighterThan.check (h : b.TighterThan a)
    (hb : b.check command e requested = none) : a.check command e requested = none := by
  cases ha : a.isEmpty with
  | true => exact if_pos ha
  | false =>
    have hguarded : b.isEmpty = false := by
      by_contra hempty
      rw [h.isEmpty (eq_true_of_ne_false hempty)] at ha
      cases ha
    obtain ⟨hsame, hterminated, hprintable, hcontinued, hunmatched⟩ :=
      (CommandPolicy.check_eq_none hguarded).mp hb
    exact (CommandPolicy.check_eq_none ha).mpr
      ⟨hsame, hterminated, hprintable, hcontinued, h.unmatched hunmatched⟩

theorem compiled_tighter {rx : RegexCrate} {globalDeny profileDeny profileAllow : List String}
    {callerDeny callerDeny' : List String} (hsub : callerDeny ⊆ callerDeny')
    (ha : CommandPolicy.compile rx globalDeny profileDeny profileAllow callerDeny = .ok a)
    (hb : CommandPolicy.compile rx globalDeny profileDeny profileAllow callerDeny' = .ok b) :
    b.TighterThan a := by
  obtain ⟨global, profile, caller, ha⟩ := compile_eq_ok ha
  obtain ⟨global', profile', caller', hb⟩ := compile_eq_ok hb
  obtain rfl := Except.ok.inj (ha.from_global.symm.trans hb.from_global)
  obtain rfl := Except.ok.inj (ha.from_profile.symm.trans hb.from_profile)
  refine ⟨fun rule hrule => ?_, Except.ok.inj (hb.from_allow.symm.trans ha.from_allow)⟩
  rw [ha.deny] at hrule
  rw [hb.deny]
  rcases List.mem_append.mp hrule with hshared | hcaller
  · exact ⟨rule, List.mem_append_left _ hshared, rfl⟩
  · obtain ⟨pattern, hpattern, hrule⟩ :=
      exists_pattern (compileRulesFrom_eq_ok ha.from_caller) hcaller
    obtain ⟨rule', hmem, hrule'⟩ :=
      exists_rule (compileRulesFrom_eq_ok hb.from_caller) (hsub hpattern)
    exact ⟨rule', List.mem_append_right _ hmem, Except.ok.inj (hrule'.symm.trans hrule)⟩

end Tighter

/-! ## What `serial.open` makes of a request -/

section Open

variable {srv : McpServer} {p p' : OpenParams} {target : McpServer.OpenTarget}
  {args args' : SessionArgs}

structure MadeFrom (srv : McpServer) (p : OpenParams) (target : McpServer.OpenTarget)
    (args : SessionArgs) : Prop where
  policy : ∃ globalDeny, globalDenyPatterns srv.toEnvironment = .ok globalDeny ∧
    CommandPolicy.compile srv.toRegexCrate globalDeny target.profileDeny target.profileAllow
      (p.denyPatterns.getD []) = .ok args.commandPolicy
  write_policy : args.writePolicy = target.profilePolicy.max (p.writePolicy.getD .allow)
  console : args.consoleSettings = { target.consoleSettings with
    lineEnding := p.lineEnding.getD target.consoleSettings.lineEnding }
  ending : args.commandPolicy.isEmpty = false → target.consoleSettings.lineEnding ≠ .none →
    args.consoleSettings.lineEnding = target.consoleSettings.lineEnding

theorem openArgs_eq_ok (h : srv.openArgs p target = .ok args) : MadeFrom srv p target args := by
  unfold McpServer.openArgs at h
  cases hglobal : globalDenyPatterns srv.toEnvironment with
  | error e =>
    rw [hglobal] at h
    cases h
  | ok globalDeny =>
    rw [hglobal] at h
    cases hpolicy : CommandPolicy.compile srv.toRegexCrate globalDeny target.profileDeny
        target.profileAllow (p.denyPatterns.getD []) with
    | error e =>
      dsimp only [Bind.bind, Except.bind] at h
      rw [hpolicy] at h
      cases h
    | ok policy =>
      dsimp only [Bind.bind, Except.bind] at h
      rw [hpolicy] at h
      cases hending : p.lineEnding with
      | none =>
        rw [hending] at h
        cases h
        exact ⟨⟨globalDeny, hglobal, hpolicy⟩, rfl, by rw [hending]; rfl, fun _ _ => rfl⟩
      | some ending =>
        rw [hending] at h
        dsimp only at h
        split_ifs at h with hoverride
        cases h
        refine ⟨⟨globalDeny, hglobal, hpolicy⟩, rfl, by rw [hending]; rfl, fun hguarded hnone => ?_⟩
        by_contra hne
        exact hoverride (by simp [hguarded, hnone, hne])

/-- With the host answering `seen`, `serial.open` asks for a session with `args`. -/
structure Opens (srv : McpServer) (p : OpenParams) (seen : List Ask)
    (target : McpServer.OpenTarget) (args : SessionArgs) : Prop where
  resolves : Runs (srv.openTarget p).run seen (.ret (.ok target))
  accepts : srv.openArgs p target = .ok args

abbrev Unreserved : Discipline Request Response := only fun r => ∀ args, r ≠ .reserve args

theorem unreserved_plain : Plain Unreserved := by
  have hunreserved : ∀ r : Request, r.queries "" → ∀ args, r ≠ .reserve args := by
    rintro _ hqueries args rfl
    cases hqueries
  exact only_plain hunreserved

theorem reserve_first {α : Type} {env : Environment} {made : SessionArgs} {es : List Ask}
    {rest : Except SerialError String → Program Request Response α}
    {next : Response (.reserve args) → Program Request Response α}
    (h : Runs ((openWithConsoleAndPolicy env made).run >>= rest) es (.ask (.reserve args) next))
    (hrest : ∀ result, ∃ a, rest result = .ret a) : es = [] ∧ made = args := by
  unfold openWithConsoleAndPolicy at h
  split at h
  · rcases runs_ask.mp h with ⟨rfl, hq⟩ | ⟨reserved, es₁, rfl, h₁⟩
    · cases hq
      exact ⟨rfl, rfl⟩
    · cases reserved with
      | error e => exact absurd h₁ (not_runs_ask (hrest _))
      | ok id =>
        rcases runs_ask.mp h₁ with ⟨_, hq⟩ | ⟨opened, es₂, rfl, h₂⟩
        · cases hq
        · rcases runs_ask.mp h₂ with ⟨_, hq⟩ | ⟨completed, es₃, rfl, h₃⟩
          · cases hq
          · cases completed <;> exact absurd h₃ (not_runs_ask (hrest _))
  · exact absurd h (not_runs_ask (hrest _))

/-- What a reservation asks for was made of what the open had resolved. -/
theorem open_reserves {es : List Ask} {next : Response (.reserve args) → Handler CallToolResponse}
    (h : Runs (srv.open p) es (.ask (.reserve args) next)) :
    ∃ target, Opens srv p es target args := by
  let opening (target : McpServer.OpenTarget) : Op String := do
    openWithConsoleAndPolicy srv.toEnvironment (← Fallible.ofResult (srv.openArgs p target))
  obtain ⟨rest, hopen, hrest⟩ : ∃ rest : Except SerialError String → Handler CallToolResponse,
      (srv.open p = (srv.openTarget p).run >>= fun x => ExceptT.bindCont opening x >>= rest) ∧
      ∀ result, ∃ a, rest result = .ret a := by
    refine ⟨_, Program.bind_assoc (srv.openTarget p).run (ExceptT.bindCont opening) _, ?_⟩
    intro result
    cases result <;> exact ⟨_, rfl⟩
  rw [hopen] at h
  rcases h.bind_ask with ⟨next', htarget⟩ | ⟨result, seen, es', rfl, hresolved, h⟩
  · -- nothing is reserved while the port is being resolved
    have hrests : Rests Unreserved () (srv.openTarget p) := rests_openTarget unreserved_plain srv p
    exact absurd rfl (Follows.asks hrests htarget args)
  · cases result with
    | error e => exact absurd h (not_runs_ask (hrest _))
    | ok target =>
      have hopening : Runs ((opening target).run >>= rest) es' (.ask (.reserve args) next) := h
      cases hargs : srv.openArgs p target with
      | error e =>
        simp only [opening, hargs] at hopening
        exact absurd hopening (not_runs_ask (hrest (.error e)))
      | ok made =>
        simp only [opening, hargs] at hopening
        obtain ⟨rfl, rfl⟩ := reserve_first hopening hrest
        exact ⟨target, (List.append_nil seen).symm ▸ hresolved, hargs⟩

theorem reserves_open {call : ToolCall} {es : List Ask}
    {next : Response (.reserve args) → Handler CallToolResponse}
    (h : Runs (toolCode srv call) es (.ask (.reserve args) next)) : ∃ p, call = .open p := by
  by_contra hnone
  have hplain := unreserved_plain
  have hport {id : String} (hid : call.sessionId = some id) (huses : call.usesPort = true) :
      False := by
    obtain ⟨e, he, hreq⟩ : ∃ e ∈ es ++ [⟨.reserve args, .error .cancelled⟩],
      e.req = Request.reserve args := ⟨_, List.mem_append_right _ List.mem_cons_self, rfl⟩
    have := toolCode_usesPort srv huses hid (h.snoc _) e he
    rw [hreq] at this
    cases this
  cases call with
  | «open» p => exact hnone ⟨p, rfl⟩
  | listPorts =>
    have hcode : Unreserved.Follows () srv.listPorts fun _ _ => True :=
      follows_listPorts hplain (fun _ => trivial) fun _ => trivial
    exact hcode.asks h args rfl
  | sessions =>
    have hcode : Unreserved.Follows () McpServer.sessions fun _ _ => True :=
      follows_sessions hplain fun _ => trivial
    exact hcode.asks h args rfl
  | close p =>
    have hcode : Unreserved.Follows () (McpServer.close p) fun _ _ => True := by
      apply follows_run_bind.mpr
      apply OnlyAsks.mono (OnlyAsks.closeWithTimeout p.sessionId maxTimeoutMs)
      rintro _ hcloses args rfl
      cases hcloses
    exact hcode.asks h args rfl
  | _ => exact hport rfl rfl

/-- A session that anyone finds was asked for by an open of the run. -/
theorem found_opened {tr : List ToolLabel} {c : ToolConfig} (h : Run machine (toolCode srv) tr c)
    {t : Nat} {id : String} {y : Session} (hget : .act t ⟨.get id, some y⟩ ∈ tr) :
    ∃ u p seen target, .start u (.open p) ∈ tr ∧ (∀ e ∈ seen, .act u e ∈ tr) ∧
      Opens srv p seen target y.toSessionArgs := by
  obtain ⟨u, hu⟩ := (toolCode_orderly srv).found_reserved h hget
  obtain ⟨before, after, d, d', rfl, hbefore, hstep, _⟩ := Steps.step_of_mem h hu
  cases hstep with
  | @act _ call past _ next _ σ at_ask answer =>
    have hstarted := Run.started hbefore at_ask
    obtain ⟨p, rfl⟩ := reserves_open hstarted.runs
    obtain ⟨target, hopens⟩ := open_reserves hstarted.runs
    refine ⟨u, p, past, target, List.mem_append_left _ hstarted.start_mem, fun e he => ?_, hopens⟩
    have hpast : past = eventsOf u before := hstarted.past_eq
    exact List.mem_append_left _ (mem_eventsOf.mp (hpast ▸ he))

end Open

/-! ## What the profile keeps -/

/-- Everything that the owner of the host and the profile asked for still binds a session
with `args`, whatever the caller asked for. -/
structure Within (srv : McpServer) (target : McpServer.OpenTarget) (args : SessionArgs) : Prop where
  write_policy : target.profilePolicy.rank ≤ args.writePolicy.rank
  ending : args.commandPolicy.isEmpty = false → target.consoleSettings.lineEnding ≠ .none →
    args.consoleSettings.lineEnding = target.consoleSettings.lineEnding
  deny : ∀ globalDeny, globalDenyPatterns srv.toEnvironment = .ok globalDeny →
    ∀ command requested,
      args.commandPolicy.check command args.consoleSettings.lineEnding requested = none →
      ∀ pattern ∈ globalDeny ++ target.profileDeny, ∃ regex,
        boundedRegex srv.toRegexCrate pattern = .ok regex ∧ regex.isMatch command = false
  allow : ∀ command requested,
    args.commandPolicy.check command args.consoleSettings.lineEnding requested = none →
    target.profileAllow ≠ [] → ∃ pattern ∈ target.profileAllow, ∃ regex,
      boundedRegex srv.toRegexCrate pattern = .ok regex ∧ regex.isMatch command = true

/-- `p'` is `p` with more deny patterns or a stricter write policy. -/
structure OpenParams.Tightens (p' p : OpenParams) : Prop where
  port : p'.port = p.port
  device : p'.device = p.device
  baud : p'.baud = p.baud
  timeoutMs : p'.timeoutMs = p.timeoutMs
  lineEnding : p'.lineEnding = p.lineEnding
  denyPatterns : p.denyPatterns.getD [] ⊆ p'.denyPatterns.getD []
  writePolicy : (p.writePolicy.getD .allow).rank ≤ (p'.writePolicy.getD .allow).rank

/-- Finding `y` whenever they look, the gates let a call pass. -/
inductive LetThrough (srv : McpServer) (y : Session) : ToolCall → Prop where
  | write {p : WriteParams} {context : RequestContext} {inputResponses : Option InputResponses}
      (raw : Runs (McpServer.gateRawWritePolicy p.sessionId) [⟨.get p.sessionId, some y⟩]
        (.ret none))
      (confirmed : Runs (srv.gateWrite p.sessionId (p.confirm.getD false) context inputResponses
        "serial.write" (asBytes p.data)) [⟨.get p.sessionId, some y⟩] (.ret .proceed)) :
      LetThrough srv y (.write p context inputResponses)
  | exec {p : ExecParams} {context : RequestContext} {inputResponses : Option InputResponses}
      (policy : Runs (McpServer.gateCommandPolicy p.sessionId p.command.toList
        y.consoleSettings.lineEnding p.lineEnding) [⟨.get p.sessionId, some y⟩] (.ret none))
      (confirmed : Runs (srv.gateWrite p.sessionId (p.confirm.getD false) context inputResponses
        "serial.exec" (p.transmitted y)) [⟨.get p.sessionId, some y⟩] (.ret .proceed)) :
      LetThrough srv y (.exec p context inputResponses)

section Within

variable {srv : McpServer} {p p' : OpenParams} {target : McpServer.OpenTarget}
  {args args' : SessionArgs}

theorem compiled_unmatched {rx : RegexCrate} {pre : String} {patterns : List String}
    {rules : List Rule} {command : List Char} (h : compileRules rx pre patterns = .ok rules)
    (hrules : ∀ rule ∈ rules, rule.regex.isMatch command = false) :
    ∀ pattern ∈ patterns, ∃ regex,
      boundedRegex rx pattern = .ok regex ∧ regex.isMatch command = false := by
  intro pattern hpattern
  obtain ⟨rule, hmem, hrule⟩ := exists_rule (compileRulesFrom_eq_ok h) hpattern
  exact ⟨rule.regex, hrule, hrules rule hmem⟩

theorem CommandPolicy.matchedRule_of_check {policy : CommandPolicy} {command : List Char}
    {e : LineEnding} {requested : Option LineEnding}
    (h : policy.check command e requested = none) : policy.matchedRule command = none := by
  cases hempty : policy.isEmpty with
  | true =>
    obtain ⟨hdeny, hallow⟩ := CommandPolicy.isEmpty_iff.mp hempty
    refine matchedRule_eq_none.mpr ⟨fun rule hrule => ?_, fun hne => absurd hallow hne⟩
    rw [hdeny] at hrule
    cases hrule
  | false => exact ((CommandPolicy.check_eq_none hempty).mp h).unmatched

theorem MadeFrom.within (h : MadeFrom srv p target args) : Within srv target args := by
  obtain ⟨globalDeny, hglobal, hpolicy⟩ := h.policy
  obtain ⟨global, profile, caller, hrules⟩ := compile_eq_ok hpolicy
  refine ⟨?_, h.ending, ?_, ?_⟩
  · rw [h.write_policy, WritePolicy.rank_max]
    exact Nat.le_max_left ..
  · intro globalDeny' hglobal' command requested hcheck pattern hpattern
    obtain rfl := Except.ok.inj (hglobal.symm.trans hglobal')
    have hunmatched := (matchedRule_eq_none.mp (CommandPolicy.matchedRule_of_check hcheck)).1
    rw [hrules.deny] at hunmatched
    rcases List.mem_append.mp hpattern with hpattern | hpattern
    · refine compiled_unmatched hrules.from_global (fun rule hrule => ?_) pattern hpattern
      exact hunmatched rule (List.mem_append_left _ (List.mem_append_left _ hrule))
    · refine compiled_unmatched hrules.from_profile (fun rule hrule => ?_) pattern hpattern
      exact hunmatched rule (List.mem_append_left _ (List.mem_append_right _ hrule))
  · intro command requested hcheck hallow
    have hcompiled := compileRulesFrom_eq_ok hrules.from_allow
    have hsome : args.commandPolicy.allow ≠ [] := by
      intro hnil
      rw [hnil] at hcompiled
      exact hallow (List.forall₂_nil_right_iff.mp hcompiled)
    obtain ⟨rule, hrule, hmatch⟩ :=
      (matchedRule_eq_none.mp (CommandPolicy.matchedRule_of_check hcheck)).2 hsome
    obtain ⟨pattern, hpattern, hcompiles⟩ := exists_pattern hcompiled hrule
    exact ⟨pattern, hpattern, rule.regex, hcompiles, hmatch⟩

end Within

/-! ## What the gates let through -/

section Gates

variable {srv : McpServer} {y y' : Session} {id tool : String} {confirmed : Bool}
  {context : RequestContext} {inputResponses : Option InputResponses} {payload : List UInt8}

theorem runs_gateRawWritePolicy :
    Runs (McpServer.gateRawWritePolicy id) [⟨.get id, some y⟩] (.ret none) ↔
      y.commandPolicy.isEmpty = true := by
  refine runs_answer.trans ?_
  show Program.ret none = (if y.commandPolicy.isEmpty then _ else _) ↔ _
  split
  next hempty => exact iff_of_true rfl hempty
  next hguarded => exact iff_of_false nofun hguarded

theorem runs_gateCommandPolicy {command : List Char} {e : LineEnding}
    {requested : Option LineEnding} :
    Runs (McpServer.gateCommandPolicy id command e requested) [⟨.get id, some y⟩] (.ret none) ↔
      y.commandPolicy.check command e requested = none := by
  refine runs_answer.trans ?_
  show Program.ret none = Program.ret ((y.commandPolicy.check command e requested).map _) ↔ _
  cases y.commandPolicy.check command e requested with
  | none => exact iff_of_true rfl rfl
  | some rule => exact iff_of_false nofun nofun

theorem runs_gateWrite :
    Runs (srv.gateWrite id confirmed context inputResponses tool payload)
        [⟨.get id, some y⟩] (.ret .proceed) ↔
      Confirmed srv id confirmed context inputResponses tool payload y.writePolicy := by
  refine runs_answer.trans ?_
  show Program.ret WriteGate.proceed =
    srv.gateByPolicy id confirmed context inputResponses tool payload y.writePolicy ↔ _
  cases y.writePolicy with
  | allow => exact iff_of_true rfl .allowed
  | deny => exact iff_of_false nofun nofun
  | confirm =>
    unfold McpServer.gateByPolicy
    by_cases hcan : clientCanElicit context = true
    · rw [if_pos hcan]
      dsimp only
      cases hanswer : inputResponses.bind (·.lookup (confirmationKey srv id tool payload)) with
      | none =>
        -- without an answer under the key the gate asks, and lets nothing through
        refine iff_of_false nofun ?_
        rintro (_ | ⟨_, hgiven, _⟩ | ⟨hcannot, _⟩)
        · rw [hanswer] at hgiven
          cases hgiven
        · rw [hcan] at hcannot
          cases hcannot
      | some answer =>
        dsimp only
        cases hresult : confirmationAnswer srv answer with
        | ok _ => exact iff_of_true rfl (.answered hcan hanswer hresult)
        | error action =>
          refine iff_of_false nofun ?_
          rintro (_ | ⟨_, hgiven, haccepts⟩ | ⟨hcannot, _⟩)
          · rw [hanswer] at hgiven
            cases hgiven
            rw [hresult] at haccepts
            cases haccepts
          · rw [hcan] at hcannot
            cases hcannot
    -- nobody to ask: the flag of the request decides
    · have hcannot : clientCanElicit context = false := eq_false_of_ne_true hcan
      rw [if_neg hcan]
      cases hflag : confirmed with
      | true => exact iff_of_true rfl (.flagged hcannot rfl)
      | false =>
        refine iff_of_false nofun ?_
        rintro (_ | ⟨helicits, _⟩ | ⟨_, hflagged⟩)
        · exact hcan helicits
        · cases hflagged

theorem Confirmed.relax {q q' : WritePolicy} (hle : q.rank ≤ q'.rank)
    (h : Confirmed srv id confirmed context inputResponses tool payload q') :
    Confirmed srv id confirmed context inputResponses tool payload q := by
  cases h with
  | allowed =>
    cases q with
    | allow => exact .allowed
    | confirm | deny => simp [WritePolicy.rank] at hle
  | answered elicits given accepts =>
    cases q with
    | allow => exact .allowed
    | confirm => exact .answered elicits given accepts
    | deny => simp [WritePolicy.rank] at hle
  | flagged elicits flag =>
    cases q with
    | allow => exact .allowed
    | confirm => exact .flagged elicits flag
    | deny => simp [WritePolicy.rank] at hle

structure Session.TighterThan (y' y : Session) : Prop where
  commandPolicy : y'.commandPolicy.TighterThan y.commandPolicy
  writePolicy : y.writePolicy.rank ≤ y'.writePolicy.rank
  consoleSettings : y'.consoleSettings = y.consoleSettings

theorem LetThrough.relax {call : ToolCall} (htighter : y'.TighterThan y)
    (h : LetThrough srv y' call) : LetThrough srv y call := by
  cases h with
  | write raw confirmed =>
    have hempty := htighter.commandPolicy.isEmpty (runs_gateRawWritePolicy.mp raw)
    have hconfirmed := (runs_gateWrite.mp confirmed).relax htighter.writePolicy
    exact .write (runs_gateRawWritePolicy.mpr hempty) (runs_gateWrite.mpr hconfirmed)
  | @exec p _ _ policy confirmed =>
    have hsame : p.transmitted y' = p.transmitted y := by
      unfold ExecParams.transmitted
      rw [htighter.consoleSettings]
    rw [htighter.consoleSettings] at policy
    rw [hsame] at confirmed
    have haccepted := htighter.commandPolicy.check (runs_gateCommandPolicy.mp policy)
    have hconfirmed := (runs_gateWrite.mp confirmed).relax htighter.writePolicy
    exact .exec (runs_gateCommandPolicy.mpr haccepted) (runs_gateWrite.mpr hconfirmed)

end Gates

/-! ## Two opens that differ in what the caller asks for -/

section Tightens

variable {srv : McpServer} {p p' : OpenParams} {seen : List Ask}
  {target target' : McpServer.OpenTarget}

theorem OpenParams.Tightens.openTarget (h : p'.Tightens p) :
    srv.openTarget p' = srv.openTarget p := by
  obtain ⟨port, device, baud, timeoutMs, writePolicy, denyPatterns, lineEnding⟩ := p
  obtain ⟨port', device', baud', timeoutMs', writePolicy', denyPatterns', lineEnding'⟩ := p'
  obtain rfl := h.port
  obtain rfl := h.device
  obtain rfl := h.baud
  rfl

theorem Opens.tighter {y y' : Session} (hp : p'.Tightens p)
    (h : Opens srv p seen target y.toSessionArgs)
    (h' : Opens srv p' seen target' y'.toSessionArgs) : y'.TighterThan y := by
  have hresolves := h'.resolves
  rw [hp.openTarget] at hresolves
  obtain rfl : target = target' := by
    cases h.resolves.unique hresolves
    rfl
  have hmade := openArgs_eq_ok h.accepts
  have hmade' := openArgs_eq_ok h'.accepts
  obtain ⟨globalDeny, hglobal, hpolicy⟩ := hmade.policy
  obtain ⟨globalDeny', hglobal', hpolicy'⟩ := hmade'.policy
  obtain rfl := Except.ok.inj (hglobal.symm.trans hglobal')
  refine ⟨compiled_tighter hp.denyPatterns hpolicy hpolicy', ?_, ?_⟩
  · rw [hmade.write_policy, hmade'.write_policy, WritePolicy.rank_max, WritePolicy.rank_max]
    exact Nat.max_le.mpr ⟨Nat.le_max_left .., Nat.le_trans hp.writePolicy (Nat.le_max_right ..)⟩
  · rw [hmade.console, hmade'.console, hp.lineEnding]

end Tightens

/-- A caller can only tighten. A session that is found in a run was opened within what the
global configuration and the profile ask for, every open that succeeds stays within them, and
of two opens of one port the tighter one lets no call through that the other stops. -/
theorem caller_only_tightens (srv : McpServer) :
    (∀ tr c, Run machine (toolCode srv) tr c → ∀ t id y, .act t ⟨.get id, some y⟩ ∈ tr →
      ∃ u p seen target, .start u (.open p) ∈ tr ∧ (∀ e ∈ seen, .act u e ∈ tr) ∧
        Opens srv p seen target y.toSessionArgs) ∧
    (∀ p target args, srv.openArgs p target = .ok args → Within srv target args) ∧
    ∀ p p' seen target target' y y', p'.Tightens p → Opens srv p seen target y.toSessionArgs →
      Opens srv p' seen target' y'.toSessionArgs →
      ∀ call, LetThrough srv y' call → LetThrough srv y call := by
  refine ⟨?_, ?_, ?_⟩
  · intro tr c h t id y hget
    exact found_opened h hget
  · intro p target args h
    exact (openArgs_eq_ok h).within
  · intro p p' seen target target' y y' hp h h' call hcall
    exact hcall.relax (Opens.tighter hp h h')

/-- The guarded session of `wordServer` lets a flagged `exec` through, and so does the session
of the same open without its deny rule and its write policy. -/
theorem caller_only_tightens_guarded : ∃ (y : Session) (call : ToolCall),
    y.commandPolicy.isEmpty = true ∧ y.writePolicy = .allow ∧
    LetThrough wordServer guardedSession call ∧ LetThrough wordServer y call := by
  let openParams : OpenParams := { guardedParams with writePolicy := none, denyPatterns := none }
  let openedArgs : SessionArgs := { guardedArgs with writePolicy := .allow, commandPolicy := {} }
  let y : Session := (Session.opening firstId openedArgs).transitionToReady (0 : Nat)
  let call : ToolCall := .exec (execParams "re") plainContext none
  have htighter : guardedParams.Tightens openParams :=
    ⟨rfl, rfl, rfl, rfl, rfl, List.nil_subset _, Nat.zero_le _⟩
  have hcall : LetThrough wordServer guardedSession call :=
    .exec (runs_gateCommandPolicy.mpr (by decide)) (runs_gateWrite.mpr (.flagged rfl rfl))
  refine ⟨y, call, rfl, rfl, hcall, ?_⟩
  exact (caller_only_tightens wordServer).2.2 openParams guardedParams [] _ _ y guardedSession
    htighter ⟨.refl _, rfl⟩ ⟨.refl _, rfl⟩ call hcall

end McpSerial
