import McpSerial.Mcp.Operator
import McpSerial.ProfileListing

/-! The controls of a session belong to the hardware and not to the way it was named: an open
by path gets the profile of the port behind the path, whichever alias the path is, and an open
by device name a port that this profile matches. -/

namespace McpSerial
open Interaction Interaction.Program Interaction.Discipline

/-! ## A host -/

/-- What the operating system has to say: the ports it lists and what paths resolve to. -/
structure Host where
  ports : Except String (List SerialPortInfo)
  canonicalize : String → Option String

namespace Host

variable (host : Host)

/-- The host answered its queries so; the other answers are not its own. -/
def Answers : (r : Request) → Response r → Prop
  | .availablePorts, found => found = host.ports
  | .canonicalize path, found => found = host.canonicalize path
  | _, _ => True

def real (path : String) : String := (host.canonicalize path).getD path

def listed : Except SerialError (List SerialPortInfo) :=
  match host.ports with
  | .ok raw => .ok raw
  | .error e => .error (.io s!"available_ports: {e}")

def profileAt (profiles : List DeviceProfile) (path : String) :
    Except SerialError (Option DeviceProfile) :=
  if profiles.isEmpty then .ok none
  else host.listed.map fun raw =>
    (raw.find? fun info => host.real info.portName == host.real path).bind fun info =>
      profiles.find? fun profile => profileMatchesPort profile (.ofInfo info)

def portOf (env : Environment) (profile : DeviceProfile) : Except SerialError (Option String) :=
  host.listed.map fun raw =>
    (raw.find? fun info =>
      matchesAllowlist env info.portName && profileMatchesPort profile (.ofInfo info)).map
      (·.portName)

def device (env : Environment) (profiles : List DeviceProfile) (name : String) :
    Except SerialError ResolvedDevice :=
  match profiles.find? fun profile => profile.name == name with
  | none => .error (.deviceNotFound name)
  | some profile =>
    match host.portOf env profile with
    | .error e => .error e
    | .ok none => .error (.deviceNotFound name)
    | .ok (some path) => .ok (resolvedFromProfile profile path)

end Host

def targetAt (path : String) (p : OpenParams) : Option DeviceProfile → McpServer.OpenTarget
  | some profile => .ofResolved path p (resolvedFromProfile profile path)
  | none =>
    { portPath := path
      baud := p.baud.getD defaultBaud
      profilePolicy := .allow
      consoleSettings := {}
      profileDeny := []
      profileAllow := [] }

/-! ## Queries of a host -/

/-- On `host`, `p` asks the host for what it needs and ends in `result`. -/
def Host.Tells {α : Type} (host : Host) (p : Op α) (result : Except SerialError α) : Prop :=
  ((only fun _ => True).assuming host.Answers).Meets (some ()) p
    (assumed fun _ a => result = .ok a) (assumed fun _ e => result = .error e)

section Tells

variable {host : Host} {α β : Type} {p : Op α} {result : Except SerialError α}

theorem Host.Tells.pure (a : α) : host.Tells (Pure.pure a) (.ok a) := fun _ _ => rfl

theorem Host.Tells.throw (e : SerialError) : host.Tells (MonadExcept.throw e : Op α) (.error e) :=
  fun _ _ => rfl

theorem Host.Tells.bind {f : α → Op β} {a : α} {result : Except SerialError β}
    (h : host.Tells p (.ok a)) (k : host.Tells (f a) result) : host.Tells (p >>= f) result := by
  have hp : ((only fun _ => True).assuming host.Answers).Meets (some ()) p
      (assumed fun _ a' => a' = a) (assumed fun _ e => result = .error e) :=
    Meets.mono h (fun _ _ ha s hs => (Except.ok.inj (ha s hs)).symm)
      fun _ _ he s hs => nomatch he s hs
  apply hp.assumed_bind
  rintro _ _ rfl
  exact k

theorem Host.Tells.fails {f : α → Op β} {e : SerialError} (h : host.Tells p (.error e)) :
    host.Tells (p >>= f) (.error e) := by
  have hp : ((only fun _ => True).assuming host.Answers).Meets (some ()) p
      (assumed fun _ _ => False) (assumed fun _ e' => Except.error e = (.error e' : Except _ β)) :=
    Meets.mono h (fun _ _ ha s hs => nomatch ha s hs)
      fun _ _ he s hs => congrArg Except.error (Except.error.inj (he s hs))
  exact hp.assumed_bind fun _ _ => False.elim

theorem Host.Tells.eq_of_runs (h : host.Tells p result) {es : List Ask}
    {found : Except SerialError α} (k : Runs p.run es (.ret found))
    (hhost : ∀ e ∈ es, host.Answers e.req e.resp) : found = result := by
  have hresult := Follows.returns h k
  rw [assuming_after hhost] at hresult
  cases found with
  | ok a => exact (hresult () rfl).symm
  | error e => exact (hresult () rfl).symm

theorem Host.Tells.ask {r : Request} {found : Response r} {next : Response r → Op α}
    (hfound : ∀ x, host.Answers r x → x = found) (k : host.Tells (next found) result) :
    host.Tells (Fallible.ask r >>= next) result := by
  apply (meets_assuming_ask (Q := fun _ x => x = found) trivial hfound).assumed_bind
  rintro _ _ rfl
  exact k

theorem tells_availablePorts : host.Tells availablePorts host.listed := by
  refine Host.Tells.ask (r := .availablePorts) (fun _ => id) ?_
  unfold Host.listed
  cases host.ports with
  | ok raw => exact .pure raw
  | error e => exact .throw _

theorem tells_canonical (path : String) : host.Tells (canonical path) (.ok (host.real path)) :=
  Host.Tells.ask (r := .canonicalize path) (fun _ => id) (.pure _)

theorem tells_canonicalPorts (raw : List SerialPortInfo) :
    host.Tells (canonicalPorts raw) (.ok (raw.map fun info =>
      { PortDescriptor.ofInfo info with port := host.real info.portName })) := by
  induction raw with
  | nil => exact .pure []
  | cons info raw ih =>
    exact (tells_canonical info.portName).bind (ih.bind (.pure _))

theorem matchPortProfile_renamed (raw : List SerialPortInfo) (profiles : List DeviceProfile)
    (path : String) :
    matchPortProfile (host.real path) (raw.map fun info =>
        { PortDescriptor.ofInfo info with port := host.real info.portName }) profiles =
      ((raw.find? fun info => host.real info.portName == host.real path).bind fun info =>
        profiles.find? fun profile => profileMatchesPort profile (.ofInfo info)).map
        fun profile => resolvedFromProfile profile (host.real path) := by
  unfold matchPortProfile
  rw [List.find?_map]
  simp only [Function.comp_def]
  cases raw.find? fun info => host.real info.portName == host.real path with
  | none => rfl
  | some info => rfl

theorem tells_resolvePortProfile (profiles : List DeviceProfile) (path : String) :
    host.Tells (resolvePortProfile path profiles)
      ((host.profileAt profiles path).map fun found =>
        found.map fun profile => resolvedFromProfile profile path) := by
  unfold resolvePortProfile Host.profileAt
  split_ifs with hempty
  · exact .pure none
  · have hports : host.Tells availablePorts host.listed := tells_availablePorts
    cases hlisted : host.listed with
    | error e =>
      rw [hlisted] at hports
      exact hports.fails
    | ok raw =>
      rw [hlisted] at hports
      apply hports.bind
      apply (tells_canonicalPorts raw).bind
      apply (tells_canonical path).bind
      rw [matchPortProfile_renamed, Option.map_map]
      exact .pure _

theorem find_filterAllowlisted (env : Environment) (raw : List SerialPortInfo)
    (profile : DeviceProfile) :
    (filterAllowlisted env raw).find? (fun port => profileMatchesPort profile port) =
      (raw.find? fun info => matchesAllowlist env info.portName &&
        profileMatchesPort profile (.ofInfo info)).map .ofInfo := by
  unfold filterAllowlisted
  rw [List.find?_map, List.find?_filter]
  simp only [Function.comp_def, Bool.decide_and, Bool.decide_eq_true]

theorem tells_resolveDevice (env : Environment) (profiles : List DeviceProfile) (name : String) :
    host.Tells (resolveDevice env name profiles) (host.device env profiles name) := by
  unfold resolveDevice Host.device
  cases profiles.find? fun profile => profile.name == name with
  | none => exact .throw _
  | some profile =>
    have hports : host.Tells availablePorts host.listed := tells_availablePorts
    unfold Host.portOf
    cases hlisted : host.listed with
    | error e =>
      rw [hlisted] at hports
      exact hports.fails
    | ok raw =>
      rw [hlisted] at hports
      apply hports.bind
      dsimp only
      rw [find_filterAllowlisted, Except.map]
      cases raw.find? fun info => matchesAllowlist env info.portName &&
        profileMatchesPort profile (.ofInfo info) with
      | none => exact .throw _
      | some info => exact .pure _

theorem tells_openTarget_port {srv : McpServer} {p : OpenParams} {path : String}
    (hport : p.port = some path) (hdevice : p.device = none) :
    host.Tells (srv.openTarget p) ((host.profileAt srv.profiles path).map (targetAt path p)) := by
  have hprofile : host.Tells (resolvePortProfile path srv.profiles) _ :=
    tells_resolvePortProfile srv.profiles path
  unfold McpServer.openTarget
  rw [hport, hdevice]
  cases hfound : host.profileAt srv.profiles path with
  | error e =>
    rw [hfound] at hprofile
    exact hprofile.fails
  | ok found =>
    rw [hfound] at hprofile
    apply hprofile.bind
    cases found with
    | none => exact .pure _
    | some profile => exact .pure _

theorem tells_openTarget_device {srv : McpServer} {p : OpenParams} {name : String}
    (hport : p.port = none) (hdevice : p.device = some name) :
    host.Tells (srv.openTarget p) ((host.device srv.toEnvironment srv.profiles name).map
      fun resolved => .ofResolved resolved.portPath p resolved) := by
  have hresolved : host.Tells (resolveDevice srv.toEnvironment name srv.profiles) _ :=
    tells_resolveDevice srv.toEnvironment srv.profiles name
  unfold McpServer.openTarget
  rw [hport, hdevice]
  cases hfound : host.device srv.toEnvironment srv.profiles name with
  | error e =>
    rw [hfound] at hresolved
    exact hresolved.fails
  | ok resolved =>
    rw [hfound] at hresolved
    exact hresolved.bind (.pure _)

theorem device_eq_ok {env : Environment} {profiles : List DeviceProfile} {name : String}
    {resolved : ResolvedDevice} (h : host.device env profiles name = .ok resolved) :
    ∃ profile ∈ profiles, profile.name = name ∧
      host.portOf env profile = .ok (some resolved.portPath) ∧
      resolved = resolvedFromProfile profile resolved.portPath := by
  unfold Host.device at h
  cases hfind : profiles.find? fun profile => profile.name == name with
  | none =>
    rw [hfind] at h
    cases h
  | some profile =>
    rw [hfind] at h
    dsimp only at h
    cases hport : host.portOf env profile with
    | error e =>
      rw [hport] at h
      cases h
    | ok found =>
      rw [hport] at h
      cases found with
      | none => cases h
      | some path =>
        cases h
        have hname := List.find?_some hfind
        exact ⟨profile, List.mem_of_find?_eq_some hfind, eq_of_beq hname, hport, rfl⟩

end Tells

/-! ## Every name of a port -/

/-- The profile binds a session with `args`, whatever its caller has asked for. -/
structure Governed (srv : McpServer) (p : OpenParams) (profile : DeviceProfile)
    (args : SessionArgs) : Prop where
  within : Within srv (.ofResolved args.portPath p (resolvedFromProfile profile args.portPath)) args
  baud : args.baud = p.baud.getD profile.baud
  console : args.consoleSettings =
    { profile.console with lineEnding := p.lineEnding.getD profile.console.lineEnding }

section Governed

variable {srv : McpServer} {p : OpenParams} {args : SessionArgs} {profile : DeviceProfile}
  {path : String}

theorem governed_of_openArgs
    (h : srv.openArgs p (.ofResolved path p (resolvedFromProfile profile path)) = .ok args) :
    args.portPath = path ∧ Governed srv p profile args := by
  obtain ⟨_, hpath, hbaud⟩ := openArgs_limits h
  obtain rfl : args.portPath = path := hpath
  exact ⟨rfl, (openArgs_eq_ok h).within, hbaud, (openArgs_eq_ok h).console⟩

/-- A session that was reserved, by an open that had resolved what it names. -/
theorem reserved_opened {tr : List ToolLabel} {c : ToolConfig}
    (h : Run machine (toolCode srv) tr c) {t : Nat} {id : String}
    (hid : .act t ⟨.reserve args, .ok id⟩ ∈ tr) :
    ∃ p seen target, .start t (.open p) ∈ tr ∧ (∀ e ∈ seen, .act t e ∈ tr) ∧
      Opens srv p seen target args := by
  obtain ⟨before, after, d, d', rfl, hbefore, hstep, _⟩ := Steps.step_of_mem h hid
  cases hstep with
  | @act _ call past _ next _ σ at_ask answer =>
    have hstarted := Run.started hbefore at_ask
    obtain ⟨p, rfl⟩ := reserves_open hstarted.runs
    obtain ⟨target, hopens⟩ := open_reserves hstarted.runs
    refine ⟨p, past, target, List.mem_append_left _ hstarted.start_mem, fun e he => ?_, hopens⟩
    have hpast : past = eventsOf t before := hstarted.past_eq
    exact List.mem_append_left _ (mem_eventsOf.mp (hpast ▸ he))

end Governed

/-- In every run: on a host that answers an open consistently, the session it makes is on the
path it names, bound by the profile that the hardware there has under any of its names, or on
the first allowlisted port that the profile it names matches, bound by that profile. If the
host's ports cannot be listed while there are profiles, nothing is opened. -/
theorem profile_follows_hardware (srv : McpServer) {tr : List ToolLabel} {c : ToolConfig}
    (h : Run machine (toolCode srv) tr c) {t : Nat} {args : SessionArgs} {id : String}
    (hid : .act t ⟨.reserve args, .ok id⟩ ∈ tr) (host : Host)
    (hhost : ∀ e, .act t e ∈ tr → host.Answers e.req e.resp) :
    ∃ p, .start t (.open p) ∈ tr ∧
      ((∃ found, p.port = some args.portPath ∧ p.device = none ∧
          (∀ path, host.real path = host.real args.portPath →
            host.profileAt srv.profiles path = .ok found) ∧
          ∀ profile, found = some profile → Governed srv p profile args) ∨
        ∃ profile ∈ srv.profiles, p.port = none ∧ p.device = some profile.name ∧
          host.portOf srv.toEnvironment profile = .ok (some args.portPath) ∧
          Governed srv p profile args) := by
  obtain ⟨p, seen, target, hstart, hseen, hopens⟩ := reserved_opened h hid
  have hanswers : ∀ e ∈ seen, host.Answers e.req e.resp := fun e he => hhost e (hseen e he)
  refine ⟨p, hstart, ?_⟩
  cases hport : p.port with
  | some path =>
    cases hdevice : p.device with
    | some name =>
      -- `open` turns down a request for both before it asks the host anything
      have hresolves := hopens.resolves
      unfold McpServer.openTarget at hresolves
      rw [hport, hdevice] at hresolves
      cases (runs_ret.mp hresolves).2
    | none =>
      have htarget := (tells_openTarget_port hport hdevice).eq_of_runs hopens.resolves hanswers
      cases hfound : host.profileAt srv.profiles path with
      | error e =>
        rw [hfound] at htarget
        cases htarget
      | ok found =>
        rw [hfound] at htarget
        obtain rfl := Except.ok.inj htarget
        have hpath : args.portPath = path := by
          rw [(openArgs_limits hopens.accepts).2.1]
          cases found <;> rfl
        refine .inl ⟨found, congrArg some hpath.symm, rfl, fun other hsame => ?_, ?_⟩
        -- the profile depends on the path through what it really is and nothing else
        · unfold Host.profileAt at hfound ⊢
          rw [hsame, hpath]
          exact hfound
        · rintro profile rfl
          exact (governed_of_openArgs hopens.accepts).2
  | none =>
    cases hdevice : p.device with
    | none =>
      -- nor does it guess a device when neither is named
      have hresolves := hopens.resolves
      unfold McpServer.openTarget at hresolves
      rw [hport, hdevice] at hresolves
      cases (runs_ret.mp hresolves).2
    | some name =>
      have htarget := (tells_openTarget_device hport hdevice).eq_of_runs hopens.resolves hanswers
      cases hfound : host.device srv.toEnvironment srv.profiles name with
      | error e =>
        rw [hfound] at htarget
        cases htarget
      | ok resolved =>
        rw [hfound] at htarget
        obtain rfl := Except.ok.inj htarget
        obtain ⟨profile, hprofile, rfl, hportOf, hresolved⟩ := device_eq_ok hfound
        have haccepts := hopens.accepts
        rw [hresolved] at haccepts
        obtain ⟨hpath, hgoverned⟩ := governed_of_openArgs haccepts
        exact .inr ⟨profile, hprofile, rfl, rfl, hpath ▸ hportOf, hgoverned⟩

/-! ## A privileged console under another name -/

def profiledServer : McpServer := { wordServer with profiles := twinProfiles }

def linkedHost : Host where
  ports := .ok twinAdapters
  canonicalize path := if path = "/dev/ttyUSBconsole" then some "/dev/ttyUSB0" else some path

def linkParams : OpenParams :=
  { port := some "/dev/ttyUSBconsole"
    device := none
    baud := none
    timeoutMs := none
    writePolicy := none
    denyPatterns := none
    lineEnding := none }

def linkArgs : SessionArgs :=
  { portPath := "/dev/ttyUSBconsole"
    baud := 115200
    defaultTimeoutMs := McpSerial.defaultTimeoutMs
    writePolicy := .confirm
    consoleSettings := {}
    commandPolicy := {} }

def linkTrace : List ToolLabel :=
  [.start 0 (.open linkParams), .act 0 ⟨.availablePorts, .ok twinAdapters⟩,
    .act 0 ⟨.canonicalize "/dev/ttyUSB0", some "/dev/ttyUSB0"⟩,
    .act 0 ⟨.canonicalize "/dev/ttyUSB1", some "/dev/ttyUSB1"⟩,
    .act 0 ⟨.canonicalize "/dev/ttyS0", some "/dev/ttyS0"⟩,
    .act 0 ⟨.canonicalize "/dev/ttyUSBconsole", some "/dev/ttyUSB0"⟩,
    .act 0 ⟨.reserve linkArgs, .ok firstId⟩]

theorem link_run : ∃ c, Run machine (toolCode profiledServer) linkTrace c := by
  have h₀ : Run machine (toolCode profiledServer) [] _ := .refl
  have h₁ := h₀.start 0 (.open linkParams) rfl
  have h₂ := h₁.act 0 (r := .availablePorts) (.ok twinAdapters) rfl rfl
  have h₃ := h₂.act 0 (r := .canonicalize "/dev/ttyUSB0") (some "/dev/ttyUSB0") rfl rfl
  have h₄ := h₃.act 0 (r := .canonicalize "/dev/ttyUSB1") (some "/dev/ttyUSB1") rfl rfl
  have h₅ := h₄.act 0 (r := .canonicalize "/dev/ttyS0") (some "/dev/ttyS0") rfl rfl
  have h₆ := h₅.act 0 (r := .canonicalize "/dev/ttyUSBconsole") (some "/dev/ttyUSB0") rfl rfl
  have h₇ := h₆.act 0 (r := .reserve linkArgs) (.ok firstId) rfl
    ⟨[.ok (Vector.replicate 16 0)], _, rfl, rfl⟩
  exact ⟨_, h₇⟩

theorem linkedHost_answers (e : Ask) (he : .act 0 e ∈ linkTrace) :
    linkedHost.Answers e.req e.resp := by
  simp only [linkTrace, List.mem_cons, reduceCtorEq, Label.act.injEq, true_and, List.not_mem_nil,
    or_false, false_or] at he
  rcases he with rfl | rfl | rfl | rfl | rfl | rfl <;> trivial

/-- The session opened through the link is the privileged console's. -/
theorem profile_follows_hardware_link : ∃ profile,
    profile.name = "console" ∧ profile.privileged = true ∧
      Governed profiledServer linkParams profile linkArgs := by
  obtain ⟨c, h⟩ := link_run
  have hid : .act 0 ⟨.reserve linkArgs, .ok firstId⟩ ∈ linkTrace := by simp [linkTrace]
  obtain ⟨p, hstart, hcases⟩ :=
    profile_follows_hardware profiledServer h hid linkedHost linkedHost_answers
  obtain rfl : p = linkParams := by simpa [linkTrace] using hstart
  rcases hcases with ⟨found, _, _, hfound, hgoverned⟩ | ⟨_, _, hnone, _⟩
  · have hconsole : linkedHost.profileAt twinProfiles "/dev/ttyUSB0" =
        .ok (some (twinProfiles.head (by decide))) := rfl
    have hsame := (hfound "/dev/ttyUSB0" (by decide)).symm.trans hconsole
    exact ⟨_, rfl, rfl, hgoverned _ (Except.ok.inj hsame)⟩
  · cases hnone

end McpSerial
