import McpSerial.Profiles
import McpSerial.Selection.FirstMatch

/-! What the order of iterating `devices.toml` decides about a literal-path open. -/

namespace McpSerial
open FirstMatch

structure ProfileControls where
  writePolicy : WritePolicy
  consoleSettings : ConsoleSettings
  denyPatterns : List String
  allowPatterns : List String
  deriving DecidableEq

def ResolvedDevice.controls (r : ResolvedDevice) : ProfileControls :=
  { writePolicy := r.writePolicy
    consoleSettings := r.consoleSettings
    denyPatterns := r.denyPatterns
    allowPatterns := r.allowPatterns }

structure SameControls (x y : DeviceProfileRaw) : Prop where
  privileged : x.privileged = y.privileged
  lineEnding : x.lineEnding = y.lineEnding
  echoMode : x.echoMode = y.echoMode
  semanticPrompt : x.semanticPrompt = y.semanticPrompt
  denyPatterns : x.denyPatterns = y.denyPatterns
  allowPatterns : x.allowPatterns = y.allowPatterns

section Order
variable (file : DevicesFile) (ports : List PortDescriptor) (portPath : String)

/-- The controls of the open are the same under any two orders of the tables. -/
def OrderIndependent : Prop :=
  ∀ profiles profiles', ParsesTo file profiles → ParsesTo file profiles' →
    (matchPortProfile portPath ports profiles).map ResolvedDevice.controls =
      (matchPortProfile portPath ports profiles').map ResolvedDevice.controls

/-- All tables that match the enumerated port at the path agree on the controls. -/
def MatchesAgree : Prop :=
  ∀ port, ports.find? (fun port => port.port == portPath) = some port →
    ∀ x ∈ file.tables, ∀ y ∈ file.tables,
      profileMatchesPort (liftProfile x) port = true →
        profileMatchesPort (liftProfile y) port = true → SameControls x.2 y.2

end Order

variable {file : DevicesFile} {ports : List PortDescriptor} {portPath : String}

theorem profileWritePolicy_eq_iff {p q : DeviceProfile} :
    profileWritePolicy p = profileWritePolicy q ↔ p.privileged = q.privileged := by
  unfold profileWritePolicy
  cases p.privileged <;> cases q.privileged <;> simp

theorem controls_eq_iff {x y : String × DeviceProfileRaw} :
    (resolvedFromProfile (liftProfile x) portPath).controls =
      (resolvedFromProfile (liftProfile y) portPath).controls ↔ SameControls x.2 y.2 := by
  simp only [ResolvedDevice.controls, resolvedFromProfile, ProfileControls.mk.injEq,
    profileWritePolicy_eq_iff]
  constructor
  · intro h
    obtain ⟨hprivileged, hconsole, hdeny, hallow⟩ := h
    have hsettings : x.2.lineEnding = y.2.lineEnding ∧ x.2.echoMode = y.2.echoMode ∧
        x.2.semanticPrompt = y.2.semanticPrompt := by
      simpa [liftProfile] using hconsole
    exact ⟨hprivileged, hsettings.1, hsettings.2.1, hsettings.2.2, hdeny, hallow⟩
  · intro h
    refine ⟨h.privileged, ?_, h.denyPatterns, h.allowPatterns⟩
    simp [liftProfile, h.lineEnding, h.echoMode, h.semanticPrompt]

/-- On an enumerated port the open resolves to the first matching table. -/
theorem matchPortProfile_map {port : PortDescriptor} (order : List (String × DeviceProfileRaw))
    (hport : ports.find? (fun port => port.port == portPath) = some port) :
    matchPortProfile portPath ports (order.map liftProfile) =
      (order.find? fun x => profileMatchesPort (liftProfile x) port).map
        fun x => resolvedFromProfile (liftProfile x) portPath := by
  simp [matchPortProfile, hport, List.find?_map, Function.comp_def]

/-- The controls under the orders of `devices.toml` are those of the possible first matches. -/
theorem orderIndependent_iff_possible {port : PortDescriptor}
    (hport : ports.find? (fun port => port.port == portPath) = some port) :
    OrderIndependent file ports portPath ↔
      ∀ r r', Possible file.tables (fun x => profileMatchesPort (liftProfile x) port) r →
        Possible file.tables (fun x => profileMatchesPort (liftProfile x) port) r' →
        r.map (fun x => (resolvedFromProfile (liftProfile x) portPath).controls) =
          r'.map (fun x => (resolvedFromProfile (liftProfile x) portPath).controls) := by
  constructor
  · rintro h r r' ⟨order, hperm, rfl⟩ ⟨order', hperm', rfl⟩
    have hsame := h _ _ ⟨order, hperm, rfl⟩ ⟨order', hperm', rfl⟩
    rw [matchPortProfile_map order hport, matchPortProfile_map order' hport] at hsame
    simpa [Option.map_map, Function.comp_def] using hsame
  · rintro h _ _ ⟨order, hperm, rfl⟩ ⟨order', hperm', rfl⟩
    have hsame := h _ _ ⟨order, hperm, rfl⟩ ⟨order', hperm', rfl⟩
    rw [matchPortProfile_map order hport, matchPortProfile_map order' hport]
    simpa [Option.map_map, Function.comp_def] using hsame

/-- The order in which `devices.toml` is iterated leaves a literal-path open alone
exactly when all profiles that match the port agree. -/
theorem order_independent_iff (file : DevicesFile) (ports : List PortDescriptor)
    (portPath : String) :
    OrderIndependent file ports portPath ↔ MatchesAgree file ports portPath := by
  cases hport : ports.find? (fun port => port.port == portPath) with
  | none =>
    -- a path that is not enumerated matches no profile under any order
    have hnone : ∀ profiles, matchPortProfile portPath ports profiles = none := by
      intro profiles
      simp [matchPortProfile, hport]
    constructor
    · intro _ port hfound
      simp [hport] at hfound
    · intro _ profiles profiles' _ _
      rw [hnone, hnone]
  | some port =>
    have hagree : MatchesAgree file ports portPath ↔
        Agree file.tables (fun x => profileMatchesPort (liftProfile x) port)
          fun x => (resolvedFromProfile (liftProfile x) portPath).controls := by
      simp only [MatchesAgree, hport, Option.some.injEq, forall_eq', Agree, controls_eq_iff]
    rw [hagree, orderIndependent_iff_possible hport]
    exact possible_agree_iff

/-! ## Two profiles of one adapter -/

/-- A privileged profile by serial number alone, and a plain one that also filters by vendor. -/
def sharedSerial : DevicesFile :=
  { tables :=
      [("console", { matchSerial := "A1B2", baud := 115200, description := "root shell",
                     privileged := true }),
       ("modem", { matchSerial := "A1B2", matchVid := some 0x10c4, baud := 9600,
                   description := "AT port" })]
    names_nodup := by decide }

def sharedAdapter : PortDescriptor :=
  { port := "/dev/ttyUSB0", vid := some 0x10c4, pid := some 0xea60, serial := some "A1B2" }

/-- One order opens the adapter under `confirm`, the other under `allow`. -/
theorem privileged_default_lost :
    (∃ profiles, ParsesTo sharedSerial profiles ∧
      (matchPortProfile "/dev/ttyUSB0" [sharedAdapter] profiles).map (·.writePolicy) =
        some .confirm) ∧
    (∃ profiles, ParsesTo sharedSerial profiles ∧
      (matchPortProfile "/dev/ttyUSB0" [sharedAdapter] profiles).map (·.writePolicy) =
        some .allow) ∧
    ¬OrderIndependent sharedSerial [sharedAdapter] "/dev/ttyUSB0" := by
  have hfirst : ParsesTo sharedSerial (sharedSerial.tables.map liftProfile) :=
    ⟨sharedSerial.tables, .refl _, rfl⟩
  have hsecond : ParsesTo sharedSerial (sharedSerial.tables.reverse.map liftProfile) :=
    ⟨sharedSerial.tables.reverse, List.reverse_perm _, rfl⟩
  refine ⟨⟨_, hfirst, by decide⟩, ⟨_, hsecond, by decide⟩, ?_⟩
  intro hindependent
  have hsame := hindependent _ _ hfirst hsecond
  revert hsame
  decide

end McpSerial
