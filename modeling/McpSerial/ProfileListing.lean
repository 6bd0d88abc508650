import McpSerial.Manager.Calls
import McpSerial.Mcp.Handlers
import McpSerial.Selection.FirstMatch

/-! The profile that `serial.list_ports` shows for a port and the profile that an open of
the port applies, by path and by device name. -/

namespace McpSerial
open FirstMatch Interaction Interaction.Program

/-- What a profile settles about a session, whichever way the port was named. -/
structure SameSettings (x y : ResolvedDevice) : Prop where
  baud : x.baud = y.baud
  writePolicy : x.writePolicy = y.writePolicy
  consoleSettings : x.consoleSettings = y.consoleSettings
  denyPatterns : x.denyPatterns = y.denyPatterns
  allowPatterns : x.allowPatterns = y.allowPatterns

theorem sameSettings_resolvedFromProfile (profile : DeviceProfile) (path path' : String) :
    SameSettings (resolvedFromProfile profile path) (resolvedFromProfile profile path') :=
  ⟨rfl, rfl, rfl, rfl, rfl⟩

section Listing

variable {env : Environment} {raw : List SerialPortInfo} {profiles : List DeviceProfile}
  {ports : List PortDescriptor} {port : PortDescriptor}

/-- With distinct names the path of a listed port leads to the first profile that matches it. -/
theorem matchPortProfile_listed (hnodup : (ports.map (·.port)).Nodup) (hport : port ∈ ports) :
    matchPortProfile port.port ports profiles =
      (profiles.find? fun profile => profileMatchesPort profile port).map
        fun profile => resolvedFromProfile profile port.port := by
  unfold matchPortProfile
  rw [find_key hnodup hport]

/-- With distinct names a profile that matches a listed port resolves by its name. -/
theorem resolveDevice_listed {profile : DeviceProfile}
    (hnodup : (profiles.map (·.name)).Nodup) (hprofile : profile ∈ profiles)
    (hport : port ∈ filterAllowlisted env raw) (hmatches : profileMatchesPort profile port = true) :
    ∃ found ∈ filterAllowlisted env raw,
      Runs (resolveDevice env profile.name profiles).run [⟨.availablePorts, .ok raw⟩]
        (ret (.ok (resolvedFromProfile profile found.port))) := by
  have hsome : ((filterAllowlisted env raw).find? fun p => profileMatchesPort profile p).isSome :=
    List.find?_isSome.mpr ⟨port, hport, hmatches⟩
  obtain ⟨found, hfound⟩ := Option.isSome_iff_exists.mp hsome
  refine ⟨found, List.mem_of_find?_eq_some hfound, ?_⟩
  unfold resolveDevice
  rw [find_key hnodup hprofile]
  refine runs_answer.mpr ?_
  simp only [Program.bind, Function.comp_apply, ExceptT.bindCont, pure, ExceptT.pure, ExceptT.mk,
    hfound]

theorem device_ofInfo (hport : port ∈ filterAllowlisted env raw) : port.device = none := by
  obtain ⟨info, _, rfl⟩ := List.mem_map.mp hport
  rfl

end Listing

/-- Where the listing names a device for a port, an open of the path and an open of the
device settle the same, and the device resolves to a listed port. Where it names none, no
profile governs the path. -/
theorem advertised_profile_applied (env : Environment) (raw : List SerialPortInfo)
    (profiles : List DeviceProfile)
    (hports : ((filterAllowlisted env raw).map (·.port)).Nodup)
    (hprofiles : (profiles.map (·.name)).Nodup) (listed : PortDescriptor)
    (hlisted : listed ∈ enrichWithProfiles (filterAllowlisted env raw) profiles) :
    (∀ name, listed.device = some name → ∃ byPath byDevice,
      matchPortProfile listed.port (filterAllowlisted env raw) profiles = some byPath ∧
      Runs (resolveDevice env name profiles).run [⟨.availablePorts, .ok raw⟩]
        (ret (.ok byDevice)) ∧
      (∃ port ∈ filterAllowlisted env raw, byDevice.portPath = port.port) ∧
      SameSettings byPath byDevice) ∧
    (listed.device = none →
      matchPortProfile listed.port (filterAllowlisted env raw) profiles = none) := by
  obtain ⟨port, hport, rfl⟩ := List.mem_map.mp hlisted
  cases hfind : profiles.find? fun profile => profileMatchesPort profile port with
  | none =>
    refine ⟨fun name hname => ?_, fun _ => ?_⟩
    · rw [device_ofInfo hport] at hname
      cases hname
    · rw [matchPortProfile_listed hports hport, hfind]
      rfl
  | some profile =>
    refine ⟨?_, nofun⟩
    rintro _ ⟨⟩
    obtain ⟨found, hfound, hruns⟩ := resolveDevice_listed hprofiles
      (List.mem_of_find?_eq_some hfind) hport (List.find?_some hfind :)
    refine ⟨resolvedFromProfile profile port.port, _, ?_, hruns, ⟨found, hfound, rfl⟩,
      sameSettings_resolvedFromProfile ..⟩
    rw [matchPortProfile_listed hports hport, hfind]
    rfl

/-! ## Two adapters with one serial number -/

def twinAdapters : List SerialPortInfo :=
  [⟨"/dev/ttyUSB0", some ⟨0x10c4, 0xea60, some "A1B2"⟩⟩,
    ⟨"/dev/ttyUSB1", some ⟨0x10c4, 0xea60, some "A1B2"⟩⟩, ⟨"/dev/ttyS0", none⟩]

def twinProfiles : List DeviceProfile :=
  [liftProfile ("console", { matchSerial := "A1B2", baud := 115200, description := "root shell",
                             privileged := true }),
    liftProfile ("modem", { matchSerial := "A1B2", matchVid := some 0x10c4, baud := 9600,
                            description := "AT port" })]

def twinListed : PortDescriptor :=
  { port := "/dev/ttyUSB1", vid := some 0x10c4, pid := some 0xea60, serial := some "A1B2"
    device := some "console", description := some "root shell" }

/-- The second adapter is shown as `console`, which resolves to the first one. -/
theorem advertised_profile_applied_twins : ∃ byPath byDevice,
    matchPortProfile twinListed.port (filterAllowlisted defaultEnv twinAdapters) twinProfiles =
      some byPath ∧
    Runs (resolveDevice defaultEnv "console" twinProfiles).run [⟨.availablePorts, .ok twinAdapters⟩]
      (ret (.ok byDevice)) ∧
    (∃ port ∈ filterAllowlisted defaultEnv twinAdapters, byDevice.portPath = port.port) ∧
    SameSettings byPath byDevice :=
  (advertised_profile_applied defaultEnv twinAdapters twinProfiles (by decide) (by decide)
    twinListed (by decide)).1 "console" rfl

end McpSerial
