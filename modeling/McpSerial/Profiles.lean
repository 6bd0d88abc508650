import McpSerial.Session

/-! Ports, device profiles and what a profile implies for a port (`serial/mod.rs`). -/

namespace McpSerial

structure UsbPortInfo where
  vid : Nat
  pid : Nat
  serialNumber : Option String
  deriving DecidableEq, Repr

structure SerialPortInfo where
  portName : String
  usb : Option UsbPortInfo
  deriving DecidableEq, Repr

structure PortDescriptor where
  port : String
  vid : Option Nat
  pid : Option Nat
  serial : Option String
  device : Option String := none
  description : Option String := none
  deriving DecidableEq, Repr

def PortDescriptor.ofInfo (info : SerialPortInfo) : PortDescriptor :=
  { port := info.portName
    vid := info.usb.map (·.vid)
    pid := info.usb.map (·.pid)
    serial := info.usb.bind (·.serialNumber) }

def profileMatchesPort (profile : DeviceProfile) (port : PortDescriptor) : Bool :=
  port.serial == some profile.matchSerial &&
    profile.matchVid.all (fun v => some v == port.vid) &&
    profile.matchPid.all (fun v => some v == port.pid)

def enrichWithProfiles (ports : List PortDescriptor) (profiles : List DeviceProfile) :
    List PortDescriptor :=
  ports.map fun port =>
    match profiles.find? fun p => profileMatchesPort p port with
    | some p => { port with device := some p.name, description := some p.description }
    | none => port

def filterAllowlisted (env : Environment) (ports : List SerialPortInfo) : List PortDescriptor :=
  (ports.filter fun p => matchesAllowlist env p.portName).map PortDescriptor.ofInfo

def profileWritePolicy (profile : DeviceProfile) : WritePolicy :=
  if profile.privileged then .confirm else .allow

structure ResolvedDevice where
  portPath : String
  baud : Nat
  writePolicy : WritePolicy
  consoleSettings : ConsoleSettings
  denyPatterns : List String
  allowPatterns : List String
  deriving DecidableEq, Repr

def resolvedFromProfile (profile : DeviceProfile) (portPath : String) : ResolvedDevice :=
  { portPath
    baud := profile.baud
    writePolicy := profileWritePolicy profile
    consoleSettings := profile.console
    denyPatterns := profile.denyPatterns
    allowPatterns := profile.allowPatterns }

/-- The profile that governs the literal path `portPath`, by the first match. -/
def matchPortProfile (portPath : String) (ports : List PortDescriptor)
    (profiles : List DeviceProfile) : Option ResolvedDevice :=
  match ports.find? fun port => port.port == portPath with
  | none => none
  | some port =>
    (profiles.find? fun profile => profileMatchesPort profile port).map
      fun profile => resolvedFromProfile profile portPath

end McpSerial
