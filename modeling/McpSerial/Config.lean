import Mathlib.Data.List.Nodup
import McpSerial.Console
import McpSerial.Errors

/-! Limits, device profiles and the port allowlist (`config.rs`). -/

namespace McpSerial

def portAllowlist : List String := ["/dev/ttyUSB*", "/dev/ttyACM*"]
def maxSessions : Nat := 4
def maxReadBuffer : Nat := 64 * 1024
def maxWriteChunk : Nat := 4096
def defaultBaud : Nat := 115200
def defaultTimeoutMs : Nat := 5000
def maxTimeoutMs : Nat := 30000
def maxPatternLen : Nat := 1024
def denyPatternsEnv : String := "MCP_SERIAL_DENY_PATTERNS"

structure Environment where
  allowlist : Option String
  denyPatterns : Option String
  parseStrings : String → Except String (List String)

def globalDenyPatterns (env : Environment) : Except SerialError (List String) :=
  match env.denyPatterns with
  | none => .ok []
  | some value =>
    match env.parseStrings value with
    | .ok patterns => .ok patterns
    | .error error =>
      .error (.invalidParam denyPatternsEnv s!"must be a JSON array of regex strings: {error}")

/-! ## Allowlist -/

/-- Unicode `White_Space`, what `str::trim` removes. -/
def isWhitespace (c : Char) : Bool :=
  let n := c.toNat
  (0x9 ≤ n && n ≤ 0xd) || n == 0x20 || n == 0x85 || n == 0xa0 || n == 0x1680 ||
    (0x2000 ≤ n && n ≤ 0x200a) || n == 0x2028 || n == 0x2029 || n == 0x202f ||
    n == 0x205f || n == 0x3000

def trim (cs : List Char) : List Char :=
  ((cs.dropWhile isWhitespace).reverse.dropWhile isWhitespace).reverse

def globMatch (pattern value : List Char) : Bool :=
  if pattern.getLast? = some '*' then
    let pre := pattern.dropLast
    pre.length < value.length && pre.isPrefixOf value && !(value.drop pre.length).contains '/'
  else pattern == value

def matchesAllowlist (env : Environment) (path : String) : Bool :=
  match env.allowlist with
  | some patterns =>
    (((patterns.toList.splitOn ',').map trim).filter fun p => !p.isEmpty).any
      fun p => globMatch p path.toList
  | none => portAllowlist.any fun p => globMatch p.toList path.toList

/-! ## Device profiles -/

structure DeviceProfile where
  name : String
  matchSerial : String
  matchVid : Option Nat
  matchPid : Option Nat
  baud : Nat
  description : String
  console : ConsoleSettings
  denyPatterns : List String
  allowPatterns : List String
  privileged : Bool
  deriving DecidableEq, Repr

structure DeviceProfileRaw where
  matchSerial : String
  matchVid : Option Nat := none
  matchPid : Option Nat := none
  baud : Nat
  description : String
  privileged : Bool := false
  lineEnding : LineEnding := .none
  echoMode : EchoMode := .unknown
  semanticPrompt : SemanticPrompt := .none
  denyPatterns : List String := []
  allowPatterns : List String := []
  deriving DecidableEq, Repr

/-- A parsed `devices.toml`. The tables lie in a `HashMap`: `tables` lists them,
each name once, and any permutation of it is a possible order of iteration. -/
structure DevicesFile where
  tables : List (String × DeviceProfileRaw)
  names_nodup : (tables.map Prod.fst).Nodup

def liftProfile (entry : String × DeviceProfileRaw) : DeviceProfile :=
  let raw := entry.2
  { name := entry.1
    matchSerial := raw.matchSerial
    matchVid := raw.matchVid
    matchPid := raw.matchPid
    baud := raw.baud
    description := raw.description
    console :=
      { lineEnding := raw.lineEnding
        echoMode := raw.echoMode
        semanticPrompt := raw.semanticPrompt }
    denyPatterns := raw.denyPatterns
    allowPatterns := raw.allowPatterns
    privileged := raw.privileged }

/-- The profiles `parse_devices` may return for `file`: one for each order in
which the map of tables is iterated. -/
def ParsesTo (file : DevicesFile) (profiles : List DeviceProfile) : Prop :=
  ∃ order : List (String × DeviceProfileRaw), order.Perm file.tables ∧
    profiles = order.map liftProfile

end McpSerial
