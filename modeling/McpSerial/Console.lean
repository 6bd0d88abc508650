import McpSerial.Text.Utf8

/-! Console execution settings and transcript analysis (`serial/console.rs`). -/

namespace McpSerial
open Utf8

inductive LineEnding where
  | none
  | lf
  | cr
  | crlf
  deriving DecidableEq, Repr

namespace LineEnding

def bytes : LineEnding → List UInt8
  | none => []
  | lf => [10]
  | cr => [13]
  | crlf => [13, 10]

def appendTo (e : LineEnding) (command : List UInt8) : List UInt8 := command ++ e.bytes

def debug : LineEnding → String
  | none => "None"
  | lf => "Lf"
  | cr => "Cr"
  | crlf => "Crlf"

end LineEnding

inductive EchoMode where
  | unknown
  | none
  | line
  deriving DecidableEq, Repr

inductive SemanticPrompt where
  | none
  | osc3008
  deriving DecidableEq, Repr

structure ConsoleSettings where
  lineEnding : LineEnding := .none
  echoMode : EchoMode := .unknown
  semanticPrompt : SemanticPrompt := .none
  deriving DecidableEq, Repr

structure TranscriptAnalysis where
  normalizedOutput : List Char
  commandOutput : Option (List Char)
  commandOutputSource : Option String
  semanticStatus : Option String
  exitCode : Option Int
  deriving DecidableEq, Repr

def windowPosition (pat : List UInt8) : List UInt8 → Option Nat
  | [] => if pat.isEmpty then some 0 else none
  | b :: raw =>
    if pat.isPrefixOf (b :: raw) then some 0 else (windowPosition pat raw).map (· + 1)

def echoLineBoundary (raw : List UInt8) (lineEnding : LineEnding) : Option Nat :=
  let terminator := lineEnding.bytes
  if terminator.isEmpty then none
  else (windowPosition terminator raw).map (· + terminator.length)

/-! ## Terminal normalization -/

/-- Where the scanner of `normalize_terminal_output` stands: in plain text, just
after an ESC, or inside the loop that skips an OSC or a CSI sequence. -/
inductive Scan where
  | text
  | esc
  | osc (prevEsc : Bool)
  | csi
  deriving DecidableEq, Repr

def plainChar (ch : Char) (next : Option Char) (out : List Char) : List Char :=
  if ch = '\r' then
    -- a lone CR stands for a new line, one before a line feed for nothing
    if next ≠ some '\n' then '\n' :: out else out
  else ch :: out

def normalizeFrom : Scan → List Char → List Char
  | _, [] => []
  | .osc prevEsc, c :: cs =>
    -- BEL or ST, whose two characters must stand side by side
    if c = '\x07' ∨ (prevEsc ∧ c = '\\') then normalizeFrom .text cs
    else normalizeFrom (.osc (c = '\x1b')) cs
  | .csi, c :: cs =>
    if '@' ≤ c ∧ c ≤ '~' then normalizeFrom .text cs else normalizeFrom .csi cs
  | .esc, c :: cs =>
    if c = ']' then normalizeFrom (.osc false) cs
    else if c = '[' then normalizeFrom .csi cs
    -- any other ESC is dropped alone: what follows it is read as usual
    else if c = '\x1b' then normalizeFrom .esc cs
    else plainChar c cs.head? (normalizeFrom .text cs)
  | .text, c :: cs =>
    if c = '\x1b' then normalizeFrom .esc cs
    else plainChar c cs.head? (normalizeFrom .text cs)

def normalizeTerminalOutput (raw : List Char) : List Char := normalizeFrom .text raw

def normalizeExecOutput (raw : List UInt8) (echoBoundary : Option Nat) : List Char :=
  let visible := match echoBoundary with
    | none => raw
    | some boundary => raw.drop boundary
  normalizeTerminalOutput (fromUtf8Lossy visible)

/-! ## OSC 3008 markers -/

inductive OscKind where
  | start
  | stop
  deriving DecidableEq, Repr

structure OscMarker where
  start : Nat
  stop : Nat
  id : List Char
  kind : OscKind
  command : Bool
  status : Option String
  exitCode : Option Int
  deriving DecidableEq, Repr

structure OscCommand where
  output : List UInt8
  status : Option String
  exitCode : Option Int
  deriving DecidableEq, Repr

/-- `str::parse::<i32>`: an optional sign, at least one digit, no overflow. -/
def parseI32 (cs : List Char) : Option Int :=
  let digits (ds : List Char) : Option Nat :=
    if ds.isEmpty then none
    else ds.foldl (fun acc d => acc.bind fun n =>
      if d.isDigit then some (n * 10 + (d.toNat - 48)) else none) (some 0)
  let signed : Option Int := match cs with
    | '-' :: ds => (digits ds).map fun n => -(n : Int)
    | '+' :: ds => (digits ds).map fun n => (n : Int)
    | ds => (digits ds).map fun n => (n : Int)
  signed.bind fun n => if -2147483648 ≤ n ∧ n ≤ 2147483647 then some n else none

def stripPrefix (pre cs : List Char) : Option (List Char) :=
  if pre.isPrefixOf cs then some (cs.drop pre.length) else none

structure OscFields where
  command : Bool := false
  status : Option String := none
  exitCode : Option Int := none
  deriving DecidableEq, Repr

def OscFields.read (f : OscFields) (field : List Char) : OscFields :=
  if field = "type=command".toList then { f with command := true }
  else if field = "exit=success".toList then { f with status := some "success" }
  else if field = "exit=failure".toList then { f with status := some "failure" }
  else match stripPrefix "status=".toList field with
    | some value => { f with exitCode := parseI32 value }
    | none => f

def splitFields (sep : Char) : List Char → List (List Char)
  | [] => [[]]
  | c :: cs =>
    if c = sep then [] :: splitFields sep cs
    else match splitFields sep cs with
      | [] => [[c]]
      | f :: fs => (c :: f) :: fs

def oscHeader (first : List Char) : Option (OscKind × List Char) :=
  match stripPrefix "start=".toList first with
  | some id => some (.start, id)
  | none => (stripPrefix "end=".toList first).map fun id => (.stop, id)

def parseOscMarker (start stop : Nat) (body : List Char) : Option OscMarker :=
  match splitFields ';' body with
  | [] => none
  | first :: fields =>
    match oscHeader first with
    | none => none
    | some (kind, id) =>
      if id.isEmpty ∨ 128 < len id then none
      else
        let f := fields.foldl OscFields.read {}
        some { start, stop, id, kind, command := f.command, status := f.status,
               exitCode := f.exitCode }

def oscEnd : Nat → List UInt8 → Option (Nat × Nat)
  | _, [] => none
  | index, b :: raw =>
    if b = 0x07 then some (index, index + 1)
    else if b = 0x1b ∧ raw.head? = some 0x5c then some (index, index + 2)
    else oscEnd (index + 1) raw

def oscPrefix : List UInt8 := [0x1b, 0x5d, 0x33, 0x30, 0x30, 0x38, 0x3b]

/-- The markers from `cursor` on. Each turn moves the cursor past a prefix, so
`turns` at the length of `raw` reach the end. -/
def osc3008MarkersFrom (raw : List UInt8) : Nat → Nat → Option (List OscMarker)
  | 0, _ => some []
  | turns + 1, cursor =>
    match windowPosition oscPrefix (raw.drop cursor) with
    | none => some []
    | some relative =>
      let start := cursor + relative
      let bodyStart := start + oscPrefix.length
      -- one marker that cannot be read makes all of them unreadable
      match oscEnd bodyStart (raw.drop bodyStart) with
      | none => none
      | some (bodyEnd, markerEnd) =>
        match fromUtf8 ((raw.take bodyEnd).drop bodyStart) with
        | none => none
        | some body =>
          match parseOscMarker start markerEnd body with
          | none => none
          | some marker => (osc3008MarkersFrom raw turns markerEnd).map (marker :: ·)

def osc3008Markers (raw : List UInt8) : Option (List OscMarker) :=
  osc3008MarkersFrom raw raw.length 0

def parseOneOsc3008Command (raw : List UInt8) : Option OscCommand :=
  match osc3008Markers raw with
  | none => none
  | some markers =>
    -- two commands, or two ends of one, are too ambiguous to choose from
    match markers.filter fun m => m.kind = .start ∧ m.command with
    | [start] =>
      match markers.filter fun m => m.kind = .stop ∧ m.id = start.id ∧ start.stop ≤ m.start with
      | [stop] =>
        some { output := (raw.take stop.start).drop start.stop,
               status := stop.status, exitCode := stop.exitCode }
      | _ => none
    | _ => none

def analyzeTranscript (raw : List UInt8) (lineEnding : LineEnding) (echoMode : EchoMode)
    (semanticPrompt : SemanticPrompt) : TranscriptAnalysis :=
  let echoBoundary := if echoMode = .line then echoLineBoundary raw lineEnding else none
  let normalizedOutput := normalizeExecOutput raw echoBoundary
  let semantic := if semanticPrompt = .osc3008 then parseOneOsc3008Command raw else none
  match semantic with
  | some command =>
    { normalizedOutput
      commandOutput := some (normalizeTerminalOutput (fromUtf8Lossy command.output))
      commandOutputSource := some "osc3008"
      semanticStatus := command.status
      exitCode := command.exitCode }
  | none =>
    -- no command was marked: what is left of the transcript may stand in for its output
    let commandOutput := match echoMode with
      | .line => echoBoundary.map fun boundary =>
          normalizeTerminalOutput (fromUtf8Lossy (raw.drop boundary))
      | .none => some normalizedOutput
      | .unknown => if semanticPrompt ≠ .none then some normalizedOutput else none
    { normalizedOutput
      commandOutput
      commandOutputSource := commandOutput.map fun _ => "normalized_transcript"
      semanticStatus := none
      exitCode := none }

end McpSerial
