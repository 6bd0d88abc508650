import McpSerial.Policy

/-! The pattern matcher of `read_until` and `exec` (`serial/parser.rs`). -/

namespace McpSerial
open Utf8

structure MatchDetails where
  text : List Char
  startByte : Nat
  endByte : Nat
  deriving DecidableEq, Repr

structure PatternMatcher where
  regex : Regex
  buffer : List UInt8 := []
  head : Nat := 0
  searchStart : Nat := 0
  maxBuffer : Nat

/-- The loop of `decode_lossy_at` over the chunks left, with the text so far,
the raw position reached and the offset once it is mapped. -/
def decodeLossyFrom (rawOffset : Nat) : List Chunk → List Char → Nat → Option Nat →
    List Char × Option Nat
  | [], text, _, mapped => (text, mapped)
  | chunk :: chunks, text, rawPos, mapped =>
    let validLen := len chunk.valid
    let mapped := match mapped with
      | some m => some m
      | none =>
        -- a character that the offset cuts is left out of the search
        if rawOffset < rawPos + validLen then
          some (len text + ceilBoundary chunk.valid (rawOffset - rawPos))
        else none
    let text := text ++ chunk.valid
    let rawPos := rawPos + validLen
    if chunk.invalid.isEmpty then decodeLossyFrom rawOffset chunks text rawPos mapped
    else
      let text := text ++ [replacement]
      let rawPos := rawPos + chunk.invalid.length
      let mapped := match mapped with
        | some m => some m
        -- so is the malformed sequence: the search begins behind its replacement character
        | none => if rawOffset ≤ rawPos then some (len text) else none
      decodeLossyFrom rawOffset chunks text rawPos mapped

def decodeLossyAt (raw : List UInt8) (rawOffset : Nat) : List Char × Nat :=
  let (text, mapped) := decodeLossyFrom (min rawOffset raw.length) (utf8Chunks raw) [] 0 none
  (text, mapped.getD (len text))

namespace PatternMatcher

def withCapacity (rx : RegexCrate) (pattern : String) (maxBuffer : Nat) :
    Except SerialError PatternMatcher :=
  if pattern.isEmpty then .error (.invalidParam "pattern" "must not be empty")
  else
    match boundedRegex rx pattern with
    | .ok regex => .ok { regex, maxBuffer }
    | .error reason => .error (.invalidParam "pattern" reason)

def new (rx : RegexCrate) (pattern : String) : Except SerialError PatternMatcher :=
  withCapacity rx pattern maxReadBuffer

def live (m : PatternMatcher) : List UInt8 := m.buffer.drop m.head

def intoBuffer (m : PatternMatcher) : List UInt8 := m.buffer.drop m.head

/-- Physical compaction, once the dead prefix is longer than the cap. -/
def compact (m : PatternMatcher) : PatternMatcher :=
  if m.maxBuffer < m.head then { m with buffer := m.buffer.drop m.head, head := 0 } else m

def pushWithoutMatching (m : PatternMatcher) (data : List UInt8) : PatternMatcher :=
  let buffer := m.buffer ++ data
  let liveLen := buffer.length - m.head
  let dropped := liveLen - m.maxBuffer
  compact
    -- the oldest bytes fall out of the window, and the offset moves with those that stay
    (if m.maxBuffer < liveLen then
      { m with buffer, head := m.head + dropped, searchStart := m.searchStart - dropped }
    else { m with buffer })

def findFrom (m : PatternMatcher) (text : List Char) (searchStart : Nat) : Option MatchDetails :=
  (m.regex.find (dropBytes text searchStart)).map fun found =>
    { text := found.hit
      startByte := searchStart + len found.before
      endByte := searchStart + len found.before + len found.hit }

def matchDetails (m : PatternMatcher) : Option MatchDetails :=
  match fromUtf8 m.live with
  | some text => m.findFrom text (ceilBoundary text (min m.searchStart (len text)))
  | none =>
    -- the offset counts bytes, so it is mapped into the text that is searched
    let (text, searchStart) := decodeLossyAt m.live m.searchStart
    m.findFrom text searchStart

def isMatch (m : PatternMatcher) : Bool := m.matchDetails.isSome

def push (m : PatternMatcher) (data : List UInt8) : Bool × PatternMatcher :=
  let m := m.pushWithoutMatching data
  (m.isMatch, m)

def setSearchStart (m : PatternMatcher) (offset : Nat) : PatternMatcher :=
  { m with searchStart := min offset m.live.length }

end PatternMatcher
end McpSerial
