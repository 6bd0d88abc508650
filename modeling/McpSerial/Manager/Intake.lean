import McpSerial.Manager.IoLog
import McpSerial.Matching.Echo

/-! What an operation has read: one chunk for each read that came back, and what each
operation that reads says about its chunks. -/

namespace McpSerial
open Interaction Interaction.Discipline

/-- The chunks read so far, cut where the last flush was. -/
structure Intake where
  /-- What was read before the last flush. -/
  before : List (List UInt8) := []
  chunks : List (List UInt8) := []
  /-- A flush came back. -/
  flushed : Bool := false

namespace Intake

def admits : Request → Prop
  | .read _ max _ => 0 < max
  | _ => True

def advance (i : Intake) : (r : Request) → Response r → Intake
  | .flush .., .ready (.ok _) => ⟨i.before ++ i.chunks, [], true⟩
  | .read .., .ready (.ok bytes) => { i with chunks := i.chunks ++ [bytes.1] }
  | _, _ => i

def bytes (i : Intake) : List UInt8 := (i.before ++ i.chunks).flatten

/-- What the device sent in answer to what was flushed. -/
def answer (i : Intake) : List UInt8 := if i.flushed then i.chunks.flatten else []

def run (es : List Ask) : Intake := es.foldl (fun i e => i.advance e.req e.resp) {}

end Intake

abbrev intake : Discipline Request Response :=
  ⟨Intake, fun _ => Intake.admits, Intake.advance⟩

theorem intake_plain : Plain intake := by
  constructor <;> intros <;> first | exact ⟨trivial, fun _ => rfl⟩ | rfl

theorem intake_detached : Detached intake where
  toPlain := intake_plain
  get _ _ := ⟨trivial, fun _ => rfl⟩
  lock _ _ _ := ⟨trivial, fun _ => rfl⟩
  unlock _ _ := ⟨trivial, fun _ => rfl⟩

theorem Intake.advance_bytes (i : Intake) (e : Ask) :
    (i.advance e.req e.resp).bytes = i.bytes ++ obtained e := by
  obtain ⟨r, x⟩ := e
  cases r with
  | read =>
    rcases x with (_ | bytes) | _ | _
    · exact (List.append_nil _).symm
    · show (i.before ++ (i.chunks ++ [bytes.1])).flatten = i.bytes ++ bytes.1
      simp [Intake.bytes]
    · exact (List.append_nil _).symm
    · exact (List.append_nil _).symm
  | flush =>
    rcases x with (_ | _) | _ | _
    · exact (List.append_nil _).symm
    · show ((i.before ++ i.chunks) ++ []).flatten = i.bytes ++ []
      simp [Intake.bytes]
    · exact (List.append_nil _).symm
    · exact (List.append_nil _).symm
  | _ => exact (List.append_nil _).symm

theorem Intake.run_bytes (es : List Ask) : (Intake.run es).bytes = es.flatMap obtained := by
  have hfold (i : Intake) : (es.foldl (fun i e => i.advance e.req e.resp) i).bytes =
      i.bytes ++ es.flatMap obtained := by
    induction es generalizing i with
    | nil => simp
    | cons e es ih =>
      rw [List.foldl_cons, ih, Intake.advance_bytes, List.flatMap_cons, List.append_assoc]
  exact hfold {}

variable {i : Intake} {port : Handle} {token : Token} {α : Type}

/-! ## The read loops -/

structure ReadSpec (maxBytes : Nat) (chunks : List (List UInt8)) (o : ReadOutcome) : Prop where
  data : o.data = chunks.flatten
  bytes_read : o.bytesRead = chunks.flatten.length
  bounded : chunks.flatten.length ≤ maxBytes
  eof : o.status = .eof → chunks.getLast? = some []
  truncated : o.truncated = true ↔ o.status = .complete
  complete : o.status = .complete → chunks.flatten.length = maxBytes

theorem intake_readLocked (i : Intake) (maxBytes : Nat) :
    intake.Meets i (readLocked port maxBytes token)
      (fun i' o => ∃ chunks, i' = { i with chunks := i.chunks ++ chunks } ∧
        ReadSpec maxBytes chunks o)
      (fun _ _ => True) := by
  apply meets_readLocked intake_plain (I := fun i' acc => ∃ chunks,
    i' = { i with chunks := i.chunks ++ chunks } ∧ acc = chunks.flatten ∧ acc.length ≤ maxBytes)
  · constructor
    · exact fun _ _ _ _ hpos => hpos
    · rintro _ _ n bytes ⟨chunks, rfl, rfl, _⟩ hfits
      refine ⟨chunks ++ [bytes.1], ?_, by simp, by simpa using hfits⟩
      show { i with chunks := i.chunks ++ chunks ++ [bytes.1] } = _
      rw [List.append_assoc]
    · rintro _ _ ⟨chunks, rfl, rfl, hle⟩ hfull
      exact ⟨chunks, rfl, rfl, rfl, hle, nofun, by simp [readOutcome], fun _ => by omega⟩
    · rintro _ _ status ⟨chunks, rfl, rfl, hle⟩ hcomplete heof
      exact ⟨chunks, rfl, rfl, rfl, hle, fun h => absurd h heof, by simp [readOutcome, hcomplete],
        fun h => absurd h hcomplete⟩
    · rintro _ _ n bytes ⟨chunks, rfl, rfl, hle⟩ _ hempty
      have hflat : (chunks ++ [[]]).flatten = chunks.flatten := by simp
      refine ⟨chunks ++ [[]], ?_, hflat.symm, by rw [hflat]; rfl, by rwa [hflat], by simp,
        by simp [readOutcome], nofun⟩
      show { i with chunks := i.chunks ++ chunks ++ [bytes.1] } = _
      rw [hempty, List.append_assoc]
    · exact fun _ _ _ _ _ => trivial
  · exact ⟨[], by rw [List.append_nil], rfl, Nat.zero_le _⟩

structure UntilSpec (regex : Regex) (echoMode : EchoMode) (e : LineEnding)
    (chunks : List (List UInt8)) (o : UntilOutcome) : Prop where
  tracks : ∃ seen, Tracks regex echoMode e chunks.flatten o.matcher seen ∧
    o.matchDetails = visibleMatchDetails o.matcher seen
  bytes_read : o.bytesRead = chunks.flatten.length
  eof : o.status = .eof → chunks.getLast? = some []
  /-- After the first read the status tells whether a match is reported. -/
  agree : chunks ≠ [] → (o.status = .matched ↔ o.matchDetails.isSome)
  silent : chunks = [] → o.status ≠ .matched

/-- The invariant of the loop: when it goes on, no match is visible in what it has read. -/
structure UntilInv (regex : Regex) (echoMode : EchoMode) (e : LineEnding) (i i' : Intake)
    (m : PatternMatcher) (n : Nat) (seen : Bool) (chunks : List (List UInt8)) : Prop where
  state : i' = { i with chunks := i.chunks ++ chunks }
  tracks : Tracks regex echoMode e chunks.flatten m seen
  count : n = chunks.flatten.length
  unmatched : seen = true → chunks ≠ [] → m.isMatch = false

section Until

variable {regex : Regex} {echoMode : EchoMode} {e : LineEnding} {i' : Intake} {m : PatternMatcher}
  {n : Nat} {seen : Bool} {chunks : List (List UInt8)} {bytes : List UInt8}

theorem Intake.read_state (h : i' = { i with chunks := i.chunks ++ chunks }) :
    ({ i' with chunks := i'.chunks ++ [bytes] } : Intake) =
      { i with chunks := i.chunks ++ (chunks ++ [bytes]) } := by
  rw [h, List.append_assoc]

theorem flatten_concat (chunks : List (List UInt8)) (bytes : List UInt8) :
    (chunks ++ [bytes]).flatten = chunks.flatten ++ bytes := by simp

theorem UntilInv.read (h : UntilInv regex echoMode e i i' m n seen chunks) {m' : PatternMatcher}
    {seen' : Bool} (htracks : Tracks regex echoMode e (chunks.flatten ++ bytes) m' seen')
    (hunmatched : seen' = true → m'.isMatch = false) :
    UntilInv regex echoMode e i { i' with chunks := i'.chunks ++ [bytes] } m'
      (n + bytes.length) seen' (chunks ++ [bytes]) where
  state := Intake.read_state h.state
  tracks := by rwa [flatten_concat]
  count := by rw [flatten_concat, List.length_append, h.count]
  unmatched hseen _ := hunmatched hseen

theorem UntilInv.hit (h : UntilInv regex echoMode e i i' m n seen chunks) {m' : PatternMatcher}
    (htracks : Tracks regex echoMode e (chunks.flatten ++ bytes) m' true)
    (hmatch : m'.isMatch = true) :
    UntilSpec regex echoMode e (chunks ++ [bytes])
      ⟨.matched, n + bytes.length, m'.matchDetails, m'⟩ where
  tracks := ⟨true, by rwa [flatten_concat], rfl⟩
  bytes_read := by rw [flatten_concat, List.length_append, h.count]
  eof := nofun
  agree _ := ⟨fun _ => hmatch, fun _ => rfl⟩
  silent hempty := absurd hempty (by simp)

theorem isSome_visibleMatchDetails (m : PatternMatcher) (seen : Bool) :
    (visibleMatchDetails m seen).isSome = (seen && m.isMatch) := by
  cases seen <;> rfl

theorem UntilInv.ended (h : UntilInv regex echoMode e i i' m n seen chunks) :
    UntilSpec regex echoMode e (chunks ++ [[]])
      ⟨if seen && m.isMatch then .matched else .eof, n, visibleMatchDetails m seen, m⟩ where
  tracks := ⟨seen, by rw [flatten_concat, List.append_nil]; exact h.tracks, rfl⟩
  bytes_read := by rw [flatten_concat, List.append_nil, h.count]
  eof _ := by simp
  agree _ := by
    rw [isSome_visibleMatchDetails]
    cases seen && m.isMatch <;> simp
  silent hempty := absurd hempty (by simp)

/-- A deadline or a cancellation reports what the loop has, and after a read that is no
match. -/
theorem UntilInv.stopped (h : UntilInv regex echoMode e i i' m n seen chunks) {status : ExecStatus}
    (hmatched : status ≠ .matched) (heof : status ≠ .eof) :
    UntilSpec regex echoMode e chunks ⟨status, n, visibleMatchDetails m seen, m⟩ where
  tracks := ⟨seen, h.tracks, rfl⟩
  bytes_read := h.count
  eof hstatus := absurd hstatus heof
  agree hne := by
    rw [isSome_visibleMatchDetails]
    cases hseen : seen with
    | false => simp [hmatched]
    | true => simp [hmatched, h.unmatched hseen hne]
  silent _ := hmatched

theorem chunk_lt (bytes : {bytes : List UInt8 // bytes.length ≤ chunkLen}) :
    bytes.1.length < maxReadBuffer :=
  Nat.lt_of_le_of_lt bytes.2 (by decide)

/-- The one specification of the pattern-driven read. -/
theorem intake_readUntilLocked (i : Intake) (regex : Regex) (echoMode : EchoMode)
    (e : LineEnding) :
    intake.Meets i
      (readUntilLocked port { regex, maxBuffer := maxReadBuffer } token echoMode e)
      (fun i' o => ∃ chunks, i' = { i with chunks := i.chunks ++ chunks } ∧
        UntilSpec regex echoMode e chunks o)
      (fun _ _ => True) := by
  apply meets_readUntilLocked intake_plain
    (I := fun i' m n seen => ∃ chunks, UntilInv regex echoMode e i i' m n seen chunks)
  · constructor
    · exact fun _ _ _ _ _ => (by decide : 0 < chunkLen)
    · rintro i' m n bytes ⟨chunks, h⟩ hunmatched _
      exact ⟨_, h.read h.tracks.pushed fun _ => hunmatched⟩
    · rintro i' m n bytes ⟨chunks, h⟩ hnone _
      exact ⟨_, h.read (h.tracks.waited (chunk_lt bytes) hnone) nofun⟩
    · rintro i' m n bytes boundary ⟨chunks, h⟩ hsome hunmatched _
      exact ⟨_, h.read (h.tracks.cross (chunk_lt bytes) hsome) fun _ => hunmatched⟩
    · rintro i' m n bytes ⟨chunks, h⟩ hmatch
      exact ⟨_, Intake.read_state h.state, h.hit h.tracks.pushed hmatch⟩
    · rintro i' m n bytes boundary ⟨chunks, h⟩ hsome hmatch
      exact ⟨_, Intake.read_state h.state,
        h.hit (h.tracks.cross (chunk_lt bytes) hsome) hmatch⟩
    · rintro i' m n seen bytes ⟨chunks, h⟩ hempty
      refine ⟨chunks ++ [[]], ?_, h.ended⟩
      rw [← Intake.read_state h.state, ← hempty]
      rfl
    · rintro i' m n seen status ⟨chunks, h⟩ hmatched heof
      exact ⟨chunks, h.state, h.stopped hmatched heof⟩
    · exact fun _ _ _ _ _ _ _ => trivial
  · exact ⟨[], by rw [List.append_nil], .initial, rfl, fun _ hne => absurd rfl hne⟩

end Until

/-! ## The operations, from an empty intake -/

theorem intake_readWithCancel (id : String) (maxBytes timeoutMs : Nat) (token : Token) :
    intake.Meets {} (readWithCancel id maxBytes timeoutMs token)
      (fun i o => i.before = [] ∧ ReadSpec maxBytes i.chunks o) (fun _ _ => True) := by
  apply intake_detached.checkoutPort _ fun _ => trivial
  intro port
  apply intake_detached.withPort _ fun _ => trivial
  apply (intake_readLocked {} maxBytes).mono
  · rintro _ o ⟨chunks, rfl, h⟩
    exact ⟨rfl, h⟩
  · exact fun _ _ _ => trivial

theorem intake_drain (id : String) (maxBytes : Nat) (token : Token) :
    intake.Meets {} (drain id maxBytes token)
      (fun i o => i.before = [] ∧ ReadSpec maxBytes i.chunks o) (fun _ _ => True) :=
  intake_readWithCancel id maxBytes drainTotalMs token

def Clears (chunks : List (List UInt8)) : Option ReadOutcome → Prop
  | none => chunks = []
  | some o => ReadSpec maxReadBuffer chunks o

structure Presents (found : UntilOutcome) (o : ExecOutcome) : Prop where
  status : o.status = found.status
  output : o.output = found.matcher.intoBuffer
  bytes_read : o.bytesRead = found.bytesRead
  details : o.matchDetails = found.matchDetails
  truncated : o.truncated = decide (maxReadBuffer ≤ o.output.length)

inductive RunSpec (regex : Regex) (echoMode : EchoMode) (e : LineEnding) (i : Intake) :
    ExecOutcome → Prop where
  | unread {elapsedMs : Nat} {cleared : Option ReadOutcome} (unsent : i.flushed = false)
      (first : i.before = []) (clears : Clears i.chunks cleared) :
      RunSpec regex echoMode e i (cancelledBeforeWrite elapsedMs cleared)
  | read {o : ExecOutcome} {found : UntilOutcome} (sent : i.flushed = true)
      (clears : Clears i.before o.clearedBeforeWrite)
      (finds : UntilSpec regex echoMode e i.chunks found) (presents : Presents found o) :
      RunSpec regex echoMode e i o

theorem new_eq_ok {rx : RegexCrate} {pattern : String} {m : PatternMatcher}
    (h : PatternMatcher.new rx pattern = .ok m) :
    ∃ regex, boundedRegex rx pattern = .ok regex ∧ m = { regex, maxBuffer := maxReadBuffer } := by
  unfold PatternMatcher.new PatternMatcher.withCapacity at h
  split_ifs at h
  cases hregex : boundedRegex rx pattern with
  | error reason =>
    rw [hregex] at h
    cases h
  | ok regex =>
    rw [hregex] at h
    cases h
    exact ⟨regex, rfl, rfl⟩

theorem intake_readUntilWithCancel (rx : RegexCrate) (id pattern : String) (timeoutMs : Nat)
    (token : Token) :
    intake.Meets {} (readUntilWithCancel rx id pattern timeoutMs token)
      (fun i o => i.before = [] ∧ ∃ regex, boundedRegex rx pattern = .ok regex ∧
        ∃ found, UntilSpec regex .unknown .none i.chunks found ∧ Presents found o ∧
          o.clearedBeforeWrite = none)
      (fun _ _ => True) := by
  apply intake_detached.checkoutPort _ fun _ => trivial
  intro port
  cases hm : PatternMatcher.new rx pattern with
  | error e => exact trivial
  | ok m =>
    obtain ⟨regex, hregex, rfl⟩ := new_eq_ok hm
    apply intake_detached.withPort _ fun _ => trivial
    apply Meets.bind (intake_readUntilLocked {} regex .unknown .none)
    rintro _ found ⟨chunks, rfl, h⟩
    apply meets_elapsedMs intake_plain
    exact fun _ => ⟨rfl, regex, hregex, found, h, ⟨rfl, rfl, rfl, rfl, rfl⟩, rfl⟩

theorem intake_clearBefore (port : Handle) (options : ExecOptions) (token : Token) :
    intake.Meets {} (clearBefore port options token)
      (fun i cleared => i.before = [] ∧ i.flushed = false ∧ Clears i.chunks cleared)
      (fun _ _ => True) := by
  unfold clearBefore
  cases options.clearBeforeWrite with
  | false => exact ⟨rfl, rfl, rfl⟩
  | true =>
    apply Meets.bind (intake_readLocked {} maxReadBuffer)
    rintro _ o ⟨chunks, rfl, h⟩
    exact ⟨rfl, rfl, h⟩

theorem intake_execCleared (port : Handle) (command : List UInt8) (regex : Regex)
    (timeoutMs : Nat) (options : ExecOptions) (token : Token) {i : Intake}
    {cleared : Option ReadOutcome} (hfirst : i.before = []) (hflushed : i.flushed = false)
    (hcleared : Clears i.chunks cleared) :
    intake.Meets i
      (execCleared port command { regex, maxBuffer := maxReadBuffer } timeoutMs options token
        cleared)
      (RunSpec regex options.echoMode options.lineEnding) (fun _ _ => True) := by
  apply meets_query (intake_plain.isCancelled i token)
  intro cancelled
  cases cancelled with
  | true =>
    apply meets_elapsedMs intake_plain
    exact fun _ => .unread hflushed hfirst hcleared
  | false =>
    apply Meets.bind (Q := fun i' _ => i' = i)
    · apply meets_writeAllDeadline intake_plain (I := fun i' _ => i' = i)
      · exact fun _ _ _ _ => trivial
      · exact fun _ _ _ _ h => h
      · exact fun _ _ _ _ _ => trivial
      · rfl
    · rintro i _ rfl
      apply Meets.bind (Q := fun i' _ => i' = (⟨i.chunks, [], true⟩ : Intake))
      · apply meets_flushDeadline intake_plain trivial _ fun _ _ => trivial
        show (⟨i.before ++ i.chunks, [], true⟩ : Intake) = _
        rw [hfirst, List.nil_append]
      · rintro _ _ rfl
        apply Meets.bind (intake_readUntilLocked _ regex options.echoMode options.lineEnding)
        rintro _ found ⟨chunks, rfl, h⟩
        apply meets_elapsedMs intake_plain
        exact fun _ => .read rfl hcleared h ⟨rfl, rfl, rfl, rfl, rfl⟩

theorem intake_execWithOptions (rx : RegexCrate) (id : String) (command : List UInt8)
    (expect : String) (timeoutMs : Nat) (options : ExecOptions) (token : Token) :
    intake.Meets {} (execWithOptions rx id command expect timeoutMs options token)
      (fun i o => ∃ regex, boundedRegex rx expect = .ok regex ∧
        RunSpec regex options.echoMode options.lineEnding i o)
      (fun _ _ => True) := by
  unfold execWithOptions
  split
  · exact trivial
  · apply intake_detached.checkoutPort _ fun _ => trivial
    intro port
    cases hm : PatternMatcher.new rx expect with
    | error e => exact trivial
    | ok m =>
      obtain ⟨regex, hregex, rfl⟩ := new_eq_ok hm
      rw [meets_bind, meets_ofResult]
      apply meets_query (intake_plain.isCancelled {} token)
      intro cancelled
      cases cancelled with
      | true => exact ⟨regex, hregex, .unread rfl rfl rfl⟩
      | false =>
        apply intake_detached.withPort _ fun _ => trivial
        apply Meets.bind (intake_clearBefore port options token)
        intro i cleared ⟨hfirst, hflushed, hcleared⟩
        apply (intake_execCleared port command regex timeoutMs options token hfirst hflushed
          hcleared).mono
        · exact fun _ _ h => ⟨regex, hregex, h⟩
        · exact fun _ _ _ => trivial

theorem intake_writeWithCancel (id : String) (data : List UInt8) (token : Token) :
    intake.Meets {} (writeWithCancel id data token) (fun _ _ => True) (fun _ _ => True) := by
  unfold writeWithCancel
  rw [meets_bind]
  refine meets_checkoutPortAndTimeout trivial (fun x port _ => ?_) (fun _ _ => trivial) trivial
  apply intake_detached.withPort _ fun _ => trivial
  apply Meets.bind (Q := fun _ _ => True)
  · apply meets_writeAllDeadline intake_plain (I := fun _ _ => True)
    · exact fun _ _ _ _ => trivial
    · exact fun _ _ _ _ _ => trivial
    · exact fun _ _ _ _ _ => trivial
    · trivial
  · intro i _ _
    apply Meets.bind (Q := fun _ _ => True)
    · exact meets_flushDeadline intake_plain trivial trivial fun _ _ => trivial
    · exact fun _ _ _ => trivial

theorem intake_openWithConsoleAndPolicy (env : Environment) (args : SessionArgs) :
    intake.Meets {} (openWithConsoleAndPolicy env args) (fun _ _ => True) (fun _ _ => True) := by
  unfold openWithConsoleAndPolicy
  split
  · rw [meets_bind, meets_ask]
    refine ⟨trivial, fun reserved => ?_⟩
    cases reserved with
    | error e => trivial
    | ok id =>
      refine ⟨trivial, fun result => ⟨trivial, fun completed => ?_⟩⟩
      cases completed <;> trivial
  · trivial

theorem intake_closeWithTimeout (id : String) (timeoutMs : Nat) :
    intake.Meets {} (closeWithTimeout id timeoutMs) (fun _ _ => True) (fun _ _ => True) := by
  unfold closeWithTimeout
  rw [meets_bind, meets_ask]
  refine ⟨trivial, fun begun => ?_⟩
  rcases begun with e | (none | port)
  · trivial
  · exact ⟨trivial, fun _ => trivial⟩
  · show intake.Meets {} (Fallible.attempt (lockPort port timeoutMs .never) >>= _) _ _
    rw [meets_bind, meets_attempt]
    apply meets_lockPort intake_plain trivial
    · exact ⟨trivial, fun _ => ⟨trivial, fun _ => trivial⟩⟩
    · exact ⟨trivial, fun _ => trivial⟩
    · exact ⟨trivial, fun _ => trivial⟩

/-! ## Accounts of the bytes read -/

def clearedBytes (o : ExecOutcome) : Nat := (o.clearedBeforeWrite.map (·.bytesRead)).getD 0

structure RunAccount (segment : List UInt8) (o : ExecOutcome) : Prop where
  count : segment.length = clearedBytes o + o.bytesRead
  cleared : ∀ r, o.clearedBeforeWrite = some r → r.data = segment.take (clearedBytes o)
  output : o.output = (segment.drop (clearedBytes o)).rtake maxReadBuffer
  whole : o.truncated = false → o.output = segment.drop (clearedBytes o)

section Account

variable {i : Intake} {o : ExecOutcome} {chunks : List (List UInt8)}

theorem Clears.clearedBytes_eq (h : Clears chunks o.clearedBeforeWrite) :
    clearedBytes o = chunks.flatten.length ∧
      ∀ r, o.clearedBeforeWrite = some r → r.data = chunks.flatten := by
  unfold clearedBytes
  cases hr : o.clearedBeforeWrite with
  | none =>
    rw [hr] at h
    obtain rfl : chunks = [] := h
    exact ⟨rfl, nofun⟩
  | some r =>
    rw [hr] at h
    have hread : ReadSpec maxReadBuffer chunks r := h
    refine ⟨hread.bytes_read, ?_⟩
    rintro _ ⟨⟩
    exact hread.data

/-- The output of the read phase is all of its bytes, unless it reports that they may be
more. -/
theorem Presents.account {regex : Regex} {echoMode : EchoMode} {e : LineEnding}
    {found : UntilOutcome} (hpresents : Presents found o)
    (hclears : Clears i.before o.clearedBeforeWrite)
    (hfinds : UntilSpec regex echoMode e i.chunks found) :
    RunAccount i.bytes o := by
  obtain ⟨hcleared, hdata⟩ := hclears.clearedBytes_eq
  obtain ⟨seen, htracks, _⟩ := hfinds.tracks
  have hbytes : i.bytes = i.before.flatten ++ i.chunks.flatten := List.flatten_append
  have houtput : o.output = i.chunks.flatten.rtake maxReadBuffer :=
    hpresents.output.trans htracks.live
  refine ⟨?_, fun r hr => ?_, ?_, fun htruncated => ?_⟩
  · rw [hcleared, hpresents.bytes_read, hfinds.bytes_read, hbytes, List.length_append]
  · rw [hdata r hr, hcleared, hbytes, List.take_left']
    rfl
  · rw [houtput, hcleared, hbytes, List.drop_left']
    rfl
  · rw [hcleared, hbytes, List.drop_left' rfl, houtput]
    apply Sliding.rtake_of_le
    have hshort := hpresents.truncated
    rw [htruncated, houtput, Sliding.rtake_length] at hshort
    have hlt := of_decide_eq_false hshort.symm
    omega

theorem RunSpec.account {regex : Regex} {echoMode : EchoMode} {e : LineEnding}
    (h : RunSpec regex echoMode e i o) : RunAccount i.bytes o := by
  cases h with
  | read _ hclears hfinds hpresents => exact hpresents.account hclears hfinds
  | @unread elapsedMs cleared _ hfirst hclears =>
    have hbytes : i.bytes = i.chunks.flatten := by
      rw [Intake.bytes, hfirst]
      rfl
    have hcleared := Clears.clearedBytes_eq (o := cancelledBeforeWrite elapsedMs cleared) hclears
    refine ⟨?_, fun r hr => ?_, ?_, fun _ => ?_⟩
    · rw [hcleared.1, hbytes]
      rfl
    · rw [hcleared.2 r hr, hcleared.1, hbytes, List.take_length]
    · rw [hcleared.1, hbytes, List.drop_length, List.rtake_nil]
      rfl
    · rw [hcleared.1, hbytes, List.drop_length]
      rfl

end Account

end McpSerial
