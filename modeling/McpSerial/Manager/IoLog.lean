import McpSerial.Manager.Calls

/-! What an operation has written, flushed and read so far. -/

namespace McpSerial
open Interaction Interaction.Discipline
open Interaction.Fallible (attempt)

structure IoLog where
  /-- What the first write that was taken handed over. -/
  payload : Option (List UInt8) := none
  written : List UInt8 := []
  /-- A flush came after the last byte that was written. -/
  flushed : Bool := false
  consumed : List UInt8 := []

namespace IoLog

/-- The first write hands over a whole payload, one that satisfies `P`, and each later
write what is left of it. -/
def admits (P : List UInt8 → Prop) (l : IoLog) : Request → Prop
  | .write _ data _ =>
    data ≠ [] ∧ (l.payload = none → P data) ∧ ∀ p, l.payload = some p → l.written ++ data = p
  | _ => True

def advance (l : IoLog) : (r : Request) → Response r → IoLog
  | .write _ data _, .ready (.ok n) =>
    { l with
      payload := some (l.payload.getD data)
      written := l.written ++ data.take n.1
      flushed := false }
  | .flush .., .ready (.ok _) => { l with flushed := true }
  | .read .., .ready (.ok bytes) => { l with consumed := l.consumed ++ bytes.1 }
  | _, _ => l

def run (es : List Ask) : IoLog := es.foldl (fun l e => l.advance e.req e.resp) {}

structure Sends (data : List UInt8) (l : IoLog) : Prop where
  written_prefix : l.written <+: data
  payload_eq : ∀ p, l.payload = some p → p = data
  unwritten : l.payload = none → l.written = []

/-- An error that is no side effect leaves a log on which nothing happened. -/
def FailsClean (l : IoLog) (e : SerialError) : Prop :=
  e.possibleSerialSideEffect = false → l.written = [] ∧ l.consumed = []

end IoLog

abbrev ioLog (P : List UInt8 → Prop) : Discipline Request Response :=
  ⟨IoLog, IoLog.admits P, IoLog.advance⟩

variable {P : List UInt8 → Prop}

theorem ioLog_plain : Plain (ioLog P) := by
  constructor <;> intros <;> first | exact ⟨trivial, fun _ => rfl⟩ | rfl

theorem ioLog_detached : Detached (ioLog P) where
  toPlain := ioLog_plain
  get _ _ := ⟨trivial, fun _ => rfl⟩
  lock _ _ _ := ⟨trivial, fun _ => rfl⟩
  unlock _ _ := ⟨trivial, fun _ => rfl⟩

def accepted : Ask → List UInt8
  | ⟨.write _ data _, .ready (.ok n)⟩ => data.take n.1
  | _ => []

def obtained : Ask → List UInt8
  | ⟨.read .., .ready (.ok bytes)⟩ => bytes.1
  | _ => []

theorem ioLog_after_written (l : IoLog) (es : List Ask) :
    IoLog.written ((ioLog P).after l es) = l.written ++ es.flatMap accepted := by
  induction es generalizing l with
  | nil => simp
  | cons e es ih =>
    have hstep : ((ioLog P).advance l e.req e.resp : IoLog).written = l.written ++ accepted e := by
      obtain ⟨r, x⟩ := e
      cases r <;> (try exact (List.append_nil _).symm) <;> rcases x with (_ | _) | _ | _ <;>
        first | rfl | exact (List.append_nil _).symm
    rw [after_cons, ih, hstep, List.flatMap_cons, List.append_assoc]

/-- What is written is a prefix of the payload, and the payload satisfies `P`. -/
structure IoLog.Coherent (P : List UInt8 → Prop) (l : IoLog) : Prop where
  payload : ∀ p, l.payload = some p → P p ∧ l.written <+: p
  unwritten : l.payload = none → l.written = []

theorem IoLog.Coherent.advance {l : IoLog} {r : Request} (h : l.Coherent P) (hr : l.admits P r)
    (x : Response r) : IoLog.Coherent P (l.advance r x) := by
  cases r with
  | write port data token =>
    rcases x with (e | n) | _ | _
    · exact h
    · constructor
      · intro p hp
        have hp' : l.payload.getD data = p := Option.some.inj hp
        show P p ∧ l.written ++ data.take n.1 <+: p
        cases hl : l.payload with
        | none =>
          rw [hl] at hp'
          obtain rfl : data = p := hp'
          rw [h.unwritten hl]
          exact ⟨hr.2.1 hl, List.take_prefix ..⟩
        | some q =>
          rw [hl] at hp'
          obtain rfl : q = p := hp'
          rw [← hr.2.2 q hl]
          refine ⟨hr.2.2 q hl ▸ (h.payload q hl).1, ?_⟩
          exact (List.prefix_append_right_inj _).mpr (List.take_prefix ..)
      · nofun
    · exact h
    · exact h
  | flush => rcases x with (_ | _) | _ | _ <;> exact ⟨h.payload, h.unwritten⟩
  | read => rcases x with (_ | _) | _ | _ <;> exact ⟨h.payload, h.unwritten⟩
  | _ => exact h

/-- At any point of a call that follows the log, finished or not. -/
theorem ioLog_coherent {α : Type} {p q : Program Request Response α} {Q : IoLog → α → Prop}
    {es : List Ask} (h : (ioLog P).Follows {} p Q) (k : Runs p es q) :
    IoLog.Coherent P ((ioLog P).after {} es) :=
  h.invariant k ⟨nofun, fun _ => rfl⟩ fun _ _ x hl hr => IoLog.Coherent.advance hl hr x

variable {l : IoLog} {port : Handle} {data : List UInt8} {timeoutMs : Nat} {token : Token}

/-! ## The loops -/

/-- The invariant of the write loop: what is written and what is left make `data`. -/
structure WriteInv (data : List UInt8) (l₀ l : IoLog) (left : List UInt8) : Prop where
  split : l.written ++ left = data
  payload_eq : ∀ p, l.payload = some p → p = data
  unwritten : l.payload = none → l.written = []
  consumed : l.consumed = l₀.consumed

theorem WriteInv.sends {l₀ : IoLog} {left : List UInt8} (h : WriteInv data l₀ l left) :
    IoLog.Sends data l where
  written_prefix := ⟨left, h.split⟩
  payload_eq := h.payload_eq
  unwritten := h.unwritten

theorem ioLog_writeAllDeadline (hP : P data) (hnone : l.payload = none) (hempty : l.written = []) :
    (ioLog P).Meets l (writeAllDeadline port data timeoutMs token)
      (fun l' _ => WriteInv data l l' [])
      (fun l' e => IoLog.Sends data l' ∧ l'.consumed = l.consumed ∧
        e.possibleSerialSideEffect) := by
  apply meets_writeAllDeadline ioLog_plain (I := WriteInv data l)
  · intro l' b left h
    refine ⟨List.cons_ne_nil b left, fun hfirst => ?_, fun p hp => ?_⟩
    · have hsplit := h.split
      rw [h.unwritten hfirst, List.nil_append] at hsplit
      rw [hsplit]
      exact hP
    · rw [h.payload_eq p hp]
      exact h.split
  · intro l' b left n h
    constructor
    · show (l'.written ++ (b :: left).take n.1) ++ (b :: left).drop n.1 = data
      rw [List.append_assoc, List.take_append_drop, h.split]
    · intro p hp
      have hp' : l'.payload.getD (b :: left) = p := Option.some.inj hp
      cases hl : l'.payload with
      | none =>
        have hsplit := h.split
        rw [h.unwritten hl, List.nil_append] at hsplit
        rw [hl] at hp'
        exact hp'.symm.trans hsplit
      | some q =>
        rw [hl] at hp'
        exact hp'.symm.trans (h.payload_eq q hl)
    · intro hp
      cases hp
    · exact h.consumed
  · exact fun l' left e h he => ⟨h.sends, h.consumed, he⟩
  · exact ⟨by rw [hempty]; rfl, by rw [hnone]; nofun, fun _ => hempty, rfl⟩

theorem ioLog_readLocked (maxBytes : Nat) :
    (ioLog P).Meets l (readLocked port maxBytes token)
      (fun l' o => l' = { l with consumed := l.consumed ++ o.data } ∧ o.bytesRead = o.data.length)
      (fun l' e => l'.payload = l.payload ∧ l'.written = l.written ∧
        e.possibleSerialSideEffect) := by
  apply meets_readLocked ioLog_plain
    (I := fun l' acc => l' = { l with consumed := l.consumed ++ acc })
  · apply ReadRule.of_got
    · exact fun _ _ _ _ => trivial
    · rintro _ acc n bytes rfl
      show { l with consumed := l.consumed ++ acc ++ bytes.1 } = _
      rw [List.append_assoc]
    · exact fun _ _ _ _ h => ⟨h, rfl⟩
    · rintro _ acc e rfl he
      exact ⟨rfl, rfl, he⟩
  · rw [List.append_nil]

theorem ioLog_readUntilLocked (m : PatternMatcher) (echoMode : EchoMode)
    (lineEnding : LineEnding) :
    (ioLog P).Meets l (readUntilLocked port m token echoMode lineEnding)
      (fun l' o => ∃ bytes, l' = { l with consumed := l.consumed ++ bytes } ∧
        o.bytesRead = bytes.length)
      (fun l' e => l'.payload = l.payload ∧ l'.written = l.written ∧
        e.possibleSerialSideEffect) := by
  apply meets_readUntilLocked ioLog_plain (UntilRule.of_got
    (J := fun l' n => ∃ acc, l' = { l with consumed := l.consumed ++ acc } ∧ n = acc.length)
    ?_ ?_ ?_)
  · exact ⟨[], by rw [List.append_nil], rfl⟩
  · exact fun _ _ _ => trivial
  · rintro _ _ bytes ⟨acc, rfl, rfl⟩
    refine ⟨acc ++ bytes.1, ?_, List.length_append.symm⟩
    show { l with consumed := l.consumed ++ acc ++ bytes.1 } = _
    rw [List.append_assoc]
  · rintro _ n e ⟨acc, rfl, _⟩ he
    exact ⟨rfl, rfl, he⟩

/-! ## The operations, from an empty log -/

variable {α : Type} {id : String}

theorem IoLog.Sends.empty (data : List UInt8) : IoLog.Sends data {} where
  written_prefix := List.nil_prefix
  payload_eq := nofun
  unwritten _ := rfl

theorem IoLog.Sends.of_eq {l' : IoLog} (h : IoLog.Sends data l) (hpayload : l'.payload = l.payload)
    (hwritten : l'.written = l.written) : IoLog.Sends data l' where
  written_prefix := by
    rw [hwritten]
    exact h.written_prefix
  payload_eq := by
    rw [hpayload]
    exact h.payload_eq
  unwritten := by
    rw [hpayload, hwritten]
    exact h.unwritten

theorem IoLog.FailsClean.empty (e : SerialError) : IoLog.FailsClean {} e := fun _ => ⟨rfl, rfl⟩

theorem IoLog.FailsClean.of_sideEffect {e : SerialError} (he : e.possibleSerialSideEffect) :
    IoLog.FailsClean l e := by
  intro he'
  rw [he] at he'
  cases he'

/-- A write that succeeds has written and flushed its data; one that fails has
written a prefix, and nothing at all unless the error may have had a side effect. -/
theorem ioLog_writeWithCancel (id : String) (data : List UInt8) (token : Token) (hP : P data) :
    (ioLog P).Meets {} (writeWithCancel id data token)
      (fun l n => IoLog.Sends data l ∧ l.written = data ∧ l.flushed = true ∧ l.consumed = [] ∧
        n = data.length)
      (fun l e => IoLog.Sends data l ∧ l.consumed = [] ∧ l.FailsClean e) := by
  have hempty (e : SerialError) : IoLog.Sends data {} ∧ ([] : List UInt8) = [] ∧
      IoLog.FailsClean {} e := ⟨.empty data, rfl, .empty e⟩
  unfold writeWithCancel
  rw [meets_bind]
  refine meets_checkoutPortAndTimeout trivial (fun x port _ => ?_) (fun _ _ => hempty _) (hempty _)
  apply ioLog_detached.withPort _ hempty
  apply Meets.bind ((ioLog_writeAllDeadline (l := {}) hP rfl rfl).mono (fun _ _ h => h) ?_)
  · intro l _ h
    apply Meets.bind (Q := fun l' _ => l' = { l with flushed := true })
    · apply meets_flushDeadline ioLog_plain trivial rfl
      exact fun e he => ⟨h.sends, h.consumed, .of_sideEffect he⟩
    · rintro _ _ rfl
      have hwritten : l.written = data := by simpa using h.split
      exact ⟨h.sends.of_eq rfl rfl, hwritten, rfl, h.consumed, rfl⟩
  · exact fun l e ⟨hsends, hconsumed, he⟩ => ⟨hsends, hconsumed, .of_sideEffect he⟩

def ReadsOnly (l : IoLog) : Prop := l.payload = none ∧ l.written = []

theorem ReadsOnly.sends (hl : ReadsOnly l) (data : List UInt8) : IoLog.Sends data l where
  written_prefix := by
    rw [hl.2]
    exact List.nil_prefix
  payload_eq := by
    rw [hl.1]
    nofun
  unwritten _ := hl.2

theorem ioLog_readWithCancel (id : String) (maxBytes timeoutMs : Nat) (token : Token) :
    (ioLog P).Meets {} (readWithCancel id maxBytes timeoutMs token)
      (fun l o => ReadsOnly l ∧ o.data = l.consumed ∧ o.bytesRead = o.data.length)
      (fun l e => ReadsOnly l ∧ l.FailsClean e) := by
  have hempty (e : SerialError) : ReadsOnly {} ∧ IoLog.FailsClean {} e := ⟨⟨rfl, rfl⟩, .empty e⟩
  apply ioLog_detached.checkoutPort _ hempty
  intro port
  apply ioLog_detached.withPort _ hempty
  apply (ioLog_readLocked maxBytes).mono
  · rintro _ o ⟨rfl, hread⟩
    exact ⟨⟨rfl, rfl⟩, rfl, hread⟩
  · exact fun l e ⟨hpayload, hwritten, he⟩ => ⟨⟨hpayload, hwritten⟩, .of_sideEffect he⟩

theorem ioLog_drain (id : String) (maxBytes : Nat) (token : Token) :
    (ioLog P).Meets {} (drain id maxBytes token)
      (fun l o => ReadsOnly l ∧ o.data = l.consumed ∧ o.bytesRead = o.data.length)
      (fun l e => ReadsOnly l ∧ l.FailsClean e) :=
  ioLog_readWithCancel id maxBytes drainTotalMs token

theorem ioLog_readUntilWithCancel (rx : RegexCrate) (id pattern : String) (timeoutMs : Nat)
    (token : Token) :
    (ioLog P).Meets {} (readUntilWithCancel rx id pattern timeoutMs token)
      (fun l o => ReadsOnly l ∧ o.bytesRead = l.consumed.length ∧ o.commandWritten = false)
      (fun l e => ReadsOnly l ∧ l.FailsClean e) := by
  have hempty (e : SerialError) : ReadsOnly {} ∧ IoLog.FailsClean {} e := ⟨⟨rfl, rfl⟩, .empty e⟩
  apply ioLog_detached.checkoutPort _ hempty
  intro port
  cases PatternMatcher.new rx pattern with
  | error e => exact hempty e
  | ok m =>
    apply ioLog_detached.withPort _ hempty
    apply Meets.bind ((ioLog_readUntilLocked m .unknown .none).mono (fun _ _ h => h) ?_)
    · rintro l o ⟨bytes, rfl, hread⟩
      exact ⟨trivial, fun _ => ⟨⟨rfl, rfl⟩, hread, rfl⟩⟩
    · exact fun l e ⟨hpayload, hwritten, he⟩ => ⟨⟨hpayload, hwritten⟩, .of_sideEffect he⟩

structure ExecLog (command : List UInt8) (l : IoLog) (o : ExecOutcome) : Prop where
  sends : IoLog.Sends command l
  written : o.commandWritten = true →
    l.written = command ∧ l.flushed = true ∧ o.bytesWritten = command.length
  unwritten : o.commandWritten = false → l.written = []

theorem ExecLog.cancelled (command : List UInt8) (hl : ReadsOnly l) (elapsedMs : Nat)
    (cleared : Option ReadOutcome) :
    ExecLog command l (cancelledBeforeWrite elapsedMs cleared) where
  sends := hl.sends command
  written := nofun
  unwritten _ := hl.2

theorem ioLog_clearBefore (options : ExecOptions) :
    (ioLog P).Meets {} (clearBefore port options token) (fun l _ => ReadsOnly l)
      (fun l e => ReadsOnly l ∧ e.possibleSerialSideEffect) := by
  unfold clearBefore
  cases options.clearBeforeWrite with
  | false => exact ⟨rfl, rfl⟩
  | true =>
    apply Meets.bind ((ioLog_readLocked maxReadBuffer).mono (fun _ _ h => h) ?_)
    · rintro _ o ⟨rfl, _⟩
      exact ⟨rfl, rfl⟩
    · exact fun l e ⟨hpayload, hwritten, he⟩ => ⟨⟨hpayload, hwritten⟩, he⟩

theorem ioLog_execCleared (command : List UInt8) (m : PatternMatcher) (options : ExecOptions)
    (cleared : Option ReadOutcome) (hP : P command) (hl : ReadsOnly l) :
    (ioLog P).Meets l (execCleared port command m timeoutMs options token cleared)
      (ExecLog command) (fun l e => IoLog.Sends command l ∧ e.possibleSerialSideEffect) := by
  apply meets_query (ioLog_plain.isCancelled l token)
  intro cancelled
  cases cancelled with
  | true => exact ⟨trivial, fun _ => .cancelled command hl ..⟩
  | false =>
    apply Meets.bind ((ioLog_writeAllDeadline hP hl.1 hl.2).mono (fun _ _ h => h) ?_)
    · intro l₁ _ h₁
      apply Meets.bind (Q := fun l' _ => l' = { l₁ with flushed := true })
      · apply meets_flushDeadline ioLog_plain trivial rfl
        exact fun e he => ⟨h₁.sends, he⟩
      · rintro _ _ rfl
        have hwritten : l₁.written = command := by simpa using h₁.split
        apply Meets.bind ((ioLog_readUntilLocked m options.echoMode options.lineEnding).mono
          (fun _ _ h => h) ?_)
        · rintro _ o ⟨bytes, rfl, _⟩
          exact ⟨trivial, fun _ => ⟨h₁.sends.of_eq rfl rfl, fun _ => ⟨hwritten, rfl, rfl⟩, nofun⟩⟩
        · exact fun l₂ e ⟨hpayload, hwritten₂, he⟩ => ⟨h₁.sends.of_eq hpayload hwritten₂, he⟩
    · exact fun l e ⟨hsends, _, he⟩ => ⟨hsends, he⟩

theorem ioLog_execWithOptions (rx : RegexCrate) (id : String) (command : List UInt8)
    (expect : String) (timeoutMs : Nat) (options : ExecOptions) (token : Token) (hP : P command) :
    (ioLog P).Meets {} (execWithOptions rx id command expect timeoutMs options token)
      (ExecLog command) (fun l e => IoLog.Sends command l ∧ l.FailsClean e) := by
  have hempty (e : SerialError) : IoLog.Sends command {} ∧ IoLog.FailsClean {} e :=
    ⟨.empty command, .empty e⟩
  unfold execWithOptions
  split
  · exact hempty _
  · apply ioLog_detached.checkoutPort _ hempty
    intro port
    cases PatternMatcher.new rx expect with
    | error e => exact hempty e
    | ok m =>
      rw [meets_bind, meets_ofResult]
      apply meets_query (ioLog_plain.isCancelled {} token)
      intro cancelled
      cases cancelled with
      | true => exact ExecLog.cancelled command ⟨rfl, rfl⟩ 0 none
      | false =>
        apply ioLog_detached.withPort _ hempty
        apply Meets.bind ((ioLog_clearBefore options).mono (fun _ _ h => h) ?_)
        · intro l cleared hl
          exact (ioLog_execCleared command m options cleared hP hl).mono (fun _ _ h => h)
            fun l e ⟨hsends, he⟩ => ⟨hsends, .of_sideEffect he⟩
        · exact fun l e ⟨hl, he⟩ => ⟨hl.sends command, .of_sideEffect he⟩

theorem ioLog_openWithConsoleAndPolicy (env : Environment) (args : SessionArgs) :
    (ioLog P).Meets {} (openWithConsoleAndPolicy env args) (fun l _ => l = {})
      fun l _ => l = {} := by
  unfold openWithConsoleAndPolicy
  split
  · rw [meets_bind, meets_ask]
    refine ⟨trivial, fun reserved => ?_⟩
    cases reserved with
    | error e => rfl
    | ok id =>
      refine ⟨trivial, fun result => ⟨trivial, fun completed => ?_⟩⟩
      cases completed <;> rfl
  · rfl

theorem ioLog_closeWithTimeout (id : String) (timeoutMs : Nat) :
    (ioLog P).Meets {} (closeWithTimeout id timeoutMs) (fun l _ => l = {}) fun l _ => l = {} := by
  unfold closeWithTimeout
  rw [meets_bind, meets_ask]
  refine ⟨trivial, fun begun => ?_⟩
  rcases begun with e | (none | port)
  · rfl
  · exact ⟨trivial, fun _ => rfl⟩
  · show (ioLog P).Meets {} (attempt (lockPort port timeoutMs .never) >>= _) _ _
    rw [meets_bind, meets_attempt]
    apply meets_lockPort ioLog_plain trivial
    · exact ⟨trivial, fun _ => ⟨trivial, fun _ => rfl⟩⟩
    · exact ⟨trivial, fun _ => rfl⟩
    · exact ⟨trivial, fun _ => rfl⟩

/-! ## Calls -/

def ManagerCall.payload : ManagerCall → List UInt8
  | .write _ data _ => data
  | .exec _ command _ _ _ _ => command
  | _ => []

/-- What the result of a call says about its log. -/
def Reports (payload : List UInt8) (l : IoLog) : Except SerialError ManagerResult → Prop
  | .ok (.written n) => l.written = payload ∧ l.flushed = true ∧ n = payload.length
  | .ok (.ran o) =>
    (o.commandWritten = true →
      l.written = payload ∧ l.flushed = true ∧ o.bytesWritten = payload.length) ∧
    (o.commandWritten = false → l.written = [])
  | .ok _ => l.written = []
  | .error e => l.FailsClean e

theorem managerCode_ioLog (env : Environment) (rx : RegexCrate) (call : ManagerCall) :
    (ioLog (· = call.payload)).Follows {} (managerCode env rx call) (Reports call.payload) := by
  have hmap {β : Type} {p : Op β} {f : β → ManagerResult}
      (h : (ioLog (· = call.payload)).Meets {} p
        (fun l b => Reports call.payload l (.ok (f b))) fun l e => IoLog.FailsClean l e) :
      (ioLog (· = call.payload)).Follows {} (do return f (← p) : Op ManagerResult).run
        (Reports call.payload) := by
    apply Follows.mono (Q := either (fun l a => Reports call.payload l (.ok a))
      (fun l e => IoLog.FailsClean l e))
    · exact meets_bind.mpr h
    · intro l result hl
      cases result with
      | ok a => exact hl
      | error e => exact hl
  have hempty (l : IoLog) (e : SerialError) (hl : l = {}) : l.FailsClean e := hl ▸ .empty e
  cases call with
  | «open» args =>
    apply hmap
    exact (ioLog_openWithConsoleAndPolicy env args).mono (fun _ _ hl => hl ▸ rfl) hempty
  | close id timeoutMs =>
    apply hmap (f := fun _ => .closed)
    exact (ioLog_closeWithTimeout id timeoutMs).mono (fun _ _ hl => hl ▸ rfl) hempty
  | write id data token =>
    apply hmap
    apply (ioLog_writeWithCancel (P := (· = data)) id data token rfl).mono
    · exact fun l n h => ⟨h.2.1, h.2.2.1, h.2.2.2.2⟩
    · exact fun l e h => h.2.2
  | read id maxBytes timeoutMs token =>
    apply hmap
    exact (ioLog_readWithCancel id maxBytes timeoutMs token).mono (fun l o h => h.1.2)
      fun l e h => h.2
  | readUntil id pattern timeoutMs token =>
    apply hmap
    apply (ioLog_readUntilWithCancel rx id pattern timeoutMs token).mono
    · intro l o h
      exact ⟨fun hwritten => absurd hwritten (by rw [h.2.2]; nofun), fun _ => h.1.2⟩
    · exact fun l e h => h.2
  | drain id maxBytes token =>
    apply hmap
    exact (ioLog_drain id maxBytes token).mono (fun l o h => h.1.2) fun l e h => h.2
  | clearInput id maxBytes token =>
    apply hmap
    exact (ioLog_drain id maxBytes token).mono (fun l o h => h.1.2) fun l e h => h.2
  | exec id command expect timeoutMs options token =>
    apply hmap
    apply (ioLog_execWithOptions (P := (· = command)) rx id command expect timeoutMs options token
      rfl).mono
    · exact fun l o h => ⟨h.written, h.unwritten⟩
    · exact fun l e h => h.2

end McpSerial
