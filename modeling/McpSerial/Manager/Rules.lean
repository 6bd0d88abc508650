import McpSerial.Manager.Operations

/-! What the operations of the manager ask, as rules for any discipline that only
successful answers move. A loop has an invariant rule. -/

namespace McpSerial
open Interaction Interaction.Discipline

/-- Queries other than a lookup are free, and a failed lock, read, write or flush
leaves the state as it was. -/
structure Plain (D : Discipline Request Response) : Prop where
  values : ∀ s, D.admits s .values ∧ ∀ x, D.advance s .values x = s
  timeLeft : ∀ s, D.admits s .timeLeft ∧ ∀ x, D.advance s .timeLeft x = s
  turns : ∀ s, D.admits s .turns ∧ ∀ x, D.advance s .turns x = s
  elapsedMs : ∀ s, D.admits s .elapsedMs ∧ ∀ x, D.advance s .elapsedMs x = s
  isCancelled : ∀ s token, D.admits s (.isCancelled token) ∧
    ∀ x, D.advance s (.isCancelled token) x = s
  cancelPicked : ∀ s token, D.admits s (.cancelPicked token) ∧
    ∀ x, D.advance s (.cancelPicked token) x = s
  availablePorts : ∀ s, D.admits s .availablePorts ∧ ∀ x, D.advance s .availablePorts x = s
  canonicalize : ∀ s path, D.admits s (.canonicalize path) ∧
    ∀ x, D.advance s (.canonicalize path) x = s
  lock_elapsed : ∀ s port token, D.advance s (.lock port token) .elapsed = s
  lock_cancelled : ∀ s port token, D.advance s (.lock port token) .cancelled = s
  write_elapsed : ∀ s port data token, D.advance s (.write port data token) .elapsed = s
  write_cancelled : ∀ s port data token, D.advance s (.write port data token) .cancelled = s
  write_error : ∀ s port data token e,
    D.advance s (.write port data token) (.ready (.error e)) = s
  flush_elapsed : ∀ s port token, D.advance s (.flush port token) .elapsed = s
  flush_cancelled : ∀ s port token, D.advance s (.flush port token) .cancelled = s
  flush_error : ∀ s port token e, D.advance s (.flush port token) (.ready (.error e)) = s
  read_elapsed : ∀ s port n token, D.advance s (.read port n token) .elapsed = s
  read_cancelled : ∀ s port n token, D.advance s (.read port n token) .cancelled = s
  read_error : ∀ s port n token e, D.advance s (.read port n token) (.ready (.error e)) = s

variable {D : Discipline Request Response} {s : D.State} {α : Type}
  {E : D.State → SerialError → Prop} {id : String} {port : Handle} {token : Token}
  {timeoutMs : Nat}

/-! ## Lookups and the lock -/

theorem meets_getOr {Q : D.State → Session → Prop} (ask : D.admits s (.get id))
    (found : ∀ x, Q (D.advance s (.get id) (some x)) x)
    (absent : E (D.advance s (.get id) none) (.sessionNotFound id)) :
    D.Meets s (getOr id) Q E := by
  unfold getOr
  rw [meets_bind, meets_ask]
  refine ⟨ask, fun x => ?_⟩
  cases x with
  | none => exact absent
  | some x => exact found x

theorem meets_checkoutPortAndTimeout {Q : D.State → Handle × Nat → Prop}
    (ask : D.admits s (.get id))
    (found : ∀ x port, x.port = some port →
      Q (D.advance s (.get id) (some x)) (port, x.defaultTimeoutMs))
    (busy : ∀ x, x.port = none → E (D.advance s (.get id) (some x))
      (.invalidState id x.state.name "Ready"))
    (absent : E (D.advance s (.get id) none) (.sessionNotFound id)) :
    D.Meets s (checkoutPortAndTimeout id) Q E := by
  unfold checkoutPortAndTimeout
  apply Meets.bind (meets_getOr (Q := fun s' x => s' = D.advance s (.get id) (some x)) ask
    (fun x => rfl) absent)
  rintro _ x rfl
  cases hp : x.port with
  | none => exact busy x hp
  | some port => exact found x port hp

theorem meets_checkoutPort {Q : D.State → Handle → Prop} (ask : D.admits s (.get id))
    (found : ∀ x port, x.port = some port → Q (D.advance s (.get id) (some x)) port)
    (busy : ∀ x, x.port = none → E (D.advance s (.get id) (some x))
      (.invalidState id x.state.name "Ready"))
    (absent : E (D.advance s (.get id) none) (.sessionNotFound id)) :
    D.Meets s (checkoutPort id) Q E := by
  unfold checkoutPort
  rw [meets_bind]
  exact meets_checkoutPortAndTimeout ask found busy absent

theorem meets_lockPort (hD : Plain D) {Q : D.State → Unit → Prop}
    (ask : D.admits s (.lock port token))
    (locked : Q (D.advance s (.lock port token) (.ready ())) ())
    (late : E s (.timeout timeoutMs)) (cancelled : E s .cancelled) :
    D.Meets s (lockPort port timeoutMs token) Q E := by
  apply meets_query (hD.timeLeft s)
  intro x
  cases x with
  | false => exact late
  | true =>
    show D.Meets s (_ >>= _) Q E
    rw [meets_bind, meets_ask]
    refine ⟨ask, fun y => ?_⟩
    cases y with
    | ready => exact locked
    | elapsed =>
      rw [hD.lock_elapsed]
      exact late
    | cancelled =>
      rw [hD.lock_cancelled]
      exact cancelled

/-- The rule for the body of an operation: it runs where the check under the lock
succeeded, and the lock is released however it ends. -/
theorem meets_withPort (hD : Plain D) {body : Op α} {Q : D.State → α → Prop}
    (lock : D.admits s (.lock port token))
    (late : E s (.timeout timeoutMs)) (cancelled : E s .cancelled)
    (get : D.admits (D.advance s (.lock port token) (.ready ())) (.get id))
    (run : ∀ x, x.port = some port → x.state = .ready →
      D.Meets (D.advance (D.advance s (.lock port token) (.ready ())) (.get id) (some x)) body
        (fun s' a => D.admits s' (.unlock port) ∧ Q (D.advance s' (.unlock port) ()) a)
        (fun s' e => D.admits s' (.unlock port) ∧ E (D.advance s' (.unlock port) ()) e))
    (stale : ∀ x, ¬(x.port = some port ∧ x.state = .ready) →
      let s' := D.advance (D.advance s (.lock port token) (.ready ())) (.get id) (some x)
      D.admits s' (.unlock port) ∧
        E (D.advance s' (.unlock port) ()) (.invalidState id x.state.name "Ready"))
    (absent :
      let s' := D.advance (D.advance s (.lock port token) (.ready ())) (.get id) none
      D.admits s' (.unlock port) ∧ E (D.advance s' (.unlock port) ()) (.sessionNotFound id)) :
    D.Meets s (withPort id port timeoutMs token body) Q E := by
  unfold withPort
  rw [meets_bind]
  apply meets_lockPort hD lock _ late cancelled
  rw [meets_releasing, meets_bind]
  unfold ensurePortStillReady
  rw [meets_bind]
  refine meets_getOr get (fun x => ?_) ⟨absent.1, fun _ => absent.2⟩
  by_cases hx : x.port = some port ∧ x.isReady
  · rw [if_pos hx]
    exact (run x hx.1 (Session.isReady_iff.mp hx.2)).mono (fun _ _ h => ⟨h.1, fun _ => h.2⟩)
      (fun _ _ h => ⟨h.1, fun _ => h.2⟩)
  · rw [if_neg hx]
    have hstale : ¬(x.port = some port ∧ x.state = .ready) :=
      fun h => hx ⟨h.1, Session.isReady_iff.mpr h.2⟩
    exact ⟨(stale x hstale).1, fun _ => (stale x hstale).2⟩

structure Detached (D : Discipline Request Response) : Prop extends Plain D where
  get : ∀ s id, D.admits s (.get id) ∧ ∀ x, D.advance s (.get id) x = s
  lock : ∀ s port token, D.admits s (.lock port token) ∧ ∀ x, D.advance s (.lock port token) x = s
  unlock : ∀ s port, D.admits s (.unlock port) ∧ ∀ x, D.advance s (.unlock port) x = s

theorem Detached.withPort (hD : Detached D) {body : Op α} {Q : D.State → α → Prop}
    (h : D.Meets s body Q E) (fail : ∀ e, E s e) :
    D.Meets s (withPort id port timeoutMs token body) Q E := by
  have hunlock (s' : D.State) : D.admits s' (.unlock port) := (hD.unlock s' port).1
  apply meets_withPort hD.toPlain (hD.lock s port token).1 (fail _) (fail _)
  · exact (hD.get _ id).1
  · intro x _ _
    rw [(hD.lock s port token).2, (hD.get s id).2]
    apply h.mono
    · exact fun s' a hq => ⟨hunlock s', by rwa [(hD.unlock s' port).2]⟩
    · exact fun s' e he => ⟨hunlock s', by rwa [(hD.unlock s' port).2]⟩
  · intro x _
    rw [(hD.lock s port token).2, (hD.get s id).2]
    exact ⟨hunlock s, by rw [(hD.unlock s port).2]; exact fail _⟩
  · rw [(hD.lock s port token).2, (hD.get s id).2]
    exact ⟨hunlock s, by rw [(hD.unlock s port).2]; exact fail _⟩

theorem Detached.checkoutPort (hD : Detached D) {next : Handle → Op α} {Q : D.State → α → Prop}
    (h : ∀ port, D.Meets s (next port) Q E) (fail : ∀ e, E s e) :
    D.Meets s (McpSerial.checkoutPort id >>= next) Q E := by
  rw [meets_bind]
  apply meets_checkoutPort (hD.get s id).1
  · intro x port _
    rw [(hD.get s id).2]
    exact h port
  · intro x _
    rw [(hD.get s id).2]
    exact fail _
  · rw [(hD.get s id).2]
    exact fail _

/-! ## Writing -/

/-- The invariant `I` speaks of the bytes still to be written. -/
theorem meets_writeAll (hD : Plain D) {I : D.State → List UInt8 → Prop}
    (ask : ∀ s b data, I s (b :: data) → D.admits s (.write port (b :: data) token))
    (wrote : ∀ s b data n, I s (b :: data) →
      I (D.advance s (.write port (b :: data) token) (.ready (.ok n))) ((b :: data).drop n))
    (fail : ∀ s data e, I s data → e.possibleSerialSideEffect → E s e)
    (data : List UInt8) (skip : Nat) (h : I s (data.drop skip)) :
    D.Meets s (writeAll port timeoutMs token data skip) (fun s' _ => I s' []) E := by
  induction data generalizing s skip with
  | nil => simpa [writeAll] using h
  | cons b data ih =>
    cases skip with
    | succ skip => exact ih skip h
    | zero =>
      unfold writeAll
      rw [meets_bind, meets_ask]
      refine ⟨ask s b data h, fun x => ?_⟩
      cases x with
      | elapsed =>
        rw [hD.write_elapsed]
        exact fail s _ _ h rfl
      | cancelled =>
        rw [hD.write_cancelled]
        exact fail s _ _ h rfl
      | ready result =>
        cases result with
        | error e =>
          rw [hD.write_error]
          exact fail s _ _ h rfl
        | ok n =>
          have hn := wrote s b data n h
          obtain ⟨n, hle⟩ := n
          cases n with
          | zero => exact fail _ _ _ hn rfl
          | succ n => exact ih n hn

theorem meets_writeAllDeadline (hD : Plain D) {I : D.State → List UInt8 → Prop}
    (ask : ∀ s b data, I s (b :: data) → D.admits s (.write port (b :: data) token))
    (wrote : ∀ s b data n, I s (b :: data) →
      I (D.advance s (.write port (b :: data) token) (.ready (.ok n))) ((b :: data).drop n))
    (fail : ∀ s data e, I s data → e.possibleSerialSideEffect → E s e)
    (data : List UInt8) (h : I s data) :
    D.Meets s (writeAllDeadline port data timeoutMs token) (fun s' _ => I s' []) E := by
  apply meets_query (hD.timeLeft s)
  intro x
  cases x with
  | false => exact fail s data _ h rfl
  | true =>
    apply meets_query (hD.cancelPicked s token)
    intro y
    cases y with
    | true => exact fail s data _ h rfl
    | false => exact meets_writeAll hD ask wrote fail data 0 h

theorem meets_flushDeadline (hD : Plain D) {Q : D.State → Unit → Prop}
    (ask : D.admits s (.flush port token))
    (flushed : Q (D.advance s (.flush port token) (.ready (.ok ()))) ())
    (fail : ∀ e, e.possibleSerialSideEffect → E s e) :
    D.Meets s (flushDeadline port timeoutMs token) Q E := by
  apply meets_query (hD.timeLeft s)
  intro x
  cases x with
  | false => exact fail _ rfl
  | true =>
    show D.Meets s (_ >>= _) Q E
    rw [meets_bind, meets_ask]
    refine ⟨ask, fun y => ?_⟩
    cases y with
    | elapsed =>
      rw [hD.flush_elapsed]
      exact fail _ rfl
    | cancelled =>
      rw [hD.flush_cancelled]
      exact fail _ rfl
    | ready result =>
      cases result with
      | error e =>
        rw [hD.flush_error]
        exact fail _ rfl
      | ok => exact flushed

/-! ## Reading -/

/-- The obligations of the bounded read loop: its invariant `I` speaks of the bytes read
so far, and each way to stop ends in `Q`. -/
structure ReadRule (D : Discipline Request Response) (port : Handle) (token : Token)
    (maxBytes : Nat) (I : D.State → List UInt8 → Prop) (Q : D.State → ReadOutcome → Prop)
    (E : D.State → SerialError → Prop) : Prop where
  ask : ∀ s acc n, I s acc → 0 < n → D.admits s (.read port n token)
  got : ∀ s acc n bytes, I s acc → acc.length + bytes.1.length ≤ maxBytes →
    I (D.advance s (.read port n token) (.ready (.ok bytes))) (acc ++ bytes.1)
  full : ∀ s acc, I s acc → maxBytes ≤ acc.length → Q s (readOutcome acc .complete true)
  stopped : ∀ s acc status, I s acc → status ≠ .complete → status ≠ .eof →
    Q s (readOutcome acc status false)
  eof : ∀ s acc n bytes, I s acc → 0 < n → bytes.1 = [] →
    Q (D.advance s (.read port n token) (.ready (.ok bytes))) (readOutcome acc .eof false)
  fail : ∀ s acc e, I s acc → e.possibleSerialSideEffect → E s e

theorem ReadRule.of_got {maxBytes : Nat} {I : D.State → List UInt8 → Prop}
    {Q : D.State → ReadOutcome → Prop}
    (ask : ∀ s acc n, I s acc → D.admits s (.read port n token))
    (got : ∀ s acc n bytes, I s acc →
      I (D.advance s (.read port n token) (.ready (.ok bytes))) (acc ++ bytes.1))
    (done : ∀ s acc status truncated, I s acc → Q s (readOutcome acc status truncated))
    (fail : ∀ s acc e, I s acc → e.possibleSerialSideEffect → E s e) :
    ReadRule D port token maxBytes I Q E where
  ask s acc n h _ := ask s acc n h
  got s acc n bytes h _ := got s acc n bytes h
  full s acc h _ := done s acc _ _ h
  stopped s acc status h _ _ := done s acc status _ h
  eof s acc n bytes h _ hempty := by
    have hgot := got s acc n bytes h
    rw [hempty, List.append_nil] at hgot
    exact done _ _ _ _ hgot
  fail := fail

section Read

variable {maxBytes : Nat} {I : D.State → List UInt8 → Prop} {Q : D.State → ReadOutcome → Prop}

theorem meets_readLoop (hD : Plain D) (rule : ReadRule D port token maxBytes I Q E)
    (turns : Nat) (acc : List UInt8) (h : I s acc) :
    D.Meets s (readLoop port maxBytes token turns acc) Q E := by
  induction turns generalizing s acc with
  | zero =>
    unfold readLoop
    split
    next hfull =>
      rw [decide_eq_true hfull]
      exact rule.full s acc h hfull
    next => exact rule.stopped s acc .timedOut h nofun nofun
  | succ turns ih =>
    unfold readLoop
    split
    next hfull =>
      rw [decide_eq_true hfull]
      exact rule.full s acc h hfull
    next hroom =>
      have hpos : 0 < min (maxBytes - acc.length) chunkLen := by
        unfold chunkLen
        omega
      show D.Meets s (_ >>= _) Q E
      rw [meets_bind, meets_ask]
      refine ⟨rule.ask s acc _ h hpos, fun x => ?_⟩
      cases x with
      | elapsed =>
        rw [hD.read_elapsed]
        exact rule.stopped s acc .timedOut h nofun nofun
      | cancelled =>
        rw [hD.read_cancelled]
        exact rule.stopped s acc .cancelled h nofun nofun
      | ready result =>
        cases result with
        | error e =>
          rw [hD.read_error]
          exact rule.fail s acc _ h rfl
        | ok bytes =>
          show D.Meets _ (if bytes.1.isEmpty then _ else _) Q E
          split
          next hempty => exact rule.eof s acc _ bytes h hpos (List.isEmpty_iff.mp hempty)
          next =>
            have hlen := bytes.2
            exact ih _ (rule.got s acc _ bytes h (by omega))

theorem meets_readLocked (hD : Plain D) (rule : ReadRule D port token maxBytes I Q E)
    (h : I s []) : D.Meets s (readLocked port maxBytes token) Q E :=
  meets_query (hD.turns s) fun turns => meets_readLoop hD rule turns [] h

end Read

structure UntilRule (D : Discipline Request Response) (port : Handle) (token : Token)
    (lineEnding : LineEnding) (I : D.State → PatternMatcher → Nat → Bool → Prop)
    (Q : D.State → UntilOutcome → Prop) (E : D.State → SerialError → Prop) : Prop where
  ask : ∀ s m n seen, I s m n seen → D.admits s (.read port chunkLen token)
  pushed : ∀ s m n bytes, I s m n true →
    (m.pushWithoutMatching bytes.1).isMatch = false → bytes.1 ≠ [] →
    I (D.advance s (.read port chunkLen token) (.ready (.ok bytes)))
      (m.pushWithoutMatching bytes.1) (n + bytes.1.length) true
  waited : ∀ s m n bytes, I s m n false →
    echoLineBoundary (m.pushWithoutMatching bytes.1).live lineEnding = none → bytes.1 ≠ [] →
    I (D.advance s (.read port chunkLen token) (.ready (.ok bytes)))
      (m.pushWithoutMatching bytes.1) (n + bytes.1.length) false
  crossed : ∀ s m n bytes boundary, I s m n false →
    echoLineBoundary (m.pushWithoutMatching bytes.1).live lineEnding = some boundary →
    ((m.pushWithoutMatching bytes.1).setSearchStart boundary).isMatch = false → bytes.1 ≠ [] →
    I (D.advance s (.read port chunkLen token) (.ready (.ok bytes)))
      ((m.pushWithoutMatching bytes.1).setSearchStart boundary) (n + bytes.1.length) true
  pushed_matched : ∀ s m n bytes, I s m n true →
    (m.pushWithoutMatching bytes.1).isMatch = true →
    let m' := m.pushWithoutMatching bytes.1
    Q (D.advance s (.read port chunkLen token) (.ready (.ok bytes)))
      ⟨.matched, n + bytes.1.length, m'.matchDetails, m'⟩
  crossed_matched : ∀ s m n bytes boundary, I s m n false →
    echoLineBoundary (m.pushWithoutMatching bytes.1).live lineEnding = some boundary →
    ((m.pushWithoutMatching bytes.1).setSearchStart boundary).isMatch = true →
    let m' := (m.pushWithoutMatching bytes.1).setSearchStart boundary
    Q (D.advance s (.read port chunkLen token) (.ready (.ok bytes)))
      ⟨.matched, n + bytes.1.length, m'.matchDetails, m'⟩
  eof : ∀ s m n seen bytes, I s m n seen → bytes.1 = [] →
    Q (D.advance s (.read port chunkLen token) (.ready (.ok bytes)))
      ⟨if seen && m.isMatch then .matched else .eof, n, visibleMatchDetails m seen, m⟩
  stopped : ∀ s m n seen status, I s m n seen → status ≠ .matched → status ≠ .eof →
    Q s ⟨status, n, visibleMatchDetails m seen, m⟩
  fail : ∀ s m n seen e, I s m n seen → e.possibleSerialSideEffect → E s e

theorem UntilRule.of_got {lineEnding : LineEnding} {J : D.State → Nat → Prop}
    (ask : ∀ s n, J s n → D.admits s (.read port chunkLen token))
    (got : ∀ s n bytes, J s n →
      J (D.advance s (.read port chunkLen token) (.ready (.ok bytes))) (n + bytes.1.length))
    (fail : ∀ s n e, J s n → e.possibleSerialSideEffect → E s e) :
    UntilRule D port token lineEnding (fun s _ n _ => J s n) (fun s o => J s o.bytesRead) E where
  ask s _ n _ := ask s n
  pushed s _ n bytes h _ _ := got s n bytes h
  waited s _ n bytes h _ _ := got s n bytes h
  crossed s _ n bytes _ h _ _ _ := got s n bytes h
  pushed_matched s _ n bytes h _ := got s n bytes h
  crossed_matched s _ n bytes _ h _ _ := got s n bytes h
  eof s _ n _ bytes h hempty := by
    have hgot := got s n bytes h
    rw [hempty] at hgot
    exact hgot
  stopped _ _ _ _ _ h _ _ := h
  fail s _ n _ e := fail s n e

section Until

variable {lineEnding : LineEnding} {I : D.State → PatternMatcher → Nat → Bool → Prop}
  {Q : D.State → UntilOutcome → Prop}

theorem meets_readUntilLoop (hD : Plain D) (rule : UntilRule D port token lineEnding I Q E)
    (turns : Nat) (m : PatternMatcher) (n : Nat) (seen : Bool) (h : I s m n seen) :
    D.Meets s (readUntilLoop port token lineEnding turns m n seen) Q E := by
  induction turns generalizing s m n seen with
  | zero => exact rule.stopped s m n seen .timedOut h nofun nofun
  | succ turns ih =>
    unfold readUntilLoop
    rw [meets_bind, meets_ask]
    refine ⟨rule.ask s m n seen h, fun x => ?_⟩
    cases x with
    | elapsed =>
      rw [hD.read_elapsed]
      exact rule.stopped s m n seen .timedOut h nofun nofun
    | cancelled =>
      rw [hD.read_cancelled]
      exact rule.stopped s m n seen .cancelled h nofun nofun
    | ready result =>
      cases result with
      | error e =>
        rw [hD.read_error]
        exact rule.fail s m n seen _ h rfl
      | ok bytes =>
        show D.Meets _ (if bytes.1.isEmpty then _ else _) Q E
        split
        next hempty => exact rule.eof s m n seen bytes h (List.isEmpty_iff.mp hempty)
        next hsome =>
          have hne : bytes.1 ≠ [] := fun hnil => hsome (List.isEmpty_iff.mpr hnil)
          cases seen with
          | true =>
            show D.Meets _ (if (m.pushWithoutMatching bytes.1).isMatch then _ else _) Q E
            split
            next hm => exact rule.pushed_matched s m n bytes h hm
            next hm => exact ih _ _ _ (rule.pushed s m n bytes h (eq_false_of_ne_true hm) hne)
          -- the chunk counts as echo up to the boundary, if it holds one
          | false =>
            rw [if_neg (by decide)]
            dsimp only
            split
            next hb => exact ih _ _ _ (rule.waited s m n bytes h hb hne)
            next boundary hb =>
              split
              next hm => exact rule.crossed_matched s m n bytes boundary h hb hm
              next hm =>
                exact ih _ _ _
                  (rule.crossed s m n bytes boundary h hb (eq_false_of_ne_true hm) hne)

theorem meets_readUntilLocked (hD : Plain D) (rule : UntilRule D port token lineEnding I Q E)
    {echoMode : EchoMode} (m : PatternMatcher) (h : I s m 0 (echoMode ≠ .line)) :
    D.Meets s (readUntilLocked port m token echoMode lineEnding) Q E :=
  meets_query (hD.turns s) fun turns => meets_readUntilLoop hD rule turns m 0 _ h

end Until

/-! ## States that input and output leave alone -/

structure SteadyRead (D : Discipline Request Response) (s : D.State) (port : Handle) : Prop where
  read : ∀ n token, D.admits s (.read port n token) ∧ ∀ x, D.advance s (.read port n token) x = s

/-- In `s` the port may be used, and using it leaves `s` as it is. -/
structure Steady (D : Discipline Request Response) (s : D.State) (port : Handle) : Prop extends
    SteadyRead D s port where
  write : ∀ data token, D.admits s (.write port data token) ∧
    ∀ x, D.advance s (.write port data token) x = s
  flush : ∀ token, D.admits s (.flush port token) ∧ ∀ x, D.advance s (.flush port token) x = s

def KeepsSteady (D : Discipline Request Response) (s : D.State) (body : Op α) : Prop :=
  D.Meets s body (fun s' _ => s' = s) (fun s' e => s' = s ∧ e.possibleSerialSideEffect)

theorem SteadyRead.readLocked (h : SteadyRead D s port) (hD : Plain D) (maxBytes : Nat)
    (token : Token) : KeepsSteady D s (McpSerial.readLocked port maxBytes token) := by
  apply meets_readLocked hD (I := fun s' _ => s' = s)
  · apply ReadRule.of_got
    · rintro _ acc n rfl
      exact (h.read n token).1
    · rintro _ acc n bytes rfl
      exact (h.read n token).2 _
    · exact fun _ _ _ _ hs => hs
    · exact fun _ _ e hs he => ⟨hs, he⟩
  · rfl

theorem SteadyRead.readUntilLocked (h : SteadyRead D s port) (hD : Plain D) (m : PatternMatcher)
    (token : Token) (echoMode : EchoMode) (lineEnding : LineEnding) :
    KeepsSteady D s (McpSerial.readUntilLocked port m token echoMode lineEnding) := by
  apply meets_readUntilLocked hD (UntilRule.of_got (J := fun s' _ => s' = s) ?_ ?_ ?_)
  · rfl
  · rintro _ n rfl
    exact (h.read chunkLen token).1
  · rintro _ n bytes rfl
    exact (h.read chunkLen token).2 _
  · exact fun _ _ e hs he => ⟨hs, he⟩

theorem Steady.writeAllDeadline (h : Steady D s port) (hD : Plain D) (data : List UInt8)
    (timeoutMs : Nat) (token : Token) :
    KeepsSteady D s (McpSerial.writeAllDeadline port data timeoutMs token) := by
  apply meets_writeAllDeadline hD (I := fun s' _ => s' = s)
  · rintro _ b data rfl
    exact (h.write _ token).1
  · rintro _ b data n rfl
    exact (h.write _ token).2 _
  · exact fun _ _ e hs he => ⟨hs, he⟩
  · rfl

theorem Steady.flushDeadline (h : Steady D s port) (hD : Plain D) (timeoutMs : Nat)
    (token : Token) : KeepsSteady D s (McpSerial.flushDeadline port timeoutMs token) := by
  apply meets_flushDeadline hD (h.flush token).1 ((h.flush token).2 _)
  exact fun e he => ⟨rfl, he⟩

theorem KeepsSteady.bind {β : Type} {body : Op α} {next : α → Op β} (h : KeepsSteady D s body)
    (k : ∀ a, KeepsSteady D s (next a)) : KeepsSteady D s (body >>= next) := by
  apply Meets.bind h
  rintro _ a rfl
  exact k a

theorem meets_elapsedMs (hD : Plain D) {next : Nat → Op α} {Q : D.State → α → Prop}
    (k : ∀ n, D.Meets s (next n) Q E) : D.Meets s (ask .elapsedMs >>= next) Q E :=
  meets_query (hD.elapsedMs s) k

theorem KeepsSteady.elapsedMs (hD : Plain D) {next : Nat → Op α}
    (k : ∀ n, KeepsSteady D s (next n)) : KeepsSteady D s (ask .elapsedMs >>= next) :=
  meets_elapsedMs hD k

theorem KeepsSteady.pure (a : α) : KeepsSteady D s (pure a : Op α) := rfl

theorem Steady.writeAndFlush (h : Steady D s port) (hD : Plain D) (data : List UInt8)
    (timeoutMs n : Nat) (token : Token) :
    KeepsSteady D s (do
      McpSerial.writeAllDeadline port data timeoutMs token
      McpSerial.flushDeadline port timeoutMs token
      return n) := by
  apply (h.writeAllDeadline hD data timeoutMs token).bind
  intro _
  apply (h.flushDeadline hD timeoutMs token).bind
  exact fun _ => .pure n

theorem SteadyRead.clearBefore (h : SteadyRead D s port) (hD : Plain D) (options : ExecOptions)
    (token : Token) : KeepsSteady D s (clearBefore port options token) := by
  unfold McpSerial.clearBefore
  cases options.clearBeforeWrite with
  | false => exact .pure none
  | true => exact (h.readLocked hD maxReadBuffer token).bind fun a => .pure (some a)

/-- An `exec` that returns has written its command or was cancelled before it wrote. -/
theorem Steady.execOutcome (h : Steady D s port) (hD : Plain D) (command : List UInt8)
    (m : PatternMatcher) (timeoutMs : Nat) (options : ExecOptions) (token : Token)
    (cleared : Option ReadOutcome) :
    D.Meets s (McpSerial.execCleared port command m timeoutMs options token cleared)
      (fun s' o => s' = s ∧ (o.commandWritten = true ∨ o.status = .cancelled))
      (fun s' e => s' = s ∧ e.possibleSerialSideEffect) := by
  apply meets_query (hD.isCancelled s token)
  intro cancelled
  cases cancelled with
  | true => exact meets_elapsedMs hD fun _ => ⟨rfl, .inr rfl⟩
  | false =>
    apply Meets.bind (h.writeAllDeadline hD command timeoutMs token)
    rintro _ _ rfl
    apply Meets.bind (h.flushDeadline hD timeoutMs token)
    rintro _ _ rfl
    apply Meets.bind (h.readUntilLocked hD m token options.echoMode options.lineEnding)
    rintro _ _ rfl
    exact meets_elapsedMs hD fun _ => ⟨rfl, .inl rfl⟩

theorem Steady.execCleared (h : Steady D s port) (hD : Plain D) (command : List UInt8)
    (m : PatternMatcher) (timeoutMs : Nat) (options : ExecOptions) (token : Token)
    (cleared : Option ReadOutcome) :
    KeepsSteady D s (execCleared port command m timeoutMs options token cleared) :=
  (h.execOutcome hD command m timeoutMs options token cleared).mono (fun _ _ hs => hs.1)
    fun _ _ hs => hs

end McpSerial
