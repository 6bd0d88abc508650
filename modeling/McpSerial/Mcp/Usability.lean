import McpSerial.Mcp.Calls

/-! What the flag `session_usable` of an error says about the session table, when no other
call is in flight. -/

namespace McpSerial
open Interaction Interaction.Discipline Utf8
open Interaction.Fallible (attempt)

/-! ## What the answers tell about the presence of a session -/

/-- The answers of a table that `id` is in, or is not in, and what becomes of that: none
for an answer that such a table does not give. -/
def presenceAfter (id : String) (present : Bool) : (r : Request) → Response r → Option Bool
  | .get id', x => if id' = id ∧ x.isSome ≠ present then none else some present
  | .beginClose _, .error (.sessionNotFound _) => some present
  | .beginClose id', _ => if id' = id ∧ present = false then none else some present
  | .finishClose id', _ => some (present && id' ≠ id)
  | _, _ => some present

abbrev presence (id : String) : Discipline Request Response where
  State := Option Bool
  admits s
    | .reserve _ | .completeOpen .. => s = none
    | _ => True
  advance s r x := s.bind fun present => presenceAfter id present r x

def Keeps (id : String) (σ : ManagerState) (s : Option Bool) : Prop :=
  s = some (σ.sessions.lookup id).isSome

section Presence

variable {id : String} {present : Bool}

theorem presence_plain : Plain (presence id) := by
  constructor <;> rintro (_ | _) <;> intros <;> first | exact ⟨trivial, fun _ => rfl⟩ | rfl

theorem Sessions.isSome_insert {sessions : Sessions} {id' : String} {s s' : Session}
    (h : sessions.lookup id' = some s') (id : String) :
    ((sessions.insert id' s).lookup id).isSome = (sessions.lookup id).isSome := by
  by_cases hid : id = id'
  · subst hid
    rw [AList.lookup_insert, h]
    rfl
  · rw [AList.lookup_insert_ne hid]

theorem Sessions.isSome_erase (sessions : Sessions) (id id' : String) :
    ((sessions.erase id').lookup id).isSome =
      ((sessions.lookup id).isSome && decide (id' ≠ id)) := by
  by_cases hid : id = id'
  · subst hid
    rw [AList.lookup_erase]
    simp
  · rw [AList.lookup_erase_ne hid]
    simp [Ne.symm hid]

theorem Sessions.isSome_restoreReady (sessions : Sessions) (id id' : String) (port : Handle) :
    ((sessions.restoreReady id' port).lookup id).isSome = (sessions.lookup id).isSome := by
  unfold Sessions.restoreReady
  split
  next h => exact isSome_insert h id
  next => rfl

theorem Sessions.isSome_finishClose (sessions : Sessions) (id id' : String) :
    ((sessions.finishClose id').lookup id).isSome =
      ((sessions.lookup id).isSome && decide (id' ≠ id)) := by
  unfold Sessions.finishClose
  split
  next h => rw [isSome_erase, isSome_insert h]
  next => exact isSome_erase ..

theorem presenceAfter_beginClose (sessions : Sessions) (id id' : String) :
    presenceAfter id (sessions.lookup id).isSome (.beginClose id') (sessions.beginClose id').1 =
      some ((sessions.beginClose id').2.lookup id).isSome := by
  unfold Sessions.beginClose
  cases h : sessions.lookup id' with
  | none => rfl
  | some s =>
    have hknown : ¬(id' = id ∧ (sessions.lookup id).isSome = false) := by
      rintro ⟨rfl, habsent⟩
      rw [h] at habsent
      cases habsent
    rcases hbegin : s.beginClose with ⟨_ | _, s'⟩
    · dsimp only
      rw [hbegin]
      exact if_neg hknown
    · dsimp only
      rw [hbegin, Sessions.isSome_insert h]
      exact if_neg hknown

theorem keeps_answer {σ σ' : ManagerState} {s : Option Bool} {t : Nat} {r : Request}
    {x : Response r} (h : Keeps id σ s) (hr : (presence id).admits s r)
    (answer : answers σ t r x σ') : Keeps id σ' ((presence id).advance s r x) := by
  obtain rfl := h
  cases r with
  -- only an open adds or drops entries like these, and no call on a session opens one
  | reserve | completeOpen => cases hr
  | get id' =>
    obtain ⟨rfl, rfl⟩ := answer
    apply if_neg
    rintro ⟨rfl, hne⟩
    exact hne rfl
  | beginClose id' =>
    obtain ⟨rfl, rfl⟩ := answer
    exact presenceAfter_beginClose ..
  | restoreReady id' port =>
    obtain ⟨_, rfl⟩ := answer
    exact congrArg some (Sessions.isSome_restoreReady ..).symm
  | finishClose id' =>
    obtain ⟨_, rfl⟩ := answer
    exact congrArg some (Sessions.isSome_finishClose ..).symm
  | values =>
    obtain ⟨_, rfl⟩ := answer
    rfl
  | backendOpen path baud =>
    cases x with
    | ok port =>
      obtain ⟨_, rfl⟩ := answer
      rfl
    | error e =>
      obtain rfl := answer
      rfl
  | lock port token =>
    cases x <;> obtain ⟨_, rfl⟩ := answer <;> rfl
  | unlock | timeLeft | turns | elapsedMs | availablePorts | canonicalize =>
    obtain rfl := answer
    rfl
  | isCancelled | cancelPicked | write | flush | read =>
    obtain ⟨_, rfl⟩ := answer
    rfl

/-! ## What an error says about it -/

def Truthful (id : String) (s : Option Bool) : CallToolResponse → Prop
  | .complete (.error body) => ∀ present, s = some present →
    body.sessionId = some id ∧ (body.sessionUsable = true → present = true)
  | _ => True

variable {s : Option Bool} {e : SerialError} {commandWritten bytesConsumed : Bool}

theorem truthful_present (hs : s ≠ some false) :
    Truthful id s (.complete (toolError e (some id) commandWritten bytesConsumed)) := by
  rintro present rfl
  refine ⟨rfl, fun _ => ?_⟩
  cases present with
  | true => rfl
  | false => exact absurd rfl hs

theorem truthful_absent (id' : String) :
    Truthful id s (.complete (toolError (.sessionNotFound id') (some id) commandWritten
      bytesConsumed)) :=
  fun _ _ => ⟨rfl, nofun⟩

theorem truthful_none (response : CallToolResponse) : Truthful id none response := by
  cases response with
  | complete result => cases result <;> first | trivial | nofun
  | inputRequired => trivial

theorem follows_presence_none {α : Type} (p : Program Request Response α) :
    (presence id).Follows none p fun s _ => s = none := by
  induction p with
  | ret a => rfl
  | ask r next ih => exact ⟨by cases r <;> first | rfl | trivial, ih⟩

theorem lookup_presence :
    Lookup (presence id) (some present) id (fun x => x.isSome = present) (Truthful id) where
  admits := trivial
  answer x := by
    by_cases hx : x.isSome = present
    · exact .inl ⟨if_neg fun h => h.2 hx, hx⟩
    · refine .inr fun p => ?_
      have hnone : (presence id).advance (some present) (.get id) x = none := if_pos ⟨rfl, hx⟩
      rw [hnone]
      apply (follows_presence_none p).mono
      rintro _ response rfl
      exact truthful_none response

/-- An error of an operation on a session that is not in the table tells so. -/
def FailsTruthfully (s : Option Bool) (e : SerialError) : Prop :=
  s ≠ some false ∨ ∃ id, e = .sessionNotFound id

theorem FailsTruthfully.truthful (h : FailsTruthfully s e) :
    Truthful id s (.complete (toolError e (some id) commandWritten bytesConsumed)) := by
  rcases h with hs | ⟨id', rfl⟩
  · exact truthful_present hs
  · exact truthful_absent id'

variable {α : Type}

theorem OnlyAsks.presence {p : Op α} (h : OnlyAsks (fun r => r.usesPort id) p) :
    (presence id).Meets (some true) p (fun _ _ => True) FailsTruthfully := by
  have hkeeps : (McpSerial.presence id).Follows (some true) p.run fun s _ => s ≠ some false := by
    refine Follows.of_only h nofun fun s r hs hr => ?_
    cases s with
    | none => exact ⟨by cases r <;> first | rfl | trivial, fun _ => nofun⟩
    | some present =>
      have htrue : present = true := eq_true_of_ne_false fun hfalse => hs (congrArg some hfalse)
      subst htrue
      cases r with
      | get id' =>
        refine ⟨trivial, fun x => ?_⟩
        show (if id' = id ∧ x.isSome ≠ true then none else some true) ≠ some false
        split <;> nofun
      | reserve | completeOpen | beginClose | finishClose => cases hr
      | _ => exact ⟨trivial, fun _ => nofun⟩
  apply Follows.mono hkeeps
  intro s result hs
  cases result with
  | ok => trivial
  | error => exact .inl hs

theorem presence_checkoutPort {next : Handle → Op α}
    (h : OnlyAsks (fun r => r.usesPort id) (checkoutPort id >>= next)) :
    (presence id).Meets (some present) (checkoutPort id >>= next) (fun _ _ => True)
      FailsTruthfully := by
  cases present with
  | true => exact h.presence
  | false =>
    have hnone (x : Session) : (presence id).advance (some false) (.get id) (some x) = none :=
      if_pos ⟨rfl, nofun⟩
    rw [meets_bind]
    apply meets_checkoutPort trivial
    · intro x port _
      rw [hnone]
      apply Follows.mono (follows_presence_none _)
      rintro _ result rfl
      cases result with
      | ok => trivial
      | error => exact .inl nofun
    · intro x _
      rw [hnone]
      exact .inl nofun
    · exact .inr ⟨id, rfl⟩

/-- An answer other than `sessionNotFound` shows that the session is there. -/
theorem presence_begun (present : Bool) :
    (if id = id ∧ present = false then none else some present) ≠ some false := by
  cases present <;> simp

theorem presence_closeWithTimeout (timeoutMs : Nat) :
    (presence id).Meets (some present) (closeWithTimeout id timeoutMs) (fun _ _ => True)
      FailsTruthfully := by
  unfold closeWithTimeout
  rw [meets_bind, meets_ask]
  refine ⟨trivial, fun begun => ?_⟩
  rcases begun with e | (none | port)
  · cases e with
    | sessionNotFound id' => exact .inr ⟨id', rfl⟩
    | _ => exact .inl (presence_begun present)
  · exact ⟨trivial, fun _ => trivial⟩
  · have hbegun : (presence id).advance (some present) (.beginClose id) (.ok (some port)) ≠
        some false := presence_begun present
    generalize (presence id).advance (some present) (.beginClose id) (.ok (some port)) = s at hbegun
    show (presence id).Meets s (attempt (lockPort port timeoutMs .never) >>= _) _ _
    have hrestored (x : Bool) : (presence id).advance s (.restoreReady id port) x ≠ some false := by
      cases s <;> exact hbegun
    rw [meets_bind, meets_attempt]
    apply meets_lockPort presence_plain trivial
    · exact ⟨trivial, fun _ => ⟨trivial, fun _ => trivial⟩⟩
    · exact ⟨trivial, fun x => .inl (hrestored x)⟩
    · exact ⟨trivial, fun x => .inl (hrestored x)⟩

/-! ## The calls -/

/-- The checks of the arguments that a handler makes before it looks the session up. -/
def ToolCall.ArgumentsFail (srv : McpServer) : ToolCall → Prop
  | .write p _ _ => maxWriteChunk < (asBytes p.data).length
  | .exec p _ _ => maxWriteChunk < (asBytes p.command).length ∨ p.expect.isEmpty ∨
    ∃ reason, boundedRegex srv.toRegexCrate p.expect = .error reason
  | _ => False

theorem execArgumentError_eq_some {srv : McpServer} {p : ExecParams} {err : SerialError}
    {context : RequestContext} {inputResponses : Option InputResponses}
    (h : srv.execArgumentError p = some err) :
    (ToolCall.exec p context inputResponses).ArgumentsFail srv := by
  unfold McpServer.execArgumentError at h
  split_ifs at h with hlong hempty
  · exact .inl hlong
  · exact .inr (.inl hempty)
  · cases hregex : boundedRegex srv.toRegexCrate p.expect with
    | error reason => exact .inr (.inr ⟨reason, hregex⟩)
    | ok regex =>
      rw [hregex] at h
      cases h

/-- A call reports an error of the operation that it carries out with the session it names. -/
theorem truthful_operation {α : Type} {s : Option Bool} {p : Op α} {Q : Option Bool → α → Prop}
    {commandWritten bytesConsumed : SerialError → Bool}
    (h : (presence id).Meets s p (fun _ _ => True) FailsTruthfully) (hok : ∀ s a, Q s a) :
    (presence id).Meets s p Q fun s e =>
      Truthful id s (.complete (toolError e (some id) (commandWritten e) (bytesConsumed e))) :=
  h.mono (fun s a _ => hok s a) fun _ _ he => he.truthful

theorem toolCode_presence (srv : McpServer) {call : ToolCall} (hid : call.sessionId = some id)
    (h : present = true ∨ ¬call.ArgumentsFail srv) :
    (presence id).Follows (some present) (toolCode srv call) (Truthful id) := by
  have hfound (y : Session) (hy : (some y).isSome = present) : some present ≠ some false := by
    rintro ⟨⟩
    cases hy
  have hreads {α : Type} {p : Op α} (h : OnlyAsks (fun r => r.reads id) p) :
      OnlyAsks (fun r => r.usesPort id) p := h.mono fun _ => Request.usesPort_of_reads
  cases call with
  | listPorts | «open» | sessions => cases hid
  | getSession p =>
    cases hid
    exact follows_getSession lookup_presence (fun _ _ => trivial) fun _ => truthful_absent _
  | write p context inputResponses =>
    cases hid
    apply follows_write lookup_presence
    · intro y z hy _ _ _
      obtain rfl : true = present := hy
      apply follows_run_bind.mpr
      exact truthful_operation (OnlyAsks.writeWithCancel p.sessionId _ .call).presence
        fun _ _ => trivial
    · intros
      trivial
    · exact fun y _ hy _ => truthful_present (hfound y hy)
    -- a payload that is too long is refused before the session is looked up
    · intro reason hlong
      rcases h with rfl | h
      · exact truthful_present nofun
      · exact absurd hlong h
    · exact fun y hy _ => truthful_present (hfound y hy)
    · exact fun _ => truthful_absent _
  | read p =>
    cases hid
    apply follows_read lookup_presence
    · intro maxBytes timeoutMs
      exact truthful_operation (presence_checkoutPort (hreads (OnlyAsks.readWithCancel ..)))
        fun _ _ => trivial
    · exact fun _ => truthful_absent _
  | drain p =>
    cases hid
    apply follows_run_bind.mpr
    exact truthful_operation
      (presence_checkoutPort (hreads (OnlyAsks.drain p.sessionId _ .call))) fun _ _ => trivial
  | clearInput p =>
    cases hid
    apply follows_run_bind.mpr
    exact truthful_operation
      (presence_checkoutPort (hreads (OnlyAsks.drain p.sessionId _ .call))) fun _ _ => trivial
  | readUntil p =>
    cases hid
    apply follows_readUntil lookup_presence
    · intro timeoutMs
      exact truthful_operation (presence_checkoutPort (hreads (OnlyAsks.readUntilWithCancel ..)))
        fun _ _ => trivial
    · exact fun _ => truthful_absent _
  | exec p context inputResponses =>
    cases hid
    apply follows_exec lookup_presence
    · intro y z w hy _ _ _ _
      obtain rfl : true = present := hy
      apply follows_sendExec lookup_presence
      · intro timeoutMs clearBeforeWrite
        exact truthful_operation (OnlyAsks.execWithOptions ..).presence fun _ _ => trivial
      · exact fun _ => truthful_absent _
    · intros
      trivial
    · exact fun y _ _ hy _ _ => truthful_present (hfound y hy)
    -- and so is a command or a pattern that fails its check
    · intro err herr
      rcases h with rfl | h
      · exact truthful_present nofun
      · exact absurd (execArgumentError_eq_some herr) h
    · exact fun y _ _ hy _ _ => truthful_present (hfound y hy)
    · exact fun y _ hy _ => truthful_present (hfound y hy)
    · exact fun _ => truthful_absent _
  | close p =>
    cases hid
    apply follows_run_bind.mpr
    exact truthful_operation (presence_closeWithTimeout _) fun _ _ => trivial

end Presence

/-! ## When nobody interrupts the call -/

/-- An error that `call` ends with, begun in `σ`, says of no missing session that it is
usable. -/
def UsableExists (srv : McpServer) (t : Nat) (σ : ManagerState) (call : ToolCall) : Prop :=
  ∀ es σ' body id, RunsAlone machine t σ es σ' →
    Runs (toolCode srv call) es (.ret (.complete (.error body))) → body.sessionUsable = true →
    body.sessionId = some id → (σ'.sessions.lookup id).isSome

theorem toolCode_argumentsFail {srv : McpServer} {call : ToolCall} {id : String}
    (hid : call.sessionId = some id) (h : call.ArgumentsFail srv) : ∃ name reason,
      toolCode srv call = .ret (.complete (refused (.invalidParam name reason) (some id))) := by
  cases call with
  | write p context inputResponses =>
    cases hid
    exact ⟨_, _, if_pos h⟩
  | exec p context inputResponses =>
    cases hid
    have hsome : ∃ name reason, srv.execArgumentError p = some (.invalidParam name reason) := by
      unfold McpServer.execArgumentError
      by_cases hlong : maxWriteChunk < (asBytes p.command).length
      · exact ⟨_, _, if_pos hlong⟩
      by_cases hempty : p.expect.isEmpty
      · rw [if_neg hlong]
        exact ⟨_, _, if_pos hempty⟩
      · obtain ⟨reason, hregex⟩ := (h.resolve_left hlong).resolve_left hempty
        rw [if_neg hlong, if_neg hempty, hregex]
        exact ⟨_, _, rfl⟩
    obtain ⟨name, reason, hsome⟩ := hsome
    refine ⟨name, reason, ?_⟩
    show srv.exec p context inputResponses = _
    unfold McpServer.exec
    rw [hsome]
    rfl
  | _ => exact h.elim

/-- The flag is right exactly where the session exists, or the call has reached the lookup
that finds it missing. -/
theorem usableExists_iff (srv : McpServer) (t : Nat) (σ : ManagerState) {call : ToolCall}
    {id : String} (hid : call.sessionId = some id) :
    UsableExists srv t σ call ↔
      (σ.sessions.lookup id).isSome ∨ ¬call.ArgumentsFail srv := by
  constructor
  · intro h
    by_contra hnot
    rw [not_or, not_not] at hnot
    obtain ⟨name, reason, hrefused⟩ := toolCode_argumentsFail hid hnot.2
    have hruns : Runs (toolCode srv call) [] (.ret (.complete (refused (.invalidParam name reason)
        (some id)))) := hrefused ▸ .refl _
    exact hnot.1 (h [] σ _ id (.nil (M := machine) σ) hruns rfl rfl)
  · intro h es σ' body id' halone hruns husable hnames
    have hkeeps : Keeps id σ (some (σ.sessions.lookup id).isSome) := rfl
    obtain ⟨s, rfl, htruthful⟩ := halone.returns (toolCode_presence srv hid h) hruns hkeeps
      fun _ _ _ _ _ hσ hr answer => keeps_answer hσ hr answer
    obtain ⟨hbody, hpresent⟩ := htruthful _ rfl
    obtain rfl : id = id' := Option.some.inj (hbody.symm.trans hnames)
    exact hpresent husable

/-- An `exec` without a pattern, on the session that there is and on one that there is not. -/
theorem usableExists_iff_exec :
    UsableExists wordServer 0 firstState
        (.exec { execParams "re" with expect := "" } plainContext none) ∧
      ¬UsableExists wordServer 0 firstState
        (.exec { execParams "re" with sessionId := "gone", expect := "" } plainContext none) := by
  constructor
  · exact (usableExists_iff wordServer 0 firstState rfl).mpr (.inl rfl)
  · rw [usableExists_iff wordServer 0 firstState rfl, not_or, not_not]
    exact ⟨by decide, .inr (.inl rfl)⟩

/-- An `exec` without a pattern on a table that has no session at all. -/
theorem empty_expect_usable : ¬∀ call id, ToolCall.sessionId call = some id →
    UsableExists wordServer 0 .init call := by
  intro h
  let call : ToolCall := .exec { execParams "re" with expect := "" } plainContext none
  have hfail : call.ArgumentsFail wordServer := .inr (.inl rfl)
  have husable : UsableExists wordServer 0 .init call := h call firstId rfl
  obtain ⟨name, reason, hrefused⟩ := toolCode_argumentsFail rfl hfail
  have hruns : Runs (toolCode wordServer call) [] (.ret (.complete (refused
      (.invalidParam name reason) (some firstId)))) := hrefused ▸ .refl _
  have hmissing := husable [] .init _ firstId (.nil (M := machine) .init) hruns rfl rfl
  exact absurd hmissing (by decide)

end McpSerial
