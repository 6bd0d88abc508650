import McpSerial.Manager.Identity
import McpSerial.Mcp.Calls

/-! What the backend is asked to open: the path of the session just reserved, at its baud
rate, and only for arguments that were accepted. -/

namespace McpSerial
open Interaction Interaction.Discipline

def Request.isOpening : Request → Bool
  | .reserve _ | .backendOpen .. => true
  | _ => false

abbrev openings (P : SessionArgs → Prop) : Discipline Request Response where
  State := Option SessionArgs
  admits
    | _, .reserve args => P args
    | s, .backendOpen path baud => ∃ args, s = some args ∧ path = args.portPath ∧ baud = args.baud
    | _, _ => True
  advance
    | _, .reserve args, .ok _ => some args
    | s, _, _ => s

variable {P : SessionArgs → Prop}

theorem openings_plain : Plain (openings P) := by
  constructor <;> intros <;> first | exact ⟨trivial, fun _ => rfl⟩ | rfl

theorem openings_still {r : Request} (h : r.isOpening = false) (s : Option SessionArgs) :
    (openings P).admits s r ∧ ∀ x, (openings P).advance s r x = s := by
  cases r with
  | reserve | backendOpen => cases h
  | _ => exact ⟨trivial, fun _ => rfl⟩

theorem OnlyAsks.openings {α : Type} {p : Op α} (h : OnlyAsks (fun r => r.isOpening = false) p)
    {Q : Option SessionArgs → α → Prop} {E : Option SessionArgs → SerialError → Prop}
    (hQ : ∀ s a, Q s a) (hE : ∀ s e, E s e) {s : Option SessionArgs} :
    (openings P).Meets s p Q E := by
  apply Follows.mono (Follows.of_only (I := fun _ => True) h trivial ?_)
  · intro s' result _
    cases result with
    | ok a => exact hQ s' a
    | error e => exact hE s' e
  · intro s' r _ hr
    exact ⟨(openings_still hr s').1, fun _ => trivial⟩

theorem Request.isOpening_of_usesPort {id : String} {r : Request} (h : r.usesPort id) :
    r.isOpening = false := by
  cases r <;> first | rfl | cases h

theorem Request.isOpening_of_closes {r : Request} (h : r.closes) : r.isOpening = false := by
  cases r <;> first | rfl | cases h

theorem meets_openings_open {env : Environment} {args : SessionArgs} (s : Option SessionArgs)
    (accepted : matchesAllowlist env args.portPath = true → P args)
    {Q : Option SessionArgs → String → Prop} {E : Option SessionArgs → SerialError → Prop}
    (hQ : ∀ s a, Q s a) (hE : ∀ s e, E s e) :
    (openings P).Meets s (openWithConsoleAndPolicy env args) Q E := by
  unfold openWithConsoleAndPolicy
  split
  next hallowed =>
    rw [meets_bind, meets_ask]
    refine ⟨accepted hallowed, fun reserved => ?_⟩
    cases reserved with
    | error e => exact hE _ _
    | ok id =>
      rw [meets_bind]
      show (openings P).Meets (some args) (_ >>= _) _ _
      rw [meets_bind, meets_ask]
      refine ⟨⟨args, rfl, rfl, rfl⟩, fun result => ?_⟩
      show (openings P).Meets (some args) (_ >>= _) _ _
      rw [meets_bind, meets_ask]
      refine ⟨trivial, fun completed => ?_⟩
      cases completed with
      | error e => exact hE _ _
      | ok id => exact hQ _ _
  · exact hE _ _

/-- Every call opens only what it has reserved for arguments in `P`. -/
def OpensOnly {κ α : Type} (P : SessionArgs → Prop) (code : κ → Program Request Response α) :
    Prop :=
  ∀ call, (openings P).Follows none (code call) fun _ _ => True

/-! ## Runs -/

section Runs

variable {κ α : Type} {code : κ → Program Request Response α}
  {tr : List (Label Request Response κ)} {c : Config machine κ α} {t : Nat}

theorem openings_after {s : Option SessionArgs} {es : List Ask} {args : SessionArgs}
    (h : (openings P).after s es = some args) :
    s = some args ∨ ∃ id, ⟨.reserve args, .ok id⟩ ∈ es := by
  induction es generalizing s with
  | nil => exact .inl h
  | cons e es ih =>
    rcases ih h with hs | ⟨id, hid⟩
    · obtain ⟨r, x⟩ := e
      cases r with
      | reserve args' =>
        cases x with
        | ok id =>
          cases hs
          exact .inr ⟨id, List.mem_cons_self⟩
        | error e => exact .inl hs
      | _ => exact .inl hs
    · exact .inr ⟨id, List.mem_cons_of_mem _ hid⟩

theorem OpensOnly.reserved (hcode : OpensOnly P code) (h : Run machine code tr c) {id : String}
    {args : SessionArgs} (ht : Reserved tr t id args) : P args := by
  obtain ⟨before, after, d, d', rfl, hbefore, hstep, _⟩ := Steps.step_of_mem h ht
  exact Run.admits hcode hbefore hstep

theorem OpensOnly.backendOpen (hcode : OpensOnly P code) (h : Run machine code tr c) {path : String}
    {baud : Nat} {x : Except SerialError Handle}
    (ht : .act t ⟨.backendOpen path baud, x⟩ ∈ tr) :
    ∃ id args, Reserved tr t id args ∧ path = args.portPath ∧ baud = args.baud := by
  obtain ⟨before, after, d, d', rfl, hbefore, hstep, _⟩ := Steps.step_of_mem h ht
  obtain ⟨args, hargs, hpath, hbaud⟩ := Run.admits hcode hbefore hstep
  cases hd : d.threads t with
  | none => simp [Config.track, hd] at hargs
  | some th =>
    rw [Config.track_some hd] at hargs
    rcases openings_after hargs with hnone | ⟨id, hid⟩
    · cases hnone
    · rw [(Run.started hbefore hd).past_eq, mem_eventsOf] at hid
      exact ⟨id, args, List.mem_append_left _ hid, hpath, hbaud⟩

/-- Every session ever in the table has accepted arguments. -/
theorem OpensOnly.session (hcode : OpensOnly P code) (horderly : Orderly code)
    (h : Run machine code tr c) {id : String} {s : Session}
    (hs : c.shared.sessions.lookup id = some s) : P s.toSessionArgs := by
  obtain ⟨t, ht⟩ := (horderly.known h).entry id s hs
  exact hcode.reserved h ht

end Runs

/-! ## The server -/

/-- The arguments that `serial.open` passes on and the manager lets by. -/
def Accepted (srv : McpServer) (args : SessionArgs) : Prop :=
  matchesAllowlist srv.toEnvironment args.portPath = true ∧
    ∃ p target, srv.openArgs p target = .ok args

theorem lookup_openings (s : Option SessionArgs) (id : String)
    {Q : Option SessionArgs → CallToolResponse → Prop} :
    Lookup (openings P) s id (fun _ => True) Q :=
  .of_still trivial fun _ => rfl

theorem toolCode_opens (srv : McpServer) : OpensOnly (Accepted srv) (toolCode srv) := by
  have hport {α : Type} {id : String} {p : Op α} (h : OnlyAsks (fun r => r.usesPort id) p) :
      OnlyAsks (fun r => r.isOpening = false) p :=
    h.mono fun _ hr => Request.isOpening_of_usesPort hr
  have hreads {α : Type} {id : String} {p : Op α} (h : OnlyAsks (fun r => r.reads id) p) :
      OnlyAsks (fun r => r.isOpening = false) p :=
    hport (h.mono fun _ => Request.usesPort_of_reads)
  intro call
  cases call with
  | listPorts => exact follows_listPorts openings_plain (fun _ => trivial) fun _ => trivial
  | «open» p =>
    apply follows_open openings_plain
    · intro target args hargs
      apply meets_openings_open
      · exact fun hallowed => ⟨hallowed, p, target, hargs⟩
      · exact fun _ _ => trivial
      · exact fun _ _ => trivial
    · exact fun _ => trivial
  | sessions => exact follows_sessions openings_plain fun _ => trivial
  | getSession p =>
    exact follows_getSession (lookup_openings _ _) (fun _ _ => trivial) fun _ => trivial
  | write p context inputResponses =>
    apply follows_write (lookup_openings _ _)
    · intro _ _ _ _ _ _
      exact follows_run_bind.mpr ((hport (OnlyAsks.writeWithCancel ..)).openings
        (fun _ _ => trivial) fun _ _ => trivial)
    all_goals intros; trivial
  | read p =>
    apply follows_read (lookup_openings _ _)
    · exact fun _ _ => (hreads (OnlyAsks.readWithCancel ..)).openings (fun _ _ => trivial)
        fun _ _ => trivial
    · exact fun _ => trivial
  | drain p | clearInput p =>
    exact follows_run_bind.mpr ((hreads (OnlyAsks.drain ..)).openings (fun _ _ => trivial)
      fun _ _ => trivial)
  | readUntil p =>
    apply follows_readUntil (lookup_openings _ _)
    · exact fun _ => (hreads (OnlyAsks.readUntilWithCancel ..)).openings (fun _ _ => trivial)
        fun _ _ => trivial
    · exact fun _ => trivial
  | exec p context inputResponses =>
    apply follows_exec (lookup_openings _ _)
    · intro _ _ _ _ _ _ _ _
      apply follows_sendExec (lookup_openings _ _)
      · exact fun _ _ => (hport (OnlyAsks.execWithOptions ..)).openings (fun _ _ => trivial)
          fun _ _ => trivial
      · exact fun _ => trivial
    all_goals intros; trivial
  | close p =>
    have honly : OnlyAsks (fun r => r.isOpening = false)
        (closeWithTimeout p.sessionId maxTimeoutMs) :=
      (OnlyAsks.closeWithTimeout ..).mono fun _ hr => Request.isOpening_of_closes hr
    exact follows_run_bind.mpr (honly.openings (fun _ _ => trivial) fun _ _ => trivial)

end McpSerial
