import McpSerial.Manager.IoLog

/-! Calls whose token is cancelled when they start: an `exec` asks for the token and sends
nothing; a `write` leaves it to the branch that each of its `select!`s polls first. -/

namespace McpSerial
open Interaction Interaction.Program Interaction.Discipline

/-- A call that wrote no byte and returned a cancelled outcome or an error. -/
def NotSent (es : List Ask) (result : Except SerialError ManagerResult) : Prop :=
  es.flatMap accepted = [] ∧
    ((∃ e, result = .error e) ∨ ∃ o, result = .ok (.ran o) ∧ o.status = .cancelled)

/-- In every run in which the answers to the call satisfy `A` it writes no byte, and returns
as a call that is not sent. -/
def NeverSent (call : ManagerCall) (A : (r : Request) → Response r → Prop) : Prop :=
  ∀ env rx tr c, Run machine (managerCode env rx) tr c → ∀ t th, c.threads t = some th →
    th.call = call → (∀ e ∈ th.past, A e.req e.resp) →
      th.past.flatMap accepted = [] ∧ ∀ result, th.rest = ret result → NotSent th.past result

/-- Whether the `select!` of `lock_port`, that of `write_all_deadline` and that of
`flush_deadline` polls the branch of the token first. -/
structure SelectOrder where
  lock : Bool
  write : Bool
  flush : Bool

def SelectOrder.Allows (order : SelectOrder) : (r : Request) → Response r → Prop
  | .lock .., x => order.lock = true → x = .cancelled
  | .cancelPicked _, x => order.write = true → x = true
  | .flush .., x => order.flush = true → x = .cancelled
  | _, _ => True

/-! ## Calls that ask for no write -/

def Request.writes : Request → Bool
  | .write .. => true
  | _ => false

noncomputable abbrev writesOnlyPast (A : (r : Request) → Response r → Prop) :
    Discipline Request Response :=
  (only fun r => r.writes = false).assuming A

section Unwritten

variable {A : (r : Request) → Response r → Prop} {α : Type} {id : String} {port : Handle}
  {timeoutMs : Nat} {token : Token} {order : SelectOrder} {data : List UInt8}

theorem unwritten_ask {r : Request} {E : Unit → SerialError → Prop} (hr : r.writes = false) :
    (writesOnlyPast A).Meets (some ()) (ask r) (assumed fun _ x => A r x) (assumed E) :=
  meets_assuming_ask hr fun _ hx => hx

theorem unwritten_throw {e : SerialError} {Q : Unit → α → Prop} :
    (writesOnlyPast A).Meets (some ()) (throw e : Op α) (assumed Q) (assumed fun _ _ => True) :=
  meets_throw.mpr fun _ _ => trivial

theorem unwritten_getOr : (writesOnlyPast A).Meets (some ()) (getOr id)
    (assumed fun _ _ => True) (assumed fun _ _ => True) := by
  apply Meets.assumed_bind (unwritten_ask rfl)
  rintro _ found -
  cases found with
  | none => exact unwritten_throw
  | some x => exact meets_pure.mpr fun _ _ => trivial

theorem unwritten_checkout : (writesOnlyPast A).Meets (some ()) (checkoutPortAndTimeout id)
    (assumed fun _ _ => True) (assumed fun _ _ => True) := by
  apply Meets.assumed_bind unwritten_getOr
  rintro _ x -
  split
  · exact meets_pure.mpr fun _ _ => trivial
  · exact unwritten_throw

theorem unwritten_ensure : (writesOnlyPast A).Meets (some ()) (ensurePortStillReady id port)
    (assumed fun _ _ => True) (assumed fun _ _ => True) := by
  apply Meets.assumed_bind unwritten_getOr
  rintro _ x -
  split
  · exact meets_pure.mpr fun _ _ => trivial
  · exact unwritten_throw

theorem unwritten_lockPort :
    (writesOnlyPast order.Allows).Meets (some ()) (lockPort port timeoutMs token)
      (assumed fun _ _ => order.lock = false) (assumed fun _ _ => True) := by
  apply Meets.assumed_bind (unwritten_ask rfl)
  rintro _ left -
  cases left with
  | false => exact unwritten_throw
  | true =>
    apply Meets.assumed_bind (unwritten_ask rfl)
    rintro _ poll hpoll
    cases poll with
    | ready =>
      apply meets_pure.mpr
      intro _ _
      by_contra hfirst
      cases hpoll (Bool.of_not_eq_false hfirst)
    | elapsed => exact unwritten_throw
    | cancelled => exact unwritten_throw

theorem unwritten_writeAllDeadline (h : order.write = true ∨ data = []) :
    (writesOnlyPast order.Allows).Meets (some ()) (writeAllDeadline port data timeoutMs token)
      (assumed fun _ _ => order.write = false) (assumed fun _ _ => True) := by
  apply Meets.assumed_bind (unwritten_ask rfl)
  rintro _ left -
  cases left with
  | false => exact unwritten_throw
  | true =>
    apply Meets.assumed_bind (unwritten_ask rfl)
    rintro _ picked hpicked
    cases picked with
    | true => exact unwritten_throw
    | false =>
      have hport : order.write = false := by
        by_contra hfirst
        cases hpicked (Bool.of_not_eq_false hfirst)
      obtain rfl : data = [] := h.resolve_left (hport ▸ nofun)
      exact meets_pure.mpr fun _ _ => hport

theorem unwritten_flushDeadline (h : order.flush = true) :
    (writesOnlyPast order.Allows).Meets (some ()) (flushDeadline port timeoutMs token)
      (assumed fun _ _ => False) (assumed fun _ _ => True) := by
  apply Meets.assumed_bind (unwritten_ask rfl)
  rintro _ left -
  cases left with
  | false => exact unwritten_throw
  | true =>
    apply Meets.assumed_bind (unwritten_ask rfl)
    rintro _ poll hpoll
    obtain rfl := hpoll h
    exact unwritten_throw

/-- A `write` stops at the first `select!` that polls the branch of the token first, if it
has written nothing by then. -/
theorem unwritten_writeWithCancel
    (h : order.lock = true ∨ order.write = true ∨ data = [] ∧ order.flush = true) :
    (writesOnlyPast order.Allows).Meets (some ()) (writeWithCancel id data token)
      (assumed fun _ _ => False) (assumed fun _ _ => True) := by
  apply Meets.assumed_bind unwritten_checkout
  rintro _ ⟨port, timeoutMs⟩ -
  apply Meets.assumed_bind unwritten_lockPort
  rintro _ _ hlock
  have hwrite := h.resolve_left (hlock ▸ nofun)
  apply Meets.assumed_releasing fun _ => ⟨rfl, fun _ => rfl⟩
  apply Meets.assumed_bind unwritten_ensure
  rintro _ _ -
  apply Meets.assumed_bind (unwritten_writeAllDeadline (hwrite.imp_right And.left))
  rintro _ _ hport
  have hflush := hwrite.resolve_left (hport ▸ nofun)
  apply Meets.assumed_bind (unwritten_flushDeadline hflush.2)
  rintro _ _ ⟨⟩

/-- What `is_cancelled()` returns is what the token tells. -/
def Told : (r : Request) → Response r → Prop
  | .isCancelled token, x => token.tells x
  | _, _ => True

/-- An `exec` asks for the token before it asks for anything else but the session. -/
theorem unwritten_exec (rx : RegexCrate) (command : List UInt8) (expect : String)
    (options : ExecOptions) :
    (writesOnlyPast Told).Meets (some ())
      (execWithOptions rx id command expect timeoutMs options .cancelled)
      (assumed fun _ o => o.status = .cancelled) (assumed fun _ _ => True) := by
  unfold execWithOptions checkoutPort
  split
  · exact unwritten_throw
  · apply Meets.assumed_bind (Q := fun _ _ => True)
    · apply Meets.assumed_bind unwritten_checkout
      rintro _ _ -
      exact meets_pure.mpr fun _ _ => trivial
    rintro _ port -
    cases PatternMatcher.new rx expect with
    | error e => exact unwritten_throw
    | ok m =>
      rw [meets_bind, meets_ofResult]
      show (writesOnlyPast Told).Meets (some ()) (_ >>= _) _ _
      apply Meets.assumed_bind (unwritten_ask rfl)
      rintro _ cancelled htold
      cases cancelled with
      | false => exact absurd rfl htold
      | true => exact meets_pure.mpr fun _ _ => rfl

end Unwritten

/-! ## Calls -/

theorem flatMap_accepted_eq_nil {es : List Ask} (h : ∀ e ∈ es, e.req.writes = false) :
    es.flatMap accepted = [] := by
  apply List.flatMap_eq_nil_iff.mpr
  intro e he
  have hwrites := h e he
  obtain ⟨r, x⟩ := e
  cases r with
  | write => cases hwrites
  | _ => rfl

theorem notSent_of_unwritten {env : Environment} {rx : RegexCrate} {call : ManagerCall}
    {A : (r : Request) → Response r → Prop} {es : List Ask} {rest : ManagerProgram}
    (hcall : (writesOnlyPast A).Meets (some ()) (managerOp env rx call)
      (assumed fun _ a => ∃ o, a = .ran o ∧ o.status = .cancelled) (assumed fun _ _ => True))
    (h : Runs (managerCode env rx call) es rest) (hA : ∀ e ∈ es, A e.req e.resp) :
    es.flatMap accepted = [] ∧ ∀ result, rest = ret result → NotSent es result := by
  have hunwritten := flatMap_accepted_eq_nil (Follows.assuming_mem hcall h hA)
  refine ⟨hunwritten, ?_⟩
  rintro result rfl
  have hresult := hcall.returns h
  rw [assuming_after hA] at hresult
  refine ⟨hunwritten, ?_⟩
  cases result with
  | ok a =>
    obtain ⟨o, rfl, ho⟩ := hresult () rfl
    exact .inr ⟨o, rfl, ho⟩
  | error e => exact .inl ⟨e, rfl⟩

theorem exec_neverSent (id : String) (command : List UInt8) (expect : String) (timeoutMs : Nat)
    (options : ExecOptions) :
    NeverSent (.exec id command expect timeoutMs options .cancelled) fun _ _ => True := by
  intro env rx tr c hrun t th ht hcall _
  have htold : ∀ e ∈ th.past, Told e.req e.resp := by
    intro e he
    obtain ⟨σ, σ', hanswer⟩ := Run.answers hrun ht he
    obtain ⟨r, x⟩ := e
    cases r with
    | isCancelled token => exact hanswer.1
    | _ => trivial
  refine notSent_of_unwritten ?_ (hcall ▸ (Run.started hrun ht).runs) htold
  apply Meets.assumed_bind (unwritten_exec rx command expect options)
  exact fun _ o ho => meets_pure.mpr fun _ _ => ⟨o, rfl, ho⟩

theorem write_neverSent {order : SelectOrder} {data : List UInt8}
    (h : order.lock = true ∨ order.write = true ∨ data = [] ∧ order.flush = true) (id : String) :
    NeverSent (.write id data .cancelled) order.Allows := by
  intro env rx tr c hrun t th ht hcall hallowed
  refine notSent_of_unwritten ?_ (hcall ▸ (Run.started hrun ht).runs) hallowed
  apply Meets.assumed_bind (unwritten_writeWithCancel h)
  rintro _ _ ⟨⟩

/-- The port's branch is taken wherever it is polled first and the port is ready. -/
theorem write_sent {order : SelectOrder} {data : List UInt8} (hlock : order.lock = false)
    (hwrite : order.write = false) (hflush : data = [] → order.flush = false) :
    ¬NeverSent (.write firstId data .cancelled) order.Allows := by
  intro h
  obtain ⟨threads, h₀, hfree, _⟩ := first_run
  have h₁ := h₀.start 1 (.write firstId data .cancelled) (hfree 1 (by decide))
  have h₂ := h₁.act 1 (r := .get firstId) (some firstSession) rfl ⟨rfl, rfl⟩
  have h₃ := h₂.act 1 (r := .timeLeft) true rfl rfl
  have h₄ := h₃.act 1 (r := .lock (0 : Nat) .cancelled) (.ready ()) rfl ⟨rfl, rfl⟩
  have h₅ := h₄.act 1 (r := .get firstId) (some firstSession) rfl ⟨rfl, rfl⟩
  have h₆ := h₅.act 1 (r := .timeLeft) true rfl rfl
  have h₇ := h₆.act 1 (r := .cancelPicked .cancelled) false rfl ⟨nofun, rfl⟩
  cases data with
  | nil =>
    have h₈ := h₇.act 1 (r := .timeLeft) true rfl rfl
    have h₉ := h₈.act 1 (r := .flush (0 : Nat) .cancelled) (.ready (.ok ())) rfl ⟨trivial, rfl⟩
    have h₁₀ := h₉.act 1 (r := .unlock (0 : Nat)) () rfl rfl
    obtain ⟨-, hreturned⟩ := h _ _ _ _ h₁₀ 1 _ rfl rfl
      (by simp [SelectOrder.Allows, hlock, hwrite, hflush])
    rcases (hreturned _ rfl).2 with ⟨e, he⟩ | ⟨o, ho, _⟩
    · cases he
    · cases ho
  | cons b data =>
    have h₈ := h₇.act 1 (r := .write (0 : Nat) (b :: data) .cancelled)
      (.ready (.ok ⟨1, by simp⟩)) rfl ⟨trivial, rfl⟩
    obtain ⟨hunwritten, -⟩ := h _ _ _ _ h₈ 1 _ rfl rfl
      (by simp [SelectOrder.Allows, hlock, hwrite])
    cases hunwritten

/-- Whatever the schedule, an `exec` whose token is cancelled when it starts is not sent. A
`write` is not sent just when the `select!` of `lock_port` or that of `write_all_deadline` polls
the branch of the token first or, for an empty payload, that of `flush_deadline` does. -/
theorem cancelled_call_not_sent (order : SelectOrder) (data : List UInt8) :
    (∀ id command expect timeoutMs options,
      NeverSent (.exec id command expect timeoutMs options .cancelled) fun _ _ => True) ∧
    ((∀ id, NeverSent (.write id data .cancelled) order.Allows) ↔
      order.lock = true ∨ order.write = true ∨ data = [] ∧ order.flush = true) := by
  refine ⟨exec_neverSent, fun h => ?_, write_neverSent⟩
  by_contra hcond
  simp only [not_or, not_and, Bool.not_eq_true] at hcond
  exact write_sent hcond.1 hcond.2.1 hcond.2.2 (h firstId)

/-- A write whose lock is given up for the cancelled token. -/
theorem cancelled_call_not_sent_lock : ∃ tr c th,
    Run machine (managerCode defaultEnv noRegex) tr c ∧ c.threads 1 = some th ∧
    th.call = .write firstId [0x79] .cancelled ∧ NotSent th.past (.error .cancelled) := by
  obtain ⟨threads, h₀, hfree, _⟩ := first_run
  have h₁ := h₀.start 1 (.write firstId [0x79] .cancelled) (hfree 1 (by decide))
  have h₂ := h₁.act 1 (r := .get firstId) (some firstSession) rfl ⟨rfl, rfl⟩
  have h₃ := h₂.act 1 (r := .timeLeft) true rfl rfl
  have h₄ := h₃.act 1 (r := .lock (0 : Nat) .cancelled) .cancelled rfl ⟨nofun, rfl⟩
  have hnever := (cancelled_call_not_sent ⟨true, false, false⟩ [0x79]).2.mpr (.inl rfl) firstId
  obtain ⟨-, hreturned⟩ := hnever _ _ _ _ h₄ 1 _ rfl rfl (by simp [SelectOrder.Allows])
  exact ⟨_, _, _, h₄, rfl, rfl, hreturned _ rfl⟩

/-- A write of one byte of which every `select!` polls the port's branch first. -/
theorem cancelled_write_sent : ¬NeverSent (.write firstId [0x79] .cancelled) fun _ _ => True := by
  intro h
  have hsent : ¬NeverSent (.write firstId [0x79] .cancelled)
      (SelectOrder.Allows ⟨false, false, false⟩) := write_sent rfl rfl nofun
  exact hsent fun env rx tr c hrun t th ht hcall _ =>
    h env rx tr c hrun t th ht hcall fun _ _ => trivial

end McpSerial
