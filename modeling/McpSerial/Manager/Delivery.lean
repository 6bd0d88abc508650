import McpSerial.Manager.Atomicity
import McpSerial.Manager.Intake

/-! Device input is delivered once and in order: the bytes of each port are cut into one
segment for each operation, and what an operation reports accounts for its segment. -/

namespace McpSerial
open Interaction Interaction.Program Interaction.Discipline

/-! ## Segments -/

section Traces

variable {κ : Type}

/-- The bytes that the device behind `port` has delivered. -/
def delivered (port : Handle) (tr : List (Label Request Response κ)) : List UInt8 :=
  (ioEvents port tr).flatMap fun x => obtained x.2

/-- The bytes that thread `t` has read. -/
def got (t : Nat) (tr : List (Label Request Response κ)) : List UInt8 :=
  (eventsOf t tr).flatMap obtained

theorem obtained_eq_nil {e : Ask} (h : e.req.ioPort = none) : obtained e = [] := by
  obtain ⟨r, x⟩ := e
  cases r <;> first | rfl | cases h

end Traces

theorem Serialized.delivered_eq {κ α : Type} {tr : List (Label Request Response κ)}
    {c : Config machine κ α} (h : Serialized tr (roles c)) (port : Handle) :
    delivered port tr = (lockOrder port tr).flatMap fun t => got t tr := by
  rw [delivered, (h.blocks port).flatMap_eq]
  exact List.flatMap_congr fun t ht => h.flatMap_block ht fun _ => obtained_eq_nil

/-! ## The end of the stream -/

def EndSignalled (es : List Ask) : Prop :=
  ∃ port max token, ∃ bytes : {bytes : List UInt8 // bytes.length ≤ max},
    0 < max ∧ bytes.1 = [] ∧ ⟨.read port max token, .ready (.ok bytes)⟩ ∈ es

theorem Intake.read_of_mem {es : List Ask} {chunk : List UInt8}
    (h : chunk ∈ (Intake.run es).before ++ (Intake.run es).chunks) :
    ∃ port max token, ∃ bytes : {bytes : List UInt8 // bytes.length ≤ max},
      bytes.1 = chunk ∧ ⟨.read port max token, .ready (.ok bytes)⟩ ∈ es := by
  induction es using List.reverseRecOn with
  | nil => cases h
  | append_singleton es e ih =>
    have hstep : Intake.run (es ++ [e]) = (Intake.run es).advance e.req e.resp := by
      simp [Intake.run]
    rw [hstep] at h
    have hold (h : chunk ∈ (Intake.run es).before ++ (Intake.run es).chunks) :
        ∃ port max token, ∃ bytes : {bytes : List UInt8 // bytes.length ≤ max},
          bytes.1 = chunk ∧ ⟨.read port max token, .ready (.ok bytes)⟩ ∈ es ++ [e] := by
      obtain ⟨port, max, token, bytes, hbytes, hmem⟩ := ih h
      exact ⟨port, max, token, bytes, hbytes, List.mem_append_left _ hmem⟩
    obtain ⟨r, x⟩ := e
    cases r with
    -- a read that comes back with bytes is the only event that adds a chunk
    | read port max token =>
      rcases x with (_ | bytes) | _ | _
      · exact hold h
      · have h' : chunk ∈ (Intake.run es).before ++ ((Intake.run es).chunks ++ [bytes.1]) := h
        rw [← List.append_assoc] at h'
        rcases List.mem_append.mp h' with h' | h'
        · exact hold h'
        · exact ⟨port, max, token, bytes, (List.mem_singleton.mp h').symm, by simp⟩
      · exact hold h
      · exact hold h
    | flush =>
      rcases x with (_ | _) | _ | _
      · exact hold h
      · have h' : chunk ∈ ((Intake.run es).before ++ (Intake.run es).chunks) ++ [] := h
        rw [List.append_nil] at h'
        exact hold h'
      · exact hold h
      · exact hold h
    | _ => exact hold h

/-! ## Calls -/

def ManagerCall.readLimit : ManagerCall → Nat
  | .read _ maxBytes _ _ | .drain _ maxBytes _ | .clearInput _ maxBytes _ => maxBytes
  | _ => 0

/-- What a result says about the intake of its call. -/
def Accounts (call : ManagerCall) (i : Intake) : Except SerialError ManagerResult → Prop
  | .ok (.read o) => i.before = [] ∧ ReadSpec call.readLimit i.chunks o
  | .ok (.ran o) => RunAccount i.bytes o
  | _ => True

theorem managerCode_intake (env : Environment) (rx : RegexCrate) (call : ManagerCall) :
    intake.Follows {} (managerCode env rx call) (Accounts call) := by
  have hmap {β : Type} {p : Op β} {f : β → ManagerResult} {Q : Intake → β → Prop}
      (h : intake.Meets {} p Q fun _ _ => True)
      (hQ : ∀ i b, Q i b → Accounts call i (.ok (f b))) :
      intake.Follows {} (do return f (← p) : Op ManagerResult).run (Accounts call) := by
    have hbind : intake.Meets {} (do return f (← p) : Op ManagerResult)
        (fun i a => Accounts call i (.ok a)) (fun _ _ => True) := h.bind hQ
    apply Follows.mono hbind
    intro i result hi
    cases result with
    | ok a => exact hi
    | error e => trivial
  cases call with
  | «open» args => exact hmap (intake_openWithConsoleAndPolicy env args) fun _ _ h => h
  | close id timeoutMs =>
    exact hmap (f := fun _ => .closed) (intake_closeWithTimeout id timeoutMs) fun _ _ h => h
  | write id data token => exact hmap (intake_writeWithCancel id data token) fun _ _ h => h
  | read id maxBytes timeoutMs token =>
    exact hmap (intake_readWithCancel id maxBytes timeoutMs token) fun _ _ h => h
  | readUntil id pattern timeoutMs token =>
    apply hmap (intake_readUntilWithCancel rx id pattern timeoutMs token)
    rintro i o ⟨hfirst, _, _, found, hfinds, hpresents, hcleared⟩
    exact hpresents.account (by rw [hcleared]; exact hfirst) hfinds
  | drain id maxBytes token => exact hmap (intake_drain id maxBytes token) fun _ _ h => h
  | clearInput id maxBytes token => exact hmap (intake_drain id maxBytes token) fun _ _ h => h
  | exec id command expect timeoutMs options token =>
    apply hmap (intake_execWithOptions rx id command expect timeoutMs options token)
    rintro i o ⟨_, _, h⟩
    exact h.account

structure ReadAccount (maxBytes : Nat) (segment : List UInt8) (o : ReadOutcome) : Prop where
  data : o.data = segment
  count : o.bytesRead = segment.length
  bounded : segment.length ≤ maxBytes

variable {env : Environment} {rx : RegexCrate} {tr : List ManagerLabel} {c : ManagerConfig}
  {t : Nat} {th : ManagerThread}

theorem got_eq (h : Run machine (managerCode env rx) tr c) (ht : c.threads t = some th) :
    got t tr = (Intake.run th.past).bytes := by
  rw [Intake.run_bytes, (Run.started h ht).past_eq]
  rfl

theorem accounts (h : Run machine (managerCode env rx) tr c) (ht : c.threads t = some th)
    {result : Except SerialError ManagerResult} (hret : th.rest = .ret result) :
    Accounts th.call (Intake.run th.past) result :=
  (managerCode_intake env rx th.call).returns (hret ▸ (Run.started h ht).runs)

theorem read_accounted (h : Run machine (managerCode env rx) tr c) (ht : c.threads t = some th)
    {o : ReadOutcome} (hret : th.rest = .ret (.ok (.read o))) :
    ReadAccount th.call.readLimit (got t tr) o ∧ (o.status = .eof → EndSignalled th.past) := by
  obtain ⟨hfirst, hread⟩ := accounts h ht hret
  have hgot : got t tr = (Intake.run th.past).chunks.flatten := by
    rw [got_eq h ht, Intake.bytes, hfirst]
    rfl
  rw [hgot]
  refine ⟨⟨hread.data, hread.bytes_read, hread.bounded⟩, fun heof => ?_⟩
  have hmem : [] ∈ (Intake.run th.past).before ++ (Intake.run th.past).chunks :=
    List.mem_append_right _ (List.mem_of_getLast? (hread.eof heof))
  obtain ⟨port, max, token, bytes, hbytes, hread⟩ := Intake.read_of_mem hmem
  have hadmits := (managerCode_intake env rx th.call).mem (Run.started h ht).runs
    (fun _ _ hr => hr) _ hread
  exact ⟨port, max, token, bytes, hadmits, hbytes, hread⟩

/-- The bytes that a port delivers are cut into one segment for each call, in the order of
the locks. A bounded read returns its segment, which it keeps within its limit, and tells the
end of the stream only where a read has told it. A pattern-driven call returns the last
`maxReadBuffer` bytes of what it has read since it cleared the input. -/
theorem input_delivered_once (env : Environment) (rx : RegexCrate) {tr : List ManagerLabel}
    {c : ManagerConfig} (h : Run machine (managerCode env rx) tr c) :
    (∀ port, (lockOrder port tr).Nodup ∧
      delivered port tr = (lockOrder port tr).flatMap fun t => got t tr) ∧
    (∀ t th, c.threads t = some th →
      (∀ o, th.rest = .ret (.ok (.read o)) →
        ReadAccount th.call.readLimit (got t tr) o ∧ (o.status = .eof → EndSignalled th.past)) ∧
      (∀ o, th.rest = .ret (.ok (.ran o)) → RunAccount (got t tr) o)) ∧
    (FreshIds tr → ∀ id, ∃ port, ∀ t th e p, c.threads t = some th →
      th.call.sessionId = some id → e ∈ th.past → e.req.ioPort = some p → p = port) := by
  have hserial := (managerCode_orderly env rx).serialized h
  refine ⟨fun port => ⟨(hserial.blocks port).nodup, hserial.delivered_eq port⟩,
    fun t th ht => ⟨fun o => read_accounted h ht, fun o hret => ?_⟩, session_port h⟩
  rw [got_eq h ht]
  exact accounts h ht hret

theorem input_delivered_once_read : ∃ tr c, Run machine (managerCode defaultEnv noRegex) tr c ∧
    delivered (0 : Nat) tr = [1].flatMap (fun t => got t tr) ∧
    ∃ th, c.threads 1 = some th ∧
      th.rest = .ret (.ok (.read ⟨[79, 75], .eof, 2, false⟩)) ∧
      ReadAccount 16 (got 1 tr) ⟨[79, 75], .eof, 2, false⟩ ∧ EndSignalled th.past := by
  obtain ⟨threads, h₀, hfree, _⟩ := first_run
  have h₁ := h₀.start 1 (.read firstId 16 1000 .never) (hfree 1 (by decide))
  have h₂ := h₁.act 1 (r := .get firstId) (some firstSession) rfl ⟨rfl, rfl⟩
  have h₃ := h₂.act 1 (r := .timeLeft) true rfl rfl
  have h₄ := h₃.act 1 (r := .lock (0 : Nat) .never) (.ready ()) rfl ⟨rfl, rfl⟩
  have h₅ := h₄.act 1 (r := .get firstId) (some firstSession) rfl ⟨rfl, rfl⟩
  have h₆ := h₅.act 1 (r := .turns) (2 : Nat) rfl rfl
  have h₇ := h₆.act 1 (r := .read (0 : Nat) 16 .never) (.ready (.ok ⟨[79, 75], by decide⟩)) rfl
    ⟨trivial, rfl⟩
  have h₈ := h₇.act 1 (r := .read (0 : Nat) 14 .never) (.ready (.ok ⟨[], by decide⟩)) rfl
    ⟨trivial, rfl⟩
  have h₉ := h₈.act 1 (r := .unlock (0 : Nat)) () rfl rfl
  have h := input_delivered_once defaultEnv noRegex h₉
  have hread := (h.2.1 1 _ rfl).1 _ rfl
  exact ⟨_, _, h₉, (h.1 (0 : Nat)).2, _, rfl, rfl, hread.1, hread.2 rfl⟩

end McpSerial
