import Mathlib.Data.List.Induction
import McpSerial.Interaction.Blocks
import McpSerial.Manager.Identity
import McpSerial.Manager.IoLog

/-! Input and output on one port: each operation is one uninterrupted block, in the
order in which the operations got the lock. -/

namespace McpSerial
open Interaction Interaction.Discipline

def grantedPort : Ask → Option Handle
  | ⟨.lock port _, .ready _⟩ => some port
  | _ => none

section Traces

variable {κ : Type}

/-- The threads that got the lock on `port`, in that order. -/
def lockOrder (port : Handle) (tr : List (Label Request Response κ)) : List Nat :=
  tr.filterMap fun
    | .start _ _ => none
    | .act t e => if grantedPort e = some port then some t else none

def ioEvents (port : Handle) (tr : List (Label Request Response κ)) : List (Nat × Ask) :=
  tr.filterMap fun
    | .start _ _ => none
    | .act t e => if e.req.ioPort = some port then some (t, e) else none

/-- The bytes that the device behind `port` gets. -/
def received (port : Handle) (tr : List (Label Request Response κ)) : List UInt8 :=
  (ioEvents port tr).flatMap fun x => accepted x.2

/-- The bytes that thread `t` has got through to a device. -/
def sent (t : Nat) (tr : List (Label Request Response κ)) : List UInt8 :=
  (eventsOf t tr).flatMap accepted

variable {tr : List (Label Request Response κ)} {port : Handle} {t : Nat} {e : Ask}

@[simp] theorem lockOrder_start (call : κ) :
    lockOrder port (tr ++ [.start t call]) = lockOrder port tr := by
  simp [lockOrder]

@[simp] theorem ioEvents_start (call : κ) :
    ioEvents port (tr ++ [.start t call]) = ioEvents port tr := by
  simp [ioEvents]

theorem lockOrder_grant (h : grantedPort e = some port) :
    lockOrder port (tr ++ [.act t e]) = lockOrder port tr ++ [t] := by
  simp [lockOrder, h]

theorem lockOrder_skip (h : grantedPort e ≠ some port) :
    lockOrder port (tr ++ [.act t e]) = lockOrder port tr := by
  simp [lockOrder, h]

theorem ioEvents_io (h : e.req.ioPort = some port) :
    ioEvents port (tr ++ [.act t e]) = ioEvents port tr ++ [(t, e)] := by
  simp [ioEvents, h]

theorem ioEvents_skip (h : e.req.ioPort ≠ some port) :
    ioEvents port (tr ++ [.act t e]) = ioEvents port tr := by
  simp [ioEvents, h]

theorem mem_ioEvents {x : Nat × Ask} :
    x ∈ ioEvents port tr ↔ .act x.1 x.2 ∈ tr ∧ x.2.req.ioPort = some port := by
  constructor
  · intro h
    obtain ⟨l, hl, hx⟩ := List.mem_filterMap.mp h
    cases l with
    | start => cases hx
    | act u e' =>
      simp only [Option.ite_none_right_eq_some, Option.some.injEq] at hx
      obtain ⟨hio, rfl⟩ := hx
      exact ⟨hl, hio⟩
  · rintro ⟨hl, hio⟩
    exact List.mem_filterMap.mpr ⟨_, hl, by simp [hio]⟩

theorem accepted_eq_nil (h : e.req.ioPort = none) : accepted e = [] := by
  obtain ⟨r, x⟩ := e
  cases r <;> first | rfl | cases h

end Traces

def Role.spent : Role → Bool
  | .draining .. | .drained .. | .holding _ | .active .. | .done => true
  | _ => false

theorem Move.io_cases {t : Nat} {σ σ' : ManagerState} {ρ ρ' : Role} {e : Ask}
    (m : Move t σ ρ e σ' ρ') :
    (∃ port, grantedPort e = some port ∧ e.req.ioPort = none ∧ σ.owner port = none ∧
      ρ.spent = false ∧ ρ'.spent = true ∧ ρ'.locked = some port) ∨
    (∃ id port, grantedPort e = none ∧ e.req.ioPort = some port ∧ ρ = .active id port ∧ ρ' = ρ) ∨
    (grantedPort e = none ∧ e.req.ioPort = none ∧ (ρ.spent = true → ρ'.spent = true) ∧
      (ρ'.locked = ρ.locked ∨ ρ'.locked = none)) := by
  cases m with
  | @drain id port token free => exact .inl ⟨port, rfl, rfl, free, rfl, rfl, rfl⟩
  | @hold port token free => exact .inl ⟨port, rfl, rfl, free, rfl, rfl, rfl⟩
  | @io id port e uses =>
    obtain ⟨r, x⟩ := e
    cases r with
    | read | write | flush => exact .inr (.inl ⟨id, port, rfl, uses, rfl, rfl⟩)
    | _ => cases uses
  | quiet _ e silent =>
    obtain ⟨r, x⟩ := e
    refine .inr (.inr ⟨?_, ?_, fun h => h, .inl rfl⟩)
    · cases r with
      | lock =>
        cases x with
        | ready => cases silent
        | elapsed => rfl
        | cancelled => rfl
      | _ => rfl
    · cases r with
      | read | write | flush => cases silent
      | _ => rfl
  | reserve | connect | refuse | begin => exact .inr (.inr ⟨rfl, rfl, nofun, .inr rfl⟩)
  | check => exact .inr (.inr ⟨rfl, rfl, fun _ => rfl, .inl rfl⟩)
  | _ => exact .inr (.inr ⟨rfl, rfl, fun _ => rfl, .inr rfl⟩)

/-- Who has had which lock, and the blocks that the holders have made. -/
structure Serialized {κ : Type} (tr : List (Label Request Response κ)) (ρs : Nat → Role) :
    Prop where
  blocks : ∀ port, Blocks (lockOrder port tr) (ioEvents port tr)
  last : ∀ t port, (ρs t).locked = some port → ∃ before, lockOrder port tr = before ++ [t]
  spent : ∀ t port, t ∈ lockOrder port tr → (ρs t).spent = true
  single : ∀ t p q, t ∈ lockOrder p tr → t ∈ lockOrder q tr → p = q

section Moves

variable {κ : Type} {tr : List (Label Request Response κ)} {t : Nat} {σ σ' : ManagerState}
  {ρs : Nat → Role} {ρ ρ' : Role} {e : Ask}

theorem Serialized.initial :
    Serialized ([] : List (Label Request Response κ)) fun _ => .idle where
  blocks _ := .nil
  last _ _ h := by cases h
  spent _ _ h := by cases h
  single _ _ _ h := by cases h

theorem Serialized.start (h : Serialized tr ρs) (t : Nat) (call : κ) :
    Serialized (tr ++ [.start t call]) ρs where
  blocks port := by
    rw [lockOrder_start, ioEvents_start]
    exact h.blocks port
  last u port hu := by
    rw [lockOrder_start]
    exact h.last u port hu
  spent u port hu := h.spent u port (by rwa [lockOrder_start] at hu)
  single u p q hp hq := by
    rw [lockOrder_start] at hp hq
    exact h.single u p q hp hq

theorem mem_lockOrder_grant {port p : Handle} {u : Nat} (h : grantedPort e = some port)
    (hu : u ∈ lockOrder p (tr ++ [.act t e])) : u ∈ lockOrder p tr ∨ (u = t ∧ p = port) := by
  by_cases hp : port = p
  · subst hp
    rw [lockOrder_grant h] at hu
    rcases List.mem_append.mp hu with hu | hu
    · exact .inl hu
    · exact .inr ⟨List.mem_singleton.mp hu, rfl⟩
  · rw [lockOrder_skip (by simpa [h] using hp)] at hu
    exact .inl hu

/-- The next block is opened by the thread that gets the lock. -/
theorem Serialized.grant (h : Serialized tr ρs) (hown : Owned σ ρs) {port : Handle}
    (hgrant : grantedPort e = some port) (hio : e.req.ioPort = none)
    (hfree : σ.owner port = none) (hfresh : (ρs t).spent = false) (hspent : ρ'.spent = true)
    (hlocked : ρ'.locked = some port) :
    Serialized (tr ++ [.act t e]) (Function.update ρs t ρ') := by
  -- a thread locks once, so it has no block yet
  have hnot : ∀ p, t ∉ lockOrder p tr := by
    intro p ht
    rw [h.spent t p ht] at hfresh
    cases hfresh
  constructor
  · intro p
    rw [ioEvents_skip (by rw [hio]; nofun)]
    by_cases hp : port = p
    · subst hp
      rw [lockOrder_grant hgrant]
      exact (h.blocks port).open (hnot port)
    · rw [lockOrder_skip (by simpa [hgrant] using hp)]
      exact h.blocks p
  · intro u p hu
    by_cases hut : u = t
    · subst hut
      rw [Function.update_self, hlocked] at hu
      cases hu
      exact ⟨_, lockOrder_grant hgrant⟩
    · rw [Function.update_of_ne hut] at hu
      -- whoever holds a lock holds another one, as this one was free
      have hp : port ≠ p := by
        rintro rfl
        rw [hown.locked u port hu] at hfree
        cases hfree
      rw [lockOrder_skip (by simpa [hgrant] using hp)]
      exact h.last u p hu
  · intro u p hu
    rcases mem_lockOrder_grant hgrant hu with hold | ⟨rfl, _⟩
    · by_cases hut : u = t
      · exact absurd (hut ▸ hold) (hnot p)
      · rw [Function.update_of_ne hut]
        exact h.spent u p hold
    · rw [Function.update_self]
      exact hspent
  · intro u p q hp hq
    rcases mem_lockOrder_grant hgrant hp with hp' | ⟨rfl, rfl⟩
    · rcases mem_lockOrder_grant hgrant hq with hq' | ⟨rfl, rfl⟩
      · exact h.single u p q hp' hq'
      · exact absurd hp' (hnot p)
    · rcases mem_lockOrder_grant hgrant hq with hq' | ⟨_, rfl⟩
      · exact absurd hq' (hnot q)
      · rfl

/-- The holder of the lock is last and extends its own block. -/
theorem Serialized.io (h : Serialized tr ρs) {port : Handle} (hgrant : grantedPort e = none)
    (hio : e.req.ioPort = some port) (hlocked : (ρs t).locked = some port) :
    Serialized (tr ++ [.act t e]) ρs := by
  have horder (p : Handle) : lockOrder p (tr ++ [.act t e]) = lockOrder p tr :=
    lockOrder_skip (by rw [hgrant]; nofun)
  constructor
  · intro p
    rw [horder p]
    by_cases hp : port = p
    · subst hp
      rw [ioEvents_io hio]
      obtain ⟨before, hlast⟩ := h.last t port hlocked
      have hblocks := h.blocks port
      rw [hlast] at hblocks ⊢
      exact hblocks.extend e
    · rw [ioEvents_skip (by simpa [hio] using hp)]
      exact h.blocks p
  · intro u p hu
    rw [horder p]
    exact h.last u p hu
  · intro u p hu
    exact h.spent u p (horder p ▸ hu)
  · intro u p q hp hq
    exact h.single u p q (horder p ▸ hp) (horder q ▸ hq)

theorem Serialized.skip (h : Serialized tr ρs) (hgrant : grantedPort e = none)
    (hio : e.req.ioPort = none) (hspent : (ρs t).spent = true → ρ'.spent = true)
    (hlocked : ρ'.locked = (ρs t).locked ∨ ρ'.locked = none) :
    Serialized (tr ++ [.act t e]) (Function.update ρs t ρ') := by
  have horder (p : Handle) : lockOrder p (tr ++ [.act t e]) = lockOrder p tr :=
    lockOrder_skip (by rw [hgrant]; nofun)
  constructor
  · intro p
    rw [horder p, ioEvents_skip (by rw [hio]; nofun)]
    exact h.blocks p
  · intro u p hu
    rw [horder p]
    by_cases hut : u = t
    · subst hut
      rw [Function.update_self] at hu
      rcases hlocked with hlocked | hlocked
      · exact h.last u p (hlocked ▸ hu)
      · rw [hlocked] at hu
        cases hu
    · rw [Function.update_of_ne hut] at hu
      exact h.last u p hu
  · intro u p hu
    have hold := h.spent u p (horder p ▸ hu)
    by_cases hut : u = t
    · subst hut
      rw [Function.update_self]
      exact hspent hold
    · rw [Function.update_of_ne hut]
      exact hold
  · intro u p q hp hq
    exact h.single u p q (horder p ▸ hp) (horder q ▸ hq)

theorem Serialized.move (h : Serialized tr ρs) (hown : Owned σ ρs) (hρ : ρs t = ρ)
    (m : Move t σ ρ e σ' ρ') : Serialized (tr ++ [.act t e]) (Function.update ρs t ρ') := by
  subst hρ
  rcases m.io_cases with ⟨port, hgrant, hio, hfree, hfresh, hspent, hlocked⟩ |
    ⟨id, port, hgrant, hio, hactive, hsame⟩ | ⟨hgrant, hio, hspent, hlocked⟩
  · exact h.grant hown hgrant hio hfree hfresh hspent hlocked
  · rw [hsame, Function.update_eq_self]
    exact h.io hgrant hio (by rw [hactive]; rfl)
  · exact h.skip hgrant hio hspent hlocked

end Moves

section Runs

variable {κ α : Type} {code : κ → Program Request Response α}
  {tr : List (Label Request Response κ)} {c : Config machine κ α} {port : Handle} {t : Nat}

theorem Orderly.serialized (hcode : Orderly code) (h : Run machine code tr c) :
    Serialized tr (roles c) := by
  refine (hcode.invariant (I := fun tr σ ρs => Owned σ ρs ∧ Serialized tr ρs) ?_ ?_ ?_ h).2
  · exact ⟨hcode.owned .refl, .initial⟩
  · exact fun tr σ ρs t call hσ => ⟨hσ.1, hσ.2.start t call⟩
  · exact fun tr σ ρs t ρ e σ' ρ' hσ hρ m => ⟨hσ.1.move hρ m, hσ.2.move hσ.1 hρ m⟩

theorem Serialized.flatMap_block (h : Serialized tr (roles c)) (ht : t ∈ lockOrder port tr)
    {f : Ask → List UInt8} (hf : ∀ e : Ask, e.req.ioPort = none → f e = []) :
    (block t (ioEvents port tr)).flatMap (fun x => f x.2) = (eventsOf t tr).flatMap f := by
  have hother (e : Ask) (he : .act t e ∈ tr) (hio : e.req.ioPort ≠ some port) : f e = [] := by
    cases hq : e.req.ioPort with
    | none => exact hf e hq
    | some q =>
      have hmem : (t, e) ∈ ioEvents q tr := mem_ioEvents.mpr ⟨he, hq⟩
      obtain rfl := h.single t port q ht ((h.blocks q).tag_mem hmem)
      exact absurd hq hio
  clear h ht
  simp only [eventsOf, ioEvents, block]
  induction tr with
  | nil => rfl
  | cons l tr ih =>
    have ih := ih fun e he => hother e (List.mem_cons_of_mem _ he)
    cases l with
    | start => exact ih
    | act u e =>
      by_cases hu : u = t
      · subst hu
        by_cases hio : e.req.ioPort = some port
        · simp [hio, ih]
        · have hnone := hother e List.mem_cons_self hio
          simp [hio, ih, hnone]
      · by_cases hio : e.req.ioPort = some port
        · simp [hio, hu, ih]
        · simp [hio, hu, ih]

theorem Serialized.sent_eq (h : Serialized tr (roles c)) (ht : t ∈ lockOrder port tr) :
    (block t (ioEvents port tr)).flatMap (fun x => accepted x.2) = sent t tr :=
  h.flatMap_block ht fun _ => accepted_eq_nil

/-- Where a thread begins to send, the device has got what the threads before it in the
order of the locks have sent. -/
theorem Serialized.received_before (h : Serialized tr (roles c))
    {before after : List (Label Request Response κ)} {e : Ask} {ts us : List Nat}
    (htr : tr = before ++ .act t e :: after) (hio : e.req.ioPort = some port)
    (horder : lockOrder port tr = ts ++ t :: us) (hnone : sent t before = []) :
    received port before = ts.flatMap fun u => sent u tr := by
  have hevents : ioEvents port tr = ioEvents port before ++ (t, e) :: ioEvents port after := by
    rw [htr]
    simp [ioEvents, hio]
  have hblocks := h.blocks port
  rw [horder] at hblocks
  have hown : (block t (ioEvents port before)).flatMap (fun x => accepted x.2) = [] := by
    refine List.flatMap_eq_nil_iff.mpr fun x hx => ?_
    obtain ⟨hmem, rfl⟩ := mem_block.mp hx
    exact List.flatMap_eq_nil_iff.mp hnone x.2 (mem_eventsOf.mpr (mem_ioEvents.mp hmem).1)
  rw [received, hblocks.before hevents, List.flatMap_append, hown, List.append_nil,
    List.flatMap_assoc]
  refine List.flatMap_congr fun u hu => h.sent_eq ?_
  rw [horder]
  exact List.mem_append_left _ hu

theorem exists_first_sent (h : sent t tr ≠ []) :
    ∃ before e after, tr = before ++ .act t e :: after ∧ sent t before = [] ∧ accepted e ≠ [] := by
  induction tr using List.reverseRecOn with
  | nil => exact absurd rfl h
  | append_singleton tr l ih =>
    by_cases hnone : sent t tr = []
    · cases l with
      | start u call => exact absurd (by rw [sent, eventsOf_snoc_start, ← sent, hnone]) h
      | act u e =>
        by_cases hu : u = t
        · subst hu
          refine ⟨tr, e, [], rfl, hnone, fun he => h ?_⟩
          rw [sent, eventsOf_snoc_act, List.flatMap_append, ← sent, hnone]
          simp [he]
        · refine absurd ?_ h
          rw [sent, eventsOf_snoc_act, if_neg hu, List.append_nil, ← sent, hnone]
    · obtain ⟨before, e, after, rfl, hbefore, he⟩ := ih hnone
      exact ⟨before, e, after ++ [l], by simp, hbefore, he⟩

end Runs

/-! ## Calls -/

variable {env : Environment} {rx : RegexCrate} {tr : List ManagerLabel} {c : ManagerConfig}
  {t : Nat} {id : String} {port : Handle}

/-- At any point a call has got a prefix of its payload through: all of it if it
succeeded in writing, and nothing if it says that it has not written. -/
theorem sent_payload (h : Run machine (managerCode env rx) tr c) {th : ManagerThread}
    (ht : c.threads t = some th) :
    sent t tr <+: th.call.payload ∧
    (∀ n, th.rest = .ret (.ok (.written n)) → sent t tr = th.call.payload) ∧
    (∀ o, th.rest = .ret (.ok (.ran o)) →
      sent t tr = if o.commandWritten then th.call.payload else []) := by
  obtain ⟨_, hpast, hruns⟩ := Run.started h ht
  have hfollows := managerCode_ioLog env rx th.call
  have hsent : sent t tr =
      IoLog.written ((ioLog (· = th.call.payload)).after {} th.past) := by
    rw [ioLog_after_written, hpast]
    rfl
  have hcoherent := ioLog_coherent hfollows hruns
  rw [hsent]
  refine ⟨?_, fun n hret => ?_, fun o hret => ?_⟩
  · cases hpayload : IoLog.payload ((ioLog (· = th.call.payload)).after {} th.past) with
    | none =>
      rw [hcoherent.unwritten hpayload]
      exact List.nil_prefix
    | some p =>
      obtain ⟨rfl, hprefix⟩ := hcoherent.payload p hpayload
      exact hprefix
  · have hreports : Reports th.call.payload _ (.ok (.written n)) :=
      hfollows.returns (hret ▸ hruns)
    exact hreports.1
  · have hreports : Reports th.call.payload _ (.ok (.ran o)) := hfollows.returns (hret ▸ hruns)
    cases hwritten : o.commandWritten with
    | true => exact (hreports.1 hwritten).1
    | false => exact hreports.2 hwritten

/-- Every call that names `id` uses one port, that on which the session was made ready. -/
theorem session_port (h : Run machine (managerCode env rx) tr c) (hfresh : FreshIds tr)
    (id : String) : ∃ port, ∀ t th e p, c.threads t = some th → th.call.sessionId = some id →
      e ∈ th.past → e.req.ioPort = some p → p = port := by
  have hcode := managerCode_orderly env rx
  have hready {t : Nat} {th : ManagerThread} {e : Ask} {p : Handle} (ht : c.threads t = some th)
      (hid : th.call.sessionId = some id) (he : e ∈ th.past) (hio : e.req.ioPort = some p) :
      ∃ u, Readied tr u id p := by
    have hruns := (Run.started h ht).runs
    cases hcall : th.call with
    | «open» args =>
      rw [hcall] at hid
      cases hid
    | close id' timeoutMs =>
      rw [hcall] at hruns
      have hnone : e.req.ioPort = none :=
        Request.ioPort_of_closes
          (((OnlyAsks.closeWithTimeout id' timeoutMs).bind fun _ => .pure _).only_mem hruns e he)
      rw [hnone] at hio
      cases hio
    | _ =>
      have huse : th.call.usesPort := by rw [hcall]; rfl
      exact hcode.io_readied h ht (managerCode_usesPort env rx huse hid hruns) he hio
  by_cases hsome : ∃ p u, Readied tr u id p
  · obtain ⟨port, u, hu⟩ := hsome
    refine ⟨port, fun t th e p ht hid he hio => ?_⟩
    obtain ⟨v, hv⟩ := hready ht hid he hio
    exact (hcode.readied_unique h hfresh hv hu).2
  · refine ⟨(0 : Nat), fun t th e p ht hid he hio => ?_⟩
    exact absurd ⟨p, hready ht hid he hio⟩ hsome

/-- On every port the input and output of the calls is one block per call, in the order
of their locks, and nothing comes between two events of one call. The device gets the
bytes of the calls in that order: the payload of each call that has written, and a
prefix of it otherwise. All calls that name a session use one port. -/
theorem exec_atomicity (env : Environment) (rx : RegexCrate) {tr : List ManagerLabel}
    {c : ManagerConfig} (h : Run machine (managerCode env rx) tr c) :
    (∀ port, Blocks (lockOrder port tr) (ioEvents port tr)) ∧
    (∀ port t e e' before during after,
      ioEvents port tr = before ++ [(t, e)] ++ during ++ [(t, e')] ++ after →
        ∀ x ∈ during, x.1 = t) ∧
    (∀ port, received port tr = (lockOrder port tr).flatMap fun t => sent t tr) ∧
    (∀ t th, c.threads t = some th →
      sent t tr <+: th.call.payload ∧
      (∀ n, th.rest = .ret (.ok (.written n)) → sent t tr = th.call.payload) ∧
      (∀ o, th.rest = .ret (.ok (.ran o)) →
        sent t tr = if o.commandWritten then th.call.payload else [])) ∧
    (FreshIds tr → ∀ id, ∃ port, ∀ t th e p, c.threads t = some th →
      th.call.sessionId = some id → e ∈ th.past → e.req.ioPort = some p → p = port) := by
  have hserial := (managerCode_orderly env rx).serialized h
  refine ⟨hserial.blocks, fun port t e e' before during after => ?_, fun port => ?_,
    fun t th => sent_payload h, session_port h⟩
  · exact (hserial.blocks port).uninterrupted
  · rw [received, (hserial.blocks port).flatMap_eq]
    exact List.flatMap_congr fun t ht => hserial.sent_eq ht

/-- A `write` waits for the lock of an `exec` on the same port and is broken off after it. -/
theorem exec_atomicity_two : ∃ tr c, Run machine (managerCode defaultEnv emptyRegexes) tr c ∧
    Blocks [1, 2] (ioEvents (0 : Nat) tr) ∧
    received (0 : Nat) tr = [97, 10, 98] ∧
    received (0 : Nat) tr = [1, 2].flatMap (fun t => sent t tr) ∧
    ∃ port, ∀ t th e p, c.threads t = some th → th.call.sessionId = some firstId →
      e ∈ th.past → e.req.ioPort = some p → p = port := by
  obtain ⟨threads, h₀, hfree, _⟩ := first_run_of emptyRegexes
  have h := h₀.start 1 (.exec firstId [97, 10] "x*" 5 plainOptions .never) (hfree 1 (by decide))
  replace h := h.act 1 (r := .get firstId) (some firstSession) rfl ⟨rfl, rfl⟩
  replace h := h.act 1 (r := .isCancelled .never) false rfl ⟨Token.noConfusion, rfl⟩
  replace h := h.act 1 (r := .timeLeft) true rfl rfl
  replace h := h.act 1 (r := .lock (0 : Nat) .never) (.ready ()) rfl ⟨rfl, rfl⟩
  replace h := h.start 2 (.write firstId [98, 10] .never)
    (by simpa [Config.put] using hfree 2 (by decide))
  replace h := h.act 2 (r := .get firstId) (some firstSession) rfl ⟨rfl, rfl⟩
  replace h := h.act 1 (r := .get firstId) (some firstSession) rfl ⟨rfl, rfl⟩
  replace h := h.act 1 (r := .isCancelled .never) false rfl ⟨Token.noConfusion, rfl⟩
  replace h := h.act 1 (r := .timeLeft) true rfl rfl
  replace h := h.act 1 (r := .cancelPicked .never) false rfl ⟨by decide, rfl⟩
  replace h := h.act 1 (r := .write (0 : Nat) [97, 10] .never) (.ready (.ok ⟨2, by decide⟩)) rfl
    ⟨trivial, rfl⟩
  replace h := h.act 2 (r := .timeLeft) true rfl rfl
  replace h := h.act 1 (r := .timeLeft) true rfl rfl
  replace h := h.act 1 (r := .flush (0 : Nat) .never) (.ready (.ok ())) rfl ⟨trivial, rfl⟩
  replace h := h.act 1 (r := .turns) (1 : Nat) rfl rfl
  replace h := h.act 1 (r := .read (0 : Nat) chunkLen .never) .elapsed rfl ⟨trivial, rfl⟩
  replace h := h.act 1 (r := .elapsedMs) (5 : Nat) rfl rfl
  replace h := h.act 1 (r := .unlock (0 : Nat)) () rfl rfl
  replace h := h.act 2 (r := .lock (0 : Nat) .never) (.ready ()) rfl ⟨rfl, rfl⟩
  replace h := h.act 2 (r := .get firstId) (some firstSession) rfl ⟨rfl, rfl⟩
  replace h := h.act 2 (r := .timeLeft) true rfl rfl
  replace h := h.act 2 (r := .cancelPicked .never) false rfl ⟨by decide, rfl⟩
  replace h := h.act 2 (r := .write (0 : Nat) [98, 10] .never) (.ready (.ok ⟨1, by decide⟩)) rfl
    ⟨trivial, rfl⟩
  replace h := h.act 2 (r := .write (0 : Nat) [10] .never) .elapsed rfl ⟨trivial, rfl⟩
  have hatomic := exec_atomicity defaultEnv emptyRegexes h
  have hport := hatomic.2.2.2.2 (by unfold FreshIds; decide) firstId
  exact ⟨_, _, h, hatomic.1 (0 : Nat), rfl, hatomic.2.2.1 (0 : Nat), hport⟩

end McpSerial
