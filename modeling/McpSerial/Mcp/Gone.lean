import McpSerial.Manager.CloseBarrier
import McpSerial.Manager.Identity
import McpSerial.Mcp.Usability

/-! A closed session is gone for good: every later call on its id is turned down before
it comes near a port. -/

namespace McpSerial
open Interaction Interaction.Discipline Utf8

def Absent (id : String) : (r : Request) → Response r → Prop
  | .get id', x => id' = id → x = none
  | .beginClose id', x => id' = id → x = .error (.sessionNotFound id)
  | _, _ => True

def Request.asksOrCloses : Request → Bool
  | .beginClose _ => true
  | r => r.isQuery

abbrev asking : Discipline Request Response := only fun r => r.asksOrCloses = true

noncomputable abbrev absence (id : String) : Discipline Request Response :=
  asking.assuming (Absent id)

def TurnedDown (id : String) (_ : Unit) (response : CallToolResponse) : Prop :=
  response = .complete (refused (.sessionNotFound id) (some id))

section Absence

variable {id : String} {α : Type} {Q : Unit → α → Prop} {E : Unit → SerialError → Prop}

theorem absence_found (x : Session) : (absence id).advance (some ()) (.get id) (some x) = none :=
  assuming_advance_not fun habsent => nomatch habsent rfl

theorem absence_none : (absence id).advance (some ()) (.get id) none = some () :=
  assuming_advance_of fun _ => rfl

theorem lookup_absence {Q : Unit → CallToolResponse → Prop} :
    Lookup (absence id) (some ()) id (· = none) (assumed Q) where
  admits _ _ := rfl
  answer x := by
    cases x with
    | none => exact .inl ⟨absence_none, rfl⟩
    | some x =>
      rw [absence_found]
      exact .inr fun _ => follows_assuming_none

theorem assumed_absent (h : E () (.sessionNotFound id)) :
    assumed E ((absence id).advance (some ()) (.get id) none) (.sessionNotFound id) := by
  rw [absence_none]
  rintro _ ⟨⟩
  exact h

theorem absence_checkoutPort {next : Handle → Op α} (absent : E () (.sessionNotFound id)) :
    (absence id).Meets (some ()) (checkoutPort id >>= next) (assumed Q) (assumed E) := by
  rw [meets_bind]
  apply meets_checkoutPort
  · exact fun _ _ => rfl
  · intro x port _
    rw [absence_found]
    exact meets_assumed_none
  · intro x _
    rw [absence_found]
    exact assumed_none _ _
  · exact assumed_absent absent

theorem absence_closeWithTimeout {timeoutMs : Nat} {Q : Unit → Unit → Prop}
    (absent : E () (.sessionNotFound id)) :
    (absence id).Meets (some ()) (closeWithTimeout id timeoutMs) (assumed Q) (assumed E) := by
  unfold closeWithTimeout
  rw [meets_bind, meets_ask]
  refine ⟨fun _ _ => rfl, fun begun => ?_⟩
  by_cases hbegun : begun = .error (.sessionNotFound id)
  · subst hbegun
    have hstill : (absence id).advance (some ()) (.beginClose id) (.error (.sessionNotFound id)) =
        some () := assuming_advance_of fun _ => rfl
    rw [hstill]
    rintro _ ⟨⟩
    exact absent
  · have hlost : (absence id).advance (some ()) (.beginClose id) begun = none :=
      assuming_advance_not fun habsent => hbegun (habsent rfl)
    rw [hlost]
    exact meets_assumed_none

end Absence

/-- On an absent session a call whose arguments pass only finds out that it is not there. -/
theorem toolCode_absence (srv : McpServer) {call : ToolCall} {id : String}
    (hid : call.sessionId = some id) (h : ¬call.ArgumentsFail srv) :
    (absence id).Follows (some ()) (toolCode srv call) (assumed (TurnedDown id)) := by
  have hdone : assumed (D := asking) (TurnedDown id) (some ())
      (CallToolResponse.complete (refused (.sessionNotFound id) (some id))) := by
    rintro _ ⟨⟩
    rfl
  have hfound {P : Prop} {y : Session} (hy : some y = none) : P := by cases hy
  cases call with
  | listPorts | «open» | sessions => cases hid
  | getSession p =>
    cases hid
    exact follows_getSession lookup_absence (fun y hy => hfound hy) fun _ => hdone
  | write p context inputResponses =>
    cases hid
    apply follows_write lookup_absence
    · exact fun y z hy => hfound hy
    · exact fun y z hy => hfound hy
    · exact fun y err hy => hfound hy
    · exact fun reason hlong => absurd hlong h
    · exact fun y hy => hfound hy
    · exact fun _ => hdone
  | read p =>
    cases hid
    apply follows_read lookup_absence
    · exact fun _ _ => absence_checkoutPort (Q := fun _ o => TurnedDown _ ()
        (.complete (.read (readResult o)))) rfl
    · exact fun _ => hdone
  | drain p =>
    cases hid
    exact follows_run_bind.mpr (absence_checkoutPort (Q := fun _ o => TurnedDown _ ()
      (.complete (.read (readResult o)))) rfl)
  | clearInput p =>
    cases hid
    exact follows_run_bind.mpr (absence_checkoutPort (Q := fun _ o => TurnedDown _ ()
      (.complete (.clearInput (clearInputResult o)))) rfl)
  | readUntil p =>
    cases hid
    apply follows_readUntil lookup_absence
    · exact fun _ => absence_checkoutPort (Q := fun _ o => TurnedDown _ ()
        (.complete (.readUntil (readUntilResult o)))) rfl
    · exact fun _ => hdone
  | exec p context inputResponses =>
    cases hid
    apply follows_exec lookup_absence
    · exact fun y z w hy => hfound hy
    · exact fun x y z hx => hfound hx
    · exact fun x y err hx => hfound hx
    · exact fun err herr => absurd (execArgumentError_eq_some herr) h
    · exact fun y z rule hy => hfound hy
    · exact fun y err hy => hfound hy
    · exact fun _ => hdone
  | close p =>
    cases hid
    exact follows_run_bind.mpr (absence_closeWithTimeout (Q := fun _ _ => TurnedDown _ ()
      (.complete (.close true))) rfl)

/-! ## Runs -/

section Runs

variable {κ α : Type} {code : κ → Program Request Response α}
  {tr tr' : List (Label Request Response κ)} {c c' : Config machine κ α} {t : Nat} {id : String}

theorem FreshIds.not_again (h : FreshIds (tr ++ tr')) {args args' : SessionArgs} {u : Nat}
    (ht : Reserved tr t id args) : ¬Reserved tr' u id args' := by
  intro hu
  unfold FreshIds at h
  rw [List.filterMap_append] at h
  exact (List.nodup_append.mp h).2.2 id (List.mem_filterMap.mpr ⟨_, ht, rfl⟩) id
    (List.mem_filterMap.mpr ⟨_, hu, rfl⟩) rfl

/-- Under fresh ids a session that was reserved once and is not in the table stays out. -/
theorem Orderly.stays_absent (hcode : Orderly code) (h : Run machine code tr c)
    (hs : Steps code c tr' c') (hfresh : FreshIds (tr ++ tr')) {args : SessionArgs}
    (ht : Reserved tr t id args) (hgone : c.shared.sessions.lookup id = none) :
    c'.shared.sessions.lookup id = none := by
  refine hcode.along h hs (J := fun σ _ => σ.sessions.lookup id = none) hgone ?_
  intro σ ρs u ρ e σ' ρ' he _ hnone _ m
  by_contra hsome
  obtain ⟨s, hs⟩ := Option.ne_none_iff_exists'.mp hsome
  rcases m.entry_args hs with ⟨s₀, hs₀, _⟩ | rfl
  · rw [hnone] at hs₀
    cases hs₀
  · exact hfresh.not_again ht he

theorem absent_answer {σ σ' : ManagerState} (h : σ.sessions.lookup id = none) {r : Request}
    {x : Response r} (answer : answers σ t r x σ') : Absent id r x := by
  cases r with
  | get id' =>
    rintro rfl
    exact answer.1.trans h
  | beginClose id' =>
    rintro rfl
    rw [answer.1, Sessions.beginClose, h]
  | _ => trivial

/-- What a thread that starts later is told. -/
theorem Orderly.told_absent (hcode : Orderly code) (h : Run machine code tr c)
    (hs : Steps code c tr' c') (hfresh : FreshIds (tr ++ tr')) {args : SessionArgs}
    (ht : Reserved tr t id args) (hgone : c.shared.sessions.lookup id = none) {u : Nat}
    (hfree : c.threads u = none) {th : Thread Request Response κ α}
    (hth : c'.threads u = some th) : ∀ e ∈ th.past, Absent id e.req e.resp := by
  intro e he
  rw [(Run.started (h.append hs) hth).past_eq, mem_eventsOf] at he
  rcases List.mem_append.mp he with he | he
  · obtain ⟨th', hth', _⟩ := Run.thread_of_act h he
    rw [hfree] at hth'
    cases hth'
  · obtain ⟨between, rest, d, d', rfl, hbetween, hstep, _⟩ := Steps.step_of_mem hs he
    have hfresh' : FreshIds (tr ++ between) := by
      rw [← List.append_assoc] at hfresh
      exact hfresh.left
    exact absent_answer (hcode.stays_absent h hbetween hfresh' ht hgone) hstep.answers

theorem started_later (hs : Steps code c tr' c') {u : Nat} {call : κ}
    (hstart : .start u call ∈ tr') {th : Thread Request Response κ α}
    (hth : c'.threads u = some th) : c.threads u = none ∧ th.call = call := by
  obtain ⟨between, rest, d, d', rfl, hbetween, hstep, hrest⟩ := Steps.step_of_mem hs hstart
  cases hstep with
  | start _ _ free =>
    obtain ⟨th', hth', hcall, _⟩ := hrest.thread_mono (Config.put_threads_self ..)
    rw [hth] at hth'
    cases hth'
    refine ⟨?_, hcall⟩
    cases hu : c.threads u with
    | none => rfl
    | some th =>
      obtain ⟨th', hth', _⟩ := hbetween.thread_mono hu
      rw [free] at hth'
      cases hth'

end Runs

/-! ## The server -/

theorem close_removes {srv : McpServer} {p : CloseParams} {es : List Ask}
    (k : Runs (toolCode srv (.close p)) es (.ret (.complete (.close true)))) :
    ∃ x, ⟨.finishClose p.sessionId, x⟩ ∈ es := by
  obtain ⟨result, es₁, es₂, rfl, hclose, hdone⟩ := runs_bind_ret.mp k
  cases result with
  | error e =>
    obtain ⟨_, hret⟩ := runs_ret.mp hdone
    cases hret
  | ok _ =>
    have hmanager : Runs (managerCode srv.toEnvironment srv.toRegexCrate
        (.close p.sessionId maxTimeoutMs)) es₁ (.ret (.ok .closed)) := hclose.bind _
    rcases close_returns hmanager with ⟨_, _, hresult⟩ | ⟨past, x, rfl, _, _⟩ |
      ⟨_, _, _, _, _, _, hresult, _⟩
    · cases hresult
    · exact ⟨x, by simp⟩
    · cases hresult

/-- Once a `close` has reported success its session, which had been reserved, is not in
the table. -/
theorem closed_absent {srv : McpServer} {tr : List ToolLabel} {c : ToolConfig}
    (h : Run machine (toolCode srv) tr c) (hfresh : FreshIds tr) {w : Nat} {th : ToolThread}
    {p : CloseParams} (hth : c.threads w = some th) (hcall : th.call = .close p)
    (hret : th.rest = .ret (.complete (.close true))) :
    (∃ t args, Reserved tr t p.sessionId args) ∧
      c.shared.sessions.lookup p.sessionId = none := by
  have hcode := toolCode_orderly srv
  obtain ⟨_, hpast, hruns⟩ := Run.started h hth
  rw [hcall, hret] at hruns
  obtain ⟨x, hfinished⟩ := close_removes hruns
  rw [hpast, mem_eventsOf] at hfinished
  obtain ⟨before, after, d, d', rfl, hbefore, hstep, hafter⟩ := Steps.step_of_mem h hfinished
  have hcloses : (roles d w).closes = some p.sessionId := by
    have hadmits : (roles d w).admits (.finishClose p.sessionId) := Run.admits hcode hbefore hstep
    rcases hadmits with hrole | ⟨port, hrole⟩
    · rw [hrole]
      rfl
    · rw [hrole]
      rfl
  obtain ⟨t, args, ht⟩ := (hcode.known hbefore).closes w _ hcloses
  refine ⟨⟨t, args, List.mem_append_left _ ht⟩, ?_⟩
  obtain ⟨_, hfinish⟩ := hstep.answers
  have herased : d'.shared.sessions.lookup p.sessionId = none := by
    rw [hfinish, Sessions.finishClose_eq]
    exact AList.lookup_erase ..
  rw [List.append_cons] at hfresh
  exact hcode.stays_absent (hbefore.snoc hstep) hafter hfresh ht.snoc herased

/-- Under fresh ids: once a `serial.close` has reported success, a call on the same id that
starts later asks for nothing but lookups and the start of another close, and it returns that
the session is unknown, or that its arguments are invalid if they fail on their own. -/
theorem closed_for_good (srv : McpServer) {tr tr' : List ToolLabel} {c c' : ToolConfig}
    (h : Run machine (toolCode srv) tr c) {w : Nat} {th : ToolThread} {p : CloseParams}
    (hth : c.threads w = some th) (hcall : th.call = .close p)
    (hret : th.rest = .ret (.complete (.close true))) (hs : Steps (toolCode srv) c tr' c')
    (hfresh : FreshIds (tr ++ tr')) {u : Nat} {call : ToolCall} (hstart : .start u call ∈ tr')
    (hid : call.sessionId = some p.sessionId) {th' : ToolThread}
    (hth' : c'.threads u = some th') :
    (∀ e ∈ th'.past, e.req.asksOrCloses = true) ∧
    ∀ response, th'.rest = .ret response →
      (¬call.ArgumentsFail srv ∧
        response = .complete (refused (.sessionNotFound p.sessionId) (some p.sessionId))) ∨
      (call.ArgumentsFail srv ∧ ∃ name reason,
        response = .complete (refused (.invalidParam name reason) (some p.sessionId))) := by
  have hcode := toolCode_orderly srv
  obtain ⟨⟨t, args, ht⟩, hgone⟩ := closed_absent h hfresh.left hth hcall hret
  obtain ⟨hfree, hcall'⟩ := started_later hs hstart hth'
  have htold := hcode.told_absent h hs hfresh ht hgone hfree hth'
  obtain ⟨_, _, hruns⟩ := Run.started (h.append hs) hth'
  rw [hcall'] at hruns
  by_cases hfail : call.ArgumentsFail srv
  · obtain ⟨name, reason, hrefused⟩ := toolCode_argumentsFail hid hfail
    rw [hrefused] at hruns
    obtain ⟨hpast, hrest⟩ := runs_ret.mp hruns
    refine ⟨hpast ▸ fun e he => absurd he List.not_mem_nil, fun response hresponse => ?_⟩
    refine .inr ⟨hfail, name, reason, ?_⟩
    rw [hrest] at hresponse
    cases hresponse
    rfl
  · have hfollows := toolCode_absence srv hid hfail
    refine ⟨Follows.assuming_mem hfollows hruns htold, fun response hresponse => .inl ⟨hfail, ?_⟩⟩
    rw [hresponse] at hruns
    exact hfollows.returns hruns () (assuming_after htold)

theorem closed_for_good_session : ∃ (c c' : ToolConfig) (tr' : List ToolLabel) (th : ToolThread),
    Steps (toolCode wordServer) c tr' c' ∧ c'.threads 2 = some th ∧
      th.call = .getSession ⟨firstId⟩ ∧
      ∀ response, th.rest = .ret response →
        response = .complete (refused (.sessionNotFound firstId) (some firstId)) := by
  obtain ⟨threads, owner, th, h, hth, hcall, hret, hfree⟩ := closed_run
  have hs : Steps (toolCode wordServer)
      (⟨⟨∅, owner, (1 : Nat)⟩, threads⟩ : ToolConfig) [] _ := .refl
  have hs₁ := hs.snoc (.start 2 (.getSession ⟨firstId⟩) (hfree 2 (by decide)))
  have hanswer : answers ⟨∅, owner, (1 : Nat)⟩ 2 (.get firstId) none ⟨∅, owner, (1 : Nat)⟩ :=
    ⟨rfl, rfl⟩
  have hs₂ := hs₁.snoc (.act 2 rfl hanswer)
  have hfresh : FreshIds (closedTrace ++ ([] ++ [.start 2 (.getSession ⟨firstId⟩)] ++
      [.act 2 ⟨.get firstId, none⟩])) := List.nodup_singleton firstId
  have hgone := closed_for_good wordServer h hth hcall hret hs₂ hfresh (u := 2)
    (List.mem_append_left _ (List.mem_append_right _ List.mem_cons_self)) rfl
    (Config.put_threads_self ..)
  refine ⟨_, _, _, _, hs₂, Config.put_threads_self .., rfl, fun response hresponse => ?_⟩
  rcases hgone.2 response hresponse with ⟨_, hresponse⟩ | ⟨hfail, _⟩
  · exact hresponse
  · exact hfail.elim

end McpSerial
