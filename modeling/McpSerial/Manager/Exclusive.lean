import McpSerial.Manager.CloseBarrier
import McpSerial.Manager.Openings

/-! One user of a device at a time: as long as no `close` takes a session that is still
`Opening`, a port is used only until its device is opened anew. -/

namespace McpSerial
open Interaction Interaction.Discipline

def Made {κ : Type} (tr : List (Label Request Response κ)) (port : Handle) (path : String) : Prop :=
  ∃ t baud, .act t ⟨.backendOpen path baud, .ok port⟩ ∈ tr

/-- No `close` found its session still `Opening`. -/
def ClosesReady {κ : Type} (tr : List (Label Request Response κ)) : Prop :=
  ∀ t id, .act t ⟨.beginClose id, .ok none⟩ ∉ tr

namespace Role

def stage : Role → Option (String × SessionState)
  | opening id | opened id _ => some (id, .opening)
  | closing id _ | draining id _ | drained id _ => some (id, .closing)
  | _ => none

theorem stage_ne_ready {ρ : Role} {id : String} : ρ.stage ≠ some (id, .ready) := by
  cases ρ <;> nofun

end Role

def sessionOf (ρs : Nat → Role) : String ⊕ Nat → Option String
  | .inl id => some id
  | .inr t => (ρs t).stage.map Prod.fst

theorem sessionOf_thread {ρs : Nat → Role} {t : Nat} {id : String} {st : SessionState}
    (h : (ρs t).stage = some (id, st)) : sessionOf ρs (.inr t) = some id :=
  congrArg (Option.map Prod.fst) h

/-- Who has a session in hand has it alone and finds it in the table, and every port is
one of the device of its session. -/
structure Backed {κ : Type} (tr : List (Label Request Response κ)) (σ : ManagerState)
    (ρs : Nat → Role) : Prop where
  present : ∀ t id st, (ρs t).stage = some (id, st) →
    ∃ s, σ.sessions.lookup id = some s ∧ s.state = st
  alone : ∀ t u id st st', (ρs t).stage = some (id, st) → (ρs u).stage = some (id, st') → t = u
  taken : ∀ t id, ρs t ≠ .closing id none
  once : ∀ t id args, Reserved tr t id args → ρs t ≠ .idle
  opener : ∀ t id s id' args, (ρs t).opens = some id → σ.sessions.lookup id = some s →
    Reserved tr t id' args → s.toSessionArgs = args
  backed : ∀ i port, place σ ρs i = some port →
    ∃ id s, sessionOf ρs i = some id ∧ σ.sessions.lookup id = some s ∧ Made tr port s.portPath
  used : ∀ t id port, ρs t = .active id port → ∃ i, place σ ρs i = some port

section Moves

variable {κ : Type} {tr : List (Label Request Response κ)} {t u : Nat} {σ σ' : ManagerState}
  {ρs : Nat → Role} {ρ ρ' : Role} {e : Ask} {id : String} {l : Label Request Response κ}
  {port : Handle} {path : String}

theorem Made.snoc (h : Made tr port path) : Made (tr ++ [l]) port path := by
  obtain ⟨t, baud, ht⟩ := h
  exact ⟨t, baud, List.mem_append_left _ ht⟩

theorem Role.stage_of_opens (h : ρ.opens = some id) : ρ.stage = some (id, .opening) := by
  cases ρ <;> first | cases h; rfl | cases h

inductive Shift (σ : ManagerState) (ρ : Role) (σ' : ManagerState) (ρ' : Role) : Prop where
  | keep (table : σ'.sessions = σ.sessions) (stage : ρ'.stage = ρ.stage)
  | takeUp (id : String) (s : Session)
      (free : ∀ s₀, σ.sessions.lookup id = some s₀ → s₀.state = .ready ∧
        s.toSessionArgs = s₀.toSessionArgs)
      (before : ρ.stage = none) (after : ρ'.stage = some (id, s.state))
      (table : σ'.sessions = σ.sessions.insert id s)
  | giveBack (id : String) (s s₀ : Session) (st : SessionState)
      (found : σ.sessions.lookup id = some s₀) (args : s.toSessionArgs = s₀.toSessionArgs)
      (before : ρ.stage = some (id, st)) (after : ρ'.stage = none)
      (table : σ'.sessions = σ.sessions.insert id s)
  | drop (id : String) (st : SessionState) (before : ρ.stage = some (id, st))
      (after : ρ'.stage = none) (table : σ'.sessions = σ.sessions.erase id)

theorem Move.shift (m : Move t σ ρ e σ' ρ') (hok : TableOk σ.sessions)
    (hclose : ∀ id, e ≠ ⟨.beginClose id, .ok none⟩)
    (present : ∀ id st, ρ.stage = some (id, st) → ∃ s, σ.sessions.lookup id = some s)
    (taken : ∀ id, ρ ≠ .closing id none) : Shift σ ρ σ' ρ' := by
  cases m with
  | quiet | connect | refuse | drain | drained | hold | check | io => exact .keep rfl rfl
  | release stands =>
    rcases stands with rfl | ⟨id, rfl⟩
    · exact .keep rfl rfl
    · exact .keep rfl rfl
  | @reserve args id fresh =>
    refine .takeUp id _ (fun s₀ hs₀ => ?_) rfl rfl rfl
    exact absurd (AList.lookup_isSome.mp (by rw [hs₀]; rfl)) fresh
  | @begin id s found live =>
    refine .takeUp id _ (fun s₀ hs₀ => ?_) rfl rfl rfl
    rw [found] at hs₀
    cases hs₀
    refine ⟨(hok.port_iff id s found).mp ?_, rfl⟩
    cases hport : s.port with
    | none => exact absurd (by rw [hport]) (hclose id)
    | some port => rfl
  | @ready id port s found =>
    exact .giveBack id (s.transitionToReady port) s _ found rfl rfl rfl rfl
  | @restore id port s found => exact .giveBack id (s.restoreReady port) s _ found rfl rfl rfl rfl
  | @abandon id => exact .drop id _ rfl rfl rfl
  | @orphan id port absent | @vanished id port absent =>
    obtain ⟨s, hs⟩ := present id _ rfl
    rw [absent] at hs
    cases hs
  | @finish ρ id stands =>
    rcases stands with rfl | ⟨port, rfl⟩
    · exact absurd rfl (taken id)
    · exact .drop id _ rfl rfl rfl

theorem Backed.shift (h : Backed tr σ ρs) (hok : TableOk σ.sessions) (hρ : ρs t = ρ)
    (m : Move t σ ρ e σ' ρ') (hclose : ∀ id, e ≠ ⟨.beginClose id, .ok none⟩) :
    Shift σ ρ σ' ρ' := by
  subst hρ
  refine m.shift hok hclose (fun id st hst => ?_) (h.taken t)
  obtain ⟨s, hs, _⟩ := h.present t id st hst
  exact ⟨s, hs⟩

theorem update_stage (hstage : ρ'.stage = (ρs t).stage) (v : Nat) :
    (Function.update ρs t ρ' v).stage = (ρs v).stage := by
  by_cases hv : v = t
  · subst hv
    rw [Function.update_self, hstage]
  · rw [Function.update_of_ne hv]

theorem Shift.present (hs : Shift σ (ρs t) σ' ρ') (h : Backed tr σ ρs) {v : Nat}
    {st : SessionState} (hv : (Function.update ρs t ρ' v).stage = some (id, st)) :
    ∃ s, σ'.sessions.lookup id = some s ∧ s.state = st := by
  cases hs with
  | keep table stage =>
    rw [update_stage stage] at hv
    rw [table]
    exact h.present v id st hv
  | takeUp id₁ s₁ free before after table =>
    rw [table]
    by_cases hvt : v = t
    · subst hvt
      rw [Function.update_self, after] at hv
      cases hv
      exact ⟨s₁, AList.lookup_insert _, rfl⟩
    · rw [Function.update_of_ne hvt] at hv
      obtain ⟨s, hs, hst⟩ := h.present v id st hv
      have hne : id ≠ id₁ := by
        rintro rfl
        rw [← hst, (free s hs).1] at hv
        exact Role.stage_ne_ready hv
      exact ⟨s, (AList.lookup_insert_ne hne).trans hs, hst⟩
  -- the session goes back to the table, and nobody else had it in hand
  | giveBack id₁ s₁ s₀ st₁ found args before after table =>
    rw [table]
    have hvt : v ≠ t := by
      rintro rfl
      rw [Function.update_self, after] at hv
      cases hv
    rw [Function.update_of_ne hvt] at hv
    have hne : id ≠ id₁ := by
      rintro rfl
      exact hvt (h.alone v t _ st st₁ hv before)
    obtain ⟨s, hs, hst⟩ := h.present v id st hv
    exact ⟨s, (AList.lookup_insert_ne hne).trans hs, hst⟩
  | drop id₁ st₁ before after table =>
    rw [table]
    have hvt : v ≠ t := by
      rintro rfl
      rw [Function.update_self, after] at hv
      cases hv
    rw [Function.update_of_ne hvt] at hv
    have hne : id ≠ id₁ := by
      rintro rfl
      exact hvt (h.alone v t _ st st₁ hv before)
    obtain ⟨s, hs, hst⟩ := h.present v id st hv
    exact ⟨s, (AList.lookup_erase_ne hne).trans hs, hst⟩

/-- Whoever has a session in hand after a move had it before, or is the mover, who found
nobody else to have it. -/
theorem Shift.alone (hs : Shift σ (ρs t) σ' ρ') (h : Backed tr σ ρs) {v w : Nat}
    {st st' : SessionState} (hv : (Function.update ρs t ρ' v).stage = some (id, st))
    (hw : (Function.update ρs t ρ' w).stage = some (id, st')) : v = w := by
  have hother {x y : Nat} {st st' : SessionState} (hx : x ≠ t)
      (hx' : (Function.update ρs t ρ' x).stage = some (id, st))
      (hy : (Function.update ρs t ρ' y).stage = some (id, st')) : x = y := by
    rw [Function.update_of_ne hx] at hx'
    by_cases hyt : y = t
    · subst hyt
      rw [Function.update_self] at hy
      cases hs with
      | keep table stage =>
        rw [stage] at hy
        exact h.alone x y id st st' hx' hy
      | takeUp id₁ s₁ free before after table =>
        rw [after] at hy
        cases hy
        obtain ⟨s, hs, hst⟩ := h.present x id st hx'
        rw [← hst, (free s hs).1] at hx'
        exact absurd hx' Role.stage_ne_ready
      | giveBack _ _ _ _ _ _ _ after =>
        rw [after] at hy
        cases hy
      | drop _ _ _ after =>
        rw [after] at hy
        cases hy
    · rw [Function.update_of_ne hyt] at hy
      exact h.alone x y id st st' hx' hy
  by_cases hvt : v = t
  · by_cases hwt : w = t
    · rw [hvt, hwt]
    · exact (hother hwt hw hv).symm
  · exact hother hvt hv hw

theorem Shift.entry (hs : Shift σ ρ σ' ρ') {s : Session} (found : σ.sessions.lookup id = some s) :
    (∃ s', σ'.sessions.lookup id = some s' ∧ s'.toSessionArgs = s.toSessionArgs) ∨
      ∃ st, ρ.stage = some (id, st) ∧ ρ'.stage = none ∧ σ'.sessions.lookup id = none := by
  cases hs with
  | keep table stage =>
    rw [table]
    exact .inl ⟨s, found, rfl⟩
  | takeUp id₁ s₁ free before after table =>
    rw [table]
    by_cases hid : id = id₁
    · subst hid
      exact .inl ⟨s₁, AList.lookup_insert _, (free s found).2⟩
    · exact .inl ⟨s, (AList.lookup_insert_ne hid).trans found, rfl⟩
  | giveBack id₁ s₁ s₀ st₁ found₀ args before after table =>
    rw [table]
    by_cases hid : id = id₁
    · subst hid
      rw [found] at found₀
      cases found₀
      exact .inl ⟨s₁, AList.lookup_insert _, args⟩
    · exact .inl ⟨s, (AList.lookup_insert_ne hid).trans found, rfl⟩
  | drop id₁ st₁ before after table =>
    rw [table]
    by_cases hid : id = id₁
    · subst hid
      exact .inr ⟨st₁, before, after, AList.lookup_erase _ _⟩
    · exact .inl ⟨s, (AList.lookup_erase_ne hid).trans found, rfl⟩

theorem Move.port_source (m : Move t σ (ρs t) e σ' ρ') {i : String ⊕ Nat}
    (hi : place σ' (Function.update ρs t ρ') i = some port) :
    (∃ j, place σ ρs j = some port ∧
      sessionOf ρs j = sessionOf (Function.update ρs t ρ') i) ∨
    (∃ id path baud, e = ⟨.backendOpen path baud, .ok port⟩ ∧ (ρs t).opens = some id ∧
      sessionOf (Function.update ρs t ρ') i = some id ∧ σ'.sessions = σ.sessions) := by
  cases i with
  | inl id =>
    obtain ⟨s, hs, hport⟩ := Option.bind_eq_some_iff.mp hi
    rcases m.entry_port hs hport with ⟨s₀, hs₀, hport₀⟩ | rfl | hρ
    · exact .inl ⟨.inl id, by rw [place, hs₀]; exact hport₀, rfl⟩
    · obtain ⟨hρ, _⟩ := m.completes
      exact .inl ⟨.inr t, congrArg Role.held hρ, sessionOf_thread (congrArg Role.stage hρ)⟩
    · exact .inl ⟨.inr t, congrArg Role.held hρ, sessionOf_thread (congrArg Role.stage hρ)⟩
  | inr v =>
    by_cases hv : v = t
    · subst hv
      rw [place, Function.update_self] at hi
      rw [sessionOf, Function.update_self]
      generalize hρ : ρs v = ρ at m
      cases m with
      | quiet | io => exact .inl ⟨.inr v, by rw [place, hρ]; exact hi, by rw [sessionOf, hρ]⟩
      | connect =>
        cases hi
        exact .inr ⟨_, _, _, rfl, rfl, rfl, rfl⟩
      | drain => exact .inl ⟨.inr v, by rw [place, hρ]; exact hi, by rw [sessionOf, hρ]; rfl⟩
      | @begin id s found =>
        exact .inl ⟨.inl id, by rw [place, found]; exact hi, rfl⟩
      | _ => cases hi
    · rw [place, Function.update_of_ne hv] at hi
      exact .inl ⟨.inr v, hi, by rw [sessionOf, sessionOf, Function.update_of_ne hv]⟩

/-- A move leaves a port in some place, unless its closer has waited for it and lets go. -/
theorem Backed.kept (h : Backed tr σ ρs) (hok : TableOk σ.sessions) (m : Move t σ (ρs t) e σ' ρ')
    {i : String ⊕ Nat} (hi : place σ ρs i = some port) :
    (∃ j, place σ' (Function.update ρs t ρ') j = some port) ∨ ∃ id, ρs t = .draining id port := by
  -- a session that a thread has in hand is not `Ready`, so its entry holds no port
  have hportless {id : String} {st : SessionState} (hst : (ρs t).stage = some (id, st)) :
      place σ ρs (.inl id) = none := by
    obtain ⟨s, hs, hstate⟩ := h.present t id st hst
    rw [place, hs]
    cases hport : s.port with
    | none => exact hport
    | some port =>
      rw [(hok.port_iff id s hs).mp (by rw [hport]; rfl)] at hstate
      subst hstate
      exact absurd hst Role.stage_ne_ready
  cases i with
  | inr v =>
    by_cases hv : v = t
    · subst hv
      generalize hρ : ρs v = ρ at m
      rw [place, hρ] at hi
      have hpresent := h.present v
      rw [hρ] at hpresent
      have hself (hheld : ρ'.held = some port) :
          ∃ j, place σ' (Function.update ρs v ρ') j = some port :=
        ⟨.inr v, by rw [place, Function.update_self, hheld]⟩
      cases m with
      | quiet | io | drain => exact .inl (hself hi)
      | @ready id port' s | @restore id port' s =>
        cases hi
        exact .inl ⟨.inl id, by rw [place, AList.lookup_insert]; rfl⟩
      | orphan absent | vanished absent =>
        obtain ⟨s, hs, _⟩ := hpresent _ _ rfl
        rw [absent] at hs
        cases hs
      | @drained id port' =>
        cases hi
        exact .inr ⟨id, rfl⟩
      | finish stands => rcases stands with rfl | ⟨_, rfl⟩ <;> cases hi
      | release stands => rcases stands with rfl | ⟨_, rfl⟩ <;> cases hi
      | _ => cases hi
    · exact .inl ⟨.inr v, by rw [place, Function.update_of_ne hv]; exact hi⟩
  -- the port is in the table, where the mover touches only the entry that it has in hand
  | inl id =>
    have hsame (hlookup : σ'.sessions.lookup id = σ.sessions.lookup id) :
        ∃ j, place σ' (Function.update ρs t ρ') j = some port :=
      ⟨.inl id, by rw [place, hlookup]; exact hi⟩
    have hother {id' : String} {st : SessionState} (hst : (ρs t).stage = some (id', st)) :
        id ≠ id' := by
      rintro rfl
      rw [hportless hst] at hi
      cases hi
    generalize hρ : ρs t = ρ at m hother
    cases m with
    | @reserve args id' fresh =>
      refine .inl (hsame (AList.lookup_insert_ne ?_))
      rintro rfl
      rw [place, AList.lookup_eq_none.mpr fresh] at hi
      cases hi
    | ready | restore => exact .inl (hsame (AList.lookup_insert_ne (hother rfl)))
    | abandon => exact .inl (hsame (AList.lookup_erase_ne (hother rfl)))
    | @begin id' s found =>
      by_cases hid : id = id'
      · subst hid
        refine .inl ⟨.inr t, ?_⟩
        rw [place, found] at hi
        rw [place, Function.update_self]
        exact hi
      · exact .inl (hsame (AList.lookup_insert_ne hid))
    | finish stands =>
      rcases stands with rfl | ⟨_, rfl⟩
      · exact .inl (hsame (AList.lookup_erase_ne (hother rfl)))
      · exact .inl (hsame (AList.lookup_erase_ne (hother rfl)))
    | _ => exact .inl (hsame rfl)

theorem Move.idle (m : Move t σ ρ e σ' ρ') (h : ρ' = .idle) :
    ρ = .idle ∧ ∀ args id, e ≠ ⟨.reserve args, .ok id⟩ := by
  cases m with
  | quiet _ _ silent =>
    refine ⟨h, ?_⟩
    rintro args id rfl
    cases silent
  | _ => cases h

theorem Move.reserves {args : SessionArgs} (m : Move t σ ρ ⟨.reserve args, .ok id⟩ σ' ρ') :
    ρ = .idle ∧ ρ' = .opening id ∧ σ.sessions.lookup id = none ∧
      σ'.sessions.lookup id = some (Session.opening id args) := by
  cases m with
  | quiet _ _ silent => cases silent
  | reserve fresh => exact ⟨rfl, rfl, AList.lookup_eq_none.mpr fresh, AList.lookup_insert _⟩
  | io uses => cases uses

theorem Reserved.of_snoc {args : SessionArgs} (h : Reserved (tr ++ [l]) t id args) :
    Reserved tr t id args ∨ l = .act t ⟨.reserve args, .ok id⟩ := by
  rcases List.mem_append.mp h with h | h
  · exact .inl h
  · exact .inr (List.mem_singleton.mp h).symm

theorem Backed.start (h : Backed tr σ ρs) (t : Nat) (call : κ) :
    Backed (tr ++ [.start t call]) σ ρs where
  present := h.present
  alone := h.alone
  taken := h.taken
  once u id args hu := by
    rcases hu.of_snoc with hu | hu
    · exact h.once u id args hu
    · cases hu
  opener u id s id' args hopens hs hu := by
    rcases hu.of_snoc with hu | hu
    · exact h.opener u id s id' args hopens hs hu
    · cases hu
  backed i port hi := by
    obtain ⟨id, s, hid, hs, hmade⟩ := h.backed i port hi
    exact ⟨id, s, hid, hs, hmade.snoc⟩
  used := h.used

theorem Backed.opener_move (h : Backed tr σ ρs) (m : Move t σ (ρs t) e σ' ρ') {s : Session}
    {id' : String} {args : SessionArgs} (hopens : (Function.update ρs t ρ' u).opens = some id)
    (hs : σ'.sessions.lookup id = some s) (hu : Reserved (tr ++ [.act t e]) u id' args) :
    s.toSessionArgs = args := by
  by_cases hut : u = t
  · subst hut
    rw [Function.update_self] at hopens
    rcases hu.of_snoc with hbefore | hnow
    · rcases m.role_cases.1 id hopens with hold | ⟨args', rfl⟩
      · rcases m.entry_args hs with ⟨s₀, hs₀, hargs⟩ | rfl
        · exact hargs.trans (h.opener u id s₀ id' args hold hs₀ hbefore)
        · exact absurd m.reserves.1 (h.once u id' args hbefore)
      · exact absurd m.reserves.1 (h.once u id' args hbefore)
    · cases hnow
      obtain ⟨hidle, hopening, _, hfound⟩ := m.reserves
      rw [hopening] at hopens
      cases hopens
      rw [hfound] at hs
      cases hs
      rfl
  · rw [Function.update_of_ne hut] at hopens
    rcases hu.of_snoc with hu | hu
    · rcases m.entry_args hs with ⟨s₀, hs₀, hargs⟩ | rfl
      · exact hargs.trans (h.opener u id s₀ id' args hopens hs₀ hu)
      · -- the session that `u` opens is in the table, so its id is not free
        obtain ⟨s₀, hs₀, _⟩ := h.present u id .opening (Role.stage_of_opens hopens)
        rw [m.reserves.2.2.1] at hs₀
        cases hs₀
    · cases hu
      exact absurd rfl hut

theorem Backed.move (h : Backed tr σ ρs) (hok : TableOk σ.sessions) (hown : Owned σ ρs)
    (hρ : ρs t = ρ) (m : Move t σ ρ e σ' ρ') (hclose : ∀ id, e ≠ ⟨.beginClose id, .ok none⟩)
    (hpath : ∀ path baud p, e = ⟨.backendOpen path baud, .ok p⟩ →
      ∃ id args, Reserved tr t id args ∧ path = args.portPath) :
    Backed (tr ++ [.act t e]) σ' (Function.update ρs t ρ') := by
  subst hρ
  have hshift := h.shift hok rfl m hclose
  constructor
  · exact fun v id st hv => hshift.present h hv
  · exact fun v w id st st' hv hw => hshift.alone h hv hw
  -- `hclose` rules out the move that starts to close a session with no port
  · intro v id hv
    by_cases hvt : v = t
    · subst hvt
      rw [Function.update_self] at hv
      subst hv
      have htaken := h.taken v id
      generalize hρ : ρs v = ρ at m htaken
      generalize hρ' : Role.closing id none = ρ' at m
      cases m with
      | quiet => exact htaken hρ'.symm
      | @begin id' s found =>
        injection hρ' with _ hport
        exact hclose id' (by rw [← hport])
      | _ => cases hρ'
    · rw [Function.update_of_ne hvt] at hv
      exact h.taken v id hv
  -- no move leads back to the start, so who has reserved once never reserves again
  · intro v id args hv
    by_cases hvt : v = t
    · subst hvt
      rw [Function.update_self]
      intro hidle
      obtain ⟨hold, hnot⟩ := m.idle hidle
      rcases hv.of_snoc with hv | hv
      · exact h.once v id args hv hold
      · cases hv
        exact hnot args id rfl
    · rw [Function.update_of_ne hvt]
      rcases hv.of_snoc with hv | hv
      · exact h.once v id args hv
      · cases hv
        exact absurd rfl hvt
  · exact fun v id s id' args hopens hs hv => h.opener_move m hopens hs hv
  -- a port was in some place before, or is the one that the backend has just made
  · intro i port hi
    rcases m.port_source hi with ⟨j, hj, hsession⟩ | ⟨id, path, baud, rfl, hopens, hsession, htable⟩
    · obtain ⟨id, s, hid, hs, hmade⟩ := h.backed j port hj
      rw [hid] at hsession
      rcases hshift.entry hs with ⟨s', hs', hargs⟩ | ⟨st, hst, hst', hgone⟩
      · have hpath : s'.portPath = s.portPath := congrArg SessionArgs.portPath hargs
        exact ⟨id, s', hsession.symm, hs', hpath ▸ hmade.snoc⟩
      · -- the session is dropped by the one who had it in hand, so no port is left of it
        cases i with
        | inl id' =>
          cases hsession
          rw [place, hgone] at hi
          cases hi
        | inr v =>
          by_cases hvt : v = t
          · subst hvt
            rw [sessionOf, Function.update_self, hst'] at hsession
            cases hsession
          · rw [sessionOf, Function.update_of_ne hvt] at hsession
            obtain ⟨⟨_, st'⟩, hv, rfl⟩ := Option.map_eq_some_iff.mp hsession.symm
            exact absurd (h.alone v t _ st' st hv hst) hvt
    · obtain ⟨s, hs, _⟩ := h.present t id .opening (Role.stage_of_opens hopens)
      obtain ⟨id', args, hreserved, rfl⟩ := hpath path baud port rfl
      have hargs := h.opener t id s id' args hopens hs hreserved
      refine ⟨id, s, hsession, by rw [htable]; exact hs, t, baud, ?_⟩
      rw [hargs]
      simp
  -- before the move the port was somewhere, and only its drainer lets go of it
  · intro v id port hv
    have hplaced : ∃ i, place σ ρs i = some port := by
      by_cases hvt : v = t
      · subst hvt
        rw [Function.update_self] at hv
        rcases m.active hv with hold | ⟨i, hi⟩
        · exact h.used v id port hold
        · exact ⟨.inl i, hi⟩
      · rw [Function.update_of_ne hvt] at hv
        exact h.used v id port hv
    obtain ⟨i, hi⟩ := hplaced
    rcases h.kept hok m hi with hkept | ⟨id', hdraining⟩
    · exact hkept
    · -- who drains the port has its lock, so nobody else is active on it
      have hlock : σ.owner port = some t := hown.locked t port (congrArg Role.locked hdraining)
      by_cases hvt : v = t
      · subst hvt
        rw [Function.update_self] at hv
        rcases m.active hv with hold | ⟨i', hi'⟩
        · rw [hdraining] at hold
          cases hold
        · cases hown.linear (.inl i') (.inr v) port hi' (congrArg Role.held hdraining)
      · rw [Function.update_of_ne hvt] at hv
        have hlock' := hown.locked v port (congrArg Role.locked hv)
        rw [hlock] at hlock'
        exact absurd (Option.some.inj hlock').symm hvt

theorem Backed.initial : Backed ([] : List (Label Request Response κ)) .init fun _ => .idle where
  present t id st h := by cases h
  alone t u id st st' h := by cases h
  taken t id h := by cases h
  once t id args h := (List.not_mem_nil h).elim
  opener t id s id' args h := by cases h
  backed i port hi := by
    cases i with
    | inl id => cases hi
    | inr t => cases hi
  used t id port h := by cases h

end Moves

section Runs

variable {κ α : Type} {P : SessionArgs → Prop} {code : κ → Program Request Response α}
  {tr : List (Label Request Response κ)} {c : Config machine κ α}

theorem ClosesReady.left {tr' : List (Label Request Response κ)} (h : ClosesReady (tr ++ tr')) :
    ClosesReady tr := fun t id ht => h t id (List.mem_append_left _ ht)

theorem OpensOnly.backed (hopens : OpensOnly P code) (hcode : Orderly code)
    (h : Run machine code tr c) (hclose : ClosesReady tr) : Backed tr c.shared (roles c) := by
  induction h with
  | refl => exact .initial
  | @snoc tr c' c'' l hrun last ih =>
    have hbacked := ih hclose.left
    cases l with
    | start t call =>
      have hroles : roles c'' = roles c' := funext fun u => last.track_start u
      rw [hroles]
      cases last
      exact hbacked.start t call
    | act t e =>
      obtain ⟨ρ', hmove, hroles⟩ := hcode.move hrun last
      rw [hroles]
      refine hbacked.move (hcode.tableOk hrun) (hcode.owned hrun) rfl hmove ?_ ?_
      · rintro id rfl
        exact hclose t id (by simp)
      · rintro path baud p rfl
        obtain ⟨id, args, hreserved, hpath, _⟩ :=
          hopens.backendOpen (hrun.snoc last) (List.mem_append_right _ List.mem_cons_self)
        refine ⟨id, args, ?_, hpath⟩
        rcases hreserved.of_snoc with hreserved | hnow
        · exact hreserved
        · cases hnow

/-- Handles are made in order, so each is made for one path. -/
theorem Orderly.made_lt (hcode : Orderly code) (h : Run machine code tr c) {port : Handle}
    {path : String} (hmade : Made tr port path) : port < c.shared.nextHandle := by
  obtain ⟨t, baud, ht⟩ := hmade
  obtain ⟨before, after, d, d', rfl, hbefore, hstep, hafter⟩ := Steps.step_of_mem h ht
  obtain ⟨rfl, hnext⟩ : port = d.shared.nextHandle ∧
      d'.shared = { d.shared with nextHandle := d.shared.nextHandle + 1 } := hstep.answers
  refine hcode.along (hbefore.snoc hstep) hafter
    (J := fun σ _ => d.shared.nextHandle < σ.nextHandle) ?_ ?_
  · rw [hnext]
    exact Nat.lt_succ_self _
  · intro σ ρs t ρ e σ' ρ' _ _ hlt _ m
    exact Nat.lt_of_lt_of_le hlt m.nextHandle_le

theorem Orderly.made_unique (hcode : Orderly code) (h : Run machine code tr c) {port : Handle}
    {path path' : String} (hmade : Made tr port path) (hmade' : Made tr port path') :
    path = path' := by
  induction h with
  | refl =>
    obtain ⟨t, baud, ht⟩ := hmade
    cases ht
  | @snoc tr c' c'' l hrun last ih =>
    -- a handle that is made now was not there before
    have hnew {t : Nat} {baud : Nat} {path path' : String}
        (hl : l = .act t ⟨.backendOpen path baud, .ok port⟩) (hold : Made tr port path') :
        False := by
      subst hl
      have hport : port = c'.shared.nextHandle := last.answers.1
      have hlt := hcode.made_lt hrun hold
      rw [hport] at hlt
      exact Nat.lt_irrefl _ hlt
    obtain ⟨t, baud, ht⟩ := hmade
    obtain ⟨t', baud', ht'⟩ := hmade'
    rcases List.mem_append.mp ht with ht | ht
    · rcases List.mem_append.mp ht' with ht' | ht'
      · exact ih ⟨t, baud, ht⟩ ⟨t', baud', ht'⟩
      · exact (hnew (List.mem_singleton.mp ht').symm ⟨t, baud, ht⟩).elim
    · rcases List.mem_append.mp ht' with ht' | ht'
      · exact (hnew (List.mem_singleton.mp ht).symm ⟨t', baud', ht'⟩).elim
      · have hboth := (List.mem_singleton.mp ht).trans (List.mem_singleton.mp ht').symm
        cases hboth
        rfl

/-- While a device is opened, no port made for it earlier is in any place or in use. -/
theorem OpensOnly.retired (hopens : OpensOnly P code) (hcode : Orderly code)
    (h : Run machine code tr c) (hclose : ClosesReady tr) {u : Nat} {path : String} {baud : Nat}
    {x : Except SerialError Handle} {c' : Config machine κ α}
    (hstep : Step code c (.act u ⟨.backendOpen path baud, x⟩) c') {port : Handle}
    (hmade : Made tr port path) : Retired port c.shared (roles c) := by
  have hbacked := hopens.backed hcode h hclose
  have hok := hcode.tableOk h
  obtain ⟨id, hrole⟩ : ∃ id, roles c u = .opening id := Run.admits hcode h hstep
  obtain ⟨s, hs, hstate⟩ := hbacked.present u id .opening (congrArg Role.stage hrole)
  obtain ⟨id₁, args, hreserved, hpath, _⟩ :=
    hopens.backendOpen (h.snoc hstep) (List.mem_append_right _ List.mem_cons_self)
  have hreserved : Reserved tr u id₁ args := by
    rcases hreserved.of_snoc with hreserved | hnow
    · exact hreserved
    · cases hnow
  have hargs := hbacked.opener u id s id₁ args (congrArg Role.opens hrole) hs hreserved
  have hspath : s.portPath = path := by rw [hargs, hpath]
  have hnowhere : ∀ i, place c.shared (roles c) i ≠ some port := by
    intro i hi
    obtain ⟨id', s', hsession, hs', hmade'⟩ := hbacked.backed i port hi
    have hpath' : s'.portPath = s.portPath :=
      (hcode.made_unique h hmade' hmade).trans hspath.symm
    obtain rfl := hok.path_inj id' id s' s hs' hs hpath'
    cases i with
    | inl id'' =>
      cases hsession
      rw [place, hs] at hi
      have hready := (hok.port_iff _ s hs).mp (by rw [show s.port = some port from hi]; rfl)
      rw [hready] at hstate
      cases hstate
    | inr v =>
      obtain ⟨⟨_, st⟩, hv, rfl⟩ := Option.map_eq_some_iff.mp hsession
      obtain rfl := hbacked.alone v u _ st .opening hv (congrArg Role.stage hrole)
      rw [place, hrole] at hi
      cases hi
  refine ⟨⟨hcode.made_lt h hmade, hnowhere⟩, fun t id' ht => ?_⟩
  obtain ⟨i, hi⟩ := hbacked.used t id' port ht
  exact hnowhere i hi

end Runs

/-! ## The server -/

/-- As long as no `close` takes a session that is still `Opening`: once the backend is
asked for a device again, nothing is read, written or flushed on a port made for it
before, whoever still has that port. -/
theorem device_exclusive (srv : McpServer) {before after : List ToolLabel} {c : ToolConfig}
    {u : Nat} {path : String} {baud : Nat} {x : Except SerialError Handle}
    (h : Run machine (toolCode srv) (before ++ .act u ⟨.backendOpen path baud, x⟩ :: after) c)
    (hclose : ClosesReady before) {t baud' : Nat} {port : Handle}
    (hmade : .act t ⟨.backendOpen path baud', .ok port⟩ ∈ before) :
    ∀ v e, .act v e ∈ after → e.req.ioPort ≠ some port := by
  intro v e he hio
  have hcode := toolCode_orderly srv
  obtain ⟨d, d', hbefore, hstep, hafter⟩ := Steps.step_at h
  have hretired := (toolCode_opens srv).retired hcode hbefore hclose hstep ⟨t, baud', hmade⟩
  have hretired' := hcode.retired hbefore hretired (Steps.refl.snoc hstep)
  obtain ⟨between, rest, g, g', rfl, hbetween, huse, _⟩ := Steps.step_of_mem hafter he
  have hrun := hbefore.snoc hstep
  obtain ⟨id, hactive⟩ := hcode.io_active (hrun.append hbetween) huse hio
  exact (hcode.retired hrun hretired' hbetween).unused v id hactive

/-- A device that is closed and opened again. -/
theorem device_exclusive_reopened : ∃ before c,
    Run machine (toolCode wordServer)
      (before ++ [.act 2 ⟨.backendOpen "/dev/ttyUSB0" defaultBaud, .ok (1 : Nat)⟩]) c ∧
    ∀ after c', Run machine (toolCode wordServer)
      (before ++ .act 2 ⟨.backendOpen "/dev/ttyUSB0" defaultBaud, .ok (1 : Nat)⟩ :: after) c' →
      ∀ v e, .act v e ∈ after → e.req.ioPort ≠ some (0 : Nat) := by
  obtain ⟨threads, owner, th, h₀, _, _, _, hfree⟩ := closed_run
  have h₁ := h₀.start 2 (.open guardedParams) (hfree 2 (by decide))
  have h₂ := h₁.act 2 (r := .reserve guardedArgs) (.ok firstId) rfl
    ⟨[.ok (Vector.replicate 16 0)], _, rfl, rfl⟩
  have h₃ := h₂.act 2 (r := .backendOpen "/dev/ttyUSB0" defaultBaud) (.ok (1 : Nat)) rfl
    ⟨rfl, rfl⟩
  refine ⟨_, _, h₃, fun after c' h => ?_⟩
  have hmade : (.act 0 ⟨.backendOpen "/dev/ttyUSB0" defaultBaud, .ok (0 : Nat)⟩ : ToolLabel) ∈
      closedTrace := by simp [closedTrace, guardedTrace]
  refine device_exclusive wordServer h ?_ (List.mem_append_left _ (List.mem_append_left _ hmade))
  intro t id ht
  simp [closedTrace, guardedTrace] at ht

end McpSerial
