import McpSerial.Manager.Calls

/-! The invariant of the session table, in every state any calls can reach. -/

namespace McpSerial
open Interaction

structure TableOk (sessions : Sessions) : Prop where
  capped : sessions.keys.length ≤ maxSessions
  path_inj : ∀ id id' s s', sessions.lookup id = some s → sessions.lookup id' = some s' →
    s.portPath = s'.portPath → id = id'
  key_eq : ∀ id s, sessions.lookup id = some s → s.id = id
  not_closed : ∀ id s, sessions.lookup id = some s → s.state ≠ .closed
  port_iff : ∀ id s, sessions.lookup id = some s → (s.port.isSome ↔ s.state = .ready)

theorem Sessions.lookup_insert_cases {sessions : Sessions} {id id' : String} {s s' : Session}
    (h : (sessions.insert id s).lookup id' = some s') :
    (id' = id ∧ s' = s) ∨ (id' ≠ id ∧ sessions.lookup id' = some s') := by
  by_cases hid : id' = id
  · subst hid
    rw [AList.lookup_insert] at h
    cases h
    exact .inl ⟨rfl, rfl⟩
  · rw [AList.lookup_insert_ne hid] at h
    exact .inr ⟨hid, h⟩

theorem Sessions.lookup_of_erase {sessions : Sessions} {id id' : String} {s : Session}
    (h : (sessions.erase id).lookup id' = some s) : id' ≠ id ∧ sessions.lookup id' = some s := by
  by_cases hid : id' = id
  · subst hid
    rw [AList.lookup_erase] at h
    cases h
  · rw [AList.lookup_erase_ne hid] at h
    exact ⟨hid, h⟩

namespace TableOk

variable {sessions : Sessions} {id : String} {s s' : Session}

theorem empty : TableOk ∅ := by
  constructor
  · exact Nat.zero_le _
  all_goals
    intro id
    simp only [AList.lookup_empty, reduceCtorEq, false_implies, implies_true]

theorem erase (h : TableOk sessions) (id : String) : TableOk (sessions.erase id) where
  capped := by
    rw [AList.keys_erase]
    exact Nat.le_trans List.length_erase_le h.capped
  path_inj _ _ _ _ hs hs' := h.path_inj _ _ _ _ (Sessions.lookup_of_erase hs).2
    (Sessions.lookup_of_erase hs').2
  key_eq _ _ hs := h.key_eq _ _ (Sessions.lookup_of_erase hs).2
  not_closed _ _ hs := h.not_closed _ _ (Sessions.lookup_of_erase hs).2
  port_iff _ _ hs := h.port_iff _ _ (Sessions.lookup_of_erase hs).2

theorem insert_opening (h : TableOk sessions) {args : SessionArgs} (fresh : id ∉ sessions)
    (free : ∀ id' s, sessions.lookup id' = some s → s.portPath ≠ args.portPath)
    (room : sessions.keys.length < maxSessions) :
    TableOk (sessions.insert id (Session.opening id args)) where
  capped := by
    rw [AList.keys_insert, List.length_cons, List.erase_of_not_mem fresh]
    exact room
  path_inj id₁ id₂ s₁ s₂ h₁ h₂ hpath := by
    obtain ⟨rfl, rfl⟩ | ⟨_, k₁⟩ := Sessions.lookup_insert_cases h₁
    · obtain ⟨rfl, rfl⟩ | ⟨_, k₂⟩ := Sessions.lookup_insert_cases h₂
      · rfl
      · exact absurd hpath.symm (free _ _ k₂)
    · obtain ⟨rfl, rfl⟩ | ⟨_, k₂⟩ := Sessions.lookup_insert_cases h₂
      · exact absurd hpath (free _ _ k₁)
      · exact h.path_inj _ _ _ _ k₁ k₂ hpath
  key_eq id' s' hs := by
    obtain ⟨rfl, rfl⟩ | ⟨_, hs⟩ := Sessions.lookup_insert_cases hs
    · rfl
    · exact h.key_eq _ _ hs
  not_closed id' s' hs := by
    obtain ⟨rfl, rfl⟩ | ⟨_, hs⟩ := Sessions.lookup_insert_cases hs
    · nofun
    · exact h.not_closed _ _ hs
  port_iff id' s' hs := by
    obtain ⟨rfl, rfl⟩ | ⟨_, hs⟩ := Sessions.lookup_insert_cases hs
    · exact ⟨by nofun, by nofun⟩
    · exact h.port_iff _ _ hs

theorem update (h : TableOk sessions) (found : sessions.lookup id = some s)
    (path : s'.portPath = s.portPath) (key : s'.id = s.id) (live : s'.state ≠ .closed)
    (port : s'.port.isSome ↔ s'.state = .ready) : TableOk (sessions.insert id s') where
  capped := by
    have hmem : id ∈ sessions.keys := AList.lookup_isSome.mp (by rw [found]; rfl)
    rw [AList.keys_insert, List.length_cons, List.length_erase_of_mem hmem,
      Nat.sub_add_cancel (List.length_pos_of_mem hmem)]
    exact h.capped
  path_inj id₁ id₂ s₁ s₂ h₁ h₂ hpath := by
    obtain ⟨rfl, rfl⟩ | ⟨_, k₁⟩ := Sessions.lookup_insert_cases h₁
    · obtain ⟨rfl, rfl⟩ | ⟨_, k₂⟩ := Sessions.lookup_insert_cases h₂
      · rfl
      · exact h.path_inj _ _ _ _ found k₂ (path.symm.trans hpath)
    · obtain ⟨rfl, rfl⟩ | ⟨_, k₂⟩ := Sessions.lookup_insert_cases h₂
      · exact h.path_inj _ _ _ _ k₁ found (hpath.trans path)
      · exact h.path_inj _ _ _ _ k₁ k₂ hpath
  key_eq id' s'' hs := by
    obtain ⟨rfl, rfl⟩ | ⟨_, hs⟩ := Sessions.lookup_insert_cases hs
    · exact key.trans (h.key_eq _ _ found)
    · exact h.key_eq _ _ hs
  not_closed id' s'' hs := by
    obtain ⟨rfl, rfl⟩ | ⟨_, hs⟩ := Sessions.lookup_insert_cases hs
    · exact live
    · exact h.not_closed _ _ hs
  port_iff id' s'' hs := by
    obtain ⟨rfl, rfl⟩ | ⟨_, hs⟩ := Sessions.lookup_insert_cases hs
    · exact port
    · exact h.port_iff _ _ hs

theorem move {t : Nat} {σ σ' : ManagerState} {ρ ρ' : Role} {e : Ask} (h : TableOk σ.sessions)
    (m : Move t σ ρ e σ' ρ') : TableOk σ'.sessions := by
  cases m with
  | reserve fresh free room => exact h.insert_opening fresh free room
  | ready found => exact h.update found rfl rfl (by nofun) ⟨fun _ => rfl, fun _ => rfl⟩
  | begin found _ => exact h.update found rfl rfl (by nofun) ⟨by nofun, by nofun⟩
  | restore found => exact h.update found rfl rfl (by nofun) ⟨fun _ => rfl, fun _ => rfl⟩
  | abandon => exact h.erase _
  | finish _ => exact h.erase _
  | _ => exact h

end TableOk

theorem Orderly.tableOk {κ α : Type} {code : κ → Program Request Response α}
    {tr : List (Label Request Response κ)} {c : Config machine κ α} (hcode : Orderly code)
    (h : Run machine code tr c) : TableOk c.shared.sessions :=
  hcode.invariant (I := fun _ σ _ => TableOk σ.sessions) TableOk.empty (fun _ _ _ _ _ hσ => hσ)
    (fun _ _ _ _ _ _ _ _ hσ _ m => hσ.move m) h

/-- Whatever calls are made and however they interleave, the table is well formed. -/
theorem sessions_table_ok (env : Environment) (rx : RegexCrate) {tr : List ManagerLabel}
    {c : ManagerConfig} (h : Run machine (managerCode env rx) tr c) : TableOk c.shared.sessions :=
  (managerCode_orderly env rx).tableOk h

/-- One session is closing while another is opening. -/
theorem sessions_table_ok_two : ∃ tr c s s', Run machine (managerCode defaultEnv noRegex) tr c ∧
    c.shared.sessions.lookup firstId = some s ∧ s.state = .closing ∧
    c.shared.sessions.lookup secondId = some s' ∧ s'.state = .opening ∧
    TableOk c.shared.sessions := by
  obtain ⟨threads, h₀, hfree, _⟩ := first_run
  have h₁ := h₀.start 1 (.open secondArgs) (hfree 1 (by decide))
  have h₂ := h₁.act 1 (r := .reserve secondArgs) (.ok secondId) rfl ⟨twoDraws, _, rfl, rfl⟩
  have h₃ := h₂.start 2 (.close firstId 0) (by simpa [Config.put] using hfree 2 (by decide))
  have h₄ := h₃.act 2 (r := .beginClose firstId) (.ok (some (0 : Nat))) rfl ⟨rfl, rfl⟩
  exact ⟨_, _, _, _, h₄, rfl, rfl, rfl, rfl, sessions_table_ok defaultEnv noRegex h₄⟩

end McpSerial
