import McpSerial.Bits.Mixing
import McpSerial.Interaction.Layers
import McpSerial.Manager.Identity
import McpSerial.Mcp.Calls

/-! Session ids from a fixed seed (`next_splitmix64` in `serial/manager.rs`): a manager that
draws them from a seed is one that draws them from the entropy source, and none comes twice. -/

namespace McpSerial
open Interaction Interaction.Discipline Mixing

/-! ## The generator -/

def gamma : BitVec 64 := 0x9E3779B97F4A7C15

def mix (z : BitVec 64) : BitVec 64 :=
  let z := (z ^^^ (z >>> 30)) * 0xBF58476D1CE4E5B9
  let z := (z ^^^ (z >>> 27)) * 0x94D049BB133111EB
  z ^^^ (z >>> 31)

def nextSplitmix64 (state : BitVec 64) : BitVec 64 × BitVec 64 :=
  let state := state + gamma
  (mix state, state)

/-- `{hi:016x}{lo:016x}` of the next two words. -/
def seededId (state : BitVec 64) : String × BitVec 64 :=
  let (hi, state) := nextSplitmix64 state
  let (lo, state) := nextSplitmix64 state
  (String.ofList (hexDigits 16 hi.toNat ++ hexDigits 16 lo.toNat), state)

namespace Sessions

/-- The loop over the ids of the seed, for a number of turns. -/
def nextSeededId (sessions : Sessions) : Nat → BitVec 64 → Option (String × BitVec 64)
  | 0, _ => none
  | turns + 1, state =>
    let (id, state) := seededId state
    if id ∈ sessions then nextSeededId sessions turns state else some (id, state)

/-- `reserve` with ids of the seed. -/
def reserveSeeded (sessions : Sessions) (args : SessionArgs) (turns : Nat) (state : BitVec 64) :
    Option (Except SerialError String × Sessions × BitVec 64) :=
  if sessions.values.any fun s => s.portPath = args.portPath then
    some (.error (.portBusy args.portPath), sessions, state)
  else if maxSessions ≤ sessions.keys.length then
    some (.error (.maxSessionsReached maxSessions), sessions, state)
  else
    (sessions.nextSeededId turns state).map fun (id, state) =>
      (.ok id, sessions.insert id (Session.opening id args), state)

end Sessions

def seededAnswers (σ : ManagerState × BitVec 64) (t : Nat) :
    (r : Request) → Response r → ManagerState × BitVec 64 → Prop
  | .reserve args, x, σ' =>
    ∃ turns sessions state, σ.1.sessions.reserveSeeded args turns σ.2 = some (x, sessions, state) ∧
      σ' = ({ σ.1 with sessions }, state)
  | r, x, σ' => answers σ.1 t r x σ'.1 ∧ σ'.2 = σ.2

abbrev seededMachine (seed : BitVec 64) : Machine Request Response where
  State := ManagerState × BitVec 64
  init := (.init, seed)
  answers := seededAnswers

/-! ## Words and ids -/

theorem mix_injective : Function.Injective mix := by
  have h₁ : Function.Injective fun z : BitVec 64 => z ^^^ (z >>> 30) :=
    xorShift_injective (by decide)
  have h₂ : Function.Injective fun z : BitVec 64 => z * 0xBF58476D1CE4E5B9 :=
    mul_odd_injective rfl
  have h₃ : Function.Injective fun z : BitVec 64 => z ^^^ (z >>> 27) :=
    xorShift_injective (by decide)
  have h₄ : Function.Injective fun z : BitVec 64 => z * 0x94D049BB133111EB :=
    mul_odd_injective rfl
  have h₅ : Function.Injective fun z : BitVec 64 => z ^^^ (z >>> 31) :=
    xorShift_injective (by decide)
  exact h₅.comp (h₄.comp (h₃.comp (h₂.comp h₁)))

def stateAt (seed : BitVec 64) (n : Nat) : BitVec 64 := seed + BitVec.ofNat 64 n * gamma

theorem stateAt_succ (seed : BitVec 64) (n : Nat) :
    stateAt seed (n + 1) = stateAt seed n + gamma := walk_succ seed gamma n

def idAt (seed : BitVec 64) (i : Nat) : String := (seededId (stateAt seed (2 * i))).1

theorem seededId_stateAt (seed : BitVec 64) (i : Nat) :
    seededId (stateAt seed (2 * i)) = (idAt seed i, stateAt seed (2 * (i + 1))) := by
  refine Prod.ext rfl ?_
  rw [Nat.mul_succ, stateAt_succ, stateAt_succ]
  rfl

theorem hexDigits_length (k n : Nat) : (hexDigits k n).length = k := by
  induction k generalizing n with
  | zero => rfl
  | succ k ih => rw [hexDigits, List.length_append, ih, List.length_singleton]

/-- The ids of one round of the generator differ in their first words. -/
theorem idAt_injective {seed : BitVec 64} {i j : Nat} (hi : i < 2 ^ 63) (hj : j < 2 ^ 63)
    (h : idAt seed i = idAt seed j) : i = j := by
  have hchars := String.ofList_injective h
  have hhi := (List.append_inj hchars (by rw [hexDigits_length, hexDigits_length])).1
  have hword := hexDigits_injective (BitVec.isLt _) (BitVec.isLt _) hhi
  have hstate : stateAt seed (2 * i) + gamma = stateAt seed (2 * j) + gamma :=
    mix_injective (BitVec.eq_of_toNat_eq hword)
  rw [← stateAt_succ, ← stateAt_succ] at hstate
  have hindex := walk_injective rfl (by omega) (by omega) hstate
  omega

/-! ## The entropy source could have drawn them -/

def bigEndian : Nat → Nat → List UInt8
  | 0, _ => []
  | k + 1, n => bigEndian k (n / 256) ++ [UInt8.ofNat n]

theorem length_bigEndian (k n : Nat) : (bigEndian k n).length = k := by
  induction k generalizing n with
  | zero => rfl
  | succ k ih => rw [bigEndian, List.length_append, ih, List.length_singleton]

theorem hexByte_ofNat (n : Nat) : hexByte (UInt8.ofNat n) = [hexDigit (n / 16), hexDigit n] := by
  have hbyte : (UInt8.ofNat n).toNat = n % 256 := UInt8.toNat_ofNat'
  have hhigh : n % 256 / 16 % 16 = n / 16 % 16 := by omega
  have hlow : n % 256 % 16 = n % 16 := by omega
  unfold hexByte hexDigit
  rw [hbyte, hhigh, hlow]

theorem flatMap_bigEndian (k n : Nat) : (bigEndian k n).flatMap hexByte = hexDigits (2 * k) n := by
  induction k generalizing n with
  | zero => rfl
  | succ k ih =>
    rw [bigEndian, List.flatMap_append, ih, List.flatMap_singleton, hexByte_ofNat, Nat.mul_succ,
      hexDigits, hexDigits, Nat.div_div_eq_div_mul, List.append_assoc]
    rfl

theorem exists_draw (state : BitVec 64) :
    ∃ bytes, randomSessionId (.ok bytes) = .ok (seededId state).1 := by
  let hi := (nextSplitmix64 state).1.toNat
  let lo := (nextSplitmix64 (nextSplitmix64 state).2).1.toNat
  have hlength : (bigEndian 8 hi ++ bigEndian 8 lo).toArray.size = 16 := by
    simp [length_bigEndian]
  refine ⟨⟨(bigEndian 8 hi ++ bigEndian 8 lo).toArray, hlength⟩, ?_⟩
  have hchars : (bigEndian 8 hi ++ bigEndian 8 lo).flatMap hexByte =
      hexDigits 16 hi ++ hexDigits 16 lo := by
    rw [List.flatMap_append, flatMap_bigEndian, flatMap_bigEndian]
  exact congrArg (fun cs => Except.ok (String.ofList cs)) hchars

section Draws

variable {sessions sessions' : Sessions} {args : SessionArgs} {turns : Nat}
  {state state' : BitVec 64} {id : String} {x : Except SerialError String}

theorem nextSeededId_drawn (h : sessions.nextSeededId turns state = some (id, state')) :
    ∃ draws, sessions.nextSessionId draws = some (.ok id) := by
  induction turns generalizing state with
  | zero => cases h
  | succ turns ih =>
    obtain ⟨bytes, hbytes⟩ := exists_draw state
    unfold Sessions.nextSeededId at h
    dsimp only at h
    by_cases htaken : (seededId state).1 ∈ sessions
    · rw [if_pos htaken] at h
      obtain ⟨draws, hdraws⟩ := ih h
      refine ⟨.ok bytes :: draws, ?_⟩
      unfold Sessions.nextSessionId
      rw [hbytes]
      exact (if_pos htaken).trans hdraws
    · rw [if_neg htaken] at h
      obtain ⟨rfl, _⟩ := Prod.mk.inj (Option.some.inj h)
      refine ⟨[.ok bytes], ?_⟩
      unfold Sessions.nextSessionId
      rw [hbytes]
      exact if_neg htaken

theorem reserveSeeded_cases
    (h : sessions.reserveSeeded args turns state = some (x, sessions', state')) :
    (∃ e, x = .error e ∧ state' = state) ∨
      ∃ id, x = .ok id ∧ sessions.nextSeededId turns state = some (id, state') := by
  unfold Sessions.reserveSeeded at h
  split_ifs at h
  · cases h
    exact .inl ⟨_, rfl, rfl⟩
  · cases h
    exact .inl ⟨_, rfl, rfl⟩
  · obtain ⟨⟨id, state₁⟩, hfound, hx⟩ := Option.map_eq_some_iff.mp h
    cases hx
    exact .inr ⟨id, rfl, hfound⟩

theorem reserveSeeded_drawn
    (h : sessions.reserveSeeded args turns state = some (x, sessions', state')) :
    ∃ draws, sessions.reserve args draws = some (x, sessions') := by
  unfold Sessions.reserveSeeded at h
  unfold Sessions.reserve
  split_ifs at h ⊢
  · cases h
    exact ⟨[], rfl⟩
  · cases h
    exact ⟨[], rfl⟩
  · obtain ⟨⟨id, state₁⟩, hfound, hx⟩ := Option.map_eq_some_iff.mp h
    cases hx
    obtain ⟨draws, hdraws⟩ := nextSeededId_drawn hfound
    exact ⟨draws, by rw [hdraws]; rfl⟩

theorem nextSeededId_first (hfree : (seededId state).1 ∉ sessions)
    (h : sessions.nextSeededId turns state = some (id, state')) :
    (id, state') = seededId state := by
  cases turns with
  | zero => cases h
  | succ turns =>
    unfold Sessions.nextSeededId at h
    exact (Option.some.inj ((if_neg hfree).symm.trans h)).symm

end Draws

theorem seeded_refines (seed : BitVec 64) : (seededMachine seed).Refines machine Prod.fst where
  init := rfl
  answers σ t r x σ' h := by
    cases r with
    | reserve args =>
      obtain ⟨turns, sessions, state, hreserved, rfl⟩ := h
      obtain ⟨draws, hdraws⟩ := reserveSeeded_drawn hreserved
      exact ⟨draws, sessions, hdraws, rfl⟩
    | _ => exact h.1

/-! ## No id comes twice -/

/-- The ids that `tr` has given out are the first of the seed, and the generator stands
behind them. -/
structure Drawn {κ : Type} (seed : BitVec 64) (tr : List (Label Request Response κ))
    (state : BitVec 64) : Prop where
  ids : tr.filterMap Label.reserves =
    (List.range (tr.filterMap Label.reserves).length).map (idAt seed)
  state_eq : state = stateAt seed (2 * (tr.filterMap Label.reserves).length)

section Runs

variable {κ α : Type} {code : κ → Program Request Response α} {seed state state' : BitVec 64}
  {tr : List (Label Request Response κ)} {c : Config (seededMachine seed) κ α} {id : String}

theorem Drawn.skip (h : Drawn seed tr state) {l : Label Request Response κ}
    (hl : Label.reserves l = none) : Drawn seed (tr ++ [l]) state := by
  have hsame : (tr ++ [l]).filterMap Label.reserves = tr.filterMap Label.reserves := by
    rw [List.filterMap_append, List.filterMap_cons_none hl, List.filterMap_nil, List.append_nil]
  exact ⟨by rw [hsame]; exact h.ids, by rw [hsame]; exact h.state_eq⟩

theorem Drawn.draw (h : Drawn seed tr state) {l : Label Request Response κ}
    (hl : Label.reserves l = some id) (hdraw : (id, state') = seededId state) :
    Drawn seed (tr ++ [l]) state' := by
  have hsnoc : (tr ++ [l]).filterMap Label.reserves = tr.filterMap Label.reserves ++ [id] := by
    rw [List.filterMap_append, List.filterMap_cons_some hl, List.filterMap_nil]
  rw [h.state_eq, seededId_stateAt] at hdraw
  obtain ⟨rfl, rfl⟩ := Prod.mk.inj hdraw
  refine ⟨?_, ?_⟩
  · rw [hsnoc, List.length_append, List.length_singleton, List.range_succ, List.map_append,
      ← h.ids]
    rfl
  · rw [hsnoc, List.length_append, List.length_singleton]

/-- The next id of the seed is not in the table. -/
theorem Drawn.free (h : Drawn seed tr state) {sessions : Sessions}
    (hfew : (tr.filterMap Label.reserves).length < 2 ^ 63)
    (hgiven : ∀ id s, sessions.lookup id = some s → id ∈ tr.filterMap Label.reserves) :
    (seededId state).1 ∉ sessions := by
  intro hmem
  obtain ⟨s, hs⟩ := Option.isSome_iff_exists.mp (AList.lookup_isSome.mpr hmem)
  have hgiven := hgiven _ s hs
  rw [h.ids, h.state_eq, seededId_stateAt] at hgiven
  obtain ⟨i, hi, hsame⟩ := List.mem_map.mp hgiven
  have hlt := List.mem_range.mp hi
  have heq := idAt_injective (hlt.trans hfew) hfew hsame
  omega

theorem given_of_run (hcode : Orderly code) (h : Run (seededMachine seed) code tr c) {s : Session}
    (hs : c.shared.1.sessions.lookup id = some s) : id ∈ tr.filterMap Label.reserves := by
  obtain ⟨t, ht⟩ := (hcode.known ((seeded_refines seed).run h)).entry id s hs
  exact List.mem_filterMap.mpr ⟨_, ht, rfl⟩

theorem Orderly.drawn (hcode : Orderly code) (h : Run (seededMachine seed) code tr c)
    (hfew : (tr.filterMap Label.reserves).length ≤ 2 ^ 63) : Drawn seed tr c.shared.2 := by
  induction h with
  | refl => exact ⟨rfl, by simp [stateAt, initial]⟩
  | @snoc tr c₀ c l init last ih =>
    rw [List.filterMap_append, List.length_append] at hfew
    have hdrawn := ih (by omega)
    cases last with
    | start t call free => exact hdrawn.skip rfl
    | @act t call past r next x σ at_ask answer =>
      cases r with
      | reserve args =>
        obtain ⟨turns, sessions, state, hreserved, rfl⟩ := answer
        rcases reserveSeeded_cases hreserved with ⟨e, rfl, rfl⟩ | ⟨id, rfl, hfound⟩
        · exact hdrawn.skip rfl
        · have hlt : (tr.filterMap Label.reserves).length < 2 ^ 63 := Nat.lt_of_succ_le hfew
          have hfree := hdrawn.free hlt fun id s hs => given_of_run hcode init hs
          exact hdrawn.draw rfl (nextSeededId_first hfree hfound)
      | _ =>
        have hstate : σ.2 = c₀.shared.2 := answer.2
        rw [← hstate] at hdrawn
        exact hdrawn.skip rfl

end Runs

/-- Every run of the server over a manager with a seed is one over a manager without, in which
no session id comes twice, for as long as the generator has not gone round: the ids are the
first of the seed, in their order, and the next one is free at once. -/
theorem seeded_ids (srv : McpServer) (seed : BitVec 64) {tr : List ToolLabel}
    {c : Config (seededMachine seed) ToolCall CallToolResponse}
    (h : Run (seededMachine seed) (toolCode srv) tr c)
    (hfew : (tr.filterMap Label.reserves).length < 2 ^ 63) :
    Run machine (toolCode srv) tr ⟨c.shared.1, c.threads⟩ ∧ FreshIds tr ∧
      tr.filterMap Label.reserves =
        (List.range (tr.filterMap Label.reserves).length).map (idAt seed) ∧
      (seededId c.shared.2).1 ∉ c.shared.1.sessions := by
  have hcode := toolCode_orderly srv
  have hdrawn := hcode.drawn h hfew.le
  refine ⟨(seeded_refines seed).run h, ?_, hdrawn.ids,
    hdrawn.free hfew fun id s hs => given_of_run hcode h hs⟩
  unfold FreshIds
  rw [hdrawn.ids]
  apply List.Nodup.map_on _ List.nodup_range
  intro i hi j hj hsame
  have hi := List.mem_range.mp hi
  have hj := List.mem_range.mp hj
  exact idAt_injective (hi.trans hfew) (hj.trans hfew) hsame

def secondParams : OpenParams := { guardedParams with port := some "/dev/ttyUSB1" }

def secondGuarded : SessionArgs := { guardedArgs with portPath := "/dev/ttyUSB1" }

def seededTrace : List ToolLabel :=
  [.start 0 (.open guardedParams), .act 0 ⟨.reserve guardedArgs, .ok (idAt 0xDEADBEEF 0)⟩,
    .start 1 (.open secondParams), .act 1 ⟨.reserve secondGuarded, .ok (idAt 0xDEADBEEF 1)⟩]

theorem seeded_ids_two : ∃ c,
    Run machine (toolCode wordServer) seededTrace c ∧ FreshIds seededTrace ∧
      seededTrace.filterMap Label.reserves = [idAt 0xDEADBEEF 0, idAt 0xDEADBEEF 1] := by
  have h₀ : Run (seededMachine 0xDEADBEEF) (toolCode wordServer) [] _ := .refl
  have h₁ := h₀.start 0 (.open guardedParams) rfl
  have h₂ := h₁.act 0 (r := .reserve guardedArgs) (.ok (idAt 0xDEADBEEF 0)) rfl
    ⟨1, _, _, rfl, rfl⟩
  have h₃ := h₂.start 1 (.open secondParams) rfl
  have h₄ := h₃.act 1 (r := .reserve secondGuarded) (.ok (idAt 0xDEADBEEF 1)) rfl
    ⟨1, _, _, rfl, rfl⟩
  obtain ⟨hrun, hfresh, hids, _⟩ := seeded_ids wordServer 0xDEADBEEF h₄ (by decide)
  exact ⟨_, hrun, hfresh, hids⟩

end McpSerial
