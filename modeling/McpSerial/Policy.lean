import McpSerial.Config

/-! Regexes and the command policy of a session (`serial/policy.rs`). -/

namespace McpSerial
open Utf8

structure Match (text : List Char) where
  before : List Char
  hit : List Char
  after : List Char
  cut : before ++ hit ++ after = text

/-- A compiled regex is its leftmost search. -/
structure Regex where
  find : (text : List Char) → Option (Match text)

def Regex.isMatch (r : Regex) (text : List Char) : Bool := (r.find text).isSome

/-- The regex crate: compiling a pattern within the size limits, or the reason
it does not compile. -/
structure RegexCrate where
  build : String → Except String Regex

def boundedRegex (rx : RegexCrate) (pattern : String) : Except String Regex :=
  if maxPatternLen < (asBytes pattern).length then
    .error s!"regex is {(asBytes pattern).length} bytes; max is {maxPatternLen}"
  else
    match rx.build pattern with
    | .ok regex => .ok regex
    | .error e => .error s!"invalid regex: {e}"

structure Rule where
  name : String
  regex : Regex

structure CommandPolicy where
  deny : List Rule := []
  allow : List Rule := []

structure CommandPolicySummary where
  denyRuleCount : Nat
  allowRuleCount : Nat
  mutationViaExecOnly : Bool
  deriving DecidableEq, Repr

def compileRulesFrom (rx : RegexCrate) (pre : String) :
    Nat → List String → Except SerialError (List Rule)
  | _, [] => .ok []
  | index, pattern :: patterns =>
    match boundedRegex rx pattern with
    | .error error =>
      .error (.invalidParam "command_policy" s!"{pre} regex at index {index}: {error}")
    | .ok regex =>
      match compileRulesFrom rx pre (index + 1) patterns with
      | .error e => .error e
      | .ok rules => .ok ({ name := s!"{pre}.{index}", regex } :: rules)

def compileRules (rx : RegexCrate) (pre : String) (patterns : List String) :
    Except SerialError (List Rule) :=
  compileRulesFrom rx pre 0 patterns

/-- `char::is_control`: the general category Cc. -/
def isControl (c : Char) : Bool :=
  c.toNat < 0x20 || (0x7f ≤ c.toNat && c.toNat < 0xa0)

namespace CommandPolicy

def compile (rx : RegexCrate) (globalDeny profileDeny profileAllow callerDeny : List String) :
    Except SerialError CommandPolicy := do
  let global ← compileRules rx "deny.global" globalDeny
  let profile ← compileRules rx "deny.profile" profileDeny
  let caller ← compileRules rx "deny.caller" callerDeny
  let allow ← compileRules rx "allow.profile" profileAllow
  return { deny := global ++ profile ++ caller, allow }

def isEmpty (p : CommandPolicy) : Bool := p.deny.isEmpty && p.allow.isEmpty

def matchedRule (p : CommandPolicy) (command : List Char) : Option String :=
  match p.deny.find? fun rule => rule.regex.isMatch command with
  | some rule => some rule.name
  | none =>
    if !p.allow.isEmpty && !p.allow.any fun rule => rule.regex.isMatch command then
      some "allow.profile.no_match"
    else none

/-- The rule that blocks a complete `serial.exec` command, or none when it may run. -/
def check (p : CommandPolicy) (command : List Char) (sessionLineEnding : LineEnding)
    (requested : Option LineEnding) : Option String :=
  if p.isEmpty then none
  else if requested.any fun lineEnding => lineEnding ≠ sessionLineEnding then
    some "shape.line_ending_override"
  else if sessionLineEnding = .none then some "shape.no_line_ending"
  else if command.any isControl then some "shape.control_char"
  else if command.getLast? = some '\\' then some "shape.line_continuation"
  else p.matchedRule command

def summary (p : CommandPolicy) : CommandPolicySummary :=
  { denyRuleCount := p.deny.length
    allowRuleCount := p.allow.length
    mutationViaExecOnly := !p.isEmpty }

end CommandPolicy

/-! ## What an accepted command looks like -/

variable {p : CommandPolicy} {command : List Char} {e : LineEnding} {requested : Option LineEnding}

/-- A guarded command passes every shape check and every rule. -/
structure CommandPolicy.Accepts (p : CommandPolicy) (command : List Char) (e : LineEnding)
    (requested : Option LineEnding) : Prop where
  same_ending : ∀ r, requested = some r → r = e
  terminated : e ≠ .none
  printable : ∀ c ∈ command, isControl c = false
  no_continuation : command.getLast? ≠ some '\\'
  unmatched : p.matchedRule command = none

theorem CommandPolicy.check_eq_none (hp : p.isEmpty = false) :
    p.check command e requested = none ↔ p.Accepts command e requested := by
  unfold check
  rw [if_neg (by simp [hp])]
  constructor
  · intro h
    split_ifs at h with h₁ h₂ h₃ h₄
    refine ⟨?_, h₂, ?_, h₄, h⟩
    · rintro r rfl
      simpa using h₁
    · intro c hc
      simp only [List.any_eq_true, not_exists, not_and] at h₃
      exact eq_false_of_ne_true (h₃ c hc)
  · rintro ⟨h₁, h₂, h₃, h₄, h₅⟩
    have hr : ¬(requested.any fun r => r ≠ e) = true := by
      cases requested with
      | none => simp
      | some r => simpa using h₁ r rfl
    have hc : ¬command.any isControl = true := by
      simp only [List.any_eq_true, not_exists, not_and]
      intro c hc
      simp [h₃ c hc]
    rw [if_neg hr, if_neg h₂, if_neg hc, if_neg h₄]
    exact h₅

/-- On a guarded session an accepted call transmits with the session's own ending. -/
theorem CommandPolicy.Accepts.ending (h : p.Accepts command e requested) :
    requested.getD e = e := by
  cases hr : requested with
  | none => rfl
  | some r => exact h.same_ending r hr

end McpSerial
