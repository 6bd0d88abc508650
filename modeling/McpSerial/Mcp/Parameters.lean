import McpSerial.Mcp.Audit
import McpSerial.Selection.Codec

/-! The parameters of the tools as JSON objects (`serde`, with `deny_unknown_fields`), and the
router that reads them (`mcp/mod.rs`). -/

namespace McpSerial
open Fields

/-! ## Values -/

def Value.isNull : Value → Bool
  | .null => true
  | _ => false

def strings : Codec Value String where
  read := Value.asStr
  write := .string
  Fits _ := True
  read_write _ := rfl
  fits _ := trivial

def bools : Codec Value Bool where
  read := Value.asBool
  write := .bool
  Fits _ := True
  read_write _ := rfl
  fits _ := trivial

def unsigned (bound : Nat) : Codec Value Nat where
  read v := v.asU64.filter fun n => n < bound
  write := .nat
  Fits n := n < bound
  read_write := by
    intro n h
    have hread : (Value.nat n).asU64 = some n := by simp [Value.nat, Value.asU64]
    rw [hread]
    exact if_pos (decide_eq_true h)
  fits := by
    intro v n h
    exact of_decide_eq_true (Option.filter_eq_some_iff.mp h).2

def readStrings : List Value → Option (List String)
  | [] => some []
  | v :: items => do return (← v.asStr) :: (← readStrings items)

def stringLists : Codec Value (List String) where
  read v := v.asArray.bind readStrings
  write texts := .array (texts.map .string)
  Fits _ := True
  read_write := by
    intro texts _
    show readStrings (texts.map .string) = some texts
    induction texts with
    | nil => rfl
    | cons s texts ih =>
      rw [List.map_cons, readStrings, ih]
      rfl
  fits _ := trivial

/-- The name of a unit variant, which may also be the one key of an object. -/
def Value.variant : Value → Option String
  | .string s => some s
  | .object [(s, .null)] => some s
  | _ => none

def WritePolicy.deserialize (v : Value) : Option WritePolicy :=
  match v.variant with
  | some "allow" => some .allow
  | some "confirm" => some .confirm
  | some "deny" => some .deny
  | _ => Option.none

def LineEnding.deserialize (v : Value) : Option LineEnding :=
  match v.variant with
  | some "none" => some .none
  | some "lf" => some .lf
  | some "cr" => some .cr
  | some "crlf" => some .crlf
  | _ => Option.none

def EchoMode.deserialize (v : Value) : Option EchoMode :=
  match v.variant with
  | some "unknown" => some .unknown
  | some "none" => some .none
  | some "line" => some .line
  | _ => Option.none

def SemanticPrompt.deserialize (v : Value) : Option SemanticPrompt :=
  match v.variant with
  | some "none" => some .none
  | some "osc3008" => some .osc3008
  | _ => Option.none

def variants {α : Type} (read : Value → Option α) (write : α → Value)
    (h : ∀ a, read (write a) = some a) : Codec Value α where
  read
  write
  Fits _ := True
  read_write _ := h _
  fits _ := trivial

def writePolicies : Codec Value WritePolicy :=
  variants WritePolicy.deserialize WritePolicy.serialize fun a => by cases a <;> rfl

def lineEndings : Codec Value LineEnding :=
  variants LineEnding.deserialize LineEnding.serialize fun a => by cases a <;> rfl

def echoModes : Codec Value EchoMode :=
  variants EchoMode.deserialize EchoMode.serialize fun a => by cases a <;> rfl

def semanticPrompts : Codec Value SemanticPrompt :=
  variants SemanticPrompt.deserialize SemanticPrompt.serialize fun a => by cases a <;> rfl

def optional {α : Type} (c : Codec Value α) (h : ∀ a, (c.write a).isNull = false) :
    Codec Value (Option α) := c.nullable .null Value.isNull rfl h

def optStrings := optional strings fun _ => rfl
def optBools := optional bools fun _ => rfl
def optU32 := optional (unsigned (2 ^ 32)) fun _ => rfl
def optU64 := optional (unsigned (2 ^ 64)) fun _ => rfl
def optStringLists := optional stringLists fun _ => rfl
def optWritePolicies := optional writePolicies fun a => by cases a <;> rfl
def optLineEndings := optional lineEndings fun a => by cases a <;> rfl
def optEchoModes := optional echoModes fun a => by cases a <;> rfl
def optSemanticPrompts := optional semanticPrompts fun a => by cases a <;> rfl

def JsonObject.empty : JsonObject := ⟨[], List.Pairwise.nil⟩

def JsonObject.ofFields (fields : List (String × Value)) (h : (fields.map Prod.fst).Nodup) :
    JsonObject := ⟨Fields.sorted fields, ascending_sorted h⟩

/-- `deny_unknown_fields`. -/
def denyUnknown {α : Type} (known : List String) (o : JsonObject) (record : Option α) : Option α :=
  if onlyKnown known o.fields then record else none

def text (o : JsonObject) (key : String) : Option String := strings.required o.fields key

/-- An `Option` field with `#[serde(default)]`. -/
def field {α : Type} (c : Codec Value (Option α)) (o : JsonObject) (key : String) :
    Option (Option α) := c.defaulted none o.fields key

/-! ## Parameters -/

inductive Shape where
  | string
  | bool
  | unsigned (bits : Nat)
  | strings
  | variant (names : List String)

def Shape.Accepts : Shape → Value → Prop
  | .string, v => ∃ s, v = .string s
  | .bool, v => ∃ b, v = .bool b
  | .unsigned bits, v => ∃ n < 2 ^ bits, v = .nat n
  | .strings, v => ∃ texts : List String, v = .array (texts.map .string)
  | .variant names, v => ∃ name ∈ names, v = .string name ∨ v = .object [(name, .null)]

structure Parameter where
  name : String
  shape : Shape
  required : Bool

namespace Parameter

def needs (name : String) (shape : Shape) : Parameter := ⟨name, shape, true⟩

def takes (name : String) (shape : Shape) : Parameter := ⟨name, shape, false⟩

/-- A parameter that is not required may be absent or `null`. -/
def Accepts (parameter : Parameter) (o : JsonObject) : Prop :=
  match o.fields.lookup parameter.name with
  | none => parameter.required = false
  | some v => parameter.shape.Accepts v ∨ parameter.required = false ∧ v = .null

/-- The object has every one of the parameters and no other field. -/
def AcceptsAll (parameters : List Parameter) (o : JsonObject) : Prop :=
  (∀ key ∈ o.fields.map Prod.fst, key ∈ parameters.map name) ∧
    ∀ parameter ∈ parameters, parameter.Accepts o

end Parameter

def WritePolicy.shape : Shape := .variant ["allow", "confirm", "deny"]

def LineEnding.shape : Shape := .variant ["none", "lf", "cr", "crlf"]

def EchoMode.shape : Shape := .variant ["unknown", "none", "line"]

def SemanticPrompt.shape : Shape := .variant ["none", "osc3008"]

def Shape.Of {α : Type} (shape : Shape) (c : Codec Value α) : Prop :=
  ∀ v, (∃ a, c.read v = some a) ↔ shape.Accepts v

/-! ## Records -/

namespace OpenParams

def names : List String :=
  ["port", "device", "baud", "timeout_ms", "write_policy", "deny_patterns", "line_ending"]

def parameters : List Parameter :=
  [.takes "port" .string, .takes "device" .string, .takes "baud" (.unsigned 32),
    .takes "timeout_ms" (.unsigned 64), .takes "write_policy" WritePolicy.shape,
    .takes "deny_patterns" .strings, .takes "line_ending" LineEnding.shape]

def fields (p : OpenParams) : List (String × Value) :=
  [("port", optStrings.write p.port), ("device", optStrings.write p.device),
    ("baud", optU32.write p.baud), ("timeout_ms", optU64.write p.timeoutMs),
    ("write_policy", optWritePolicies.write p.writePolicy),
    ("deny_patterns", optStringLists.write p.denyPatterns),
    ("line_ending", optLineEndings.write p.lineEnding)]

abbrev toObject (p : OpenParams) : JsonObject := .ofFields p.fields (by decide : names.Nodup)

def deserialize (o : JsonObject) : Option OpenParams :=
  denyUnknown names o do
    return { port := ← field optStrings o "port"
             device := ← field optStrings o "device"
             baud := ← field optU32 o "baud"
             timeoutMs := ← field optU64 o "timeout_ms"
             writePolicy := ← field optWritePolicies o "write_policy"
             denyPatterns := ← field optStringLists o "deny_patterns"
             lineEnding := ← field optLineEndings o "line_ending" }

/-- The numbers are in the ranges of their types. -/
def Fits (p : OpenParams) : Prop := optU32.Fits p.baud ∧ optU64.Fits p.timeoutMs

end OpenParams

namespace WriteParams

def names : List String := ["session_id", "data", "confirm"]

def parameters : List Parameter :=
  [.needs "session_id" .string, .needs "data" .string, .takes "confirm" .bool]

def fields (p : WriteParams) : List (String × Value) :=
  [("session_id", strings.write p.sessionId), ("data", strings.write p.data),
    ("confirm", optBools.write p.confirm)]

abbrev toObject (p : WriteParams) : JsonObject := .ofFields p.fields (by decide : names.Nodup)

def deserialize (o : JsonObject) : Option WriteParams :=
  denyUnknown names o do
    return { sessionId := ← text o "session_id"
             data := ← text o "data"
             confirm := ← field optBools o "confirm" }

end WriteParams

namespace GetSessionParams

def names : List String := ["session_id"]

def parameters : List Parameter :=
  [.needs "session_id" .string]

def fields (p : GetSessionParams) : List (String × Value) :=
  [("session_id", strings.write p.sessionId)]

abbrev toObject (p : GetSessionParams) : JsonObject := .ofFields p.fields (by decide : names.Nodup)

def deserialize (o : JsonObject) : Option GetSessionParams :=
  denyUnknown names o do return { sessionId := ← text o "session_id" }

end GetSessionParams

namespace ReadParams

def names : List String := ["session_id", "max_bytes", "timeout_ms"]

def parameters : List Parameter :=
  [.needs "session_id" .string, .takes "max_bytes" (.unsigned 64),
    .takes "timeout_ms" (.unsigned 64)]

def fields (p : ReadParams) : List (String × Value) :=
  [("session_id", strings.write p.sessionId), ("max_bytes", optU64.write p.maxBytes),
    ("timeout_ms", optU64.write p.timeoutMs)]

abbrev toObject (p : ReadParams) : JsonObject := .ofFields p.fields (by decide : names.Nodup)

def deserialize (o : JsonObject) : Option ReadParams :=
  denyUnknown names o do
    return { sessionId := ← text o "session_id"
             maxBytes := ← field optU64 o "max_bytes"
             timeoutMs := ← field optU64 o "timeout_ms" }

def Fits (p : ReadParams) : Prop := optU64.Fits p.maxBytes ∧ optU64.Fits p.timeoutMs

end ReadParams

namespace DrainParams

def names : List String := ["session_id", "max_bytes"]

def parameters : List Parameter :=
  [.needs "session_id" .string, .takes "max_bytes" (.unsigned 64)]

def fields (p : DrainParams) : List (String × Value) :=
  [("session_id", strings.write p.sessionId), ("max_bytes", optU64.write p.maxBytes)]

abbrev toObject (p : DrainParams) : JsonObject := .ofFields p.fields (by decide : names.Nodup)

def deserialize (o : JsonObject) : Option DrainParams :=
  denyUnknown names o do
    return { sessionId := ← text o "session_id"
             maxBytes := ← field optU64 o "max_bytes" }

def Fits (p : DrainParams) : Prop := optU64.Fits p.maxBytes

end DrainParams

namespace ReadUntilParams

def names : List String := ["session_id", "pattern", "timeout_ms"]

def parameters : List Parameter :=
  [.needs "session_id" .string, .needs "pattern" .string,
    .takes "timeout_ms" (.unsigned 64)]

def fields (p : ReadUntilParams) : List (String × Value) :=
  [("session_id", strings.write p.sessionId), ("pattern", strings.write p.pattern),
    ("timeout_ms", optU64.write p.timeoutMs)]

abbrev toObject (p : ReadUntilParams) : JsonObject := .ofFields p.fields (by decide : names.Nodup)

def deserialize (o : JsonObject) : Option ReadUntilParams :=
  denyUnknown names o do
    return { sessionId := ← text o "session_id"
             pattern := ← text o "pattern"
             timeoutMs := ← field optU64 o "timeout_ms" }

def Fits (p : ReadUntilParams) : Prop := optU64.Fits p.timeoutMs

end ReadUntilParams

namespace CloseParams

def names : List String := ["session_id"]

def parameters : List Parameter :=
  [.needs "session_id" .string]

def fields (p : CloseParams) : List (String × Value) :=
  [("session_id", strings.write p.sessionId)]

abbrev toObject (p : CloseParams) : JsonObject := .ofFields p.fields (by decide : names.Nodup)

def deserialize (o : JsonObject) : Option CloseParams :=
  denyUnknown names o do return { sessionId := ← text o "session_id" }

end CloseParams

namespace ExecParams

def names : List String :=
  ["session_id", "command", "expect", "line_ending", "echo_mode", "semantic_prompt", "confirm",
    "clear_before_write", "normalize_output", "timeout_ms"]

def parameters : List Parameter :=
  [.needs "session_id" .string, .needs "command" .string, .needs "expect" .string,
    .takes "line_ending" LineEnding.shape, .takes "echo_mode" EchoMode.shape,
    .takes "semantic_prompt" SemanticPrompt.shape, .takes "confirm" .bool,
    .takes "clear_before_write" .bool, .takes "normalize_output" .bool,
    .takes "timeout_ms" (.unsigned 64)]

def fields (p : ExecParams) : List (String × Value) :=
  [("session_id", strings.write p.sessionId), ("command", strings.write p.command),
    ("expect", strings.write p.expect), ("line_ending", optLineEndings.write p.lineEnding),
    ("echo_mode", optEchoModes.write p.echoMode),
    ("semantic_prompt", optSemanticPrompts.write p.semanticPrompt),
    ("confirm", optBools.write p.confirm),
    ("clear_before_write", optBools.write p.clearBeforeWrite),
    ("normalize_output", optBools.write p.normalizeOutput),
    ("timeout_ms", optU64.write p.timeoutMs)]

abbrev toObject (p : ExecParams) : JsonObject := .ofFields p.fields (by decide : names.Nodup)

def deserialize (o : JsonObject) : Option ExecParams :=
  denyUnknown names o do
    return { sessionId := ← text o "session_id"
             command := ← text o "command"
             expect := ← text o "expect"
             lineEnding := ← field optLineEndings o "line_ending"
             echoMode := ← field optEchoModes o "echo_mode"
             semanticPrompt := ← field optSemanticPrompts o "semantic_prompt"
             confirm := ← field optBools o "confirm"
             clearBeforeWrite := ← field optBools o "clear_before_write"
             normalizeOutput := ← field optBools o "normalize_output"
             timeoutMs := ← field optU64 o "timeout_ms" }

def Fits (p : ExecParams) : Prop := optU64.Fits p.timeoutMs

end ExecParams

/-! ## What is written is read -/

section Written

variable {α : Type} {l : List (String × Value)} {h : (l.map Prod.fst).Nodup} {key : String}

theorem text_written {s : String} (hl : l.lookup key = some (.string s)) :
    text (.ofFields l h) key = some s := by
  apply Codec.required_of_lookup _ trivial
  exact (lookup_sorted l key).trans hl

theorem field_written {c : Codec Value (Option α)} {a : Option α}
    (hl : l.lookup key = some (c.write a)) (hfits : c.Fits a) :
    field c (.ofFields l h) key = some a := by
  apply Codec.defaulted_of_lookup _ hfits
  exact (lookup_sorted l key).trans hl

theorem denyUnknown_written {known : List String} (hknown : l.map Prod.fst = known)
    (record : Option α) : denyUnknown known (.ofFields l h) record = record :=
  if_pos (onlyKnown_sorted hknown)

theorem denyUnknown_eq_some {known : List String} {o : JsonObject} {record : Option α} {a : α}
    (h : denyUnknown known o record = some a) : record = some a := by
  unfold denyUnknown at h
  split at h
  · exact h
  · cases h

theorem fits_of_field {c : Codec Value α} {hc : ∀ a, (c.write a).isNull = false} {o : JsonObject}
    {a : Option α} (h : field (optional c hc) o key = some a) : (optional c hc).Fits a := by
  have hnone : (optional c hc).Fits none := by
    intro a ha
    cases ha
  exact Codec.fits_of_defaulted hnone h

end Written

/-! ## What is read -/

theorem Value.variant_eq_some {v : Value} {name : String} :
    v.variant = some name ↔ v = .string name ∨ v = .object [(name, .null)] := by
  unfold Value.variant
  split
  · simp
  · simp
  · next hstring hobject =>
    simp only [reduceCtorEq, false_iff, not_or]
    exact ⟨fun h => hstring _ h, fun h => hobject _ h⟩

theorem shape_variants {v : Value} {names : List String} :
    (Shape.variant names).Accepts v ↔ ∃ name ∈ names, v.variant = some name := by
  simp only [Shape.Accepts, Value.variant_eq_some]

theorem shape_strings : Shape.string.Of strings := by
  intro v
  cases v <;> simp [strings, Value.asStr, Shape.Accepts]

theorem shape_bools : Shape.bool.Of bools := by
  intro v
  cases v <;> simp [bools, Value.asBool, Shape.Accepts]

theorem shape_unsigned (bits : Nat) : (Shape.unsigned bits).Of (unsigned (2 ^ bits)) := by
  intro v
  constructor
  · rintro ⟨n, hn⟩
    obtain ⟨hread, hlt⟩ := Option.filter_eq_some_iff.mp hn
    refine ⟨n, of_decide_eq_true hlt, ?_⟩
    unfold Value.asU64 at hread
    split at hread
    · next k =>
      split at hread
      · next hk =>
        cases hread
        rw [Value.nat, Int.toNat_of_nonneg hk]
      · cases hread
    · cases hread
  · rintro ⟨n, hn, rfl⟩
    exact ⟨n, (unsigned (2 ^ bits)).read_write hn⟩

theorem readStrings_iff {items : List Value} {texts : List String} :
    readStrings items = some texts ↔ items = texts.map .string := by
  induction items generalizing texts with
  | nil => cases texts <;> simp [readStrings]
  | cons v items ih =>
    rw [readStrings]
    cases v <;> cases texts <;> simp [Value.asStr, Option.bind_eq_some_iff, ih, and_comm]

theorem shape_stringLists : Shape.strings.Of stringLists := by
  intro v
  cases v <;> simp [stringLists, Value.asArray, Shape.Accepts, readStrings_iff]

theorem shape_writePolicies : WritePolicy.shape.Of writePolicies := by
  intro v
  rw [WritePolicy.shape, shape_variants]
  show (∃ a, WritePolicy.deserialize v = some a) ↔ _
  unfold WritePolicy.deserialize
  split <;> simp_all

theorem shape_lineEndings : LineEnding.shape.Of lineEndings := by
  intro v
  rw [LineEnding.shape, shape_variants]
  show (∃ a, LineEnding.deserialize v = some a) ↔ _
  unfold LineEnding.deserialize
  split <;> simp_all

example : lineEndings.read (.string "tab") = none := rfl

theorem shape_echoModes : EchoMode.shape.Of echoModes := by
  intro v
  rw [EchoMode.shape, shape_variants]
  show (∃ a, EchoMode.deserialize v = some a) ↔ _
  unfold EchoMode.deserialize
  split <;> simp_all

theorem shape_semanticPrompts : SemanticPrompt.shape.Of semanticPrompts := by
  intro v
  rw [SemanticPrompt.shape, shape_variants]
  show (∃ a, SemanticPrompt.deserialize v = some a) ↔ _
  unfold SemanticPrompt.deserialize
  split <;> simp_all

section Accepted

variable {α : Type} {o : JsonObject} {key : String} {shape : Shape}

theorem text_accepts :
    (∃ s, text o key = some s) ↔ (Parameter.needs key .string).Accepts o := by
  unfold text Codec.required Parameter.Accepts
  cases h : o.fields.lookup key with
  | none => simp [h, Parameter.needs]
  | some v => simpa [h, Parameter.needs] using shape_strings v

theorem field_accepts {c : Codec Value α} {hc : ∀ a, (c.write a).isNull = false}
    (h : shape.Of c) :
    (∃ a, field (optional c hc) o key = some a) ↔ (Parameter.takes key shape).Accepts o := by
  unfold field Codec.defaulted Parameter.Accepts
  cases hl : o.fields.lookup key with
  | none => simp [hl, Parameter.takes]
  | some v =>
    simp only [hl, Parameter.takes, true_and, ← h v]
    show (∃ a, (if v.isNull then some none else (c.read v).map some) = some a) ↔ _
    cases v <;> simp [Value.isNull]

theorem denyUnknown_accepts (known : List Parameter) {record : Option α}
    (h : (∃ a, record = some a) ↔ ∀ parameter ∈ known, parameter.Accepts o) :
    (∃ a, denyUnknown (known.map Parameter.name) o record = some a) ↔
      Parameter.AcceptsAll known o := by
  unfold denyUnknown Parameter.AcceptsAll
  rw [← onlyKnown_iff, ← h]
  cases onlyKnown (known.map Parameter.name) o.fields <;> simp

theorem record_cons {β : Type} {x : Option α} {rest : α → Option β} {parameter : Parameter}
    {known : List Parameter} (hx : (∃ a, x = some a) ↔ parameter.Accepts o)
    (h : ∀ a, (∃ b, rest a = some b) ↔ ∀ parameter ∈ known, parameter.Accepts o) :
    (∃ b, (x >>= rest) = some b) ↔ ∀ p ∈ parameter :: known, p.Accepts o := by
  rw [List.forall_mem_cons, ← hx]
  cases x with
  | none => simp
  | some a => simpa using h a

theorem record_nil {a : α} :
    (∃ b, (pure a : Option α) = some b) ↔ ∀ p ∈ ([] : List Parameter), p.Accepts o := by
  simp

end Accepted

theorem OpenParams.accepts {o : JsonObject} :
    (∃ p, deserialize o = some p) ↔ Parameter.AcceptsAll parameters o := by
  refine denyUnknown_accepts parameters ?_
  refine record_cons (field_accepts shape_strings) fun _ => ?_
  refine record_cons (field_accepts shape_strings) fun _ => ?_
  refine record_cons (field_accepts (shape_unsigned _)) fun _ => ?_
  refine record_cons (field_accepts (shape_unsigned _)) fun _ => ?_
  refine record_cons (field_accepts shape_writePolicies) fun _ => ?_
  refine record_cons (field_accepts shape_stringLists) fun _ => ?_
  refine record_cons (field_accepts shape_lineEndings) fun _ => ?_
  exact record_nil

theorem WriteParams.accepts {o : JsonObject} :
    (∃ p, deserialize o = some p) ↔ Parameter.AcceptsAll parameters o := by
  refine denyUnknown_accepts parameters ?_
  refine record_cons text_accepts fun _ => ?_
  refine record_cons text_accepts fun _ => ?_
  refine record_cons (field_accepts shape_bools) fun _ => ?_
  exact record_nil

theorem GetSessionParams.accepts {o : JsonObject} :
    (∃ p, deserialize o = some p) ↔ Parameter.AcceptsAll parameters o := by
  refine denyUnknown_accepts parameters ?_
  refine record_cons text_accepts fun _ => ?_
  exact record_nil

theorem ReadParams.accepts {o : JsonObject} :
    (∃ p, deserialize o = some p) ↔ Parameter.AcceptsAll parameters o := by
  refine denyUnknown_accepts parameters ?_
  refine record_cons text_accepts fun _ => ?_
  refine record_cons (field_accepts (shape_unsigned _)) fun _ => ?_
  refine record_cons (field_accepts (shape_unsigned _)) fun _ => ?_
  exact record_nil

theorem DrainParams.accepts {o : JsonObject} :
    (∃ p, deserialize o = some p) ↔ Parameter.AcceptsAll parameters o := by
  refine denyUnknown_accepts parameters ?_
  refine record_cons text_accepts fun _ => ?_
  refine record_cons (field_accepts (shape_unsigned _)) fun _ => ?_
  exact record_nil

theorem ReadUntilParams.accepts {o : JsonObject} :
    (∃ p, deserialize o = some p) ↔ Parameter.AcceptsAll parameters o := by
  refine denyUnknown_accepts parameters ?_
  refine record_cons text_accepts fun _ => ?_
  refine record_cons text_accepts fun _ => ?_
  refine record_cons (field_accepts (shape_unsigned _)) fun _ => ?_
  exact record_nil

theorem CloseParams.accepts {o : JsonObject} :
    (∃ p, deserialize o = some p) ↔ Parameter.AcceptsAll parameters o := by
  refine denyUnknown_accepts parameters ?_
  refine record_cons text_accepts fun _ => ?_
  exact record_nil

theorem ExecParams.accepts {o : JsonObject} :
    (∃ p, deserialize o = some p) ↔ Parameter.AcceptsAll parameters o := by
  refine denyUnknown_accepts parameters ?_
  refine record_cons text_accepts fun _ => ?_
  refine record_cons text_accepts fun _ => ?_
  refine record_cons text_accepts fun _ => ?_
  refine record_cons (field_accepts shape_lineEndings) fun _ => ?_
  refine record_cons (field_accepts shape_echoModes) fun _ => ?_
  refine record_cons (field_accepts shape_semanticPrompts) fun _ => ?_
  refine record_cons (field_accepts shape_bools) fun _ => ?_
  refine record_cons (field_accepts shape_bools) fun _ => ?_
  refine record_cons (field_accepts shape_bools) fun _ => ?_
  refine record_cons (field_accepts (shape_unsigned _)) fun _ => ?_
  exact record_nil

theorem OpenParams.deserialize_fields {p : OpenParams} (hfits : p.Fits)
    (h : (p.fields.map Prod.fst).Nodup) : deserialize (.ofFields p.fields h) = some p := by
  have hport : field optStrings (.ofFields p.fields h) "port" = some p.port :=
    field_written rfl fun _ _ => trivial
  have hdevice : field optStrings (.ofFields p.fields h) "device" = some p.device :=
    field_written rfl fun _ _ => trivial
  have hbaud : field optU32 (.ofFields p.fields h) "baud" = some p.baud :=
    field_written rfl hfits.1
  have htimeout : field optU64 (.ofFields p.fields h) "timeout_ms" = some p.timeoutMs :=
    field_written rfl hfits.2
  have hpolicy : field optWritePolicies (.ofFields p.fields h) "write_policy" =
      some p.writePolicy := field_written rfl fun _ _ => trivial
  have hdeny : field optStringLists (.ofFields p.fields h) "deny_patterns" =
      some p.denyPatterns := field_written rfl fun _ _ => trivial
  have hending : field optLineEndings (.ofFields p.fields h) "line_ending" =
      some p.lineEnding := field_written rfl fun _ _ => trivial
  have hknown : p.fields.map Prod.fst = names := rfl
  rw [deserialize, denyUnknown_written hknown, hport, hdevice, hbaud, htimeout, hpolicy, hdeny,
    hending]
  rfl

theorem OpenParams.fits {o : JsonObject} {p : OpenParams} (h : deserialize o = some p) :
    p.Fits := by
  have hrecord := denyUnknown_eq_some h
  simp only [Option.bind_eq_bind, Option.bind_eq_some_iff] at hrecord
  obtain ⟨_, _, _, _, baud, hbaud, timeoutMs, htimeout, _, _, _, _, _, _, heq⟩ := hrecord
  cases heq
  exact ⟨fits_of_field hbaud, fits_of_field htimeout⟩

theorem WriteParams.deserialize_fields (p : WriteParams) (h : (p.fields.map Prod.fst).Nodup) :
    deserialize (.ofFields p.fields h) = some p := by
  have hsession : text (.ofFields p.fields h) "session_id" = some p.sessionId := text_written rfl
  have hdata : text (.ofFields p.fields h) "data" = some p.data := text_written rfl
  have hconfirm : field optBools (.ofFields p.fields h) "confirm" = some p.confirm :=
    field_written rfl fun _ _ => trivial
  have hknown : p.fields.map Prod.fst = names := rfl
  rw [deserialize, denyUnknown_written hknown, hsession, hdata, hconfirm]
  rfl

theorem GetSessionParams.deserialize_fields (p : GetSessionParams)
    (h : (p.fields.map Prod.fst).Nodup) : deserialize (.ofFields p.fields h) = some p := by
  have hsession : text (.ofFields p.fields h) "session_id" = some p.sessionId := text_written rfl
  have hknown : p.fields.map Prod.fst = names := rfl
  rw [deserialize, denyUnknown_written hknown, hsession]
  rfl

theorem ReadParams.deserialize_fields {p : ReadParams} (hfits : p.Fits)
    (h : (p.fields.map Prod.fst).Nodup) : deserialize (.ofFields p.fields h) = some p := by
  have hsession : text (.ofFields p.fields h) "session_id" = some p.sessionId := text_written rfl
  have hmax : field optU64 (.ofFields p.fields h) "max_bytes" = some p.maxBytes :=
    field_written rfl hfits.1
  have htimeout : field optU64 (.ofFields p.fields h) "timeout_ms" = some p.timeoutMs :=
    field_written rfl hfits.2
  have hknown : p.fields.map Prod.fst = names := rfl
  rw [deserialize, denyUnknown_written hknown, hsession, hmax, htimeout]
  rfl

theorem ReadParams.fits {o : JsonObject} {p : ReadParams} (h : deserialize o = some p) :
    p.Fits := by
  have hrecord := denyUnknown_eq_some h
  simp only [Option.bind_eq_bind, Option.bind_eq_some_iff] at hrecord
  obtain ⟨_, _, maxBytes, hmax, timeoutMs, htimeout, heq⟩ := hrecord
  cases heq
  exact ⟨fits_of_field hmax, fits_of_field htimeout⟩

theorem DrainParams.deserialize_fields {p : DrainParams} (hfits : p.Fits)
    (h : (p.fields.map Prod.fst).Nodup) : deserialize (.ofFields p.fields h) = some p := by
  have hsession : text (.ofFields p.fields h) "session_id" = some p.sessionId := text_written rfl
  have hmax : field optU64 (.ofFields p.fields h) "max_bytes" = some p.maxBytes :=
    field_written rfl hfits
  have hknown : p.fields.map Prod.fst = names := rfl
  rw [deserialize, denyUnknown_written hknown, hsession, hmax]
  rfl

theorem DrainParams.fits {o : JsonObject} {p : DrainParams} (h : deserialize o = some p) :
    p.Fits := by
  have hrecord := denyUnknown_eq_some h
  simp only [Option.bind_eq_bind, Option.bind_eq_some_iff] at hrecord
  obtain ⟨_, _, maxBytes, hmax, heq⟩ := hrecord
  cases heq
  exact fits_of_field hmax

theorem ReadUntilParams.deserialize_fields {p : ReadUntilParams} (hfits : p.Fits)
    (h : (p.fields.map Prod.fst).Nodup) : deserialize (.ofFields p.fields h) = some p := by
  have hsession : text (.ofFields p.fields h) "session_id" = some p.sessionId := text_written rfl
  have hpattern : text (.ofFields p.fields h) "pattern" = some p.pattern := text_written rfl
  have htimeout : field optU64 (.ofFields p.fields h) "timeout_ms" = some p.timeoutMs :=
    field_written rfl hfits
  have hknown : p.fields.map Prod.fst = names := rfl
  rw [deserialize, denyUnknown_written hknown, hsession, hpattern, htimeout]
  rfl

theorem ReadUntilParams.fits {o : JsonObject} {p : ReadUntilParams} (h : deserialize o = some p) :
    p.Fits := by
  have hrecord := denyUnknown_eq_some h
  simp only [Option.bind_eq_bind, Option.bind_eq_some_iff] at hrecord
  obtain ⟨_, _, _, _, timeoutMs, htimeout, heq⟩ := hrecord
  cases heq
  exact fits_of_field htimeout

theorem CloseParams.deserialize_fields (p : CloseParams) (h : (p.fields.map Prod.fst).Nodup) :
    deserialize (.ofFields p.fields h) = some p := by
  have hsession : text (.ofFields p.fields h) "session_id" = some p.sessionId := text_written rfl
  have hknown : p.fields.map Prod.fst = names := rfl
  rw [deserialize, denyUnknown_written hknown, hsession]
  rfl

theorem ExecParams.deserialize_fields {p : ExecParams} (hfits : p.Fits)
    (h : (p.fields.map Prod.fst).Nodup) : deserialize (.ofFields p.fields h) = some p := by
  have hsession : text (.ofFields p.fields h) "session_id" = some p.sessionId := text_written rfl
  have hcommand : text (.ofFields p.fields h) "command" = some p.command := text_written rfl
  have hexpect : text (.ofFields p.fields h) "expect" = some p.expect := text_written rfl
  have hending : field optLineEndings (.ofFields p.fields h) "line_ending" = some p.lineEnding :=
    field_written rfl fun _ _ => trivial
  have hecho : field optEchoModes (.ofFields p.fields h) "echo_mode" = some p.echoMode :=
    field_written rfl fun _ _ => trivial
  have hprompt : field optSemanticPrompts (.ofFields p.fields h) "semantic_prompt" =
      some p.semanticPrompt := field_written rfl fun _ _ => trivial
  have hconfirm : field optBools (.ofFields p.fields h) "confirm" = some p.confirm :=
    field_written rfl fun _ _ => trivial
  have hclear : field optBools (.ofFields p.fields h) "clear_before_write" =
      some p.clearBeforeWrite := field_written rfl fun _ _ => trivial
  have hnormalize : field optBools (.ofFields p.fields h) "normalize_output" =
      some p.normalizeOutput := field_written rfl fun _ _ => trivial
  have htimeout : field optU64 (.ofFields p.fields h) "timeout_ms" = some p.timeoutMs :=
    field_written rfl hfits
  have hknown : p.fields.map Prod.fst = names := rfl
  rw [deserialize, denyUnknown_written hknown, hsession, hcommand, hexpect, hending, hecho, hprompt,
    hconfirm, hclear, hnormalize, htimeout]
  rfl

theorem ExecParams.fits {o : JsonObject} {p : ExecParams} (h : deserialize o = some p) :
    p.Fits := by
  have hrecord := denyUnknown_eq_some h
  simp only [Option.bind_eq_bind, Option.bind_eq_some_iff] at hrecord
  obtain ⟨_, _, _, _, _, _, _, _, _, _, _, _, _, _, _, _, _, _, timeoutMs, htimeout, heq⟩ := hrecord
  cases heq
  exact fits_of_field htimeout

/-! ## The router -/

def readCall (call : ClientCall) : Option ToolCall :=
  let arguments := call.request.arguments.getD .empty
  match call.request.name with
  | "serial.list_ports" => some .listPorts
  | "serial.open" => (OpenParams.deserialize arguments).map .open
  | "serial.sessions" => some .sessions
  | "serial.get_session" => (GetSessionParams.deserialize arguments).map .getSession
  | "serial.write" => (WriteParams.deserialize arguments).map fun p =>
    .write p call.context call.request.inputResponses
  | "serial.read" => (ReadParams.deserialize arguments).map .read
  | "serial.drain" => (DrainParams.deserialize arguments).map .drain
  | "serial.clear_input" => (DrainParams.deserialize arguments).map .clearInput
  | "serial.read_until" => (ReadUntilParams.deserialize arguments).map .readUntil
  | "serial.exec" => (ExecParams.deserialize arguments).map fun p =>
    .exec p call.context call.request.inputResponses
  | "serial.close" => (CloseParams.deserialize arguments).map .close
  | _ => none

/-- `ToolRouter`, for any errors of requests that no handler gets. -/
def toolRouter (rejection : ClientCall → ErrorData) : Router := fun call =>
  match readCall call with
  | some toolCall => .ok toolCall
  | none => .error (rejection call)

def toolParameters : String → Option (List Parameter)
  | "serial.open" => some OpenParams.parameters
  | "serial.get_session" => some GetSessionParams.parameters
  | "serial.write" => some WriteParams.parameters
  | "serial.read" => some ReadParams.parameters
  | "serial.drain" => some DrainParams.parameters
  | "serial.clear_input" => some DrainParams.parameters
  | "serial.read_until" => some ReadUntilParams.parameters
  | "serial.exec" => some ExecParams.parameters
  | "serial.close" => some CloseParams.parameters
  | _ => none

/-- The request is for a tool, and has the parameters of the tool if that has any. -/
def CallToolRequest.WellFormed (request : CallToolRequest) : Prop :=
  request.name ∈ ["serial.list_ports", "serial.sessions"] ∨
    ∃ parameters, toolParameters request.name = some parameters ∧
      Parameter.AcceptsAll parameters (request.arguments.getD .empty)

def ToolCall.Fits : ToolCall → Prop
  | .open p => p.Fits
  | .read p => p.Fits
  | .drain p => p.Fits
  | .clearInput p => p.Fits
  | .readUntil p => p.Fits
  | .exec p _ _ => p.Fits
  | _ => True

def clientCall (name : String) (arguments : JsonObject) (context : RequestContext)
    (inputResponses : Option InputResponses) : ClientCall :=
  ⟨⟨name, some arguments, inputResponses⟩, context⟩

def noContext : RequestContext := ⟨none, none⟩

/-- A request that is read as the call. -/
def ToolCall.toClient : ToolCall → ClientCall
  | .listPorts => clientCall "serial.list_ports" .empty noContext none
  | .open p => clientCall "serial.open" p.toObject noContext none
  | .sessions => clientCall "serial.sessions" .empty noContext none
  | .getSession p => clientCall "serial.get_session" p.toObject noContext none
  | .write p context inputResponses =>
    clientCall "serial.write" p.toObject context inputResponses
  | .read p => clientCall "serial.read" p.toObject noContext none
  | .drain p => clientCall "serial.drain" p.toObject noContext none
  | .clearInput p => clientCall "serial.clear_input" p.toObject noContext none
  | .readUntil p => clientCall "serial.read_until" p.toObject noContext none
  | .exec p context inputResponses =>
    clientCall "serial.exec" p.toObject context inputResponses
  | .close p => clientCall "serial.close" p.toObject noContext none

theorem readCall_toClient {toolCall : ToolCall} (h : toolCall.Fits) :
    readCall toolCall.toClient = some toolCall := by
  cases toolCall with
  | «open» p => simpa [readCall, ToolCall.toClient, clientCall] using
      OpenParams.deserialize_fields h _
  | getSession p =>
    simpa [readCall, ToolCall.toClient, clientCall] using
      GetSessionParams.deserialize_fields p _
  | write p context inputResponses =>
    simpa [readCall, ToolCall.toClient, clientCall] using
      WriteParams.deserialize_fields p _
  | read p => simpa [readCall, ToolCall.toClient, clientCall] using
      ReadParams.deserialize_fields h _
  | drain p => simpa [readCall, ToolCall.toClient, clientCall] using
      DrainParams.deserialize_fields h _
  | clearInput p =>
    simpa [readCall, ToolCall.toClient, clientCall] using
      DrainParams.deserialize_fields h _
  | readUntil p =>
    simpa [readCall, ToolCall.toClient, clientCall] using
      ReadUntilParams.deserialize_fields h _
  | exec p context inputResponses =>
    simpa [readCall, ToolCall.toClient, clientCall] using
      ExecParams.deserialize_fields h _
  | close p => simpa [readCall, ToolCall.toClient, clientCall] using
      CloseParams.deserialize_fields p _
  | _ => rfl

theorem wellFormed_iff {request : CallToolRequest} {name : String} {parameters : List Parameter}
    (hname : request.name = name) (hparameters : toolParameters name = some parameters)
    (hnone : name ∉ ["serial.list_ports", "serial.sessions"]) :
    request.WellFormed ↔ Parameter.AcceptsAll parameters (request.arguments.getD .empty) := by
  simp [CallToolRequest.WellFormed, hname, hparameters, hnone]

theorem exists_map {α β : Type} {x : Option α} {f : α → β} :
    (∃ b, x.map f = some b) ↔ ∃ a, x = some a := by
  cases x <;> simp

theorem readCall_iff {call : ClientCall} :
    (∃ toolCall, readCall call = some toolCall) ↔ call.request.WellFormed := by
  unfold readCall
  split
  · next hname => simp [CallToolRequest.WellFormed, hname]
  · next hname =>
    rw [exists_map, OpenParams.accepts, wellFormed_iff hname rfl (by decide)]
  · next hname => simp [CallToolRequest.WellFormed, hname]
  · next hname =>
    rw [exists_map, GetSessionParams.accepts, wellFormed_iff hname rfl (by decide)]
  · next hname =>
    rw [exists_map, WriteParams.accepts, wellFormed_iff hname rfl (by decide)]
  · next hname =>
    rw [exists_map, ReadParams.accepts, wellFormed_iff hname rfl (by decide)]
  · next hname =>
    rw [exists_map, DrainParams.accepts, wellFormed_iff hname rfl (by decide)]
  · next hname =>
    rw [exists_map, DrainParams.accepts, wellFormed_iff hname rfl (by decide)]
  · next hname =>
    rw [exists_map, ReadUntilParams.accepts, wellFormed_iff hname rfl (by decide)]
  · next hname =>
    rw [exists_map, ExecParams.accepts, wellFormed_iff hname rfl (by decide)]
  · next hname =>
    rw [exists_map, CloseParams.accepts, wellFormed_iff hname rfl (by decide)]
  · simp_all [CallToolRequest.WellFormed, toolParameters]

theorem readCall_fits {call : ClientCall} {toolCall : ToolCall}
    (h : readCall call = some toolCall) : toolCall.Fits := by
  unfold readCall at h
  split at h
  · cases h
    trivial
  · obtain ⟨p, hp, rfl⟩ := Option.map_eq_some_iff.mp h
    exact OpenParams.fits hp
  · cases h
    trivial
  · obtain ⟨p, -, rfl⟩ := Option.map_eq_some_iff.mp h
    trivial
  · obtain ⟨p, -, rfl⟩ := Option.map_eq_some_iff.mp h
    trivial
  · obtain ⟨p, hp, rfl⟩ := Option.map_eq_some_iff.mp h
    exact ReadParams.fits hp
  · obtain ⟨p, hp, rfl⟩ := Option.map_eq_some_iff.mp h
    exact DrainParams.fits hp
  · obtain ⟨p, hp, rfl⟩ := Option.map_eq_some_iff.mp h
    exact DrainParams.fits hp
  · obtain ⟨p, hp, rfl⟩ := Option.map_eq_some_iff.mp h
    exact ReadUntilParams.fits hp
  · obtain ⟨p, hp, rfl⟩ := Option.map_eq_some_iff.mp h
    exact ExecParams.fits hp
  · obtain ⟨p, -, rfl⟩ := Option.map_eq_some_iff.mp h
    trivial
  · cases h

/-- The router hands a request to a handler just when it is well formed and answers every other
one with its own error; and the calls it can hand on are those in the ranges of their types. -/
theorem router_exact (rejection : ClientCall → ErrorData) :
    (∀ call : ClientCall,
      (∃ toolCall, toolRouter rejection call = .ok toolCall) ↔ call.request.WellFormed) ∧
    (∀ call : ClientCall, toolRouter rejection call = .error (rejection call) ↔
      ¬call.request.WellFormed) ∧
    ∀ toolCall : ToolCall,
      (∃ call, toolRouter rejection call = .ok toolCall) ↔ toolCall.Fits := by
  have hread {call : ClientCall} {toolCall : ToolCall} :
      toolRouter rejection call = .ok toolCall ↔ readCall call = some toolCall := by
    unfold toolRouter
    cases readCall call <;> simp
  simp only [hread]
  refine ⟨fun call => readCall_iff, fun call => ?_, fun toolCall => ⟨?_, fun h => ?_⟩⟩
  · rw [← readCall_iff, toolRouter]
    cases readCall call <;> simp
  · rintro ⟨call, h⟩
    exact readCall_fits h
  · exact ⟨toolCall.toClient, readCall_toClient h⟩

end McpSerial
