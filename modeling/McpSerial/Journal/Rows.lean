import Mathlib.Algebra.Order.BigOperators.Group.List
import Mathlib.Data.List.Sort
import McpSerial.Journal.Timestamps
import McpSerial.Mcp.Journal

/-! The bytes of journal rows (`serde_json::to_vec` of a `JournalEntry`), and the cap on
their number (`serial/journal.rs`). -/

namespace McpSerial
open Json Utf8

def maxJournalRowBytes : Nat := 16 * 1024

/-! ## The compact form -/

def Number.compact : Number → List Char
  | .int n => if n < 0 then '-' :: Nat.toDigits 10 n.natAbs else Nat.toDigits 10 n.natAbs
  | .float text => text.toList

mutual

/-- An object is written in the order of its keys. -/
def Value.compact : Value → List Char
  | .null => "null".toList
  | .bool true => "true".toList
  | .bool false => "false".toList
  | .number n => n.compact
  | .string s => quoted s.toList
  | .array items => bracketed '[' ']' (Value.compactItems items)
  | .object fields =>
    bracketed '\x7b' '\x7d' (((Value.compactFields fields).insertionSort fun f g => f.1 ≤ g.1).map
      fun f => member f.1.toList f.2)

def Value.compactItems : List Value → List (List Char)
  | [] => []
  | v :: items => v.compact :: Value.compactItems items

def Value.compactFields : List (String × Value) → List (String × List Char)
  | [] => []
  | (name, v) :: fields => (name, v.compact) :: Value.compactFields fields

end

def JournalEntry.compact (e : JournalEntry) : List Char :=
  bracketed '\x7b' '\x7d'
    [member "ts".toList (quoted e.ts.toList),
      member "session_id".toList (quoted e.sessionId.toList),
      member "tool".toList (quoted e.tool.toList),
      member "direction".toList (quoted e.direction.toList),
      member "summary".toList e.summary.compact]

/-- `serde_json::to_vec`. -/
def JournalEntry.toVec (e : JournalEntry) : List UInt8 := encode e.compact

example : (JournalEntry.new "t" "s" "serial.close" "call" (.object [("arg_keys", .array [])])).toVec
    = asBytes ("\x7b\"ts\":\"t\",\"session_id\":\"s\",\"tool\":\"serial.close\"," ++
      "\"direction\":\"call\",\"summary\":\x7b\"arg_keys\":[]\x7d\x7d") := by decide

/-! ## Sizes -/

def Value.size (v : Value) : Nat := len v.compact

def textSize (s : String) : Nat := len (escaped s.toList)

theorem compactFields_eq (fields : List (String × Value)) :
    Value.compactFields fields = fields.map fun f => (f.1, f.2.compact) := by
  induction fields with
  | nil => rfl
  | cons f fields ih =>
    rw [List.map_cons, ← ih]
    rfl

theorem compactItems_eq (items : List Value) :
    Value.compactItems items = items.map Value.compact := by
  induction items with
  | nil => rfl
  | cons v items ih =>
    rw [List.map_cons, ← ih]
    rfl

theorem size_object (fields : List (String × Value)) : Value.size (.object fields) =
    1 + max 1 (fields.map fun f => textSize f.1 + f.2.size + 4).sum := by
  have hperm := (List.perm_insertionSort (fun f g : String × List Char => f.1 ≤ g.1)
    (Value.compactFields fields)).map fun f => member f.1.toList f.2
  show len (bracketed _ _ _) = _
  rw [len_bracketed_perm rfl rfl hperm, len_bracketed rfl rfl, compactFields_eq, List.map_map,
    List.map_map]
  simp only [Function.comp_def, len_member]
  rfl

theorem compact_string (s : String) : (Value.string s).compact = quoted s.toList := rfl

theorem size_strings (texts : List String) : Value.size (.array (texts.map .string)) =
    1 + max 1 (texts.map fun s => textSize s + 3).sum := by
  show len (bracketed _ _ _) = _
  rw [len_bracketed rfl rfl, compactItems_eq, List.map_map, List.map_map]
  simp only [Function.comp_def, compact_string, len_quoted]
  rfl

theorem length_toVec (e : JournalEntry) : e.toVec.length =
    61 + textSize e.ts + textSize e.sessionId + textSize e.tool + textSize e.direction +
      e.summary.size := by
  show (encode _).length = _
  rw [encode_length, JournalEntry.compact, len_bracketed rfl rfl]
  simp only [List.map_cons, List.map_nil, List.sum_cons, List.sum_nil, len_member, len_quoted]
  have hnames : len (escaped "ts".toList) = 2 ∧ len (escaped "session_id".toList) = 10 ∧
      len (escaped "tool".toList) = 4 ∧ len (escaped "direction".toList) = 9 ∧
      len (escaped "summary".toList) = 7 := by decide
  obtain ⟨h₁, h₂, h₃, h₄, h₅⟩ := hnames
  rw [h₁, h₂, h₃, h₄, h₅]
  unfold textSize Value.size
  omega

/-! ## Call rows -/

def callEntry (clock : Option Duration) (tool : String) (args : Value) (mrtrRetry : Bool) :
    JournalEntry :=
  .new (iso8601Now clock) (callSessionId args) tool JournalEntry.dirCall
    (callSummary tool args mrtrRetry)

section CallRows

variable {clock : Option Duration} {tool : String} {args : Value} {mrtrRetry : Bool}

theorem clipIdentifier_clipped (s : String) : clipIdentifier (clipped s) = clipped s := by
  rw [clipIdentifier, clipped, String.toList_ofList, List.take_take]
  rfl

theorem clipIdentifier_callSessionId (args : Value) :
    clipIdentifier (callSessionId args) = callSessionId args := by
  unfold callSessionId optionalSessionId optionalString
  cases (args.get "session_id").bind Value.asStr with
  | none => decide
  | some s => exact clipIdentifier_clipped s

theorem textSize_clipped_le (s : String) : textSize (clipped s) ≤ 768 := by
  have hlength : (clipped s).toList.length ≤ 128 := by
    rw [clipped, String.toList_ofList]
    exact List.length_take_le ..
  have hsize := len_escaped_le (clipped s).toList
  unfold textSize
  omega

theorem length_callEntry : (callEntry clock tool args mrtrRetry).toVec.length =
    65 + (iso8601Now clock).length + textSize (callSessionId args) +
      textSize (clipIdentifier tool) + (callSummary tool args mrtrRetry).size := by
  have hts : textSize (iso8601Now clock) = (iso8601Now clock).length := by
    rw [textSize, len_escaped_unescaped (unescaped_iso8601Now clock), String.length_toList]
  have hdirection : textSize JournalEntry.dirCall = 4 := by decide
  rw [length_toVec]
  show 61 + textSize (iso8601Now clock) + textSize (clipIdentifier (callSessionId args)) +
    textSize (clipIdentifier tool) + textSize JournalEntry.dirCall +
    (callSummary tool args mrtrRetry).size = _
  rw [hts, hdirection, clipIdentifier_callSessionId]
  omega

theorem size_argKeys_le (args : Value) : (argKeys args).size ≤ 12337 := by
  rw [argKeys, size_strings]
  have hcount : (objectKeys args).length ≤ 16 := by
    unfold objectKeys
    split
    · rw [List.length_map]
      exact List.length_take_le ..
    · exact Nat.zero_le _
  have hkeys : ∀ s ∈ objectKeys args, textSize s + 3 ≤ 771 := by
    intro s hs
    unfold objectKeys at hs
    split at hs
    · obtain ⟨key, _, rfl⟩ := List.mem_map.mp hs
      exact Nat.add_le_add_right (textSize_clipped_le key) 3
    · cases hs
  have hsum := List.sum_le_card_nsmul ((objectKeys args).map fun s => textSize s + 3) 771
    fun n hn => by
      obtain ⟨s, hs, rfl⟩ := List.mem_map.mp hn
      exact hkeys s hs
  rw [List.length_map, Nat.nsmul_eq_mul] at hsum
  omega

theorem size_bool_le (b : Option Bool) : (Value.ofOption (b.map .bool)).size ≤ 5 := by
  rcases b with _ | _ | _ <;> decide

theorem size_nat_le {n k : Nat} (hk : 0 < k) (hn : n < 10 ^ k) : (Value.nat n).size ≤ k := by
  have hdigits : (Value.nat n).compact = Nat.toDigits 10 n := by
    show (if (n : Int) < 0 then '-' :: Nat.toDigits 10 n else Nat.toDigits 10 n) = _
    exact if_neg (Int.not_lt.mpr (Int.natCast_nonneg n))
  have hplain : ∀ c ∈ Nat.toDigits 10 n, c.utf8Size = 1 := fun c hc =>
    (unescaped_of_isDigit (Nat.isDigit_of_mem_toDigits (by decide) (by decide) hc)).2
  rw [Value.size, hdigits, len_eq_length hplain]
  exact (Nat.length_toDigits_le_iff (by decide) hk).mpr hn

theorem textSize_callSessionId_le (args : Value) : textSize (callSessionId args) ≤ 768 := by
  rw [← clipIdentifier_callSessionId]
  exact textSize_clipped_le _

theorem size_optionalString_le (args : Value) (key : String) :
    (Value.ofOption ((optionalString args key).map .string)).size ≤ 770 := by
  unfold optionalString
  cases (args.get key).bind Value.asStr with
  | none => decide
  | some s =>
    have hsize := textSize_clipped_le s
    show len (quoted (clipped s).toList) ≤ 770
    rw [len_quoted]
    exact Nat.add_le_add_right hsize 2

/-! ### The summaries -/

/-- The bytes that the arguments take in the row of a `serial.open`. -/
def openShare (args : Value) : Nat :=
  textSize (callSessionId args) +
    (Value.ofOption ((optionalString args "write_policy").map .string)).size +
    (Value.ofOption ((optionalString args "port").map .string)).size +
    (Value.ofOption ((optionalString args "device").map .string)).size +
    (Value.ofOption ((optionalString args "line_ending").map .string)).size +
    (Value.nat (arrayLen (some args) "deny_patterns")).size + (argKeys args).size

/-- The bytes that the arguments take in the row of a `serial.exec`, which has the session
id twice. -/
def execShare (args : Value) (mrtrRetry : Bool) : Nat :=
  textSize (callSessionId args) +
    (Value.ofOption ((optionalSessionId args).map .string)).size +
    (Value.nat (byteLen args "command")).size + (Value.nat (byteLen args "expect")).size +
    (Value.ofOption ((optionalU64 args "timeout_ms").map .nat)).size +
    (Value.ofOption ((optionalBool args "confirm").map .bool)).size +
    (Value.bool mrtrRetry).size +
    (Value.ofOption ((optionalBool args "clear_before_write").map .bool)).size +
    (Value.ofOption ((optionalBool args "normalize_output").map .bool)).size +
    (Value.ofOption ((optionalString args "line_ending").map .string)).size +
    (Value.ofOption ((optionalString args "echo_mode").map .string)).size +
    (Value.ofOption ((optionalString args "semantic_prompt").map .string)).size +
    (argKeys args).size

theorem length_openEntry : (callEntry clock "serial.open" args mrtrRetry).toVec.length =
    164 + (iso8601Now clock).length + openShare args := by
  have hnames : textSize "write_policy" = 12 ∧ textSize "port" = 4 ∧ textSize "device" = 6 ∧
      textSize "line_ending" = 11 ∧ textSize "caller_deny_rule_count" = 22 ∧
      textSize "arg_keys" = 8 := by decide
  obtain ⟨h₁, h₂, h₃, h₄, h₅, h₆⟩ := hnames
  have htool : textSize (clipIdentifier "serial.open") = 11 := by decide
  rw [length_callEntry, htool, openShare]
  show _ + Value.size (.object _) = _
  rw [size_object]
  simp only [List.map_cons, List.map_nil, List.sum_cons, List.sum_nil, h₁, h₂, h₃, h₄, h₅, h₆]
  omega

theorem length_execEntry : (callEntry clock "serial.exec" args mrtrRetry).toVec.length =
    264 + (iso8601Now clock).length + execShare args mrtrRetry := by
  have hnames : textSize "session_id" = 10 ∧ textSize "command_bytes" = 13 ∧
      textSize "expect_bytes" = 12 ∧ textSize "timeout_ms" = 10 ∧ textSize "confirm" = 7 ∧
      textSize "mrtr_retry" = 10 ∧ textSize "clear_before_write" = 18 ∧
      textSize "normalize_output" = 16 ∧ textSize "line_ending" = 11 ∧
      textSize "echo_mode" = 9 ∧ textSize "semantic_prompt" = 15 ∧
      textSize "arg_keys" = 8 := by decide
  obtain ⟨h₁, h₂, h₃, h₄, h₅, h₆, h₇, h₈, h₉, h₁₀, h₁₁, h₁₂⟩ := hnames
  have htool : textSize (clipIdentifier "serial.exec") = 11 := by decide
  rw [length_callEntry, htool, execShare]
  show _ + Value.size (.object _) = _
  rw [size_object]
  simp only [List.map_cons, List.map_nil, List.sum_cons, List.sum_nil, h₁, h₂, h₃, h₄, h₅, h₆,
    h₇, h₈, h₉, h₁₀, h₁₁, h₁₂]
  omega

/-- The row of a `serial.write` has room enough, whatever its arguments are. -/
theorem length_writeEntry_le (hbytes : byteLen args "data" < 2 ^ 64) :
    (callEntry clock "serial.write" args mrtrRetry).toVec.length ≤ maxJournalRowBytes := by
  have hnames : textSize "session_id" = 10 ∧ textSize "bytes" = 5 ∧ textSize "confirm" = 7 ∧
      textSize "mrtr_retry" = 10 ∧ textSize "arg_keys" = 8 := by decide
  obtain ⟨h₁, h₂, h₃, h₄, h₅⟩ := hnames
  have htool : textSize (clipIdentifier "serial.write") = 12 := by decide
  have hts := length_iso8601Now_le clock
  have hid := textSize_callSessionId_le args
  have hsession : (Value.ofOption ((optionalSessionId args).map .string)).size ≤ 770 :=
    size_optionalString_le args "session_id"
  have hdigits : (Value.nat (byteLen args "data")).size ≤ 20 :=
    size_nat_le (by decide) (Nat.lt_trans hbytes (by decide))
  have hconfirm := size_bool_le (optionalBool args "confirm")
  have hretry : (Value.bool mrtrRetry).size ≤ 5 := size_bool_le (some mrtrRetry)
  have hkeys := size_argKeys_le args
  rw [length_callEntry, htool]
  show _ + Value.size (.object _) ≤ 16384
  rw [size_object]
  simp only [List.map_cons, List.map_nil, List.sum_cons, List.sum_nil, h₁, h₂, h₃, h₄, h₅]
  omega

theorem length_otherEntry (hopen : tool ≠ "serial.open") (hwrite : tool ≠ "serial.write")
    (hexec : tool ≠ "serial.exec") : (callEntry clock tool args mrtrRetry).toVec.length =
    78 + (iso8601Now clock).length + textSize (callSessionId args) +
      textSize (clipIdentifier tool) + (argKeys args).size := by
  have hsummary : callSummary tool args mrtrRetry = .object [("arg_keys", argKeys args)] := by
    unfold callSummary
    split <;> first | contradiction | rfl
  have hname : textSize "arg_keys" = 8 := by decide
  rw [length_callEntry, hsummary, size_object]
  simp only [List.map_cons, List.map_nil, List.sum_cons, List.sum_nil, hname]
  omega

theorem length_otherEntry_le (hopen : tool ≠ "serial.open") (hwrite : tool ≠ "serial.write")
    (hexec : tool ≠ "serial.exec") :
    (callEntry clock tool args mrtrRetry).toVec.length ≤ maxJournalRowBytes := by
  have hts := length_iso8601Now_le clock
  have hid := textSize_callSessionId_le args
  have htool : textSize (clipIdentifier tool) ≤ 768 := textSize_clipped_le tool
  have hkeys := size_argKeys_le args
  rw [length_otherEntry hopen hwrite hexec]
  show _ ≤ 16384
  omega

end CallRows

/-- A call row is kept unless the tool is `serial.exec` or `serial.open` and its arguments
take up more than what the rest of the row leaves of the cap. -/
theorem call_row_kept_iff (clock : Option Duration) (tool : String) (args : Value)
    (mrtrRetry : Bool) (hbytes : byteLen args "data" < 2 ^ 64) :
    (callEntry clock tool args mrtrRetry).toVec.length ≤ maxJournalRowBytes ↔
      (tool = "serial.open" → (iso8601Now clock).length + openShare args ≤ 16220) ∧
      (tool = "serial.exec" → (iso8601Now clock).length + execShare args mrtrRetry ≤ 16120) := by
  have hcap : maxJournalRowBytes = 16384 := rfl
  by_cases hopen : tool = "serial.open"
  · subst hopen
    rw [length_openEntry, hcap]
    constructor
    · exact fun h => ⟨fun _ => by omega, nofun⟩
    · intro h
      have hshare := h.1 rfl
      omega
  by_cases hexec : tool = "serial.exec"
  · subst hexec
    rw [length_execEntry, hcap]
    constructor
    · exact fun h => ⟨nofun, fun _ => by omega⟩
    · intro h
      have hshare := h.2 rfl
      omega
  refine iff_of_true ?_ ⟨fun h => absurd h hopen, fun h => absurd h hexec⟩
  by_cases hwrite : tool = "serial.write"
  · subst hwrite
    exact length_writeEntry_le hbytes
  · exact length_otherEntry_le hopen hwrite hexec

def rebootArgs : Value :=
  .object [("command", .string "reboot"), ("expect", .string "login: "),
    ("session_id", .string "00000000-0000-4000-8000-000000000000"), ("timeout_ms", .nat 5000)]

theorem call_row_kept_reboot :
    (callEntry none "serial.exec" rebootArgs false).toVec.length ≤ maxJournalRowBytes := by
  have hshare : (iso8601Now none).length + execShare rebootArgs false ≤ 16120 := by decide
  exact (call_row_kept_iff none "serial.exec" rebootArgs false (by decide)).mpr
    ⟨nofun, fun _ => hshare⟩

/-! ### A row that is dropped -/

def controlText (last : Nat) : String :=
  String.ofList (List.replicate 127 '\x01' ++ [Char.ofNat last])

def controlKeys : List String := (List.range 16).map fun i => controlText (14 + i)

def plainKeys : List String := ["echo_mode", "line_ending", "semantic_prompt", "session_id"]

theorem controlText_lt {m n : Nat} (h : Char.ofNat m < Char.ofNat n) :
    controlText m < controlText n := by
  rw [String.lt_iff, controlText, controlText, String.toList_ofList, String.toList_ofList]
  exact List.append_left_lt (List.Lex.rel h)

theorem controlText_lt_plain (n : Nat) {key : String} (h : key ∈ plainKeys) :
    controlText n < key := by
  have hhead : ∃ c cs, key.toList = c :: cs ∧ '\x01' < c := by
    simp only [plainKeys, List.mem_cons, List.not_mem_nil, or_false] at h
    rcases h with rfl | rfl | rfl | rfl <;> exact ⟨_, _, rfl, by decide⟩
  obtain ⟨c, cs, hkey, hc⟩ := hhead
  rw [String.lt_iff, controlText, String.toList_ofList, hkey]
  exact List.Lex.rel hc

/-- Sixteen keys of control characters, and the texts that an `exec` records. -/
def controlArgs : JsonObject where
  fields := controlKeys.map (fun key => (key, .null)) ++
    plainKeys.map fun key => (key, .string (controlText 14))
  ascending := by
    show (List.map Prod.fst (_ ++ _)).Pairwise (· < ·)
    rw [List.map_append, List.map_map, List.map_map]
    show (controlKeys.map id ++ plainKeys.map id).Pairwise (· < ·)
    rw [List.map_id, List.map_id, List.pairwise_append]
    refine ⟨?_, by decide, ?_⟩
    · have hchars : ∀ i < 16, ∀ j < 16, i < j → Char.ofNat (14 + i) < Char.ofNat (14 + j) := by
        decide
      rw [controlKeys, List.pairwise_map]
      refine List.pairwise_lt_range.imp_of_mem fun {i j} hi hj hlt => controlText_lt ?_
      exact hchars i (List.mem_range.mp hi) j (List.mem_range.mp hj) hlt
    · intro a ha b hb
      obtain ⟨i, -, rfl⟩ := List.mem_map.mp ha
      exact controlText_lt_plain _ hb

theorem textSize_controlText {n : Nat} (h : len (escape (Char.ofNat n)) = 6) :
    textSize (controlText n) = 768 := by
  rw [textSize, controlText, String.toList_ofList, escaped, List.flatMap_append, ← escaped,
    len_append, len_escaped_replicate, List.flatMap_singleton, h]
  rfl

theorem clipped_controlText (n : Nat) : clipped (controlText n) = controlText n := by
  have hlength : (controlText n).toList.length = maxJournalFieldChars := by
    rw [controlText, String.toList_ofList, List.length_append, List.length_replicate]
    rfl
  rw [clipped, ← hlength, List.take_length, String.ofList_toList]

theorem optionalString_controlArgs {key : String} (h : key ∈ plainKeys) :
    optionalString (.object controlArgs.fields) key = some (controlText 14) := by
  have hkeys : (controlKeys.map fun key => (key, Value.null)).lookup key = none := by
    rw [List.lookup_eq_none_iff]
    intro f hf
    obtain ⟨k, hk, rfl⟩ := List.mem_map.mp hf
    obtain ⟨i, -, rfl⟩ := List.mem_map.mp hk
    exact bne_iff_ne.mpr (controlText_lt_plain _ h).ne'
  have hplain : (plainKeys.map fun key => (key, Value.string (controlText 14))).lookup key =
      some (.string (controlText 14)) := by
    simp only [plainKeys, List.mem_cons, List.not_mem_nil, or_false] at h
    rcases h with rfl | rfl | rfl | rfl <;> rfl
  have hget : (Value.object controlArgs.fields).get key = some (.string (controlText 14)) := by
    show (_ ++ _ : List (String × Value)).lookup key = _
    rw [List.lookup_append, hkeys, hplain]
    rfl
  rw [optionalString, hget]
  exact congrArg some (clipped_controlText 14)

theorem objectKeys_controlArgs : objectKeys (.object controlArgs.fields) = controlKeys := by
  have htake : (controlArgs.fields.map Prod.fst).take maxArgKeys = controlKeys := by
    show (List.map Prod.fst (_ ++ _)).take 16 = _
    rw [List.map_append, List.map_map]
    show (controlKeys.map id ++ _).take 16 = _
    rw [List.map_id]
    exact List.take_left' rfl
  show ((controlArgs.fields.map Prod.fst).take maxArgKeys).map clipped = _
  rw [htake, controlKeys, List.map_map]
  exact List.map_congr_left fun i _ => clipped_controlText (14 + i)

theorem size_argKeys_controlArgs : (argKeys (.object controlArgs.fields)).size = 12337 := by
  have hsix : ∀ i < 16, len (escape (Char.ofNat (14 + i))) = 6 := by decide
  have hsizes : controlKeys.map (fun s => textSize s + 3) = List.replicate 16 771 := by
    rw [controlKeys, List.map_map, List.eq_replicate_iff]
    refine ⟨rfl, fun n hn => ?_⟩
    obtain ⟨i, hi, rfl⟩ := List.mem_map.mp hn
    show textSize (controlText (14 + i)) + 3 = 771
    rw [textSize_controlText (hsix i (List.mem_range.mp hi))]
  rw [argKeys, size_strings, objectKeys_controlArgs, hsizes]
  decide

theorem control_exec_dropped : ¬∀ clock tool args mrtrRetry,
    (callEntry clock tool args mrtrRetry).toVec.length ≤ maxJournalRowBytes := by
  intro h
  have hkept := h none "serial.exec" (.object controlArgs.fields) false
  have htext : textSize (controlText 14) = 768 := textSize_controlText (by decide)
  have hsize : (Value.ofOption ((some (controlText 14)).map .string)).size = 770 := by
    show len (quoted _) = _
    rw [len_quoted]
    exact congrArg (· + 2) htext
  have hsession : optionalSessionId (.object controlArgs.fields) = some (controlText 14) :=
    optionalString_controlArgs (by decide)
  rw [length_execEntry, execShare, callSessionId, hsession, Option.getD_some, htext,
    optionalString_controlArgs (by decide), optionalString_controlArgs (by decide),
    optionalString_controlArgs (by decide), hsize, size_argKeys_controlArgs] at hkept
  have hcap : maxJournalRowBytes = 16384 := rfl
  omega

end McpSerial
