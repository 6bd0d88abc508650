import McpSerial.Journal.Rows
import McpSerial.Selection.Sorted
import McpSerial.Text.Lossy
import McpSerial.Text.JsonReader

/-! Reading a journal row back (`serde::Deserialize` of a `JournalEntry`). The rows of the
server carry no numbers but integers. -/

namespace McpSerial
open Json Utf8

/-! ## Values -/

mutual

def Value.sorted : Value → Value
  | .array items => .array (Value.sortedItems items)
  | .object fields => .object (Fields.sorted (Value.sortedFields fields))
  | v => v

def Value.sortedItems : List Value → List Value
  | [] => []
  | v :: items => v.sorted :: Value.sortedItems items

def Value.sortedFields : List (String × Value) → List (String × Value)
  | [] => []
  | (name, v) :: fields => (name, v.sorted) :: Value.sortedFields fields

end

mutual

/-- Every number in the value is an integer. -/
def Value.Integral : Value → Prop
  | .number (.int _) => True
  | .number (.float _) => False
  | .array items => Value.IntegralItems items
  | .object fields => Value.IntegralFields fields
  | _ => True

def Value.IntegralItems : List Value → Prop
  | [] => True
  | v :: items => v.Integral ∧ Value.IntegralItems items

def Value.IntegralFields : List (String × Value) → Prop
  | [] => True
  | (_, v) :: fields => v.Integral ∧ Value.IntegralFields fields

end

section Integral

variable {name : String} {v : Value} {items : List Value} {fields : List (String × Value)}

@[simp] theorem integral_string (s : String) : (Value.string s).Integral := trivial

@[simp] theorem integral_text (cs : List Char) : (Value.text cs).Integral := trivial

@[simp] theorem integral_bool (b : Bool) : (Value.bool b).Integral := trivial

@[simp] theorem integral_int (n : Int) : (Value.number (.int n)).Integral := trivial

@[simp] theorem integral_nat (n : Nat) : (Value.nat n).Integral := integral_int n

@[simp] theorem integral_array : (Value.array items).Integral ↔ Value.IntegralItems items :=
  Iff.rfl

@[simp] theorem integral_object : (Value.object fields).Integral ↔ Value.IntegralFields fields :=
  Iff.rfl

@[simp] theorem integralFields_nil : Value.IntegralFields [] := trivial

@[simp] theorem integralFields_cons :
    Value.IntegralFields ((name, v) :: fields) ↔ v.Integral ∧ Value.IntegralFields fields :=
  Iff.rfl

end Integral

def readValue : Nat → Reader Value
  | 0, _ => none
  | depth + 1, cs =>
    match cs with
    | '"' :: rest => (readString rest).map fun p => (.string (String.ofList p.1), p.2)
    | '[' :: rest =>
      (readBracketed ']' (readValue depth) rest).map fun p => (.array p.1, p.2)
    | '\x7b' :: rest =>
      (readBracketed '\x7d' (readMember (readValue depth)) rest).map fun p =>
        (.object (p.1.map fun f => (String.ofList f.1, f.2)), p.2)
    | 'n' :: 'u' :: 'l' :: 'l' :: rest => some (.null, rest)
    | 't' :: 'r' :: 'u' :: 'e' :: rest => some (.bool true, rest)
    | 'f' :: 'a' :: 'l' :: 's' :: 'e' :: rest => some (.bool false, rest)
    | cs => (readInteger cs).map fun p => (.number (.int p.1), p.2)

theorem sortedFields_eq (fields : List (String × Value)) :
    Value.sortedFields fields = fields.map fun f => (f.1, f.2.sorted) := by
  induction fields with
  | nil => rfl
  | cons f fields ih =>
    rw [List.map_cons, ← ih]
    rfl

theorem sortedItems_eq (items : List Value) :
    Value.sortedItems items = items.map Value.sorted := by
  induction items with
  | nil => rfl
  | cons v items ih =>
    rw [List.map_cons, ← ih]
    rfl

theorem compact_array (items : List Value) :
    (Value.array items).compact = bracketed '[' ']' (items.map Value.compact) := by
  rw [← compactItems_eq]
  rfl

theorem compact_object (fields : List (String × Value)) : (Value.object fields).compact =
    bracketed '\x7b' '\x7d'
      ((Fields.sorted fields).map fun f => member f.1.toList f.2.compact) := by
  show bracketed _ _ ((Fields.sorted (Value.compactFields fields)).map _) = _
  rw [compactFields_eq, ← Fields.map_sorted, List.map_map]
  rfl

theorem readValue_number {depth : Nat} {c : Char} (hc : isNumberChar c = true) (cs : List Char) :
    readValue (depth + 1) (c :: cs) =
      (readInteger (c :: cs)).map fun p => (.number (.int p.1), p.2) := by
  have hne {d : Char} (hd : isNumberChar d = false) : c ≠ d := by
    rintro rfl
    rw [hc] at hd
    cases hd
  unfold readValue
  split
  · next heq => exact absurd (List.cons.inj heq).1 (hne rfl)
  · next heq => exact absurd (List.cons.inj heq).1 (hne rfl)
  · next heq => exact absurd (List.cons.inj heq).1 (hne rfl)
  · next heq => exact absurd (List.cons.inj heq).1 (hne rfl)
  · next heq => exact absurd (List.cons.inj heq).1 (hne rfl)
  · next heq => exact absurd (List.cons.inj heq).1 (hne rfl)
  · rfl

theorem compact_head {v : Value} (h : v.Integral) :
    ∃ c tail, v.compact = c :: tail ∧ c ≠ ']' := by
  cases v with
  | null => exact ⟨_, _, rfl, by decide⟩
  | bool b => cases b <;> exact ⟨_, _, rfl, by decide⟩
  | string s => exact ⟨_, _, rfl, by decide⟩
  | array items => exact ⟨_, _, rfl, by decide⟩
  | object fields => exact ⟨_, _, rfl, by decide⟩
  | number n =>
    cases n with
    | float text => cases h
    | int n =>
      obtain ⟨c, tail, hc⟩ := List.exists_cons_of_ne_nil (decimal_ne_nil n)
      refine ⟨c, tail, hc, ?_⟩
      rintro rfl
      exact absurd (isNumberChar_of_mem_decimal (hc ▸ List.mem_cons_self)) (by decide)

theorem stops_cons {c : Char} (h : isNumberChar c = false) (rest : List Char) :
    Stops (c :: rest) := by
  rintro _ ⟨⟩
  exact h

theorem readValue_array (depth : Nat) (parts : List (List Char)) (rest : List Char) :
    readValue (depth + 1) (bracketed '[' ']' parts ++ rest) =
      (readBracketed ']' (readValue depth) (bracketed '[' ']' parts ++ rest).tail).map
        fun p => (.array p.1, p.2) := rfl

theorem readValue_object (depth : Nat) (parts : List (List Char)) (rest : List Char) :
    readValue (depth + 1) (bracketed '\x7b' '\x7d' parts ++ rest) =
      (readBracketed '\x7d' (readMember (readValue depth))
        (bracketed '\x7b' '\x7d' parts ++ rest).tail).map
        fun p => (.object (p.1.map fun f => (String.ofList f.1, f.2)), p.2) := rfl

def ReadsBack (v : Value) : Prop :=
  ∀ depth rest, v.compact.length ≤ depth → Stops rest →
    readValue depth (v.compact ++ rest) = some (v.sorted, rest)

theorem exists_eq_succ_of_lt {n m : Nat} (h : n < m) : ∃ k, m = k + 1 :=
  Nat.exists_eq_add_one_of_ne_zero (Nat.ne_of_gt (Nat.zero_lt_of_lt h))

theorem readsBack_array {items : List Value} (hread : ∀ v ∈ items, ReadsBack v)
    (hintegral : ∀ v ∈ items, v.Integral) : ReadsBack (.array items) := by
  intro depth rest hdepth _
  rw [compact_array] at hdepth ⊢
  obtain ⟨depth, rfl⟩ := exists_eq_succ_of_lt hdepth
  have hparts : ∀ v ∈ items, ReadsPart ']' (readValue depth) Value.compact Value.sorted v := by
    intro v hv c rest' hc
    have hlength : v.compact.length < (bracketed '[' ']' (items.map Value.compact)).length :=
      length_lt_length_bracketed (List.mem_map_of_mem hv)
    apply hread v hv depth (c :: rest') (by omega)
    apply stops_cons
    rcases hc with rfl | rfl <;> rfl
  rw [readValue_array, readBracketed_bracketed (by decide) rest items hparts
    fun v hv => compact_head (hintegral v hv)]
  show some (Value.array (items.map Value.sorted), rest) = _
  rw [← sortedItems_eq]
  rfl

theorem readsPart_member {f : String × Value} (hread : ReadsBack f.2) {depth : Nat}
    (hdepth : (member f.1.toList f.2.compact).length ≤ depth) :
    ReadsPart '\x7d' (readMember (readValue depth)) (fun f => member f.1.toList f.2.compact)
      (fun f => (f.1.toList, f.2.sorted)) f := by
  intro c rest hc
  apply readMember_member
  have hlength : f.2.compact.length ≤ (member f.1.toList f.2.compact).length := by
    rw [member, List.length_append, List.length_cons]
    omega
  apply hread depth (c :: rest) (Nat.le_trans hlength hdepth)
  apply stops_cons
  rcases hc with rfl | rfl <;> rfl

theorem member_head (f : String × Value) :
    ∃ c tail, member f.1.toList f.2.compact = c :: tail ∧ c ≠ '\x7d' := ⟨_, _, rfl, by decide⟩

theorem readBracketed_members {fields : List (String × Value)}
    (hread : ∀ f ∈ fields, ReadsBack f.2) {depth : Nat}
    (hdepth : (bracketed '\x7b' '\x7d'
      (fields.map fun f => member f.1.toList f.2.compact)).length ≤ depth + 1) (rest : List Char) :
    readValue (depth + 1) (bracketed '\x7b' '\x7d'
        (fields.map fun f => member f.1.toList f.2.compact) ++ rest) =
      some (.object (fields.map fun f => (f.1, f.2.sorted)), rest) := by
  have hparts : ∀ f ∈ fields, ReadsPart '\x7d' (readMember (readValue depth))
      (fun f => member f.1.toList f.2.compact) (fun f => (f.1.toList, f.2.sorted)) f := by
    intro f hf
    have hlength : (member f.1.toList f.2.compact).length < (bracketed '\x7b' '\x7d'
        (fields.map fun f => member f.1.toList f.2.compact)).length :=
      length_lt_length_bracketed (List.mem_map.mpr ⟨f, hf, rfl⟩)
    exact readsPart_member (hread f hf) (by omega)
  rw [readValue_object, readBracketed_bracketed (by decide) rest fields hparts fun f _ =>
    member_head f]
  show some (Value.object ((fields.map _).map _), rest) = _
  rw [List.map_map]
  congr 3
  exact List.map_congr_left fun f _ => congrArg (·, f.2.sorted) String.ofList_toList

theorem readsBack_object {fields : List (String × Value)} (hread : ∀ f ∈ fields, ReadsBack f.2) :
    ReadsBack (.object fields) := by
  intro depth rest hdepth _
  rw [compact_object] at hdepth ⊢
  obtain ⟨depth, rfl⟩ := exists_eq_succ_of_lt hdepth
  rw [readBracketed_members (fun f hf => hread f (Fields.mem_sorted.mp hf)) hdepth,
    Fields.map_sorted, ← sortedFields_eq]
  rfl

mutual

/-- A value is read back from its text, with the fields of objects sorted. -/
theorem Value.Integral.readsBack {v : Value} (h : v.Integral) : ReadsBack v := by
  cases v with
  | array items =>
    have hitems := Value.IntegralItems.readsBack h
    exact readsBack_array (fun v hv => (hitems v hv).1) fun v hv => (hitems v hv).2
  | object fields => exact readsBack_object (Value.IntegralFields.readsBack h)
  | number n =>
    cases n with
    | float text => cases h
    | int n =>
      intro depth rest hdepth hrest
      obtain ⟨c, tail, hc⟩ := List.exists_cons_of_ne_nil (decimal_ne_nil n)
      have hhead : isNumberChar c = true := isNumberChar_of_mem_decimal (hc ▸ List.mem_cons_self)
      show readValue depth (decimal n ++ rest) = _
      change (decimal n).length ≤ depth at hdepth
      have hread := readInteger_decimal n hrest
      rw [hc] at hdepth hread ⊢
      obtain ⟨depth, rfl⟩ := exists_eq_succ_of_lt hdepth
      rw [List.cons_append] at hread ⊢
      rw [readValue_number hhead, hread]
      rfl
  | null =>
    intro depth rest hdepth _
    obtain ⟨depth, rfl⟩ := exists_eq_succ_of_lt hdepth
    rfl
  | bool b =>
    intro depth rest hdepth _
    cases b <;> obtain ⟨depth, rfl⟩ := exists_eq_succ_of_lt hdepth <;> rfl
  | string s =>
    intro depth rest hdepth _
    obtain ⟨depth, rfl⟩ := exists_eq_succ_of_lt hdepth
    have htext : (Value.string s).compact ++ rest = '"' :: (escaped s.toList ++ '"' :: rest) := by
      show quoted s.toList ++ rest = _
      rw [quoted, List.append_assoc]
      rfl
    rw [htext, readValue, readString_escaped, Option.map_some, String.ofList_toList]
    rfl

theorem Value.IntegralItems.readsBack {items : List Value} (h : Value.IntegralItems items) :
    ∀ v ∈ items, ReadsBack v ∧ v.Integral := by
  cases items with
  | nil => nofun
  | cons v items =>
    exact List.forall_mem_cons.mpr ⟨⟨h.1.readsBack, h.1⟩, Value.IntegralItems.readsBack h.2⟩

theorem Value.IntegralFields.readsBack {fields : List (String × Value)}
    (h : Value.IntegralFields fields) : ∀ f ∈ fields, ReadsBack f.2 := by
  cases fields with
  | nil => nofun
  | cons f fields =>
    exact List.forall_mem_cons.mpr ⟨h.1.readsBack, Value.IntegralFields.readsBack h.2⟩

end

/-! ## Rows -/

namespace JournalEntry

def ofValue (v : Value) : Option JournalEntry := do
  let text (key : String) : Option String := (v.get key).bind Value.asStr
  return { ts := ← text "ts"
           sessionId := ← text "session_id"
           tool := ← text "tool"
           direction := ← text "direction"
           summary := ← v.get "summary" }

/-- `serde_json::from_slice`. -/
def fromSlice (bytes : List UInt8) : Option JournalEntry := do
  let cs ← fromUtf8 bytes
  let (v, rest) ← readValue cs.length cs
  if rest.isEmpty then ofValue v else none

def sorted (e : JournalEntry) : JournalEntry := { e with summary := e.summary.sorted }

end JournalEntry

def entryFields (e : JournalEntry) : List (String × Value) :=
  [("ts", .string e.ts), ("session_id", .string e.sessionId), ("tool", .string e.tool),
    ("direction", .string e.direction), ("summary", e.summary)]

/-- A row is read back from its line. -/
theorem fromSlice_toVec {e : JournalEntry} (h : e.summary.Integral) :
    JournalEntry.fromSlice e.toVec = some e.sorted := by
  have hcompact : e.compact =
      bracketed '\x7b' '\x7d' ((entryFields e).map fun f => member f.1.toList f.2.compact) := rfl
  have hfields : ∀ f ∈ entryFields e, ReadsBack f.2 :=
    Value.IntegralFields.readsBack ⟨trivial, trivial, trivial, trivial, h, trivial⟩
  have hlength : 0 < e.compact.length := Nat.zero_lt_succ _
  obtain ⟨depth, hdepth⟩ := exists_eq_succ_of_lt hlength
  have hread : readValue (depth + 1) (e.compact ++ []) =
      some (.object ((entryFields e).map fun f => (f.1, f.2.sorted)), []) := by
    rw [hcompact]
    exact readBracketed_members hfields (hcompact ▸ hdepth.le) []
  rw [List.append_nil, ← hdepth] at hread
  unfold JournalEntry.fromSlice JournalEntry.toVec
  rw [fromUtf8_encode]
  show (readValue e.compact.length e.compact).bind _ = _
  rw [hread]
  rfl

end McpSerial
