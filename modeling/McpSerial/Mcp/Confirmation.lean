import McpSerial.Mcp.Messages

/-! The two rounds in which a person confirms a write: the key that binds the answer to
the bytes, the question and the answer. -/

namespace McpSerial
open Utf8

def v20260728 : String := "2026-07-28"

def supportsFormElicitation (elicitation : ElicitationCapability) : Bool :=
  elicitation.form || !elicitation.url

def clientCanElicit (context : RequestContext) : Bool :=
  context.protocolVersion.any (fun version => v20260728 ≤ version) &&
    context.elicitation.any supportsFormElicitation

/-! ## The key -/

/-- `usize::to_ne_bytes` on the 64-bit little-endian targets. -/
def lengthPrefix (n : Nat) : List UInt8 :=
  (List.range 8).map fun i => UInt8.ofNat (n / 256 ^ i)

/-- What `str::hash` feeds a hasher. -/
def hashStr (s : String) : List UInt8 := asBytes s ++ [0xff]

/-- What `<[u8]>::hash` feeds a hasher. -/
def hashBytes (bytes : List UInt8) : List UInt8 := lengthPrefix bytes.length ++ bytes

/-- Everything that the hasher of `confirmation_key` is fed. -/
def keyInput (sessionId tool : String) (payload : List UInt8) : List UInt8 :=
  hashStr sessionId ++ hashStr tool ++ hashBytes payload

def hexDigits : Nat → Nat → List Char
  | 0, _ => []
  | k + 1, n => hexDigits k (n / 16) ++ [hexDigit n]

def confirmationKey (srv : McpServer) (sessionId tool : String) (payload : List UInt8) : String :=
  "confirm_write:" ++
    String.ofList (hexDigits 16 (srv.hash (keyInput sessionId tool payload)).toNat)

/-! ## The question -/

/-- One character of a text under `Debug`, between the quotes. -/
def debugChar (srv : McpServer) (c : Char) : List Char :=
  if c = '\x00' then ['\\', '0']
  else if c = '\t' then ['\\', 't']
  else if c = '\r' then ['\\', 'r']
  else if c = '\n' then ['\\', 'n']
  else if c = '"' then ['\\', '"']
  else if c = '\\' then ['\\', '\\']
  else if srv.escapes c then
    ['\\', 'u', '\x7b'] ++ Nat.toDigits 16 c.toNat ++ ['\x7d']
  else [c]

/-- One byte under `escape_ascii`. -/
def escapeAscii (b : UInt8) : List Char :=
  if b = 9 then ['\\', 't']
  else if b = 13 then ['\\', 'r']
  else if b = 10 then ['\\', 'n']
  else if b = 39 then ['\\', '\'']
  else if b = 34 then ['\\', '"']
  else if b = 92 then ['\\', '\\']
  else if 0x20 ≤ b ∧ b ≤ 0x7e then [Char.ofNat b.toNat]
  else ['\\', 'x'] ++ hexByte b

def escapedPayload (srv : McpServer) (payload : List UInt8) : String :=
  match fromUtf8 payload with
  | some text => String.ofList (['"'] ++ text.flatMap (debugChar srv) ++ ['"'])
  | none => String.ofList (['b', '"'] ++ payload.flatMap escapeAscii ++ ['"'])

def confirmationMessage (srv : McpServer) (snapshot : SessionSnapshot) (tool : String)
    (payload : List UInt8) : String :=
  s!"{tool} on serial session {snapshot.sessionId} ({snapshot.port} @ {snapshot.baud} baud, " ++
    s!"write_policy=confirm) wants to send {payload.length} byte(s) to the device:\n\n" ++
    s!"{escapedPayload srv payload}\n\nAllow this write? The agent cannot answer for you."

def confirmationRequest (srv : McpServer) (snapshot : SessionSnapshot) (tool : String)
    (payload : List UInt8) (key : String) : InputRequiredResult :=
  let requestedSchema : ElicitationSchema :=
    { properties := [("confirm",
        { title := "Send these bytes"
          description := "true to send the bytes shown above; false or Decline to refuse" })]
      required := ["confirm"] }
  { inputRequests :=
      [(key, { message := confirmationMessage srv snapshot tool payload, requestedSchema })] }

/-! ## The answer -/

def confirmationAnswer (srv : McpServer) (answer : Value) : Except String Unit :=
  match srv.elicitResult answer with
  | none => .error "invalid"
  | some result =>
    match result.action with
    | .accept =>
      if ((result.content.bind (·.get "confirm")).bind Value.asBool).getD false then .ok ()
      else .error "accept_without_confirm"
    | .decline => .error "decline"
    | .cancel => .error "cancel"
    | .other => .error "unknown"

/-- Only an explicit `accept` that carries `confirm: true` lets a write proceed. -/
theorem confirmationAnswer_eq_ok {srv : McpServer} {answer : Value} :
    confirmationAnswer srv answer = .ok () ↔
      ∃ content, srv.elicitResult answer = some ⟨.accept, some content⟩ ∧
        content.get "confirm" = some (.bool true) := by
  have hflag (v : Option Value) : (v.bind Value.asBool).getD false = true ↔
      v = some (.bool true) := by
    rcases v with _ | v
    · simp
    · cases v <;> simp [Value.asBool]
  unfold confirmationAnswer
  cases srv.elicitResult answer with
  | none => simp
  | some result =>
    obtain ⟨action, content⟩ := result
    cases action with
    | accept =>
      cases content with
      | none => simp
      | some content =>
        simp only [Option.bind_some, hflag, Option.some.injEq, ElicitResult.mk.injEq, true_and,
          exists_eq_left']
        split <;> simp_all
    | decline => simp
    | cancel => simp
    | other => simp

/-! ## The key binds session, tool and bytes -/

theorem hexDigit_injective {m n : Nat} (h : hexDigit m = hexDigit n) : m % 16 = n % 16 := by
  have hdigits : ∀ i < 16, ∀ j < 16, Nat.digitChar i = Nat.digitChar j → i = j := by decide
  exact hdigits _ (Nat.mod_lt _ (by decide)) _ (Nat.mod_lt _ (by decide)) h

theorem hexDigits_injective {k m n : Nat} (hm : m < 16 ^ k) (hn : n < 16 ^ k)
    (h : hexDigits k m = hexDigits k n) : m = n := by
  induction k generalizing m n with
  | zero => omega
  | succ k ih =>
    rw [Nat.pow_succ] at hm hn
    obtain ⟨hinit, hlast⟩ := List.append_inj' h rfl
    have hquot : m / 16 = n / 16 :=
      ih (Nat.div_lt_of_lt_mul (by omega)) (Nat.div_lt_of_lt_mul (by omega)) hinit
    have hrem : m % 16 = n % 16 := hexDigit_injective (List.cons.inj hlast).1
    omega

/-- A mark that occurs in no text ends each text unambiguously. -/
theorem append_mark_inj {α : Type} {a : α} {xs xs' ys ys' : List α} (hxs : a ∉ xs) (hxs' : a ∉ xs')
    (h : xs ++ a :: ys = xs' ++ a :: ys') : xs = xs' ∧ ys = ys' := by
  induction xs generalizing xs' with
  | nil =>
    cases xs' with
    | nil => exact ⟨rfl, (List.cons.inj h).2⟩
    | cons b xs' => exact absurd (List.mem_cons.mpr (.inl (List.cons.inj h).1)) hxs'
  | cons b xs ih =>
    cases xs' with
    | nil => exact absurd (List.mem_cons.mpr (.inl (List.cons.inj h).1.symm)) hxs
    | cons b' xs' =>
      obtain ⟨rfl, htail⟩ := List.cons.inj h
      obtain ⟨rfl, hys⟩ := ih (fun hm => hxs (List.mem_cons_of_mem _ hm))
        (fun hm => hxs' (List.mem_cons_of_mem _ hm)) htail
      exact ⟨rfl, hys⟩

theorem hashStr_append_inj {s t : String} {xs ys : List UInt8}
    (h : hashStr s ++ xs = hashStr t ++ ys) : s = t ∧ xs = ys := by
  have hfree (u : String) : (0xff : UInt8) ∉ asBytes u := by
    intro hmem
    exact absurd (lt_of_mem_encode hmem) (by decide)
  simp only [hashStr, List.append_assoc, List.singleton_append] at h
  obtain ⟨hbytes, hrest⟩ := append_mark_inj (hfree s) (hfree t) h
  exact ⟨asBytes_injective hbytes, hrest⟩

theorem keyInput_injective {sid sid' tool tool' : String} {payload payload' : List UInt8}
    (h : keyInput sid tool payload = keyInput sid' tool' payload') :
    sid = sid' ∧ tool = tool' ∧ payload = payload' := by
  unfold keyInput at h
  rw [List.append_assoc, List.append_assoc] at h
  obtain ⟨hsid, hrest⟩ := hashStr_append_inj h
  obtain ⟨htool, hbytes⟩ := hashStr_append_inj hrest
  exact ⟨hsid, htool, (List.append_inj hbytes (by simp [lengthPrefix])).2⟩

/-- Requests whose inputs the hash tells apart have different keys. -/
theorem confirmationKey_injective {srv : McpServer} {sid sid' tool tool' : String}
    {payload payload' : List UInt8}
    (hhash : srv.hash (keyInput sid tool payload) = srv.hash (keyInput sid' tool' payload') →
      keyInput sid tool payload = keyInput sid' tool' payload')
    (h : confirmationKey srv sid tool payload = confirmationKey srv sid' tool' payload') :
    sid = sid' ∧ tool = tool' ∧ payload = payload' := by
  have hchars := congrArg String.toList h
  simp only [confirmationKey, String.toList_append, String.toList_ofList] at hchars
  have hdigits := List.append_cancel_left hchars
  have hnat := hexDigits_injective (UInt64.toNat_lt _) (UInt64.toNat_lt _) hdigits
  exact keyInput_injective (hhash (UInt64.toNat_inj.mp hnat))

end McpSerial
