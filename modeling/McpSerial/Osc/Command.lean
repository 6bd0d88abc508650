import McpSerial.Osc.Markers

/-! The one OSC 3008 command of a transcript: written between other output it is read back,
and whatever a device sends, nothing else is taken for one. -/

namespace McpSerial
open Utf8 Sliding

/-! ## Fields -/

theorem splitFields_of_not_mem {sep : Char} {f : List Char} (h : sep ∉ f) :
    splitFields sep f = [f] := by
  induction f with
  | nil => rfl
  | cons c f ih =>
    obtain ⟨hc, hf⟩ := not_or.mp (List.mem_cons.not.mp h)
    rw [splitFields, if_neg (Ne.symm hc), ih hf]

theorem splitFields_append {sep : Char} {f : List Char} (h : sep ∉ f) (cs : List Char) :
    splitFields sep (f ++ sep :: cs) = f :: splitFields sep cs := by
  induction f with
  | nil => rw [List.nil_append, splitFields, if_pos rfl]
  | cons c f ih =>
    obtain ⟨hc, hf⟩ := not_or.mp (List.mem_cons.not.mp h)
    rw [List.cons_append, splitFields, if_neg (Ne.symm hc), ih hf]

theorem stripPrefix_append (pre cs : List Char) : stripPrefix pre (pre ++ cs) = some cs := by
  unfold stripPrefix
  rw [if_pos (List.isPrefixOf_iff_prefix.mpr (List.prefix_append ..)), List.drop_left]

/-! ## Decimal numbers -/

theorem foldl_digits {cs : List Char} (h : ∀ c ∈ cs, c.isDigit) (n : Nat) :
    cs.foldl (fun acc d => acc.bind fun n =>
      if d.isDigit then some (n * 10 + (d.toNat - 48)) else none) (some n) =
        some (Nat.ofDigitChars 10 cs n) := by
  induction cs generalizing n with
  | nil => rfl
  | cons c cs ih =>
    have hc := h c List.mem_cons_self
    rw [List.foldl_cons, Option.bind_some, if_pos hc,
      ih fun d hd => h d (List.mem_cons_of_mem c hd), Nat.ofDigitChars_cons, Nat.mul_comm]
    rfl

theorem of_mem_toDigits {n : Nat} {c : Char} (h : c ∈ Nat.toDigits 10 n) : c.isDigit = true :=
  Nat.isDigit_of_mem_toDigits (by decide) (by decide) h

def unsignedDigits (ds : List Char) : Option Nat :=
  if ds.isEmpty then none
  else ds.foldl (fun acc d => acc.bind fun n =>
    if d.isDigit then some (n * 10 + (d.toNat - 48)) else none) (some 0)

theorem unsignedDigits_toDigits (n : Nat) : unsignedDigits (Nat.toDigits 10 n) = some n := by
  have hne : ¬(Nat.toDigits 10 n).isEmpty = true := by
    rw [List.isEmpty_iff]
    exact Nat.toDigits_ne_nil
  rw [unsignedDigits, if_neg hne, foldl_digits fun c => of_mem_toDigits,
    Nat.ofDigitChars_toDigits (by decide) (by decide)]

theorem parseI32_minus (ds : List Char) : parseI32 ('-' :: ds) =
    (unsignedDigits ds).bind fun n =>
      if -2147483648 ≤ -(n : Int) ∧ -(n : Int) ≤ 2147483647 then some (-(n : Int)) else none := by
  show (Option.map (fun n : Int => -n)
    ((unsignedDigits ds).bind fun n => some (n : Int))).bind _ = _
  cases unsignedDigits ds <;> rfl

theorem parseI32_unsigned {c : Char} (hc : c.isDigit) (ds : List Char) : parseI32 (c :: ds) =
    (unsignedDigits (c :: ds)).bind fun n =>
      if -2147483648 ≤ (n : Int) ∧ (n : Int) ≤ 2147483647 then some (n : Int) else none := by
  unfold parseI32
  dsimp only
  split
  next heq =>
    obtain ⟨rfl, _⟩ := List.cons.inj heq
    cases hc
  next heq =>
    obtain ⟨rfl, _⟩ := List.cons.inj heq
    cases hc
  next =>
    show (Option.map (fun n : Int => n)
      ((unsignedDigits (c :: ds)).bind fun n => some (n : Int))).bind _ = _
    cases unsignedDigits (c :: ds) <;> rfl

theorem toList_toString_ofNat (n : Nat) :
    (toString (Int.ofNat n)).toList = Nat.toDigits 10 n := Nat.toList_repr

theorem toList_toString_negSucc (n : Nat) :
    (toString (Int.negSucc n)).toList = '-' :: Nat.toDigits 10 (n + 1) := by
  show ("-" ++ Nat.repr (n + 1)).toList = _
  rw [String.toList_append, Nat.toList_repr]
  rfl

theorem of_mem_toString {status : Int} {c : Char} (h : c ∈ (toString status).toList) :
    c = '-' ∨ c.isDigit = true := by
  cases status with
  | ofNat n =>
    rw [toList_toString_ofNat] at h
    exact .inr (of_mem_toDigits h)
  | negSucc n =>
    rw [toList_toString_negSucc] at h
    exact (List.mem_cons.mp h).imp_right of_mem_toDigits

theorem not_mem_toString {status : Int} {c : Char} (hsign : c ≠ '-') (hdigit : c.isDigit = false) :
    c ∉ (toString status).toList := by
  intro h
  rcases of_mem_toString h with rfl | hc
  · exact hsign rfl
  · rw [hdigit] at hc
    cases hc

theorem parseI32_toString {status : Int} (hlow : -2147483648 ≤ status)
    (hhigh : status ≤ 2147483647) : parseI32 (toString status).toList = some status := by
  cases status with
  | ofNat n =>
    have hdigits := unsignedDigits_toDigits n
    rw [toList_toString_ofNat]
    cases hcs : Nat.toDigits 10 n with
    | nil => exact absurd hcs Nat.toDigits_ne_nil
    | cons c ds =>
      have hc : c.isDigit := of_mem_toDigits (hcs ▸ List.mem_cons_self)
      rw [hcs] at hdigits
      rw [parseI32_unsigned hc, hdigits]
      exact if_pos ⟨hlow, hhigh⟩
  | negSucc n =>
    have hneg : -((n + 1 : Nat) : Int) = Int.negSucc n := rfl
    rw [toList_toString_negSucc, parseI32_minus, unsignedDigits_toDigits, Option.bind_some, hneg,
      if_pos ⟨hlow, hhigh⟩]

/-! ## Writing a command -/

inductive OscExit where
  | success
  | failure
  deriving DecidableEq, Repr

def OscExit.text : OscExit → String
  | success => "success"
  | failure => "failure"

def startBody (id : List Char) : List Char := "start=".toList ++ id ++ ";type=command".toList

def endBody (id : List Char) (token : OscExit) (status : Int) : List Char :=
  "end=".toList ++ id ++ ";exit=".toList ++ token.text.toList ++ ";status=".toList ++
    (toString status).toList

/-- The marker that a terminal is sent for the body. -/
def oscMarkerBytes (body : List Char) (t : OscTerminator) : List UInt8 :=
  oscPrefix ++ encode body ++ t.bytes

/-- An id that can be written into a marker. -/
structure OscId (id : List Char) : Prop where
  nonempty : id ≠ []
  bounded : len id ≤ 128
  separator : ';' ∉ id
  bel : '\x07' ∉ id
  esc : '\x1b' ∉ id

/-! ## Reading it back -/

def startMarker (id : List Char) (start stop : Nat) : OscMarker :=
  { start, stop, id, kind := .start, command := true, status := none, exitCode := none }

def endMarker (id : List Char) (token : OscExit) (status : Int) (start stop : Nat) : OscMarker :=
  { start, stop, id, kind := .stop, command := false, status := some token.text,
    exitCode := some status }

theorem unterminated_encode {cs : List Char} (hbel : '\x07' ∉ cs) (hesc : '\x1b' ∉ cs) :
    Unterminated (encode cs) := by
  constructor
  · intro hmem
    obtain ⟨c, hc, hval⟩ := exists_char_of_mem_encode (by decide) hmem
    obtain rfl : c = '\x07' := Char.toNat_inj.mp hval
    exact hbel hc
  · intro hin
    have hmem : 0x1b ∈ encode cs := hin.subset List.mem_cons_self
    obtain ⟨c, hc, hval⟩ := exists_char_of_mem_encode (by decide) hmem
    obtain rfl : c = '\x1b' := Char.toNat_inj.mp hval
    exact hesc hc

section Written

variable {id : List Char}

theorem parse_startBody (h : OscId id) (start stop : Nat) :
    parseOscMarker start stop (startBody id) =
      some (startMarker id start stop) := by
  have hfirst : ';' ∉ "start=".toList ++ id := by
    rw [List.mem_append, not_or]
    exact ⟨by decide, h.separator⟩
  have hsplit : splitFields ';' (startBody id) =
      ["start=".toList ++ id, "type=command".toList] := by
    show splitFields ';' ("start=".toList ++ id ++ ';' :: "type=command".toList) = _
    rw [splitFields_append hfirst]
    rfl
  have hid : ¬(id.isEmpty ∨ 128 < len id) := by
    rw [List.isEmpty_iff, not_or, Nat.not_lt]
    exact ⟨h.nonempty, h.bounded⟩
  unfold parseOscMarker oscHeader
  rw [hsplit]
  dsimp only
  rw [stripPrefix_append]
  dsimp only
  rw [if_neg hid]
  rfl

theorem read_exit (token : OscExit) :
    OscFields.read {} ("exit=".toList ++ token.text.toList) = { status := some token.text } := by
  cases token <;> rfl

theorem read_status (f : OscFields) (value : List Char) :
    f.read ("status=".toList ++ value) = { f with exitCode := parseI32 value } := by
  have hother (word : String) (hword : word.toList.head? ≠ some 's') :
      "status=".toList ++ value ≠ word.toList := by
    intro heq
    exact hword (heq ▸ rfl)
  unfold OscFields.read
  rw [if_neg (hother _ (by decide)), if_neg (hother _ (by decide)), if_neg (hother _ (by decide)),
    stripPrefix_append]

theorem endBody_eq (id : List Char) (token : OscExit) (status : Int) :
    endBody id token status = "end=".toList ++ id ++ ';' ::
      ("exit=".toList ++ token.text.toList ++ ';' ::
        ("status=".toList ++ (toString status).toList)) := by
  show "end=".toList ++ id ++ ";exit=".toList ++ token.text.toList ++ ";status=".toList ++
    (toString status).toList = _
  simp

theorem parse_endBody (h : OscId id) (token : OscExit) {status : Int}
    (hlow : -2147483648 ≤ status) (hhigh : status ≤ 2147483647) (start stop : Nat) :
    parseOscMarker start stop (endBody id token status) =
      some (endMarker id token status start stop) := by
  have hfirst : ';' ∉ "end=".toList ++ id := by
    rw [List.mem_append, not_or]
    exact ⟨by decide, h.separator⟩
  have hexit : ';' ∉ "exit=".toList ++ token.text.toList := by cases token <;> decide
  have hstatus : ';' ∉ "status=".toList ++ (toString status).toList := by
    rw [List.mem_append, not_or]
    exact ⟨by decide, not_mem_toString (by decide) (by decide)⟩
  have hsplit : splitFields ';' (endBody id token status) =
      ["end=".toList ++ id, "exit=".toList ++ token.text.toList,
        "status=".toList ++ (toString status).toList] := by
    rw [endBody_eq, splitFields_append hfirst, splitFields_append hexit,
      splitFields_of_not_mem hstatus]
  have hid : ¬(id.isEmpty ∨ 128 < len id) := by
    rw [List.isEmpty_iff, not_or, Nat.not_lt]
    exact ⟨h.nonempty, h.bounded⟩
  have hheader : oscHeader ("end=".toList ++ id) = some (.stop, id) := by
    unfold oscHeader
    have hstart : stripPrefix "start=".toList ("end=".toList ++ id) = none := rfl
    rw [hstart, stripPrefix_append]
    rfl
  unfold parseOscMarker
  rw [hsplit]
  dsimp only
  rw [hheader]
  dsimp only
  rw [if_neg hid, List.foldl_cons, List.foldl_cons, List.foldl_nil, read_exit, read_status,
    parseI32_toString hlow hhigh]
  rfl

theorem unterminated_startBody (h : OscId id) : Unterminated (encode (startBody id)) := by
  have hmiss (c : Char) (hstart : c ∉ "start=".toList) (hid : c ∉ id)
      (htype : c ∉ ";type=command".toList) : c ∉ startBody id := by
    show c ∉ "start=".toList ++ id ++ ";type=command".toList
    rw [List.mem_append, List.mem_append, not_or, not_or]
    exact ⟨⟨hstart, hid⟩, htype⟩
  apply unterminated_encode
  · exact hmiss _ (by decide) h.bel (by decide)
  · exact hmiss _ (by decide) h.esc (by decide)

theorem unterminated_endBody (h : OscId id) (token : OscExit) (status : Int) :
    Unterminated (encode (endBody id token status)) := by
  have hmiss (c : Char) (hend : c ∉ "end=".toList) (hid : c ∉ id) (hseparator : c ≠ ';')
      (hexit : c ∉ "exit=".toList) (htoken : c ∉ token.text.toList) (hstatus : c ∉ "status=".toList)
      (hnumber : c ∉ (toString status).toList) : c ∉ endBody id token status := by
    rw [endBody_eq]
    simp only [List.mem_append, List.mem_cons, not_or]
    exact ⟨⟨hend, hid⟩, hseparator, ⟨hexit, htoken⟩, hseparator, hstatus, hnumber⟩
  apply unterminated_encode
  · exact hmiss _ (by decide) h.bel (by decide) (by decide) (by cases token <;> decide) (by decide)
      (not_mem_toString (by decide) (by decide))
  · exact hmiss _ (by decide) h.esc (by decide) (by decide) (by cases token <;> decide) (by decide)
      (not_mem_toString (by decide) (by decide))

theorem Markers.written {pos : Nat} {gap rest : List UInt8} {body : List Char}
    {spans : List OscSpan} {cut : Bool} (hgap : Unmarked gap)
    (hbody : Unterminated (encode body)) (t : OscTerminator)
    (tail : Markers (pos + (gap ++ oscMarkerBytes body t).length) rest spans cut) :
    Markers pos (gap ++ oscMarkerBytes body t ++ rest)
      (⟨pos + gap.length, encode body, pos + (gap ++ oscMarkerBytes body t).length⟩ :: spans)
      cut := by
  refine .marker (t := t) ?_ hgap hbody ?_ tail
  · simp [oscMarkerBytes]
  · simp [oscMarkerBytes, Nat.add_assoc]

theorem isCommand_written {token : OscExit} {status : Int} {start stop start' stop' : Nat}
    (h : stop ≤ start') :
    IsCommand [startMarker id start stop, endMarker id token status start' stop']
      (startMarker id start stop) (endMarker id token status start' stop') where
  starts := rfl
  stops := by simp [startMarker, endMarker, h]

/-- A command between output without a prefix is read back, whichever terminators end its
markers. -/
theorem parse_written {pre out post : List UInt8} (hpre : Unmarked pre) (hout : Unmarked out)
    (hpost : Unmarked post) (h : OscId id) (token : OscExit) {status : Int}
    (hlow : -2147483648 ≤ status) (hhigh : status ≤ 2147483647) (t t' : OscTerminator) :
    parseOneOsc3008Command (pre ++ oscMarkerBytes (startBody id) t ++ out ++
        oscMarkerBytes (endBody id token status) t' ++ post) =
      some { output := out, status := some token.text, exitCode := some status } := by
  have hmarkers : Markers 0 _ _ _ := .written hpre (unterminated_startBody h) t
    (.written hout (unterminated_endBody h token status) t' (.plain hpost))
  have hassoc : pre ++ oscMarkerBytes (startBody id) t ++
      (out ++ oscMarkerBytes (endBody id token status) t' ++ post) =
        pre ++ oscMarkerBytes (startBody id) t ++ out ++
          oscMarkerBytes (endBody id token status) t' ++ post := by simp
  rw [hassoc, Nat.zero_add, Nat.zero_add] at hmarkers
  have hstart (start stop : Nat) : OscSpan.marker ⟨start, encode (startBody id), stop⟩ =
      some (startMarker id start stop) := by
    unfold OscSpan.marker
    rw [fromUtf8_encode]
    exact parse_startBody h start stop
  have hend (start stop : Nat) : OscSpan.marker ⟨start, encode (endBody id token status), stop⟩ =
      some (endMarker id token status start stop) := by
    unfold OscSpan.marker
    rw [fromUtf8_encode]
    exact parse_endBody h token hlow hhigh start stop
  have hslice : slice (pre ++ oscMarkerBytes (startBody id) t ++ out ++
      oscMarkerBytes (endBody id token status) t' ++ post)
      (pre ++ oscMarkerBytes (startBody id) t).length
      ((pre ++ oscMarkerBytes (startBody id) t).length + out.length) = some out := by
    have hdrop : (pre ++ oscMarkerBytes (startBody id) t ++ out ++
        oscMarkerBytes (endBody id token status) t' ++ post).drop
          (pre ++ oscMarkerBytes (startBody id) t).length =
        out ++ (oscMarkerBytes (endBody id token status) t' ++ post) := by
      rw [← hassoc, List.drop_left, List.append_assoc]
    refine (slice_eq ?_ hdrop).1
    simp only [List.length_append]
    omega
  rw [parseOneOsc3008Command_iff hmarkers]
  refine ⟨rfl, [_, _], startMarker id pre.length _,
    endMarker id token status _ ((pre ++ oscMarkerBytes (startBody id) t).length +
      (out ++ oscMarkerBytes (endBody id token status) t').length), ?_,
    isCommand_written (Nat.le_add_right ..), hslice, rfl, rfl⟩
  exact congrArg₂ (fun m m' => [m, m']) (hstart _ _) (hend _ _)

end Written

/-- A transcript without a command claims neither a status nor an exit code. -/
theorem analyzeTranscript_unclaimed {raw : List UInt8} {e : LineEnding} {echoMode : EchoMode}
    {prompt : SemanticPrompt} (h : prompt = .osc3008 → parseOneOsc3008Command raw = none) :
    (analyzeTranscript raw e echoMode prompt).semanticStatus = none ∧
      (analyzeTranscript raw e echoMode prompt).exitCode = none := by
  have hnone : (if prompt = .osc3008 then parseOneOsc3008Command raw else none) = none := by
    split_ifs with hprompt
    · exact h hprompt
    · rfl
  unfold analyzeTranscript
  dsimp only
  rw [hnone]
  exact ⟨rfl, rfl⟩

/-- A command that is written between other output is read back. Whatever the transcript, it
is scanned within its length and no slice is out of range. Where a command is returned, the
transcript is cut into markers, which are all whole and well formed and which every prefix
lies in; one of them starts a command and one behind it ends it, and the output is what lies
between the two. Without a command no status is claimed. -/
theorem osc3008_command :
    (∀ pre out post id token status t t', Unmarked pre → Unmarked out → Unmarked post →
      OscId id → -2147483648 ≤ status → status ≤ 2147483647 →
      parseOneOsc3008Command (pre ++ oscMarkerBytes (startBody id) t ++ out ++
        oscMarkerBytes (endBody id token status) t' ++ post) =
          some { output := out, status := some token.text, exitCode := some status }) ∧
    (∀ raw, parseOneOsc3008CommandChecked raw = some (parseOneOsc3008Command raw)) ∧
    (∀ raw, ∃ spans cut, Markers 0 raw spans cut ∧
      (∀ spans' cut', Markers 0 raw spans' cut' → spans' = spans ∧ cut' = cut) ∧
      ∀ cmd, parseOneOsc3008Command raw = some cmd → cut = false ∧
        (∀ p, EndsAt oscPrefix raw p →
          ∃ s ∈ spans, s.start + oscPrefix.length ≤ p ∧ p ≤ s.stop) ∧
        ∃ markers start stop, spans.map OscSpan.marker = markers.map some ∧
          IsCommand markers start stop ∧ slice raw start.stop stop.start = some cmd.output ∧
          cmd.status = stop.status ∧ cmd.exitCode = stop.exitCode) ∧
    (∀ raw e echoMode prompt, (prompt = .osc3008 → parseOneOsc3008Command raw = none) →
      (analyzeTranscript raw e echoMode prompt).semanticStatus = none ∧
        (analyzeTranscript raw e echoMode prompt).exitCode = none) := by
  refine ⟨?_, parseOneOsc3008CommandChecked_eq, fun raw => ?_,
    fun raw e echoMode prompt => analyzeTranscript_unclaimed⟩
  · intro pre out post id token status t t' hpre hout hpost hid hlow hhigh
    exact parse_written hpre hout hpost hid token hlow hhigh t t'
  · obtain ⟨spans, cut, h⟩ := exists_markers 0 raw
    refine ⟨spans, cut, h, fun spans' cut' h' => h'.unique h, fun cmd hcmd => ?_⟩
    obtain ⟨hcut, hcommand⟩ := (parseOneOsc3008Command_iff h).mp hcmd
    refine ⟨hcut, fun p hp => ?_, hcommand⟩
    simpa using h.covers hcut hp

theorem osc3008_command_echo :
    parseOneOsc3008Command ([101, 10] ++ oscMarkerBytes (startBody ['a', 'é']) .st ++ [79, 75] ++
      oscMarkerBytes (endBody ['a', 'é'] .failure (-1)) .bel ++ [35]) =
        some { output := [79, 75], status := some "failure", exitCode := some (-1) } := by
  refine osc3008_command.1 _ _ _ _ .failure _ _ _ ?_ ?_ ?_ ?_ (by decide) (by decide)
  · intro h
    exact absurd h.length_le (by decide)
  · intro h
    exact absurd h.length_le (by decide)
  · intro h
    exact absurd h.length_le (by decide)
  · exact ⟨by decide, by decide, by decide, by decide, by decide⟩

end McpSerial
