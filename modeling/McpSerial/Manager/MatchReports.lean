import McpSerial.Manager.Intake

/-! What the pattern-driven operations report: when the status and the match details
agree, and how the end of the echoed line bounds them. -/

namespace McpSerial
open Interaction Interaction.Program Interaction.Discipline Utf8 Sliding

variable {regex : Regex} {echoMode : EchoMode} {e : LineEnding} {chunks : List (List UInt8)}

/-! ## Status and details -/

theorem isSome_matchDetails_of_empty {m : PatternMatcher} (h : m.live = []) :
    m.matchDetails.isSome = m.regex.isMatch [] := by
  rw [PatternMatcher.matchDetails_eq, h]
  have hfind := m.findFrom_append [] []
  show (m.findFrom ([] ++ []) (len [])).isSome = _
  rw [hfind, Option.isSome_map, isSome_leftmost]

theorem echoLineBoundary_nil (e : LineEnding) : echoLineBoundary [] e = none := by
  cases e <;> rfl

/-- Status and details agree unless the read was over before it read anything, and the
regex matches the empty text. -/
theorem UntilSpec.agree_iff {o : UntilOutcome} (h : UntilSpec regex echoMode e chunks o) :
    (o.status = .matched ↔ o.matchDetails.isSome) ↔
      ¬(echoMode ≠ .line ∧ regex.isMatch [] ∧ chunks = []) := by
  by_cases hempty : chunks = []
  · have hstatus := h.silent hempty
    obtain ⟨seen, htracks, hdetails⟩ := h.tracks
    subst hempty
    simp only [hstatus, false_iff, hdetails, isSome_visibleMatchDetails]
    by_cases hline : echoMode = .line
    · -- nothing is read, so the echoed line has not ended
      have hunseen : seen = false := by
        by_contra hseen
        obtain ⟨p, hp, _⟩ := htracks.crossed (eq_true_of_ne_false hseen) hline
        rw [List.flatten_nil, echoLineBoundary_nil] at hp
        cases hp
      simp [hunseen, hline]
    · have hseen : seen = true := by
        by_contra hfalse
        exact hline (htracks.waiting (eq_false_of_ne_true hfalse)).1
      have hmatch : o.matcher.isMatch = regex.isMatch [] := by
        rw [PatternMatcher.isMatch, isSome_matchDetails_of_empty htracks.live, htracks.regex_eq]
      simp [hseen, hline, hmatch]
  · simp [h.agree hempty, hempty]

section Runs

variable {rx : RegexCrate} {es : List Ask} {o : ExecOutcome}

theorem readUntilWithCancel_spec {id pattern : String} {timeoutMs : Nat} {token : Token}
    (h : Runs (readUntilWithCancel rx id pattern timeoutMs token).run es (ret (.ok o))) :
    (Intake.run es).before = [] ∧ ∃ regex, boundedRegex rx pattern = .ok regex ∧
      ∃ found, UntilSpec regex .unknown .none (Intake.run es).chunks found ∧ Presents found o ∧
        o.clearedBeforeWrite = none :=
  (intake_readUntilWithCancel rx id pattern timeoutMs token).returns h

theorem execWithOptions_spec {id expect : String} {command : List UInt8} {timeoutMs : Nat}
    {options : ExecOptions} {token : Token}
    (h : Runs (execWithOptions rx id command expect timeoutMs options token).run es
      (ret (.ok o))) :
    ∃ regex, boundedRegex rx expect = .ok regex ∧
      RunSpec regex options.echoMode options.lineEnding (Intake.run es) o :=
  (intake_execWithOptions rx id command expect timeoutMs options token).returns h

theorem Presents.agree_iff {found : UntilOutcome} (h : Presents found o) :
    (o.status = .matched ↔ o.matchDetails.isSome) ↔
      (found.status = .matched ↔ found.matchDetails.isSome) := by
  rw [h.status, h.details]

/-- The status of `read_until` and `exec` agrees with the match details unless all output
may match, the regex matches the empty text, and the deadline or a cancellation ended the
wait before a read came back. -/
theorem status_agrees_iff (rx : RegexCrate) :
    (∀ id pattern timeoutMs token regex es o, boundedRegex rx pattern = .ok regex →
      Runs (readUntilWithCancel rx id pattern timeoutMs token).run es (ret (.ok o)) →
      ((o.status = .matched ↔ o.matchDetails.isSome) ↔
        ¬(regex.isMatch [] ∧ (Intake.run es).chunks = []))) ∧
    (∀ id command expect timeoutMs options token regex es o,
      boundedRegex rx expect = .ok regex →
      Runs (execWithOptions rx id command expect timeoutMs options token).run es (ret (.ok o)) →
      ((o.status = .matched ↔ o.matchDetails.isSome) ↔
        ¬(options.echoMode ≠ .line ∧ regex.isMatch [] ∧ (Intake.run es).flushed ∧
          (Intake.run es).chunks = []))) := by
  constructor
  · intro id pattern timeoutMs token regex es o hregex h
    obtain ⟨_, regex', hregex', found, hfound, hpresents, _⟩ := readUntilWithCancel_spec h
    obtain rfl := Except.ok.inj (hregex.symm.trans hregex')
    rw [hpresents.agree_iff, hfound.agree_iff]
    simp
  · intro id command expect timeoutMs options token regex es o hregex h
    obtain ⟨regex', hregex', hspec⟩ := execWithOptions_spec h
    obtain rfl := Except.ok.inj (hregex.symm.trans hregex')
    cases hspec with
    | unread hunsent =>
      -- cancelled before anything was written, with neither a match nor its details
      simp [hunsent, cancelledBeforeWrite]
    | read hsent _ hfound hpresents =>
      rw [hpresents.agree_iff, hfound.agree_iff]
      simp [hsent]

end Runs

def silentRead : List Ask :=
  [⟨.get firstId, some firstSession⟩, ⟨.timeLeft, true⟩, ⟨.lock (0 : Nat) .never, .ready ()⟩,
    ⟨.get firstId, some firstSession⟩, ⟨.turns, (1 : Nat)⟩,
    ⟨.read (0 : Nat) chunkLen .never, .elapsed⟩, ⟨.elapsedMs, (5 : Nat)⟩,
    ⟨.unlock (0 : Nat), ()⟩]

def silentExec : List Ask :=
  [⟨.get firstId, some firstSession⟩, ⟨.isCancelled .never, false⟩, ⟨.timeLeft, true⟩,
    ⟨.lock (0 : Nat) .never, .ready ()⟩, ⟨.get firstId, some firstSession⟩,
    ⟨.isCancelled .never, false⟩, ⟨.timeLeft, true⟩, ⟨.cancelPicked .never, false⟩,
    ⟨.write (0 : Nat) [97, 10] .never, .ready (.ok ⟨2, by decide⟩)⟩, ⟨.timeLeft, true⟩,
    ⟨.flush (0 : Nat) .never, .ready (.ok ())⟩, ⟨.turns, (1 : Nat)⟩,
    ⟨.read (0 : Nat) chunkLen .never, .elapsed⟩, ⟨.elapsedMs, (5 : Nat)⟩,
    ⟨.unlock (0 : Nat), ()⟩]

theorem silentRead_runs : ∃ o,
    Runs (readUntilWithCancel emptyRegexes firstId "x*" 5 .never).run silentRead (ret (.ok o)) ∧
      o.status = .timedOut ∧ o.matchDetails.isSome :=
  ⟨_, .step (.step (.step (.step (.step (.step (.step (.step (.refl _)))))))), rfl, rfl⟩

theorem silentExec_runs : ∃ o,
    Runs (execWithOptions emptyRegexes firstId [97, 10] "x*" 5 plainOptions .never).run silentExec
      (ret (.ok o)) :=
  ⟨_, .step (.step (.step (.step (.step (.step (.step (.step (.step (.step (.step (.step (.step
    (.step (.step (.refl _)))))))))))))))⟩

theorem status_disagrees_silent :
    (∃ o, Runs (readUntilWithCancel emptyRegexes firstId "x*" 5 .never).run silentRead
      (ret (.ok o)) ∧ ¬(o.status = .matched ↔ o.matchDetails.isSome)) ∧
    (∃ o, Runs (execWithOptions emptyRegexes firstId [97, 10] "x*" 5 plainOptions .never).run
      silentExec (ret (.ok o)) ∧ ¬(o.status = .matched ↔ o.matchDetails.isSome)) := by
  obtain ⟨hread, hexec⟩ := status_agrees_iff emptyRegexes
  obtain ⟨o, hruns, _⟩ := silentRead_runs
  obtain ⟨o', hruns'⟩ := silentExec_runs
  refine ⟨⟨o, hruns, ?_⟩, o', hruns', ?_⟩
  · rw [hread _ _ _ _ emptyRegex _ _ rfl hruns, not_not]
    exact ⟨rfl, rfl⟩
  · rw [hexec _ _ _ _ _ _ emptyRegex _ _ rfl hruns', not_not]
    exact ⟨by decide, rfl, rfl, rfl⟩

/-- The deadline passes before a read comes back: the status is no match, and the details
are those of the empty match. -/
theorem silent_read_until_reports_match : ∃ o,
    Runs (readUntilWithCancel emptyRegexes firstId "x*" 5 .never).run silentRead (ret (.ok o)) ∧
      ¬(o.status = .matched ↔ o.matchDetails.isSome) := by
  obtain ⟨o, hruns, hstatus, hdetails⟩ := silentRead_runs
  exact ⟨o, hruns, by simp [hstatus, hdetails]⟩

/-! ## The end of the echoed line -/

theorem LineEnding.bytes_eq_concat (he : e ≠ .none) :
    ∃ init last, e.bytes = init ++ [last] ∧ last.toNat < 128 := by
  cases e with
  | none => exact absurd rfl he
  | lf => exact ⟨[], 10, rfl, by decide⟩
  | cr => exact ⟨[], 13, rfl, by decide⟩
  | crlf => exact ⟨[13], 10, rfl, by decide⟩

/-- What the window holds of the echoed line ends with the terminator's last byte, and
nothing before it is mapped behind it. -/
theorem len_echo_le_mapOffset {stream : List UInt8} {p : Nat} (he : e ≠ .none)
    (hp : EndsAt e.bytes stream p) :
    let window := stream.rtake maxReadBuffer
    len (fromUtf8Lossy (window.take (p - slid stream))) ≤
      mapOffset (pieces window) (p - slid stream) := by
  dsimp only
  by_cases hslid : p ≤ slid stream
  · rw [Nat.sub_eq_zero_of_le hslid]
    exact Nat.zero_le _
  obtain ⟨init, last, hbytes, hlast⟩ := LineEnding.bytes_eq_concat he
  obtain ⟨front, hfront⟩ := hp.2
  have hecho : (stream.rtake maxReadBuffer).take (p - slid stream) =
      (front ++ init).drop (slid stream) ++ [last] := by
    have hle : slid stream ≤ (front ++ init).length := by
      have hlength := congrArg List.length hfront
      have hpos := hp.1
      rw [hbytes, List.length_append, List.length_append, List.length_take] at hlength
      simp only [List.length_singleton, List.length_append] at hlength ⊢
      omega
    rw [List.rtake, ← slid, ← List.drop_take, ← hfront, hbytes, ← List.append_assoc,
      List.drop_append_of_le_length hle]
  have hlength := congrArg List.length hecho
  have hsplit := List.take_append_drop (p - slid stream) (stream.rtake maxReadBuffer)
  have hin : p - slid stream ≤ (stream.rtake maxReadBuffer).length := by
    have hpos := hp.1
    rw [rtake_length]
    unfold slid
    omega
  rw [List.length_take, Nat.min_eq_left hin] at hlength
  rw [hecho] at hsplit ⊢
  rw [← hsplit]
  have hmap := len_le_mapOffset hlast ((front ++ init).drop (slid stream))
    ((stream.rtake maxReadBuffer).drop (p - slid stream))
  rwa [← hlength] at hmap

/-- In echo mode `line` nothing matches before the echoed line has ended in the stream.
From then on the search starts where it ended, or with the window once that has slid past
it, and no match that is reported reaches back into the text of the echoed line. -/
theorem echo_excluded (regex : Regex) (he : e ≠ .none) {port : Handle} {token : Token}
    {es : List Ask} {o : UntilOutcome}
    (h : Runs (readUntilLocked port { regex, maxBuffer := maxReadBuffer } token .line e).run es
      (ret (.ok o))) :
    let stream := es.flatMap obtained
    o.matcher.intoBuffer = stream.drop (slid stream) ∧
    (o.status = .matched → ∃ p, FirstEnd e.bytes stream p) ∧
    (∀ p, FirstEnd e.bytes stream p →
      slid stream + o.matcher.searchStart = max p (slid stream)) ∧
    ∀ d, o.matchDetails = some d → ∃ p, FirstEnd e.bytes stream p ∧
      len (fromUtf8Lossy (o.matcher.intoBuffer.take (p - slid stream))) ≤ d.startByte := by
  obtain ⟨chunks, hstate, hspec⟩ := (intake_readUntilLocked {} regex .line e).returns h
  have hstream : chunks.flatten = es.flatMap obtained := by
    rw [← Intake.run_bytes, show Intake.run es = _ from hstate]
    simp [Intake.bytes]
  obtain ⟨seen, htracks, hdetails⟩ := hspec.tracks
  rw [hstream] at htracks
  have hfirst (hseen : seen = true) : ∃ p, FirstEnd e.bytes (es.flatMap obtained) p ∧
      o.matcher.searchStart = p - slid (es.flatMap obtained) := by
    obtain ⟨p, hp, hstart⟩ := htracks.crossed hseen rfl
    exact ⟨p, (echoLineBoundary_eq_some.mp hp).2, hstart⟩
  refine ⟨htracks.live, fun hmatched => ?_, fun p hp => ?_, fun d hd => ?_⟩
  · by_cases hempty : chunks = []
    · exact absurd hmatched (hspec.silent hempty)
    · have hsome := (hspec.agree hempty).mp hmatched
      rw [hdetails, isSome_visibleMatchDetails, Bool.and_eq_true] at hsome
      obtain ⟨p, hp, _⟩ := hfirst hsome.1
      exact ⟨p, hp⟩
  · cases hseen : seen with
    | false =>
      have hnone := (htracks.waiting hseen).2
      rw [echoLineBoundary_eq_some.mpr ⟨he, hp⟩] at hnone
      cases hnone
    | true =>
      obtain ⟨q, hq, hstart⟩ := hfirst hseen
      rw [hstart, hp.unique hq]
      omega
  · rw [hdetails] at hd
    -- a match is visible only once the echoed line has ended
    have hseen : seen = true := by
      by_contra hfalse
      rw [eq_false_of_ne_true hfalse] at hd
      cases hd
    rw [hseen] at hd
    obtain ⟨p, hp, hstart⟩ := hfirst hseen
    refine ⟨p, hp, ?_⟩
    obtain ⟨_, hbehind⟩ := PatternMatcher.matchDetails_slice hd
    rw [PatternMatcher.intoBuffer_eq, htracks.live]
    refine (len_echo_le_mapOffset he hp.ends).trans (le_trans (le_of_eq ?_) hbehind)
    rw [htracks.live, hstart, Nat.min_eq_left]
    have hle := hp.ends.1
    rw [rtake_length]
    unfold slid
    omega

/-! ### An echo that the window slides past -/

def neverRegex : Regex := ⟨fun _ => none⟩

theorem isMatch_of_never {m : PatternMatcher} (h : m.regex = neverRegex) : m.isMatch = false := by
  rw [PatternMatcher.isMatch, PatternMatcher.matchDetails_eq, PatternMatcher.findFrom, h]
  rfl

abbrev ReadChunk := {bytes : List UInt8 // bytes.length ≤ chunkLen}

def readEvent (port : Handle) (token : Token) (bytes : ReadChunk) : Ask :=
  ⟨.read port chunkLen token, .ready (.ok bytes)⟩

theorem readUntilLoop_unmatched {port : Handle} {token : Token} {m : PatternMatcher} {n : Nat}
    {seen : Bool} (hregex : m.regex = neverRegex) (bytes : List ReadChunk)
    (hne : ∀ b ∈ bytes, b.1 ≠ []) :
    ∃ o, Runs (readUntilLoop port token e bytes.length m n seen).run
      (bytes.map (readEvent port token)) (ret (.ok o)) := by
  induction bytes generalizing m n seen with
  | nil => exact ⟨_, .refl _⟩
  | cons b bytes ih =>
    have hempty : ¬b.1.isEmpty = true := by simpa using hne b List.mem_cons_self
    have ih (m : PatternMatcher) (hm : m.regex = neverRegex) (n : Nat) (seen : Bool) :
        ∃ o, Runs (readUntilLoop port token e bytes.length m n seen).run
          (bytes.map (readEvent port token)) (ret (.ok o)) :=
      ih hm fun c hc => hne c (List.mem_cons_of_mem b hc)
    have hpush : (m.pushWithoutMatching b.1).regex = neverRegex := by
      rw [PatternMatcher.push_regex, hregex]
    cases seen with
    | true =>
      obtain ⟨o, ho⟩ := ih _ hpush (n + b.1.length) true
      refine ⟨o, .step ?_⟩
      show Runs (if b.1.isEmpty then _ else if (m.pushWithoutMatching b.1).isMatch then _
        else readUntilLoop port token e bytes.length _ _ true : Op UntilOutcome).run _ _
      rw [if_neg hempty, if_neg (by rw [isMatch_of_never hpush]; decide)]
      exact ho
    | false =>
      cases hb : echoLineBoundary (m.pushWithoutMatching b.1).live e with
      | none =>
        -- the echoed line has not ended, so nothing is searched
        obtain ⟨o, ho⟩ := ih _ hpush (n + b.1.length) false
        refine ⟨o, .step ?_⟩
        show Runs
          (if b.1.isEmpty then _ else if false = true then _ else _ : Op UntilOutcome).run _ _
        rw [if_neg hempty, if_neg (by decide)]
        dsimp only
        rw [hb]
        exact ho
      | some boundary =>
        have hset : ((m.pushWithoutMatching b.1).setSearchStart boundary).regex = neverRegex :=
          hpush
        obtain ⟨o, ho⟩ := ih _ hset (n + b.1.length) true
        refine ⟨o, .step ?_⟩
        show Runs
          (if b.1.isEmpty then _ else if false = true then _ else _ : Op UntilOutcome).run _ _
        rw [if_neg hempty, if_neg (by decide)]
        dsimp only
        rw [hb]
        show Runs (if ((m.pushWithoutMatching b.1).setSearchStart boundary).isMatch then _
          else _ : Op UntilOutcome).run _ _
        rw [if_neg (by rw [isMatch_of_never hset]; decide)]
        exact ho

theorem readUntilLocked_unmatched {port : Handle} {token : Token} {m : PatternMatcher}
    {echoMode : EchoMode} (hregex : m.regex = neverRegex) (bytes : List ReadChunk)
    (hne : ∀ b ∈ bytes, b.1 ≠ []) :
    ∃ o, Runs (readUntilLocked port m token echoMode e).run
      (⟨.turns, bytes.length⟩ :: bytes.map (readEvent port token)) (ret (.ok o)) := by
  have hloop : ∃ o, Runs (readUntilLoop port token e bytes.length m 0 (echoMode ≠ .line)).run
      (bytes.map (readEvent port token)) (ret (.ok o)) := readUntilLoop_unmatched hregex bytes hne
  obtain ⟨o, ho⟩ := hloop
  exact ⟨o, .step ho⟩

theorem obtained_readEvents (port : Handle) (token : Token) (bytes : List ReadChunk) :
    (bytes.map (readEvent port token)).flatMap obtained = bytes.flatMap Subtype.val := by
  rw [List.flatMap_map]
  rfl

def fullChunk : ReadChunk := ⟨List.replicate chunkLen 97, Nat.le_of_eq List.length_replicate⟩

/-- An echoed line that is one terminator, and `k` full chunks of output. -/
def longOutput (k : Nat) : List ReadChunk := ⟨[10], by decide⟩ :: List.replicate k fullChunk

def longRead (k : Nat) : List Ask :=
  ⟨.turns, (longOutput k).length⟩ :: (longOutput k).map (readEvent (0 : Nat) .never)

section LongRead

variable (k : Nat)

theorem longOutput_bytes :
    (longOutput k).flatMap Subtype.val = 10 :: List.replicate (k * chunkLen) 97 := by
  rw [longOutput, List.flatMap_cons, List.flatMap_replicate,
    show fullChunk.1 = List.replicate chunkLen 97 from rfl, List.flatten_replicate_replicate]
  rfl

theorem longRead_obtained :
    (longRead k).flatMap obtained = 10 :: List.replicate (k * chunkLen) 97 := by
  rw [← longOutput_bytes, ← obtained_readEvents (0 : Nat) .never]
  rfl

theorem longOutput_ne_nil : ∀ b ∈ longOutput k, b.1 ≠ [] := by
  intro b hb
  rcases List.mem_cons.mp hb with rfl | hb
  · exact List.cons_ne_nil 10 []
  · rw [(List.mem_replicate.mp hb).2]
    exact List.cons_ne_nil 97 (List.replicate 4095 97)

theorem longRead_runs : ∃ o, Runs (readUntilLocked (0 : Nat)
      { regex := neverRegex, maxBuffer := maxReadBuffer } .never .line .lf).run (longRead k)
    (ret (.ok o)) :=
  readUntilLocked_unmatched rfl (longOutput k) (longOutput_ne_nil k)

theorem longRead_firstEnd : FirstEnd LineEnding.lf.bytes ((longRead k).flatMap obtained) 1 := by
  rw [longRead_obtained]
  exact ⟨endsAt_length.mpr ⟨_, rfl⟩, fun q hq => hq.length_le⟩

theorem longRead_slid :
    slid ((longRead k).flatMap obtained) = k * chunkLen + 1 - maxReadBuffer := by
  rw [longRead_obtained, slid, List.length_cons, List.length_replicate]

end LongRead

theorem echo_excluded_long : ∃ o : UntilOutcome,
    slid ((longRead 17).flatMap obtained) + o.matcher.searchStart = max 1 4097 := by
  obtain ⟨o, h⟩ := longRead_runs 17
  have hstart := (echo_excluded neverRegex (e := .lf) (by decide) h).2.2.1 1 (longRead_firstEnd 17)
  refine ⟨o, hstart.trans ?_⟩
  rw [longRead_slid]
  decide

/-- The echoed line ends at position 1 of the stream. Behind 69633 bytes the search starts
at position 4097, where the window starts. -/
theorem search_start_slides_past_echo : ∃ o : UntilOutcome,
    Runs (readUntilLocked (0 : Nat) { regex := neverRegex, maxBuffer := maxReadBuffer } .never
      .line .lf).run (longRead 17) (ret (.ok o)) ∧
    FirstEnd LineEnding.lf.bytes ((longRead 17).flatMap obtained) 1 ∧
    slid ((longRead 17).flatMap obtained) + o.matcher.searchStart ≠ 1 := by
  obtain ⟨o, h⟩ := longRead_runs 17
  refine ⟨o, h, longRead_firstEnd 17, ?_⟩
  rw [longRead_slid]
  have hslid : 17 * chunkLen + 1 - maxReadBuffer = 4097 := by decide
  omega

end McpSerial
