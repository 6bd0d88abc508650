import McpSerial.Console
import McpSerial.Text.Transducer
import Mathlib.Data.List.Induction

/-! Terminal normalization as a transducer, the texts in which it is outside every escape
sequence, and what it makes of a text. -/

namespace McpSerial

/-! ## The scanner -/

def scanNext : Scan → Char → Scan
  | .osc prevEsc, c =>
    if c = '\x07' ∨ (prevEsc ∧ c = '\\') then .text else .osc (c = '\x1b')
  | .csi, c => if '@' ≤ c ∧ c ≤ '~' then .text else .csi
  | .esc, c =>
    if c = ']' then .osc false
    else if c = '[' then .csi
    else if c = '\x1b' then .esc
    else .text
  | .text, c => if c = '\x1b' then .esc else .text

def scanEmit : Scan → Char → Option Char → List Char
  | .osc _, _, _ => []
  | .csi, _, _ => []
  | .esc, c, look =>
    if c = ']' then []
    else if c = '[' then []
    else if c = '\x1b' then []
    else plainChar c look []
  | .text, c, look => if c = '\x1b' then [] else plainChar c look []

def normalizer : Transducer Scan Char Char := ⟨scanNext, scanEmit⟩

@[simp] theorem normalizer_next : normalizer.next = scanNext := rfl

@[simp] theorem normalizer_emit : normalizer.emit = scanEmit := rfl

theorem plainChar_eq (c : Char) (look : Option Char) (out : List Char) :
    plainChar c look out = plainChar c look [] ++ out := by
  unfold plainChar
  split
  · split
    · rfl
    · rfl
  · rfl

theorem normalizeFrom_eq (s : Scan) (raw : List Char) :
    normalizeFrom s raw = normalizer.run s raw := by
  fun_induction normalizeFrom s raw with
  | case1 s => rfl
  | case2 prevEsc c cs hend ih => simp [normalizer.run_cons, scanNext, scanEmit, hend, ih]
  | case3 prevEsc c cs hend ih => simp [normalizer.run_cons, scanNext, scanEmit, hend, ih]
  | case4 c cs hend ih => simp [normalizer.run_cons, scanNext, scanEmit, hend, ih]
  | case5 c cs hend ih => simp [normalizer.run_cons, scanNext, scanEmit, hend, ih]
  | case6 cs ih => simp [normalizer.run_cons, scanNext, scanEmit, ih]
  | case7 cs hosc ih => simp [normalizer.run_cons, scanNext, scanEmit, ih]
  | case8 cs hosc hcsi ih => simp [normalizer.run_cons, scanNext, scanEmit, ih]
  | case9 c cs hosc hcsi hesc ih =>
    rw [plainChar_eq, ih, normalizer.run_cons]
    simp [scanNext, scanEmit, hosc, hcsi, hesc]
  | case10 cs ih => simp [normalizer.run_cons, scanNext, scanEmit, ih]
  | case11 c cs hesc ih =>
    rw [plainChar_eq, ih, normalizer.run_cons]
    simp [scanNext, scanEmit, hesc]

def scanned (raw : List Char) : Scan := normalizer.state .text raw

theorem scanned_concat (raw : List Char) (c : Char) :
    scanned (raw ++ [c]) = scanNext (scanned raw) c := normalizer.state_append _ _ _

/-! ## Outside an escape sequence -/

def CsiFinal (c : Char) : Prop := '@' ≤ c ∧ c ≤ '~'

/-- The body of an OSC sequence has reached its BEL or its ESC and backslash. -/
def OscClosed (body : List Char) : Prop := '\x07' ∈ body ∨ ['\x1b', '\\'] <:+: body

/-- A text that leaves no CSI or OSC sequence open: characters, of which none opens a
sequence behind an ESC, and sequences up to their ends. -/
inductive Outside : List Char → Prop
  | nil : Outside []
  | char {raw : List Char} (c : Char) (h : Outside raw)
      (hopen : raw.getLast? = some '\x1b' → c ≠ '[' ∧ c ≠ ']') : Outside (raw ++ [c])
  | csi {raw body : List Char} (c : Char) (h : Outside raw) (hbody : ∀ d ∈ body, ¬CsiFinal d)
      (hc : CsiFinal c) : Outside (raw ++ '\x1b' :: '[' :: body ++ [c])
  | osc {raw body : List Char} (c : Char) (h : Outside raw) (hbody : ¬OscClosed body)
      (hc : OscClosed (body ++ [c])) : Outside (raw ++ '\x1b' :: ']' :: body ++ [c])

/-- A text that ends in an unfinished CSI sequence. -/
def OpenCsi (raw : List Char) : Prop :=
  ∃ before body, raw = before ++ '\x1b' :: '[' :: body ∧ Outside before ∧
    ∀ d ∈ body, ¬CsiFinal d

theorem oscClosed_concat (body : List Char) (c : Char) :
    OscClosed (body ++ [c]) ↔
      OscClosed body ∨ c = '\x07' ∨ (body.getLast? = some '\x1b' ∧ c = '\\') := by
  have hpair : ['\x1b', '\\'] <:+ body ++ [c] ↔ body.getLast? = some '\x1b' ∧ c = '\\' := by
    constructor
    · rintro ⟨front, hfront⟩
      have hsplit : (front ++ ['\x1b']) ++ ['\\'] = body ++ [c] := by simpa using hfront
      obtain ⟨rfl, hc⟩ := List.append_inj' hsplit rfl
      exact ⟨by simp, (List.cons.inj hc).1.symm⟩
    · rintro ⟨hlast, rfl⟩
      obtain ⟨front, rfl⟩ := List.getLast?_eq_some_iff.mp hlast
      exact ⟨front, by simp⟩
  simp only [OscClosed, List.mem_append, List.mem_singleton, List.infix_concat_iff, hpair]
  tauto

theorem state_csi {body : List Char} (hbody : ∀ d ∈ body, ¬CsiFinal d) :
    normalizer.state .csi body = .csi := by
  induction body with
  | nil => rfl
  | cons d body ih =>
    have hd : scanNext .csi d = .csi := if_neg (hbody d List.mem_cons_self)
    rw [normalizer.state_cons, normalizer_next, hd]
    exact ih fun e he => hbody e (List.mem_cons_of_mem _ he)

theorem state_osc {body : List Char} (hbody : ¬OscClosed body) :
    normalizer.state (.osc false) body = .osc (body.getLast? = some '\x1b') := by
  induction body using List.reverseRecOn with
  | nil => rfl
  | append_singleton body c ih =>
    rw [oscClosed_concat, not_or] at hbody
    obtain ⟨hbody, hc⟩ := hbody
    rw [normalizer.state_append, ih hbody]
    simp [scanNext, hc]

def Stands : Scan → List Char → Prop
  | .text, raw => Outside raw ∧ raw.getLast? ≠ some '\x1b'
  | .esc, raw => ∃ before, raw = before ++ ['\x1b'] ∧ Outside before
  | .csi, raw => OpenCsi raw
  | .osc prevEsc, raw => ∃ before body, raw = before ++ '\x1b' :: ']' :: body ∧ Outside before ∧
      ¬OscClosed body ∧ prevEsc = decide (body.getLast? = some '\x1b')

theorem Outside.concat {raw : List Char} (h : Outside raw) {c : Char} (hcsi : c ≠ '[')
    (hosc : c ≠ ']') : Outside (raw ++ [c]) := .char c h fun _ => ⟨hcsi, hosc⟩

theorem Stands.next {s : Scan} {raw : List Char} (h : Stands s raw) (c : Char) :
    Stands (scanNext s c) (raw ++ [c]) := by
  cases s with
  | text =>
    obtain ⟨hout, hlast⟩ := h
    by_cases hc : c = '\x1b'
    · subst hc
      exact ⟨raw, rfl, hout⟩
    · simp only [scanNext, hc, if_false]
      exact ⟨.char c hout fun hesc => absurd hesc hlast, by simpa using hc⟩
  | esc =>
    obtain ⟨before, rfl, hout⟩ := h
    have hesc : Outside (before ++ ['\x1b']) := hout.concat (by decide) (by decide)
    by_cases hosc : c = ']'
    · subst hosc
      exact ⟨before, [], by simp, hout, by simp [OscClosed], rfl⟩
    by_cases hcsi : c = '['
    · subst hcsi
      exact ⟨before, [], by simp, hout, by simp⟩
    by_cases hc : c = '\x1b'
    · subst hc
      exact ⟨before ++ ['\x1b'], rfl, hesc⟩
    · simp only [scanNext, hosc, hcsi, hc, if_false]
      exact ⟨hesc.concat hcsi hosc, by simpa using hc⟩
  | csi =>
    obtain ⟨before, body, rfl, hout, hbody⟩ := h
    by_cases hc : CsiFinal c
    · have hnext : scanNext .csi c = .text := if_pos hc
      rw [hnext]
      have hne : c ≠ '\x1b' := by
        rintro rfl
        exact absurd hc (by unfold CsiFinal; decide)
      exact ⟨.csi c hout hbody hc, by rw [List.getLast?_concat]; simpa using hne⟩
    · have hnext : scanNext .csi c = .csi := if_neg hc
      rw [hnext]
      refine ⟨before, body ++ [c], by simp, hout, ?_⟩
      intro d hd
      rcases List.mem_append.mp hd with hd | hd
      · exact hbody d hd
      · rwa [List.mem_singleton.mp hd]
  | osc prevEsc =>
    obtain ⟨before, body, rfl, hout, hbody, rfl⟩ := h
    have hclosed := oscClosed_concat body c
    by_cases hc : c = '\x07' ∨ (body.getLast? = some '\x1b' ∧ c = '\\')
    · simp only [scanNext, decide_eq_true_eq, hc, if_true]
      have hne : c ≠ '\x1b' := by
        rcases hc with rfl | ⟨-, rfl⟩
        · decide
        · decide
      exact ⟨.osc c hout hbody (hclosed.mpr (.inr hc)),
        by rw [List.getLast?_concat]; simpa using hne⟩
    · simp only [scanNext, decide_eq_true_eq, hc, if_false]
      refine ⟨before, body ++ [c], by simp, hout, ?_, by simp⟩
      exact fun h => (hclosed.mp h).elim hbody hc

theorem stands_scanned (raw : List Char) : Stands (scanned raw) raw := by
  induction raw using List.reverseRecOn with
  | nil => exact ⟨.nil, by simp⟩
  | append_singleton raw c ih =>
    rw [scanned_concat]
    exact ih.next c

theorem scanNext_esc {s : Scan} (hs : s = .text ∨ s = .esc) : scanNext s '\x1b' = .esc := by
  rcases hs with rfl | rfl
  · rfl
  · rfl

theorem scanned_csi_body {raw body : List Char} (hs : scanned raw = .text ∨ scanned raw = .esc)
    (hbody : ∀ d ∈ body, ¬CsiFinal d) : scanned (raw ++ '\x1b' :: '[' :: body) = .csi := by
  rw [scanned, normalizer.state_append, normalizer.state_cons, normalizer.state_cons]
  change normalizer.state (scanNext (scanNext (scanned raw) '\x1b') '[') body = .csi
  rw [scanNext_esc hs]
  exact state_csi hbody

theorem scanned_osc_body {raw body : List Char} (hs : scanned raw = .text ∨ scanned raw = .esc)
    (hbody : ¬OscClosed body) :
    scanned (raw ++ '\x1b' :: ']' :: body) = .osc (body.getLast? = some '\x1b') := by
  rw [scanned, normalizer.state_append, normalizer.state_cons, normalizer.state_cons]
  change normalizer.state (scanNext (scanNext (scanned raw) '\x1b') ']') body = _
  rw [scanNext_esc hs]
  exact state_osc hbody

theorem scanned_outside {raw : List Char} (h : Outside raw) :
    scanned raw = .text ∨ scanned raw = .esc := by
  induction h with
  | nil => exact .inl rfl
  | @char raw c h hopen ih =>
    have hstands : Stands (scanned raw) raw := stands_scanned raw
    rw [scanned_concat]
    rcases ih with hs | hs
    · rw [hs]
      by_cases hc : c = '\x1b'
      · simp [scanNext, hc]
      · simp [scanNext, hc]
    · rw [hs] at hstands ⊢
      obtain ⟨before, rfl, -⟩ := hstands
      obtain ⟨hcsi, hosc⟩ := hopen (by simp)
      by_cases hc : c = '\x1b'
      · simp [scanNext, hc]
      · simp [scanNext, hcsi, hosc, hc]
  | @csi raw body c h hbody hc ih =>
    rw [scanned_concat, scanned_csi_body ih hbody]
    exact .inl (if_pos hc)
  | @osc raw body c h hbody hc ih =>
    have hend := ((oscClosed_concat body c).mp hc).resolve_left hbody
    rw [scanned_concat, scanned_osc_body ih hbody]
    exact .inl (by simp [scanNext, hend])

theorem scanned_eq_csi {raw : List Char} : scanned raw = .csi ↔ OpenCsi raw := by
  constructor
  · intro h
    have hstands : Stands (scanned raw) raw := stands_scanned raw
    rwa [h] at hstands
  · rintro ⟨before, body, rfl, hout, hbody⟩
    exact scanned_csi_body (scanned_outside hout) hbody

/-! ## What is shown -/

/-- Each character is dropped, kept, or a CR that becomes an LF. -/
theorem scanEmit_cases (s : Scan) (c : Char) (look : Option Char) :
    scanEmit s c look = [] ∨
      ∃ d, (d = c ∧ c ≠ '\x1b' ∧ c ≠ '\r' ∨ c = '\r' ∧ d = '\n') ∧ scanEmit s c look = [d] := by
  have hplain (hesc : c ≠ '\x1b') : plainChar c look [] = [] ∨
      ∃ d, (d = c ∧ c ≠ '\x1b' ∧ c ≠ '\r' ∨ c = '\r' ∧ d = '\n') ∧
        plainChar c look [] = [d] := by
    unfold plainChar
    split
    next hcr =>
      split
      · exact .inr ⟨'\n', .inr ⟨hcr, rfl⟩, rfl⟩
      · exact .inl rfl
    next hcr => exact .inr ⟨c, .inl ⟨rfl, hesc, hcr⟩, rfl⟩
  cases s with
  | text =>
    by_cases hesc : c = '\x1b'
    · exact .inl (if_pos hesc)
    · simpa only [scanEmit, hesc, if_false] using hplain hesc
  | esc =>
    simp only [scanEmit]
    split
    · exact .inl rfl
    split
    · exact .inl rfl
    split
    · exact .inl rfl
    next hesc => exact hplain hesc
  | osc prevEsc => exact .inl rfl
  | csi => exact .inl rfl

theorem clean_segment (rest : List Char) (s : Scan) (raw : List Char) :
    ∀ d ∈ normalizer.segment rest s raw, d ≠ '\x1b' ∧ d ≠ '\r' := by
  refine normalizer.forall_mem_segment (P := fun d => d ≠ '\x1b' ∧ d ≠ '\r') ?_ rest s raw
  intro s c look d hd
  rw [normalizer_emit] at hd
  rcases scanEmit_cases s c look with hnone | ⟨e, he, hone⟩
  · rw [hnone] at hd
    exact absurd hd List.not_mem_nil
  · rw [hone] at hd
    obtain rfl := List.mem_singleton.mp hd
    rcases he with ⟨rfl, hesc, hcr⟩ | ⟨-, rfl⟩
    · exact ⟨hesc, hcr⟩
    · decide

theorem segment_clean (rest : List Char) {raw : List Char}
    (hraw : ∀ c ∈ raw, c ≠ '\x1b' ∧ c ≠ '\r') :
    normalizer.segment rest .text raw = raw := by
  induction raw with
  | nil => rfl
  | cons c raw ih =>
    obtain ⟨hesc, hcr⟩ := hraw c List.mem_cons_self
    have hrest := ih fun d hd => hraw d (List.mem_cons_of_mem _ hd)
    simp [scanNext, scanEmit, plainChar, hesc, hcr, hrest]

/-- Only an LF behind a text changes what the text shows. -/
theorem segment_eq_run {rest : List Char} (hrest : rest.head? ≠ some '\n') (s : Scan)
    (raw : List Char) : normalizer.segment rest s raw = normalizer.run s raw := by
  have hemit (s : Scan) (c : Char) : scanEmit s c rest.head? = scanEmit s c none := by
    cases s with
    | text => simp [scanEmit, plainChar, hrest]
    | esc => simp [scanEmit, plainChar, hrest]
    | osc prevEsc => rfl
    | csi => rfl
  induction raw generalizing s with
  | nil => rfl
  | cons c raw ih =>
    rw [normalizer.segment_cons, normalizer.run_cons, ih]
    cases raw with
    | nil => simp [hemit]
    | cons d raw => rfl

theorem normalizeTerminalOutput_append {before after : List Char}
    (hafter : after.head? ≠ some '\n') :
    normalizeTerminalOutput (before ++ after) =
      normalizeTerminalOutput before ++ normalizer.run (scanned before) after := by
  simp only [normalizeTerminalOutput, normalizeFrom_eq]
  rw [normalizer.run_append, segment_eq_run hafter]
  rfl

theorem normalizeTerminalOutput_cr {before : List Char} (h : Outside before)
    (after : List Char) :
    normalizeTerminalOutput (before ++ '\r' :: after) =
      normalizeTerminalOutput before ++ (if after.head? = some '\n' then [] else ['\n']) ++
        normalizeTerminalOutput after := by
  rw [normalizeTerminalOutput_append (by simp), normalizer.run_cons, List.append_assoc]
  simp only [normalizeTerminalOutput, normalizeFrom_eq, normalizer_next, normalizer_emit]
  rcases scanned_outside h with hs | hs
  · simp [hs, scanNext, scanEmit, plainChar]
  · simp [hs, scanNext, scanEmit, plainChar]

theorem normalizeTerminalOutput_eq_self {raw : List Char} :
    normalizeTerminalOutput raw = raw ↔ '\x1b' ∉ raw ∧ '\r' ∉ raw := by
  rw [normalizeTerminalOutput, normalizeFrom_eq]
  constructor
  · intro h
    have hclean := clean_segment [] .text raw
    rw [← Transducer.run, h] at hclean
    exact ⟨fun hmem => (hclean _ hmem).1 rfl, fun hmem => (hclean _ hmem).2 rfl⟩
  · rintro ⟨hesc, hcr⟩
    exact segment_clean [] fun c hc => ⟨fun h => hesc (h ▸ hc), fun h => hcr (h ▸ hc)⟩

theorem normalizeTerminalOutput_length_le (raw : List Char) :
    (normalizeTerminalOutput raw).length ≤ raw.length := by
  rw [normalizeTerminalOutput, normalizeFrom_eq]
  apply normalizer.segment_length_le
  intro s c look
  rcases scanEmit_cases s c look with hnone | ⟨d, _, hone⟩
  · rw [normalizer_emit, hnone]
    exact Nat.zero_le 1
  · rw [normalizer_emit, hone]
    exact Nat.le_refl 1

/-- Normalization is a projection onto the texts without ESC and CR. It deletes characters
and turns CRs into LFs; outside an escape sequence a CR becomes one LF, and so does a CR
together with the LF behind it. -/
theorem normalizeTerminalOutput_projection (raw : List Char) :
    ('\x1b' ∉ normalizeTerminalOutput raw ∧ '\r' ∉ normalizeTerminalOutput raw) ∧
      normalizeTerminalOutput (normalizeTerminalOutput raw) = normalizeTerminalOutput raw ∧
      (normalizeTerminalOutput raw = raw ↔ '\x1b' ∉ raw ∧ '\r' ∉ raw) ∧
      (∃ kept : List Char, kept.Sublist raw ∧
        List.Forall₂ (fun c d => d = c ∨ c = '\r' ∧ d = '\n') kept
          (normalizeTerminalOutput raw)) ∧
      (∀ before after, raw = before ++ '\r' :: after → Outside before →
        after.head? ≠ some '\n' →
        normalizeTerminalOutput raw =
          normalizeTerminalOutput before ++ '\n' :: normalizeTerminalOutput after) ∧
      ∀ before after, raw = before ++ '\r' :: '\n' :: after → Outside before →
        normalizeTerminalOutput raw =
          normalizeTerminalOutput before ++ '\n' :: normalizeTerminalOutput after := by
  have hclean : '\x1b' ∉ normalizeTerminalOutput raw ∧ '\r' ∉ normalizeTerminalOutput raw := by
    rw [normalizeTerminalOutput, normalizeFrom_eq]
    have h := clean_segment [] .text raw
    exact ⟨fun hmem => (h _ hmem).1 rfl, fun hmem => (h _ hmem).2 rfl⟩
  refine ⟨hclean, normalizeTerminalOutput_eq_self.mpr hclean, normalizeTerminalOutput_eq_self,
    ?_, ?_, ?_⟩
  · rw [normalizeTerminalOutput, normalizeFrom_eq]
    apply normalizer.segment_forall₂
    intro s c look
    rcases scanEmit_cases s c look with hnone | ⟨d, hd, hone⟩
    · exact .inl hnone
    · exact .inr ⟨d, hd.imp And.left id, hone⟩
  · rintro before after rfl hout hlook
    rw [normalizeTerminalOutput_cr hout, if_neg hlook]
    simp
  · rintro before after rfl hout
    rw [normalizeTerminalOutput_cr hout, if_pos (by simp)]
    have hlf : normalizeTerminalOutput ('\n' :: after) = '\n' :: normalizeTerminalOutput after := by
      simp [normalizeTerminalOutput, normalizeFrom, plainChar]
    rw [hlf]
    simp

end McpSerial
