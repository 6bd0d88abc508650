import McpSerial.Interaction.BufWriter
import McpSerial.Journal.Rows

/-! `JournalWriter::log` (`serial/journal.rs`), on a file to which writes may fail. -/

namespace McpSerial
open Interaction Interaction.BufWriter Json Utf8 Framing

/-- The capacity of a `tokio::io::BufWriter::new`. -/
def journalBufferBytes : Nat := 8 * 1024

def newline : UInt8 := 10

inductive LogOutcome where
  | tooLarge
  | lockTimedOut
  | written
  | failed
  | timedOut
  deriving DecidableEq, Repr

abbrev JournalFile := BufWriter.Writer UInt8

def LogOutcome.ofPut : Option Verdict → LogOutcome
  | none => .lockTimedOut
  | some .ok => .written
  | some .failed => .failed
  | some .elapsed => .timedOut

def JournalEntry.line (e : JournalEntry) : List UInt8 := e.toVec ++ [newline]

def log (entry : JournalEntry) (w : JournalFile) : Code UInt8 (LogOutcome × JournalFile) := do
  if maxJournalRowBytes < entry.toVec.length then return (.tooLarge, w)
  else
    let (o, w) ← put journalBufferBytes entry.line w
    return (.ofPut o, w)

/-! ## A row is one line -/

mutual

/-- No number of the value is printed with a line ending in it. -/
def Value.OneLine : Value → Prop
  | .number n => '\n' ∉ n.compact
  | .array items => Value.OneLineItems items
  | .object fields => Value.OneLineFields fields
  | _ => True

def Value.OneLineItems : List Value → Prop
  | [] => True
  | v :: items => v.OneLine ∧ Value.OneLineItems items

def Value.OneLineFields : List (String × Value) → Prop
  | [] => True
  | (_, v) :: fields => v.OneLine ∧ Value.OneLineFields fields

end

mutual

theorem Value.OneLine.compact {v : Value} (h : v.OneLine) : '\n' ∉ v.compact := by
  cases v with
  | null => decide
  | bool b => cases b <;> decide
  | number n => exact h
  | string s => exact newline_not_mem_quoted _
  | array items =>
    exact newline_not_mem_bracketed (by decide) (by decide) (Value.OneLineItems.compact h)
  | object fields =>
    apply newline_not_mem_bracketed (by decide) (by decide)
    intro p hp
    obtain ⟨f, hf, rfl⟩ := List.mem_map.mp hp
    apply newline_not_mem_member
    exact Value.OneLineFields.compact h f ((List.mem_insertionSort _).mp hf)

theorem Value.OneLineItems.compact {items : List Value} (h : Value.OneLineItems items) :
    ∀ p ∈ Value.compactItems items, '\n' ∉ p := by
  cases items with
  | nil => nofun
  | cons v items => exact List.forall_mem_cons.mpr ⟨h.1.compact, h.2.compact⟩

theorem Value.OneLineFields.compact {fields : List (String × Value)}
    (h : Value.OneLineFields fields) : ∀ f ∈ Value.compactFields fields, '\n' ∉ f.2 := by
  cases fields with
  | nil => nofun
  | cons f fields => exact List.forall_mem_cons.mpr ⟨h.1.compact, h.2.compact⟩

end

theorem newline_not_mem_toVec {e : JournalEntry} (h : e.summary.OneLine) : newline ∉ e.toVec := by
  intro hmem
  obtain ⟨c, hc, hvalue⟩ := exists_char_of_mem_encode (by decide) hmem
  have hnewline : c = '\n' := Char.toNat_inj.mp hvalue
  subst hnewline
  revert hc
  apply newline_not_mem_bracketed (by decide) (by decide)
  simp only [List.forall_mem_cons]
  refine ⟨?_, ?_, ?_, ?_, ?_, nofun⟩
  · exact newline_not_mem_member _ (newline_not_mem_quoted _)
  · exact newline_not_mem_member _ (newline_not_mem_quoted _)
  · exact newline_not_mem_member _ (newline_not_mem_quoted _)
  · exact newline_not_mem_member _ (newline_not_mem_quoted _)
  · exact newline_not_mem_member _ h.compact

/-! ## Runs -/

structure LogCall where
  entry : JournalEntry
  found : JournalFile
  events : List (Asked UInt8)
  outcome : LogOutcome

/-- Calls one after the other, on the writer that is kept whatever happens. -/
inductive LogRun : List LogCall → JournalFile → Prop where
  | start : LogRun [] .new
  | snoc {calls : List LogCall} {w w' : JournalFile} {entry : JournalEntry}
      {events : List (Asked UInt8)} {outcome : LogOutcome} (init : LogRun calls w)
      (run : Runs (log entry w) events (.ret (outcome, w'))) :
      LogRun (calls ++ [⟨entry, w, events, outcome⟩]) w'

def journalFile (before : List UInt8) (calls : List LogCall) : Sink UInt8 :=
  calls.foldl (fun file call => file.after call.events) ⟨before, []⟩

def journalText (before : List UInt8) (calls : List LogCall) : List UInt8 :=
  (journalFile before calls).text

def succeeded (calls : List LogCall) : List LogCall :=
  calls.filter fun call => call.outcome = .written

/-- The last answer of the call is a flush that failed, or an offer of what is too long for the
buffer that was not taken; and what the file has got and still has in hand ends no line. -/
def LogCall.BreaksOff (file : Sink UInt8) (call : LogCall) : Prop :=
  BufWriter.BreaksOff journalBufferBytes newline call.entry.line file call.events

def NoneTorn (before : List UInt8) (calls : List LogCall) : Prop :=
  ∀ past call rest, calls = past ++ call :: rest → ¬call.BreaksOff (journalFile before past)

@[simp] theorem journalFile_snoc (before : List UInt8) (calls : List LogCall) (call : LogCall) :
    journalFile before (calls ++ [call]) = (journalFile before calls).after call.events :=
  List.foldl_concat ..

theorem noneTorn_nil (before : List UInt8) : NoneTorn before [] := by
  intro past call rest heq
  simp at heq

theorem NoneTorn.init {before : List UInt8} {calls : List LogCall} {call : LogCall}
    (h : NoneTorn before (calls ++ [call])) : NoneTorn before calls := fun past other rest heq =>
  h past other (rest ++ [call]) (by rw [heq, List.append_assoc]; rfl)

theorem NoneTorn.last {before : List UInt8} {calls : List LogCall} {call : LogCall}
    (h : NoneTorn before (calls ++ [call])) : ¬call.BreaksOff (journalFile before calls) :=
  h calls call [] rfl

theorem noneTorn_snoc {before : List UInt8} {calls : List LogCall} {call : LogCall}
    (h : NoneTorn before calls) (hlast : ¬call.BreaksOff (journalFile before calls)) :
    NoneTorn before (calls ++ [call]) := by
  intro past other rest heq
  rcases List.eq_nil_or_concat rest with rfl | ⟨rest, final, rfl⟩
  · obtain ⟨rfl, hsame⟩ := List.append_inj' heq rfl
    cases hsame
    exact hlast
  · rw [List.concat_eq_append, ← List.cons_append, ← List.append_assoc] at heq
    exact h past other rest (List.append_inj' heq rfl).1

theorem lines_row {data : List UInt8} (h : newline ∉ data) :
    lines [newline] (data ++ [newline]) = [data] := by
  have hclean : Clean [newline] data := fun b hb hnewline =>
    h (List.mem_singleton.mp hnewline ▸ hb)
  have hlines : lines [newline] ([data].flatMap (· ++ [newline]) ++ []) = [data] :=
    lines_flatMap (List.cons_ne_nil newline []) (List.forall_mem_singleton.mpr hclean) rfl
  rwa [List.flatMap_singleton, List.append_nil] at hlines

theorem LogOutcome.ofPut_eq_written {o : Option Verdict} (h : ofPut o = .written) :
    o = some .ok := by
  rcases o with _ | _ | _ | _ <;> first | rfl | cases h

/-- A call drops its row before it asks for anything, or puts it on the writer. -/
theorem log_cases {entry : JournalEntry} {w w' : JournalFile} {events : List (Asked UInt8)}
    {outcome : LogOutcome} (h : Runs (log entry w) events (.ret (outcome, w'))) :
    (outcome = .tooLarge ∧ events = [] ∧ w' = w) ∨
      ∃ o, Runs (put journalBufferBytes entry.line w) events (.ret (o, w')) ∧
        outcome = .ofPut o := by
  unfold log at h
  split at h
  · obtain ⟨rfl, hret⟩ := runs_ret.mp h
    cases hret
    exact .inl ⟨rfl, rfl, rfl⟩
  · obtain ⟨⟨o, w₁⟩, es₁, es₂, rfl, hput, hrest⟩ := runs_bind_ret.mp h
    obtain ⟨rfl, hret⟩ := runs_ret.mp hrest
    cases hret
    rw [List.append_nil]
    exact .inr ⟨o, hput, rfl⟩

theorem log_step {entry : JournalEntry} {w w' : JournalFile} {events : List (Asked UInt8)}
    {outcome : LogOutcome} (h : Runs (log entry w) events (.ret (outcome, w')))
    {file : Sink UInt8} (hended : Ended [newline] (file.handed ++ w.kept))
    (hone : entry.summary.OneLine)
    (hwhole : ¬LogCall.BreaksOff file ⟨entry, w, events, outcome⟩) :
    Ended [newline] ((file.after events).handed ++ w'.kept) ∧
      (outcome = .written → lines [newline] (file.after events).text =
        lines [newline] (file.handed ++ w.kept) ++ [entry.toVec]) := by
  obtain ⟨rfl, rfl, rfl⟩ | ⟨o, hput, rfl⟩ := log_cases h
  · exact ⟨hended, nofun⟩
  · refine ⟨put_ended hput (List.suffix_append ..) hended hwhole, fun hwritten => ?_⟩
    obtain rfl := LogOutcome.ofPut_eq_written hwritten
    rw [(put_done hput).1, ← List.append_assoc, lines_append_of_ended hended, JournalEntry.line,
      lines_row (newline_not_mem_toVec hone)]

/-- In a run in which no row breaks off, the rows whose write and flush succeeded are lines of
the file, in the order of their calls. -/
theorem succeeded_lines {calls : List LogCall} {w : JournalFile} (h : LogRun calls w)
    {before : List UInt8} (hbefore : Ended [newline] before)
    (hone : ∀ call ∈ calls, call.entry.summary.OneLine) (hwhole : NoneTorn before calls) :
    Ended [newline] ((journalFile before calls).handed ++ w.kept) ∧
      ((succeeded calls).map fun call => call.entry.toVec).Sublist
        (lines [newline] (journalText before calls)) := by
  induction h with
  | start =>
    refine ⟨?_, List.nil_sublist _⟩
    simpa [journalFile, Sink.handed, Writer.new] using hbefore
  | @snoc calls w w' entry events outcome init run ih =>
    obtain ⟨hended, hsub⟩ :=
      ih (fun call hcall => hone call (List.mem_append_left _ hcall)) hwhole.init
    have hentry : entry.summary.OneLine :=
      hone ⟨entry, w, events, outcome⟩ (List.mem_append_right calls List.mem_cons_self)
    obtain ⟨hended', hline⟩ := log_step run hended hentry hwhole.last
    have hold : ((succeeded calls).map fun call => call.entry.toVec).Sublist
        (lines [newline] ((journalFile before calls).handed ++ w.kept)) := by
      rw [Sink.handed, List.append_assoc]
      exact hsub.trans (lines_prefix_append newline _ _).sublist
    rw [journalText, journalFile_snoc]
    refine ⟨hended', ?_⟩
    -- a row that was not written may still be in the file: a sublist leaves room for it
    by_cases hwritten : outcome = .written
    · have hnew : succeeded (calls ++ [⟨entry, w, events, outcome⟩]) =
          succeeded calls ++ [⟨entry, w, events, outcome⟩] := by
        simp [succeeded, hwritten]
      rw [hnew, List.map_append, hline hwritten]
      exact hold.append (List.Sublist.refl _)
    · have hnew : succeeded (calls ++ [⟨entry, w, events, outcome⟩]) = succeeded calls := by
        simp [succeeded, hwritten]
      have htext : journalText before calls <+: ((journalFile before calls).after events).text :=
        Sink.text_prefix_after
      obtain ⟨more, hmore⟩ := htext
      rw [hnew, ← hmore]
      exact hsub.trans (lines_prefix_append newline _ _).sublist

/-- So every row whose write and flush succeeded is a line of the file that is parsed as
the entry of its call. -/
theorem succeeded_rows_parse {calls : List LogCall} {w : JournalFile} (h : LogRun calls w)
    {before : List UInt8} (hbefore : Ended [newline] before)
    (hone : ∀ call ∈ calls, call.entry.summary.OneLine) (hwhole : NoneTorn before calls)
    (parse : List UInt8 → Option JournalEntry)
    (hparse : ∀ call ∈ calls, parse call.entry.toVec = some call.entry) :
    ((succeeded calls).map fun call => some call.entry).Sublist
      ((lines [newline] (journalText before calls)).map parse) := by
  have hlines := (succeeded_lines h hbefore hone hwhole).2.map parse
  rw [List.map_map] at hlines
  have hparsed : (succeeded calls).map (parse ∘ fun call => call.entry.toVec) =
      (succeeded calls).map fun call => some call.entry :=
    List.map_congr_left fun call hcall => hparse call (List.mem_of_mem_filter hcall)
  rwa [hparsed] at hlines

theorem not_breaksOff_of_written {entry : JournalEntry} {w w' : JournalFile}
    {events : List (Asked UInt8)} (h : Runs (log entry w) events (.ret (.written, w')))
    (file : Sink UInt8) : ¬LogCall.BreaksOff file ⟨entry, w, events, .written⟩ := by
  rintro ⟨-, hnot⟩
  obtain ⟨⟨⟩, -⟩ | ⟨o, hput, hwritten⟩ := log_cases h
  obtain rfl := LogOutcome.ofPut_eq_written hwritten.symm
  obtain ⟨htext, hpending, -⟩ := put_done (s := file) hput
  refine hnot (.inr ?_)
  rw [Sink.handed, htext, hpending, List.append_nil, JournalEntry.line, ← List.append_assoc,
    ← List.append_assoc]
  exact List.suffix_append ..

/-! ### Rows that fail -/

def closeEntry : JournalEntry := callEntry none "serial.close" (.object []) false

def listEntry : JournalEntry := callEntry none "serial.list_ports" (.object []) false

theorem closeEntry_length : closeEntry.toVec.length = 120 := by
  rw [closeEntry, length_callEntry]
  decide

theorem listEntry_length : listEntry.toVec.length = 125 := by
  rw [listEntry, length_callEntry]
  decide

theorem oneLine_argKeys (args : Value) : (argKeys args).OneLine := by
  have hstrings (texts : List String) : Value.OneLineItems (texts.map .string) := by
    induction texts with
    | nil => trivial
    | cons s texts ih => exact ⟨trivial, ih⟩
  exact hstrings _

theorem closeEntry_oneLine : closeEntry.summary.OneLine := ⟨oneLine_argKeys _, trivial⟩

theorem listEntry_oneLine : listEntry.summary.OneLine := ⟨oneLine_argKeys _, trivial⟩

theorem line_length (e : JournalEntry) : e.line.length = e.toVec.length + 1 := List.length_append

theorem line_ne_nil (e : JournalEntry) : e.line ≠ [] :=
  List.append_ne_nil_of_right_ne_nil _ (List.cons_ne_nil _ _)

section Short

variable {e : JournalEntry} {kept : List UInt8}

theorem log_eq_put (h : e.line.length < journalBufferBytes) (w : JournalFile) :
    log e w = put journalBufferBytes e.line w >>= fun p => .ret (.ofPut p.1, p.2) := by
  refine if_neg ?_
  unfold journalBufferBytes at h
  unfold maxJournalRowBytes
  rw [line_length] at h
  omega

theorem log_short (h : e.line.length < journalBufferBytes)
    (hroom : kept.length + e.line.length ≤ journalBufferBytes) (synced : Synced) :
    Runs (log e ⟨[], kept⟩) (taking (kept ++ e.line) synced)
      (.ret (.ofPut (some synced.verdict), .new)) := by
  rw [log_eq_put h]
  exact (put_short (line_ne_nil e) h hroom synced).bind _

theorem log_refused (h : e.line.length < journalBufferBytes)
    (hroom : kept.length + e.line.length ≤ journalBufferBytes) :
    Runs (log e ⟨[], kept⟩) (refusing (kept ++ e.line))
      (.ret (.failed, ⟨[], kept ++ e.line⟩)) := by
  rw [log_eq_put h]
  exact (put_refused (line_ne_nil e) h hroom).bind _

end Short

theorem closeEntry_fits : closeEntry.line.length < journalBufferBytes := by
  rw [line_length, closeEntry_length]
  decide

theorem listEntry_fits : listEntry.line.length < journalBufferBytes := by
  rw [line_length, listEntry_length]
  decide

/-- The file refuses the first row, which stays in the buffer, and takes it with the second. -/
def retriedCalls (e e' : JournalEntry) : List LogCall :=
  [⟨e, .new, refusing e.line, .failed⟩,
    ⟨e', ⟨[], e.line⟩, taking (e.line ++ e'.line) ⟨.ok, 0⟩, .written⟩]

section Retried

variable {e e' : JournalEntry} (h : e.line.length + e'.line.length ≤ journalBufferBytes)

include h

theorem retried_first :
    Runs (log e .new) (refusing e.line) (.ret (.failed, ⟨[], e.line⟩)) := by
  have hne := List.length_pos_iff.mpr (line_ne_nil e')
  exact log_refused (by omega) (by rw [List.length_nil]; omega)

theorem retried_second : Runs (log e' ⟨[], e.line⟩) (taking (e.line ++ e'.line) ⟨.ok, 0⟩)
    (.ret (.written, .new)) := by
  have hne := List.length_pos_iff.mpr (line_ne_nil e)
  exact log_short (by omega) h ⟨.ok, 0⟩

theorem retried_run : LogRun (retriedCalls e e') .new :=
  (LogRun.start.snoc (retried_first h)).snoc (retried_second h)

theorem retried_noneTorn : NoneTorn [] (retriedCalls e e') := by
  have hfirst : ¬LogCall.BreaksOff ⟨[], []⟩ ⟨e, .new, refusing e.line, .failed⟩ := by
    rintro ⟨-, hnot⟩
    rw [after_refusing] at hnot
    exact hnot (.inl rfl)
  exact noneTorn_snoc (noneTorn_snoc (noneTorn_nil []) hfirst)
    (not_breaksOff_of_written (retried_second h) _)

end Retried

def readRow (bytes : List UInt8) : Option JournalEntry :=
  if bytes = closeEntry.toVec then some closeEntry
  else if bytes = listEntry.toVec then some listEntry
  else none

theorem readRow_close : readRow closeEntry.toVec = some closeEntry := if_pos rfl

theorem readRow_list : readRow listEntry.toVec = some listEntry := by
  refine (if_neg fun heq => ?_).trans (if_pos rfl)
  have hlength := congrArg List.length heq
  rw [closeEntry_length, listEntry_length] at hlength
  cases hlength

theorem succeeded_rows_parse_retried :
    LogRun (retriedCalls listEntry closeEntry) .new ∧
      [some closeEntry].Sublist
        ((lines [newline] (journalText [] (retriedCalls listEntry closeEntry))).map readRow) := by
  have hroom : listEntry.line.length + closeEntry.line.length ≤ journalBufferBytes := by
    rw [line_length, line_length, closeEntry_length, listEntry_length]
    decide
  refine ⟨retried_run hroom,
    succeeded_rows_parse (retried_run hroom) (.inl rfl) ?_ (retried_noneTorn hroom) readRow ?_⟩
  · exact List.forall_mem_cons.mpr
      ⟨listEntry_oneLine, List.forall_mem_singleton.mpr closeEntry_oneLine⟩
  · exact List.forall_mem_cons.mpr ⟨readRow_list, List.forall_mem_singleton.mpr readRow_close⟩

/-- The flush of the first row fails when its first byte is in the file, and the second row,
whose write and flush succeed, is no line of its own. -/
def tornCalls : List LogCall :=
  [⟨listEntry, .new, taking listEntry.line ⟨.failed, 1⟩, .failed⟩,
    ⟨closeEntry, .new, taking closeEntry.line ⟨.ok, 0⟩, .written⟩]

theorem torn_run : LogRun tornCalls .new := by
  have hlist := listEntry_fits
  have hclose := closeEntry_fits
  have htorn : Runs (log listEntry ⟨[], []⟩) _ _ :=
    log_short hlist (by simpa using hlist.le) ⟨.failed, 1⟩
  have hwhole : Runs (log closeEntry ⟨[], []⟩) _ _ :=
    log_short hclose (by simpa using hclose.le) ⟨.ok, 0⟩
  exact (LogRun.start.snoc htorn).snoc hwhole

theorem torn_row_corrupts : ¬∀ calls w before parse, LogRun calls w → Ended [newline] before →
    (∀ call ∈ calls, call.entry.summary.OneLine) →
    (∀ call ∈ calls, parse call.entry.toVec = some call.entry) →
    ((succeeded calls).map fun call => some call.entry).Sublist
      ((lines [newline] (journalText before calls)).map parse) := by
  intro h
  have hone : ∀ call ∈ tornCalls, call.entry.summary.OneLine := List.forall_mem_cons.mpr
    ⟨listEntry_oneLine, List.forall_mem_singleton.mpr closeEntry_oneLine⟩
  have hparse : ∀ call ∈ tornCalls, readRow call.entry.toVec = some call.entry :=
    List.forall_mem_cons.mpr ⟨readRow_list, List.forall_mem_singleton.mpr readRow_close⟩
  have hsub : [some closeEntry].Sublist
      ((lines [newline] (journalText [] tornCalls)).map readRow) :=
    h tornCalls .new [] readRow torn_run (.inl rfl) hone hparse
  have hbyte : listEntry.line.take 1 = [123] := rfl
  have hfile (a b : LogCall) :
      journalText [] [a, b] = (((⟨[], []⟩ : Sink UInt8).after a.events).after b.events).text := rfl
  have htext : journalText [] tornCalls = (123 :: closeEntry.toVec) ++ [newline] := by
    rw [tornCalls, hfile, after_taking_failed, after_taking_ok, hbyte, JournalEntry.line]
    generalize closeEntry.toVec = row
    rfl
  have hclean : newline ∉ 123 :: closeEntry.toVec :=
    List.not_mem_cons_of_ne_of_not_mem (by decide) (newline_not_mem_toVec closeEntry_oneLine)
  -- the torn byte and the row behind it are one line, whose length is that of neither row
  have hlost : readRow (123 :: closeEntry.toVec) = none := by
    have hlength : (123 :: closeEntry.toVec : List UInt8).length = 121 := by
      rw [List.length_cons, closeEntry_length]
    refine (if_neg fun heq => ?_).trans (if_neg fun heq => ?_)
    · rw [heq, closeEntry_length] at hlength
      cases hlength
    · rw [heq, listEntry_length] at hlength
      cases hlength
  rw [htext, lines_row hclean, List.map_singleton, hlost] at hsub
  cases List.singleton_sublist.mp hsub with
  | tail _ h => cases h

end McpSerial
