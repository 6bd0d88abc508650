import McpSerial.Policy
import McpSerial.Text.Framing
import McpSerial.Text.Lossy

/-! The lines that a guarded session is sent: accepted commands, each with the session's
terminator, can be told apart again. -/

namespace McpSerial
open Utf8 Framing

/-! ## Commands and terminators -/

theorem LineEnding.bytes_ne_nil {e : LineEnding} (h : e ≠ .none) : e.bytes ≠ [] := by
  cases e with
  | none => exact absurd rfl h
  | _ => exact nofun

theorem LineEnding.bytes_nodup (e : LineEnding) : e.bytes.Nodup := by
  cases e <;> simp [LineEnding.bytes]

theorem LineEnding.bytes_control (e : LineEnding) : ∀ b ∈ e.bytes, b.toNat < 0x20 := by
  cases e <;> simp [LineEnding.bytes]

theorem not_control_of_printable {command : String}
    (h : ∀ c ∈ command.toList, isControl c = false) {b : UInt8} (hb : b ∈ asBytes command) :
    ¬(b.toNat < 0x20 ∨ b = 0x7f) := by
  intro hlow
  have hascii : b.toNat < 0x20 ∨ b.toNat = 0x7f := hlow.imp_right (congrArg UInt8.toNat)
  obtain ⟨c, hc, hcb⟩ := exists_char_of_mem_encode (by omega) hb
  have hcontrol : isControl c = true := by
    unfold isControl
    rw [hcb]
    rcases hascii with hb | hb <;> simp [hb]
  rw [h c hc] at hcontrol
  cases hcontrol

theorem clean_of_printable {command : String} (h : ∀ c ∈ command.toList, isControl c = false)
    (e : LineEnding) : Clean e.bytes (asBytes command) :=
  fun b hb hending => not_control_of_printable h hb (.inl (e.bytes_control b hending))

theorem getLast?_asBytes {command : String} (h : command.toList.getLast? ≠ some '\\') :
    (asBytes command).getLast? ≠ some 0x5c := by
  intro hlast
  rcases List.eq_nil_or_concat command.toList with hnil | ⟨init, c, hconcat⟩
  · rw [asBytes, hnil] at hlast
    cases hlast
  rw [List.concat_eq_append] at hconcat
  rw [hconcat, List.getLast?_concat] at h
  have hne : encode [c] ≠ [] := by
    intro hnone
    have hlen := encode_length [c]
    rw [hnone] at hlen
    have hpos := c.utf8Size_pos
    simp [len] at hlen
    omega
  rw [asBytes, hconcat, encode_append, List.getLast?_append_of_ne_nil _ hne] at hlast
  obtain ⟨d, hd, hval⟩ := exists_char_of_mem_encode (by decide) (List.mem_of_getLast? hlast)
  rw [List.mem_singleton.mp hd] at hval
  obtain rfl : c = '\\' := Char.toNat_inj.mp hval
  exact h rfl

/-! ## The stream of the calls -/

structure LineCall where
  command : String
  requested : Option LineEnding
  deriving DecidableEq, Repr

/-- What the calls transmit on a session with the line ending `e`. -/
def transmittedStream (e : LineEnding) (calls : List LineCall) : List UInt8 :=
  calls.flatMap fun call => (call.requested.getD e).appendTo (asBytes call.command)

section Accepted

variable {policy : CommandPolicy} {e : LineEnding} {calls : List LineCall} {call : LineCall}

theorem lines_transmitted
    (hcalls : ∀ call ∈ calls, policy.Accepts call.command.toList e call.requested)
    (he : e ≠ .none) :
    transmittedStream e calls =
        (calls.map fun call => asBytes call.command).flatMap (· ++ e.bytes) ∧
      lines e.bytes (transmittedStream e calls) = calls.map fun call => asBytes call.command := by
  have hstream : transmittedStream e calls =
      (calls.map fun call => asBytes call.command).flatMap (· ++ e.bytes) := by
    rw [List.flatMap_map]
    refine List.flatMap_congr fun call hcall => ?_
    rw [(hcalls call hcall).ending]
    rfl
  refine ⟨hstream, ?_⟩
  rw [hstream, ← List.append_nil (List.flatMap _ _)]
  refine lines_flatMap (LineEnding.bytes_ne_nil he) (fun l hl => ?_) rfl
  obtain ⟨call, hcall, rfl⟩ := List.mem_map.mp hl
  exact clean_of_printable (hcalls call hcall).printable e

end Accepted

/-- The commands that a guarded session accepts are recovered from the bytes they send: each
call transmits with the session's terminator, a reader that cuts the stream at the
terminators gets back the commands and nothing else, every control character is in a
terminator, and joining continued lines changes nothing. -/
theorem accepted_lines_recovered {policy : CommandPolicy} (hguarded : policy.isEmpty = false)
    {e : LineEnding} {calls : List LineCall}
    (haccepted : ∀ call ∈ calls, policy.check call.command.toList e call.requested = none) :
    let stream := transmittedStream e calls
    let found := lines e.bytes stream
    (calls ≠ [] → e ≠ .none) ∧
    (∀ call ∈ calls, call.requested.getD e = e) ∧
    stream = calls.flatMap (fun call => e.appendTo (asBytes call.command)) ∧
    found.map fromUtf8 = calls.map (fun call => some call.command.toList) ∧
    found.flatMap (· ++ e.bytes) = stream ∧
    (∀ before b after, stream = before ++ b :: after → b.toNat < 0x20 ∨ b = 0x7f →
      ∃ earlier call later t t', calls = earlier ++ call :: later ∧ e.bytes = t ++ b :: t' ∧
        before = transmittedStream e earlier ++ asBytes call.command ++ t) ∧
    (∀ line ∈ found, line.getLast? ≠ some 0x5c) ∧ joinContinued 0x5c found = found := by
  have haccepts (call : LineCall) (hcall : call ∈ calls) :
      policy.Accepts call.command.toList e call.requested :=
    (CommandPolicy.check_eq_none hguarded).mp (haccepted call hcall)
  intro stream found
  -- without a call there is no terminator to speak of, and nothing is sent
  by_cases hnone : calls = []
  · subst hnone
    refine ⟨fun h => absurd rfl h, nofun, rfl, rfl, rfl, ?_, ?_, rfl⟩
    · intro before b after hstream
      exact absurd hstream (by simp [stream, transmittedStream])
    · exact fun line hline => absurd (show line ∈ [] from hline) List.not_mem_nil
  have he : e ≠ .none := by
    obtain ⟨call, hcall⟩ := List.exists_mem_of_ne_nil calls hnone
    exact (haccepts call hcall).terminated
  obtain ⟨hstream, hlines⟩ := lines_transmitted haccepts he
  have hfound : found = calls.map fun call => asBytes call.command := hlines
  have hends : ∀ line ∈ found, line.getLast? ≠ some 0x5c := by
    intro line hline
    rw [hfound] at hline
    obtain ⟨call, hcall, rfl⟩ := List.mem_map.mp hline
    exact getLast?_asBytes (haccepts call hcall).no_continuation
  refine ⟨fun _ => he, fun call hcall => (haccepts call hcall).ending, ?_, ?_, ?_, ?_, hends,
    joinContinued_eq hends⟩
  · rw [show stream = _ from hstream, List.flatMap_map]
    rfl
  · rw [hfound, List.map_map]
    exact List.map_congr_left fun call _ => fromUtf8_encode call.command.toList
  · rw [hfound]
    exact hstream.symm
  -- the byte is in a command or in the terminator behind it
  · intro before b after hcut hcontrol
    obtain ⟨ks, l, ms, hcalls, hcase⟩ := split_lines (hcut.symm.trans hstream)
    obtain ⟨earlier, rest, rfl, rfl, hrest⟩ := List.map_eq_append_iff.mp hcalls
    obtain ⟨call, later, rfl, rfl, rfl⟩ := List.map_eq_cons_iff.mp hrest
    have hprinted := haccepts call (by simp)
    rcases hcase with ⟨l₁, l₂, hl, _⟩ | ⟨t, t', ht, hbefore⟩
    · -- no byte of the command itself is a control character
      exact absurd hcontrol (not_control_of_printable hprinted.printable (hl ▸ by simp))
    · refine ⟨earlier, call, later, t, t', rfl, ht, ?_⟩
      have hearlier := lines_transmitted (fun c hc => haccepts c (List.mem_append_left _ hc)) he
      rw [hbefore, hearlier.1]

def oneRule : CommandPolicy := { deny := [⟨"deny.caller.0", ⟨fun _ => none⟩⟩] }

def lineCalls : List LineCall := [⟨"ls", none⟩, ⟨"", some .crlf⟩, ⟨"é", none⟩]

theorem accepted_lines_recovered_crlf :
    lines [13, 10] (transmittedStream .crlf lineCalls) = [[108, 115], [], [195, 169]] ∧
      (lines [13, 10] (transmittedStream .crlf lineCalls)).map fromUtf8 =
        [some ['l', 's'], some [], some ['é']] := by
  have haccepted : ∀ call ∈ lineCalls,
      oneRule.check call.command.toList .crlf call.requested = none := by decide
  exact ⟨by decide, (accepted_lines_recovered (by decide) haccepted).2.2.2.1⟩

/-- A session without a line ending accepts no command, and so nothing but the empty list. -/
theorem accepted_without_ending : ∃ (policy : CommandPolicy) (e : LineEnding)
    (calls : List LineCall), policy.isEmpty = false ∧
      (∀ call ∈ calls, policy.check call.command.toList e call.requested = none) ∧ e = .none :=
  ⟨oneRule, .none, [], rfl, fun _ h => absurd h List.not_mem_nil, rfl⟩

end McpSerial
