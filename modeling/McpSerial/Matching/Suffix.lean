import McpSerial.MachineInt
import McpSerial.Matching.Window

/-! The window as a suffix of the stream: the matcher's two cursors, its physical buffer and
its slices, under any sequence of operations. -/

namespace McpSerial
open Sliding

/-! ## The stream and the search position -/

inductive MatcherOp where
  | push (data : List UInt8)
  | pushWithoutMatching (data : List UInt8)
  | setSearchStart (offset : Nat)

structure Searched where
  stream : List UInt8 := []
  position : Nat := 0

def Searched.windowStart (s : Searched) (maxBuffer : Nat) : Nat := s.stream.length - maxBuffer

def Searched.apply (maxBuffer : Nat) (s : Searched) : MatcherOp → Searched
  | .push data | .pushWithoutMatching data => { s with stream := s.stream ++ data }
  | .setSearchStart offset =>
    { s with position := min (s.windowStart maxBuffer + offset) s.stream.length }

def MatcherOp.apply (m : PatternMatcher) : MatcherOp → PatternMatcher
  | push data => (m.push data).2
  | pushWithoutMatching data => m.pushWithoutMatching data
  | setSearchStart offset => m.setSearchStart offset

/-! ## The arithmetic and the slices, checked -/

/-- What `buffer[n..]` and `buffer.drain(..n)` leave, or none where they panic. -/
def sliceFrom (buffer : List UInt8) (n : Nat) : Option (List UInt8) :=
  if n ≤ buffer.length then some (buffer.drop n) else none

namespace PatternMatcher

def liveChecked (m : PatternMatcher) : Option (List UInt8) := sliceFrom m.buffer m.head

def intoBufferChecked (m : PatternMatcher) : Option (List UInt8) :=
  if 0 < m.head then sliceFrom m.buffer m.head else some m.buffer

def compactChecked (m : PatternMatcher) : Option PatternMatcher :=
  if m.maxBuffer < m.head then
    (sliceFrom m.buffer m.head).map fun buffer => { m with buffer, head := 0 }
  else some m

def pushChecked (m : PatternMatcher) (data : List UInt8) : Option PatternMatcher :=
  let buffer := m.buffer ++ data
  (checkedSub buffer.length m.head).bind fun liveLen =>
    if m.maxBuffer < liveLen then
      (checkedSub liveLen m.maxBuffer).bind fun dropped =>
        compactChecked
          { m with buffer, head := m.head + dropped, searchStart := m.searchStart - dropped }
    else compactChecked { m with buffer }

def setSearchStartChecked (m : PatternMatcher) (offset : Nat) : Option PatternMatcher :=
  m.liveChecked.map fun live => { m with searchStart := min offset live.length }

variable {m : PatternMatcher} {data : List UInt8}

theorem sliceFrom_eq {buffer : List UInt8} {n : Nat} (h : n ≤ buffer.length) :
    sliceFrom buffer n = some (buffer.drop n) := if_pos h

theorem liveChecked_eq (h : m.InBounds) : m.liveChecked = some m.live := sliceFrom_eq h

theorem intoBufferChecked_eq (h : m.InBounds) : m.intoBufferChecked = some m.intoBuffer := by
  unfold intoBufferChecked
  split
  · exact sliceFrom_eq h
  next hzero =>
    have hhead : m.head = 0 := Nat.eq_zero_of_not_pos hzero
    rw [intoBuffer, hhead, List.drop_zero]

theorem compactChecked_eq (h : m.InBounds) : m.compactChecked = some m.compact := by
  unfold compactChecked compact
  split
  · rw [sliceFrom_eq h]
    rfl
  · rfl

theorem pushChecked_eq (h : m.InBounds) :
    m.pushChecked data = some (m.pushWithoutMatching data) := by
  have hhead : m.head ≤ (m.buffer ++ data).length := by
    rw [List.length_append]
    exact Nat.le_add_right_of_le h
  unfold pushChecked pushWithoutMatching
  simp only [checkedSub_eq hhead, Option.bind_some]
  split
  next hover =>
    rw [checkedSub_eq (Nat.le_of_lt hover), Option.bind_some]
    apply compactChecked_eq
    show m.head + _ ≤ (m.buffer ++ data).length
    omega
  · exact compactChecked_eq hhead

theorem compact_head_le (m : PatternMatcher) : m.compact.head ≤ m.maxBuffer := by
  unfold compact
  split
  · exact Nat.zero_le _
  next hdead => exact Nat.le_of_not_lt hdead

theorem buffer_length_push (h : m.InBounds) :
    (m.pushWithoutMatching data).buffer.length ≤ 2 * m.maxBuffer := by
  have hlive : (m.pushWithoutMatching data).live.length ≤ m.maxBuffer := by
    rw [live_push h, rtake_length]
    exact Nat.min_le_right ..
  have hhead : (m.pushWithoutMatching data).head ≤ m.maxBuffer := by
    rw [← @push_maxBuffer m data, pushWithoutMatching, compact_maxBuffer]
    exact compact_head_le _
  rw [live_length] at hlive
  omega

end PatternMatcher

def MatcherOp.applyChecked (m : PatternMatcher) : MatcherOp → Option PatternMatcher
  | push data | pushWithoutMatching data => m.pushChecked data
  | setSearchStart offset => m.setSearchStartChecked offset

/-! ## The matcher refines the stream -/

/-- `m` shows the last bytes of the stream and searches from the position in it, or from
the start of the window once that has slid past the position. -/
structure Shows (maxBuffer : Nat) (s : Searched) (m : PatternMatcher) : Prop where
  in_bounds : m.InBounds
  capacity : m.maxBuffer = maxBuffer
  live : m.live = s.stream.rtake maxBuffer
  bounded : m.buffer.length ≤ 2 * maxBuffer
  search : s.windowStart maxBuffer + m.searchStart = max s.position (s.windowStart maxBuffer)
  behind : s.position ≤ s.stream.length

section Shows

variable {maxBuffer : Nat} {s : Searched} {m : PatternMatcher}

theorem Shows.live_length (h : Shows maxBuffer s m) :
    m.live.length = s.stream.length - s.windowStart maxBuffer := by
  rw [h.live, rtake_length, Searched.windowStart]
  omega

theorem Shows.push (h : Shows maxBuffer s m) (data : List UInt8) :
    Shows maxBuffer { s with stream := s.stream ++ data } (m.pushWithoutMatching data) where
  in_bounds := h.in_bounds.push
  capacity := by rw [PatternMatcher.push_maxBuffer, h.capacity]
  live := by rw [PatternMatcher.live_push h.in_bounds, h.live, h.capacity, rtake_append_rtake]
  bounded := h.capacity ▸ PatternMatcher.buffer_length_push h.in_bounds
  search := by
    have hsearch := h.search
    rw [PatternMatcher.searchStart_push h.in_bounds, h.live_length, h.capacity]
    simp only [Searched.windowStart, List.length_append] at hsearch ⊢
    omega
  behind := by
    rw [List.length_append]
    exact Nat.le_add_right_of_le h.behind

theorem Shows.setSearchStart (h : Shows maxBuffer s m) (offset : Nat) :
    Shows maxBuffer (s.apply maxBuffer (.setSearchStart offset)) (m.setSearchStart offset) where
  in_bounds := h.in_bounds
  capacity := h.capacity
  live := h.live
  bounded := h.bounded
  search := by
    show s.windowStart maxBuffer + min offset m.live.length =
      max (min (s.windowStart maxBuffer + offset) s.stream.length) (s.windowStart maxBuffer)
    rw [h.live_length]
    unfold Searched.windowStart
    omega
  behind := Nat.min_le_right ..

theorem Shows.apply (h : Shows maxBuffer s m) (op : MatcherOp) :
    Shows maxBuffer (s.apply maxBuffer op) (op.apply m) := by
  cases op with
  | push data => exact h.push data
  | pushWithoutMatching data => exact h.push data
  | setSearchStart offset => exact h.setSearchStart offset

theorem Shows.initial (regex : Regex) (maxBuffer : Nat) :
    Shows maxBuffer {} { regex, maxBuffer } where
  in_bounds := Nat.le_refl 0
  capacity := rfl
  live := List.drop_nil.symm
  bounded := Nat.zero_le _
  search := rfl
  behind := Nat.le_refl 0

theorem Shows.applyChecked (h : Shows maxBuffer s m) (op : MatcherOp) :
    op.applyChecked m = some (op.apply m) := by
  cases op with
  | push data => exact PatternMatcher.pushChecked_eq h.in_bounds
  | pushWithoutMatching data => exact PatternMatcher.pushChecked_eq h.in_bounds
  | setSearchStart offset =>
    show m.liveChecked.map _ = _
    rw [PatternMatcher.liveChecked_eq h.in_bounds]
    rfl

end Shows

/-- The operations, one after another, on a matcher that was given nothing. -/
def operated (regex : Regex) (maxBuffer : Nat) (ops : List MatcherOp) : PatternMatcher :=
  ops.foldl MatcherOp.apply { regex, maxBuffer }

def searched (maxBuffer : Nat) (ops : List MatcherOp) : Searched :=
  ops.foldl (Searched.apply maxBuffer) {}

theorem shows_operated (regex : Regex) (maxBuffer : Nat) (ops : List MatcherOp) :
    Shows maxBuffer (searched maxBuffer ops) (operated regex maxBuffer ops) := by
  induction ops using List.reverseRecOn with
  | nil => exact .initial regex maxBuffer
  | append_singleton ops op ih =>
    rw [searched, operated, List.foldl_concat, List.foldl_concat]
    exact ih.apply op

theorem searched_pushes (maxBuffer : Nat) (ops : List MatcherOp) (chunks : List (List UInt8)) :
    searched maxBuffer (ops ++ chunks.map .push) =
      { searched maxBuffer ops with
        stream := (searched maxBuffer ops).stream ++ chunks.flatten } := by
  induction chunks using List.reverseRecOn with
  | nil => simp
  | append_singleton chunks chunk ih =>
    rw [List.map_append, ← List.append_assoc, searched, List.map_singleton, List.foldl_concat]
    rw [searched] at ih
    rw [ih]
    simp [Searched.apply, searched]

/-- Under any operations the window is the end of the stream, no step underflows or slices
out of range, the buffer holds two capacities at most, and the search starts at the position
that was set, or with the window once that has slid past it, however what follows is cut. -/
theorem match_window (regex : Regex) (maxBuffer : Nat) (ops : List MatcherOp) :
    let m := operated regex maxBuffer ops
    let s := searched maxBuffer ops
    m.liveChecked = some (s.stream.rtake maxBuffer) ∧
    m.intoBufferChecked = some (s.stream.rtake maxBuffer) ∧
    m.head ≤ m.buffer.length ∧ m.buffer.length ≤ 2 * maxBuffer ∧
    (∀ op : MatcherOp, op.applyChecked m = some (op.apply m)) ∧
    ∀ chunks : List (List UInt8),
      (s.stream ++ chunks.flatten).length - maxBuffer +
          (operated regex maxBuffer (ops ++ chunks.map .push)).searchStart =
        max s.position ((s.stream ++ chunks.flatten).length - maxBuffer) := by
  have h := shows_operated regex maxBuffer ops
  refine ⟨?_, ?_, h.in_bounds, h.bounded, h.applyChecked, fun chunks => ?_⟩
  · rw [PatternMatcher.liveChecked_eq h.in_bounds, h.live]
  · rw [PatternMatcher.intoBufferChecked_eq h.in_bounds, PatternMatcher.intoBuffer_eq, h.live]
  · have hsearch := (shows_operated regex maxBuffer (ops ++ chunks.map .push)).search
    rw [searched_pushes] at hsearch
    exact hsearch

end McpSerial
