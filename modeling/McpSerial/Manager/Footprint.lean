import McpSerial.Manager.Calls

/-! The requests an operation can ask at all: operations on a port never touch the
table, and those that only read never write. -/

namespace McpSerial
open Interaction Interaction.Discipline

def Request.queries (id : String) : Request → Bool
  | .get id' => id' = id
  | r => r.isQuery

def Request.reads (id : String) : Request → Bool
  | .lock .. | .unlock _ | .read .. => true
  | r => r.queries id

/-- Requests of an operation that reads or writes the port of `id`. -/
def Request.usesPort (id : String) : Request → Bool
  | .write .. | .flush .. => true
  | r => r.reads id

def Request.closes : Request → Bool
  | .beginClose _ | .restoreReady .. | .finishClose _ | .lock .. | .unlock _ => true
  | r => r.isQuery

theorem Request.ioPort_of_closes {r : Request} (h : r.closes) : r.ioPort = none := by
  cases r <;> first | rfl | cases h

theorem Request.reads_of_queries {id : String} {r : Request} (h : r.queries id) : r.reads id := by
  cases r <;> first | exact h | rfl

theorem Request.usesPort_of_reads {id : String} {r : Request} (h : r.reads id) :
    r.usesPort id := by
  cases r <;> first | exact h | rfl

theorem Request.usesPort_of_queries {id : String} {r : Request} (h : r.queries id) :
    r.usesPort id :=
  usesPort_of_reads (reads_of_queries h)

variable {α : Type} {P : Request → Prop} {id : String} {port : Handle} {timeoutMs : Nat}
  {token : Token}

def OnlyAsks (P : Request → Prop) (p : Op α) : Prop :=
  (only P).Meets () p (fun _ _ => True) (fun _ _ => True)

theorem only_plain (hP : ∀ r : Request, r.queries id → P r) :
    Plain (only P : Discipline Request Response) := by
  constructor <;> intros <;> first | exact ⟨hP _ rfl, fun _ => rfl⟩ | rfl

theorem only_steadyRead (hP : ∀ r : Request, r.reads id → P r) :
    SteadyRead (only P : Discipline Request Response) () port where
  read _ _ := ⟨hP _ rfl, fun _ => rfl⟩

theorem only_steady (hP : ∀ r : Request, r.usesPort id → P r) :
    Steady (only P : Discipline Request Response) () port where
  read _ _ := ⟨hP _ rfl, fun _ => rfl⟩
  write _ _ := ⟨hP _ rfl, fun _ => rfl⟩
  flush _ := ⟨hP _ rfl, fun _ => rfl⟩

namespace OnlyAsks

theorem pure (a : α) : OnlyAsks P (pure a : Op α) := trivial

theorem throw (e : SerialError) : OnlyAsks P (throw e : Op α) := trivial

theorem bind {β : Type} {p : Op α} {next : α → Op β} (h : OnlyAsks P p)
    (k : ∀ a, OnlyAsks P (next a)) : OnlyAsks P (p >>= next) :=
  Meets.bind h fun _ a _ => k a

theorem mono {P' : Request → Prop} {p : Op α} (h : OnlyAsks P p) (hP : ∀ r, P r → P' r) :
    OnlyAsks P' p := Follows.only_mono h hP

theorem of_steady {body : Op α} (h : KeepsSteady (only P) () body) : OnlyAsks P body :=
  h.mono (fun _ _ _ => trivial) fun _ _ _ => trivial

theorem checkoutPortAndTimeout (hP : ∀ r : Request, r.queries id → P r) :
    OnlyAsks P (checkoutPortAndTimeout id) :=
  meets_checkoutPortAndTimeout (hP _ (decide_eq_true rfl)) (fun _ _ _ => trivial)
    (fun _ _ => trivial) trivial

theorem checkoutPort (hP : ∀ r : Request, r.queries id → P r) : OnlyAsks P (checkoutPort id) :=
  meets_checkoutPort (hP _ (decide_eq_true rfl)) (fun _ _ _ => trivial) (fun _ _ => trivial) trivial

theorem withPort (hP : ∀ r : Request, r.reads id → P r) {body : Op α} (h : OnlyAsks P body) :
    OnlyAsks P (withPort id port timeoutMs token body) := by
  apply meets_withPort (only_plain fun r hr => hP r (Request.reads_of_queries hr))
  · exact hP _ rfl
  · trivial
  · trivial
  · exact hP _ (decide_eq_true rfl)
  · intro x _ _
    exact Meets.mono h (fun _ _ _ => ⟨hP _ rfl, trivial⟩) fun _ _ _ => ⟨hP _ rfl, trivial⟩
  · exact fun _ _ => ⟨hP _ rfl, trivial⟩
  · exact ⟨hP _ rfl, trivial⟩

theorem readWithCancel (id : String) (maxBytes timeoutMs : Nat) (token : Token) :
    OnlyAsks (fun r => r.reads id) (readWithCancel id maxBytes timeoutMs token) := by
  apply (checkoutPort fun _ => Request.reads_of_queries).bind
  intro port
  apply withPort fun _ hr => hr
  exact of_steady ((only_steadyRead fun _ hr => hr).readLocked
    (only_plain fun _ => Request.reads_of_queries) ..)

theorem drain (id : String) (maxBytes : Nat) (token : Token) :
    OnlyAsks (fun r => r.reads id) (drain id maxBytes token) :=
  readWithCancel id maxBytes drainTotalMs token

theorem readUntilWithCancel (rx : RegexCrate) (id pattern : String) (timeoutMs : Nat)
    (token : Token) :
    OnlyAsks (fun r => r.reads id) (readUntilWithCancel rx id pattern timeoutMs token) := by
  have hplain := only_plain (P := fun r => r.reads id) fun _ => Request.reads_of_queries
  apply (checkoutPort fun _ => Request.reads_of_queries).bind
  intro port
  cases PatternMatcher.new rx pattern with
  | error e => exact .throw e
  | ok m =>
    apply withPort fun _ hr => hr
    apply of_steady
    apply ((only_steadyRead fun _ hr => hr).readUntilLocked hplain m token .unknown .none).bind
    exact fun _ => KeepsSteady.elapsedMs hplain fun _ => .pure _

theorem writeWithCancel (id : String) (data : List UInt8) (token : Token) :
    OnlyAsks (fun r => r.usesPort id) (writeWithCancel id data token) := by
  apply (checkoutPortAndTimeout fun _ => Request.usesPort_of_queries).bind
  rintro ⟨port, timeoutMs⟩
  apply withPort fun _ => Request.usesPort_of_reads
  exact of_steady ((only_steady fun _ hr => hr).writeAndFlush
    (only_plain fun _ => Request.usesPort_of_queries) ..)

theorem execWithOptions (rx : RegexCrate) (id : String) (command : List UInt8) (expect : String)
    (timeoutMs : Nat) (options : ExecOptions) (token : Token) :
    OnlyAsks (fun r => r.usesPort id)
      (execWithOptions rx id command expect timeoutMs options token) := by
  have hplain := only_plain (P := fun r => r.usesPort id) fun _ => Request.usesPort_of_queries
  unfold McpSerial.execWithOptions
  split
  · exact .throw _
  · apply (checkoutPort fun _ => Request.usesPort_of_queries).bind
    intro port
    cases PatternMatcher.new rx expect with
    | error e => exact .throw e
    | ok m =>
      unfold OnlyAsks
      rw [meets_bind, meets_ofResult]
      show (only _).Meets () (_ >>= _) _ _
      rw [meets_bind, meets_ask]
      refine ⟨rfl, fun cancelled => ?_⟩
      cases cancelled with
      | true => exact OnlyAsks.pure _
      | false =>
        have hsteady : Steady (only fun r => r.usesPort id) () port := only_steady fun _ hr => hr
        apply withPort fun _ => Request.usesPort_of_reads
        exact of_steady ((hsteady.clearBefore hplain options token).bind
          fun cleared => hsteady.execCleared hplain ..)

theorem closeWithTimeout (id : String) (timeoutMs : Nat) :
    OnlyAsks (fun r => r.closes) (closeWithTimeout id timeoutMs) := by
  have hplain : Plain (only fun r : Request => r.closes) := by
    constructor <;> intros <;> first | exact ⟨rfl, fun _ => rfl⟩ | rfl
  unfold OnlyAsks McpSerial.closeWithTimeout
  rw [meets_bind, meets_ask]
  refine ⟨rfl, fun begun => ?_⟩
  rcases begun with e | (none | port)
  · trivial
  · exact ⟨rfl, fun _ => trivial⟩
  · show (only _).Meets () (Fallible.attempt (lockPort port timeoutMs .never) >>= _) _ _
    rw [meets_bind, meets_attempt]
    apply meets_lockPort hplain rfl
    · exact ⟨rfl, fun _ => ⟨rfl, fun _ => trivial⟩⟩
    · exact ⟨rfl, fun _ => trivial⟩
    · exact ⟨rfl, fun _ => trivial⟩

end OnlyAsks
end McpSerial
