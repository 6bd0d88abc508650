import McpSerial.Interaction.Program
import McpSerial.Text.Framing

/-! A buffered writer on an append-only sink, behind a lock. The sink may take a part of what
it is offered and append it later, or lose it; it may fail and be given up on at any time. The
writer keeps what it could not hand on, but what does not fit in its buffer goes straight to
the sink. -/

namespace Interaction.BufWriter
open Program Framing

variable {α : Type}

inductive Verdict where
  | ok
  | failed
  | elapsed
  deriving DecidableEq, Repr

/-- What became of an offer: how much of it was taken, what was reported, and how much of all
that was in hand was appended by then. -/
structure Taken (data : List α) where
  count : Nat
  le : count ≤ data.length
  verdict : Verdict
  landed : Nat

structure Synced where
  verdict : Verdict
  landed : Nat

inductive Request (α : Type) where
  | lock
  | write (data : List α)
  | flush

@[reducible] def Response : Request α → Type
  | .lock => Bool
  | .write data => Taken data
  | .flush => Synced

abbrev Code (α β : Type) := Program (Request α) Response β

abbrev Asked (α : Type) := Event (Request α) Response

/-- The buffer is `gone ++ kept`, of which `gone` is handed on already. -/
structure Writer (α : Type) where
  gone : List α
  kept : List α

def Writer.new : Writer α := ⟨[], []⟩

/-! ## The sink -/

/-- What is appended, and what is taken and not appended yet. -/
structure Sink (α : Type) where
  text : List α
  pending : List α

namespace Sink

def handed (s : Sink α) : List α := s.text ++ s.pending

/-- The sink behind an answer. A failure loses what was pending. -/
def answer (s : Sink α) : Asked α → Sink α
  | ⟨.lock, _⟩ => s
  | ⟨.write data, taken⟩ =>
    match taken.verdict with
    | .ok =>
      let hand := s.pending ++ data.take taken.count
      ⟨s.text ++ hand.take taken.landed, hand.drop taken.landed⟩
    | .failed => ⟨s.text ++ (s.pending ++ data).take taken.landed, []⟩
    | .elapsed =>
      ⟨s.text ++ (s.pending ++ data).take taken.landed, s.pending.drop taken.landed⟩
  | ⟨.flush, synced⟩ =>
    match synced.verdict with
    | .ok => ⟨s.handed, []⟩
    | .failed => ⟨s.text ++ s.pending.take synced.landed, []⟩
    | .elapsed => ⟨s.text ++ s.pending.take synced.landed, s.pending.drop synced.landed⟩

def after (s : Sink α) (es : List (Asked α)) : Sink α := es.foldl answer s

section After

variable {s : Sink α} {es fs : List (Asked α)} {e : Asked α} {data : List α}

@[simp] theorem after_nil : s.after [] = s := rfl

@[simp] theorem after_cons : s.after (e :: es) = (s.answer e).after es := rfl

@[simp] theorem after_append : s.after (es ++ fs) = (s.after es).after fs := List.foldl_append

theorem handed_took {taken : Taken data} (h : taken.verdict = .ok) :
    (s.answer ⟨.write data, taken⟩).handed = s.handed ++ data.take taken.count := by
  simp [answer, handed, h]

theorem handed_flushed {synced : Synced} (h : synced.verdict ≠ .failed) :
    (s.answer ⟨.flush, synced⟩).handed = s.handed := by
  cases hv : synced.verdict with
  | failed => exact absurd hv h
  | ok | elapsed => simp [answer, handed, hv]

theorem text_prefix_answer : s.text <+: (s.answer e).text := by
  rcases e with ⟨_ | data | _, x⟩
  · exact List.prefix_refl _
  · simp only [answer]
    cases x.verdict <;> exact List.prefix_append ..
  · simp only [answer]
    cases x.verdict <;> exact List.prefix_append ..

theorem text_prefix_after : s.text <+: (s.after es).text := by
  induction es generalizing s with
  | nil => exact List.prefix_refl _
  | cons e es ih => exact text_prefix_answer.trans ih

end After

end Sink

/-! ## The operations -/

def lock : Code α Bool := request Request.lock

def sync : Code α Synced := request Request.flush

def offer (data : List α) : Code α (Taken data) := request (Request.write data)

/-- Offers `data` until none of it is left, and returns what is. The first `skip` items
are taken already. -/
def offerAll : List α → Nat → Code α (Verdict × List α)
  | [], _ => return (.ok, [])
  | _ :: data, skip + 1 => offerAll data skip
  | b :: data, 0 => do
    let taken ← offer (b :: data)
    match taken.verdict, taken.count with
    | .ok, 0 => return (.failed, b :: data)
    | .ok, n + 1 => offerAll data n
    | v, _ => return (v, b :: data)

/-- `flush_buf`. A failure drains what was written off the buffer, a future that is
dropped does not. -/
def flushBuf (w : Writer α) : Code α (Verdict × Writer α) := do
  let (v, left) ← offerAll w.kept 0
  match v with
  | .elapsed => return (v, ⟨w.gone ++ w.kept.take (w.kept.length - left.length), left⟩)
  | _ => return (v, ⟨[], left⟩)

def makeRoom (capacity : Nat) (w : Writer α) (n : Nat) : Code α (Verdict × Writer α) :=
  if capacity < w.gone.length + w.kept.length + n then flushBuf w else return (.ok, w)

/-- `poll_write`: with the number of items that it took. -/
def pollWrite (capacity : Nat) (w : Writer α) (data : List α) :
    Code α (Verdict × Nat × Writer α) := do
  let (v, w) ← makeRoom capacity w data.length
  match v with
  | .ok =>
    -- what fills the buffer by itself goes past it
    if capacity ≤ data.length then
      let taken ← offer data
      return (taken.verdict, taken.count, w)
    else return (.ok, data.length, ⟨w.gone, w.kept ++ data⟩)
  | v => return (v, 0, w)

def writeAll (capacity : Nat) : List α → Nat → Writer α → Code α (Verdict × Writer α)
  | [], _, w => return (.ok, w)
  | _ :: data, skip + 1, w => writeAll capacity data skip w
  | b :: data, 0, w => do
    let (v, n, w) ← pollWrite capacity w (b :: data)
    match v, n with
    | .ok, 0 => return (.failed, w)
    | .ok, n + 1 => writeAll capacity data n w
    | v, _ => return (v, w)

def flush (w : Writer α) : Code α (Verdict × Writer α) := do
  let (v, w) ← flushBuf w
  match v with
  | .ok => do
    let synced ← sync
    return (synced.verdict, w)
  | v => return (v, w)

/-- One record under the lock: none when the lock was not granted in time. -/
def put (capacity : Nat) (record : List α) (w : Writer α) :
    Code α (Option Verdict × Writer α) := do
  if ← lock then
    let (v, w) ← writeAll capacity record 0 w
    match v with
    | .ok =>
      let (v, w) ← flush w
      return (some v, w)
    | v => return (some v, w)
  else return (none, w)

/-! ## What they do -/

section Spec

variable {capacity : Nat} {c : α} {s : Sink α} {w w' : Writer α} {es : List (Asked α)}
  {v : Verdict} {data left : List α}

structure Forwards (s : Sink α) (data : List α) (es : List (Asked α)) (v : Verdict)
    (left : List α) : Prop where
  suffix : left <:+ data
  ok_iff : v = .ok ↔ left = []
  handed_eq : v = .ok → (s.after es).handed = s.handed ++ data

theorem Forwards.stop (hv : v ≠ .ok) (hne : data ≠ []) : Forwards s data es v data :=
  ⟨List.suffix_refl _, iff_of_false hv hne, fun h => absurd h hv⟩

theorem offerAll_spec {skip : Nat} (h : Runs (offerAll data skip) es (ret (v, left))) :
    Forwards s (data.drop skip) es v left := by
  induction data generalizing skip s es with
  | nil =>
    obtain ⟨rfl, hret⟩ := runs_ret.mp h
    cases hret
    rw [List.drop_nil]
    exact ⟨List.suffix_refl _, iff_of_true rfl rfl, fun _ => (List.append_nil _).symm⟩
  | cons b data ih =>
    cases skip with
    | succ skip => exact ih h
    | zero =>
      obtain ⟨⟨n, hn, verdict, landed⟩, es', rfl, tail⟩ := runs_ask_ret.mp h
      have hstop (u : Verdict) (hu : u ≠ .ok) {fs : List (Asked α)}
          (hend : Runs (ret (u, b :: data) : Code α _) es' (ret (v, left))) :
          Forwards s (b :: data) fs v left := by
        obtain ⟨rfl, hret⟩ := runs_ret.mp hend
        cases hret
        exact .stop hu nofun
      cases verdict with
      | failed => exact hstop .failed nofun tail
      | elapsed => exact hstop .elapsed nofun tail
      | ok =>
        cases n with
        | zero => exact hstop .failed nofun tail
        | succ n =>
          have hrest := ih (s := s.answer ⟨.write (b :: data), ⟨n + 1, hn, .ok, landed⟩⟩) tail
          refine ⟨?_, hrest.ok_iff, fun hv => ?_⟩
          · exact hrest.suffix.trans ((List.drop_suffix n data).trans (List.suffix_cons b data))
          · rw [Sink.after_cons, hrest.handed_eq hv, Sink.handed_took rfl, List.append_assoc]
            exact congrArg (s.handed ++ b :: ·) (List.take_append_drop n data)

/-! ### The buffer -/

theorem flushBuf_spec (h : Runs (flushBuf w) es (ret (v, w'))) :
    Forwards s w.kept es v w'.kept := by
  obtain ⟨⟨v', left⟩, es₁, es₂, rfl, hoffer, hrest⟩ := runs_bind_ret.mp h
  have hspec := offerAll_spec (s := s) hoffer
  have hend : v' = v ∧ left = w'.kept ∧ es₂ = [] := by
    cases v' <;> obtain ⟨rfl, hret⟩ := runs_ret.mp hrest <;> cases hret <;> exact ⟨rfl, rfl, rfl⟩
  obtain ⟨rfl, rfl, rfl⟩ := hend
  rw [List.append_nil]
  exact hspec

structure Keeps (front : List α) (v : Verdict) (w' : Writer α) : Prop where
  failed : v ≠ .ok
  kept_ne : w'.kept ≠ []
  suffix : w'.kept <:+ front

theorem Forwards.keeps (h : Forwards s data es v w'.kept) (hv : v ≠ .ok) : Keeps data v w' :=
  ⟨hv, fun hnone => hv (h.ok_iff.mpr hnone), h.suffix⟩

theorem Keeps.of_suffix {front front' : List α} (h : Keeps front v w')
    (hsuffix : front <:+ front') : Keeps front' v w' := ⟨h.failed, h.kept_ne, h.suffix.trans hsuffix⟩

theorem Keeps.ended {front : List α} (h : Keeps front v w') (hended : Ended [c] front)
    (before : List α) : Ended [c] (before ++ w'.kept) := by
  obtain ⟨gone, rfl⟩ := h.suffix
  have hwhole : Ended [c] ([] ++ (gone ++ w'.kept)) := hended
  exact hwhole.of_append h.kept_ne before

structure Passes (capacity : Nat) (s : Sink α) (w : Writer α) (data : List α)
    (es : List (Asked α)) (v : Verdict) (n : Nat) (w' : Writer α) : Prop where
  long : capacity ≤ data.length
  kept_eq : w'.kept = []
  last : ∃ taken : Taken data, es.getLast? = some ⟨.write data, taken⟩ ∧ taken.verdict = v ∧
    taken.count = n
  handed_eq : v = .ok → (s.after es).handed = s.handed ++ (w.kept ++ data.take n)

structure Buffers (s : Sink α) (w : Writer α) (data : List α) (es : List (Asked α)) (v : Verdict)
    (n : Nat) (w' : Writer α) : Prop where
  ok : v = .ok
  taken : n = data.length
  handed_eq : (s.after es).handed ++ w'.kept = s.handed ++ (w.kept ++ data)

theorem makeRoom_failed {n : Nat} (h : Runs (makeRoom capacity w n) es (ret (v, w')))
    (hv : v ≠ .ok) : Keeps w.kept v w' := by
  unfold makeRoom at h
  split at h
  · exact (flushBuf_spec (s := ⟨[], []⟩) h).keeps hv
  · obtain ⟨_, hret⟩ := runs_ret.mp h
    cases hret
    exact absurd rfl hv

theorem makeRoom_ok {n : Nat} (h : Runs (makeRoom capacity w n) es (ret (.ok, w'))) :
    (s.after es).handed ++ w'.kept = s.handed ++ w.kept ∧ (capacity ≤ n → w'.kept = []) := by
  unfold makeRoom at h
  split at h
  next =>
    have hspec := flushBuf_spec (s := s) h
    have hnone := hspec.ok_iff.mp rfl
    rw [hspec.handed_eq rfl, hnone, List.append_nil]
    exact ⟨rfl, fun _ => rfl⟩
  next hroom =>
    obtain ⟨rfl, hret⟩ := runs_ret.mp h
    cases hret
    refine ⟨rfl, fun hlong => List.length_eq_zero_iff.mp ?_⟩
    omega

theorem pollWrite_spec {n : Nat} (h : Runs (pollWrite capacity w data) es (ret (v, n, w'))) :
    Keeps w.kept v w' ∨ Passes capacity s w data es v n w' ∨ Buffers s w data es v n w' := by
  obtain ⟨⟨v₁, w₁⟩, es₁, es₂, rfl, hroom, hrest⟩ := runs_bind_ret.mp h
  have hkeeps (hv : v₁ ≠ .ok) (hend : Runs (ret (v₁, 0, w₁) : Code α _) es₂ (ret (v, n, w'))) :
      Keeps w.kept v w' := by
    obtain ⟨rfl, hret⟩ := runs_ret.mp hend
    cases hret
    exact makeRoom_failed hroom hv
  cases v₁ with
  | failed => exact .inl (hkeeps nofun hrest)
  | elapsed => exact .inl (hkeeps nofun hrest)
  | ok =>
    obtain ⟨hhanded, hempty⟩ := makeRoom_ok (s := s) hroom
    dsimp only at hrest
    by_cases hlong : capacity ≤ data.length
    · rw [if_pos hlong] at hrest
      obtain ⟨taken, es₃, rfl, hend⟩ := runs_ask_ret.mp hrest
      obtain ⟨rfl, hret⟩ := runs_ret.mp hend
      cases hret
      rw [hempty hlong, List.append_nil] at hhanded
      refine .inr (.inl ⟨hlong, hempty hlong, ⟨taken, List.getLast?_concat, rfl, rfl⟩, ?_⟩)
      intro hok
      rw [Sink.after_append, Sink.after_cons, Sink.after_nil, Sink.handed_took hok, hhanded,
        List.append_assoc]
    · rw [if_neg hlong] at hrest
      obtain ⟨rfl, hret⟩ := runs_ret.mp hrest
      cases hret
      refine .inr (.inr ⟨rfl, rfl, ?_⟩)
      rw [List.append_nil, ← List.append_assoc, hhanded, List.append_assoc]

/-! ### A record -/

/-- What is in hand is given up: a rest of the record that is too long for the buffer is not
taken, or a flush fails. -/
inductive GivesUp (capacity : Nat) (record : List α) : Asked α → Prop where
  | write {data : List α} {taken : Taken data} (rest : data <:+ record)
      (long : capacity ≤ data.length) (nothing : taken.verdict = .ok → taken.count = 0) :
      GivesUp capacity record ⟨.write data, taken⟩
  | flush {synced : Synced} (failed : synced.verdict = .failed) :
      GivesUp capacity record ⟨.flush, synced⟩

def EndsGivenUp (capacity : Nat) (record : List α) (es : List (Asked α)) : Prop :=
  ∃ e, es.getLast? = some e ∧ GivesUp capacity record e

theorem EndsGivenUp.behind {record : List α} {fs : List (Asked α)}
    (h : EndsGivenUp capacity record fs) (es : List (Asked α)) :
    EndsGivenUp capacity record (es ++ fs) := by
  obtain ⟨e, hlast, he⟩ := h
  exact ⟨e, by rw [List.getLast?_append, hlast]; rfl, he⟩

/-- The record is in the sink or in the buffer; or the buffer was not handed on and the record
not taken up; or it was given up on its way straight to the sink. -/
inductive WritesAll (capacity : Nat) (s : Sink α) (w : Writer α) (record data : List α)
    (es : List (Asked α)) (v : Verdict) (w' : Writer α) : Prop where
  | took (ok : v = .ok) (handed_eq : (s.after es).handed ++ w'.kept = s.handed ++ (w.kept ++ data))
  | kept (keeps : Keeps w.kept v w')
  | lost (failed : v ≠ .ok) (kept_eq : w'.kept = []) (last : EndsGivenUp capacity record es)

theorem writeAll_done {skip : Nat} (h : data.length ≤ skip) :
    writeAll capacity data skip w = ret (.ok, w) := by
  induction data generalizing skip with
  | nil => rfl
  | cons b data ih =>
    cases skip with
    | zero => cases h
    | succ skip => exact ih (Nat.le_of_succ_le_succ h)

/-- The rest of the record behind a part that the sink took straight away. -/
theorem Passes.writesAll {b : α} {n : Nat} {w₁ : Writer α} {es₁ es₂ : List (Asked α)}
    {record : List α} (h : Passes capacity s w (b :: data) es₁ .ok (n + 1) w₁)
    (hrest : WritesAll capacity (s.after es₁) w₁ record (data.drop n) es₂ v w') :
    WritesAll capacity s w record (b :: data) (es₁ ++ es₂) v w' := by
  cases hrest with
  | took ok handed_eq =>
    refine .took ok ?_
    rw [Sink.after_append, handed_eq, h.handed_eq rfl, h.kept_eq, List.nil_append,
      List.append_assoc, List.append_assoc]
    exact congrArg (fun xs => s.handed ++ (w.kept ++ b :: xs)) (List.take_append_drop n data)
  | kept keeps =>
    have hnone := h.kept_eq ▸ keeps.suffix
    exact absurd (List.suffix_nil.mp hnone) keeps.kept_ne
  | lost failed kept_eq last => exact .lost failed kept_eq (last.behind es₁)

theorem writeAll_spec {skip : Nat} {record : List α} (hrecord : data <:+ record)
    (h : Runs (writeAll capacity data skip w) es (ret (v, w'))) :
    WritesAll capacity s w record (data.drop skip) es v w' := by
  induction data generalizing skip s w es with
  | nil =>
    obtain ⟨rfl, hret⟩ := runs_ret.mp h
    cases hret
    rw [List.drop_nil]
    exact .took rfl (by rw [List.append_nil]; rfl)
  | cons b data ih =>
    have hdata : data <:+ record := (List.suffix_cons b data).trans hrecord
    cases skip with
    | succ skip => exact ih hdata h
    | zero =>
      obtain ⟨⟨v₁, n, w₁⟩, es₁, es₂, rfl, hpoll, hrest⟩ := runs_bind_ret.mp h
      rcases pollWrite_spec (s := s) hpoll with hkeeps | hpasses | ⟨rfl, rfl, hhanded⟩
      · have hend : Runs (ret (v₁, w₁) : Code α _) es₂ (ret (v, w')) := by
          cases v₁ with
          | ok => exact absurd rfl hkeeps.failed
          | failed => exact hrest
          | elapsed => exact hrest
        obtain ⟨rfl, hret⟩ := runs_ret.mp hend
        cases hret
        exact .kept hkeeps
      · obtain ⟨taken, htaken, hverdict, hcount⟩ := hpasses.last
        have hlost (u : Verdict) (hu : u ≠ .ok) (hnothing : taken.verdict = .ok → taken.count = 0)
            (hend : Runs (ret (u, w₁) : Code α _) es₂ (ret (v, w'))) :
            WritesAll capacity s w record (b :: data) (es₁ ++ es₂) v w' := by
          obtain ⟨rfl, hret⟩ := runs_ret.mp hend
          cases hret
          rw [List.append_nil]
          exact .lost hu hpasses.kept_eq ⟨_, htaken, .write hrecord hpasses.long hnothing⟩
        cases v₁ with
        | failed =>
          have hnot : taken.verdict ≠ .ok := hverdict ▸ nofun
          exact hlost .failed nofun (fun hok => absurd hok hnot) hrest
        | elapsed =>
          have hnot : taken.verdict ≠ .ok := hverdict ▸ nofun
          exact hlost .elapsed nofun (fun hok => absurd hok hnot) hrest
        | ok =>
          cases n with
          | zero => exact hlost .failed nofun (fun _ => hcount) hrest
          | succ n => exact hpasses.writesAll (ih hdata hrest)
      · have hend : Runs (ret (.ok, w₁) : Code α _) es₂ (ret (v, w')) := by
          rw [← writeAll_done (Nat.le_refl data.length)]
          exact hrest
        obtain ⟨rfl, hret⟩ := runs_ret.mp hend
        cases hret
        rw [List.append_nil]
        exact .took rfl hhanded

inductive Flushes (capacity : Nat) (record : List α) (s : Sink α) (w : Writer α)
    (es : List (Asked α)) (v : Verdict) (w' : Writer α) : Prop where
  | kept (keeps : Keeps w.kept v w')
  | lost (failed : v ≠ .ok) (kept_eq : w'.kept = []) (last : EndsGivenUp capacity record es)
  | handed (kept_eq : w'.kept = []) (handed_eq : (s.after es).handed = s.handed ++ w.kept)
      (done : v = .ok → (s.after es).pending = [])

theorem flush_spec (record : List α) (h : Runs (flush w) es (ret (v, w'))) :
    Flushes capacity record s w es v w' := by
  obtain ⟨⟨v₁, w₁⟩, es₁, es₂, rfl, hflush, hrest⟩ := runs_bind_ret.mp h
  have hspec := flushBuf_spec (s := s) hflush
  have hkeeps (hv : v₁ ≠ .ok) (hend : Runs (ret (v₁, w₁) : Code α _) es₂ (ret (v, w'))) :
      Keeps w.kept v w' := by
    obtain ⟨rfl, hret⟩ := runs_ret.mp hend
    cases hret
    exact hspec.keeps hv
  cases v₁ with
  | failed => exact .kept (hkeeps nofun hrest)
  | elapsed => exact .kept (hkeeps nofun hrest)
  | ok =>
    obtain ⟨synced, es₃, rfl, hend⟩ := runs_ask_ret.mp hrest
    obtain ⟨rfl, hret⟩ := runs_ret.mp hend
    cases hret
    have hnone := hspec.ok_iff.mp rfl
    by_cases hfailed : synced.verdict = .failed
    · refine .lost (hfailed ▸ nofun) hnone ⟨_, List.getLast?_concat, .flush hfailed⟩
    · refine .handed hnone ?_ fun hok => ?_
      · rw [Sink.after_append, Sink.after_cons, Sink.after_nil, Sink.handed_flushed hfailed,
          hspec.handed_eq rfl]
      · rw [Sink.after_append, Sink.after_cons, Sink.after_nil]
        simp [Sink.answer, hok]

inductive Puts (capacity : Nat) (record : List α) (s : Sink α) (w : Writer α)
    (es : List (Asked α)) (o : Option Verdict) (w' : Writer α) : Prop where
  | lockedOut (outcome : o = none) (same : w' = w) (silent : s.after es = s)
  | refused (v : Verdict) (outcome : o = some v) (keeps : Keeps (s.handed ++ w.kept) v w')
  | kept (v : Verdict) (outcome : o = some v)
      (keeps : Keeps (s.handed ++ (w.kept ++ record)) v w')
  | lost (v : Verdict) (failed : o = some v ∧ v ≠ .ok) (kept_eq : w'.kept = [])
      (last : EndsGivenUp capacity record es)
  | handed (v : Verdict) (outcome : o = some v) (kept_eq : w'.kept = [])
      (handed_eq : (s.after es).handed = s.handed ++ (w.kept ++ record))
      (done : v = .ok → (s.after es).pending = [])

theorem put_cases {record : List α} {o : Option Verdict}
    (h : Runs (put capacity record w) es (ret (o, w'))) : Puts capacity record s w es o w' := by
  obtain ⟨locked, es', rfl, hrest⟩ := runs_ask_ret.mp h
  cases locked with
  | false =>
    obtain ⟨rfl, hret⟩ := runs_ret.mp hrest
    cases hret
    exact .lockedOut rfl rfl rfl
  | true =>
    change Runs (writeAll capacity record 0 w >>= _) es' (ret (o, w')) at hrest
    obtain ⟨⟨v₁, w₁⟩, es₁, es₂, rfl, hwrite, hrest⟩ := runs_bind_ret.mp hrest
    have hend (hv : v₁ ≠ .ok) : es₂ = [] ∧ o = some v₁ ∧ w' = w₁ := by
      cases v₁ with
      | ok => exact absurd rfl hv
      | failed | elapsed =>
        obtain ⟨rfl, hret⟩ := runs_ret.mp hrest
        cases hret
        exact ⟨rfl, rfl, rfl⟩
    -- only a record that was taken whole is flushed
    cases writeAll_spec (s := s) (List.suffix_refl record) hwrite with
    | took ok handed_eq =>
      subst ok
      rw [List.drop_zero] at handed_eq
      obtain ⟨⟨v₂, w₂⟩, es₃, es₄, rfl, hflush, hrest⟩ := runs_bind_ret.mp hrest
      obtain ⟨rfl, hret⟩ := runs_ret.mp hrest
      cases hret
      rw [List.append_nil]
      cases flush_spec (s := s.after es₁) record hflush with
      | kept keeps =>
        exact .kept v₂ rfl (keeps.of_suffix (handed_eq ▸ List.suffix_append ..))
      | lost failed kept_eq last =>
        exact .lost v₂ ⟨rfl, failed⟩ kept_eq (last.behind (⟨Request.lock, true⟩ :: es₁))
      | handed kept_eq handed_eq' done =>
        have hafter : s.after (⟨Request.lock, true⟩ :: (es₁ ++ es₃)) = (s.after es₁).after es₃ :=
          Sink.after_append
        refine .handed v₂ rfl kept_eq ?_ fun hok => ?_
        · rw [hafter, handed_eq', handed_eq]
        · rw [hafter]
          exact done hok
    | kept keeps =>
      obtain ⟨rfl, rfl, rfl⟩ := hend keeps.failed
      exact .refused v₁ rfl (keeps.of_suffix (List.suffix_append ..))
    | lost failed kept_eq last =>
      obtain ⟨rfl, rfl, rfl⟩ := hend failed
      rw [List.append_nil]
      exact .lost v₁ ⟨rfl, failed⟩ kept_eq (last.behind [⟨Request.lock, true⟩])

/-- What was in hand is given up, in the middle of a line. -/
def BreaksOff (capacity : Nat) (c : α) (record : List α) (s : Sink α) (es : List (Asked α)) :
    Prop := EndsGivenUp capacity record es ∧ ¬Ended [c] (s.after es).handed

/-- What is in the sink and in the buffer ends a line, and so it does after a record of one
line that did not break off. -/
theorem put_ended {record : List α} {o : Option Verdict}
    (h : Runs (put capacity record w) es (ret (o, w'))) (hrecord : [c] <:+ record)
    (hended : Ended [c] (s.handed ++ w.kept)) (hwhole : ¬BreaksOff capacity c record s es) :
    Ended [c] ((s.after es).handed ++ w'.kept) := by
  have hne : record ≠ [] := by
    rintro rfl
    exact absurd hrecord (by simp)
  have hafter : Ended [c] (s.handed ++ (w.kept ++ record)) := by
    rw [← List.append_assoc]
    exact (ended_append_iff hne).mpr hrecord
  cases put_cases (s := s) h with
  | lockedOut _ same silent =>
    rw [same, silent]
    exact hended
  | refused v _ keeps => exact keeps.ended hended _
  | kept v _ keeps => exact keeps.ended hafter _
  | lost v _ kept_eq last =>
    rw [kept_eq, List.append_nil]
    by_contra hnot
    exact hwhole ⟨last, hnot⟩
  | handed v _ kept_eq handed_eq =>
    rw [kept_eq, List.append_nil, handed_eq]
    exact hafter

theorem put_done {record : List α} (h : Runs (put capacity record w) es (ret (some .ok, w'))) :
    (s.after es).text = s.handed ++ (w.kept ++ record) ∧ (s.after es).pending = [] ∧
      w'.kept = [] := by
  cases put_cases (s := s) h with
  | lockedOut outcome => cases outcome
  | refused v outcome keeps => exact absurd (Option.some.inj outcome).symm keeps.failed
  | kept v outcome keeps => exact absurd (Option.some.inj outcome).symm keeps.failed
  | lost v failed => exact absurd (Option.some.inj failed.1).symm failed.2
  | handed v outcome kept_eq handed_eq done =>
    have hpending := done (Option.some.inj outcome).symm
    rw [Sink.handed, hpending, List.append_nil] at handed_eq
    exact ⟨handed_eq, hpending, kept_eq⟩

/-! ### Runs of a short record -/

def Taken.all (data : List α) : Taken data := ⟨data.length, Nat.le_refl _, .ok, 0⟩

def Taken.none (data : List α) : Taken data := ⟨0, Nat.zero_le _, .failed, 0⟩

def taking (data : List α) (synced : Synced) : List (Asked α) :=
  [⟨.lock, true⟩, ⟨.write data, .all _⟩, ⟨.flush, synced⟩]

def refusing (data : List α) : List (Asked α) := [⟨.lock, true⟩, ⟨.write data, .none _⟩]

theorem after_taking_ok (n : Nat) : s.after (taking data ⟨.ok, n⟩) = ⟨s.handed ++ data, []⟩ := by
  simp [taking, Taken.all, Sink.answer, Sink.handed]

theorem after_taking_failed (text : List α) (n : Nat) :
    (⟨text, []⟩ : Sink α).after (taking data ⟨.failed, n⟩) = ⟨text ++ data.take n, []⟩ := by
  simp [taking, Taken.all, Sink.answer]

theorem after_refusing : s.after (refusing data) = ⟨s.text, []⟩ := by
  simp [refusing, Taken.none, Sink.answer]

theorem offerAll_done {skip : Nat} (h : data.length ≤ skip) :
    offerAll data skip = ret (.ok, []) := by
  induction data generalizing skip with
  | nil => rfl
  | cons b data ih =>
    cases skip with
    | zero => cases h
    | succ skip => exact ih (Nat.le_of_succ_le_succ h)

theorem writeAll_short {record kept : List α} (hne : record ≠ [])
    (hshort : record.length < capacity) (hroom : kept.length + record.length ≤ capacity) :
    writeAll capacity record 0 ⟨[], kept⟩ = ret (.ok, ⟨[], kept ++ record⟩) := by
  obtain ⟨b, data, rfl⟩ := List.exists_cons_of_ne_nil hne
  have hfits : makeRoom capacity ⟨[], kept⟩ (b :: data).length = ret (.ok, ⟨[], kept⟩) := by
    refine if_neg ?_
    rw [List.length_nil, Nat.zero_add]
    exact Nat.not_lt.mpr hroom
  have hpoll : pollWrite capacity ⟨[], kept⟩ (b :: data) =
      ret (.ok, (b :: data).length, ⟨[], kept ++ b :: data⟩) := by
    unfold pollWrite
    rw [hfits]
    exact if_neg (Nat.not_le_of_lt hshort)
  show (pollWrite capacity ⟨[], kept⟩ (b :: data) >>= _) = _
  rw [hpoll]
  exact writeAll_done (Nat.le_refl _)

section Short

variable {record kept : List α}

/-- A record that the buffer has room for, when the sink takes what is in the buffer. -/
theorem put_short (hne : record ≠ []) (hshort : record.length < capacity)
    (hroom : kept.length + record.length ≤ capacity) (synced : Synced) :
    Runs (put capacity record ⟨[], kept⟩) (taking (kept ++ record) synced)
      (ret (some synced.verdict, .new)) := by
  obtain ⟨b, data, hdata⟩ :=
    List.exists_cons_of_ne_nil (List.append_ne_nil_of_right_ne_nil kept hne)
  refine .step ?_
  change Runs (writeAll capacity record 0 ⟨[], kept⟩ >>= _) _ _
  rw [writeAll_short hne hshort hroom, hdata]
  refine .step ?_
  change Runs (((offerAll data data.length >>= _) >>= _) >>= _) _ _
  rw [offerAll_done (Nat.le_refl _)]
  exact .step (.refl _)

theorem put_refused (hne : record ≠ []) (hshort : record.length < capacity)
    (hroom : kept.length + record.length ≤ capacity) :
    Runs (put capacity record ⟨[], kept⟩) (refusing (kept ++ record))
      (ret (some .failed, ⟨[], kept ++ record⟩)) := by
  obtain ⟨b, data, hdata⟩ :=
    List.exists_cons_of_ne_nil (List.append_ne_nil_of_right_ne_nil kept hne)
  refine .step ?_
  change Runs (writeAll capacity record 0 ⟨[], kept⟩ >>= _) _ _
  rw [writeAll_short hne hshort hroom, hdata]
  exact .step (.refl _)

end Short

end Spec

end Interaction.BufWriter
