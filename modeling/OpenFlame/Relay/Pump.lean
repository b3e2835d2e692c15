import Mathlib.Algebra.Ring.Nat
import Mathlib.Data.List.Basic

/-!
# One direction of the Unix relay

A pump reads chunks from one stream and writes them to another, within a budget of bytes.

`ByteBudget.consume`   `_ByteBudget.consume`
`Pump.step`            what `_pump` does with the answer it waits for

* `Pump.Sound`         what was written is a prefix of what was read, and within the budget;
* `Pump.step_sound`    **every step keeps it**;
* `Pump.relays`        **a stream within the budget is relayed completely, in any chunks.**
-/

set_option linter.all false

namespace OpenFlame.Relay

/-- the reasons of `RelayAuditEvent` -/
inductive Reason where
  | connected
  | completed
  | non_loopback_peer
  | connection_limit
  | unsafe_upstream_path
  | upstream_path_changed
  | unix_sockets_unavailable
  | connect_timeout
  | upstream_unavailable
  | client_to_upstream_limit
  | upstream_to_client_limit
  | idle_timeout
  | total_timeout
  | relay_failure
  deriving DecidableEq

/-- how a coroutine ends: it returns, or raises `_RelayFailure`, `TimeoutError`, another exception or `CancelledError` -/
inductive Exit where
  | returned
  | failure (reason : Reason)
  | timeout
  | other
  | cancelled
  deriving DecidableEq

/-- what a stream raises: `TimeoutError`, another error that `_half_close` catches, or one that it does not catch -/
inductive Fault where
  | timeout
  | caught
  | uncaught
  deriving DecidableEq

def Fault.exit : Fault → Exit
  | .timeout => .timeout
  | .caught => .other
  | .uncaught => .other

/-- the `except` of `_half_close` -/
def Fault.halfCloseExit : Fault → Exit
  | .timeout => .returned
  | .caught => .returned
  | .uncaught => .other

/-! ## budgets -/

structure ByteBudget where
  limit : Nat
  failure_reason : Reason
  used : Nat
  deriving DecidableEq

def ByteBudget.remaining (b : ByteBudget) : Nat := b.limit - b.used

/-- the budget after the bytes; `none` raises `failure_reason` -/
def ByteBudget.consume (b : ByteBudget) (size : Nat) : Option ByteBudget :=
  if b.remaining < size then none else some { b with used := b.used + size }

/-! ## pumps -/

abbrev Bytes := List UInt8

inductive PumpPhase where
  | reading
  | draining
  | halfClosing
  | over (exit : Exit)
  deriving DecidableEq

structure Pump where
  budget : ByteBudget
  phase : PumpPhase
  /-- `cancel()` was called, and the next step raises -/
  cancelled : Bool
  /-- what the reader returned so far -/
  read : Bytes
  /-- what the writer was given -/
  written : Bytes
  /-- the reader returned `b""` -/
  ended : Bool
  deriving DecidableEq

def Pump.start (limit : Nat) (failure_reason : Reason) : Pump where
  budget := ⟨limit, failure_reason, 0⟩
  phase := .reading
  cancelled := false
  read := []
  written := []
  ended := false

/-- what becomes of `write_eof` -/
inductive HalfClose where
  | unable
  | drains
  | raises (fault : Fault)
  deriving DecidableEq

/-- what a pump waits for -/
inductive PumpAnswer where
  | chunk (bytes : Bytes)
  | eof (half_close : HalfClose)
  | drained
  | raises (fault : Fault)
  deriving DecidableEq

/-- `min(io_chunk_bytes, max(1, budget.remaining))` -/
def Pump.readSize (io_chunk_bytes : Nat) (p : Pump) : Nat := min io_chunk_bytes (max 1 p.budget.remaining)

/-- a chunk: `consume`, then `write` -/
def Pump.carry (p : Pump) (chunk : Bytes) : Pump :=
  match p.budget.consume chunk.length with
  | none => { p with read := p.read ++ chunk, phase := .over (.failure p.budget.failure_reason) }
  | some budget =>
    { p with budget := budget, read := p.read ++ chunk, written := p.written ++ chunk, phase := .draining }

/-- `_half_close` up to its `drain` -/
def Pump.halfClose (p : Pump) : HalfClose → Pump
  | .unable => { p with ended := true, phase := .over .returned }
  | .drains => { p with ended := true, phase := .halfClosing }
  | .raises fault => { p with ended := true, phase := .over fault.halfCloseExit }

/-- `_pump` with the answer it waits for -/
def Pump.resume (io_chunk_bytes : Nat) (p : Pump) (a : PumpAnswer) : Option Pump :=
  match p.phase, a with
  | .reading, .chunk chunk =>
    if chunk ≠ [] ∧ chunk.length ≤ p.readSize io_chunk_bytes then some (p.carry chunk) else none
  | .reading, .eof half_close => some (p.halfClose half_close)
  | .reading, .raises fault => some { p with phase := .over fault.exit }
  | .draining, .drained => some { p with phase := .reading }
  | .draining, .raises fault => some { p with phase := .over fault.exit }
  | .halfClosing, .drained => some { p with phase := .over .returned }
  | .halfClosing, .raises fault => some { p with phase := .over fault.halfCloseExit }
  | _, _ => none

def Pump.isOver (p : Pump) : Bool := match p.phase with
  | .over _ => true
  | _ => false

/-- the next step of the pump's task -/
def Pump.step (io_chunk_bytes : Nat) (p : Pump) (a : PumpAnswer) : Option Pump :=
  if p.isOver = true then none
  else if p.cancelled = true then some { p with phase := .over .cancelled, cancelled := false }
  else p.resume io_chunk_bytes a

/-- `task.cancel()` of a task that is not done -/
def Pump.cancel (p : Pump) : Pump := if p.isOver = true then p else { p with cancelled := true }

/-! ## what a pump keeps -/

/-- what was written is a prefix of what was read, and within the budget -/
structure Pump.Sound (p : Pump) : Prop where
  used : p.budget.used = p.written.length
  within : p.written.length ≤ p.budget.limit
  carried : p.written <+: p.read
  whole : p.phase = .reading ∨ p.phase = .draining ∨ p.phase = .halfClosing ∨ p.phase = .over .returned →
    p.written = p.read
  ended : p.phase = .halfClosing ∨ p.phase = .over .returned → p.ended = true
  exceeded : ∀ reason, p.phase = .over (.failure reason) →
    reason = p.budget.failure_reason ∧ p.budget.limit < p.read.length

section
variable {io_chunk_bytes : Nat} {p q : Pump} {a : PumpAnswer}

theorem Pump.start_sound (limit : Nat) (failure_reason : Reason) : (Pump.start limit failure_reason).Sound where
  used := rfl
  within := Nat.zero_le _
  carried := List.prefix_rfl
  whole _ := rfl
  ended h := by
    rcases h with h | h
    · cases h
    · cases h
  exceeded _ h := by cases h

/-- a pump that ends early -/
theorem Pump.Sound.stop (h : p.Sound) (exit : Exit) (hexit : ∀ reason, exit ≠ .failure reason)
    (hreturned : exit = .returned → p.written = p.read ∧ p.ended = true) (cancelled : Bool) :
    Pump.Sound { p with phase := .over exit, cancelled := cancelled } where
  used := h.used
  within := h.within
  carried := h.carried
  whole hphase := by
    rcases hphase with hphase | hphase | hphase | hphase
    · cases hphase
    · cases hphase
    · cases hphase
    · exact (hreturned (PumpPhase.over.inj hphase)).1
  ended hphase := by
    rcases hphase with hphase | hphase
    · cases hphase
    · exact (hreturned (PumpPhase.over.inj hphase)).2
  exceeded reason hphase := absurd (PumpPhase.over.inj hphase) (hexit reason)

theorem Fault.exit_ne (fault : Fault) : (∀ reason, fault.exit ≠ .failure reason) ∧ fault.exit ≠ .returned := by
  cases fault with
  | timeout => exact ⟨nofun, nofun⟩
  | caught => exact ⟨nofun, nofun⟩
  | uncaught => exact ⟨nofun, nofun⟩

theorem Fault.halfCloseExit_ne (fault : Fault) : ∀ reason, fault.halfCloseExit ≠ .failure reason := by
  cases fault with
  | timeout => exact nofun
  | caught => exact nofun
  | uncaught => exact nofun

theorem Pump.carry_sound (h : p.Sound) (hphase : p.phase = .reading) (chunk : Bytes) : (p.carry chunk).Sound := by
  have hwhole := h.whole (.inl hphase)
  unfold Pump.carry ByteBudget.consume
  by_cases hlong : p.budget.remaining < chunk.length
  · rw [if_pos hlong]
    refine ⟨h.used, h.within, h.carried.trans (List.prefix_append _ _), ?_, ?_, ?_⟩
    · rintro (h | h | h | h)
      · cases h
      · cases h
      · cases h
      · cases h
    · rintro (h | h)
      · cases h
      · cases h
    · intro reason hover
      refine ⟨(Exit.failure.inj (PumpPhase.over.inj hover)).symm, ?_⟩
      show p.budget.limit < (p.read ++ chunk).length
      unfold ByteBudget.remaining at hlong
      have hused := h.used
      rw [hwhole] at hused
      rw [List.length_append]
      omega
  · rw [if_neg hlong]
    refine ⟨?_, ?_, ?_, ?_, ?_, ?_⟩
    · show p.budget.used + chunk.length = (p.written ++ chunk).length
      rw [List.length_append, h.used]
    · show (p.written ++ chunk).length ≤ p.budget.limit
      unfold ByteBudget.remaining at hlong
      have hused := h.used
      have hwithin := h.within
      rw [List.length_append]
      omega
    · show p.written ++ chunk <+: p.read ++ chunk
      exact hwhole ▸ List.prefix_rfl
    · intro _
      show p.written ++ chunk = p.read ++ chunk
      rw [hwhole]
    · rintro (h | h)
      · cases h
      · cases h
    · intro reason hover
      cases hover

/-- what a step of a pump can do -/
theorem Pump.step_cases (hstep : p.step io_chunk_bytes a = some q) :
    q = { p with phase := .over .cancelled, cancelled := false } ∨
    (∃ chunk, p.phase = .reading ∧ q = p.carry chunk) ∨
    (∃ half_close, p.phase = .reading ∧ q = p.halfClose half_close) ∨
    (∃ fault : Fault, q = { p with phase := .over fault.exit }) ∨
    (p.phase = .draining ∧ q = { p with phase := .reading }) ∨
    ∃ exit, p.phase = .halfClosing ∧ (∀ reason, exit ≠ .failure reason) ∧ q = { p with phase := .over exit } := by
  unfold Pump.step at hstep
  split at hstep
  · cases hstep
  · split at hstep
    · exact .inl (Option.some.inj hstep).symm
    · right
      unfold Pump.resume at hstep
      split at hstep
      · next chunk hphase =>
        split at hstep
        · exact .inl ⟨chunk, hphase, (Option.some.inj hstep).symm⟩
        · cases hstep
      · next half_close hphase => exact .inr (.inl ⟨half_close, hphase, (Option.some.inj hstep).symm⟩)
      · next fault hphase => exact .inr (.inr (.inl ⟨fault, (Option.some.inj hstep).symm⟩))
      · next hphase => exact .inr (.inr (.inr (.inl ⟨hphase, (Option.some.inj hstep).symm⟩)))
      · next fault hphase => exact .inr (.inr (.inl ⟨fault, (Option.some.inj hstep).symm⟩))
      · next hphase => exact .inr (.inr (.inr (.inr ⟨.returned, hphase, nofun, (Option.some.inj hstep).symm⟩)))
      · next fault hphase =>
        exact .inr (.inr (.inr (.inr ⟨_, hphase, fault.halfCloseExit_ne, (Option.some.inj hstep).symm⟩)))
      · cases hstep

theorem Pump.halfClose_sound (h : p.Sound) (hphase : p.phase = .reading) (half_close : HalfClose) :
    (p.halfClose half_close).Sound := by
  have hsame := h.whole (.inl hphase)
  have hended : Pump.Sound { p with ended := true } :=
    ⟨h.used, h.within, h.carried, h.whole, fun _ => rfl, h.exceeded⟩
  cases half_close with
  | unable => exact hended.stop .returned nofun (fun _ => ⟨hsame, rfl⟩) p.cancelled
  | drains => exact ⟨h.used, h.within, h.carried, fun _ => hsame, fun _ => rfl, fun _ hover => by cases hover⟩
  | raises fault => exact hended.stop _ fault.halfCloseExit_ne (fun _ => ⟨hsame, rfl⟩) p.cancelled

/-- **Every step of a pump keeps what was written within its budget, and a prefix of what was read.** -/
theorem Pump.step_sound (h : p.Sound) (hstep : p.step io_chunk_bytes a = some q) : q.Sound := by
  rcases Pump.step_cases hstep with rfl | ⟨chunk, hphase, rfl⟩ | ⟨half_close, hphase, rfl⟩ | ⟨fault, rfl⟩ |
    ⟨hphase, rfl⟩ | ⟨exit, hphase, hexit, rfl⟩
  · exact h.stop .cancelled nofun nofun false
  · exact Pump.carry_sound h hphase chunk
  · exact Pump.halfClose_sound h hphase half_close
  · exact h.stop _ fault.exit_ne.1 (fun he => absurd he fault.exit_ne.2) p.cancelled
  · refine ⟨h.used, h.within, h.carried, fun _ => h.whole (.inr (.inl hphase)), ?_, fun _ hover => by cases hover⟩
    rintro (h | h)
    · cases h
    · cases h
  · exact h.stop exit hexit (fun _ => ⟨h.whole (.inr (.inr (.inl hphase))), h.ended (.inl hphase)⟩) p.cancelled

/-- the budget's limit is never changed -/
theorem Pump.step_budget (hstep : p.step io_chunk_bytes a = some q) :
    q.budget.limit = p.budget.limit ∧ q.budget.failure_reason = p.budget.failure_reason := by
  rcases Pump.step_cases hstep with rfl | ⟨chunk, -, rfl⟩ | ⟨half_close, -, rfl⟩ | ⟨fault, rfl⟩ | ⟨-, rfl⟩ |
    ⟨exit, -, -, rfl⟩
  · exact ⟨rfl, rfl⟩
  · unfold Pump.carry ByteBudget.consume
    by_cases hlong : p.budget.remaining < chunk.length
    · rw [if_pos hlong]
      exact ⟨rfl, rfl⟩
    · rw [if_neg hlong]
      exact ⟨rfl, rfl⟩
  · cases half_close with
    | unable => exact ⟨rfl, rfl⟩
    | drains => exact ⟨rfl, rfl⟩
    | raises fault => exact ⟨rfl, rfl⟩
  · exact ⟨rfl, rfl⟩
  · exact ⟨rfl, rfl⟩
  · exact ⟨rfl, rfl⟩

/-- a pump that is over takes no step -/
theorem Pump.step_over (h : p.isOver = true) : p.step io_chunk_bytes a = none := if_pos h

/-! ## a whole stream -/

/-- a pump that is given answers one after another -/
def Pump.run (io_chunk_bytes : Nat) (p : Pump) : List PumpAnswer → Option Pump
  | [] => some p
  | a :: answers => (p.step io_chunk_bytes a).bind (fun q => q.run io_chunk_bytes answers)

/-- a stream that comes in chunks -/
def streamed (chunks : List Bytes) : List PumpAnswer :=
  chunks.flatMap (fun chunk => [.chunk chunk, .drained]) ++ [.eof .drains, .drained]

/-- **A stream within the budget is relayed completely, in any chunks.** -/
theorem Pump.relays (hphase : p.phase = .reading) (hlive : p.cancelled = false) (hused : p.budget.used = p.written.length)
    (chunks : List Bytes) (hchunks : ∀ chunk ∈ chunks, chunk ≠ [] ∧ chunk.length ≤ io_chunk_bytes)
    (hfits : p.written.length + chunks.flatten.length ≤ p.budget.limit) :
    ∃ q, p.run io_chunk_bytes (streamed chunks) = some q ∧ q.phase = .over .returned ∧
      q.written = p.written ++ chunks.flatten := by
  induction chunks generalizing p with
  | nil =>
    refine ⟨{ p with ended := true, phase := .over .returned }, ?_, rfl, (List.append_nil _).symm⟩
    have hopen : p.isOver = false := by
      unfold Pump.isOver
      rw [hphase]
    have hfirst : p.step io_chunk_bytes (.eof .drains) = some { p with ended := true, phase := .halfClosing } := by
      unfold Pump.step Pump.resume
      rw [if_neg (by rw [hopen]; exact Bool.false_ne_true), if_neg (by rw [hlive]; exact Bool.false_ne_true), hphase]
      rfl
    have hsecond : Pump.step io_chunk_bytes { p with ended := true, phase := .halfClosing } .drained =
        some { p with ended := true, phase := .over .returned } := by
      unfold Pump.step
      exact (if_neg Bool.false_ne_true).trans (if_neg (by rw [hlive]; exact Bool.false_ne_true))
    show (p.step io_chunk_bytes (.eof .drains)).bind _ = _
    rw [hfirst, Option.bind_some]
    show (Pump.step io_chunk_bytes _ .drained).bind _ = _
    rw [hsecond]
    rfl
  | cons chunk chunks ih =>
    have hchunk := hchunks chunk List.mem_cons_self
    rw [List.flatten_cons, List.length_append] at hfits
    have hopen : p.isOver = false := by
      unfold Pump.isOver
      rw [hphase]
    have hroom : ¬ p.budget.remaining < chunk.length := by
      unfold ByteBudget.remaining
      omega
    have hsize : chunk.length ≤ p.readSize io_chunk_bytes := by
      unfold Pump.readSize
      have hio := hchunk.2
      omega
    let read : Pump := { p with
      budget := { p.budget with used := p.budget.used + chunk.length }
      read := p.read ++ chunk
      written := p.written ++ chunk
      phase := .draining }
    have hfirst : p.step io_chunk_bytes (.chunk chunk) = some read := by
      unfold Pump.step Pump.resume
      rw [if_neg (by rw [hopen]; exact Bool.false_ne_true), if_neg (by rw [hlive]; exact Bool.false_ne_true), hphase]
      dsimp only
      rw [if_pos ⟨hchunk.1, hsize⟩]
      unfold Pump.carry ByteBudget.consume
      rw [if_neg hroom]
    have hsecond : read.step io_chunk_bytes .drained = some { read with phase := .reading } := by
      unfold Pump.step
      exact (if_neg Bool.false_ne_true).trans (if_neg (by
        show ¬ p.cancelled = true
        rw [hlive]
        exact Bool.false_ne_true))
    obtain ⟨q, hrun, hover, hwritten⟩ := ih (p := { read with phase := .reading }) rfl hlive
      (by
        show p.budget.used + chunk.length = (p.written ++ chunk).length
        rw [hused, List.length_append])
      (fun c hc => hchunks c (List.mem_cons_of_mem _ hc))
      (by
        show (p.written ++ chunk).length + chunks.flatten.length ≤ p.budget.limit
        rw [List.length_append]
        omega)
    refine ⟨q, ?_, hover, ?_⟩
    · show (p.step io_chunk_bytes (.chunk chunk)).bind _ = _
      rw [hfirst, Option.bind_some]
      show (read.step io_chunk_bytes .drained).bind _ = _
      rw [hsecond, Option.bind_some]
      exact hrun
    · rw [hwritten, List.flatten_cons, ← List.append_assoc]

end

end OpenFlame.Relay
