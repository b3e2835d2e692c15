import OpenFlame.Relay.Pump

/-!
# The connections of the Unix relay

Each connection has a task; `close` cancels them all and waits for them.

`Connection.step`        the next step of the task of a connection
`UnixSocketRelay.step`   what may happen to a relay

* `Connection.step_moves`      what a step of a task can do;
* `Connection.Moves.carries`   what a connection wrote stays within its limits, and was read;
* `Connection.Moves.tidy`      a task that is not cancelled at the wrong place closes its client.
-/

set_option linter.all false

namespace OpenFlame.Relay

/-- the limits of `UnixRelayLimits` that are integers -/
structure UnixRelayLimits where
  max_connections : Nat
  max_client_to_upstream_bytes : Nat
  max_upstream_to_client_bytes : Nat
  io_chunk_bytes : Nat
  positive : 0 < max_connections ∧ 0 < max_client_to_upstream_bytes ∧ 0 < max_upstream_to_client_bytes ∧ 0 < io_chunk_bytes

/-! ## one connection -/

inductive Phase where
  /-- the task has taken no step -/
  | fresh
  | connecting
  /-- in `asyncio.wait` -/
  | relaying
  /-- in the `finally` of `_relay_both_directions`, that it was left to with `exit` -/
  | unwinding (exit : Exit)
  | closingUpstream
  | closingClient
  /-- the coroutine ran to its end -/
  | done
  /-- cancelled before its first step -/
  | dropped
  deriving DecidableEq

structure Connection where
  /-- why it was refused; an accepted one has taken a slot -/
  refused : Option Reason
  phase : Phase
  /-- `cancel()` was called, and the next step raises -/
  cancelled : Bool
  /-- the task is in `_tasks` -/
  listed : Bool
  /-- the client's writer was closed -/
  closed : Bool
  toUpstream : Pump
  toClient : Pump
  /-- the watchdog has raised -/
  idle : Bool
  /-- the audit events of the connection -/
  emitted : List Reason
  deriving DecidableEq

def Connection.new (limits : UnixRelayLimits) (refused : Option Reason) : Connection where
  refused := refused
  phase := .fresh
  cancelled := false
  listed := true
  closed := false
  toUpstream := .start limits.max_client_to_upstream_bytes .client_to_upstream_limit
  toClient := .start limits.max_upstream_to_client_bytes .upstream_to_client_limit
  idle := false
  emitted := []

/-- whether `wait_closed` makes the task wait -/
structure Waits where
  upstream : Bool
  client : Bool
  deriving DecidableEq

/-- what the task of a connection waits for -/
inductive Answer where
  /-- its first step; `failure`: what the check of the upstream path raises -/
  | begins (failure : Option Exit)
  /-- the upstream is connected; `failure`: what the second check raises -/
  | connects (failure : Option Exit)
  /-- it is not -/
  | connectFails (exit : Exit)
  /-- `asyncio.wait` returns, and `exit` is what is found there -/
  | wakes (exit : Exit)
  /-- `asyncio.gather` returns -/
  | gathered
  /-- the total timeout -/
  | deadline
  /-- `wait_closed` returns, or is given up -/
  | streamClosed
  deriving DecidableEq

namespace Connection

/-- what `handle_connection` emits when its body is left -/
def events : Exit → List Reason
  | .returned => [.completed]
  | .failure reason => [reason]
  | .timeout => [.total_timeout]
  | .other => [.relay_failure]
  | .cancelled => []

/-- `_close_writer` of the client -/
def closeClient (c : Connection) (w : Waits) : Connection :=
  { c with closed := true, phase := if w.client = true then .closingClient else .done }

/-- the `finally` of `handle_connection` -/
def closeStreams (c : Connection) (upstream : Bool) (w : Waits) : Connection :=
  if upstream = true ∧ w.upstream = true then { c with phase := .closingUpstream } else c.closeClient w

/-- the body of `handle_connection` is left -/
def leave (c : Connection) (upstream : Bool) (exit : Exit) (w : Waits) : Connection :=
  ({ c with emitted := c.emitted ++ events exit }).closeStreams upstream w

/-- `_relay_both_directions` is left: what still runs is cancelled -/
def unwind (c : Connection) (exit : Exit) : Connection :=
  { c with phase := .unwinding exit, toUpstream := c.toUpstream.cancel, toClient := c.toClient.cancel }

/-- what `asyncio.wait` finds; the watchdog comes first -/
def Finds (c : Connection) (exit : Exit) : Prop :=
  if c.idle = true then exit = .failure .idle_timeout
  else if exit = .returned then c.toUpstream.phase = .over .returned ∧ c.toClient.phase = .over .returned
  else c.toUpstream.phase = .over exit ∨ c.toClient.phase = .over exit

instance (c : Connection) (exit : Exit) : Decidable (c.Finds exit) := by
  unfold Finds
  infer_instance

/-- both pumps are over -/
def settled (c : Connection) : Bool := c.toUpstream.isOver && c.toClient.isOver

/-- what the first check of the upstream path raises, the second one, and `_connect_upstream` -/
def pathExits : List Exit := [.failure .unsafe_upstream_path, .other]
def identityExits : List Exit := [.failure .unsafe_upstream_path, .failure .upstream_path_changed, .other]
def connectExits : List Exit :=
  [.failure .unix_sockets_unavailable, .failure .connect_timeout, .failure .upstream_unavailable, .other]

/-- the task goes on -/
def resume (c : Connection) (a : Answer) (w : Waits) : Option Connection :=
  match c.phase, a with
  | .fresh, .begins failure =>
    match c.refused, failure with
    | some reason, _ => some (({ c with emitted := c.emitted ++ [reason] }).closeClient w)
    | none, none => some { c with phase := .connecting }
    | none, some exit => if exit ∈ pathExits then some (c.leave false exit w) else none
  | .connecting, .connects none => some { c with emitted := c.emitted ++ [.connected], phase := .relaying }
  | .connecting, .connects (some exit) => if exit ∈ identityExits then some (c.leave true exit w) else none
  | .connecting, .connectFails exit => if exit ∈ connectExits then some (c.leave false exit w) else none
  | .connecting, .deadline => some (c.leave false .timeout w)
  | .relaying, .wakes exit => if c.Finds exit then some (c.unwind exit) else none
  | .relaying, .deadline => some (c.unwind .timeout)
  | .unwinding exit, .gathered => if c.settled = true then some (c.leave true exit w) else none
  | .unwinding exit, .deadline =>
    if c.settled = true then some (c.leave true (if exit = .cancelled then .cancelled else .timeout) w) else none
  | .closingUpstream, .streamClosed => some (c.closeClient w)
  | .closingClient, .streamClosed => some { c with phase := .done }
  | _, _ => none

/-- `CancelledError` is raised where the task waits; a task without a first step just ends -/
def throw (c : Connection) (w : Waits) : Option Connection :=
  match c.phase with
  | .fresh => some { c with phase := .dropped }
  | .connecting => some (c.leave false .cancelled w)
  | .relaying => some (c.unwind .cancelled)
  | .unwinding _ => if c.settled = true then some (c.leave true .cancelled w) else none
  | .closingUpstream => some { c with phase := .done }
  | .closingClient => some { c with phase := .done }
  | .done => none
  | .dropped => none

/-- the next step of the task -/
def step (c : Connection) (a : Answer) (w : Waits) : Option Connection :=
  if c.cancelled = true then ({ c with cancelled := false }).throw w else c.resume a w

/-- the pumps run from `_relay_both_directions` on -/
def pumping (c : Connection) : Bool := match c.phase with
  | .relaying => true
  | .unwinding _ => true
  | _ => false

inductive Direction where
  | toUpstream
  | toClient
  deriving DecidableEq

def pump (limits : UnixRelayLimits) (c : Connection) (d : Direction) (a : PumpAnswer) : Option Connection :=
  if c.pumping = true then
    match d with
    | .toUpstream => (c.toUpstream.step limits.io_chunk_bytes a).map (fun p => { c with toUpstream := p })
    | .toClient => (c.toClient.step limits.io_chunk_bytes a).map (fun p => { c with toClient := p })
  else none

/-- the task is not in the event loop any more -/
def isOver (c : Connection) : Bool := c.phase == .done || c.phase == .dropped

/-- `task.cancel()`, by `close` -/
def cancel (c : Connection) : Connection :=
  if c.listed = true ∧ c.isOver = false then { c with cancelled := true } else c

end Connection

/-! ## the relay -/

inductive Closer where
  /-- in `_close_server` -/
  | server
  /-- in the `gather` of these tasks -/
  | gathering (tasks : List Nat)
  deriving DecidableEq

structure UnixSocketRelay where
  /-- `_server is not None` -/
  server : Bool
  /-- calls of `start` that wait for the server factory -/
  starting : Nat
  closing : Bool
  /-- where the `close` is that closes -/
  closer : Option Closer
  /-- calls of `close` that wait for another one -/
  waiters : Nat
  active_connections : Int
  connections : List Connection
  /-- how many calls of `close` have returned -/
  returned : Nat
  deriving DecidableEq

def UnixSocketRelay.new : UnixSocketRelay where
  server := false
  starting := 0
  closing := false
  closer := none
  waiters := 0
  active_connections := 0
  connections := []
  returned := 0

/-- what may happen -/
inductive Label where
  | start
  /-- the server is bound; `valid`: to a loopback address -/
  | bound (valid : Bool)
  /-- `_client_connected` -/
  | connected (loopback : Bool)
  | task (i : Nat) (a : Answer) (w : Waits)
  | pump (i : Nat) (d : Connection.Direction) (a : PumpAnswer)
  /-- the watchdog of a connection raises -/
  | idle (i : Nat)
  /-- `_tasks.discard` -/
  | discard (i : Nat)
  | close
  /-- `_close_server` returns -/
  | serverClosed
  /-- the `gather` of `close` returns -/
  | gathered
  /-- a `close` that waited for another one finds it over -/
  | waited
  deriving DecidableEq

namespace UnixSocketRelay

/-- the `while self._tasks` of `close`, with what follows it when there is no task -/
def loopTasks (r : UnixSocketRelay) : UnixSocketRelay :=
  if r.connections.all (fun c => !c.listed) = true then
    { r with closing := false, closer := none, returned := r.returned + 1 }
  else
    { r with
      connections := r.connections.map Connection.cancel
      closer := some (.gathering ((List.range r.connections.length).filter
        (fun i => (r.connections[i]?).any (·.listed)))) }

/-- `_client_connected` -/
def clientConnected (limits : UnixRelayLimits) (loopback : Bool) (r : UnixSocketRelay) : UnixSocketRelay :=
  if r.closing = true ∨ loopback = false then
    { r with connections := r.connections ++ [.new limits (some .non_loopback_peer)] }
  else if limits.max_connections ≤ r.active_connections then
    { r with connections := r.connections ++ [.new limits (some .connection_limit)] }
  else
    { r with
      active_connections := r.active_connections + 1
      connections := r.connections ++ [.new limits none] }

/-- a task goes from `c` to `c'`; the `finally` of `_run_accepted_connection` gives its slot back -/
def moved (r : UnixSocketRelay) (i : Nat) (c' : Connection) : UnixSocketRelay :=
  { r with
    connections := r.connections.set i c'
    active_connections := if c'.refused = none ∧ c'.phase = .done then r.active_connections - 1 else r.active_connections }

def step (limits : UnixRelayLimits) (l : Label) (r : UnixSocketRelay) : Option UnixSocketRelay :=
  match l with
  | .start => if r.server = false ∧ r.closing = false then some { r with starting := r.starting + 1 } else none
  | .bound valid =>
    if 0 < r.starting then some { r with starting := r.starting - 1, server := valid || r.server } else none
  | .connected loopback => some (r.clientConnected limits loopback)
  | .task i a w => (r.connections[i]?).bind (fun c => (c.step a w).map (r.moved i))
  | .pump i d a =>
    (r.connections[i]?).bind (fun c => (c.pump limits d a).map (fun c' => { r with connections := r.connections.set i c' }))
  | .idle i => (r.connections[i]?).bind (fun c =>
      if c.phase = .relaying then some { r with connections := r.connections.set i { c with idle := true } } else none)
  | .discard i => (r.connections[i]?).bind (fun c =>
      if c.isOver = true then some { r with connections := r.connections.set i { c with listed := false } } else none)
  | .close =>
    if r.closing = true then some { r with waiters := r.waiters + 1 }
    else if r.server = true then some { r with closing := true, server := false, closer := some .server }
    else some ({ r with closing := true }).loopTasks
  | .serverClosed => if r.closer = some .server then some r.loopTasks else none
  | .gathered =>
    match r.closer with
    | some (.gathering tasks) =>
      if tasks.all (fun i => (r.connections[i]?).all (·.isOver)) = true then some r.loopTasks else none
    | _ => none
  | .waited =>
    if 0 < r.waiters ∧ r.closing = false then some { r with waiters := r.waiters - 1, returned := r.returned + 1 } else none

end UnixSocketRelay

/-! ## the steps of a task -/

/-- what a step of the task of a connection can do -/
inductive Connection.Moves (c : Connection) (w : Waits) : Connection → Prop where
  | drops (hphase : c.phase = .fresh) (hcancelled : c.cancelled = true) :
    Moves c w { c with cancelled := false, phase := .dropped }
  | refuses (reason : Reason) (hphase : c.phase = .fresh) (hcancelled : c.cancelled = false) (hrefused : c.refused = some reason) :
    Moves c w (({ c with emitted := c.emitted ++ [reason] }).closeClient w)
  | begins (hphase : c.phase = .fresh) (hcancelled : c.cancelled = false) : Moves c w { c with phase := .connecting }
  | connects (hphase : c.phase = .connecting) (hcancelled : c.cancelled = false) :
    Moves c w { c with emitted := c.emitted ++ [.connected], phase := .relaying }
  | leaves (upstream : Bool) (exit : Exit) (hover : c.isOver = false)
      (hexit : .completed ∈ events exit → c.phase = .unwinding exit) :
    Moves c w (({ c with cancelled := false }).leave upstream exit w)
  | unwinds (exit : Exit) (hphase : c.phase = .relaying) (hexit : .completed ∈ events exit → c.Finds exit) :
    Moves c w (({ c with cancelled := false }).unwind exit)
  | closes (hphase : c.phase = .closingUpstream) (hcancelled : c.cancelled = false) : Moves c w (c.closeClient w)
  | abandons (hphase : c.phase = .closingUpstream) (hcancelled : c.cancelled = true) :
    Moves c w { c with cancelled := false, phase := .done }
  | ends (hphase : c.phase = .closingClient) : Moves c w { c with cancelled := false, phase := .done }

namespace Connection

section
variable {limits : UnixRelayLimits} {c c' : Connection} {a : Answer} {w : Waits}

theorem isOver_of_phase {phase : Phase} (h : c.phase = phase) (hdone : phase ≠ .done) (hdropped : phase ≠ .dropped) :
    c.isOver = false := by
  unfold isOver
  rw [h, beq_false_of_ne hdone, beq_false_of_ne hdropped]
  rfl

/-- **What a step of a task can do.** -/
theorem step_moves (h : c.step a w = some c') : c.Moves w c' := by
  unfold step at h
  by_cases hcancelled : c.cancelled = true
  · rw [if_pos hcancelled] at h
    unfold throw at h
    split at h
    · next hphase =>
      obtain rfl := Option.some.inj h
      exact .drops hphase hcancelled
    · next hphase =>
      obtain rfl := Option.some.inj h
      exact .leaves false .cancelled (isOver_of_phase hphase nofun nofun) nofun
    · next hphase =>
      obtain rfl := Option.some.inj h
      exact .unwinds .cancelled hphase nofun
    · next hphase =>
      split at h
      · obtain rfl := Option.some.inj h
        exact .leaves true .cancelled (isOver_of_phase hphase nofun nofun) nofun
      · cases h
    · next hphase =>
      obtain rfl := Option.some.inj h
      exact .abandons hphase hcancelled
    · next hphase =>
      obtain rfl := Option.some.inj h
      exact .ends hphase
    · cases h
    · cases h
  · rw [if_neg hcancelled] at h
    rw [Bool.not_eq_true] at hcancelled
    have hsame : { c with cancelled := false } = c := by rw [← hcancelled]
    have hexits : ∀ exit ∈ pathExits ++ identityExits ++ connectExits, .completed ∉ events exit := by decide
    unfold resume at h
    split at h
    · next hphase =>
      split at h
      · next reason hrefused =>
        obtain rfl := Option.some.inj h
        exact .refuses reason hphase hcancelled hrefused
      · obtain rfl := Option.some.inj h
        exact .begins hphase hcancelled
      · next exit hrefused =>
        split at h
        · next hin =>
          obtain rfl := Option.some.inj h
          have hleaves := Moves.leaves (w := w) false exit (isOver_of_phase hphase nofun nofun)
            (fun hc => absurd hc (hexits exit (List.mem_append_left _ (List.mem_append_left _ hin))))
          rwa [hsame] at hleaves
        · cases h
    · next hphase =>
      obtain rfl := Option.some.inj h
      exact .connects hphase hcancelled
    · next exit hphase =>
      split at h
      · next hin =>
        obtain rfl := Option.some.inj h
        have hleaves := Moves.leaves (w := w) true exit (isOver_of_phase hphase nofun nofun)
          (fun hc => absurd hc (hexits exit (List.mem_append_left _ (List.mem_append_right _ hin))))
        rwa [hsame] at hleaves
      · cases h
    · next exit hphase =>
      split at h
      · next hin =>
        obtain rfl := Option.some.inj h
        have hleaves := Moves.leaves (w := w) false exit (isOver_of_phase hphase nofun nofun)
          (fun hc => absurd hc (hexits exit (List.mem_append_right _ hin)))
        rwa [hsame] at hleaves
      · cases h
    · next hphase =>
      obtain rfl := Option.some.inj h
      have hleaves := Moves.leaves (w := w) false .timeout (isOver_of_phase hphase nofun nofun)
        (fun hc => absurd hc (by decide))
      rwa [hsame] at hleaves
    · next exit hphase =>
      split at h
      · next hfinds =>
        obtain rfl := Option.some.inj h
        have hunwinds := Moves.unwinds (w := w) exit hphase (fun _ => hfinds)
        rwa [hsame] at hunwinds
      · cases h
    · next hphase =>
      obtain rfl := Option.some.inj h
      have hunwinds := Moves.unwinds (w := w) .timeout hphase (fun hc => absurd hc (by decide))
      rwa [hsame] at hunwinds
    · next exit hphase =>
      split at h
      · obtain rfl := Option.some.inj h
        have hleaves := Moves.leaves (w := w) true exit (isOver_of_phase hphase nofun nofun) (fun _ => hphase)
        rwa [hsame] at hleaves
      · cases h
    · next exit hphase =>
      split at h
      · obtain rfl := Option.some.inj h
        have hnot : .completed ∉ events (if exit = .cancelled then .cancelled else .timeout) := by
          split
          · decide
          · decide
        have hleaves := Moves.leaves (w := w) true _ (isOver_of_phase hphase nofun nofun) (fun hc => absurd hc hnot)
        rwa [hsame] at hleaves
      · cases h
    · next hphase =>
      obtain rfl := Option.some.inj h
      exact .closes hphase hcancelled
    · next hphase =>
      obtain rfl := Option.some.inj h
      have hends := Moves.ends (w := w) hphase
      rw [hcancelled]
      exact hends
    · cases h

/-- the streams are closed as far as the task gets without waiting -/
theorem closeStreams_eq (c : Connection) (upstream : Bool) (w : Waits) : ∃ phase closed,
    c.closeStreams upstream w = { c with phase := phase, closed := closed } ∧
      ((phase = .closingUpstream ∧ closed = c.closed) ∨ (closed = true ∧ (phase = .closingClient ∨ phase = .done))) := by
  unfold closeStreams
  split
  · exact ⟨.closingUpstream, c.closed, rfl, .inl ⟨rfl, rfl⟩⟩
  · unfold closeClient
    refine ⟨_, true, rfl, .inr ⟨rfl, ?_⟩⟩
    split
    · exact .inl rfl
    · exact .inr rfl

theorem Moves.facts (h : c.Moves w c') : c'.refused = c.refused ∧ c'.listed = c.listed ∧ c'.cancelled = false ∧ c.isOver = false := by
  cases h with
  | drops hphase => exact ⟨rfl, rfl, rfl, isOver_of_phase hphase nofun nofun⟩
  | refuses reason hphase hcancelled => exact ⟨rfl, rfl, hcancelled, isOver_of_phase hphase nofun nofun⟩
  | begins hphase hcancelled => exact ⟨rfl, rfl, hcancelled, isOver_of_phase hphase nofun nofun⟩
  | connects hphase hcancelled => exact ⟨rfl, rfl, hcancelled, isOver_of_phase hphase nofun nofun⟩
  | leaves upstream exit hover =>
    unfold leave
    obtain ⟨phase, closed, heq, -⟩ := closeStreams_eq
      { c with cancelled := false, emitted := c.emitted ++ events exit } upstream w
    rw [heq]
    exact ⟨rfl, rfl, rfl, hover⟩
  | unwinds exit hphase => exact ⟨rfl, rfl, rfl, isOver_of_phase hphase nofun nofun⟩
  | closes hphase hcancelled => exact ⟨rfl, rfl, hcancelled, isOver_of_phase hphase nofun nofun⟩
  | abandons hphase => exact ⟨rfl, rfl, rfl, isOver_of_phase hphase nofun nofun⟩
  | ends hphase => exact ⟨rfl, rfl, rfl, isOver_of_phase hphase nofun nofun⟩

/-! ## bytes -/

/-- both inputs were relayed to their end -/
def Relayed (c : Connection) : Prop := c.toUpstream.phase = .over .returned ∧ c.toClient.phase = .over .returned

/-- what a connection wrote is within its limits, and was read -/
structure Carries (limits : UnixRelayLimits) (c : Connection) : Prop where
  upstream : c.toUpstream.Sound
  client : c.toClient.Sound
  upstreamBudget : c.toUpstream.budget.limit = limits.max_client_to_upstream_bytes ∧
    c.toUpstream.budget.failure_reason = .client_to_upstream_limit
  clientBudget : c.toClient.budget.limit = limits.max_upstream_to_client_bytes ∧
    c.toClient.budget.failure_reason = .upstream_to_client_limit
  refused : c.refused ≠ some .completed
  unwound : ∀ exit, c.phase = .unwinding exit → .completed ∈ events exit → c.Relayed
  completed : .completed ∈ c.emitted → c.Relayed

theorem new_carries (limits : UnixRelayLimits) {refused : Option Reason} (h : refused ≠ some .completed) :
    (Connection.new limits refused).Carries limits where
  upstream := Pump.start_sound _ _
  client := Pump.start_sound _ _
  upstreamBudget := ⟨rfl, rfl⟩
  clientBudget := ⟨rfl, rfl⟩
  refused := h
  unwound _ hphase := by cases hphase
  completed hmem := by cases hmem

/-- a connection with the same pumps -/
theorem Carries.keep (h : c.Carries limits) (hupstream : c'.toUpstream = c.toUpstream) (hclient : c'.toClient = c.toClient)
    (hrefused : c'.refused = c.refused) (hphase : ∀ exit, c'.phase ≠ .unwinding exit)
    (hemitted : .completed ∈ c'.emitted → .completed ∈ c.emitted ∨ c.Relayed) : c'.Carries limits where
  upstream := hupstream ▸ h.upstream
  client := hclient ▸ h.client
  upstreamBudget := hupstream ▸ h.upstreamBudget
  clientBudget := hclient ▸ h.clientBudget
  refused := hrefused ▸ h.refused
  unwound exit hunwinding := absurd hunwinding (hphase exit)
  completed hmem := by
    have hrelayed : c.Relayed := by
      rcases hemitted hmem with hmem | hrelayed
      · exact h.completed hmem
      · exact hrelayed
    unfold Relayed
    rw [hupstream, hclient]
    exact hrelayed

/-- `completed` is what `asyncio.wait` leads to when both pumps have returned -/
theorem Carries.finds {exit : Exit} (h : c.Carries limits) (hexit : .completed ∈ events exit) (hfinds : c.Finds exit) :
    c.Relayed := by
  unfold Finds at hfinds
  cases exit with
  | returned =>
    split at hfinds
    · cases hfinds
    · exact hfinds
  | failure reason =>
    obtain rfl : reason = .completed := (List.mem_singleton.mp hexit).symm
    split at hfinds
    · cases hfinds
    · rcases hfinds with hfinds | hfinds
      · have hreason := (h.upstream.exceeded _ hfinds).1
        rw [h.upstreamBudget.2] at hreason
        cases hreason
      · have hreason := (h.client.exceeded _ hfinds).1
        rw [h.clientBudget.2] at hreason
        cases hreason
  | timeout => exact absurd hexit (by decide)
  | other => exact absurd hexit (by decide)
  | cancelled => cases hexit

theorem Moves.carries (h : c.Carries limits) (hmoves : c.Moves w c') : c'.Carries limits := by
  cases hmoves with
  | drops => exact h.keep rfl rfl rfl nofun .inl
  | refuses reason _ _ hrefused =>
    refine h.keep rfl rfl rfl (fun exit => ?_) (fun hmem => ?_)
    · unfold closeClient
      dsimp only
      split
      · exact nofun
      · exact nofun
    · rcases List.mem_append.mp hmem with hmem | hmem
      · exact .inl hmem
      · rw [← List.mem_singleton.mp hmem] at hrefused
        exact absurd hrefused h.refused
  | begins => exact h.keep rfl rfl rfl nofun .inl
  | connects =>
    refine h.keep rfl rfl rfl nofun (fun hmem => ?_)
    rcases List.mem_append.mp hmem with hmem | hmem
    · exact .inl hmem
    · exact absurd hmem (by decide)
  | leaves upstream exit _ hexit =>
    unfold leave
    obtain ⟨phase, closed, heq, hends⟩ := closeStreams_eq
      { c with cancelled := false, emitted := c.emitted ++ events exit } upstream w
    rw [heq]
    refine h.keep rfl rfl rfl (fun exit' hexit' => ?_) (fun hmem => ?_)
    · obtain rfl : phase = .unwinding exit' := hexit'
      rcases hends with ⟨hphase, -⟩ | ⟨-, hphase | hphase⟩
      · cases hphase
      · cases hphase
      · cases hphase
    · rcases List.mem_append.mp hmem with hmem | hmem
      · exact .inl hmem
      · exact .inr (h.unwound exit (hexit hmem) hmem)
  | unwinds exit _ hexit =>
    have hcancel {p : Pump} (hp : p.Sound) : p.cancel.Sound ∧ p.cancel.phase = p.phase ∧ p.cancel.budget = p.budget := by
      unfold Pump.cancel
      split
      · exact ⟨hp, rfl, rfl⟩
      · exact ⟨⟨hp.used, hp.within, hp.carried, hp.whole, hp.ended, hp.exceeded⟩, rfl, rfl⟩
    obtain ⟨hupstream, huphase, hubudget⟩ := hcancel h.upstream
    obtain ⟨hclient, hcphase, hcbudget⟩ := hcancel h.client
    have hrelayed : c.Relayed → (({ c with cancelled := false }).unwind exit).Relayed := by
      rintro ⟨hu, hc⟩
      exact ⟨huphase.trans hu, hcphase.trans hc⟩
    refine ⟨hupstream, hclient, ?_, ?_, h.refused, fun exit' hexit' hmem => ?_, fun hmem => hrelayed (h.completed hmem)⟩
    · show c.toUpstream.cancel.budget.limit = _ ∧ c.toUpstream.cancel.budget.failure_reason = _
      rw [hubudget]
      exact h.upstreamBudget
    · show c.toClient.cancel.budget.limit = _ ∧ c.toClient.cancel.budget.failure_reason = _
      rw [hcbudget]
      exact h.clientBudget
    · obtain rfl := Phase.unwinding.inj hexit'
      exact hrelayed (h.finds hmem (hexit hmem))
  | closes =>
    refine h.keep rfl rfl rfl (fun exit => ?_) .inl
    unfold closeClient
    dsimp only
    split
    · exact nofun
    · exact nofun
  | abandons => exact h.keep rfl rfl rfl nofun .inl
  | ends => exact h.keep rfl rfl rfl nofun .inl

/-- a step of a pump leaves two pumps that have returned -/
theorem pump_carries {d : Direction} {b : PumpAnswer} (h : c.Carries limits) (hpump : c.pump limits d b = some c') :
    c'.Carries limits := by
  have hdone (hrelayed : c.Relayed) : False := by
    have hover {p : Pump} (hp : p.phase = .over .returned) : p.isOver = true := by
      unfold Pump.isOver
      rw [hp]
    unfold pump at hpump
    split at hpump
    · cases d with
      | toUpstream =>
        rw [Pump.step_over (hover hrelayed.1)] at hpump
        cases hpump
      | toClient =>
        rw [Pump.step_over (hover hrelayed.2)] at hpump
        cases hpump
    · cases hpump
  unfold pump at hpump
  split at hpump
  · cases d with
    | toUpstream =>
      obtain ⟨p, hp, rfl⟩ := Option.map_eq_some_iff.mp hpump
      have hbudget := Pump.step_budget hp
      exact {
        upstream := Pump.step_sound h.upstream hp
        client := h.client
        upstreamBudget := ⟨hbudget.1.trans h.upstreamBudget.1, hbudget.2.trans h.upstreamBudget.2⟩
        clientBudget := h.clientBudget
        refused := h.refused
        unwound := fun exit hphase hexit => absurd (h.unwound exit hphase hexit) hdone
        completed := fun hmem => absurd (h.completed hmem) hdone }
    | toClient =>
      obtain ⟨p, hp, rfl⟩ := Option.map_eq_some_iff.mp hpump
      have hbudget := Pump.step_budget hp
      exact {
        upstream := h.upstream
        client := Pump.step_sound h.client hp
        upstreamBudget := h.upstreamBudget
        clientBudget := ⟨hbudget.1.trans h.clientBudget.1, hbudget.2.trans h.clientBudget.2⟩
        refused := h.refused
        unwound := fun exit hphase hexit => absurd (h.unwound exit hphase hexit) hdone
        completed := fun hmem => absurd (h.completed hmem) hdone }
  · cases hpump

/-! ## streams -/

/-- a task that is done has closed its client -/
structure Tidy (c : Connection) : Prop where
  ran : c.phase ≠ .dropped
  closed : c.phase = .closingClient ∨ c.phase = .done → c.closed = true
  spared : c.cancelled = true → c.phase ≠ .fresh ∧ c.phase ≠ .closingUpstream
  listed : c.listed = false → c.isOver = true

theorem new_tidy (limits : UnixRelayLimits) (refused : Option Reason) : (Connection.new limits refused).Tidy where
  ran := nofun
  closed h := by
    rcases h with h | h
    · cases h
    · cases h
  spared h := by cases h
  listed h := by cases h

/-- a task that can clean up behind itself does -/
theorem Moves.tidy (h : c.Tidy) (hmoves : c.Moves w c') : c'.Tidy := by
  obtain ⟨-, hlisted, hcancelled, hopen⟩ := hmoves.facts
  have hstays : c.listed = true := by
    by_contra hl
    rw [h.listed (Bool.not_eq_true _ ▸ hl)] at hopen
    cases hopen
  have htidy (hran : c'.phase ≠ .dropped) (hclosed : c'.phase = .closingClient ∨ c'.phase = .done → c'.closed = true) :
      c'.Tidy := by
    refine ⟨hran, hclosed, fun hc => ?_, fun hl => ?_⟩
    · rw [hcancelled] at hc
      cases hc
    · rw [hlisted, hstays] at hl
      cases hl
  have hclient (x : Connection) : (x.closeClient w).phase ≠ .dropped := by
    unfold closeClient
    dsimp only
    split
    · exact nofun
    · exact nofun
  cases hmoves with
  | drops hphase hc => exact absurd hphase (h.spared hc).1
  | refuses => exact htidy (hclient _) (fun _ => rfl)
  | begins => exact htidy nofun (fun hor => by rcases hor with hor | hor <;> cases hor)
  | connects => exact htidy nofun (fun hor => by rcases hor with hor | hor <;> cases hor)
  | leaves upstream exit =>
    unfold leave at htidy ⊢
    obtain ⟨phase, closed, heq, hends⟩ := closeStreams_eq
      { c with cancelled := false, emitted := c.emitted ++ events exit } upstream w
    rw [heq] at htidy ⊢
    rcases hends with ⟨rfl, -⟩ | ⟨rfl, rfl | rfl⟩
    · exact htidy nofun (fun hor => by rcases hor with hor | hor <;> cases hor)
    · exact htidy nofun (fun _ => rfl)
    · exact htidy nofun (fun _ => rfl)
  | unwinds => exact htidy nofun (fun hor => by rcases hor with hor | hor <;> cases hor)
  | closes => exact htidy (hclient _) (fun _ => rfl)
  | abandons hphase hc => exact absurd hphase (h.spared hc).2
  | ends hphase => exact htidy nofun (fun _ => h.closed (.inl hphase))

end

end Connection

end OpenFlame.Relay
