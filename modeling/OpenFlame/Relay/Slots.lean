import OpenFlame.Base.Runs
import OpenFlame.Relay.Connections

/-!
# The slots of the Unix relay

`Spares`   a step cancels no task that could not clean up behind itself

* `step_counted`      `active_connections` counts the accepted connections whose task has not run to its end;
* `step_carries`      what a connection wrote is within its limits, and was read;
* `step_tidy`         while every step spares the tasks, those that are done have closed their client;
* `relay_conserves`   **a relay whose steps spare the tasks has its slots and its streams back when it is closed.**
-/

set_option linter.all false

namespace OpenFlame.Relay
open TransSys

/-! ## the steps of a relay -/

/-- the step looks for tasks to cancel -/
def Label.loops (l : Label) (r : UnixSocketRelay) : Bool := match l with
  | .close => !r.closing && !r.server
  | .serverClosed => true
  | .gathered => true
  | _ => false

def Label.connects (l : Label) : Bool := match l with
  | .connected _ => true
  | _ => false

/-- a step cancels no task before its first step, and none that waits for its upstream to close; and no connection comes
in between the end of a `close` and the return of another one that waited for it -/
def Spares (l : Label) (r : UnixSocketRelay) : Prop :=
  (l.loops r = true → ∀ c ∈ r.connections, c.listed = true → c.phase ≠ .fresh ∧ c.phase ≠ .closingUpstream) ∧
    (l.connects = true → r.waiters = 0 ∨ r.closing = true)

instance (l : Label) (r : UnixSocketRelay) : Decidable (Spares l r) := by
  unfold Spares
  infer_instance

/-- a connection changes beside its task -/
inductive Connection.Beside (limits : UnixRelayLimits) (c : Connection) : Connection → Prop where
  | pump {c' : Connection} (d : Connection.Direction) (a : PumpAnswer) (h : c.pump limits d a = some c') : Beside limits c c'
  | idle (h : c.phase = .relaying) : Beside limits c { c with idle := true }
  | discard (h : c.isOver = true) : Beside limits c { c with listed := false }

/-- what a step can do -/
inductive UnixSocketRelay.Change (limits : UnixRelayLimits) (r : UnixSocketRelay) : Label → UnixSocketRelay → Prop where
  | quiet {l : Label} {r' : UnixSocketRelay} (hconnections : r'.connections = r.connections)
      (hactive : r'.active_connections = r.active_connections) (hreturned : r'.returned = r.returned)
      (hclosing : r'.closing = true ∨ (r'.closing = r.closing ∧ r'.waiters = r.waiters)) : Change limits r l r'
  | connects (loopback : Bool) : Change limits r (.connected loopback) (r.clientConnected limits loopback)
  | moves {l : Label} {i : Nat} {c c' : Connection} {w : Waits} (hc : r.connections[i]? = some c) (hmoves : c.Moves w c') :
    Change limits r l (r.moved i c')
  | beside {l : Label} {i : Nat} {c c' : Connection} (hc : r.connections[i]? = some c) (hbeside : c.Beside limits c') :
    Change limits r l { r with connections := r.connections.set i c' }
  | loops {l : Label} (closing : Bool) (hloops : l.loops r = true) (hclosing : closing = true ∨ closing = r.closing) :
    Change limits r l ({ r with closing := closing }).loopTasks
  | waits (hwaiters : 0 < r.waiters) (hclosing : r.closing = false) :
    Change limits r .waited { r with waiters := r.waiters - 1, returned := r.returned + 1 }

section
variable {limits : UnixRelayLimits} {r r' : UnixSocketRelay} {l : Label}

open UnixSocketRelay

/-- **What a step of a relay can do.** -/
theorem step_change (h : r.step limits l = some r') : r.Change limits l r' := by
  cases l with
  | start =>
    dsimp only [UnixSocketRelay.step] at h
    split at h
    · obtain rfl := Option.some.inj h
      exact .quiet rfl rfl rfl (.inr ⟨rfl, rfl⟩)
    · cases h
  | bound valid =>
    dsimp only [UnixSocketRelay.step] at h
    split at h
    · obtain rfl := Option.some.inj h
      exact .quiet rfl rfl rfl (.inr ⟨rfl, rfl⟩)
    · cases h
  | connected loopback =>
    obtain rfl := Option.some.inj h
    exact .connects loopback
  | task i a w =>
    obtain ⟨c, hc, hstep⟩ := Option.bind_eq_some_iff.mp h
    obtain ⟨c', hc', rfl⟩ := Option.map_eq_some_iff.mp hstep
    exact .moves hc (Connection.step_moves hc')
  | pump i d a =>
    obtain ⟨c, hc, hstep⟩ := Option.bind_eq_some_iff.mp h
    obtain ⟨c', hc', rfl⟩ := Option.map_eq_some_iff.mp hstep
    exact .beside hc (.pump d a hc')
  | idle i =>
    obtain ⟨c, hc, hstep⟩ := Option.bind_eq_some_iff.mp h
    split at hstep
    · next hphase =>
      obtain rfl := Option.some.inj hstep
      exact .beside hc (.idle hphase)
    · cases hstep
  | discard i =>
    obtain ⟨c, hc, hstep⟩ := Option.bind_eq_some_iff.mp h
    split at hstep
    · next hover =>
      obtain rfl := Option.some.inj hstep
      exact .beside hc (.discard hover)
    · cases hstep
  | close =>
    dsimp only [UnixSocketRelay.step] at h
    split at h
    · next hclosing =>
      obtain rfl := Option.some.inj h
      exact .quiet rfl rfl rfl (.inl hclosing)
    · next hclosing =>
      split at h
      · obtain rfl := Option.some.inj h
        exact .quiet rfl rfl rfl (.inl rfl)
      · next hserver =>
        obtain rfl := Option.some.inj h
        refine .loops true ?_ (.inl rfl)
        rw [Bool.not_eq_true] at hclosing hserver
        unfold Label.loops
        rw [hclosing, hserver]
        rfl
  | serverClosed =>
    dsimp only [UnixSocketRelay.step] at h
    split at h
    · obtain rfl := Option.some.inj h
      exact .loops r.closing rfl (.inr rfl)
    · cases h
  | gathered =>
    dsimp only [UnixSocketRelay.step] at h
    split at h
    · split at h
      · obtain rfl := Option.some.inj h
        exact .loops r.closing rfl (.inr rfl)
      · cases h
    · cases h
  | waited =>
    dsimp only [UnixSocketRelay.step] at h
    split at h
    · next hwaits =>
      obtain rfl := Option.some.inj h
      exact .waits hwaits.1 hwaits.2
    · cases h

/-- the connections after a look for tasks are those before it, some of them cancelled -/
theorem loopTasks_eq (r : UnixSocketRelay) :
    (r.connections.all (fun c => !c.listed) = true ∧
      r.loopTasks = { r with closing := false, closer := none, returned := r.returned + 1 }) ∨
    ∃ closer, r.loopTasks = { r with connections := r.connections.map Connection.cancel, closer := closer } := by
  unfold loopTasks
  split
  · next hall => exact .inl ⟨hall, rfl⟩
  · exact .inr ⟨_, rfl⟩

theorem cancel_phase (c : Connection) : c.cancel.phase = c.phase ∧ c.cancel.refused = c.refused ∧ c.cancel.listed = c.listed := by
  unfold Connection.cancel
  split
  · exact ⟨rfl, rfl, rfl⟩
  · exact ⟨rfl, rfl, rfl⟩

theorem Connection.Beside.facts {c c' : Connection} (h : c.Beside limits c') : c'.phase = c.phase ∧ c'.refused = c.refused := by
  cases h with
  | pump d a h =>
    unfold Connection.pump at h
    split at h
    · cases d with
      | toUpstream =>
        obtain ⟨p, -, rfl⟩ := Option.map_eq_some_iff.mp h
        exact ⟨rfl, rfl⟩
      | toClient =>
        obtain ⟨p, -, rfl⟩ := Option.map_eq_some_iff.mp h
        exact ⟨rfl, rfl⟩
    · cases h
  | idle h => exact ⟨rfl, rfl⟩
  | discard h => exact ⟨rfl, rfl⟩

/-- what `_client_connected` does: one connection more, and a slot less when it is accepted -/
theorem clientConnected_eq (limits : UnixRelayLimits) (loopback : Bool) (r : UnixSocketRelay) :
    (∃ reason, reason ≠ .completed ∧
      r.clientConnected limits loopback = { r with connections := r.connections ++ [.new limits (some reason)] }) ∨
    (r.active_connections < limits.max_connections ∧
      r.clientConnected limits loopback = { r with
        active_connections := r.active_connections + 1
        connections := r.connections ++ [.new limits none] }) := by
  unfold clientConnected
  split
  · exact .inl ⟨.non_loopback_peer, nofun, rfl⟩
  · split
    · exact .inl ⟨.connection_limit, nofun, rfl⟩
    · next hroom => exact .inr ⟨Int.not_le.mp hroom, rfl⟩

/-! ## slots -/

/-- an accepted connection whose coroutine has not run to its end -/
def holds (c : Connection) : Bool := c.refused.isNone && c.phase != .done

/-- `active_connections` counts the slots that are taken -/
structure Counted (limits : UnixRelayLimits) (r : UnixSocketRelay) : Prop where
  counted : r.active_connections = (r.connections.countP holds : Nat)
  bounded : r.active_connections ≤ limits.max_connections

theorem countP_replaced {p : Connection → Bool} {cs : List Connection} {i : Nat} {c c' : Connection} (hc : cs[i]? = some c) :
    ((cs.set i c').countP p : Int) = cs.countP p - (if p c = true then 1 else 0) + if p c' = true then 1 else 0 := by
  obtain ⟨hi, rfl⟩ := List.getElem?_eq_some_iff.mp hc
  rw [List.countP_set hi]
  by_cases hp : p cs[i] = true
  · have hpos : 0 < cs.countP p := List.countP_pos_iff.mpr ⟨_, List.getElem_mem hi, hp⟩
    rw [if_pos hp, if_pos hp]
    split
    · omega
    · omega
  · rw [if_neg hp, if_neg hp]
    split
    · omega
    · omega

/-- **Slots are counted**, in every step. -/
theorem step_counted (h : Counted limits r) (hstep : r.step limits l = some r') : Counted limits r' := by
  have hcounted := h.counted
  have hbounded := h.bounded
  cases step_change hstep with
  | quiet hconnections hactive => exact ⟨by rw [hactive, hconnections, hcounted], by rw [hactive]; exact hbounded⟩
  | connects loopback =>
    rcases clientConnected_eq limits loopback r with ⟨reason, -, heq⟩ | ⟨hroom, heq⟩
    · rw [heq]
      refine ⟨?_, hbounded⟩
      show r.active_connections = ((r.connections ++ [_]).countP holds : Nat)
      rw [List.countP_append, hcounted]
      rfl
    · rw [heq]
      refine ⟨?_, by show r.active_connections + 1 ≤ _; omega⟩
      show r.active_connections + 1 = ((r.connections ++ [_]).countP holds : Nat)
      rw [List.countP_append, hcounted]
      rfl
  | moves hc hmoves =>
    next i c c' w =>
    obtain ⟨hrefused, -, -, hopen⟩ := hmoves.facts
    have hbefore : c.phase ≠ .done := by
      intro hdone
      unfold Connection.isOver at hopen
      rw [hdone] at hopen
      cases hopen
    have hcount := @countP_replaced holds _ i c c' hc
    have hactive : (r.moved i c').active_connections = ((r.connections.set i c').countP holds : Nat) := by
      show (if c'.refused = none ∧ c'.phase = .done then r.active_connections - 1 else r.active_connections) = _
      rw [hcount, hcounted]
      unfold holds
      rw [hrefused]
      cases hr : c.refused with
      | none =>
        rw [bne_iff_ne.mpr hbefore]
        by_cases hdone : c'.phase = .done
        · rw [hdone]
          simp
        · rw [bne_iff_ne.mpr hdone]
          simp [hdone]
      | some reason => simp
    refine ⟨hactive, ?_⟩
    show (if c'.refused = none ∧ c'.phase = .done then r.active_connections - 1 else r.active_connections) ≤ _
    split
    · omega
    · exact hbounded
  | beside hc hbeside =>
    next i c c' =>
    obtain ⟨hphase, hrefused⟩ := hbeside.facts
    refine ⟨?_, hbounded⟩
    have hcount := @countP_replaced holds _ i c c' hc
    have hsame : holds c' = holds c := by
      unfold holds
      rw [hphase, hrefused]
    rw [hsame] at hcount
    show r.active_connections = ((r.connections.set i c').countP holds : Nat)
    omega
  | loops closing hloops hclosing =>
    rcases loopTasks_eq { r with closing := closing } with ⟨-, heq⟩ | ⟨closer, heq⟩
    · rw [heq]
      exact ⟨hcounted, hbounded⟩
    · rw [heq]
      refine ⟨?_, hbounded⟩
      show r.active_connections = ((r.connections.map Connection.cancel).countP holds : Nat)
      have hsame : holds ∘ Connection.cancel = holds := by
        funext c
        show holds c.cancel = holds c
        unfold holds
        rw [(cancel_phase c).1, (cancel_phase c).2.1]
      rw [List.countP_map, hsame, hcounted]
  | waits => exact ⟨hcounted, hbounded⟩

/-! ## every connection -/

/-- a property of connections that every step keeps -/
theorem step_each {P : Connection → Prop} (hstep : r.step limits l = some r') (h : ∀ c ∈ r.connections, P c)
    (hnew : ∀ refused, refused ≠ some .completed → P (.new limits refused))
    (hmoves : ∀ c c' w, P c → c.Moves w c' → P c') (hbeside : ∀ c c', P c → c.Beside limits c' → P c')
    (hcancel : l.loops r = true → ∀ c ∈ r.connections, P c → P c.cancel) : ∀ c ∈ r'.connections, P c := by
  have hset {i : Nat} {c' : Connection} (hc' : P c') : ∀ c ∈ r.connections.set i c', P c := by
    intro c hc
    rcases List.mem_or_eq_of_mem_set hc with hc | rfl
    · exact h c hc
    · exact hc'
  cases step_change hstep with
  | quiet hconnections =>
    rw [hconnections]
    exact h
  | connects loopback =>
    have hadd (refused : Option Reason) (hr : refused ≠ some .completed) :
        ∀ c ∈ r.connections ++ [.new limits refused], P c := by
      rw [List.forall_mem_append, List.forall_mem_singleton]
      exact ⟨h, hnew refused hr⟩
    rcases clientConnected_eq limits loopback r with ⟨reason, hreason, heq⟩ | ⟨-, heq⟩
    · rw [heq]
      exact hadd (some reason) (fun he => hreason (Option.some.inj he))
    · rw [heq]
      exact hadd none nofun
  | moves hc hm => exact hset (hmoves _ _ _ (h _ (List.mem_of_getElem? hc)) hm)
  | beside hc hb => exact hset (hbeside _ _ (h _ (List.mem_of_getElem? hc)) hb)
  | loops closing hloops hclosing =>
    rcases loopTasks_eq { r with closing := closing } with ⟨-, heq⟩ | ⟨closer, heq⟩
    · rw [heq]
      exact h
    · rw [heq]
      intro c hc
      obtain ⟨d, hd, rfl⟩ := List.mem_map.mp hc
      exact hcancel hloops d hd (h d hd)
  | waits => exact h

/-- **What a connection wrote is within its limits, and was read**, in every step. -/
theorem step_carries (h : ∀ c ∈ r.connections, c.Carries limits) (hstep : r.step limits l = some r') :
    ∀ c ∈ r'.connections, c.Carries limits := by
  refine step_each hstep h (fun _ => Connection.new_carries limits) (fun _ _ _ => Connection.Moves.carries)
    (fun c c' hc hbeside => ?_) (fun _ c _ hc => ?_)
  · cases hbeside with
    | pump d a hpump => exact Connection.pump_carries hc hpump
    | idle hphase => exact ⟨hc.upstream, hc.client, hc.upstreamBudget, hc.clientBudget, hc.refused, hc.unwound, hc.completed⟩
    | discard hover => exact ⟨hc.upstream, hc.client, hc.upstreamBudget, hc.clientBudget, hc.refused, hc.unwound, hc.completed⟩
  · unfold Connection.cancel
    split
    · exact ⟨hc.upstream, hc.client, hc.upstreamBudget, hc.clientBudget, hc.refused, hc.unwound, hc.completed⟩
    · exact hc

theorem pump_tidy {c c' : Connection} {d : Connection.Direction} {a : PumpAnswer} (hc : c.Tidy)
    (h : c.pump limits d a = some c') : c'.Tidy := by
  unfold Connection.pump at h
  split at h
  · cases d with
    | toUpstream =>
      obtain ⟨p, -, rfl⟩ := Option.map_eq_some_iff.mp h
      exact ⟨hc.ran, hc.closed, hc.spared, hc.listed⟩
    | toClient =>
      obtain ⟨p, -, rfl⟩ := Option.map_eq_some_iff.mp h
      exact ⟨hc.ran, hc.closed, hc.spared, hc.listed⟩
  · cases h

/-- **Tasks that are done have closed their client**, while every step spares them. -/
theorem step_tidy (hspares : Spares l r) (h : ∀ c ∈ r.connections, c.Tidy) (hstep : r.step limits l = some r') :
    ∀ c ∈ r'.connections, c.Tidy := by
  refine step_each hstep h (fun refused _ => Connection.new_tidy limits refused) (fun _ _ _ => Connection.Moves.tidy)
    (fun c c' hc hbeside => ?_) (fun hloops c hmem hc => ?_)
  · cases hbeside with
    | pump d a hpump => exact pump_tidy hc hpump
    | idle hphase => exact ⟨hc.ran, hc.closed, hc.spared, hc.listed⟩
    | discard hover => exact ⟨hc.ran, hc.closed, hc.spared, fun _ => hover⟩
  · have hspared := hspares.1 hloops c hmem
    unfold Connection.cancel
    split
    · next hlisted => exact ⟨hc.ran, hc.closed, fun _ => hspared hlisted.1, hc.listed⟩
    · exact hc

/-- no connection is left while a `close` waits for another one that is over -/
def Waited (r : UnixSocketRelay) : Prop := r.closing = false → 0 < r.waiters → ∀ c ∈ r.connections, c.isOver = true

theorem isOver_congr {c c' : Connection} (h : c'.phase = c.phase) : c'.isOver = c.isOver := by
  unfold Connection.isOver
  rw [h]

theorem step_waited (hspares : Spares l r) (htidy : ∀ c ∈ r.connections, c.Tidy) (h : Waited r)
    (hstep : r.step limits l = some r') : Waited r' := by
  intro hclosing' hwaiters'
  cases step_change hstep with
  | quiet hconnections _ _ hclosing =>
    rcases hclosing with hclosing | ⟨hclosing, hwaiters⟩
    · rw [hclosing] at hclosing'
      cases hclosing'
    · rw [hclosing] at hclosing'
      rw [hwaiters] at hwaiters'
      rw [hconnections]
      exact h hclosing' hwaiters'
  | connects loopback =>
    have hsame : (r.clientConnected limits loopback).closing = r.closing ∧
        (r.clientConnected limits loopback).waiters = r.waiters := by
      rcases clientConnected_eq limits loopback r with ⟨reason, -, heq⟩ | ⟨-, heq⟩
      · rw [heq]
        exact ⟨rfl, rfl⟩
      · rw [heq]
        exact ⟨rfl, rfl⟩
    rw [hsame.1] at hclosing'
    rw [hsame.2] at hwaiters'
    rcases hspares.2 rfl with hnone | hclosing
    · omega
    · rw [hclosing] at hclosing'
      cases hclosing'
  | moves hc hmoves =>
    have hover := h hclosing' hwaiters' _ (List.mem_of_getElem? hc)
    rw [hmoves.facts.2.2.2] at hover
    cases hover
  | beside hc hbeside =>
    intro c hmem
    have hall := h hclosing' hwaiters'
    rcases List.mem_or_eq_of_mem_set hmem with hmem | rfl
    · exact hall c hmem
    · rw [isOver_congr hbeside.facts.1]
      exact hall _ (List.mem_of_getElem? hc)
  | loops closing hloops hclosing =>
    rcases loopTasks_eq { r with closing := closing } with ⟨hall, heq⟩ | ⟨closer, heq⟩
    · rw [heq]
      intro c hc
      have hlisted := List.all_eq_true.mp hall c hc
      rw [Bool.not_eq_true'] at hlisted
      exact (htidy c hc).listed hlisted
    · rw [heq] at hclosing' hwaiters' ⊢
      intro c hc
      obtain ⟨d, hd, rfl⟩ := List.mem_map.mp hc
      rw [isOver_congr (cancel_phase d).1]
      rcases hclosing with rfl | rfl
      · cases hclosing'
      · exact h hclosing' hwaiters' d hd
  | waits hwaiters hclosing => exact h hclosing hwaiters

/-- tasks that are all over have closed their clients and given their slots back -/
theorem settled_closed (hcounted : Counted limits r) (htidy : ∀ c ∈ r.connections, c.Tidy)
    (hover : ∀ c ∈ r.connections, c.isOver = true) : r.active_connections = 0 ∧ ∀ c ∈ r.connections, c.closed = true := by
  have hdone : ∀ c ∈ r.connections, c.phase = .done := by
    intro c hc
    have hend := hover c hc
    unfold Connection.isOver at hend
    rw [Bool.or_eq_true, beq_iff_eq, beq_iff_eq] at hend
    exact hend.resolve_right (htidy c hc).ran
  refine ⟨?_, fun c hc => (htidy c hc).closed (.inr (hdone c hc))⟩
  rw [hcounted.counted, List.countP_eq_zero.mpr]
  · rfl
  · intro c hc
    unfold holds
    rw [hdone c hc]
    simp

/-- **A `close` that returns finds no connection.** -/
theorem step_returned (hspares : Spares l r) (hcounted : Counted limits r) (htidy : ∀ c ∈ r.connections, c.Tidy) (h : Waited r)
    (hstep : r.step limits l = some r') (hreturned : r.returned < r'.returned) :
    r'.active_connections = 0 ∧ ∀ c ∈ r'.connections, c.closed = true := by
  refine settled_closed (step_counted hcounted hstep) (step_tidy hspares htidy hstep) ?_
  cases step_change hstep with
  | quiet _ _ hsame =>
    rw [hsame] at hreturned
    omega
  | connects loopback =>
    rcases clientConnected_eq limits loopback r with ⟨reason, -, heq⟩ | ⟨-, heq⟩
    · rw [heq] at hreturned
      exact absurd hreturned (Nat.lt_irrefl _)
    · rw [heq] at hreturned
      exact absurd hreturned (Nat.lt_irrefl _)
  | moves => exact absurd hreturned (Nat.lt_irrefl _)
  | beside => exact absurd hreturned (Nat.lt_irrefl _)
  | loops closing hloops hclosing =>
    rcases loopTasks_eq { r with closing := closing } with ⟨hall, heq⟩ | ⟨closer, heq⟩
    · rw [heq]
      intro c hc
      have hlisted := List.all_eq_true.mp hall c hc
      rw [Bool.not_eq_true'] at hlisted
      exact (htidy c hc).listed hlisted
    · rw [heq] at hreturned
      exact absurd hreturned (Nat.lt_irrefl _)
  | waits hwaiters hclosing => exact h hclosing hwaiters

/-! ## runs -/

/-- what is conveyed in one direction -/
structure Conveyed (limit : Nat) (p : Pump) : Prop where
  carried : p.written <+: p.read
  within : p.written.length ≤ limit
  whole : p.phase = .over .returned → p.ended = true ∧ p.written = p.read
  exceeded : ∀ reason, p.phase = .over (.failure reason) → limit < p.read.length

theorem Pump.Sound.conveyed {p : Pump} {limit : Nat} (h : p.Sound) (hlimit : p.budget.limit = limit) : Conveyed limit p where
  carried := h.carried
  within := hlimit ▸ h.within
  whole hphase := ⟨h.ended (.inr hphase), h.whole (.inr (.inr (.inr hphase)))⟩
  exceeded reason hphase := hlimit ▸ (h.exceeded reason hphase).2

/-- a stream within its limit is relayed to its end, in any chunks -/
def RelaysWithin (limits : UnixRelayLimits) (limit : Nat) (reason : Reason) : Prop :=
  ∀ chunks : List Bytes, (∀ chunk ∈ chunks, chunk ≠ [] ∧ chunk.length ≤ limits.io_chunk_bytes) →
    chunks.flatten.length ≤ limit → ∃ p, (Pump.start limit reason).run limits.io_chunk_bytes (streamed chunks) = some p ∧
      p.phase = .over .returned ∧ p.written = chunks.flatten

/-- slots and bytes -/
structure Conserved (limits : UnixRelayLimits) (r : UnixSocketRelay) : Prop where
  counted : r.active_connections = (r.connections.countP (fun c => c.refused.isNone && !c.isOver) : Nat)
  bounded : r.active_connections ≤ limits.max_connections
  upstream : ∀ c ∈ r.connections, Conveyed limits.max_client_to_upstream_bytes c.toUpstream
  client : ∀ c ∈ r.connections, Conveyed limits.max_upstream_to_client_bytes c.toClient
  completed : ∀ c ∈ r.connections, .completed ∈ c.emitted → c.Relayed

/-- a step that spares the tasks -/
def Sparing (limits : UnixRelayLimits) (r : UnixSocketRelay) (l : Label) (r' : UnixSocketRelay) : Prop :=
  Spares l r ∧ r.step limits l = some r'

/-- what every run of sparing steps keeps -/
def Kept (limits : UnixRelayLimits) (r : UnixSocketRelay) : Prop :=
  Counted limits r ∧ (∀ c ∈ r.connections, c.Carries limits) ∧ (∀ c ∈ r.connections, c.Tidy) ∧ Waited r

theorem new_kept (limits : UnixRelayLimits) : Kept limits .new := by
  have hnone {P : Connection → Prop} : ∀ c ∈ UnixSocketRelay.new.connections, P c := by
    intro c hc
    cases hc
  refine ⟨⟨rfl, ?_⟩, hnone, hnone, fun _ _ => hnone⟩
  show (0 : Int) ≤ limits.max_connections
  omega

theorem reach_kept (h : Reach (· = UnixSocketRelay.new) (Sparing limits) r) : Kept limits r := by
  refine Reach.induct (I := Kept limits) (fun r hr => ?_) (fun r l r' _ hr hstep => ?_) h
  · rw [hr]
    exact new_kept limits
  · obtain ⟨hcounted, hcarries, htidy, hwaited⟩ := hr
    obtain ⟨hspares, hstep⟩ := hstep
    exact ⟨step_counted hcounted hstep, step_carries hcarries hstep, step_tidy hspares htidy hstep,
      step_waited hspares htidy hwaited hstep⟩

/-- **A relay conserves its slots and its bytes while its steps spare the tasks**: a `close` that returns has all slots
back, and has closed every client. -/
theorem relay_conserves (limits : UnixRelayLimits) (r : UnixSocketRelay)
    (h : Reach (· = UnixSocketRelay.new) (Sparing limits) r) :
    Conserved limits r ∧
    (∀ l r', Sparing limits r l r' → r.returned < r'.returned →
      r'.active_connections = 0 ∧ ∀ c ∈ r'.connections, c.closed = true) ∧
    RelaysWithin limits limits.max_client_to_upstream_bytes .client_to_upstream_limit ∧
    RelaysWithin limits limits.max_upstream_to_client_bytes .upstream_to_client_limit := by
  obtain ⟨hcounted, hcarries, htidy, hwaited⟩ := reach_kept h
  have hrelays (limit : Nat) (reason : Reason) : RelaysWithin limits limit reason := by
    intro chunks hchunks hlimit
    have hfits : ([] : Bytes).length + chunks.flatten.length ≤ limit := by
      rw [List.length_nil, Nat.zero_add]
      exact hlimit
    exact Pump.relays (p := .start limit reason) rfl rfl rfl chunks hchunks hfits
  refine ⟨?_, fun l r' hstep => step_returned hstep.1 hcounted htidy hwaited hstep.2, hrelays _ _, hrelays _ _⟩
  refine ⟨?_, hcounted.bounded, fun c hc => (hcarries c hc).upstream.conveyed (hcarries c hc).upstreamBudget.1,
    fun c hc => (hcarries c hc).client.conveyed (hcarries c hc).clientBudget.1, fun c hc => (hcarries c hc).completed⟩
  rw [hcounted.counted]
  congr 1
  refine List.countP_congr (fun c hc => ?_)
  have hran := (htidy c hc).ran
  unfold holds Connection.isOver
  rw [beq_false_of_ne hran, Bool.or_false]
  rfl

end

/-- limits of one connection and of eight bytes -/
def narrowLimits : UnixRelayLimits := ⟨1, 8, 8, 4, by decide⟩

/-- the steps of a relay, one after another -/
def UnixSocketRelay.run (limits : UnixRelayLimits) (r : UnixSocketRelay) (ls : List Label) : Option UnixSocketRelay :=
  ls.foldlM (fun r l => r.step limits l) r

/-- a connection that is cancelled while it connects gives its slot back -/
theorem relay_conserves_connecting : ∃ r : UnixSocketRelay,
    UnixSocketRelay.new.run narrowLimits [.connected true, .task 0 (.begins none) ⟨true, true⟩, .close,
      .task 0 (.begins none) ⟨true, false⟩, .discard 0] = some r ∧
    ∀ r', r.step narrowLimits .gathered = some r' → r.returned < r'.returned →
      r'.active_connections = 0 ∧ ∀ c ∈ r'.connections, c.closed = true := by
  have hstep (r : UnixSocketRelay) (l : Label) (r' : UnixSocketRelay) (hs : Spares l r) (h : r.step narrowLimits l = some r') :
      Sparing narrowLimits r l r' := ⟨hs, h⟩
  refine ⟨_, rfl, fun r' h hreturned => ?_⟩
  refine (relay_conserves narrowLimits _ ?_).2.1 .gathered r' ⟨by decide, h⟩ hreturned
  refine .step (.step (.step (.step (.step (.init rfl) (hstep _ (.connected true) _ (by decide) rfl))
    (hstep _ (.task 0 (.begins none) ⟨true, true⟩) _ (by decide) rfl)) (hstep _ .close _ (by decide) rfl))
    (hstep _ (.task 0 (.begins none) ⟨true, false⟩) _ (by decide) rfl)) (hstep _ (.discard 0) _ (by decide) rfl)

/-- **A connection that is closed before its first step keeps its slot for ever**, and its client is not closed: the next
one is refused. One that waits for its upstream to close never closes its client. -/
theorem close_leaks_slot :
    (∃ r r' : UnixSocketRelay, UnixSocketRelay.new.run narrowLimits
        [.connected true, .close, .task 0 (.begins none) ⟨true, true⟩, .discard 0] = some r ∧
      r.step narrowLimits .gathered = some r' ∧ r'.returned = r.returned + 1 ∧ r'.active_connections = 1 ∧
      r'.connections.map (·.closed) = [false] ∧
      ((r'.run narrowLimits [.start, .bound true, .connected true]).map (fun s => s.connections.map (·.refused))) =
        some [none, some .connection_limit]) ∧
    ∃ r r' : UnixSocketRelay, UnixSocketRelay.new.run narrowLimits
        [.connected true, .task 0 (.begins none) ⟨true, true⟩, .task 0 (.connects (some .other)) ⟨true, true⟩, .close,
          .task 0 .streamClosed ⟨true, true⟩, .discard 0] = some r ∧
      r.step narrowLimits .gathered = some r' ∧ r'.returned = r.returned + 1 ∧ r'.connections.map (·.closed) = [false] := by
  exact ⟨⟨_, _, rfl, rfl, rfl, rfl, rfl, rfl⟩, _, _, rfl, rfl, rfl, rfl⟩

end OpenFlame.Relay
