import OpenFlame.Bridge.Run
import OpenFlame.Wire.Total

/-!
# Every run closes its invocation

`Session.Consistent`, `Session.Settled`   what holds of the invocation in the end, and what an exception says of it
`Phase`                                   how far the invocation has come when something raises

* `ledgerCall_triple`                     an operation of the ledger writes the row or leaves it;
* `dispatch_triple`, `respond_triple`, `fail_triple`   the guard;
* `closeWith_triple`, `close_triple`      the `except` clauses;
* `attempt_triple`, `collect_triple`      the `try` block, and the payload that it returns;
* `run_conservative`                      every run.
-/

set_option linter.all false

namespace OpenFlame.Bridge
open Points Wire Effect

variable {F : Type} {nums : Numbers F} {c : Call F} {env : Answers F}

/-! ## the ledger -/

/-- an operation of the ledger raised `e` -/
def Session.Ledgered (s : Session) (e : Exn) : Prop := ∃ e' ∈ s.failures, e = e'.surface

/-- the session after a transition was written -/
def Session.Written (s s' : Session) (target : InvocationState) : Prop :=
  ∃ row, s'.row = some row ∧ row.state = target ∧ s'.guard = s.guard ∧ s'.entered = s.entered ∧
    s'.commits = s.commits ++ [target]

/-- the session after nothing was written -/
def Session.Kept (s s' : Session) : Prop :=
  s'.row = s.row ∧ s'.guard = s.guard ∧ s'.entered = s.entered ∧ s'.commits = s.commits

section
variable {claim_token : Text} {m : Moment} {t : Transition} {reason : Text} {row : LedgerRow} {s₀ : Session}

theorem transition_eq_ok {owner : Option Owner} {revision : Nat} {written : Option LedgerRow}
    (h : transition claim_token owner t reason revision row = .ok written) :
    (written = none ∧ t.idempotent = true ∧ row.state = t.target) ∨
      ∃ row', written = some row' ∧ row.state ∈ t.sources ∧ row'.state = t.target := by
  simp only [transition, Guard.bind_eq_ok, Guard.require_eq_ok, Guard.fetch_eq_ok] at h
  obtain ⟨_, -, owner', -, _, -, _, -, h⟩ := h
  split at h
  · next hdone =>
    cases h
    exact .inl ⟨rfl, hdone.1, hdone.2.1⟩
  · simp only [Guard.bind_eq_ok, Guard.require_eq_ok, Guard.pure_eq_ok] at h
    obtain ⟨_, hsource, rfl⟩ := h
    exact .inr ⟨_, rfl, hsource.1, rfl⟩

/-- **An operation of the ledger** writes the row or leaves it, whether it returns or raises. -/
theorem ledgerCall_triple (hrow : s₀.row = some row) :
    Triple (fun s => s = s₀) (ledgerCall claim_token m t reason)
      (fun _ s => (row.state ∈ t.sources ∧ s₀.Written s t.target) ∨
        (t.idempotent = true ∧ row.state = t.target ∧ s₀.Kept s))
      (fun e s => (s₀.Kept s ∨ row.state ∈ t.sources ∧ s₀.Written s t.target) ∧ e ∈ s.failures) := by
  intro s hs
  subst hs
  unfold ledgerCall
  cases hfault : m.fault with
  | before e =>
    refine ⟨(fun _ h => nomatch h), fun e' h => ?_⟩
    cases h
    exact ⟨.inl ⟨rfl, rfl, rfl, rfl⟩, List.mem_cons_self⟩
  | none =>
    rw [hrow]
    dsimp only
    cases htransition : transition claim_token m.owner t reason s.record row with
    | error code =>
      refine ⟨(fun _ h => nomatch h), fun e' h => ?_⟩
      cases h
      exact ⟨.inl ⟨rfl, rfl, rfl, rfl⟩, List.mem_cons_self⟩
    | ok written =>
      refine ⟨fun _ _ => ?_, (fun e' h => nomatch h)⟩
      rcases transition_eq_ok htransition with ⟨rfl, hdone, htarget⟩ | ⟨row', rfl, hsource, htarget⟩
      · exact .inr ⟨hdone, htarget, rfl, rfl, rfl, rfl⟩
      · exact .inl ⟨hsource, row', rfl, htarget, rfl, rfl, rfl⟩
  | after e =>
    rw [hrow]
    dsimp only
    cases htransition : transition claim_token m.owner t reason s.record row with
    | error code =>
      refine ⟨(fun _ h => nomatch h), fun e' h => ?_⟩
      cases h
      exact ⟨.inl ⟨rfl, rfl, rfl, rfl⟩, List.mem_cons_self⟩
    | ok written =>
      refine ⟨(fun _ h => nomatch h), fun e' h => ?_⟩
      cases h
      rcases transition_eq_ok htransition with ⟨rfl, -, -⟩ | ⟨row', rfl, hsource, htarget⟩
      · exact ⟨.inl ⟨rfl, rfl, rfl, rfl⟩, List.mem_cons_self⟩
      · exact ⟨.inr ⟨hsource, row', rfl, htarget, rfl, rfl, rfl⟩, List.mem_cons_self⟩

end

/-! ## the guard -/

/-- how far the invocation has come, when something raises; `r₀` is the row that was reserved -/
inductive Phase (r₀ : LedgerRow) (s : Session) : Prop where
  | reserved (row : s.row = some r₀) (guard : s.guard = some .reserved) (entered : s.entered = false)
      (commits : s.commits = [])
  /-- the dispatch was written, and raised -/
  | dispatchLost (row : LedgerRow) (hrow : s.row = some row) (state : row.state = .dispatched)
      (guard : s.guard = some .reserved) (entered : s.entered = false) (commits : s.commits = [.dispatched])
  | dispatched (row : LedgerRow) (hrow : s.row = some row) (state : row.state = .dispatched)
      (guard : s.guard = some .dispatched) (commits : s.commits = [.dispatched])
  /-- the response was written, and raised -/
  | respondLost (row : LedgerRow) (hrow : s.row = some row) (state : row.state = .responded)
      (guard : s.guard = some .dispatched) (commits : s.commits = [.dispatched, .responded])

/-- what holds whatever a run ends with -/
structure Session.Consistent (s : Session) (r₀ : LedgerRow) : Prop where
  /-- the row is in the state that was written last -/
  current : ∀ row, s.row = some row → row.state = s.commits.getLast?.getD r₀.state
  /-- an invocation whose worker was started is never released -/
  entered : s.entered = true → .released ∉ s.commits
  /-- an invocation that was not dispatched is not marked unknown -/
  undispatched : .dispatched ∉ s.commits → .unknown ∉ s.commits

/-- a run that raises `e` has closed its invocation, or the ledger kept it from that -/
def Session.Settled (s : Session) (e : Exn) : Prop :=
  s.row = none ∨ (∃ row, s.row = some row ∧ row.state = .released) ∨
    (∃ row, s.row = some row ∧ row.state = .unknown) ∧ e = bridgeError (Points.text "ai_remote_result_unknown") ∨
    s.Ledgered e

/-- the invocation is closed, and the guard is in this state -/
def Session.Over (s : Session) (r₀ : LedgerRow) (state : Option GuardState) : Prop :=
  s.Consistent r₀ ∧ ((∃ row, s.row = some row ∧ row.state = .released) ∧ state = some .released ∨
    (∃ row, s.row = some row ∧ row.state = .unknown) ∧ state = some .unknown)

section
variable {claim_token : Text} {m : Moment} {r₀ : LedgerRow}

/-- the state of the guard after an operation that returned -/
theorem setGuard_triple {P : Session → Prop} {Q : Unit → Session → Prop} {E : Exn → Session → Prop} {state : GuardState}
    (h : ∀ s, P s → Q () { s with guard := some state }) : Triple P (setGuard state) Q E :=
  triple_modify h

theorem call_triple {P : Session → Prop} {Q : Unit → Session → Prop} {E : Exn → Session → Prop}
    {x : Effect Session Exn Unit} (h : Triple P x Q (fun e => E e.surface)) : Triple P (call x) Q E :=
  triple_mapError h

/-- a dispatch that raises may have been written, and then the guard does not know it -/
theorem dispatch_triple :
    Triple (fun s => s.row = some r₀ ∧ s.guard = some .reserved ∧ s.entered = false ∧ s.commits = [])
      (dispatch claim_token m)
      (fun _ s => ∃ row, s.row = some row ∧ row.state = .dispatched ∧ s.guard = some .dispatched ∧ s.entered = false ∧
        s.commits = [.dispatched])
      (fun e s => Phase r₀ s ∧ s.Ledgered e) := by
  refine Triple.ofStates (fun s₀ hs₀ => ?_)
  obtain ⟨hrow, hguard, hentered, hcommits⟩ := hs₀
  unfold dispatch
  refine triple_bind (triple_get (Q := fun a s => a = s₀ ∧ s = s₀) (fun s hs => ⟨hs, hs⟩)) (fun a => ?_)
  refine triple_bind (triple_require (Q := fun _ s => s = s₀) (fun _ s hs => hs.2) (fun hnot s hs => ?_)) (fun _ => ?_)
  · rw [hs.1] at hnot
    exact absurd hguard hnot
  refine triple_bind (call_triple (Triple.mono (ledgerCall_triple hrow) (fun _ hs => hs) (B := fun _ s =>
    s₀.Written s .dispatched) (fun _ s hs => ?_) (fun e s hs => ?_))) (fun _ => setGuard_triple (fun s hs => ?_))
  · rcases hs with ⟨-, hwritten⟩ | ⟨hdone, -⟩
    · exact hwritten
    · cases hdone
  · obtain ⟨hs, hfailed⟩ := hs
    refine ⟨?_, e, hfailed, rfl⟩
    rcases hs with ⟨hrow', hguard', hentered', hcommits'⟩ | ⟨-, row, hrow', hstate, hguard', hentered', hcommits'⟩
    · exact .reserved (hrow'.trans hrow) (hguard'.trans hguard) (hentered'.trans hentered) (hcommits'.trans hcommits)
    · exact .dispatchLost row hrow' hstate (hguard'.trans hguard) (hentered'.trans hentered) (by rw [hcommits', hcommits]; rfl)
  · obtain ⟨row, hrow', hstate, hguard', hentered', hcommits'⟩ := hs
    exact ⟨row, hrow', hstate, rfl, hentered'.trans hentered, by rw [hcommits', hcommits]; rfl⟩

/-- a response that raises may have been written, and then the guard does not know it -/
theorem respond_triple :
    Triple (fun s => ∃ row, s.row = some row ∧ row.state = .dispatched ∧ s.guard = some .dispatched ∧
        s.commits = [.dispatched])
      (respond claim_token m)
      (fun _ s => (∃ row, s.row = some row ∧ row.state = .responded) ∧ s.guard = some .responded ∧
        s.commits = [.dispatched, .responded])
      (fun e s => Phase r₀ s ∧ s.Ledgered e) := by
  refine Triple.ofStates (fun s₀ hs₀ => ?_)
  obtain ⟨row₀, hrow, hdispatched, hguard, hcommits⟩ := hs₀
  unfold respond
  refine triple_bind (triple_get (Q := fun a s => a = s₀ ∧ s = s₀) (fun s hs => ⟨hs, hs⟩)) (fun a => ?_)
  refine triple_bind (triple_require (Q := fun _ s => s = s₀) (fun _ s hs => hs.2) (fun hnot s hs => ?_)) (fun _ => ?_)
  · rw [hs.1] at hnot
    exact absurd hguard hnot
  refine triple_bind (call_triple (Triple.mono (ledgerCall_triple hrow) (fun _ hs => hs) (B := fun _ s =>
    s₀.Written s .responded) (fun _ s hs => ?_) (fun e s hs => ?_))) (fun _ => setGuard_triple (fun s hs => ?_))
  · rcases hs with ⟨-, hwritten⟩ | ⟨-, hresponded, -⟩
    · exact hwritten
    · rw [hdispatched] at hresponded
      cases hresponded
  · obtain ⟨hs, hfailed⟩ := hs
    refine ⟨?_, e, hfailed, rfl⟩
    rcases hs with ⟨hrow', hguard', -, hcommits'⟩ | ⟨-, row, hrow', hstate, hguard', -, hcommits'⟩
    · exact .dispatched row₀ (hrow'.trans hrow) hdispatched (hguard'.trans hguard) (hcommits'.trans hcommits)
    · exact .respondLost row hrow' hstate (hguard'.trans hguard) (by rw [hcommits', hcommits]; rfl)
  · obtain ⟨row, hrow', hstate, -, -, hcommits'⟩ := hs
    exact ⟨⟨row, hrow', hstate⟩, rfl, by rw [hcommits', hcommits]; rfl⟩

/-! ## the `except` clauses -/

theorem Phase.consistent {s : Session} (h : Phase r₀ s) : s.Consistent r₀ := by
  cases h with
  | reserved row guard entered commits =>
    refine ⟨fun r hr => ?_, fun he => ?_, fun _ => ?_⟩
    · rw [row] at hr
      cases hr
      rw [commits]
      rfl
    · rw [entered] at he
      cases he
    · rw [commits]
      exact List.not_mem_nil
  | dispatchLost row hrow state guard entered commits =>
    refine ⟨fun r hr => ?_, fun _ => ?_, fun hnot => ?_⟩
    · rw [hrow] at hr
      cases hr
      rw [commits]
      exact state
    · rw [commits]
      decide
    · rw [commits] at hnot
      exact absurd List.mem_cons_self hnot
  | dispatched row hrow state guard commits =>
    refine ⟨fun r hr => ?_, fun _ => ?_, fun hnot => ?_⟩
    · rw [hrow] at hr
      cases hr
      rw [commits]
      exact state
    · rw [commits]
      decide
    · rw [commits] at hnot
      exact absurd List.mem_cons_self hnot
  | respondLost row hrow state guard commits =>
    refine ⟨fun r hr => ?_, fun _ => ?_, fun hnot => ?_⟩
    · rw [hrow] at hr
      cases hr
      rw [commits]
      exact state
    · rw [commits]
      decide
    · rw [commits] at hnot
      exact absurd List.mem_cons_self hnot

/-- nothing was written since, so what held of the session holds -/
theorem Session.Kept.consistent {s s' : Session} (h : s.Kept s') (hs : s.Consistent r₀) : s'.Consistent r₀ := by
  obtain ⟨hrow, -, hentered, hcommits⟩ := h
  refine ⟨fun row hr => ?_, fun he => ?_, fun hnot => ?_⟩
  · rw [hcommits]
    exact hs.current row (hrow ▸ hr)
  · rw [hcommits]
    exact hs.entered (hentered ▸ he)
  · rw [hcommits] at hnot ⊢
    exact hs.undispatched hnot

/-- what is written to the row is what it is in, and the worker was not started or the row is not released -/
theorem Session.Written.consistent {s s' : Session} {target : InvocationState} (h : s.Written s' target)
    (hs : s.Consistent r₀) (hreleased : target = .released → s.entered = false)
    (hunknown : target = .unknown → .dispatched ∈ s.commits) : s'.Consistent r₀ := by
  obtain ⟨row, hrow, hstate, -, hentered, hcommits⟩ := h
  refine ⟨fun r hr => ?_, fun he => ?_, fun hnot => ?_⟩
  · rw [hrow] at hr
    cases hr
    rw [hcommits, List.getLast?_concat]
    exact hstate
  · rw [hentered] at he
    rw [hcommits]
    intro hmem
    rcases List.mem_append.mp hmem with hmem | hmem
    · exact hs.entered he hmem
    · rw [hreleased (List.mem_singleton.mp hmem).symm] at he
      cases he
  · rw [hcommits] at hnot ⊢
    intro hmem
    rcases List.mem_append.mp hmem with hmem | hmem
    · exact hs.undispatched (fun hd => hnot (List.mem_append_left _ hd)) hmem
    · exact hnot (List.mem_append_left _ (hunknown (List.mem_singleton.mp hmem).symm))

/-- a transition that closes an invocation, or raises what the ledger raised -/
theorem closing_triple {s₀ : Session} {row : LedgerRow} {t : Transition} {code : Text} {state : GuardState}
    (hrow : s₀.row = some row) (hs₀ : s₀.Consistent r₀) (hreleased : row.state ∈ t.sources → t.target = .released → s₀.entered = false)
    (hunknown : row.state ∈ t.sources → t.target = .unknown → .dispatched ∈ s₀.commits) :
    Triple (fun s => s = s₀) (do call (ledgerCall claim_token m t code); setGuard state)
      (fun _ s => s.Consistent r₀ ∧ s.guard = some state ∧ ∃ row, s.row = some row ∧ row.state = t.target)
      (fun e s => s.Consistent r₀ ∧ s.Ledgered e) := by
  refine triple_bind (call_triple (Triple.mono (ledgerCall_triple hrow) (fun _ hs => hs)
    (B := fun _ s => s.Consistent r₀ ∧ ∃ row, s.row = some row ∧ row.state = t.target)
    (fun _ s hs => ?_) (fun e s hs => ?_))) (fun _ => setGuard_triple (fun s hs => ?_))
  · rcases hs with ⟨hin, hwritten⟩ | ⟨-, hdone, hkept⟩
    · refine ⟨hwritten.consistent hs₀ (hreleased hin) (hunknown hin), ?_⟩
      obtain ⟨row', hrow', hstate, -⟩ := hwritten
      exact ⟨row', hrow', hstate⟩
    · exact ⟨hkept.consistent hs₀, row, hkept.1.trans hrow, hdone⟩
  · obtain ⟨hs, hfailed⟩ := hs
    rcases hs with hkept | ⟨hin, hwritten⟩
    · exact ⟨hkept.consistent hs₀, e, hfailed, rfl⟩
    · exact ⟨hwritten.consistent hs₀ (hreleased hin) (hunknown hin), e, hfailed, rfl⟩
  · exact ⟨⟨hs.1.current, hs.1.entered, hs.1.undispatched⟩, rfl, hs.2⟩

/-- **`fail` releases what was not sent and marks unknown what was**, or raises what the ledger raised. -/
theorem fail_triple {released unknown : Moment} {code : Text} :
    Triple (fun s => Phase r₀ s) (fail claim_token released unknown code)
      (fun state s => s.Over r₀ state) (fun e s => s.Consistent r₀ ∧ s.Ledgered e) := by
  refine Triple.ofStates (fun s₀ hphase => ?_)
  have hconsistent := hphase.consistent
  unfold fail
  refine triple_bind (triple_get (Q := fun a s => a = s₀ ∧ s = s₀) (fun s hs => ⟨hs, hs⟩)) (fun a => ?_)
  refine triple_bind (Q := fun (_ : Unit) (s : Session) => s.Over r₀ s.guard) ?_ (fun _ => ?_)
  · have hclose : ∀ {t : Transition} {state : GuardState} {row : LedgerRow} {m : Moment} {code : Text}, s₀.row = some row →
        (t.target = .released ∧ state = .released ∨ t.target = .unknown ∧ state = .unknown) →
        (row.state ∈ t.sources → t.target = .released → s₀.entered = false) →
        (row.state ∈ t.sources → t.target = .unknown → .dispatched ∈ s₀.commits) →
        Triple (fun s => s = s₀) (do call (ledgerCall claim_token m t code); setGuard state)
          (fun _ s => s.Over r₀ s.guard) (fun e s => s.Consistent r₀ ∧ s.Ledgered e) := by
      intro t state row m code hrow htarget hreleased hunknown
      refine Triple.mono (closing_triple hrow hconsistent hreleased hunknown) (fun _ hs => hs) (fun _ s hs => ?_)
        (fun _ _ hs => hs)
      obtain ⟨hc, hguard, hrow'⟩ := hs
      rcases htarget with ⟨ht, rfl⟩ | ⟨ht, rfl⟩
      · exact ⟨hc, .inl ⟨ht ▸ hrow', hguard⟩⟩
      · exact ⟨hc, .inr ⟨ht ▸ hrow', hguard⟩⟩
    refine Triple.ofStates (fun s hs => ?_)
    obtain ⟨rfl, rfl⟩ := hs
    cases hphase with
    | reserved row guard entered commits =>
      rw [guard]
      exact hclose row (.inl ⟨rfl, rfl⟩) (fun _ _ => entered) (fun _ h => nomatch h)
    | dispatchLost row hrow state guard entered commits =>
      rw [guard]
      exact hclose hrow (.inl ⟨rfl, rfl⟩) (fun _ _ => entered) (fun _ h => nomatch h)
    | dispatched row hrow state guard commits =>
      rw [guard]
      exact hclose hrow (.inr ⟨rfl, rfl⟩) (fun _ h => nomatch h) (fun _ _ => commits ▸ List.mem_cons_self)
    | respondLost row hrow state guard commits =>
      rw [guard]
      exact hclose hrow (.inr ⟨rfl, rfl⟩) (fun _ h => nomatch h) (fun _ _ => commits ▸ List.mem_cons_self)
  · refine triple_bind (triple_get (Q := fun (a s : Session) => a = s ∧ s.Over r₀ s.guard) (fun s hs => ⟨rfl, hs⟩))
      (fun a => ?_)
    refine triple_pure (fun s hs => ?_)
    obtain ⟨rfl, hs⟩ := hs
    exact hs

/-- **An `except` clause closes the invocation**, or raises what the ledger raised. -/
theorem closeWith_triple {α : Type} {code : Text} {e : Exn} :
    Triple (fun s => Phase r₀ s) (closeWith c env code e : Effect Session Exn α) (fun _ _ => False)
      (fun e s => s.Consistent r₀ ∧ s.Settled e) := by
  refine Triple.ofStates (fun s₀ hphase => ?_)
  have hguard : s₀.guard ≠ none := by
    intro hnone
    cases hphase with
    | reserved row guard entered commits =>
      rw [hnone] at guard
      cases guard
    | dispatchLost row hrow state guard entered commits =>
      rw [hnone] at guard
      cases guard
    | dispatched row hrow state guard commits =>
      rw [hnone] at guard
      cases guard
    | respondLost row hrow state guard commits =>
      rw [hnone] at guard
      cases guard
  unfold closeWith
  refine triple_bind (triple_get (Q := fun a s => a = s₀ ∧ s = s₀) (fun s hs => ⟨hs, hs⟩)) (fun a => ?_)
  refine triple_ite (fun hnone => Triple.ofStates (fun s hs => ?_)) (fun _ => ?_)
  · rw [hs.1] at hnone
    exact absurd hnone hguard
  · refine triple_bind (Triple.mono fail_triple (fun s hs => hs.2 ▸ hphase) (fun _ _ hs => hs) (fun e s hs => ?_))
      (fun state => triple_ite (fun hstate => triple_raise (fun s hs => ?_)) (fun hstate => triple_raise (fun s hs => ?_)))
    · exact ⟨hs.1, .inr (.inr (.inr hs.2))⟩
    · obtain ⟨hc, ⟨-, hreleased⟩ | ⟨hunknown, -⟩⟩ := hs
      · rw [hreleased] at hstate
        cases hstate
      · exact ⟨hc, .inr (.inr (.inl ⟨hunknown, rfl⟩))⟩
    · obtain ⟨hc, ⟨hreleased, -⟩ | ⟨-, hunknown⟩⟩ := hs
      · exact ⟨hc, .inr (.inl hreleased)⟩
      · exact absurd hunknown hstate

/-- a clause without an invocation raises what it caught -/
theorem closeWith_none {α : Type} {code : Text} {e : Exn} {P : Session → Prop} {E : Exn → Session → Prop}
    (hP : ∀ s, P s → s.guard = none) (hE : ∀ s, P s → E e s) :
    Triple P (closeWith c env code e : Effect Session Exn α) (fun _ _ => False) E := by
  unfold closeWith
  refine triple_bind (triple_get (Q := fun a s => a = s ∧ P s) (fun s hs => ⟨rfl, hs⟩)) (fun a => ?_)
  refine triple_ite (fun _ => triple_raise (fun s hs => hE s hs.2)) (fun hsome => Triple.ofStates (fun s hs => ?_))
  rw [hs.1] at hsome
  exact absurd (hP s hs.2) hsome

end

/-! ## the `try` block -/

section
variable {request : Request F} {authorization : Authorized} {scratch : Text}

theorem quiet_demand {p : Prop} [Decidable p] {code : String} : Quiet (demand p code : Effect Session Exn Unit) :=
  quiet_require p _

theorem quiet_unlessCanceled {answer : Except Exn Bool} : Quiet (unlessCanceled answer : Effect Session Exn Unit) :=
  quiet_bind (quiet_ask _) (fun _ => quiet_demand)

theorem quiet_admission : Quiet (admission nums c env) :=
  quiet_bind (quiet_ask _) (fun _ => quiet_bind (quiet_ask _) (fun _ => quiet_bind quiet_unlessCanceled (fun _ =>
    quiet_bind quiet_unlessCanceled (fun _ => quiet_bind (quiet_ask _) (fun _ => quiet_bind (quiet_ask _) (fun _ =>
      quiet_bind (quiet_ask _) (fun _ => quiet_pure _)))))))

theorem quiet_prepare : Quiet (prepare nums c env request scratch) := by
  refine quiet_bind ?_ (fun _ => quiet_bind (quiet_ask _) (fun source => quiet_bind ?_ (fun _ => quiet_bind (quiet_ask _)
    (fun _ => quiet_bind (quiet_ask _) (fun _ => quiet_bind (quiet_ask _) (fun _ => quiet_bind (quiet_ask _) (fun _ =>
      quiet_pure _)))))))
  · exact quiet_ite (quiet_bind quiet_demand (fun _ => quiet_ask _)) (quiet_bind quiet_demand (fun _ => quiet_pure _))
  · exact quiet_ite (quiet_bind (quiet_ask _) (fun _ => quiet_ask _)) (quiet_pure _)

theorem quiet_deliver {payload : ResultPayload} : Quiet (deliver c env request scratch payload) := by
  cases payload with
  | health p => exact quiet_bind quiet_demand (fun _ => quiet_pure _)
  | transcribe p => exact quiet_pure _
  | translate p => exact quiet_bind quiet_demand (fun _ => quiet_pure _)
  | synthesize p =>
    exact quiet_bind quiet_demand (fun _ => quiet_bind (quiet_ask _) (fun _ => quiet_bind quiet_demand (fun _ => quiet_pure _)))

theorem quiet_collect {returncode : Int} : Quiet (collect nums c env request scratch returncode) := by
  unfold collect
  refine quiet_bind ?_ (fun _ => quiet_bind (quiet_ask _) (fun _ => quiet_bind (quiet_ask _) (fun _ =>
    quiet_bind (quiet_ask _) (fun _ => quiet_bind (quiet_ask _) (fun result => quiet_bind quiet_demand (fun _ => ?_))))))
  · cases env.progress_failure with
    | none => exact quiet_pure ()
    | some code => exact quiet_raise _
  · cases result.outcome with
    | error operation code => exact quiet_raise _
    | ok payload => exact quiet_bind quiet_demand (fun _ => quiet_deliver)

/-- the payload of a result that `validate_result` returned for this request; of an audio the path is another -/
def Validated (nums : Numbers F) (c : Call F) (env : Answers F) (delivered : ResultPayload) : Prop :=
  ∃ value result payload, env.result = .ok value ∧
    validateResult nums (some c.request_id) (some c.operation) value = .ok result ∧ result.outcome = .ok payload ∧
    delivered = match payload with
      | .synthesize p => .synthesize { p with path := c.audio_destination.getD [] }
      | p => p

theorem deliver_triple {payload : ResultPayload} :
    Triple (fun _ => True) (deliver c env request scratch payload)
      (fun delivered _ => delivered = match payload with
        | .synthesize p => .synthesize { p with path := c.audio_destination.getD [] }
        | p => p)
      (fun _ _ => True) := by
  cases payload with
  | health p => exact triple_bind triple_trivial (fun _ => triple_pure (fun _ _ => rfl))
  | transcribe p => exact triple_pure (fun _ _ => rfl)
  | translate p => exact triple_bind triple_trivial (fun _ => triple_pure (fun _ _ => rfl))
  | synthesize p =>
    exact triple_bind triple_trivial (fun _ => triple_bind triple_trivial (fun _ => triple_bind triple_trivial (fun _ => triple_pure (fun _ _ => rfl))))

theorem ofWire_eq_ok {α : Type} {x : Except Wire.Exn α} {a : α} : ofWire x = .ok a ↔ x = .ok a := Guard.mapError_eq_ok

/-- **A payload that is collected was validated for this request.** -/
theorem collect_triple {returncode : Int} :
    Triple (fun _ => True) (collect nums c env request scratch returncode) (fun payload _ => Validated nums c env payload)
      (fun _ _ => True) := by
  unfold collect
  refine triple_bind triple_trivial (fun _ => triple_bind triple_trivial (fun _ => triple_bind triple_trivial (fun _ => triple_bind triple_trivial (fun _ => ?_))))
  refine triple_bind (Q := fun result _ => ∃ value, env.result = .ok value ∧
    validateResult nums (some c.request_id) (some c.operation) value = .ok result) ?_ (fun result => ?_)
  · refine triple_ask (fun result hresult s _ => ?_) (fun _ _ _ _ => trivial)
    obtain ⟨value, hvalue, hvalid⟩ := Guard.bind_eq_ok.mp (Guard.mapError_eq_ok.mp hresult)
    exact ⟨value, hvalue, ofWire_eq_ok.mp hvalid⟩
  · refine triple_bind (Quiet.triple quiet_demand |>.mono (fun _ hs => hs) (fun _ _ hs => hs) (fun _ _ _ => trivial))
      (fun _ => ?_)
    cases houtcome : result.outcome with
    | error operation code => exact triple_raise (fun _ _ => trivial)
    | ok payload =>
      refine Triple.ofStates (fun s₀ hs₀ => ?_)
      obtain ⟨value, hvalue, hvalid⟩ := hs₀
      refine triple_bind triple_trivial (fun _ => ?_)
      exact deliver_triple.mono (fun _ hs => hs) (fun _ _ h => ⟨value, result, payload, hvalue, hvalid, houtcome, h⟩)
        (fun _ _ hs => hs)

/-! ## a run -/

/-- no invocation is known to the run -/
def Unopened (r₀ : LedgerRow) (s : Session) : Prop := s.guard = none ∧ s.commits = [] ∧ (s.row = none ∨ s.row = some r₀)

/-- what something raised `e` in: there is no row, the ledger raised `e`, or the invocation is in one of its phases -/
def Broken (r₀ : LedgerRow) (e : Exn) (s : Session) : Prop :=
  Unopened r₀ s ∧ s.entered = false ∧ s.Ledgered e ∨ Unopened r₀ s ∧ s.row = none ∨ Phase r₀ s

def NotInvoked (s : Session) : Prop := s.row = none ∧ s.guard = none ∧ s.commits = []

def Opened (r₀ : LedgerRow) (s : Session) : Prop :=
  s.row = some r₀ ∧ s.guard = some .reserved ∧ s.entered = false ∧ s.commits = []

def Sent (s : Session) : Prop :=
  ∃ row, s.row = some row ∧ row.state = .dispatched ∧ s.guard = some .dispatched ∧ s.commits = [.dispatched]

def Answered (s : Session) : Prop :=
  (∃ row, s.row = some row ∧ row.state = .responded) ∧ s.guard = some .responded ∧ s.commits = [.dispatched, .responded]

section
variable {r₀ : LedgerRow} {s : Session} {e : Exn}

theorem NotInvoked.broken (h : NotInvoked s) : Broken r₀ e s := .inr (.inl ⟨⟨h.2.1, h.2.2, .inl h.1⟩, h.1⟩)

theorem Opened.broken (h : Opened r₀ s) : Broken r₀ e s := .inr (.inr (.reserved h.1 h.2.1 h.2.2.1 h.2.2.2))

theorem Sent.broken (h : Sent s) : Broken r₀ e s := by
  obtain ⟨row, hrow, hstate, hguard, hcommits⟩ := h
  exact .inr (.inr (.dispatched row hrow hstate hguard hcommits))

theorem Unopened.consistent (h : Unopened r₀ s) : s.Consistent r₀ := by
  obtain ⟨-, hcommits, hrow⟩ := h
  refine ⟨fun row hr => ?_, fun _ => ?_, fun _ => ?_⟩
  · rcases hrow with hrow | hrow
    · rw [hrow] at hr
      cases hr
    · rw [hrow] at hr
      cases hr
      rw [hcommits]
      rfl
  · rw [hcommits]
    exact List.not_mem_nil
  · rw [hcommits]
    exact List.not_mem_nil

theorem Answered.consistent (h : Answered s) : s.Consistent r₀ := by
  obtain ⟨⟨row, hrow, hstate⟩, -, hcommits⟩ := h
  refine ⟨fun r hr => ?_, fun _ => ?_, fun hnot => ?_⟩
  · rw [hrow] at hr
    cases hr
    rw [hcommits]
    exact hstate
  · rw [hcommits]
    decide
  · rw [hcommits] at hnot
    exact absurd List.mem_cons_self hnot

end

theorem open_triple : Triple (fun s => s = Session.start) (open' c env authorization)
    (fun _ s => NotInvoked s ∨ Opened env.reserved s) (fun e s => Broken env.reserved e s) := by
  have hstart : NotInvoked Session.start := ⟨rfl, rfl, rfl⟩
  unfold open'
  refine triple_ite (fun _ => ?_) (fun _ => ?_)
  · refine triple_bind (triple_require (Q := fun _ s => s = Session.start) (fun _ s hs => hs)
      (fun _ s hs => by rw [hs]; exact hstart.broken)) (fun _ => ?_)
    refine triple_bind (Q := fun _ s => s.row = some env.reserved ∧ s.entered = false ∧ s.commits = []) ?_
      (fun _ => setGuard_triple (fun s hs => .inr ⟨hs.1, rfl, hs.2⟩))
    refine call_triple (fun s hs => ?_)
    subst hs
    unfold reserve
    cases env.reserve with
    | none => exact ⟨fun _ _ => ⟨rfl, rfl, rfl⟩, (fun _ h => nomatch h)⟩
    | before e =>
      refine ⟨(fun _ h => nomatch h), fun e' h => ?_⟩
      cases h
      exact .inl ⟨⟨rfl, rfl, .inl rfl⟩, rfl, e, List.mem_cons_self, rfl⟩
    | after e =>
      refine ⟨(fun _ h => nomatch h), fun e' h => ?_⟩
      cases h
      exact .inl ⟨⟨rfl, rfl, .inr rfl⟩, rfl, e, List.mem_cons_self, rfl⟩
  · exact triple_require (fun _ s hs => .inl (by rw [hs]; exact hstart)) (fun _ s hs => by rw [hs]; exact hstart.broken)

/-- an operation of the guard is left out without an invocation -/
theorem ifInvoked_triple {A B : Session → Prop} {E : Exn → Session → Prop} {x : Effect Session Exn Unit}
    (hA : ∀ s, A s → s.guard ≠ none) (hx : Triple A x (fun _ => B) E) :
    Triple (fun s => NotInvoked s ∨ A s) (ifInvoked x) (fun _ s => NotInvoked s ∨ B s) E := by
  unfold ifInvoked
  refine triple_bind (triple_get (Q := fun (a s : Session) => a = s ∧ (NotInvoked s ∨ A s)) (fun s hs => ⟨rfl, hs⟩))
    (fun a => triple_ite (fun hnone => triple_pure (fun s hs => ?_)) (fun hsome => ?_))
  · obtain ⟨rfl, h | h⟩ := hs
    · exact .inl h
    · exact absurd hnone (hA _ h)
  · refine hx.mono (fun s hs => ?_) (fun _ s hs => .inr hs) (fun _ _ hs => hs)
    obtain ⟨rfl, h | h⟩ := hs
    · exact absurd h.2.1 hsome
    · exact h

/-- **The `try` block** returns what was validated, with the invocation answered, or breaks off in one of the phases. -/
theorem attempt_triple : Triple (fun s => s = Session.start) (attempt nums c env request authorization scratch)
    (fun payload s => (NotInvoked s ∨ Answered s) ∧ Validated nums c env payload) (fun e s => Broken env.reserved e s) := by
  have hsent : ∀ {e : Exn} {s : Session}, NotInvoked s ∨ Sent s → Broken env.reserved e s := fun h =>
    h.elim NotInvoked.broken Sent.broken
  unfold attempt
  refine triple_bind (Quiet.triple quiet_prepare |>.mono (fun _ hs => hs) (fun _ _ hs => hs) (fun e s hs => ?_))
    (fun request' => ?_)
  · rw [hs]
    exact NotInvoked.broken ⟨rfl, rfl, rfl⟩
  refine triple_bind open_triple (fun _ => ?_)
  refine triple_bind (Quiet.triple quiet_unlessCanceled |>.mono (fun _ hs => hs) (fun _ _ hs => hs)
    (fun e s hs => hs.elim NotInvoked.broken Opened.broken)) (fun _ => ?_)
  refine triple_bind (ifInvoked_triple (B := Sent) (fun s hs => ?_) (dispatch_triple.mono (fun s hs => hs) (fun _ s hs => ?_)
    (fun e s hs => .inr (.inr hs.1)))) (fun _ => ?_)
  · rw [hs.2.1]
    exact fun h => nomatch h
  · obtain ⟨row, hrow, hstate, hguard, -, hcommits⟩ := hs
    exact ⟨row, hrow, hstate, hguard, hcommits⟩
  refine triple_bind (Q := fun _ s => NotInvoked s ∨ Sent s) ?_ (fun returncode => ?_)
  · unfold runWorker
    refine triple_bind (triple_modify (Q := fun _ s => NotInvoked s ∨ Sent s) (fun s hs => ?_)) (fun _ =>
      triple_ask (fun _ _ s hs => hs) (fun _ _ s hs => hsent hs))
    exact hs
  refine triple_bind (Triple.and (Quiet.triple quiet_collect) (collect_triple.mono (fun _ _ => trivial) (fun _ _ hs => hs)
    (fun _ _ hs => hs)) |>.mono (fun _ hs => hs) (fun _ _ hs => hs) (fun e s hs => hsent hs.1)) (fun payload => ?_)
  refine Triple.ofStates (fun s₀ hs₀ => ?_)
  refine triple_bind (ifInvoked_triple (A := Sent) (B := Answered) (fun s hs => ?_)
    (respond_triple.mono (fun s hs => hs) (fun _ s hs => hs) (fun e s hs => .inr (.inr hs.1))) |>.mono
      (fun s hs => by rw [hs]; exact hs₀.1) (fun _ _ hs => hs) (fun _ _ hs => hs)) (fun _ => triple_pure (fun s hs => ⟨hs, hs₀.2⟩))
  obtain ⟨row, -, -, hguard, -⟩ := hs
  rw [hguard]
  exact fun h => nomatch h

theorem surface_cases (e : Exn) : (∃ code, e.surface = .bridge code) ∨ e.surface = .exit := by
  cases e with
  | bridge code => exact .inl ⟨_, rfl⟩
  | protocol code => exact .inl ⟨_, rfl⟩
  | runtime code => exact .inl ⟨_, rfl⟩
  | command e => exact .inl ⟨_, rfl⟩
  | other code => exact .inl ⟨_, rfl⟩
  | exit => exact .inr rfl

/-- **The `except` clauses** close the invocation, or raise what the ledger raised. -/
theorem close_triple {α : Type} {e : Exn} :
    Triple (fun s => Broken env.reserved e s) (close c env e : Effect Session Exn α) (fun _ _ => False)
      (fun e s => s.Consistent env.reserved ∧ s.Settled e) := by
  -- a clause that raises `e'` in place of `e`; what the ledger raised is raised as it is
  have hclause : ∀ {code : Text} {e' : Exn}, (∀ s : Session, s.Ledgered e → e' = e) →
      Triple (fun s => Broken env.reserved e s) (closeWith c env code e' : Effect Session Exn α) (fun _ _ => False)
        (fun e s => s.Consistent env.reserved ∧ s.Settled e) := by
    intro code e' hsame
    refine Triple.ofStates (fun s₀ hs₀ => ?_)
    rcases hs₀ with ⟨hunopened, -, hledgered⟩ | ⟨hunopened, hrow⟩ | hphase
    · refine closeWith_none (fun s hs => hs ▸ hunopened.1) (fun s hs => ?_)
      rw [hs, hsame s₀ hledgered]
      exact ⟨hunopened.consistent, .inr (.inr (.inr hledgered))⟩
    · refine closeWith_none (fun s hs => hs ▸ hunopened.1) (fun s hs => ?_)
      rw [hs]
      exact ⟨hunopened.consistent, .inl hrow⟩
    · exact closeWith_triple.mono (fun s hs => hs ▸ hphase) (fun _ _ hs => hs) (fun _ _ hs => hs)
  have hother : ∀ s : Session, s.Ledgered e → (∃ code, e = .bridge code) ∨ e = .exit := by
    intro s hs
    obtain ⟨e', -, he⟩ := hs
    rw [he]
    exact surface_cases e'
  cases e with
  | bridge code => exact hclause (fun _ _ => rfl)
  | protocol code =>
    refine hclause (fun s hs => ?_)
    rcases hother s hs with ⟨_, h⟩ | h <;> cases h
  | runtime code =>
    refine hclause (fun s hs => ?_)
    rcases hother s hs with ⟨_, h⟩ | h <;> cases h
  | command e => exact hclause (fun _ _ => rfl)
  | other code => exact hclause (fun _ _ => rfl)
  | exit => exact hclause (fun _ _ => rfl)

/-- the invocation is answered, released or unknown, or there is none, or an operation of the ledger failed -/
def Session.Closed (s : Session) : Prop :=
  s.row = none ∨ (∃ row, s.row = some row ∧ row.state ∈ [.responded, .released, .unknown]) ∨ s.failures ≠ []

theorem Session.Settled.closed {s : Session} {e : Exn} (h : s.Settled e) : s.Closed := by
  rcases h with h | ⟨row, hrow, hstate⟩ | ⟨⟨row, hrow, hstate⟩, -⟩ | ⟨e', he', -⟩
  · exact .inl h
  · exact .inr (.inl ⟨row, hrow, by rw [hstate]; decide⟩)
  · exact .inr (.inl ⟨row, hrow, by rw [hstate]; decide⟩)
  · exact .inr (.inr (List.ne_nil_of_mem he'))

/-- a run that returned answered its invocation, and its payload was validated -/
structure Returned (nums : Numbers F) (c : Call F) (env : Answers F) (payload : ResultPayload) (s : Session) : Prop where
  answered : NotInvoked s ∨ Answered s
  validated : Validated nums c env payload

theorem run_triple (nums : Numbers F) (c : Call F) (env : Answers F) : Triple (fun s => s = Session.start) (run nums c env) (fun payload s => Returned nums c env payload s)
    (fun e s => s.Consistent env.reserved ∧ s.Closed ∧ (s.Settled e ∨ env.cleanup = some e)) := by
  unfold run
  refine triple_bind (Quiet.triple quiet_admission |>.mono (fun _ hs => hs) (fun _ _ hs => hs) (fun e s hs => ?_)) (fun a => ?_)
  · rw [hs]
    exact ⟨NotInvoked.broken (e := e) ⟨rfl, rfl, rfl⟩ |>.elim (fun h => h.1.consistent) (fun h => h.elim
      (fun h => h.1.consistent) Phase.consistent), .inl rfl, .inl (.inl rfl)⟩
  · refine triple_tryFinally (triple_tryExcept attempt_triple (fun e => close_triple.mono (fun _ hs => hs)
      (fun _ _ hs => hs.elim) (fun e s hs => ⟨hs.1, hs.2.closed, .inl hs.2⟩)) |>.mono (fun _ hs => hs)
        (fun payload s hs => (⟨hs.1, hs.2⟩ : Returned nums c env payload s)) (fun _ _ hs => hs)) (fun payload => ?_) (fun e => ?_)
    · -- the scratch directory is removed after a value
      unfold removeScratch
      cases hcleanup : env.cleanup with
      | none => exact triple_pure (fun _ hs => hs)
      | some e =>
        refine triple_raise (fun s hs => ?_)
        rcases hs.answered with hnot | hanswered
        · exact ⟨Unopened.consistent ⟨hnot.2.1, hnot.2.2, .inl hnot.1⟩, .inl hnot.1, .inr rfl⟩
        · obtain ⟨row, hrow, hstate⟩ := hanswered.1
          exact ⟨hanswered.consistent, .inr (.inl ⟨row, hrow, by rw [hstate]; decide⟩), .inr rfl⟩
    · -- and after an exception
      unfold removeScratch
      cases hcleanup : env.cleanup with
      | none => exact triple_pure (fun _ hs => hs)
      | some e' => exact triple_raise (fun s hs => ⟨hs.1, hs.2.1, .inr rfl⟩)

/-- what a run ends with, and the invocation that it leaves; an excused exception says nothing of the invocation -/
structure Conservative (nums : Numbers F) (c : Call F) (env : Answers F) (excused : Exn → Prop)
    (outcome : Except Exn ResultPayload) (s : Session) : Prop where
  /-- a run that returns responded once, and returns what was validated for this request -/
  returned : ∀ payload, outcome = .ok payload → Validated nums c env payload ∧
    (s.row = none ∨ s.commits = [.dispatched, .responded] ∧ ∃ row, s.row = some row ∧ row.state = .responded)
  /-- once the runner was entered the invocation is not released; one that was not dispatched is not marked unknown -/
  consistent : s.Consistent env.reserved
  /-- a run that raises has closed its invocation, if the ledger did not fail -/
  closed : ∀ e, outcome = .error e → s.Closed
  /-- it released its invocation, or marked it unknown and says so, or raises what the ledger raised -/
  raised : ∀ e, outcome = .error e → s.Settled e ∨ excused e

/-- **Every run closes its invocation conservatively**, and what it raises says how, unless the cleanup raised it. -/
theorem run_conservative (nums : Numbers F) (c : Call F) (env : Answers F) :
    Conservative nums c env (fun e => env.cleanup = some e) (run nums c env Session.start).1
      (run nums c env Session.start).2 := by
  obtain ⟨hok, herror⟩ := run_triple nums c env Session.start rfl
  refine ⟨fun payload h => ⟨(hok payload h).validated, ?_⟩, ?_, fun e h => (herror e h).2.1, fun e h => (herror e h).2.2⟩
  · rcases (hok payload h).answered with hnot | hanswered
    · exact .inl hnot.1
    · exact .inr ⟨hanswered.2.2, hanswered.1⟩
  · cases hr : (run nums c env Session.start).1 with
    | ok payload =>
      rcases (hok payload hr).answered with hnot | hanswered
      · exact Unopened.consistent ⟨hnot.2.1, hnot.2.2, .inl hnot.1⟩
      · exact hanswered.consistent
    | error e => exact (herror e hr).1

end

/-! ## an interrupt while the scratch directory is removed -/

def exampleCue : Cue where
  id := Points.text "a"
  order := 0
  start_ms := 0
  end_ms := 1000
  source_text := Points.text "hi"
  source_language := Points.text "en"
  speaker_id := none

/-- one cue is translated by a remote provider -/
def exampleCall : Call Unit where
  request_id := List.replicate 32 (.scalar '0')
  operation := Points.text "translate"
  provider_id := Points.text "remote"
  model_id := none
  payload := .obj (record [("cues", .arr [exampleCue.toDict]), ("glossary", .arr []),
    ("source_language", .str (Points.text "en")), ("target_language", .str (Points.text "zh"))])
  audio_destination := none
  has_factory := true
  claim_token := []
  implementation := []
  version := []
  bits := 64

def exampleMoment : Moment := ⟨some ⟨"running", []⟩, .none⟩

/-- everything goes well, up to an interrupt of the cleanup -/
def exampleAnswers : Answers Unit where
  provider := .ok ()
  canceled := .ok false
  canceled_in_lock := .ok false
  authorization := .ok ⟨true⟩
  provider_in_lock := .ok ()
  scratch := .ok (Points.text "/work")
  source := .ok false
  input_copied := .ok ()
  fingerprint := .ok ()
  request_written := .ok ()
  environment := .ok ()
  authorization_again := .ok ()
  reserved := ⟨.reserved, 0, [], []⟩
  reserve := .none
  canceled_at_last := .ok false
  dispatch := exampleMoment
  runner := .ok 0
  progress_failure := none
  source_after := .ok ()
  input_after := .ok ()
  authorization_after := .ok ()
  result := .ok (Result.toDict ⟨List.replicate 32 (.scalar '0'), some (Points.text "remote"), none,
    .ok (.translate ⟨Points.text "en", Points.text "zh", [(Points.text "a", Points.text "hi")]⟩)⟩)
  audio_copied := .ok (0, [])
  respond := exampleMoment
  release := exampleMoment
  unknown := exampleMoment
  cleanup := some .exit

/-- the invocation is responded, and the run raises the interrupt -/
theorem cleanup_interrupted :
    ¬ Conservative noFloats exampleCall exampleAnswers (fun _ => False) (run noFloats exampleCall exampleAnswers Session.start).1
      (run noFloats exampleCall exampleAnswers Session.start).2 := by
  have houtcome : (run noFloats exampleCall exampleAnswers Session.start).1 = .error .exit := by rfl
  have hstate : (run noFloats exampleCall exampleAnswers Session.start).2.row.map LedgerRow.state = some .responded := by rfl
  have hfailures : (run noFloats exampleCall exampleAnswers Session.start).2.failures = [] := by rfl
  intro h
  rcases (h.raised _ houtcome).resolve_right id with hnone | ⟨row, hrow, hreleased⟩ | ⟨-, hcode⟩ | ⟨e, he, -⟩
  · rw [hnone] at hstate
    cases hstate
  · rw [hrow, Option.map_some, hreleased] at hstate
    cases hstate
  · cases hcode
  · rw [hfailures] at he
    cases he

end OpenFlame.Bridge
