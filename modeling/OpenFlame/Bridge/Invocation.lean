import OpenFlame.Base.Effect
import OpenFlame.Wire.Messages

/-!
# The invocation of a remote provider

`Exn`                       the exceptions that a run tells apart
`LedgerRow`, `transition`   the row of an invocation, and what the ledger does to it
`Session`                   the row, the guard of a run, and what became of the ledger's operations
`ledgerCall`                an operation of the ledger; it may raise before its commit and after it
`dispatch`, `respond`, `release`, `fail`   `_InvocationGuard`
-/

set_option linter.all false

namespace OpenFlame.Bridge
open Points Wire

inductive CommandError where
  | canceled | timedOut | outputLimit | policy | process | execution
  deriving DecidableEq

inductive Exn where
  /-- `AiBridgeError` -/
  | bridge (code : Text)
  /-- `AiProtocolError` -/
  | protocol (code : Text)
  /-- `AiRuntimeError` -/
  | runtime (code : Text)
  | command (e : CommandError)
  /-- another `Exception`, with its `code` if it has a text for one -/
  | other (code : Option Text)
  /-- a `BaseException` that is no `Exception` -/
  | exit
  deriving DecidableEq

/-- `AiBridgeError(code)` -/
def bridgeError (code : Text) : Exn := .bridge (if isCode code = true then code else Points.text "ai_bridge_failed")

/-- `getattr(exc, "code", None)` -/
def Exn.code : Exn → Option Text
  | .bridge code => some code
  | .protocol code => some code
  | .runtime code => some code
  | .command _ => none
  | .other code => code
  | .exit => none

/-- how an exception of the ledger leaves the guard: one that is no `Exception` as it is -/
def Exn.surface : Exn → Exn
  | .bridge code => .bridge code
  | .exit => .exit
  | e => .bridge ((e.code.filter isCode).getD (Points.text "ai_remote_ledger_unavailable"))

/-! ## the ledger -/

inductive InvocationState where
  | reserved | dispatched | responded | released | unknown | reconciled
  deriving DecidableEq

/-- the columns of `ai_invocations` that a transition reads or writes -/
structure LedgerRow where
  state : InvocationState
  revision : Nat
  resolution : Text
  reason_code : Text

/-- the task or the plan that an invocation is for -/
structure Owner where
  state : String
  claim_token : Text

structure Transition where
  target : InvocationState
  sources : List InvocationState
  dispatch : Bool
  idempotent : Bool

namespace Transition

def dispatch' : Transition := ⟨.dispatched, [.reserved], true, false⟩
def respond : Transition := ⟨.responded, [.dispatched], false, true⟩
def release : Transition := ⟨.released, [.reserved], false, true⟩
def unknown : Transition := ⟨.unknown, [.dispatched], false, true⟩

end Transition

section
open Guard

/-- `_transition`: the row it writes, or none if it finds it written -/
def transition (claim_token : Text) (owner : Option Owner) (t : Transition) (reason_code : Text) (revision : Nat)
    (row : LedgerRow) : Except String (Option LedgerRow) := do
  require (revision ≤ 999999 ∧ isCode reason_code = true) "ai_invocation_invalid"
  let owner ← fetch owner "ai_invocation_owner_not_found"
  require (owner.state = "running" ∨ t.dispatch = false ∧ owner.state = "canceling") "ai_invocation_owner_inactive"
  require (owner.claim_token = claim_token) "ai_invocation_owner_changed"
  if t.idempotent = true ∧ row.state = t.target ∧ row.revision = revision + 1 ∧ row.resolution = [] ∧
      row.reason_code = reason_code then return none
  else
    require (row.state ∈ t.sources ∧ row.revision = revision) "ai_invocation_state_conflict"
    return some ⟨t.target, revision + 1, [], reason_code⟩

end

/-- what goes wrong with an operation of the ledger: nothing is written, or everything is -/
inductive Fault where
  | none
  | before (e : Exn)
  | after (e : Exn)

/-- what an operation of the ledger meets -/
structure Moment where
  owner : Option Owner
  fault : Fault

inductive GuardState where
  | reserved | dispatched | responded | released | unknown
  deriving DecidableEq

/-- the invocation of a run -/
structure Session where
  /-- the row in the ledger -/
  row : Option LedgerRow
  /-- the revision in `_LedgerInvocation._record` -/
  record : Nat
  /-- `invocation`, with its `state` -/
  guard : Option GuardState
  /-- whether the subprocess runner was entered -/
  entered : Bool
  /-- the states that the run wrote to the row -/
  commits : List InvocationState
  /-- what operations of the ledger raised -/
  failures : List Exn

def Session.start : Session := ⟨none, 0, none, false, [], []⟩

section
variable {α : Type}

/-- an operation of the ledger raises -/
def fails (e : Exn) : Effect Session Exn α := fun s => (.error e, { s with failures := e :: s.failures })

/-- `AiInvocationLedgerError` -/
def ledgerError (code : String) : Exn := .other (some (Points.text code))

end

/-- `reserve` of the factory: the row that it inserts, or that is there for this very request -/
def reserve (fault : Fault) (row : LedgerRow) : Effect Session Exn Unit := fun s =>
  match fault with
  | .before e => fails e s
  | .after e => fails e { s with row := some row }
  | .none => (.ok (), { s with row := some row, record := row.revision })

section
variable (claim_token : Text)

/-- a transition of the row -/
def ledgerCall (m : Moment) (t : Transition) (reason_code : Text) : Effect Session Exn Unit := fun s =>
  match m.fault, s.row with
  | .before e, _ => fails e s
  | _, none => fails (ledgerError "ai_invocation_not_found") s
  | fault, some row =>
    match transition claim_token m.owner t reason_code s.record row with
    | .error code => fails (ledgerError code) s
    | .ok written =>
      let s' := match written with
        | none => s
        | some row' => { s with row := some row', commits := s.commits ++ [t.target] }
      match fault with
      | .after e => fails e s'
      | _ => (.ok (), { s' with record := (written.getD row).revision })

/-! ## the guard -/

/-- `_call` -/
def call (x : Effect Session Exn Unit) : Effect Session Exn Unit := x.mapError Exn.surface

def setGuard (state : GuardState) : Effect Session Exn Unit := Effect.modify (fun s => { s with guard := some state })

def dispatch (m : Moment) : Effect Session Exn Unit := do
  let s ← Effect.get
  Effect.require (s.guard = some .reserved) (bridgeError (Points.text "ai_remote_ledger_conflict"))
  call (ledgerCall claim_token m .dispatch' (Points.text "remote_dispatch_started"))
  setGuard .dispatched

def respond (m : Moment) : Effect Session Exn Unit := do
  let s ← Effect.get
  Effect.require (s.guard = some .dispatched) (bridgeError (Points.text "ai_remote_ledger_conflict"))
  call (ledgerCall claim_token m .respond (Points.text "runtime_response_validated"))
  setGuard .responded

def release (m : Moment) (code : Text) : Effect Session Exn Unit := do
  call (ledgerCall claim_token m .release code)
  setGuard .released

def markUnknown (m : Moment) (code : Text) : Effect Session Exn Unit := do
  call (ledgerCall claim_token m .unknown code)
  setGuard .unknown

/-- the two branches of `fail` -/
def closing (released unknown : Moment) (code : Text) : Option GuardState → Effect Session Exn Unit
  | some .reserved => release claim_token released code
  | some .dispatched => markUnknown claim_token unknown code
  | _ => pure ()

/-- `fail`: the state of the guard after it -/
def fail (released unknown : Moment) (code : Text) : Effect Session Exn (Option GuardState) := do
  let s ← Effect.get
  closing claim_token released unknown code s.guard
  let s ← Effect.get
  return s.guard

end

end OpenFlame.Bridge
