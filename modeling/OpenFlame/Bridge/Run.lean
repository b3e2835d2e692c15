import OpenFlame.Bridge.Invocation

/-!
# A run of the AI bridge

`Call`, `Answers`            the arguments of a run, and what everything outside of it answers, each time it is asked
`prepare`                    from the lock to the last check before the invocation
`invoke`                     the invocation, the subprocess and its result
`close`                      the three `except` clauses
`run`                        `AiRuntimeBridge.run`

Everything that is asked may raise anything.
-/

set_option linter.all false

namespace OpenFlame.Bridge
open Points Wire

variable {F : Type}

/-- the arguments of `run`, the id that it draws, and what the verified manifest says of the interpreter -/
structure Call (F : Type) where
  request_id : Text
  operation : Text
  provider_id : Text
  model_id : Option Text
  payload : Value F
  audio_destination : Option Text
  has_factory : Bool
  claim_token : Text
  implementation : Text
  version : List Nat
  bits : Int

/-- what a run needs of an authorization -/
structure Authorized where
  remote : Bool

/-- the answers to a run, in the order in which it asks -/
structure Answers (F : Type) where
  /-- the provider, its model and its egress, by the manifest in memory -/
  provider : Except Exn Unit
  canceled : Except Exn Bool
  canceled_in_lock : Except Exn Bool
  /-- `require_operation_authorization`, or `verify_for_operation` before a health check -/
  authorization : Except Exn Authorized
  provider_in_lock : Except Exn Unit
  scratch : Except Exn Text
  /-- `_source_identity`: whether the payload has a source -/
  source : Except Exn Bool
  input_copied : Except Exn Unit
  fingerprint : Except Exn Unit
  request_written : Except Exn Unit
  environment : Except Exn Unit
  authorization_again : Except Exn Unit
  /-- the row that `reserve` inserts or finds, and what goes wrong with it -/
  reserved : LedgerRow
  reserve : Fault
  canceled_at_last : Except Exn Bool
  dispatch : Moment
  /-- the return code of the subprocess -/
  runner : Except Exn Int
  progress_failure : Option Text
  source_after : Except Exn Unit
  input_after : Except Exn Unit
  authorization_after : Except Exn Unit
  result : Except Exn (Value F)
  /-- the size and the digest of the copied audio -/
  audio_copied : Except Exn (Int × Text)
  respond : Moment
  release : Moment
  unknown : Moment
  /-- what `_remove_tree` lets through -/
  cleanup : Option Exn

/-- a result of the validators -/
def ofWire {α : Type} (x : Except Wire.Exn α) : Except Exn α :=
  x.mapError (fun e =>
    match e with
    | .protocol code => .protocol (Points.text code)
    | .typeError => .other none)

/-- `except AiProtocolError as exc: raise AiBridgeError(exc.code)`, and the same of `AiRuntimeError` -/
def recode : Exn → Exn
  | .protocol code => bridgeError code
  | .runtime code => bridgeError code
  | e => e

/-- `except AiRuntimeError as exc: raise AiBridgeError(exc.code)` -/
def recodeRuntime : Exn → Exn
  | .runtime code => bridgeError code
  | e => e

/-- `except AiProtocolError: raise AiBridgeError("ai_worker_result_invalid")` -/
def recodeResult : Exn → Exn
  | .protocol _ => bridgeError (Points.text "ai_worker_result_invalid")
  | e => e

/-- the `except` clauses around the subprocess runner -/
def recodeCommand : Exn → Exn
  | .command .canceled => bridgeError (Points.text "ai_operation_canceled")
  | .command .timedOut => bridgeError (Points.text "ai_operation_timeout")
  | .command .outputLimit => bridgeError (Points.text "ai_worker_output_limit")
  | .command .policy => bridgeError (Points.text "ai_worker_unavailable")
  | .command .process => bridgeError (Points.text "ai_worker_unavailable")
  | .command .execution => bridgeError (Points.text "ai_worker_failed")
  | e => e

/-- `raise AiBridgeError(code)` if `c` does not hold -/
def demand {σ : Type} (c : Prop) [Decidable c] (code : String) : Effect σ Exn Unit :=
  Effect.require c (bridgeError (Points.text code))

/-- `if cancelled(): raise AiBridgeError("ai_operation_canceled")` -/
def unlessCanceled {σ : Type} (answer : Except Exn Bool) : Effect σ Exn Unit := do
  let canceled ← Effect.ask answer
  demand (canceled = false) "ai_operation_canceled"

/-- `payload[key] = text` -/
def withText (payload : Value F) (key : String) (s : Text) : Value F :=
  match payload with
  | .obj ms => .obj (Points.insert (Points.text key) (.str s) ms)
  | v => v

/-- the same request with another payload -/
def withPayload (r : Request F) (payload : Value F) : Value F :=
  .obj (record [("model_id", ofOption r.model_id), ("operation", .str r.payload.operation.name), ("payload", payload),
    ("provider_id", .str r.provider_id), ("request_id", .str r.request_id), ("schema", .int 1)])

section
variable (nums : Numbers F) (c : Call F) (env : Answers F)

/-- the request that is validated first -/
def Call.request (c : Call F) : Value F :=
  .obj (record [("model_id", ofOption c.model_id), ("operation", .str c.operation), ("payload", c.payload),
    ("provider_id", .str c.provider_id), ("request_id", .str c.request_id), ("schema", .int 1)])

def Call.isHealth (c : Call F) : Prop := c.operation = Points.text "health"

instance : Decidable c.isHealth := inferInstanceAs (Decidable (_ = _))

/-- up to the scratch directory: no invocation is there yet -/
def admission : Effect Session Exn (Request F × Authorized × Text) := do
  let request ← Effect.ask ((ofWire (validateRequest nums c.request)).mapError recode)
  Effect.ask (env.provider.mapError recode)
  unlessCanceled env.canceled
  unlessCanceled env.canceled_in_lock
  let authorization ← Effect.ask (env.authorization.mapError recodeRuntime)
  Effect.ask (if c.isHealth then .ok () else env.provider_in_lock)
  let scratch ← Effect.ask env.scratch
  return (request, authorization, scratch)

/-- what is done to the scratch directory before the invocation; the request that the worker will read -/
def prepare (request : Request F) (scratch : Text) : Effect Session Exn (Request F) := do
  let request ← (
    if c.operation = Points.text "synthesize" then do
      demand (c.audio_destination.isSome = true) "ai_audio_destination_required"
      Effect.ask (ofWire (validateRequest nums
        (withPayload request (withText request.payload.toDict "output_path" (scratch ++ Points.text "/output.wav")))))
    else do
      demand (c.audio_destination = none) "ai_audio_destination_invalid"
      return request)
  let source ← Effect.ask env.source
  let request ← (
    if c.operation = Points.text "transcribe" ∧ source = true then do
      Effect.ask env.input_copied
      Effect.ask (ofWire (validateRequest nums
        (withPayload request (withText request.payload.toDict "media_path" (scratch ++ Points.text "/input.m4a")))))
    else return request)
  Effect.ask env.fingerprint
  Effect.ask env.request_written
  Effect.ask env.environment
  Effect.ask (env.authorization_again.mapError recodeRuntime)
  return request

/-- the invocation, if the authorization is for a remote provider -/
def open' (authorization : Authorized) : Effect Session Exn Unit :=
  if ¬ c.isHealth ∧ authorization.remote = true then do
    demand (c.has_factory = true) "ai_remote_ledger_required"
    call (reserve env.reserve env.reserved)
    setGuard .reserved
  else demand (c.has_factory = false) "ai_remote_ledger_invalid"

/-- `runner.run` -/
def runWorker : Effect Session Exn Int := do
  Effect.modify (fun s => { s with entered := true })
  Effect.ask (env.runner.mapError recodeCommand)

/-- the result that the worker left, for this very request -/
def readResult : Effect Session Exn Result :=
  Effect.ask ((do
    let value ← env.result
    ofWire (validateResult nums (some c.request_id) (some c.operation) value)).mapError recodeResult)

/-- what is checked of a payload besides the contract; a copied audio has another path -/
def deliver (request : Request F) (scratch : Text) : ResultPayload → Effect Session Exn ResultPayload
  | .health p => do
    demand (p.implementation = c.implementation ∧ p.version = c.version ∧ p.bits = c.bits) "ai_runtime_identity_mismatch"
    return .health p
  | .transcribe p => return .transcribe p
  | .translate p => do
    demand (∀ q ∈ (match request.payload with | .translate q => some q | _ => none),
      p.items.map Prod.fst = q.cues.map Cue.id) "ai_translation_alignment_invalid"
    return .translate p
  | .synthesize p => do
    demand (p.path = scratch ++ Points.text "/output.wav") "ai_audio_output_invalid"
    let copied ← Effect.ask env.audio_copied
    demand (copied = (p.size, p.sha256)) "ai_audio_output_changed"
    return .synthesize { p with path := c.audio_destination.getD [] }

/-- what the worker answered, once everything about it is checked -/
def collect (request : Request F) (scratch : Text) (returncode : Int) : Effect Session Exn ResultPayload := do
  (match env.progress_failure with
    | none => pure ()
    | some code => Effect.raise (bridgeError code))
  Effect.ask env.source_after
  Effect.ask env.input_after
  Effect.ask (env.authorization_after.mapError recodeRuntime)
  let result ← readResult nums c env
  demand (result.provider_id = some c.provider_id ∧ result.model_id = c.model_id) "ai_worker_result_mismatch"
  match result.outcome with
  | .error _ code => Effect.raise (bridgeError code)
  | .ok payload => do
    demand (returncode = 0) "ai_worker_failed"
    deliver c env request scratch payload

/-- `if invocation is not None: invocation.dispatch()`, and the same of `respond` -/
def ifInvoked (x : Effect Session Exn Unit) : Effect Session Exn Unit := do
  let s ← Effect.get
  if s.guard = none then return () else x

/-- the `try` block -/
def attempt (request : Request F) (authorization : Authorized) (scratch : Text) : Effect Session Exn ResultPayload := do
  let request ← prepare nums c env request scratch
  open' c env authorization
  unlessCanceled env.canceled_at_last
  ifInvoked (dispatch c.claim_token env.dispatch)
  let returncode ← runWorker env
  let payload ← collect nums c env request scratch returncode
  ifInvoked (respond c.claim_token env.respond)
  return payload

/-- an `except` clause: the invocation is closed, and `e` is raised if its outcome is not unknown -/
def closeWith {α : Type} (code : Text) (e : Exn) : Effect Session Exn α := do
  let s ← Effect.get
  if s.guard = none then Effect.raise e
  else
    let state ← fail c.claim_token env.release env.unknown code
    if state = some .unknown then Effect.raise (bridgeError (Points.text "ai_remote_result_unknown")) else Effect.raise e

/-- the three `except` clauses -/
def close {α : Type} : Exn → Effect Session Exn α
  | .bridge code => closeWith c env code (.bridge code)
  | .protocol code => closeWith c env code (bridgeError code)
  | .runtime code => closeWith c env code (bridgeError code)
  | e => closeWith c env (Points.text "ai_bridge_failed") e

/-- `_remove_tree` of the scratch directory -/
def removeScratch : Effect Session Exn Unit :=
  match env.cleanup with
  | none => pure ()
  | some e => Effect.raise e

/-- `AiRuntimeBridge.run` -/
def run : Effect Session Exn ResultPayload := do
  let (request, authorization, scratch) ← admission nums c env
  Effect.tryFinally
    (Effect.tryExcept (attempt nums c env request authorization scratch) (close c env))
    (removeScratch env)

end

end OpenFlame.Bridge
