import OpenFlame.Base.Runs
import OpenFlame.Upload.Scheduler

/-!
# The upload service and its clients

`World`   the store, what the scheduler is doing, and the events of the run so far
`Label`   one transaction of a client, or one step of the scheduler
`World.apply`, `World.allows`: what it does, and what `uuid4` promises

At most one process holds the scheduler lock, so there is one `Exec`.  A crash, a failed scheduler
transaction and a stop all leave it `down`; only recovery starts it again.  The backend is called in
a step of its own, after the transaction that commits the dispatch boundary, and its answer comes in
a later one.  A transaction that raises leaves the store as it is, so only those that return are steps.
-/

set_option linter.all false

namespace OpenFlame.Upload
open Guard TransSys

/-- what the scheduler is doing -/
inductive Exec where
  | down
  | idle
  | holding (row : Job)
  | dispatched (row : Job)
  | invoked (row : Job)
  | operating (row : Operation)
  deriving DecidableEq

/-- the upload the scheduler has claimed -/
def Exec.upload : Exec → Option Job
  | .holding row | .dispatched row | .invoked row => some row
  | .down | .idle | .operating _ => none

/-- what an observer of the run sees; a dispatch carries the store it was committed to -/
inductive Event where
  | confirmed (job_id : Ident)
  | loginCreated (account_id operation_id : Ident)
  | dispatchCommitted (job_id : Ident) (db : DB)
  | uploadInvoked (job_id : Ident)

structure World where
  db : DB
  exec : Exec
  log : List Event

def World.initial : World := ⟨.initial, .down, []⟩

/-- how an upload ends before it is dispatched -/
inductive Abandon where
  | stopped
  | uploadError (code : Code)
  | exception
  deriving DecidableEq

def Abandon.outcome : Abandon → Outcome
  | .stopped => .result ⟨"canceled", "canceled_before_upload", none⟩
  | .uploadError code => .uploadError code
  | .exception => .exception

inductive Label where
  | addAccount (platform : Platform) (name : Raw) (account_id : Ident)
  | disconnectAccount (account_id : Ident)
  | scrubAccount (account_id : Ident) (removed : Bool)
  | accountAction (env : Env) (account_id : Ident) (action : Action) (operation_id : Ident)
  | cancelOperation (operation_id : Ident)
  | importSource (source_id : Ident) (sha256 : Digest)
  | importCover (asset_id : Ident) (sha256 : Digest) (width height : Nat)
  | setSourceMedia (source_id : Ident) (media_state : MediaState)
  | setCoverMedia (asset_id : Ident) (media_state : MediaState)
  | createJobs (env : Env) (intent : UploadIntent) (idempotency_key : String)
      (bindings : Option (List AccountBinding)) (new_id : Nat → Ident)
  | claimOrReadWorkflowCancellation (idempotency_key : String)
  | claimWorkflowRequestForCancellation (env : Env) (idempotency_key : String) (expected : UploadIntent)
  | confirm (env : Env) (job_id : Ident)
  | confirmMany (env : Env) (job_ids : List Ident) (bindings : Option (List AccountBinding))
  | cancel (job_id : Ident)
  | cancelMany (job_ids : List Ident) (targets : Option (List UploadSlot)) (bindings : Option (List AccountBinding))
  | retry (env : Env) (job_id new_id : Ident)
  | retryMany (env : Env) (job_ids : List Ident) (targets : List UploadSlot) (bindings : List AccountBinding)
      (keys : List String) (requests : List (String × UploadIntent)) (new_id : Nat → Ident)
  | reconcileUnknown (job_id attempt_id : Ident) (expected_revision : Nat) (conclusion : Reconciliation)
      (acknowledged : Bool) (now : Time)
  | claim (env : Env) (attempt_id : Ident)
  | abandonUpload (why : Abandon) (now : Time)
  | markUploadDispatch (env : Env) (now : Time)
  | invokeUpload
  | finishUpload (outcome : Outcome) (now : Time)
  | finishOperation (outcome : Outcome) (stopped : Bool)
  | crash
  | recover (now : Time)

/-- identifiers for a batch: fresh and distinct -/
def DB.FreshFor (db : DB) (new_id : Nat → Ident) (n : Nat) : Prop :=
  (∀ i < n, db.Fresh (new_id i)) ∧ ((List.range n).map new_id).Nodup

instance (db : DB) (new_id : Nat → Ident) : DecidablePred (db.FreshFor new_id) :=
  fun _ => inferInstanceAs (Decidable (_ ∧ _))

/-- what `uuid4` promises -/
def World.allows (w : World) : Label → Prop
  | .addAccount _ _ id | .accountAction _ _ _ id | .importSource id _ | .importCover id _ _ _ | .retry _ _ id
  | .claim _ id => w.db.Fresh id
  | .createJobs _ intent _ _ new_id => w.db.FreshFor new_id intent.account_ids.length
  | .retryMany _ job_ids _ _ _ _ new_id => w.db.FreshFor new_id job_ids.length
  | _ => True

instance (w : World) : DecidablePred w.allows
  | .addAccount _ _ id | .accountAction _ _ _ id | .importSource id _ | .importCover id _ _ _ | .retry _ _ id
  | .claim _ id => inferInstanceAs (Decidable (w.db.Fresh id))
  | .createJobs _ intent _ _ new_id => inferInstanceAs (Decidable (w.db.FreshFor new_id intent.account_ids.length))
  | .retryMany _ job_ids _ _ _ _ new_id => inferInstanceAs (Decidable (w.db.FreshFor new_id job_ids.length))
  | .disconnectAccount .. | .scrubAccount .. | .cancelOperation .. | .setSourceMedia .. | .setCoverMedia ..
  | .claimOrReadWorkflowCancellation .. | .claimWorkflowRequestForCancellation .. | .confirm .. | .confirmMany ..
  | .cancel .. | .cancelMany .. | .reconcileUnknown .. | .abandonUpload .. | .markUploadDispatch .. | .invokeUpload
  | .finishUpload .. | .finishOperation .. | .crash | .recover .. => .isTrue trivial

/-- the jobs of a confirmation that it moves from draft to queued -/
def DB.drafts (db : DB) (job_ids : List Ident) : List Ident :=
  job_ids.filter (fun id => (db.jobs.get id).any (fun r => r.state == .draft))

def Claimed.exec : Option Claimed → Exec
  | some (.operation row) => .operating row
  | some (.upload row) => .holding row
  | none => .idle

section
variable (host : Host)

/-- the step of a label -/
def World.apply (w : World) : Label → Except Code World
  | .addAccount platform name id => do return { w with db := ← Upload.addAccount w.db platform name id }
  | .disconnectAccount account_id => do return { w with db := ← Upload.disconnectAccount w.db account_id }
  | .scrubAccount account_id removed => return { w with db := Upload.scrubAccount w.db account_id removed }
  | .accountAction env account_id action operation_id => do
    let db ← Upload.accountAction env w.db account_id action operation_id
    return { w with
      db, log := if action = .login then w.log ++ [.loginCreated account_id operation_id] else w.log }
  | .cancelOperation operation_id => do return { w with db := ← Upload.cancelOperation w.db operation_id }
  | .importSource id sha256 => do return { w with db := ← Upload.importSource w.db id sha256 }
  | .importCover id sha256 width height => do
    return { w with db := ← Upload.importCover w.db id sha256 width height }
  | .setSourceMedia id state => return { w with db := Upload.setSourceMedia w.db id state }
  | .setCoverMedia id state => return { w with db := Upload.setCoverMedia w.db id state }
  | .createJobs env intent key bindings new_id => do
    return { w with db := (← Upload.createJobs host env w.db intent key bindings new_id).1 }
  | .claimOrReadWorkflowCancellation key => do
    return { w with db := (← Upload.claimOrReadWorkflowCancellation host w.db key).1 }
  | .claimWorkflowRequestForCancellation env key expected => do
    return { w with db := (← Upload.claimWorkflowRequestForCancellation host env w.db key expected).1 }
  | .confirm env job_id => do
    let db := (← Upload.confirm host env w.db job_id).1
    return { w with db, log := w.log ++ (w.db.drafts [job_id]).map .confirmed }
  | .confirmMany env job_ids bindings => do
    let db := (← Upload.confirmMany host env w.db job_ids bindings).1
    return { w with db, log := w.log ++ (w.db.drafts job_ids).map .confirmed }
  | .cancel job_id => do return { w with db := (← Upload.cancel w.db job_id).1 }
  | .cancelMany job_ids targets bindings => do
    return { w with db := (← Upload.cancelMany w.db job_ids targets bindings).1 }
  | .retry env job_id new_id => do return { w with db := (← Upload.retry host env w.db job_id new_id).1 }
  | .retryMany env job_ids targets bindings keys requests new_id => do
    return { w with db := (← Upload.retryMany host env w.db job_ids targets bindings keys requests new_id).1 }
  | .reconcileUnknown job_id attempt_id revision conclusion acknowledged now => do
    return { w with
      db := (← Upload.reconcileUnknown host w.db job_id attempt_id revision conclusion acknowledged now).1 }
  | .claim env attempt_id =>
    match w.exec with
    | .idle => do
      let out ← Upload.claim host env w.db attempt_id
      return { w with db := out.1, exec := Claimed.exec out.2 }
    | _ => throw "disabled"
  | .abandonUpload why now =>
    match w.exec with
    | .holding row => do
      return { w with db := ← finalizeUpload w.db row why.outcome false now, exec := .idle }
    | _ => throw "disabled"
  | .markUploadDispatch env now =>
    match w.exec with
    | .holding row => do
      let out ← Upload.markUploadDispatch host env w.db row.id now
      require (out.2 = true) "canceled_before_upload"
      return { db := out.1, exec := .dispatched row, log := w.log ++ [.dispatchCommitted row.id out.1] }
    | _ => throw "disabled"
  | .invokeUpload =>
    match w.exec with
    | .dispatched row => return { w with exec := .invoked row, log := w.log ++ [.uploadInvoked row.id] }
    | _ => throw "disabled"
  | .finishUpload outcome now =>
    match w.exec with
    | .invoked row => do return { w with db := ← finalizeUpload w.db row outcome true now, exec := .idle }
    | _ => throw "disabled"
  | .finishOperation outcome stopped =>
    match w.exec with
    | .operating row => return { w with db := finalizeOperation w.db row outcome stopped, exec := .idle }
    | _ => throw "disabled"
  | .crash => return { w with exec := .down }
  | .recover now =>
    match w.exec with
    | .down => do return { w with db := ← recoverInterruptedRecords host w.db now, exec := .idle }
    | _ => throw "disabled"

def World.Step (w : World) (l : Label) (w' : World) : Prop := w.allows l ∧ w.apply host l = .ok w'

abbrev World.Reachable (w : World) : Prop := Reach (· = World.initial) (World.Step host) w

/-- a run, computed -/
def World.run (w : World) : List Label → Option World
  | [] => some w
  | l :: ls =>
    if w.allows l then
      match w.apply host l with
      | .ok w' => w'.run ls
      | .error _ => none
    else none

theorem World.run_append (w : World) (ls ls' : List Label) :
    w.run host (ls ++ ls') = (w.run host ls).bind (fun w' => w'.run host ls') := by
  induction ls generalizing w with
  | nil => rfl
  | cons l ls ih =>
    rw [List.cons_append, World.run, World.run]
    split
    · split
      · exact ih _
      · rfl
    · rfl

theorem World.run_eq_some {w w' : World} {ls : List Label} (h : w.run host ls = some w') :
    Run (World.Step host) w ls w' := by
  induction ls generalizing w with
  | nil =>
    cases h
    exact .nil _
  | cons l ls ih =>
    unfold World.run at h
    split at h
    · next hallow =>
      split at h
      · next w₁ happly => exact .cons ⟨hallow, happly⟩ (ih h)
      · cases h
    · cases h

/-- the world a run from the empty store ends in -/
theorem World.reachable_run {w : World} {ls : List Label} (h : World.initial.run host ls = some w) :
    w.Reachable host := by
  have hinit : World.initial.Reachable host := .init rfl
  exact hinit.run (World.run_eq_some host h)

end

end OpenFlame.Upload
